import Fullerene.Lib.Machine
import Fullerene.Lib.Word
import Mathlib.Data.List.MinMax
import Mathlib.Data.Prod.Lex

/-!
# ChronoLine, a timer queue

`ChronoLine` keeps its timers in a `BinaryHeap` whose `Ord` is reversed on
`(deadline, id)`, so `peek` and `pop` give a timer of least deadline, and of
least id among those.  `pop_expired` pops that timer when its deadline has
passed; a repeating timer is pushed back under the same id, at its next
period for `FixedRate` and one interval after `now` for `FixedDelay`, and the
popped copy reports the periods it missed, capped at `max_catch_up`.

The heap is a list; `BinaryHeap::peek` and `pop` return the first element of
least key (`List.argmin`), which the heap does up to the order of timers with
equal keys.  Ticks and identifiers are `u64` values; the saturating operations
stop at `u64::MAX`, and `next_id += 1` panics past it.

While `now + interval` fits a word for every repeating timer, a popped timer
comes back strictly after `now` (`deadline_after_now`), and popping until
`None` ends after as many calls as there are expired timers
(`drainExpired_ends`).  At `now = u64::MAX` a `FixedDelay` timer comes back at
`u64::MAX` itself and is popped again forever
(`pop_expired_repeats_forever_at_max`).
-/

namespace Fullerene.Chronoline

inductive TimerMode
  | oneShot
  | repeating (intervalTicks : Nat)
  deriving DecidableEq, Repr

inductive TimerPolicy
  | fixedRate
  | fixedDelay
  deriving DecidableEq, Repr

/-- `TimerPolicy::default()`. -/
def TimerPolicy.default : TimerPolicy := .fixedDelay

inductive RegisterError
  | zeroInterval
  | timerFull
  deriving DecidableEq, Repr

structure Timer where
  deadline : Nat
  id : Nat
  mode : TimerMode
  policy : TimerPolicy
  missedTicks : Nat
  maxCatchUp : Nat
  deriving DecidableEq, Repr

/-- What `Ord for Timer` compares, in the order of the timer that pops first. -/
def Timer.key (timer : Timer) : Lex (Nat × Nat) := toLex (timer.deadline, timer.id)

structure ChronoLine where
  timers : List Timer
  now : Nat
  nextId : Nat
  maxCatchUp : Nat
  deriving DecidableEq, Repr

namespace ChronoLine

variable (line : ChronoLine)

/-- `ChronoLine::new()`. -/
def new : ChronoLine := ⟨[], 0, 0, Word.max 64⟩

def setMaxCatchUp (limit : Nat) : ChronoLine := { line with maxCatchUp := limit }

/-- `register_with_mode_and_policy`. -/
def registerWithModeAndPolicy (deadline id : Nat) (mode : TimerMode) (policy : TimerPolicy) :
    Except RegisterError Nat × ChronoLine :=
  match mode with
  | .repeating 0 => (.error .zeroInterval, line)
  | _ => (.ok id, { line with timers := line.timers ++ [⟨deadline, id, mode, policy, 0, line.maxCatchUp⟩] })

def registerWithMode (deadline id : Nat) (mode : TimerMode) : Except RegisterError Nat × ChronoLine :=
  line.registerWithModeAndPolicy deadline id mode TimerPolicy.default

def register (deadline id : Nat) : Except RegisterError Nat × ChronoLine :=
  line.registerWithMode deadline id .oneShot

/-- `register_auto`: `none` is the panic of `next_id += 1`. -/
def registerAuto (deadline : Nat) : Option (Except RegisterError Nat × ChronoLine) :=
  (Word.checkedAdd 64 line.nextId 1).map fun nextId =>
    { line with nextId := nextId }.register deadline line.nextId

def advance (delta : Nat) : ChronoLine := { line with now := Word.saturatingAdd 64 line.now delta }

def tick (now : Nat) : ChronoLine := { line with now := max line.now now }

def resetNow (now : Nat) : ChronoLine := { line with now := now }

/-- `has_expired`: the timer `peek` gives has reached its deadline. -/
def hasExpired : Bool := (line.timers.argmin Timer.key).any fun timer => timer.deadline ≤ line.now

/-- The deadline a repeating timer is pushed back at, after `missed` periods. -/
def rescheduled (timer : Timer) (interval missed : Nat) : Nat :=
  match timer.policy with
  | .fixedRate => Word.saturatingAdd 64 timer.deadline (Word.saturatingMul 64 interval missed)
  | .fixedDelay => Word.saturatingAdd 64 line.now interval

/-- `pop_expired`: the popped timer, and `none` for a panic (the division by
a zero interval). -/
def popExpired : Option (Option Timer × ChronoLine) :=
  if !line.hasExpired then some (none, line)
  else
    match line.timers.argmin Timer.key with
    -- `pop().unwrap()`: `has_expired` saw a timer
    | none => none
    | some timer =>
        let rest := line.timers.erase timer
        match timer.mode with
        | .oneShot => some (some timer, { line with timers := rest })
        | .repeating interval =>
            if interval = 0 then none
            else
              let elapsed := line.now - timer.deadline
              let missed := Word.saturatingAdd 64 (elapsed / interval) 1
              let popped := { timer with missedTicks := min missed timer.maxCatchUp }
              let again := { timer with deadline := line.rescheduled timer interval missed, missedTicks := 0 }
              some (some popped, { line with timers := rest ++ [again] })

def len : Nat := line.timers.length

def nextDeadline : Option Nat := (line.timers.argmin Timer.key).map Timer.deadline

/-- `cancel`: drop the timers with the id and report whether there were any. -/
def cancel (id : Nat) : Bool × ChronoLine :=
  let kept := line.timers.filter fun timer => timer.id != id
  (kept.length != line.timers.length, { line with timers := kept })

def clear : ChronoLine := { line with timers := [] }

/-- A client's loop calling `pop_expired` until it returns `None`, with one
unit of fuel a call: the timers it popped and the line after it, or `none`
when the fuel runs out or a call panics. -/
def drainExpired : Nat → ChronoLine → Option (List Timer × ChronoLine)
  | 0, _ => none
  | fuel + 1, line =>
      match line.popExpired with
      | none => none
      | some (none, after) => some ([], after)
      | some (some timer, after) => (drainExpired fuel after).map fun (popped, final) => (timer :: popped, final)

/-! ## The timer `pop_expired` takes -/

/-- No repeating timer has a zero interval. -/
def Intervals : Prop := ∀ timer ∈ line.timers, timer.mode ≠ .repeating 0

/-- Every repeating timer can come back one interval after `now` without
saturating. -/
def Roomy : Prop := ∀ timer ∈ line.timers, ∀ interval, timer.mode = .repeating interval → line.now + interval < 2 ^ 64

/-- The timers whose deadline has passed. -/
def expiredCount : Nat := line.timers.countP fun timer => timer.deadline ≤ line.now

variable {line}

theorem deadline_le_of_argmin {first other : Timer} (least : first ∈ line.timers.argmin Timer.key)
    (member : other ∈ line.timers) : first.deadline ≤ other.deadline := by
  have ordered := List.le_of_mem_argmin member least
  simp only [Timer.key, Prod.Lex.toLex_le_toLex] at ordered
  omega

/-- The line has an expired timer exactly when the timer on top of the heap
has expired. -/
theorem hasExpired_eq_false_iff : line.hasExpired = false ↔ line.expiredCount = 0 := by
  unfold hasExpired expiredCount
  rw [List.countP_eq_zero]
  cases least : line.timers.argmin Timer.key with
  | none =>
      simp only [Option.any_none, true_iff]
      intro timer member
      simp [List.argmin_eq_none.mp least] at member
  | some first =>
      simp only [Option.any_some, decide_eq_false_iff_not, Nat.not_le, decide_eq_true_eq]
      constructor
      · intro later timer member
        have := deadline_le_of_argmin least member
        omega
      · intro none
        exact none first (List.argmin_mem least)

theorem popExpired_of_not_hasExpired (quiet : line.hasExpired = false) :
    line.popExpired = some (none, line) := by
  simp [popExpired, quiet]

/-- The missed periods of a timer that comes back without saturating. -/
theorem missed_eq {timer : Timer} {interval : Nat} (room : line.now + interval < 2 ^ 64) (positive : 0 < interval) :
    Word.saturatingAdd 64 ((line.now - timer.deadline) / interval) 1 = (line.now - timer.deadline) / interval + 1 := by
  apply Word.saturatingAdd_of_lt
  have := Nat.div_le_self (line.now - timer.deadline) interval
  omega

/-- `pop_expired` on an expired one-shot timer on top of the heap. -/
theorem popExpired_oneShot {timer : Timer} (first : line.timers.argmin Timer.key = some timer)
    (due : timer.deadline ≤ line.now) (oneShot : timer.mode = .oneShot) :
    line.popExpired = some (some timer, { line with timers := line.timers.erase timer }) := by
  have expired : line.hasExpired = true := by simp [hasExpired, first, due]
  simp [popExpired, expired, first, oneShot]

/-- `pop_expired` on an expired repeating timer on top of the heap that can
come back without saturating. -/
theorem popExpired_repeating {timer : Timer} {interval : Nat} (first : line.timers.argmin Timer.key = some timer)
    (due : timer.deadline ≤ line.now) (repeating : timer.mode = .repeating interval) (positive : 0 < interval)
    (room : line.now + interval < 2 ^ 64) :
    line.popExpired = some (some { timer with
        missedTicks := min ((line.now - timer.deadline) / interval + 1) timer.maxCatchUp },
      { line with timers := line.timers.erase timer ++
        [{ timer with deadline := line.rescheduled timer interval ((line.now - timer.deadline) / interval + 1),
                      missedTicks := 0 }] }) := by
  have expired : line.hasExpired = true := by simp [hasExpired, first, due]
  simp [popExpired, expired, first, repeating, Nat.pos_iff_ne_zero.mp positive, missed_eq room positive]

/-- A repeating timer comes back strictly after `now`: for `FixedRate` at
`deadline + k * interval` with `k` the least positive count that passes `now`,
for `FixedDelay` one interval after `now`. -/
theorem deadline_after_now {timer : Timer} {interval : Nat} (room : line.now + interval < 2 ^ 64)
    (positive : 0 < interval) (due : timer.deadline ≤ line.now) :
    line.now < line.rescheduled timer interval ((line.now - timer.deadline) / interval + 1) ∧
      (timer.policy = .fixedRate →
        line.rescheduled timer interval ((line.now - timer.deadline) / interval + 1) =
            timer.deadline + ((line.now - timer.deadline) / interval + 1) * interval ∧
          ∀ count, 0 < count → line.now < timer.deadline + count * interval →
            (line.now - timer.deadline) / interval + 1 ≤ count) ∧
      (timer.policy = .fixedDelay →
        line.rescheduled timer interval ((line.now - timer.deadline) / interval + 1) = line.now + interval) := by
  -- the periods elapsed: `periods * interval ≤ now - deadline < (periods + 1) * interval`
  set periods := (line.now - timer.deadline) / interval with periodsEq
  have split := Nat.div_add_mod (line.now - timer.deadline) interval
  have remainder := Nat.mod_lt (line.now - timer.deadline) positive
  rw [← periodsEq] at split
  have next : (periods + 1) * interval = interval * periods + interval := by rw [Nat.succ_mul, Nat.mul_comm]
  have fits : interval * (periods + 1) < 2 ^ 64 := by rw [Nat.mul_comm, next]; omega
  have fixedRate : timer.policy = .fixedRate →
      line.rescheduled timer interval (periods + 1) = timer.deadline + (periods + 1) * interval := by
    intro rate
    simp only [rescheduled, rate, Word.saturatingMul_of_lt fits]
    rw [Word.saturatingAdd_of_lt (by rw [Nat.mul_comm, next]; omega), Nat.mul_comm]
  have fixedDelay : timer.policy = .fixedDelay →
      line.rescheduled timer interval (periods + 1) = line.now + interval := by
    intro delay
    simp only [rescheduled, delay, Word.saturatingAdd_of_lt room]
  refine ⟨?_, fun rate => ⟨fixedRate rate, fun count _ passes => ?_⟩, fixedDelay⟩
  · cases policy : timer.policy with
    | fixedRate => rw [fixedRate policy, next]; omega
    | fixedDelay => rw [fixedDelay policy]; omega
  · -- a count that passes `now` exceeds the elapsed periods
    have : periods < count := (Nat.div_lt_iff_lt_mul positive).mpr (by omega)
    omega

/-! ## Draining the expired timers -/

/-- One `pop_expired` on a line with an expired timer hands it out and leaves
one expired timer fewer, with the intervals and the room kept. -/
theorem popExpired_expiredCount (intervals : line.Intervals) (roomy : line.Roomy) (expired : line.hasExpired = true) :
    ∃ timer after, line.popExpired = some (some timer, after) ∧ after.now = line.now ∧
      after.expiredCount + 1 = line.expiredCount ∧ after.Intervals ∧ after.Roomy := by
  obtain ⟨first, least, due⟩ : ∃ first, line.timers.argmin Timer.key = some first ∧ first.deadline ≤ line.now := by
    simpa [hasExpired, Option.any_eq_true] using expired
  have member := List.argmin_mem least
  -- the count over the timers without `first` is one less
  have erased : (line.timers.erase first).countP (fun timer => timer.deadline ≤ line.now) + 1 = line.expiredCount := by
    rw [expiredCount, (List.perm_cons_erase member).countP_eq, List.countP_cons]
    simp [due]
  have kept : ∀ timer ∈ line.timers.erase first, timer ∈ line.timers := fun _ inRest => List.mem_of_mem_erase inRest
  cases mode : first.mode with
  | oneShot =>
      refine ⟨first, _, popExpired_oneShot least due mode, rfl, erased, fun timer inRest => intervals timer (kept timer inRest),
        fun timer inRest => roomy timer (kept timer inRest)⟩
  | repeating interval =>
      have positive : 0 < interval := Nat.pos_of_ne_zero fun zero => intervals first member (by rw [mode, zero])
      have room := roomy first member interval mode
      refine ⟨_, _, popExpired_repeating least due mode positive room, rfl, ?_, ?_, ?_⟩
      · -- the timer comes back after `now`, so it is not expired
        have later := (deadline_after_now room positive due).1
        simpa [expiredCount, Nat.not_le.mpr later] using erased
      · intro timer inNew
        rcases List.mem_append.mp inNew with inRest | back
        · exact intervals timer (kept timer inRest)
        · rw [List.mem_singleton.mp back]
          exact intervals first member
      · intro timer inNew
        rcases List.mem_append.mp inNew with inRest | back
        · exact roomy timer (kept timer inRest)
        · rw [List.mem_singleton.mp back]
          exact roomy first member

/-- While every repeating timer has room, popping until `None` ends: with
more fuel than expired timers the loop hands out each of them and stops with
none left. -/
theorem drainExpired_ends :
    ∀ fuel (line : ChronoLine), line.Intervals → line.Roomy → line.expiredCount < fuel →
      ∃ popped final, drainExpired fuel line = some (popped, final) ∧ popped.length = line.expiredCount ∧
        final.expiredCount = 0 := by
  intro fuel
  induction fuel with
  | zero => intro line _ _ enough; omega
  | succ fuel inductionHypothesis =>
      intro line intervals roomy enough
      cases expired : line.hasExpired with
      | false =>
          refine ⟨[], line, by simp [drainExpired, popExpired_of_not_hasExpired expired], ?_, ?_⟩
          · simp [hasExpired_eq_false_iff.mp expired]
          · exact hasExpired_eq_false_iff.mp expired
      | true =>
          -- one pop, then the loop from a line with one expired timer fewer
          obtain ⟨timer, after, popped, -, fewer, afterIntervals, afterRoomy⟩ :=
            popExpired_expiredCount intervals roomy expired
          obtain ⟨rest, final, drained, length, none⟩ :=
            inductionHypothesis after afterIntervals afterRoomy (by omega)
          exact ⟨timer :: rest, final, by simp [drainExpired, popped, drained], by simp [length, ← fewer], none⟩

/-! ## `cancel` -/

/-- `cancel` drops exactly the timers with the id and reports whether there was one. -/
theorem cancel_spec (line : ChronoLine) (id : Nat) :
    (line.cancel id).2.timers = line.timers.filter (fun timer => timer.id != id) ∧
      ((line.cancel id).1 = true ↔ ∃ timer ∈ line.timers, timer.id = id) := by
  refine ⟨rfl, ?_⟩
  have shorter := List.length_filter_le (fun timer : Timer => timer.id != id) line.timers
  simp only [cancel, bne_iff_ne, ne_eq]
  constructor
  · intro differs
    obtain ⟨timer, member, matched⟩ :=
      List.length_filter_lt_length_iff_exists.mp (Nat.lt_of_le_of_ne shorter differs)
    exact ⟨timer, member, by simpa using matched⟩
  · rintro ⟨timer, member, rfl⟩
    have dropped : (line.timers.filter fun other => other.id != timer.id).length < line.timers.length :=
      List.length_filter_lt_length_iff_exists.mpr ⟨timer, member, by simp⟩
    omega

/-! ## The queue as a machine -/

/-- A call of the `ChronoLine` API with its arguments; `register` with any
mode and policy is `register_with_mode_and_policy`. -/
inductive Call
  | register (deadline id : Nat) (mode : TimerMode) (policy : TimerPolicy)
  | registerAuto (deadline : Nat)
  | setMaxCatchUp (limit : Nat)
  | advance (delta : Nat)
  | tick (now : Nat)
  | resetNow (now : Nat)
  | popExpired
  | cancel (id : Nat)
  | clear
  deriving DecidableEq, Repr

inductive Reply
  | registered (result : Except RegisterError Nat)
  | popped (timer : Option Timer)
  | cancelled (existed : Bool)
  | done

/-- One call; `none` when it panics. -/
def step (line : ChronoLine) : Call → Option (Reply × ChronoLine)
  | .register deadline id mode policy =>
      let (result, next) := line.registerWithModeAndPolicy deadline id mode policy
      some (.registered result, next)
  | .registerAuto deadline => (line.registerAuto deadline).map fun (result, next) => (.registered result, next)
  | .setMaxCatchUp limit => some (.done, line.setMaxCatchUp limit)
  | .advance delta => some (.done, line.advance delta)
  | .tick now => some (.done, line.tick now)
  | .resetNow now => some (.done, line.resetNow now)
  | .popExpired => line.popExpired.map fun (timer, next) => (.popped timer, next)
  | .cancel id =>
      let (existed, next) := line.cancel id
      some (.cancelled existed, next)
  | .clear => some (.done, line.clear)

/-- The queue from `ChronoLine::new()`. -/
def machine : Machine ChronoLine Call Reply := ⟨new, step⟩

theorem Intervals.of_subset {line next : ChronoLine} (intervals : line.Intervals)
    (subset : ∀ timer ∈ next.timers, timer ∈ line.timers) : next.Intervals :=
  fun timer member => intervals timer (subset timer member)

theorem Intervals.registerWithModeAndPolicy {line : ChronoLine} (intervals : line.Intervals)
    (deadline id : Nat) (mode : TimerMode) (policy : TimerPolicy) :
    (line.registerWithModeAndPolicy deadline id mode policy).2.Intervals := by
  -- a repeating timer with a zero interval is refused, any other is appended
  intro timer member
  unfold ChronoLine.registerWithModeAndPolicy at member
  split at member
  · exact intervals timer member
  · rename_i accepted
    rcases List.mem_append.mp member with old | new
    · exact intervals timer old
    · rw [List.mem_singleton.mp new]
      exact accepted

theorem Intervals.popExpired {line next : ChronoLine} {popped : Option Timer} (intervals : line.Intervals)
    (stepped : line.popExpired = some (popped, next)) : next.Intervals := by
  unfold ChronoLine.popExpired at stepped
  split_ifs at stepped
  · cases stepped
    exact intervals
  split at stepped
  · cases stepped
  rename_i timer least
  have member := List.argmin_mem least
  split at stepped
  · cases stepped
    exact intervals.of_subset fun _ inRest => List.mem_of_mem_erase inRest
  · split_ifs at stepped
    cases stepped
    intro other inNew
    rcases List.mem_append.mp inNew with inRest | back
    · exact intervals other (List.mem_of_mem_erase inRest)
    · rw [List.mem_singleton.mp back]
      exact intervals timer member

/-- No repeating timer of a reachable line has a zero interval. -/
theorem intervals_inductive : machine.Inductive Intervals where
  init := fun _ member => nomatch member
  step := by
    intro line next call reply intervals stepped
    cases call with
    | register deadline id mode policy =>
        cases stepped
        exact intervals.registerWithModeAndPolicy deadline id mode policy
    | registerAuto deadline =>
        obtain ⟨⟨result, registered⟩, found, stepped⟩ := Option.map_eq_some_iff.mp stepped
        cases stepped
        obtain ⟨nextId, -, registered⟩ := Option.map_eq_some_iff.mp found
        rw [show next = _ from congrArg Prod.snd registered.symm]
        exact @Intervals.registerWithModeAndPolicy { line with nextId := nextId } intervals _ _ _ _
    | popExpired =>
        obtain ⟨⟨popped, after⟩, found, stepped⟩ := Option.map_eq_some_iff.mp stepped
        cases stepped
        exact intervals.popExpired found
    | cancel id =>
        cases stepped
        exact intervals.of_subset fun _ kept => List.mem_of_mem_filter kept
    | clear =>
        cases stepped
        exact fun _ member => nomatch member
    | setMaxCatchUp limit => cases stepped; exact intervals
    | advance delta => cases stepped; exact intervals
    | tick now => cases stepped; exact intervals
    | resetNow now => cases stepped; exact intervals

/-- `pop_expired` never panics on a reachable line. -/
theorem popExpired_isSome {line : ChronoLine} (reached : machine.Reachable line) : line.popExpired.isSome := by
  have intervals := intervals_inductive.reachable reached
  unfold ChronoLine.popExpired
  split_ifs with quiet
  · rfl
  -- `has_expired` saw the top timer, so `pop` returns it
  obtain ⟨first, least, -⟩ : ∃ first, line.timers.argmin Timer.key = some first ∧ first.deadline ≤ line.now := by
    simpa [hasExpired, Option.any_eq_true] using quiet
  simp only [least]
  split
  · rfl
  · rename_i interval repeating
    have positive : interval ≠ 0 := fun zero => intervals first (List.argmin_mem least) (by rw [repeating, zero])
    simp [positive]

/-- A line that pops back to itself is never drained. -/
theorem drainExpired_of_fixed {line : ChronoLine} {timer : Timer} (stuck : line.popExpired = some (some timer, line)) :
    ∀ fuel, drainExpired fuel line = none := by
  intro fuel
  induction fuel with
  | zero => rfl
  | succ fuel inductionHypothesis => simp [drainExpired, stuck, inductionHypothesis]

/-- A repeating `FixedDelay` timer on a line reset to `u64::MAX` comes back at
`u64::MAX` every time it is popped, so a loop popping until `None` never stops. -/
theorem pop_expired_repeats_forever_at_max :
    (new.registerWithModeAndPolicy 0 0 (.repeating 1) .fixedDelay).1 = .ok 0 ∧
      ∀ fuel, drainExpired fuel ((new.registerWithModeAndPolicy 0 0 (.repeating 1) .fixedDelay).2.resetNow
        (2 ^ 64 - 1)) = none := by
  -- after the first pop the timer sits at `u64::MAX` and pops back to the same line
  have first : ((new.registerWithModeAndPolicy 0 0 (.repeating 1) .fixedDelay).2.resetNow (2 ^ 64 - 1)).popExpired =
      some (some ⟨0, 0, .repeating 1, .fixedDelay, 2 ^ 64 - 1, 2 ^ 64 - 1⟩,
        ⟨[⟨2 ^ 64 - 1, 0, .repeating 1, .fixedDelay, 0, 2 ^ 64 - 1⟩], 2 ^ 64 - 1, 0, 2 ^ 64 - 1⟩) := by
    decide
  have again : (⟨[⟨2 ^ 64 - 1, 0, .repeating 1, .fixedDelay, 0, 2 ^ 64 - 1⟩], 2 ^ 64 - 1, 0, 2 ^ 64 - 1⟩ :
      ChronoLine).popExpired =
      some (some ⟨2 ^ 64 - 1, 0, .repeating 1, .fixedDelay, 1, 2 ^ 64 - 1⟩,
        ⟨[⟨2 ^ 64 - 1, 0, .repeating 1, .fixedDelay, 0, 2 ^ 64 - 1⟩], 2 ^ 64 - 1, 0, 2 ^ 64 - 1⟩) := by
    decide
  refine ⟨rfl, fun fuel => ?_⟩
  cases fuel with
  | zero => rfl
  | succ fuel =>
      rw [drainExpired, first]
      simp only [drainExpired_of_fixed again fuel, Option.map_none]

end ChronoLine

end Fullerene.Chronoline
