import Fullerene.Nitrogen.Xhci.Ring

/-!
# The xHCI event ring

An `EventRing` is the driver's side of the event ring: `len` TRBs of zeroed
DMA memory, no Link TRB, a dequeue index and a consumer cycle state that
starts at 1.  `EventRing.pop` returns the TRB at the dequeue index when its
cycle bit is the consumer cycle state, and toggles the state when it wraps.

The controller produces events as the xHCI specification prescribes
(`Producer.write`): it writes each event at its enqueue index with its
producer cycle state, which starts at 1 and toggles at each wrap, and it never
overwrites an event the driver has not popped.  `Events` runs the two in any
interleaving.  `Events.Sound` holds along every run, and every step is a step
of the queue of events written and not yet popped, read from the ring up to
the cycle bit (`Events.simulates`).
-/

namespace Fullerene.Nitrogen

open Queue

/-- `EventRing`: the TRBs of its DMA slice, its physical base, the dequeue
index and the consumer cycle state.  The source's `len` is the slice's length. -/
structure EventRing where
  entries : List Trb
  phys : UInt64
  deq : Nat
  cycle : UInt32
deriving DecidableEq, Repr

namespace EventRing

/-- `EventRing.len`. -/
def len (ring : EventRing) : Nat := ring.entries.length

/-- `EventRing::alloc` over the zeroed slice that `alloc_dma` returns at
`phys`; `none` where `alloc_dma` refuses a slice of no TRBs. -/
def alloc (n : Nat) (phys : UInt64) : Option EventRing :=
  if n = 0 then none else some ⟨List.replicate n Trb.zero, phys, 0, 1⟩

/-- `EventRing::has_pending`; `none` is the panic of an index past the slice. -/
def hasPending (ring : EventRing) : Option Bool :=
  ring.entries[ring.deq]?.map fun trb => trb.flags &&& TrbFlag.cycle == ring.cycle

/-- `EventRing::pop`. -/
def pop (ring : EventRing) : Option (Option Trb × EventRing) := do
  let pending ← ring.hasPending
  if !pending then return (none, ring)
  let trb ← ring.entries[ring.deq]?
  let deq := ring.deq + 1
  if ring.len ≤ deq then return (some trb, { ring with deq := 0, cycle := ring.cycle ^^^ 1 })
  else return (some trb, { ring with deq })

variable {ring : EventRing} {trb : Trb}

@[simp]
theorem length_entries (ring : EventRing) : ring.entries.length = ring.len := rfl

theorem pop_of_mismatch (read : ring.entries[ring.deq]? = some trb) (differs : trb.cycleBit ≠ ring.cycle) :
    ring.pop = some (none, ring) := by
  have unset : ¬trb.flags &&& TrbFlag.cycle = ring.cycle := differs
  simp [pop, hasPending, read, unset]

theorem pop_of_lt (read : ring.entries[ring.deq]? = some trb) (matched : trb.cycleBit = ring.cycle)
    (inside : ring.deq + 1 < ring.len) : ring.pop = some (some trb, { ring with deq := ring.deq + 1 }) := by
  have set : trb.flags &&& TrbFlag.cycle = ring.cycle := matched
  simp [pop, hasPending, read, set, Nat.not_le.mpr inside]

theorem pop_of_last (read : ring.entries[ring.deq]? = some trb) (matched : trb.cycleBit = ring.cycle)
    (last : ring.deq + 1 = ring.len) :
    ring.pop = some (some trb, { ring with deq := 0, cycle := ring.cycle ^^^ 1 }) := by
  have set : trb.flags &&& TrbFlag.cycle = ring.cycle := matched
  simp [pop, hasPending, read, set, last]

end EventRing

/-- The controller writing events: its enqueue index and producer cycle state. -/
structure Producer where
  enq : Nat
  pcs : UInt32
deriving DecidableEq, Repr

namespace Producer

/-- The producer cycle state starts at 1 at the ring base. -/
def start : Producer := ⟨0, 1⟩

/-- The controller writes an event at its enqueue index with its producer
cycle state, and toggles the state when it wraps. -/
def write (producer : Producer) (entries : List Trb) (event : Trb) : List Trb × Producer :=
  (entries.set producer.enq (event.withCycle producer.pcs),
    if entries.length ≤ producer.enq + 1 then ⟨0, producer.pcs ^^^ 1⟩
    else ⟨producer.enq + 1, producer.pcs⟩)

end Producer

/-- The event ring, the controller producing into it, and how many written
events the driver has not yet popped. -/
structure Events where
  ring : EventRing
  producer : Producer
  unconsumed : Nat
deriving DecidableEq, Repr

/-- The controller writes an event, or the driver pops. -/
inductive EventCall where
  | produce (event : Trb)
  | pop
deriving DecidableEq, Repr

inductive EventReply where
  | produced
  | popped (result : Option Trb)
deriving DecidableEq, Repr

namespace Events

/-- One step of either side.  The controller writes only while fewer than
`len` events are unpopped, so that it never overtakes the dequeue index. -/
def step (state : Events) : EventCall → Option (EventReply × Events)
  | .produce event =>
      if state.unconsumed < state.ring.len then
        let (entries, producer) := state.producer.write state.ring.entries event
        some (.produced, ⟨{ state.ring with entries }, producer, state.unconsumed + 1⟩)
      else none
  | .pop =>
      state.ring.pop.map fun (result, ring) =>
        (.popped result,
          { state with ring, unconsumed := if result.isSome then state.unconsumed - 1 else state.unconsumed })

/-- Every interleaving from a freshly allocated event ring. -/
def machine (ring : EventRing) : Machine Events EventCall EventReply :=
  ⟨⟨ring, Producer.start, 0⟩, step⟩

/-- Whether the driver is a lap behind the controller. -/
def behind (state : Events) : Bool := state.ring.cycle != state.producer.pcs

/-- The events written and not yet popped, read off the ring between the
dequeue index and the controller's enqueue index. -/
def pending (state : Events) : List Trb :=
  window state.ring.entries state.ring.len state.producer.enq state.ring.deq state.behind

/-- The pending events without the cycle bits that the controller writes. -/
def view (state : Events) : List Trb := state.pending.map Trb.clearCycle

/-- What the queue sees of a call and its reply. -/
def eventEvent : EventCall → EventReply → Option (QueueEvent Trb)
  | .produce event, .produced => some (.push event.clearCycle)
  | .pop, .popped (some trb) => some (.pop trb.clearCycle)
  | .pop, .popped none => some .empty
  | _, _ => none

/-- The invariant of the event ring: the indices in range, the driver in the
controller's lap and behind its enqueue index, or a lap behind and ahead of
it; the cycle bits striped by the enqueue index; and the count of unpopped
events the length of the pending window. -/
structure Sound (state : Events) : Prop where
  enq_lt : state.producer.enq < state.ring.len
  deq_lt : state.ring.deq < state.ring.len
  cycle : state.producer.pcs = 0 ∨ state.producer.pcs = 1
  lap : state.ring.cycle = state.producer.pcs ∧ state.ring.deq ≤ state.producer.enq ∨
    state.ring.cycle = state.producer.pcs ^^^ 1 ∧ state.producer.enq ≤ state.ring.deq
  striped : Striped Trb.cycleBit state.ring.entries state.ring.len state.producer.enq
    state.producer.pcs (state.producer.pcs ^^^ 1)
  counted : state.unconsumed = state.pending.length

/-- The state after the controller wrote `event` before the last slot. -/
def written (state : Events) (event : Trb) : Events :=
  ⟨{ state.ring with entries := state.ring.entries.set state.producer.enq (event.withCycle state.producer.pcs) },
    ⟨state.producer.enq + 1, state.producer.pcs⟩, state.unconsumed + 1⟩

/-- The state after the controller wrote `event` into the last slot and wrapped. -/
def wrapped (state : Events) (event : Trb) : Events :=
  ⟨{ state.ring with entries := state.ring.entries.set state.producer.enq (event.withCycle state.producer.pcs) },
    ⟨0, state.producer.pcs ^^^ 1⟩, state.unconsumed + 1⟩

/-- The state after `pop` returned the event before the last slot. -/
def popped (state : Events) : Events :=
  { state with ring := { state.ring with deq := state.ring.deq + 1 }, unconsumed := state.unconsumed - 1 }

/-- The state after `pop` returned the event in the last slot and wrapped. -/
def returned (state : Events) : Events :=
  { state with ring := { state.ring with deq := 0, cycle := state.ring.cycle ^^^ 1 },
               unconsumed := state.unconsumed - 1 }

section Invariant

variable {state : Events} {event trb : Trb}

@[simp]
theorem len_written : (state.written event).ring.len = state.ring.len := by
  simp only [written, EventRing.len, List.length_set]

@[simp]
theorem len_wrapped : (state.wrapped event).ring.len = state.ring.len := by
  simp only [wrapped, EventRing.len, List.length_set]

@[simp]
theorem enq_written : (state.written event).producer.enq = state.producer.enq + 1 := rfl

@[simp]
theorem pcs_written : (state.written event).producer.pcs = state.producer.pcs := rfl

@[simp]
theorem enq_wrapped : (state.wrapped event).producer.enq = 0 := rfl

@[simp]
theorem pcs_wrapped : (state.wrapped event).producer.pcs = state.producer.pcs ^^^ 1 := rfl

@[simp]
theorem deq_written : (state.written event).ring.deq = state.ring.deq := rfl

@[simp]
theorem deq_wrapped : (state.wrapped event).ring.deq = state.ring.deq := rfl

@[simp]
theorem cycle_written : (state.written event).ring.cycle = state.ring.cycle := rfl

@[simp]
theorem cycle_wrapped : (state.wrapped event).ring.cycle = state.ring.cycle := rfl

@[simp]
theorem entries_written :
    (state.written event).ring.entries =
      state.ring.entries.set state.producer.enq (event.withCycle state.producer.pcs) := rfl

@[simp]
theorem entries_wrapped :
    (state.wrapped event).ring.entries =
      state.ring.entries.set state.producer.enq (event.withCycle state.producer.pcs) := rfl

theorem step_produce_of_lt (fewer : state.unconsumed < state.ring.len)
    (room : state.producer.enq + 1 < state.ring.len) :
    state.step (.produce event) = some (.produced, state.written event) := by
  simp [step, fewer, Producer.write, Nat.not_le.mpr room, written]

theorem step_produce_of_last (fewer : state.unconsumed < state.ring.len)
    (last : state.producer.enq + 1 = state.ring.len) :
    state.step (.produce event) = some (.produced, state.wrapped event) := by
  simp [step, fewer, Producer.write, last, wrapped]

theorem step_pop_of_mismatch (read : state.ring.entries[state.ring.deq]? = some trb)
    (differs : trb.cycleBit ≠ state.ring.cycle) : state.step .pop = some (.popped none, state) := by
  simp [step, EventRing.pop_of_mismatch read differs]

theorem step_pop_of_lt (read : state.ring.entries[state.ring.deq]? = some trb)
    (matched : trb.cycleBit = state.ring.cycle) (inside : state.ring.deq + 1 < state.ring.len) :
    state.step .pop = some (.popped (some trb), state.popped) := by
  simp [step, EventRing.pop_of_lt read matched inside, popped]

theorem step_pop_of_last (read : state.ring.entries[state.ring.deq]? = some trb)
    (matched : trb.cycleBit = state.ring.cycle) (last : state.ring.deq + 1 = state.ring.len) :
    state.step .pop = some (.popped (some trb), state.returned) := by
  simp [step, EventRing.pop_of_last read matched last, returned]

theorem behind_of_same (same : state.ring.cycle = state.producer.pcs) : state.behind = false := by
  simp [behind, same]

theorem behind_of_flipped (low : state.producer.pcs = 0 ∨ state.producer.pcs = 1)
    (flipped : state.ring.cycle = state.producer.pcs ^^^ 1) : state.behind = true := by
  simp [behind, flipped, xor_one_ne low]

/-- In one lap the unpopped events are those between the two indices. -/
theorem Sound.unconsumed_of_same (sound : Sound state) (same : state.ring.cycle = state.producer.pcs) :
    state.unconsumed + state.ring.deq = state.producer.enq := by
  have before := sound.lap.resolve_right fun ⟨flipped, _⟩ =>
    xor_one_ne sound.cycle (flipped.symm.trans same)
  rw [sound.counted, pending, behind_of_same same,
    length_window_of_same (by simp; have := sound.enq_lt; omega)]
  omega

/-- A lap behind, the unpopped events run from the dequeue index to the end
and on from the base to the enqueue index. -/
theorem Sound.unconsumed_of_flipped (sound : Sound state)
    (flipped : state.ring.cycle = state.producer.pcs ^^^ 1) :
    state.unconsumed + state.ring.deq = state.ring.len + state.producer.enq := by
  have deqWithin := sound.deq_lt
  rw [sound.counted, pending, behind_of_flipped sound.cycle flipped,
    length_window_of_behind (by simp; have := sound.enq_lt; omega) (by simp)]
  omega

/-- With room for another event, a driver a lap behind is ahead of the
enqueue index: the slot to be written holds a popped event. -/
theorem Sound.enq_lt_deq (sound : Sound state) (fewer : state.unconsumed < state.ring.len)
    (flipped : state.ring.cycle = state.producer.pcs ^^^ 1) :
    state.producer.enq < state.ring.deq := by
  have counted := sound.unconsumed_of_flipped flipped
  omega

theorem Sound.pending_written (sound : Sound state) (fewer : state.unconsumed < state.ring.len) :
    (state.written event).pending = state.pending ++ [event.withCycle state.producer.pcs] := by
  have within : state.producer.enq < state.ring.entries.length := by simpa using sound.enq_lt
  have unmoved : (state.written event).behind = state.behind := rfl
  simp only [pending, unmoved, len_written, enq_written, deq_written, entries_written]
  rcases sound.lap with ⟨same, before⟩ | ⟨flipped, _⟩
  · rw [behind_of_same same]
    exact window_set_of_same before within _
  · rw [behind_of_flipped sound.cycle flipped]
    exact window_set_of_behind (sound.enq_lt_deq fewer flipped) within _

/-- Writing an event before the last slot keeps the invariant. -/
theorem Sound.written (sound : Sound state) (fewer : state.unconsumed < state.ring.len)
    (room : state.producer.enq + 1 < state.ring.len) : Sound (state.written event) where
  enq_lt := by simpa using room
  deq_lt := by simpa using sound.deq_lt
  cycle := sound.cycle
  lap := by
    rcases sound.lap with ⟨same, before⟩ | ⟨flipped, _⟩
    · exact .inl ⟨same, by show state.ring.deq ≤ state.producer.enq + 1; omega⟩
    · have ahead := sound.enq_lt_deq fewer flipped
      exact .inr ⟨flipped, ahead⟩
  striped := by simpa using sound.striped.set (Trb.cycleBit_withCycle event sound.cycle)
  counted := by
    rw [sound.pending_written fewer, List.length_append, ← sound.counted]
    rfl

/-- The driver is in the controller's lap when the controller writes the last
slot with room for another event. -/
theorem Sound.same_of_last (sound : Sound state) (fewer : state.unconsumed < state.ring.len)
    (last : state.producer.enq + 1 = state.ring.len) :
    state.ring.cycle = state.producer.pcs ∧ state.ring.deq ≤ state.producer.enq := by
  refine sound.lap.resolve_right fun ⟨flipped, _⟩ => ?_
  have ahead := sound.enq_lt_deq fewer flipped
  have := sound.deq_lt
  omega

theorem Sound.pending_wrapped (sound : Sound state) (fewer : state.unconsumed < state.ring.len)
    (last : state.producer.enq + 1 = state.ring.len) :
    (state.wrapped event).pending = state.pending ++ [event.withCycle state.producer.pcs] := by
  obtain ⟨same, before⟩ := sound.same_of_last fewer last
  have flips : (state.wrapped event).behind = true := by
    simp only [behind, cycle_wrapped, pcs_wrapped, same, bne_iff_ne]
    exact (xor_one_ne sound.cycle).symm
  simp only [pending, flips, behind_of_same same, len_wrapped, enq_wrapped, deq_wrapped,
    entries_wrapped]
  exact window_set_wrap before last (by simp) _

/-- Writing the last slot and wrapping keeps the invariant. -/
theorem Sound.wrapped (sound : Sound state) (fewer : state.unconsumed < state.ring.len)
    (last : state.producer.enq + 1 = state.ring.len) : Sound (state.wrapped event) where
  enq_lt := by simp; omega
  deq_lt := by simpa using sound.deq_lt
  cycle := xor_one_low sound.cycle
  lap := by
    obtain ⟨same, _⟩ := sound.same_of_last fewer last
    exact .inr ⟨by simp [xor_one_xor_one, same], Nat.zero_le _⟩
  striped := by
    have filled := sound.striped.set (Trb.cycleBit_withCycle event sound.cycle)
    rw [last] at filled
    have turned := filled.wrap (state.producer.pcs ^^^ 1)
    simpa [xor_one_xor_one] using turned
  counted := by
    rw [sound.pending_wrapped fewer last, List.length_append, ← sound.counted]
    rfl

/-- Popping the front event before the last slot keeps the invariant. -/
theorem Sound.popped (sound : Sound state) (inside : state.ring.deq + 1 < state.ring.len)
    (shorter : state.pending.length = state.popped.pending.length + 1)
    (stays : state.ring.cycle = state.producer.pcs ∧ state.ring.deq + 1 ≤ state.producer.enq ∨
      state.ring.cycle = state.producer.pcs ^^^ 1 ∧ state.producer.enq ≤ state.ring.deq + 1) :
    Sound state.popped where
  enq_lt := sound.enq_lt
  deq_lt := inside
  cycle := sound.cycle
  lap := stays
  striped := sound.striped
  counted := by
    rw [← sound.counted] at shorter
    show state.unconsumed - 1 = _
    omega

theorem Sound.pending_returned (sound : Sound state) (flipped : state.ring.cycle = state.producer.pcs ^^^ 1)
    (last : state.ring.deq + 1 = state.ring.len) (within : state.ring.deq < state.ring.entries.length) :
    state.pending = state.ring.entries[state.ring.deq] :: state.returned.pending := by
  have caughtUp : state.returned.behind = false := by
    simp [behind, returned, flipped, xor_one_xor_one]
  simp only [pending, caughtUp, behind_of_flipped sound.cycle flipped]
  rw [window_of_behind (by omega) (by simp), last]
  exact congrArg _ (window_size_of_behind _ _ _)

/-- Popping the event in the last slot puts the driver in the controller's lap. -/
theorem Sound.returned (sound : Sound state) (flipped : state.ring.cycle = state.producer.pcs ^^^ 1)
    (last : state.ring.deq + 1 = state.ring.len) : Sound state.returned where
  enq_lt := sound.enq_lt
  deq_lt := by show 0 < state.ring.len; omega
  cycle := sound.cycle
  lap := .inl ⟨by show state.ring.cycle ^^^ 1 = state.producer.pcs; rw [flipped, xor_one_xor_one],
    Nat.zero_le _⟩
  striped := sound.striped
  counted := by
    have shorter := congrArg List.length
      (sound.pending_returned flipped last (by simpa using sound.deq_lt))
    rw [List.length_cons, ← sound.counted] at shorter
    show state.unconsumed - 1 = _
    omega

/-- An event the controller may write is a push of the queue. -/
theorem Sound.produce (sound : Sound state) (fewer : state.unconsumed < state.ring.len) :
    ∃ next, state.step (.produce event) = some (.produced, next) ∧ Sound next ∧
      next.view = state.view ++ [event.clearCycle] := by
  have rewritten : (event.withCycle state.producer.pcs).clearCycle = event.clearCycle :=
    Trb.clearCycle_withCycle event sound.cycle
  rcases Nat.lt_or_eq_of_le (Nat.succ_le_of_lt sound.enq_lt) with room | last
  · refine ⟨_, step_produce_of_lt fewer room, sound.written fewer room, ?_⟩
    rw [view, view, sound.pending_written fewer, List.map_append, List.map_singleton, rewritten]
  · refine ⟨_, step_produce_of_last fewer last, sound.wrapped fewer last, ?_⟩
    rw [view, view, sound.pending_wrapped fewer last, List.map_append, List.map_singleton, rewritten]

/-- A pop is a step of the queue. -/
theorem Sound.pop (sound : Sound state) :
    ∃ reply next, state.step .pop = some (reply, next) ∧ Sound next ∧
      Observed eventEvent state.view .pop reply next.view := by
  have enqWithin := sound.enq_lt
  have deqWithin := sound.deq_lt
  have within : state.ring.deq < state.ring.entries.length := by simpa using deqWithin
  have read := List.getElem?_eq_getElem within
  have unmoved : state.popped.behind = state.behind := rfl
  rcases sound.lap with ⟨same, before⟩ | ⟨flipped, after⟩
  · rcases Nat.lt_or_eq_of_le before with before | caught
    · -- the slot at the dequeue index was written in this lap
      have matched : state.ring.entries[state.ring.deq].cycleBit = state.ring.cycle := by
        rw [sound.striped state.ring.deq within deqWithin, if_pos before, same]
      have front : state.pending = state.ring.entries[state.ring.deq] :: state.popped.pending := by
        simp only [pending, unmoved, behind_of_same same]
        exact window_of_lt before (by simp; omega)
      refine ⟨_, _, step_pop_of_lt read matched (by omega),
        sound.popped (by omega) (by rw [front, List.length_cons]) (.inl ⟨same, before⟩), _, rfl, ?_⟩
      rw [view, view, front, List.map_cons]
      exact .pop _ _
    · -- caught up with the controller: the slot carries the bit of the lap before
      have differs : state.ring.entries[state.ring.deq].cycleBit ≠ state.ring.cycle := by
        rw [sound.striped state.ring.deq within deqWithin, if_neg (by omega), same]
        exact xor_one_ne sound.cycle
      have empty : state.pending = [] := by
        simp only [pending, behind_of_same same, caught]
        exact window_self _ _ _
      refine ⟨_, _, step_pop_of_mismatch read differs, sound, _, rfl, ?_⟩
      rw [view, empty]
      exact .empty
  · -- a lap behind: the slot was written in the lap before
    have matched : state.ring.entries[state.ring.deq].cycleBit = state.ring.cycle := by
      rw [sound.striped state.ring.deq within deqWithin, if_neg (by omega), flipped]
    rcases Nat.lt_or_eq_of_le (Nat.succ_le_of_lt deqWithin) with inside | last
    · have front : state.pending = state.ring.entries[state.ring.deq] :: state.popped.pending := by
        simp only [pending, unmoved, behind_of_flipped sound.cycle flipped]
        exact window_of_behind deqWithin (by simp)
      refine ⟨_, _, step_pop_of_lt read matched inside,
        sound.popped inside (by rw [front, List.length_cons]) (.inr ⟨flipped, by omega⟩), _, rfl, ?_⟩
      rw [view, view, front, List.map_cons]
      exact .pop _ _
    · refine ⟨_, _, step_pop_of_last read matched last, sound.returned flipped last, _, rfl, ?_⟩
      rw [view, view, sound.pending_returned flipped last within, List.map_cons]
      exact .pop _ _

/-- Every step from a sound state keeps the invariant and is a step of the
queue of pending events. -/
theorem Sound.step {call : EventCall} {reply : EventReply} {next : Events} (sound : Sound state)
    (stepped : state.step call = some (reply, next)) :
    Sound next ∧ Observed eventEvent state.view call reply next.view := by
  cases call with
  | produce event =>
      by_cases fewer : state.unconsumed < state.ring.len
      · obtain ⟨after, computed, soundAfter, viewed⟩ : ∃ next, state.step (.produce event) =
            some (.produced, next) ∧ Sound next ∧ next.view = state.view ++ [event.clearCycle] :=
          sound.produce fewer
        rw [computed, Option.some.injEq, Prod.mk.injEq] at stepped
        obtain ⟨rfl, rfl⟩ := stepped
        refine ⟨soundAfter, _, rfl, ?_⟩
        rw [viewed]
        exact .push _ _
      · simp [Events.step, fewer] at stepped
  | pop =>
      obtain ⟨reply', after, computed, soundAfter, observed⟩ := sound.pop
      rw [computed, Option.some.injEq, Prod.mk.injEq] at stepped
      obtain ⟨rfl, rfl⟩ := stepped
      exact ⟨soundAfter, observed⟩

end Invariant

section Runs

variable {n : Nat} {phys : UInt64} {ring : EventRing}

theorem sound_start (allocated : EventRing.alloc n phys = some ring) :
    Sound ⟨ring, Producer.start, 0⟩ := by
  simp only [EventRing.alloc] at allocated
  split_ifs at allocated with empty
  cases allocated
  have sized : (⟨List.replicate n Trb.zero, phys, 0, 1⟩ : EventRing).len = n := by
    simp only [EventRing.len, List.length_replicate]
  refine
    { enq_lt := by show 0 < _; rw [sized]; omega
      deq_lt := by show 0 < _; rw [sized]; omega
      cycle := .inr rfl
      lap := .inl ⟨rfl, Nat.le_refl 0⟩
      striped := Striped.start (fun index within _ => ?_) _
      counted := by simp [pending, behind, Producer.start, window] }
  rw [List.getElem_replicate]
  exact (by decide : Trb.zero.cycleBit = 1 ^^^ 1)

/-- The event ring and the controller keep the invariant along every run. -/
theorem sound_inductive (allocated : EventRing.alloc n phys = some ring) :
    (machine ring).Inductive Sound :=
  ⟨sound_start allocated, fun sound stepped => (sound.step stepped).1⟩

/-- Every step is a step of the queue of pending events. -/
theorem simulates : (machine ring).Simulates (Observed eventEvent) view Sound :=
  fun sound stepped => (sound.step stepped).2

theorem view_start (allocated : EventRing.alloc n phys = some ring) :
    (⟨ring, Producer.start, 0⟩ : Events).view = [] := by
  have counted := (sound_start allocated).counted
  simp [view, List.eq_nil_of_length_eq_zero counted.symm]

/-- Along every run from a freshly allocated event ring the replies are those
of the queue of written events: `pop` returns them in order, up to the cycle
bit, and returns nothing only when none is pending. -/
theorem trace_of_run (allocated : EventRing.alloc n phys = some ring) {calls : List EventCall}
    {replies : List EventReply} {final : Events}
    (ran : (machine ring).run (machine ring).init calls = some (replies, final)) :
    Machine.Trace (Observed eventEvent) [] calls replies final.view := by
  have trace := simulates.trace (sound_inductive allocated) (sound_start allocated) ran
  rwa [view_start allocated] at trace

end Runs

end Events

/-- Both kinds of ring are queues under the cycle-bit protocol.  On a transfer
ring of `n` TRBs with at most `n - 2` TRBs unconsumed and no Link TRB
enqueued, and on an event ring of `n` TRBs whose controller never overwrites
an unpopped event, every interleaving is a run of a queue: what the consumer
takes, followed by what is pending, is what was put in, in order and up to
the cycle bit, and it waits only when nothing is pending. -/
theorem rings_follow_cycle_protocol :
    (∀ {n bound : Nat} {phys : UInt64} {ring : Ring}, Ring.alloc n phys = some ring → bound + 2 ≤ n →
      ∀ {calls : List TransferCall} {replies : List TransferReply} {final : Transfer},
        (Transfer.machine bound ring).run (Transfer.machine bound ring).init calls = some (replies, final) →
          Machine.Trace (Observed Transfer.transferEvent) [] calls replies final.view ∧
            pops Transfer.transferEvent calls replies ++ final.view =
              pushes Transfer.transferEvent calls replies) ∧
    (∀ {n : Nat} {phys : UInt64} {ring : EventRing}, EventRing.alloc n phys = some ring →
      ∀ {calls : List EventCall} {replies : List EventReply} {final : Events},
        (Events.machine ring).run (Events.machine ring).init calls = some (replies, final) →
          Machine.Trace (Observed Events.eventEvent) [] calls replies final.view ∧
            pops Events.eventEvent calls replies ++ final.view = pushes Events.eventEvent calls replies) := by
  constructor
  · intro n bound phys ring allocated roomy calls replies final ran
    have trace := Transfer.trace_of_run allocated roomy ran
    exact ⟨trace, by simpa using (Observed.trace_append _ trace).symm⟩
  · intro n phys ring allocated calls replies final ran
    have trace := Events.trace_of_run allocated ran
    exact ⟨trace, by simpa using (Observed.trace_append _ trace).symm⟩

/-- A transfer ring of three TRBs takes one TRB to the controller, and an
event ring of one TRB one event to the driver. -/
theorem rings_follow_cycle_protocol_small :
    (Machine.Trace (Observed Transfer.transferEvent) []
        [.enqueue (Trb.new TrbType.normal 0), .fetch]
        [.enqueued, .fetched (.trb ((Trb.new TrbType.normal 0).withCycle 1))]
        (Transfer.view ⟨⟨[(Trb.new TrbType.normal 0).withCycle 1, Trb.zero, Ring.linkTrb 0], 0, 1, 1⟩,
          ⟨1, 1⟩, 0⟩) ∧
      pops Transfer.transferEvent [.enqueue (Trb.new TrbType.normal 0), .fetch]
          [.enqueued, .fetched (.trb ((Trb.new TrbType.normal 0).withCycle 1))] ++
          Transfer.view ⟨⟨[(Trb.new TrbType.normal 0).withCycle 1, Trb.zero, Ring.linkTrb 0], 0, 1, 1⟩,
            ⟨1, 1⟩, 0⟩ =
        pushes Transfer.transferEvent [.enqueue (Trb.new TrbType.normal 0), .fetch]
          [.enqueued, .fetched (.trb ((Trb.new TrbType.normal 0).withCycle 1))]) ∧
    (Machine.Trace (Observed Events.eventEvent) [] [.produce (Trb.new TrbType.normal 0), .pop]
        [.produced, .popped (some ((Trb.new TrbType.normal 0).withCycle 1))]
        (Events.view ⟨⟨[(Trb.new TrbType.normal 0).withCycle 1], 0, 0, 0⟩, ⟨0, 0⟩, 0⟩) ∧
      pops Events.eventEvent [.produce (Trb.new TrbType.normal 0), .pop]
          [.produced, .popped (some ((Trb.new TrbType.normal 0).withCycle 1))] ++
          Events.view ⟨⟨[(Trb.new TrbType.normal 0).withCycle 1], 0, 0, 0⟩, ⟨0, 0⟩, 0⟩ =
        pushes Events.eventEvent [.produce (Trb.new TrbType.normal 0), .pop]
          [.produced, .popped (some ((Trb.new TrbType.normal 0).withCycle 1))]) :=
  ⟨rings_follow_cycle_protocol.1 (Ring.alloc_of_lt (by decide) 0) (by decide : 1 + 2 ≤ 3) (by decide),
    rings_follow_cycle_protocol.2 (by decide : EventRing.alloc 1 0 = some ⟨[Trb.zero], 0, 0, 1⟩)
      (by decide)⟩

end Fullerene.Nitrogen
