import Mathlib.Logic.Relation

/-!
# Machines whose calls may abort

A `Machine` has an initial state and a step function that answers one call
with a reply and a successor state.  A step returns `none` when the call
aborts: under `panic = "abort"` a panic ends the run, so such a call has no
successor.  `Reachable` is the set of states of all runs, `run` executes a
list of calls, and `Simulates` relates the machine to a nondeterministic
specification through a view of its state, which lifts to whole runs.
-/

universe u v w x

/-- An initial state and a step function answering calls. -/
structure Machine (σ : Type u) (ι : Type v) (ρ : Type w) where
  init : σ
  step : σ → ι → Option (ρ × σ)

namespace Machine

variable {σ : Type u} {ι : Type v} {ρ : Type w} (m : Machine σ ι ρ)

/-- The states of every run that starts in `init`. -/
inductive Reachable : σ → Prop
  | init : Reachable m.init
  | step {state next : σ} {call : ι} {reply : ρ} :
      Reachable state → m.step state call = some (reply, next) → Reachable next

/-- Execute the calls in order and collect the replies; `none` as soon as one
of them aborts. -/
def run : σ → List ι → Option (List ρ × σ)
  | state, [] => some ([], state)
  | state, call :: calls =>
      match m.step state call with
      | none => none
      | some (reply, next) =>
          (run next calls).map fun (replies, final) => (reply :: replies, final)

@[simp]
theorem run_nil (state : σ) : m.run state [] = some ([], state) := rfl

theorem run_cons_eq_some {state final : σ} {call : ι} {calls : List ι}
    {replies : List ρ} :
    m.run state (call :: calls) = some (replies, final) ↔
      ∃ reply next rest, m.step state call = some (reply, next) ∧
        m.run next calls = some (rest, final) ∧ replies = reply :: rest := by
  simp only [run]
  cases stepped : m.step state call with
  | none => simp
  | some result =>
      obtain ⟨reply, next⟩ := result
      constructor
      · intro ran
        obtain ⟨⟨rest, final'⟩, tail, equal⟩ := Option.map_eq_some_iff.mp ran
        simp only [Prod.mk.injEq] at equal
        obtain ⟨rfl, rfl⟩ := equal
        exact ⟨reply, next, rest, rfl, tail, rfl⟩
      · rintro ⟨reply', next', rest, stepEq, tail, rfl⟩
        simp only [Option.some.injEq, Prod.mk.injEq] at stepEq
        obtain ⟨rfl, rfl⟩ := stepEq
        simp [tail]

/-- The invariant rule for runs: a predicate that every step of an allowed
call keeps holds at the end of every run of allowed calls. -/
theorem run_invariant {P : σ → Prop} {allowed : ι → Prop}
    (preserves : ∀ {state next : σ} {call : ι} {reply : ρ}, allowed call → P state →
      m.step state call = some (reply, next) → P next)
    {state final : σ} {calls : List ι} {replies : List ρ} (all : ∀ call ∈ calls, allowed call)
    (holds : P state) (ran : m.run state calls = some (replies, final)) : P final := by
  induction calls generalizing state replies with
  | nil =>
      simp only [run_nil, Option.some.injEq, Prod.mk.injEq] at ran
      exact ran.2 ▸ holds
  | cons call calls inductionHypothesis =>
      obtain ⟨reply, next, rest, stepped, tail, -⟩ := (m.run_cons_eq_some).mp ran
      have holdsNext := preserves (all call List.mem_cons_self) holds stepped
      exact inductionHypothesis (fun later member => all later (List.mem_cons_of_mem _ member))
        holdsNext tail

/-- Every call of the run of `calls` from `state` is allowed in the state it meets. -/
def AllowedAlong (allowed : σ → ι → Prop) : σ → List ι → Prop
  | _, [] => True
  | state, call :: calls =>
      allowed state call ∧ ∀ reply next, m.step state call = some (reply, next) → AllowedAlong allowed next calls

/-- The invariant rule for runs whose calls are allowed in the states they meet. -/
theorem run_invariant_along {P : σ → Prop} {allowed : σ → ι → Prop}
    (preserves : ∀ {state next : σ} {call : ι} {reply : ρ}, allowed state call → P state →
      m.step state call = some (reply, next) → P next)
    {state final : σ} {calls : List ι} {replies : List ρ} (all : m.AllowedAlong allowed state calls)
    (holds : P state) (ran : m.run state calls = some (replies, final)) : P final := by
  induction calls generalizing state replies with
  | nil =>
      simp only [run_nil, Option.some.injEq, Prod.mk.injEq] at ran
      exact ran.2 ▸ holds
  | cons call calls inductionHypothesis =>
      obtain ⟨reply, next, rest, stepped, tail, -⟩ := (m.run_cons_eq_some).mp ran
      exact inductionHypothesis (all.2 reply next stepped) (preserves all.1 holds stepped) tail

/-- A run from a reachable state ends in a reachable state. -/
theorem Reachable.run {state final : σ} {calls : List ι} {replies : List ρ}
    (reached : m.Reachable state) (ran : m.run state calls = some (replies, final)) :
    m.Reachable final :=
  m.run_invariant (fun _ reachedState stepped => reachedState.step stepped)
    (fun _ _ => True.intro) reached ran

/-- Two runs, one after the other, are one run of the joined calls. -/
theorem run_append {state middle final : σ} {calls more : List ι} {replies rest : List ρ}
    (first : m.run state calls = some (replies, middle))
    (second : m.run middle more = some (rest, final)) :
    m.run state (calls ++ more) = some (replies ++ rest, final) := by
  induction calls generalizing state replies with
  | nil =>
      simp only [run_nil, Option.some.injEq, Prod.mk.injEq] at first
      obtain ⟨rfl, rfl⟩ := first
      exact second
  | cons call calls inductionHypothesis =>
      obtain ⟨reply, next, tail, stepped, ranTail, rfl⟩ := (m.run_cons_eq_some).mp first
      exact (m.run_cons_eq_some).mpr
        ⟨reply, next, tail ++ rest, stepped, inductionHypothesis ranTail, rfl⟩

/-- A run never aborts from a state of a predicate under which every call
returns and that every call keeps. -/
theorem run_total {P : σ → Prop}
    (total : ∀ {state : σ} (call : ι), P state → ∃ reply next, m.step state call = some (reply, next) ∧ P next)
    {state : σ} (holds : P state) (calls : List ι) :
    ∃ replies final, m.run state calls = some (replies, final) ∧ P final := by
  induction calls generalizing state with
  | nil => exact ⟨[], state, rfl, holds⟩
  | cons call calls inductionHypothesis =>
      obtain ⟨reply, next, stepped, holdsNext⟩ := total call holds
      obtain ⟨replies, final, ran, holdsFinal⟩ := inductionHypothesis holdsNext
      exact ⟨reply :: replies, final, m.run_cons_eq_some.mpr ⟨reply, next, replies, stepped, ran, rfl⟩, holdsFinal⟩

/-- A predicate that holds initially and that every returning call keeps. -/
structure Inductive (P : σ → Prop) : Prop where
  init : P m.init
  step : ∀ {state next : σ} {call : ι} {reply : ρ},
    P state → m.step state call = some (reply, next) → P next

variable {m}

/-- An inductive predicate holds in every reachable state. -/
theorem Inductive.reachable {P : σ → Prop} (inductive_ : m.Inductive P) {state : σ}
    (reached : m.Reachable state) : P state := by
  induction reached with
  | init => exact inductive_.init
  | step _ stepped inductionHypothesis => exact inductive_.step inductionHypothesis stepped

/-! ## Refinement of a nondeterministic specification -/

variable {α : Type x}

/-- Runs of a specification relation `Step a call reply a'`, with their calls
and replies. -/
inductive Trace (Step : α → ι → ρ → α → Prop) : α → List ι → List ρ → α → Prop
  | nil (state : α) : Trace Step state [] [] state
  | cons {state next final : α} {call : ι} {reply : ρ} {calls : List ι}
      {replies : List ρ} :
      Step state call reply next → Trace Step next calls replies final →
      Trace Step state (call :: calls) (reply :: replies) final

variable (m) in
/-- Every returning call of `m` from a state satisfying `Inv` is a step of the
specification between the views of the two states. -/
def Simulates (Step : α → ι → ρ → α → Prop) (view : σ → α) (Inv : σ → Prop) : Prop :=
  ∀ {state next : σ} {call : ι} {reply : ρ},
    Inv state → m.step state call = some (reply, next) → Step (view state) call reply (view next)

/-- Simulation lifts to runs: the views of a run of `m` form a run of the
specification with the same calls and replies. -/
theorem Simulates.trace {Step : α → ι → ρ → α → Prop} {view : σ → α} {Inv : σ → Prop}
    (simulates : m.Simulates Step view Inv) (invariant : m.Inductive Inv)
    {state final : σ} {calls : List ι} {replies : List ρ} (holds : Inv state)
    (ran : m.run state calls = some (replies, final)) :
    Trace Step (view state) calls replies (view final) := by
  induction calls generalizing state replies with
  | nil =>
      simp only [run_nil, Option.some.injEq, Prod.mk.injEq] at ran
      obtain ⟨rfl, rfl⟩ := ran
      exact .nil _
  | cons call calls inductionHypothesis =>
      obtain ⟨reply, next, rest, stepped, tail, rfl⟩ := (m.run_cons_eq_some).mp ran
      exact .cons (simulates holds stepped)
        (inductionHypothesis (invariant.step holds stepped) tail)

end Machine
