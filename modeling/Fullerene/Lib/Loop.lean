import Mathlib.Order.Basic

/-!
# While loops run on fuel

A `while` loop of the source is modelled by its body: from the loop's
variables one round either leaves the loop with a result (`done`), goes round
again from new variables (`next`), or panics (`none`, as everywhere in this
development under `panic = "abort"`).  `Loop.run` runs at most `fuel` rounds;
when the fuel runs out it answers `next` with the variables it reached.

The fuel is a device of the model, and a theorem about a loop says that it is
enough.  A measure of the variables that every round going on lowers bounds
the rounds (`run_ne_next_of_variant`), whether or not a round may panic.  If,
from the states of an invariant, no round panics and every round going on
keeps the invariant and lowers the measure, the loop leaves with a result
(`run_done_of_variant`).  More fuel never changes where a loop stopped
(`run_add_of_ne_next`).  A `for` loop over a list is a `foldlM`, which does not
panic when its body does not on any item (`foldlM_isSome`).
-/

universe u v

namespace Loop

/-- What one round of a loop does, when it does not panic. -/
inductive Step (σ : Type u) (α : Type v) where
  | done (result : α)
  | next (state : σ)
  deriving DecidableEq, Repr

variable {σ : Type u} {α : Type v}

/-- Run at most `fuel` rounds of `body` from `state`. -/
def run (body : σ → Option (Step σ α)) : Nat → σ → Option (Step σ α)
  | 0, state => some (.next state)
  | fuel + 1, state =>
      match body state with
      | some (.next state') => run body fuel state'
      | stopped => stopped

/-- The loop's result: `none` where it panicked, or where the fuel ran out. -/
def result : Option (Step σ α) → Option α
  | some (.done value) => some value
  | _ => none

variable {body : σ → Option (Step σ α)}

@[simp]
theorem run_zero (state : σ) : run body 0 state = some (.next state) := rfl

theorem run_succ_of_next {state state' : σ} (fuel : Nat) (stepped : body state = some (.next state')) :
    run body (fuel + 1) state = run body fuel state' := by
  simp only [run, stepped]

@[simp]
theorem result_done (value : α) : result (some (.done value) : Option (Step σ α)) = some value := rfl

section Variant

variable (measure : σ → Nat)

/-- What a round may do for the loop to terminate: go on only to a state of smaller measure. -/
def Progress (state : σ) : Option (Step σ α) → Prop
  | some (.next state') => measure state' < measure state
  | _ => True

/-- What a round from `state` must do for the loop to leave from the states of an invariant
`Inv`: not panic, and go on only to a state of `Inv` of smaller measure. -/
def Advances (Inv : σ → Prop) (state : σ) : Option (Step σ α) → Prop
  | none => False
  | some (.done _) => True
  | some (.next state') => Inv state' ∧ measure state' < measure state

variable {measure}

theorem progress_of_next {state : σ}
    (lowers : ∀ state', body state = some (.next state') → measure state' < measure state) :
    Progress measure state (body state) := by
  rcases stepped : body state with _ | _ | state'
  · trivial
  · trivial
  · exact lowers state' stepped

theorem advances_of_exists {Inv : σ → Prop} {state : σ}
    (round : ∃ step, body state = some step ∧ ∀ state', step = .next state' → Inv state' ∧ measure state' < measure state) :
    Advances measure Inv state (body state) := by
  obtain ⟨step, stepped, next⟩ := round
  rw [stepped]
  cases step with
  | done value => trivial
  | next state' => exact next state' rfl

/-- A loop whose rounds lower a measure stops within one round more than the measure: it
panics or leaves, and never runs out of fuel. -/
theorem run_ne_next_of_variant (progress : ∀ state, Progress measure state (body state)) :
    ∀ {fuel : Nat} {state : σ}, measure state < fuel → ∀ state', run body fuel state ≠ some (.next state')
  | 0, _, bounded => absurd bounded (Nat.not_lt_zero _)
  | fuel + 1, state, bounded => by
      intro state'
      have advanced := progress state
      -- the round that goes on hands a smaller measure to the rest of the run
      cases stepped : body state with
      | none => simp [run, stepped]
      | some round =>
          cases round with
          | done value => simp [run, stepped]
          | next middle =>
              rw [stepped] at advanced
              rw [run_succ_of_next fuel stepped]
              exact run_ne_next_of_variant progress (by simp only [Progress] at advanced; omega) state'

/-- The variant rule: a loop whose rounds advance from the states of an invariant leaves with a
result from each of them, within one round more than the measure. -/
theorem run_done_of_variant {Inv : σ → Prop} (advances : ∀ state, Inv state → Advances measure Inv state (body state)) :
    ∀ {fuel : Nat} {state : σ}, Inv state → measure state < fuel → ∃ value, run body fuel state = some (.done value)
  | 0, _, _, bounded => absurd bounded (Nat.not_lt_zero _)
  | fuel + 1, state, invariant, bounded => by
      have round := advances state invariant
      cases stepped : body state with
      | none =>
          rw [stepped] at round
          exact round.elim
      | some step =>
          rw [stepped] at round
          cases step with
          | done value => exact ⟨value, by simp [run, stepped]⟩
          | next middle =>
              obtain ⟨kept, lowered⟩ := round
              rw [run_succ_of_next fuel stepped]
              exact run_done_of_variant advances kept (by omega)

end Variant

/-- Fuel beyond what a loop needed to stop changes nothing. -/
theorem run_add_of_ne_next {fuel : Nat} {state : σ} (stopped : ∀ state', run body fuel state ≠ some (.next state'))
    (extra : Nat) : run body (fuel + extra) state = run body fuel state := by
  induction fuel generalizing state with
  | zero => exact absurd rfl (stopped state)
  | succ fuel inductionHypothesis =>
      rw [Nat.add_right_comm]
      cases stepped : body state with
      | none => simp [run, stepped]
      | some round =>
          cases round with
          | done value => simp [run, stepped]
          | next middle =>
              rw [run_succ_of_next fuel stepped] at stopped
              rw [run_succ_of_next _ stepped, run_succ_of_next fuel stepped]
              exact inductionHypothesis stopped

/-- A `for` loop over `items`, a `foldlM` in `Option`, does not panic when its body does not on
any of them. -/
theorem foldlM_isSome {β : Type v} {γ : Type u} {f : β → γ → Option β} :
    ∀ {items : List γ}, (∀ acc, ∀ item ∈ items, ∃ acc', f acc item = some acc') →
      ∀ init, ∃ result, items.foldlM f init = some result
  | [], _, init => ⟨init, rfl⟩
  | item :: rest, total, init => by
      obtain ⟨acc', stepped⟩ := total init item List.mem_cons_self
      have restTotal : ∀ acc, ∀ item ∈ rest, ∃ acc', f acc item = some acc' :=
        fun acc item member => total acc item (List.mem_cons_of_mem _ member)
      obtain ⟨result, folded⟩ := foldlM_isSome restTotal acc'
      exact ⟨result, by rw [List.foldlM_cons, stepped, Option.bind_eq_bind, Option.bind_some, folded]⟩

end Loop
