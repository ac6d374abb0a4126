import Mathlib.Order.Basic

/-!
# The maximum of a list by a key, the last one on ties

`maxByKey? key l` is `Iterator::max_by_key`: it folds over the list and keeps
the later element whenever its key is at least the key kept so far, so of
several elements with the greatest key it returns the last.  The lemmas say
that the result is an element, that no element has a greater key, that only
the empty list has no maximum, and that the maximum commutes with a view of
the elements that the key factors through.
-/

universe u

namespace List

variable {α : Type u} (key : α → Nat)

/-- One step of `max_by_key`: the later element wins ties. -/
def maxByKeyStep (best : Option α) (next : α) : Option α :=
  match best with
  | none => some next
  | some current => if key current ≤ key next then some next else some current

/-- `Iterator::max_by_key`. -/
def maxByKey? (l : List α) : Option α :=
  l.foldl (maxByKeyStep key) none

variable {key}

theorem maxByKeyStep_spec {best : Option α} {next kept : α}
    (stepped : maxByKeyStep key best next = some kept) :
    (kept = next ∨ best = some kept) ∧ key next ≤ key kept ∧
      ∀ current, best = some current → key current ≤ key kept := by
  cases best with
  | none =>
      cases stepped
      exact ⟨.inl rfl, Nat.le_refl _, fun current started => nomatch started⟩
  | some current =>
      by_cases later : key current ≤ key next
      · simp only [maxByKeyStep, if_pos later, Option.some.injEq] at stepped
        subst stepped
        exact ⟨.inl rfl, Nat.le_refl _, fun current' started => by cases started; exact later⟩
      · simp only [maxByKeyStep, if_neg later, Option.some.injEq] at stepped
        subst stepped
        exact ⟨.inr rfl, by omega, fun current' started => by cases started; exact Nat.le_refl _⟩

theorem maxByKeyStep_isSome (key : α → Nat) (best : Option α) (next : α) :
    (maxByKeyStep key best next).isSome := by
  cases best with
  | none => rfl
  | some current => by_cases later : key current ≤ key next <;> simp [maxByKeyStep, later]

theorem foldl_maxByKeyStep_isSome (key : α → Nat) {start : Option α} (started : start.isSome)
    (l : List α) :
    (l.foldl (maxByKeyStep key) start).isSome := by
  induction l generalizing start with
  | nil => exact started
  | cons head tail inductionHypothesis =>
      exact inductionHypothesis (maxByKeyStep_isSome key start head)

/-- The kept element is the start or an element of the list, and neither the
start nor any element has a greater key. -/
theorem foldl_maxByKeyStep_spec {start : Option α} {l : List α} {best : α}
    (found : l.foldl (maxByKeyStep key) start = some best) :
    (start = some best ∨ best ∈ l) ∧ (∀ current, start = some current → key current ≤ key best) ∧
      ∀ other ∈ l, key other ≤ key best := by
  induction l generalizing start with
  | nil =>
      refine ⟨.inl found, ?_, by simp⟩
      intro current started
      rw [List.foldl_nil, started, Option.some.injEq] at found
      subst found
      exact Nat.le_refl _
  | cons head tail inductionHypothesis =>
      obtain ⟨kept, bounds, tailBounds⟩ := inductionHypothesis found
      obtain ⟨middle, stepped⟩ := Option.isSome_iff_exists.mp (maxByKeyStep_isSome key start head)
      obtain ⟨source, headBound, startBound⟩ := maxByKeyStep_spec stepped
      have middleBound := bounds middle stepped
      refine ⟨?_, ?_, ?_⟩
      · rcases kept with same | member
        · rw [stepped, Option.some.injEq] at same
          subst same
          rcases source with rfl | started
          · exact .inr mem_cons_self
          · exact .inl started
        · exact .inr (mem_cons_of_mem _ member)
      · intro current started
        exact Nat.le_trans (startBound current started) middleBound
      · intro other member
        rcases mem_cons.mp member with rfl | later
        · exact Nat.le_trans headBound middleBound
        · exact tailBounds other later

theorem maxByKey?_eq_none_iff {l : List α} : l.maxByKey? key = none ↔ l = [] := by
  constructor
  · intro empty
    cases l with
    | nil => rfl
    | cons head tail =>
        have found := foldl_maxByKeyStep_isSome key (maxByKeyStep_isSome key none head) tail
        rw [maxByKey?, List.foldl_cons] at empty
        rw [empty] at found
        cases found
  · rintro rfl
    rfl

/-- The maximum is an element of the list and no element has a greater key. -/
theorem maxByKey?_spec {l : List α} {best : α} (found : l.maxByKey? key = some best) :
    best ∈ l ∧ ∀ other ∈ l, key other ≤ key best := by
  obtain ⟨kept, -, bounds⟩ := foldl_maxByKeyStep_spec found
  refine ⟨?_, bounds⟩
  rcases kept with started | member
  · cases started
  · exact member

theorem maxByKeyStep_map {β : Type u} (view : β → α) (best : Option β) (next : β) :
    maxByKeyStep key (best.map view) (view next) = (maxByKeyStep (key ∘ view) best next).map view := by
  cases best with
  | none => rfl
  | some current =>
      by_cases later : key (view current) ≤ key (view next) <;>
        simp [maxByKeyStep, later]

/-- The maximum of a list seen through `view` is the view of the maximum by
the key of the view. -/
theorem maxByKey?_map {β : Type u} (view : β → α) (l : List β) :
    (l.map view).maxByKey? key = (l.maxByKey? (key ∘ view)).map view := by
  unfold maxByKey?
  -- the fold runs in step from any start
  suffices folded : ∀ start : Option β, (l.map view).foldl (maxByKeyStep key) (start.map view) =
      (l.foldl (maxByKeyStep (key ∘ view)) start).map view from folded none
  induction l with
  | nil => exact fun start => rfl
  | cons head tail inductionHypothesis =>
      intro start
      rw [map_cons, foldl_cons, foldl_cons, maxByKeyStep_map, inductionHypothesis]

end List
