import Mathlib.Data.List.Nodup

/-!
# References to the positions of a list that loses an element

A table that refers to the elements of a list by position has to follow the
list when an element goes: references to the removed position are dropped,
and those above it move down by one (`shiftDown`).  Every reference that
stays then names the same element as before, and distinct references stay
distinct.  When the elements have distinct keys, keeping those whose key
differs from the key at one position removes exactly that position.
-/

namespace List

variable {α : Type*}

/-- The position that `index` moves to when position `removed` goes. -/
def shiftDown (removed index : Nat) : Nat :=
  if removed < index then index - 1 else index

theorem getElem?_eraseIdx_shiftDown (l : List α) {removed index : Nat} (kept : index ≠ removed) :
    (l.eraseIdx removed)[shiftDown removed index]? = l[index]? := by
  by_cases above : removed < index
  · rw [shiftDown, if_pos above, getElem?_eraseIdx, if_neg (by omega),
      Nat.sub_add_cancel (by omega)]
  · rw [shiftDown, if_neg above, getElem?_eraseIdx, if_pos (by omega)]

theorem shiftDown_inj {removed first second : Nat} (firstKept : first ≠ removed)
    (secondKept : second ≠ removed) (same : shiftDown removed first = shiftDown removed second) :
    first = second := by
  unfold shiftDown at same
  split_ifs at same <;> omega

/-- With distinct keys, dropping the elements that share the key of the one at
`position` drops that position. -/
theorem filter_key_ne_eq_eraseIdx {β : Type*} [BEq β] [LawfulBEq β] {key : α → β} {l : List α}
    (distinct : (l.map key).Nodup) {position : Nat} {a : α} (found : l[position]? = some a) :
    l.filter (fun x => key x != key a) = l.eraseIdx position := by
  induction l generalizing position with
  | nil => cases found
  | cons head tail inductionHypothesis =>
      rw [map_cons, nodup_cons] at distinct
      cases position with
      | zero =>
          -- the head is the element; no element of the tail has its key
          rw [getElem?_cons_zero, Option.some.injEq] at found
          subst found
          rw [filter_cons_of_neg (by simp), eraseIdx_cons_zero, filter_eq_self]
          intro x member
          have keyed : key x ≠ key head := fun same => distinct.1 (same ▸ mem_map_of_mem member)
          simpa using keyed
      | succ position =>
          rw [getElem?_cons_succ] at found
          have headKept : key head ≠ key a := fun same =>
            distinct.1 (same ▸ mem_map_of_mem (mem_of_getElem? found))
          rw [filter_cons_of_pos (by simpa using headKept), eraseIdx_cons_succ,
            inductionHypothesis distinct.2 found]

end List
