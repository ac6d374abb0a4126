import Mathlib

/-!
# Segments of a list between separators

`segments sep l` cuts `l` at every occurrence of `sep` and keeps the nonempty
pieces: the list counterpart of `s.split(sep).filter(|c| !c.is_empty())`.
The lemmas say how segments behave under concatenation around a separator and
under stripping separators from either end; with `lastIdxOf?` (the index of
the last occurrence) and `isPrefixOf?` they are what path lookups need.
`windowPosition` is the first occurrence of a whole pattern.
-/

universe u

namespace List

variable {α : Type u} [BEq α] [LawfulBEq α]

/-- The nonempty pieces of `l` between occurrences of `sep`. -/
def segments (sep : α) (l : List α) : List (List α) :=
  (l.splitOn sep).filter fun piece => !piece.isEmpty

omit [LawfulBEq α] in
@[simp]
theorem segments_nil (sep : α) : segments sep [] = [] := by
  simp [segments]

theorem segments_append_cons_self (sep : α) (xs ys : List α) :
    segments sep (xs ++ sep :: ys) = segments sep xs ++ segments sep ys := by
  simp [segments, splitOn_append_cons_self, filter_append]

theorem segments_of_not_mem {sep : α} {l : List α} (absent : sep ∉ l) (nonempty : l ≠ []) :
    segments sep l = [l] := by
  simp [segments, splitOn_eq_singleton absent, nonempty]

@[simp]
theorem segments_cons_self (sep : α) (l : List α) :
    segments sep (sep :: l) = segments sep l := by
  simpa using segments_append_cons_self sep [] l

@[simp]
theorem segments_append_self (sep : α) (l : List α) :
    segments sep (l ++ [sep]) = segments sep l := by
  simpa using segments_append_cons_self sep l []

theorem segments_dropWhile (sep : α) (l : List α) :
    segments sep (l.dropWhile (· == sep)) = segments sep l := by
  induction l with
  | nil => rfl
  | cons head tail inductionHypothesis =>
      by_cases isSep : head = sep
      · subst isSep
        simpa [dropWhile_cons] using inductionHypothesis
      · simp [isSep]

theorem segments_rdropWhile (sep : α) (l : List α) :
    segments sep (l.rdropWhile (· == sep)) = segments sep l := by
  induction l using reverseRecOn with
  | nil => rfl
  | append_singleton init last inductionHypothesis =>
      by_cases isSep : last = sep
      · subst isSep
        rw [rdropWhile_concat_pos _ _ _ (by simp), inductionHypothesis, segments_append_self]
      · rw [rdropWhile_concat_neg _ _ _ (by simpa using isSep)]

omit [LawfulBEq α] in
theorem ne_nil_of_mem_segments {sep : α} {l piece : List α} (member : piece ∈ segments sep l) :
    piece ≠ [] := by
  intro empty
  simp [segments, empty] at member

theorem splitOn_cons_of_ne {sep x : α} (different : x ≠ sep) (l : List α) :
    ∃ first rest, l.splitOn sep = first :: rest ∧
      (x :: l).splitOn sep = (x :: first) :: rest := by
  obtain ⟨first, rest, pieces⟩ := exists_cons_of_ne_nil (splitOn_ne_nil sep l)
  refine ⟨first, rest, pieces, ?_⟩
  simp [splitOn_cons_eq_if_modifyHead, different, pieces]

theorem not_mem_of_mem_splitOn {sep : α} {l piece : List α} (member : piece ∈ l.splitOn sep) :
    sep ∉ piece := by
  induction l generalizing piece with
  | nil => simp_all
  | cons head tail inductionHypothesis =>
      by_cases isSep : head = sep
      · subst isSep
        simp only [splitOn_cons_eq_if_modifyHead, beq_self_eq_true, if_true, mem_cons] at member
        rcases member with rfl | later
        · simp
        · exact inductionHypothesis later
      · obtain ⟨first, rest, pieces, consPieces⟩ := splitOn_cons_of_ne isSep tail
        rw [consPieces, mem_cons] at member
        rcases member with rfl | later
        · have firstFree := @inductionHypothesis first (by simp [pieces])
          simp [Ne.symm isSep, firstFree]
        · exact inductionHypothesis (by simp [pieces, later])

theorem not_mem_of_mem_segments {sep : α} {l piece : List α} (member : piece ∈ segments sep l) :
    sep ∉ piece :=
  not_mem_of_mem_splitOn (mem_filter.mp member).1

theorem segments_eq_nil_iff {sep : α} {l : List α} :
    segments sep l = [] ↔ ∀ x ∈ l, x = sep := by
  induction l with
  | nil => simp
  | cons head tail inductionHypothesis =>
      by_cases isSep : head = sep
      · subst isSep
        simp [inductionHypothesis]
      · obtain ⟨first, rest, -, consPieces⟩ := splitOn_cons_of_ne isSep tail
        simp [segments, consPieces, isSep]

/-! ## Prefixes and last occurrences -/

theorem isPrefixOf?_eq_some_iff {prefix_ l rest : List α} :
    prefix_.isPrefixOf? l = some rest ↔ l = prefix_ ++ rest := by
  induction prefix_ generalizing l with
  | nil => simp [isPrefixOf?, eq_comm]
  | cons head tail inductionHypothesis =>
      cases l with
      | nil => simp [isPrefixOf?]
      | cons first others =>
          by_cases same : first = head
          · subst same
            simp [isPrefixOf?, inductionHypothesis]
          · simp [isPrefixOf?, Ne.symm same, same]

/-- The first index at which `pattern` starts in `l`: for a pattern of `n` elements,
`l.windows(n).position(|window| window == pattern)`. -/
def windowPosition (pattern : List α) : List α → Option Nat
  | [] => none
  | l@(_ :: rest) => if pattern.isPrefixOf l then some 0 else (windowPosition pattern rest).map (· + 1)

/-- The index of the last occurrence of `a` in a list. -/
def lastIdxOf? (a : α) : List α → Option Nat
  | [] => none
  | x :: xs =>
      match lastIdxOf? a xs with
      | some index => some (index + 1)
      | none => if x == a then some 0 else none

theorem lastIdxOf?_eq_none_iff {a : α} {l : List α} : lastIdxOf? a l = none ↔ a ∉ l := by
  induction l with
  | nil => simp [lastIdxOf?]
  | cons head tail inductionHypothesis =>
      cases later : lastIdxOf? a tail with
      | none =>
          have absent := inductionHypothesis.mp later
          by_cases same : head = a
          · simp [lastIdxOf?, later, same]
          · simp [lastIdxOf?, later, same, absent, Ne.symm same]
      | some index =>
          have present : a ∈ tail := by
            by_contra absent
            rw [inductionHypothesis.mpr absent] at later
            cases later
          simp [lastIdxOf?, later, present]

/-- The last occurrence splits the list into the part before it and a part
free of `a`. -/
theorem lastIdxOf?_eq_some {a : α} {l : List α} {index : Nat}
    (found : lastIdxOf? a l = some index) :
    l = l.take index ++ a :: l.drop (index + 1) ∧ a ∉ l.drop (index + 1) := by
  induction l generalizing index with
  | nil => simp [lastIdxOf?] at found
  | cons head tail inductionHypothesis =>
      cases later : lastIdxOf? a tail with
      | none =>
          simp only [lastIdxOf?, later] at found
          split at found
          · rename_i same
            simp only [Option.some.injEq] at found
            subst found
            have absent := lastIdxOf?_eq_none_iff.mp later
            simp_all
          · cases found
      | some index' =>
          simp only [lastIdxOf?, later, Option.some.injEq] at found
          subst found
          obtain ⟨split, absent⟩ := inductionHypothesis later
          refine ⟨?_, by simpa using absent⟩
          simp only [take_succ_cons, drop_succ_cons, cons_append]
          rw [← split]

/-! ## Joining with a separator -/

omit [BEq α] [LawfulBEq α] in
/-- Pieces joined with a separator end as the last piece ends. -/
theorem getLast?_intercalate_append {sep last : List α} (front : List (List α))
    (nonempty : last ≠ []) :
    (sep.intercalate (front ++ [last])).getLast? = last.getLast? := by
  induction front with
  | nil => simp
  | cons head tail inductionHypothesis =>
      obtain ⟨first, rest, split⟩ : ∃ first rest, tail ++ [last] = first :: rest :=
        exists_cons_of_ne_nil (by simp)
      have tailNonempty : sep.intercalate (tail ++ [last]) ≠ [] := by
        intro empty
        rw [empty, getLast?_nil, eq_comm, getLast?_eq_none_iff] at inductionHypothesis
        exact nonempty inductionHypothesis
      rw [cons_append, split, intercalate_cons_cons, ← split,
        getLast?_append_of_ne_nil _ tailNonempty, inductionHypothesis]

omit [BEq α] [LawfulBEq α] in
/-- Pieces joined with a separator, seen around one of them: the pieces before
it each with the separator after it, the piece, and the pieces after it each
with the separator before it. -/
theorem intercalate_append_cons (sep : List α) (front : List (List α)) (piece : List α)
    (back : List (List α)) :
    sep.intercalate (front ++ piece :: back) =
      (front.map (· ++ sep)).flatten ++ piece ++ (back.map (sep ++ ·)).flatten := by
  induction front with
  | nil =>
      induction back generalizing piece with
      | nil => simp
      | cons next back inductionHypothesis =>
          rw [nil_append, intercalate_cons_cons, ← nil_append (next :: back), inductionHypothesis]
          simp
  | cons first front inductionHypothesis =>
      rw [cons_append, intercalate_cons_of_ne_nil (by simp), inductionHypothesis]
      simp

omit [BEq α] [LawfulBEq α] in
theorem length_intercalate (sep : List α) (pieces : List (List α)) :
    (sep.intercalate pieces).length = (pieces.map length).sum + sep.length * (pieces.length - 1) := by
  induction pieces with
  | nil => simp
  | cons piece rest inductionHypothesis =>
      cases rest with
      | nil => simp
      | cons next more =>
          rw [intercalate_cons_cons, length_append, length_append, inductionHypothesis]
          simp only [map_cons, sum_cons, length_cons, Nat.add_sub_cancel]
          rw [Nat.mul_add_one]
          omega

end List
