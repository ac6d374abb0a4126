import Mathlib.Data.List.OfFn

/-!
# Byte buffers

`Vec::resize` and `copy_from_slice` on lists (`copyChecked` with its panics),
sectors of a buffer (`chunkAt`), and `writeAt`, the pointwise
meaning of a positional write: the buffer is first extended with a fill value
up to the end of the written range, and the range is then overwritten.
`copyFromSlice_resize` says that the two library calls together are that
write.
-/

universe u

namespace List

variable {α : Type u}

/-- `Vec::resize(n, value)`: truncate to `n` elements or extend with copies of
`value`. -/
def resize (l : List α) (n : Nat) (value : α) : List α :=
  l.take n ++ replicate (n - l.length) value

/-- `l[start..start + src.len()].copy_from_slice(src)`. -/
def copyFromSlice (l : List α) (start : Nat) (src : List α) : List α :=
  l.take start ++ src ++ l.drop (start + src.length)

/-- `l[start..start + len].copy_from_slice(src)`, `none` where it panics: the
range runs past the end, or `src` has another length. -/
def copyChecked (l : List α) (start len : Nat) (src : List α) : Option (List α) :=
  if start + len ≤ l.length ∧ src.length = len then some (l.copyFromSlice start src) else none

/-- The `size` elements from position `j * size`: sector `j` of a buffer of
`size`-element sectors. -/
def chunkAt (l : List α) (size j : Nat) : List α :=
  (l.drop (j * size)).take size

/-- The buffer after writing `src` at `start`, extended with `fill` where the
write starts past its end. -/
def writeAt (l : List α) (start : Nat) (src : List α) (fill : α) : List α :=
  List.ofFn fun (i : Fin (Max.max l.length (start + src.length))) =>
    if start ≤ i.val ∧ i.val < start + src.length then src.getD (i.val - start) fill
    else l.getD i.val fill

@[simp]
theorem length_resize (l : List α) (n : Nat) (value : α) : (l.resize n value).length = n := by
  simp only [resize, length_append, length_take, length_replicate]
  omega

theorem getElem_resize (l : List α) (n : Nat) (value : α) {i : Nat}
    (bound : i < (l.resize n value).length) :
    (l.resize n value)[i] = l.getD i value := by
  have small : i < n := by simpa using bound
  by_cases inside : i < l.length
  · simp [resize, getElem_append_left, inside, small]
  · simp only [resize, getElem_append, length_take, getElem_replicate]
    rw [getD_eq_getElem?_getD, getElem?_eq_none (by omega)]
    split <;> simp_all
    omega

theorem length_copyFromSlice {l : List α} {start : Nat} {src : List α}
    (fits : start + src.length ≤ l.length) :
    (l.copyFromSlice start src).length = l.length := by
  simp only [copyFromSlice, length_append, length_take, length_drop]
  omega

theorem getElem_copyFromSlice {l : List α} {start : Nat} {src : List α} (fill : α)
    (fits : start + src.length ≤ l.length) {i : Nat}
    (bound : i < (l.copyFromSlice start src).length) :
    (l.copyFromSlice start src)[i] =
      if start ≤ i ∧ i < start + src.length then src.getD (i - start) fill
      else l.getD i fill := by
  have length := length_copyFromSlice fits
  simp only [copyFromSlice, getElem_append, length_append, length_take, getElem_take,
    getElem_drop, getD_eq_getElem?_getD]
  split_ifs with before within range <;> first | omega | skip
  · simp [getElem?_eq_getElem (by omega : i < l.length)]
  · have startFits : min start l.length = start := by omega
    simp [getElem?_eq_getElem (by omega : i - start < src.length), startFits]
  · simp [getElem?_eq_getElem (by omega : i < l.length)]
    congr 1
    omega

@[simp]
theorem length_writeAt (l : List α) (start : Nat) (src : List α) (fill : α) :
    (l.writeAt start src fill).length = Max.max l.length (start + src.length) := by
  simp [writeAt]

theorem getElem_writeAt (l : List α) (start : Nat) (src : List α) (fill : α) {i : Nat}
    (bound : i < (l.writeAt start src fill).length) :
    (l.writeAt start src fill)[i] =
      if start ≤ i ∧ i < start + src.length then src.getD (i - start) fill
      else l.getD i fill := by
  simp [writeAt]

theorem copyChecked_eq_some {l src : List α} {start len : Nat} (fits : start + len ≤ l.length)
    (same : src.length = len) : l.copyChecked start len src = some (l.copyFromSlice start src) :=
  if_pos ⟨fits, same⟩

/-! ### Sectors of a buffer -/

/-- A sector inside a copied range is the matching sector of the source. -/
theorem chunkAt_copyFromSlice_of_le {l src : List α} {size first j : Nat}
    (fits : first * size ≤ l.length) (inside : first ≤ j)
    (within : (j + 1) * size ≤ first * size + src.length) :
    (l.copyFromSlice (first * size) src).chunkAt size j = src.chunkAt size (j - first) := by
  have offset : j * size = first * size + (j - first) * size := by
    rw [← Nat.add_mul, Nat.add_sub_cancel' inside]
  have room : (j - first) * size + size ≤ src.length := by
    rw [Nat.succ_mul, offset] at within
    omega
  unfold chunkAt copyFromSlice
  rw [offset, ← List.drop_drop, List.append_assoc, List.drop_left' (by simp; omega),
    List.drop_append_of_le_length (by omega), List.take_append_of_le_length (by simp; omega)]

/-- A sector before a copied range is unchanged. -/
theorem chunkAt_copyFromSlice_of_lt {l src : List α} {size first j : Nat}
    (fits : first * size ≤ l.length) (before : j < first) :
    (l.copyFromSlice (first * size) src).chunkAt size j = l.chunkAt size j := by
  have below : j * size + size ≤ first * size := by
    rw [← Nat.succ_mul]
    exact Nat.mul_le_mul_right _ before
  unfold chunkAt copyFromSlice
  rw [List.append_assoc, List.drop_append_of_le_length (by simp; omega),
    List.take_append_of_le_length (by simp; omega), List.drop_take, List.take_take,
    Nat.min_eq_left (by omega)]

/-- A sector after a copied range is unchanged. -/
theorem chunkAt_copyFromSlice_of_ge {l src : List α} {size first j : Nat}
    (fits : first * size + src.length ≤ l.length) (after : first * size + src.length ≤ j * size) :
    (l.copyFromSlice (first * size) src).chunkAt size j = l.chunkAt size j := by
  have prefixLength : (l.take (first * size) ++ src).length = first * size + src.length := by
    simp
    omega
  unfold chunkAt copyFromSlice
  rw [List.drop_append, List.drop_eq_nil_of_le (by omega), List.nil_append, prefixLength,
    List.drop_drop, Nat.add_sub_cancel' after]

/-- A list of one sector's length is its own first sector. -/
theorem chunkAt_zero_of_length {l : List α} {size : Nat} (sized : l.length = size) : l.chunkAt size 0 = l := by
  rw [chunkAt, Nat.zero_mul, List.drop_zero, List.take_of_length_le (Nat.le_of_eq sized)]

@[simp]
theorem copyFromSlice_nil (l : List α) (start : Nat) : l.copyFromSlice start [] = l := by
  simp [copyFromSlice]

/-- Pointwise, a copy puts `src` in its range and keeps the rest. -/
theorem getElem?_copyFromSlice {l src : List α} {start : Nat} (fits : start + src.length ≤ l.length)
    (i : Nat) :
    (l.copyFromSlice start src)[i]? = if start ≤ i ∧ i < start + src.length then src[i - start]? else l[i]? := by
  have startFits : min start l.length = start := by omega
  unfold copyFromSlice
  rw [List.getElem?_append, List.getElem?_append]
  simp only [length_append, length_take, startFits, getElem?_take, getElem?_drop]
  split_ifs <;> first | rfl | omega | skip
  congr 1
  omega

/-- Copying two lists one after the other is copying their concatenation. -/
theorem copyFromSlice_append {l first second : List α} {start : Nat}
    (fits : start + first.length + second.length ≤ l.length) :
    l.copyFromSlice start (first ++ second) =
      (l.copyFromSlice start first).copyFromSlice (start + first.length) second := by
  have firstLength : (l.copyFromSlice start first).length = l.length := length_copyFromSlice (by omega)
  apply List.ext_getElem?
  intro i
  rw [getElem?_copyFromSlice (by simp only [length_append]; omega), getElem?_copyFromSlice (by omega),
    getElem?_copyFromSlice (by omega), List.getElem?_append]
  simp only [length_append]
  split_ifs <;> first | rfl | omega | skip
  rw [Nat.sub_sub]

/-- Copying the next `bytes` elements of `src` from `done` on and then the
rest up to `len` copies everything from `done` up to `len`. -/
theorem copyFromSlice_drop_take {l src : List α} {start done bytes len : Nat} (within : done + bytes ≤ len)
    (enough : len ≤ src.length) (fits : start + (len - done) ≤ l.length) :
    (l.copyFromSlice start ((src.drop done).take bytes)).copyFromSlice (start + bytes)
        ((src.drop (done + bytes)).take (len - (done + bytes))) =
      l.copyFromSlice start ((src.drop done).take (len - done)) := by
  have headLength : ((src.drop done).take bytes).length = bytes := by
    rw [length_take, length_drop]
    omega
  have restLength : ((src.drop (done + bytes)).take (len - (done + bytes))).length = len - (done + bytes) := by
    rw [length_take, length_drop]
    omega
  have split : (src.drop done).take (len - done) =
      (src.drop done).take bytes ++ (src.drop (done + bytes)).take (len - (done + bytes)) := by
    rw [show len - done = bytes + (len - (done + bytes)) by omega, List.take_add, List.drop_drop]
  rw [split, copyFromSlice_append (by omega), headLength]

/-- Writing a region back with a patch copied into it writes the patch. -/
theorem copyFromSlice_patch {l patch : List α} {start size offset : Nat}
    (fits : start + size ≤ l.length) (inside : offset + patch.length ≤ size) :
    l.copyFromSlice start (((l.drop start).take size).copyFromSlice offset patch) =
      l.copyFromSlice (start + offset) patch := by
  have regionLength : ((l.drop start).take size).length = size := by
    simp only [length_take, length_drop]
    omega
  have patchedLength : (((l.drop start).take size).copyFromSlice offset patch).length = size := by
    rw [length_copyFromSlice (by omega), regionLength]
  apply List.ext_getElem?
  intro i
  rw [getElem?_copyFromSlice (by omega), getElem?_copyFromSlice (by omega), patchedLength,
    getElem?_copyFromSlice (by omega), getElem?_take, getElem?_drop]
  split_ifs <;> first | rfl | omega | skip
  · rw [Nat.sub_sub]
  · congr 1
    omega

/-- A sector within the first `n` elements is a sector of their prefix. -/
theorem chunkAt_take {l : List α} {size j n : Nat} (within : (j + 1) * size ≤ n) :
    (l.take n).chunkAt size j = l.chunkAt size j := by
  rw [Nat.succ_mul] at within
  rw [chunkAt, chunkAt, List.drop_take, List.take_take, Nat.min_eq_left (by omega)]

/-- Past a copied range the buffer is unchanged. -/
theorem drop_copyFromSlice_of_le {l src : List α} {start n : Nat} (within : start ≤ l.length)
    (past : start + src.length ≤ n) : (l.copyFromSlice start src).drop n = l.drop n := by
  have prefixLength : (l.take start ++ src).length = start + src.length := by
    simp
    omega
  rw [copyFromSlice, List.drop_append, List.drop_eq_nil_of_le (by omega), List.nil_append, prefixLength,
    List.drop_drop, Nat.add_sub_cancel' past]

/-- Copying `src` right after a prefix the buffer already starts with leaves
the buffer starting with the prefix and `src`. -/
theorem take_copyFromSlice {l before src : List α} {start : Nat} (length : before.length = start)
    (starts : l.take start = before) :
    (l.copyFromSlice start src).take (start + src.length) = before ++ src := by
  subst length
  rw [copyFromSlice, starts, List.append_assoc, ← List.append_assoc before, List.take_left']
  simp

@[simp]
theorem take_copyFromSlice_zero (l src : List α) : (l.copyFromSlice 0 src).take src.length = src := by
  simpa using @take_copyFromSlice _ l [] src 0 rfl (by simp)

/-- Copying a whole buffer's worth over it gives the copied list. -/
theorem copyFromSlice_zero_of_length {l src : List α} (same : src.length = l.length) :
    l.copyFromSlice 0 src = src := by
  simp [copyFromSlice, same]

/-- Copying into a buffer that agrees with `l` (extended by `fill`) and is
long enough is the positional write. -/
theorem copyFromSlice_eq_writeAt {l grown : List α} {start : Nat} {src : List α} {fill : α}
    (grownLength : grown.length = Max.max l.length (start + src.length))
    (grownElem : ∀ i (bound : i < grown.length), grown[i] = l.getD i fill) :
    grown.copyFromSlice start src = l.writeAt start src fill := by
  have fits : start + src.length ≤ grown.length := by omega
  apply List.ext_getElem
  · rw [length_copyFromSlice fits, grownLength, length_writeAt]
  · intro i left right
    rw [getElem_writeAt, getElem_copyFromSlice fill fits]
    split
    · rfl
    · have inside : i < grown.length := by
        rw [length_copyFromSlice fits] at left
        exact left
      rw [← grownElem i inside, getD_eq_getElem?_getD, getElem?_eq_getElem inside]
      rfl

/-- Growing the buffer and then copying into the range is the positional
write. -/
theorem copyFromSlice_resize (l : List α) (start : Nat) (src : List α) (fill : α) :
    (if l.length < start + src.length then l.resize (start + src.length) fill else l).copyFromSlice
        start src = l.writeAt start src fill := by
  by_cases grows : l.length < start + src.length
  · rw [if_pos grows]
    exact copyFromSlice_eq_writeAt (by simp; omega) (fun i _ => getElem_resize _ _ _ _)
  · rw [if_neg grows]
    exact copyFromSlice_eq_writeAt (by omega) (fun i bound => by simp [getD_eq_getElem?_getD, bound])

/-- A sector that lies within the buffer is `size` elements long. -/
theorem length_chunkAt_of_le {l : List α} {size j : Nat} (within : (j + 1) * size ≤ l.length) :
    (l.chunkAt size j).length = size := by
  rw [Nat.succ_mul] at within
  simp only [chunkAt, length_take, length_drop]
  omega

/-- The first `m` sectors, joined, are the first `m * size` elements. -/
theorem flatten_map_chunkAt_range (l : List α) (size m : Nat) :
    ((range m).map (l.chunkAt size)).flatten = l.take (m * size) := by
  induction m with
  | zero => simp
  | succ m inductionHypothesis =>
      rw [range_succ, map_append, flatten_append, inductionHypothesis, Nat.succ_mul, take_add]
      simp [chunkAt]

/-- Rows of one width `n`, joined, are `n` elements per row. -/
theorem length_flatten_of_forall_length {rows : List (List α)} {n : Nat}
    (same : ∀ row ∈ rows, row.length = n) : rows.flatten.length = rows.length * n := by
  rw [length_flatten, map_congr_left same, map_const', sum_replicate_nat]

/-- Element `i` of rows of one width `n`, joined, is element `i % n` of row
`i / n`. -/
theorem getElem?_flatten_of_forall_length {rows : List (List α)} {n : Nat}
    (same : ∀ row ∈ rows, row.length = n) (i : Nat) :
    rows.flatten[i]? = if i < rows.length * n then rows[i / n]?.bind (·[i % n]?) else none := by
  rcases Nat.eq_zero_or_pos n with zero | positive
  · -- rows of width zero join to nothing
    subst zero
    have empty : rows.flatten = [] :=
      flatten_eq_nil_iff.mpr fun row member => length_eq_zero_iff.mp (same row member)
    simp [empty]
  induction rows generalizing i with
  | nil => simp
  | cons row rest inductionHypothesis =>
      have rowLength : row.length = n := same row mem_cons_self
      rw [flatten_cons, getElem?_append, rowLength, length_cons]
      by_cases first : i < n
      · have inRow : i / n = 0 := Nat.div_eq_of_lt first
        rw [if_pos first, if_pos (by rw [Nat.succ_mul]; omega), inRow, Nat.mod_eq_of_lt first]
        simp
      · -- past the first row, both sides move down one row
        have later := inductionHypothesis (fun other member => same other (mem_cons_of_mem _ member)) (i - n)
        rw [if_neg first, later, Nat.div_eq_sub_div positive (Nat.le_of_not_lt first),
          ← Nat.mod_eq_sub_mod (Nat.le_of_not_lt first), getElem?_cons_succ, Nat.succ_mul]
        by_cases inside : i - n < rest.length * n
        · rw [if_pos inside, if_pos (by omega)]
        · rw [if_neg inside, if_neg (by omega)]

/-- A slice of a sector is a slice of the list. -/
theorem take_drop_chunkAt {l : List α} {size j offset count : Nat} (inside : offset + count ≤ size) :
    ((l.chunkAt size j).drop offset).take count = (l.drop (j * size + offset)).take count := by
  rw [chunkAt, List.drop_take, List.take_take, List.drop_drop, Nat.min_eq_left (by omega), Nat.add_comm]

/-- Appending the rows at the indices of a window one at a time, skipping the
indices past the end, joins the rows of that window. -/
theorem foldl_append_getElem_range' (rows : List (List α)) (start n : Nat) (acc : List α) :
    (range' start n).foldl (fun result i => if h : i < rows.length then result ++ rows[i] else result) acc =
      acc ++ ((rows.drop start).take n).flatten := by
  induction n generalizing start acc with
  | zero => simp
  | succ n inductionHypothesis =>
      rw [range'_succ, foldl_cons, inductionHypothesis]
      by_cases inside : start < rows.length
      · rw [dif_pos inside, drop_eq_getElem_cons inside, take_succ_cons, flatten_cons, append_assoc]
      · have past : rows.length ≤ start := Nat.le_of_not_lt inside
        rw [dif_neg inside, drop_eq_nil_of_le past, drop_eq_nil_of_le (by omega)]
        simp

end List
