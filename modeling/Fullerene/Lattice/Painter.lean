import Fullerene.Lib.Word

/-!
# The painter

`Painter` of the `lattice` crate draws into a framebuffer slice whose rows are
`stride` words apart, and keeps a clip rectangle that `clip_rect` narrows
(`mem_clipRect_iff`).  `clip` cuts a rectangle to the framebuffer and to the
clip, and is exact (`clip_spec`).

`fill_rect` steps from row to row by `width`.  For a painter from
`Painter::new`, whose stride is its width, it sets exactly the pixels of the
rectangle that lie on the framebuffer and in the clip
(`fillRect_getD_of_stride_eq`).  A painter from `Painter::new_with_stride` with
a wider stride gets the rows at the wrong places, `set_pixel` checks the
framebuffer's bounds and not the clip, and a fill with a corner at `i32::MIN`
panics (`painter_writes_outside_region`).

The framebuffer is a list of `u32` words; a slice index out of range panics,
and so does every `u32` and `i32` overflow of the code's arithmetic: those
calls return `none`.
-/

namespace Fullerene.Lattice

/-- A `Painter`. -/
structure Painter where
  fb : List Nat
  width : Nat
  height : Nat
  stride : Nat
  clipX : Nat
  clipY : Nat
  clipW : Nat
  clipH : Nat
deriving DecidableEq, Repr

/-- `fb[start..stop].fill(color)`. -/
def fillRange (fb : List Nat) (start stop color : Nat) : Option (List Nat) :=
  if start ≤ stop ∧ stop ≤ fb.length then some (fb.mapIdx fun i v => if start ≤ i ∧ i < stop then color else v)
  else none

namespace Painter

/-- `Painter::new`. -/
def new (fb : List Nat) (width height : Nat) : Painter := ⟨fb, width, height, width, 0, 0, width, height⟩

/-- `Painter::new_with_stride`. -/
def newWithStride (fb : List Nat) (width height stride : Nat) : Painter :=
  ⟨fb, width, height, stride, 0, 0, width, height⟩

/-- `clip_rect`: the clip becomes its intersection with the rectangle and the framebuffer. -/
def clipRect (p : Painter) (x y : Int) (w h : Nat) : Option Painter := do
  let x := (max x 0).toNat
  let y := (max y 0).toNat
  let xe ← (Word.checkedAdd 32 x w).map (min · p.width)
  let ye ← (Word.checkedAdd 32 y h).map (min · p.height)
  let cx := max p.clipX x
  let cy := max p.clipY y
  let clipRight ← Word.checkedAdd 32 p.clipX p.clipW
  let clipBottom ← Word.checkedAdd 32 p.clipY p.clipH
  pure { p with clipX := cx, clipY := cy, clipW := min clipRight xe - cx, clipH := min clipBottom ye - cy }

/-- `idx`. -/
def idx (p : Painter) (x y : Nat) : Nat := y * p.stride + x

/-- The part of `clip` that cuts one axis of the rectangle at zero: `(-x) as u32` is taken off the
size, and `-x` panics for `i32::MIN`. -/
def cutAtZero (x : Int) (w : Nat) : Option Nat :=
  if x < 0 then (Word.checkedSubInt 32 0 x).map fun negated => w - Word.ofSigned 32 negated else some w

/-- `clip`: the rectangle cut to the framebuffer and to the clip, `None` when nothing is left. -/
def clip (p : Painter) (x y : Int) (w h : Nat) : Option (Option (Nat × Nat × Nat × Nat)) := do
  let w ← cutAtZero x w
  let h ← cutAtZero y h
  let x := (max x 0).toNat
  let y := (max y 0).toNat
  let w := min w (p.width - x)
  let h := min h (p.height - y)
  if w = 0 ∨ h = 0 then pure none
  else do
    let cxe := min (p.clipX + p.clipW) (Word.max 32)
    let cye := min (p.clipY + p.clipH) (Word.max 32)
    let xe ← (Word.checkedAdd 32 x w).map (min · cxe)
    let ye ← (Word.checkedAdd 32 y h).map (min · cye)
    let x := max x p.clipX
    let y := max y p.clipY
    let w := xe - x
    let h := ye - y
    if w = 0 ∨ h = 0 then pure none else pure (some (x, y, w, h))

/-- The row loop of `fill_rect`: each row's run starts `row * width + cx` words in. -/
def fillRows (width cx cw color : Nat) (fb : List Nat) : List Nat → Option (List Nat)
  | [] => some fb
  | row :: rows => do
      let stop ← Word.checkedAdd 32 cx cw
      let fb ← fillRange fb (row * width + cx) (row * width + stop) color
      fillRows width cx cw color fb rows

/-- `fill_rect`. -/
def fillRect (p : Painter) (x y : Int) (w h color : Nat) : Option Painter := do
  match ← p.clip x y w h with
  | none => pure p
  | some (cx, cy, cw, ch) =>
      let rowsEnd ← Word.checkedAdd 32 cy ch
      let fb ← fillRows p.width cx cw color p.fb (List.range' cy (rowsEnd - cy))
      pure { p with fb }

/-- `set_pixel`: inside the framebuffer the word at `idx` is set; the index panics past the slice. -/
def setPixel (p : Painter) (x y color : Nat) : Option Painter :=
  if x < p.width ∧ y < p.height then
    if p.idx x y < p.fb.length then some { p with fb := p.fb.set (p.idx x y) color } else none
  else some p

/-! ## Filling a range and the rows of a rectangle -/

theorem getD_fillRange {fb fb' : List Nat} {start stop color : Nat} (filled : fillRange fb start stop color = some fb')
    (i : Nat) : fb'.getD i 0 = if start ≤ i ∧ i < stop then color else fb.getD i 0 := by
  unfold fillRange at filled
  split at filled
  · rename_i inside
    rw [← Option.some.inj filled, List.getD_eq_getElem?_getD, List.getElem?_mapIdx, List.getD_eq_getElem?_getD]
    by_cases within : i < fb.length
    · rw [List.getElem?_eq_getElem within]
      rfl
    · rw [List.getElem?_eq_none (by omega)]
      simp only [Option.map_none, Option.getD_none]
      split <;> omega
  · cases filled

theorem fillRange_eq_some {fb : List Nat} {start stop color : Nat} (ordered : start ≤ stop) (fits : stop ≤ fb.length) :
    ∃ fb', fillRange fb start stop color = some fb' ∧ fb'.length = fb.length := by
  unfold fillRange
  rw [if_pos ⟨ordered, fits⟩]
  exact ⟨_, rfl, List.length_mapIdx⟩

/-- The row loop fills, for every row, the run of `cw` words `row * width + cx` words in. -/
theorem fillRows_getD (width cx cw color : Nat) (fits : cx + cw < 2 ^ 32) :
    ∀ (rows : List Nat) (fb : List Nat), (∀ row ∈ rows, row * width + cx + cw ≤ fb.length) →
      ∃ fb', Painter.fillRows width cx cw color fb rows = some fb' ∧ ∀ i,
        fb'.getD i 0 = if ∃ row ∈ rows, row * width + cx ≤ i ∧ i < row * width + cx + cw then color else fb.getD i 0
  | [], fb, _ => ⟨fb, rfl, fun i => by simp⟩
  | row :: rows, fb, inside => by
      have first : ∃ filled, fillRange fb (row * width + cx) (row * width + cx + cw) color = some filled ∧
          filled.length = fb.length :=
        fillRange_eq_some (Nat.le_add_right _ _) (inside row List.mem_cons_self)
      obtain ⟨filled, fillEq, sameLength⟩ := first
      obtain ⟨fb', rest, restGet⟩ := fillRows_getD width cx cw color fits rows filled fun other mem => by
        rw [sameLength]
        exact inside other (List.mem_cons_of_mem _ mem)
      refine ⟨fb', ?_, fun i => ?_⟩
      · unfold Painter.fillRows
        rw [Word.checkedAdd_of_lt fits]
        simp only [Option.bind_eq_bind, Option.bind_some, ← Nat.add_assoc, fillEq, rest]
      · rw [restGet, getD_fillRange fillEq]
        -- a word is filled by this row, by a later one, or by none
        by_cases later : ∃ other ∈ rows, other * width + cx ≤ i ∧ i < other * width + cx + cw
        · rw [if_pos later, if_pos]
          obtain ⟨other, mem, range⟩ := later
          exact ⟨other, List.mem_cons_of_mem _ mem, range⟩
        · rw [if_neg later]
          by_cases here : row * width + cx ≤ i ∧ i < row * width + cx + cw
          · rw [if_pos here, if_pos ⟨row, List.mem_cons_self, here⟩]
          · rw [if_neg here, if_neg]
            rintro ⟨other, mem, range⟩
            rcases List.mem_cons.mp mem with rfl | mem
            · exact here range
            · exact later ⟨other, mem, range⟩

/-! ## Clipping -/

/-- Cutting an axis at zero keeps the same columns from zero on. -/
theorem mem_cutAtZero_iff {x : Int} {w w' : Nat} (cut : cutAtZero x w = some w') (col : Nat) :
    ((max x 0).toNat ≤ col ∧ col < (max x 0).toNat + w') ↔ (x ≤ col ∧ col < x + w) := by
  unfold cutAtZero at cut
  split at cut
  · obtain ⟨negated, subtracted, rfl⟩ := Option.map_eq_some_iff.mp cut
    obtain ⟨⟨-, high⟩, rfl⟩ := Word.checkedSubInt_eq_some_iff.mp subtracted
    rw [Word.ofSigned_of_nonneg (by omega) (by norm_num at high ⊢; omega)]
    omega
  · cases cut
    omega

/-- Only `i32::MIN` has no negation. -/
theorem cutAtZero_isSome {x : Int} (above : -2 ^ 31 < x) (w : Nat) : ∃ w', cutAtZero x w = some w' := by
  unfold cutAtZero
  split
  · refine ⟨_, Option.map_eq_some_iff.mpr ⟨0 - x, Word.checkedSubInt_eq_some_iff.mpr ⟨?_, rfl⟩, rfl⟩⟩
    norm_num
    omega
  · exact ⟨w, rfl⟩

/-- A run from `a` of length `e - a` holds exactly the points from `a` below `e`. -/
theorem mem_run_iff {a e col : Nat} : (a ≤ col ∧ col < a + (e - a)) ↔ a ≤ col ∧ col < e := by
  omega

/-- One axis of `clip`: from the cut start `(max x 0).toNat` and size `w'`, the run on the
framebuffer of `size` and in the clip `lo..lo + len` starts at `max start lo` and ends at the
smaller end. -/
theorem clipAxis_iff (lo len : Nat) {x : Int} {w w' size : Nat} (cut : cutAtZero x w = some w') (fits : size < 2 ^ 32)
    (col : Nat) :
    (max (max x 0).toNat lo ≤ col ∧ col < max (max x 0).toNat lo +
        (min ((max x 0).toNat + min w' (size - (max x 0).toNat)) (min (lo + len) (Word.max 32)) -
          max (max x 0).toNat lo)) ↔
      (x ≤ col ∧ col < x + w) ∧ col < size ∧ lo ≤ col ∧ col < lo + len := by
  have along := mem_cutAtZero_iff cut col
  unfold Word.max
  generalize (max x 0).toNat = start at along ⊢
  -- each end of the run splits into the bounds it is the larger or smaller of
  rw [mem_run_iff, max_le_iff, lt_min_iff, lt_min_iff]
  omega

variable {p : Painter} {x y : Int} {w h : Nat}

/-- What `clip` returns: a rectangle that is not empty and holds, along each axis, exactly the
points of the given one that lie on the framebuffer and in the clip. -/
theorem clip_spec (wide : p.width < 2 ^ 32) (tall : p.height < 2 ^ 32) {cx cy cw ch : Nat}
    (clipped : p.clip x y w h = some (some (cx, cy, cw, ch))) :
    0 < cw ∧ 0 < ch ∧
      (∀ col, (cx ≤ col ∧ col < cx + cw) ↔
        (x ≤ col ∧ col < x + w) ∧ col < p.width ∧ p.clipX ≤ col ∧ col < p.clipX + p.clipW) ∧
      (∀ row, (cy ≤ row ∧ row < cy + ch) ↔
        (y ≤ row ∧ row < y + h) ∧ row < p.height ∧ p.clipY ≤ row ∧ row < p.clipY + p.clipH) := by
  unfold clip at clipped
  simp only [Option.bind_eq_bind, Option.bind_eq_some_iff, Option.pure_def] at clipped
  obtain ⟨w', cutW, h', cutH, clipped⟩ := clipped
  split at clipped
  · cases clipped
  simp only [Option.bind_eq_some_iff] at clipped
  obtain ⟨xe, rightEdge, ye, bottomEdge, clipped⟩ := clipped
  obtain ⟨right, addedX, rfl⟩ := Option.map_eq_some_iff.mp rightEdge
  obtain ⟨bottom, addedY, rfl⟩ := Option.map_eq_some_iff.mp bottomEdge
  obtain ⟨-, rfl⟩ := Word.checkedAdd_eq_some_iff.mp addedX
  obtain ⟨-, rfl⟩ := Word.checkedAdd_eq_some_iff.mp addedY
  split at clipped
  · cases clipped
  rename_i nonempty
  simp only [Option.some.injEq, Prod.mk.injEq] at clipped
  obtain ⟨rfl, rfl, rfl, rfl⟩ := clipped
  exact ⟨Nat.pos_of_ne_zero (not_or.mp nonempty).1, Nat.pos_of_ne_zero (not_or.mp nonempty).2,
    clipAxis_iff _ _ cutW wide, clipAxis_iff _ _ cutH tall⟩

/-- `clip` returns `None` only when no point of the rectangle is on the framebuffer and in the
clip. -/
theorem not_mem_of_clip_none (wide : p.width < 2 ^ 32) (tall : p.height < 2 ^ 32)
    (clipped : p.clip x y w h = some none) (col row : Nat) :
    ¬ (((x ≤ col ∧ col < x + w) ∧ col < p.width ∧ p.clipX ≤ col ∧ col < p.clipX + p.clipW) ∧
        ((y ≤ row ∧ row < y + h) ∧ row < p.height ∧ p.clipY ≤ row ∧ row < p.clipY + p.clipH)) := by
  unfold clip at clipped
  simp only [Option.bind_eq_bind, Option.bind_eq_some_iff, Option.pure_def] at clipped
  obtain ⟨w', cutW, h', cutH, clipped⟩ := clipped
  rintro ⟨alongX, alongY⟩
  have onX := (clipAxis_iff p.clipX p.clipW cutW wide col).mpr alongX
  have onY := (clipAxis_iff p.clipY p.clipH cutH tall row).mpr alongY
  rw [mem_run_iff, max_le_iff, lt_min_iff, lt_min_iff] at onX onY
  split at clipped
  · -- a side cut to zero leaves no run along its axis
    omega
  simp only [Option.bind_eq_some_iff] at clipped
  obtain ⟨xe, rightEdge, ye, bottomEdge, clipped⟩ := clipped
  obtain ⟨right, addedX, rfl⟩ := Option.map_eq_some_iff.mp rightEdge
  obtain ⟨bottom, addedY, rfl⟩ := Option.map_eq_some_iff.mp bottomEdge
  obtain ⟨-, rfl⟩ := Word.checkedAdd_eq_some_iff.mp addedX
  obtain ⟨-, rfl⟩ := Word.checkedAdd_eq_some_iff.mp addedY
  split at clipped
  · omega
  · cases clipped

/-- `clip` panics only on `i32::MIN`. -/
theorem clip_isSome (wide : p.width < 2 ^ 32) (tall : p.height < 2 ^ 32) (xAbove : -2 ^ 31 < x)
    (yAbove : -2 ^ 31 < y) : ∃ r, p.clip x y w h = some r := by
  obtain ⟨w', cutW⟩ := cutAtZero_isSome xAbove w
  obtain ⟨h', cutH⟩ := cutAtZero_isSome yAbove h
  unfold clip
  simp only [Option.bind_eq_bind, cutW, cutH, Option.bind_some, Option.pure_def]
  split
  · exact ⟨none, rfl⟩
  · -- the cut rectangle starts inside the framebuffer, so its right and bottom edges fit in a `u32`
    rename_i nonempty
    rw [Word.checkedAdd_of_lt (by omega), Word.checkedAdd_of_lt (by omega)]
    simp only [Option.map_some, Option.bind_some]
    split
    · exact ⟨none, rfl⟩
    · exact ⟨_, rfl⟩

/-! ## Filling a rectangle -/

/-- Two positions `row * width + col` with `col < width` in one row's run are in the same row. -/
theorem row_eq_of_mem_run {width row row' col : Nat} (inside : col < width) (low : row' * width ≤ row * width + col)
    (high : row * width + col < row' * width + width) : row' = row := by
  rcases Nat.lt_trichotomy row' row with before | same | after
  · have step := Nat.mul_le_mul_right width (Nat.succ_le_of_lt before)
    rw [Nat.succ_mul] at step
    omega
  · exact same
  · have step := Nat.mul_le_mul_right width (Nat.succ_le_of_lt after)
    rw [Nat.succ_mul] at step
    omega

/-- A row below the framebuffer's height ends inside it. -/
theorem row_end_le (width : Nat) {height row : Nat} (below : row < height) : row * width + width ≤ width * height := by
  have step := Nat.mul_le_mul_right width (Nat.succ_le_of_lt below)
  rw [Nat.succ_mul, Nat.mul_comm height] at step
  exact step

/-- With the stride equal to the width, `fill_rect` sets exactly the pixels of the rectangle that are
on the framebuffer and in the clip, leaves every other word alone, and panics only on a corner at
`i32::MIN`. -/
theorem fillRect_getD_of_stride_eq (stride : p.stride = p.width) (wide : p.width < 2 ^ 32)
    (tall : p.height < 2 ^ 32) (sized : p.width * p.height ≤ p.fb.length) (xAbove : -2 ^ 31 < x)
    (yAbove : -2 ^ 31 < y) (color : Nat) :
    ∃ p', p.fillRect x y w h color = some p' ∧
      (∀ col row, col < p.width → row < p.height →
        p'.fb.getD (p.idx col row) 0 =
          if ((x ≤ col ∧ col < x + w) ∧ p.clipX ≤ col ∧ col < p.clipX + p.clipW) ∧
              ((y ≤ row ∧ row < y + h) ∧ p.clipY ≤ row ∧ row < p.clipY + p.clipH)
          then color else p.fb.getD (p.idx col row) 0) ∧
      ∀ i, p.width * p.height ≤ i → p'.fb.getD i 0 = p.fb.getD i 0 := by
  obtain ⟨clipped, clippedEq⟩ := clip_isSome (w := w) (h := h) wide tall xAbove yAbove
  unfold fillRect
  simp only [Option.bind_eq_bind, clippedEq, Option.bind_some]
  rcases clipped with _ | ⟨cx, cy, cw, ch⟩
  · -- nothing of the rectangle is visible
    refine ⟨p, rfl, fun col row colIn rowIn => ?_, fun _ _ => rfl⟩
    rw [if_neg]
    rintro ⟨alongX, alongY⟩
    exact not_mem_of_clip_none wide tall clippedEq col row
      ⟨⟨alongX.1, colIn, alongX.2⟩, ⟨alongY.1, rowIn, alongY.2⟩⟩
  obtain ⟨wideRun, tallRun, alongX, alongY⟩ := clip_spec wide tall clippedEq
  -- the far corner of the run is on the framebuffer
  have right : cx + cw ≤ p.width := by
    have corner := ((alongX (cx + cw - 1)).mp ⟨by omega, by omega⟩).2.1
    omega
  have bottom : cy + ch ≤ p.height := by
    have corner := ((alongY (cy + ch - 1)).mp ⟨by omega, by omega⟩).2.1
    omega
  have rowsFit : ∀ row ∈ List.range' cy ch, row * p.width + cx + cw ≤ p.fb.length := by
    intro row mem
    have below := (List.mem_range'_1.mp mem).2
    have ends := row_end_le p.width (show row < p.height by omega)
    omega
  obtain ⟨fb', filled, filledGet⟩ := fillRows_getD p.width cx cw color (by omega) _ p.fb rowsFit
  refine ⟨{ p with fb := fb' }, ?_, fun col row colIn rowIn => ?_, fun i past => ?_⟩
  · have rowsEnd : Word.checkedAdd 32 cy ch = some (cy + ch) := Word.checkedAdd_of_lt (by omega)
    simp only [rowsEnd, Option.bind_some, Nat.add_sub_cancel_left, filled, Option.pure_def]
  · rw [filledGet, idx, stride]
    -- the run that holds `row * width + col` is the one of `row`
    have runs : (∃ row' ∈ List.range' cy ch, row' * p.width + cx ≤ row * p.width + col ∧
        row * p.width + col < row' * p.width + cx + cw) ↔ (cx ≤ col ∧ col < cx + cw) ∧ (cy ≤ row ∧ row < cy + ch) := by
      constructor
      · rintro ⟨row', mem, low, high⟩
        have same : row' = row := row_eq_of_mem_run colIn (by omega) (by omega)
        subst same
        exact ⟨⟨by omega, by omega⟩, List.mem_range'_1.mp mem⟩
      · rintro ⟨inX, inY⟩
        exact ⟨row, List.mem_range'_1.mpr inY, by omega, by omega⟩
    simp only [runs, alongX col, alongY row, colIn, rowIn, true_and]
  · rw [filledGet, if_neg]
    rintro ⟨row', mem, -, high⟩
    have ends := row_end_le p.width (show row' < p.height by have := (List.mem_range'_1.mp mem).2; omega)
    omega

/-! ## The clip rectangle -/

/-- `clip_rect` narrows the clip to the part of the old clip that lies on the framebuffer and in the
rectangle moved to `x.max(0)`, `y.max(0)`: unlike `clip`, it does not shorten a rectangle that
starts left of or above the framebuffer. -/
theorem mem_clipRect_iff {p' : Painter} (narrowed : p.clipRect x y w h = some p') :
    p'.fb = p.fb ∧ p'.stride = p.stride ∧
      (∀ col, (p'.clipX ≤ col ∧ col < p'.clipX + p'.clipW) ↔
        (p.clipX ≤ col ∧ col < p.clipX + p.clipW) ∧
          ((max x 0).toNat ≤ col ∧ col < (max x 0).toNat + w) ∧ col < p.width) ∧
      (∀ row, (p'.clipY ≤ row ∧ row < p'.clipY + p'.clipH) ↔
        (p.clipY ≤ row ∧ row < p.clipY + p.clipH) ∧
          ((max y 0).toNat ≤ row ∧ row < (max y 0).toNat + h) ∧ row < p.height) := by
  unfold clipRect at narrowed
  simp only [Option.bind_eq_bind, Option.bind_eq_some_iff, Option.pure_def, Option.some.injEq] at narrowed
  obtain ⟨xe, rightEdge, ye, bottomEdge, clipRight, addedRight, clipBottom, addedBottom, rfl⟩ := narrowed
  obtain ⟨right, addedX, rfl⟩ := Option.map_eq_some_iff.mp rightEdge
  obtain ⟨bottom, addedY, rfl⟩ := Option.map_eq_some_iff.mp bottomEdge
  obtain ⟨-, rfl⟩ := Word.checkedAdd_eq_some_iff.mp addedX
  obtain ⟨-, rfl⟩ := Word.checkedAdd_eq_some_iff.mp addedY
  obtain ⟨-, rfl⟩ := Word.checkedAdd_eq_some_iff.mp addedRight
  obtain ⟨-, rfl⟩ := Word.checkedAdd_eq_some_iff.mp addedBottom
  refine ⟨rfl, rfl, fun col => ?_, fun row => ?_⟩
  · dsimp only
    generalize (max x 0).toNat = start
    rw [mem_run_iff, max_le_iff, lt_min_iff, lt_min_iff]
    omega
  · dsimp only
    generalize (max y 0).toNat = start
    rw [mem_run_iff, max_le_iff, lt_min_iff, lt_min_iff]
    omega

end Painter

/-- Three calls on small framebuffers.  A fill of pixel `(0, 1)` on a 2 by 2 painter with stride 3
writes word 2, which is `(2, 0)`, outside the framebuffer's width, and leaves word 3, the pixel
itself, alone.  A `set_pixel` after `clip_rect` to the top-left pixel writes the bottom-right one.
A fill whose corner is at `i32::MIN` panics negating it. -/
theorem painter_writes_outside_region :
    ((Painter.newWithStride [0, 0, 0, 0, 0, 0] 2 2 3).fillRect 0 1 1 1 7).map (·.fb) = some [0, 0, 7, 0, 0, 0] ∧
    (((Painter.new [0, 0, 0, 0, 0, 0, 0, 0, 0] 3 3).clipRect 0 0 1 1).bind fun p => p.setPixel 2 2 5).map (·.fb) =
      some [0, 0, 0, 0, 0, 0, 0, 0, 5] ∧
    (Painter.new [0] 1 1).fillRect (-2 ^ 31) 0 1 1 7 = none := by
  refine ⟨by decide, by decide, by decide⟩

end Fullerene.Lattice
