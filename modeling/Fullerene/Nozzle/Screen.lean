import Fullerene.Nozzle.TerminalBuffer
import Fullerene.Lib.Buffer

/-!
# The screen invariant and the scrollback view

`Sound cols rows b` is the shape a terminal made by `TerminalBuffer::new(cols,
rows)` keeps under every call: the cursor on the screen, `cols * rows` cells,
scrollback rows of the screen's width, at most `scrollbackLimit` of them, and an
offset within the scrollback. Every call but `scroll` and the three scrollback
calls keeps the shape, the scrollback and the offset and only moves the cursor
or rewrites cells (`Sound.reshape`); `scroll` is the one call that grows the
scrollback, and it never shortens it, which is what keeps the offset valid when
the cap drops the oldest row.

`scrollView` says what the view is for: the `rows` rows of
`scrollback ++ screenRows` that start `scrollOffset` rows before the end of the
scrollback. `Sound.visibleCells_eq` shows that `visibleCells`, which assembles
its result from a window of saved rows, a prefix of the cells and padding, is
that view.
-/

namespace Fullerene.Nozzle

namespace TerminalBuffer

/-- The shape every buffer of a `cols × rows` terminal keeps. -/
structure Sound (cols rows : Nat) (b : TerminalBuffer) : Prop where
  cols_eq : b.cols = cols
  rows_eq : b.rows = rows
  cols_pos : 0 < cols
  rows_pos : 0 < rows
  col_lt : b.cursorCol < cols
  row_lt : b.cursorRow < rows
  length_cells : b.cells.length = cols * rows
  row_width : ∀ row ∈ b.scrollback, row.length = cols
  scrollback_le : b.scrollback.length ≤ scrollbackLimit
  offset_le : b.scrollOffset ≤ b.scrollback.length

/-- `newline` does not read the column. -/
theorem newline_cursorCol (b : TerminalBuffer) (col : Nat) :
    ({ b with cursorCol := col } : TerminalBuffer).newline = b.newline := rfl

variable {cols rows : Nat} {b : TerminalBuffer}

namespace Sound

/-- A buffer with the shape, scrollback and offset of a sound one, as many cells
and a cursor on the screen is sound: what every call but `scroll` and the
scrollback calls has to show. -/
theorem reshape {b' : TerminalBuffer} (s : Sound cols rows b) (sameCols : b'.cols = b.cols)
    (sameRows : b'.rows = b.rows) (sameLength : b'.cells.length = b.cells.length)
    (sameScrollback : b'.scrollback = b.scrollback) (sameOffset : b'.scrollOffset = b.scrollOffset)
    (col : b'.cursorCol < cols) (row : b'.cursorRow < rows) : Sound cols rows b' where
  cols_eq := sameCols.trans s.cols_eq
  rows_eq := sameRows.trans s.rows_eq
  cols_pos := s.cols_pos
  rows_pos := s.rows_pos
  col_lt := col
  row_lt := row
  length_cells := sameLength.trans s.length_cells
  row_width := sameScrollback ▸ s.row_width
  scrollback_le := sameScrollback ▸ s.scrollback_le
  offset_le := sameScrollback ▸ sameOffset ▸ s.offset_le

/-- Moving the offset within the scrollback keeps a buffer sound. -/
theorem withOffset (s : Sound cols rows b) {offset : Nat} (within : offset ≤ b.scrollback.length) :
    Sound cols rows { b with scrollOffset := offset } where
  cols_eq := s.cols_eq
  rows_eq := s.rows_eq
  cols_pos := s.cols_pos
  rows_pos := s.rows_pos
  col_lt := s.col_lt
  row_lt := s.row_lt
  length_cells := s.length_cells
  row_width := s.row_width
  scrollback_le := s.scrollback_le
  offset_le := within

theorem writeCell (s : Sound cols rows b) (idx : Nat) (cell : Cell) :
    Sound cols rows (b.writeCell idx cell) := by
  unfold TerminalBuffer.writeCell
  split
  · exact s.reshape rfl rfl List.length_set rfl rfl s.col_lt s.row_lt
  · exact s

theorem setCursor (s : Sound cols rows b) (col row : Nat) : Sound cols rows (b.setCursor col row) := by
  have := s.cols_pos
  have := s.rows_pos
  refine s.reshape rfl rfl rfl rfl rfl ?_ ?_
  · simp only [TerminalBuffer.setCursor, s.cols_eq]
    omega
  · simp only [TerminalBuffer.setCursor, s.rows_eq]
    omega

theorem clear (s : Sound cols rows b) : Sound cols rows b.clear :=
  s.reshape rfl rfl List.length_replicate rfl rfl s.cols_pos s.rows_pos

/-- `scroll` keeps the cells' length, saves a row of the screen's width, keeps
the cap by dropping the oldest row, and never shortens the scrollback. -/
theorem scroll (s : Sound cols rows b) : Sound cols rows b.scroll := by
  unfold TerminalBuffer.scroll
  dsimp only
  split_ifs with oneRow _
  · exact s.reshape rfl rfl List.length_replicate rfl rfl s.col_lt s.row_lt
  all_goals
    have longer := s.length_cells
    rw [s.cols_eq] at oneRow
    have topWidth : (b.cells.take b.cols).length = cols := by
      rw [List.length_take, s.cols_eq]
      omega
    have widths : ∀ row ∈ b.scrollback ++ [b.cells.take b.cols], row.length = cols := by
      intro row member
      rcases List.mem_append.mp member with saved | top
      · exact s.row_width row saved
      · rw [List.mem_singleton.mp top, topWidth]
    have shifted : (b.cells.drop b.cols ++ List.replicate b.cols b.blank).length = cols * rows := by
      rw [List.length_append, List.length_drop, List.length_replicate, s.cols_eq]
      omega
    have pushed : (b.scrollback ++ [b.cells.take b.cols]).length = b.scrollback.length + 1 :=
      List.length_append
  -- the cap is reached: the oldest row goes
  · exact ⟨s.cols_eq, s.rows_eq, s.cols_pos, s.rows_pos, s.col_lt, s.row_lt, shifted,
      fun row member => widths row (List.mem_of_mem_drop member),
      by rw [List.length_drop, pushed]; exact s.scrollback_le,
      by rw [List.length_drop, pushed]; exact s.offset_le⟩
  · exact ⟨s.cols_eq, s.rows_eq, s.cols_pos, s.rows_pos, s.col_lt, s.row_lt, shifted, widths,
      show (b.scrollback ++ [b.cells.take b.cols]).length ≤ scrollbackLimit by omega,
      by rw [pushed]; exact Nat.le_succ_of_le s.offset_le⟩

theorem newline (s : Sound cols rows b) : Sound cols rows b.newline := by
  unfold TerminalBuffer.newline
  split
  · exact s.reshape rfl rfl rfl rfl rfl s.cols_pos (by dsimp only; rw [← s.rows_eq]; assumption)
  · have leftmost : Sound cols rows { b with cursorCol := 0 } :=
      s.reshape rfl rfl rfl rfl rfl s.cols_pos s.row_lt
    exact leftmost.scroll

theorem putChar (s : Sound cols rows b) (ch : Nat) : Sound cols rows (b.putChar ch) := by
  have written := s.writeCell b.cursorIndex ⟨ch, b.style.fg, b.style.bg⟩
  unfold TerminalBuffer.putChar
  dsimp only
  split
  · -- the right edge: wrap to the next line
    rw [newline_cursorCol]
    exact written.newline
  · exact written.reshape rfl rfl rfl rfl rfl (by dsimp only; rw [← written.cols_eq]; omega)
      written.row_lt

theorem backspace (s : Sound cols rows b) : Sound cols rows b.backspace := by
  unfold TerminalBuffer.backspace
  dsimp only
  split_ifs with moving above
  · have moved : Sound cols rows { b with cursorCol := b.cursorCol - 1 } :=
      s.reshape rfl rfl rfl rfl rfl (by dsimp only; have := s.col_lt; omega) s.row_lt
    exact moved.writeCell _ _
  · -- from the first column to the end of the row above
    exact s.reshape rfl rfl rfl rfl rfl (by dsimp only; rw [s.cols_eq]; have := s.cols_pos; omega)
      (by dsimp only; have := s.row_lt; omega)
  · exact s

theorem putByte (s : Sound cols rows b) (byte : Nat) : Sound cols rows (b.putByte byte) := by
  unfold TerminalBuffer.putByte
  split_ifs
  · exact s.newline
  · exact s.backspace
  · exact s.reshape rfl rfl rfl rfl rfl s.cols_pos s.row_lt
  · exact s.putChar byte
  · exact s

/-- Every command of `handle_csi` clamps the cursor to the screen. -/
theorem handleCsi (s : Sound cols rows b) (finalByte : Nat) (params : List Nat) :
    Sound cols rows (b.handleCsi finalByte params) := by
  have col := s.col_lt
  have row := s.row_lt
  have colsEq := s.cols_eq
  have rowsEq := s.rows_eq
  have := s.cols_pos
  have := s.rows_pos
  unfold TerminalBuffer.handleCsi
  dsimp only
  split
  · exact s.reshape rfl rfl rfl rfl rfl col (by dsimp only; omega)
  · exact s.reshape rfl rfl rfl rfl rfl col (by dsimp only; omega)
  · exact s.reshape rfl rfl rfl rfl rfl (by dsimp only; omega) row
  · exact s.reshape rfl rfl rfl rfl rfl (by dsimp only; omega) row
  · exact s.reshape rfl rfl rfl rfl rfl (by dsimp only; omega) (by dsimp only; omega)
  · -- erase in display: only mode 2 clears
    generalize (if 0 < (csiParams params).length then (csiParams params).getD 0 0 else 0) = mode
    split
    · exact s.clear
    · exact s
  · exact s.reshape rfl rfl rfl rfl rfl col row
  · exact s

theorem scrollBack (s : Sound cols rows b) {n : Nat} {b' : TerminalBuffer}
    (scrolled : b.scrollBack n = some b') : Sound cols rows b' := by
  obtain ⟨offset, -, rfl⟩ := Option.map_eq_some_iff.mp scrolled
  exact s.withOffset (Nat.min_le_right _ _)

theorem scrollForward (s : Sound cols rows b) (n : Nat) : Sound cols rows (b.scrollForward n) :=
  s.withOffset (Nat.le_trans (Nat.sub_le _ _) s.offset_le)

theorem resetScroll (s : Sound cols rows b) : Sound cols rows b.resetScroll :=
  s.withOffset (Nat.zero_le _)

end Sound

/-! ## Decoding keeps the shape -/

theorem Sound.feed {d : Decoder} (s : Sound cols rows d.buffer) (byte : Nat) :
    Sound cols rows (d.feed byte).buffer := by
  unfold Decoder.feed
  split
  · split
    · exact s
    · exact s.putByte byte
  · split
    · exact s
    · exact (s.putByte 0x1B).putByte byte
  · split
    · exact s
    · exact s.handleCsi byte d.params

theorem Sound.foldl_feed (bytes : List Nat) {d : Decoder} (s : Sound cols rows d.buffer) :
    Sound cols rows (bytes.foldl Decoder.feed d).buffer := by
  induction bytes generalizing d with
  | nil => exact s
  | cons byte bytes inductionHypothesis => exact inductionHypothesis (s.feed byte)

theorem Sound.foldl_putByte (bytes : List Nat) (s : Sound cols rows b) :
    Sound cols rows (bytes.foldl TerminalBuffer.putByte b) := by
  induction bytes generalizing b with
  | nil => exact s
  | cons byte bytes inductionHypothesis => exact inductionHypothesis (s.putByte byte)

theorem Sound.finish {d : Decoder} (s : Sound cols rows d.buffer) : Sound cols rows d.finish := by
  unfold Decoder.finish
  split
  · exact s.putByte 0x1B
  · exact Sound.foldl_putByte d.params ((s.putByte 0x1B).putByte 0x5B)
  · exact s

/-- `put_str` keeps the shape for every byte string, malformed and truncated
escape sequences included. -/
theorem Sound.putStr (s : Sound cols rows b) (bytes : List Nat) : Sound cols rows (b.putStr bytes) :=
  (Sound.foldl_feed bytes (d := ⟨b, .normal, []⟩) s).finish

/-! ## Every reachable buffer is sound -/

theorem Sound.step (s : Sound cols rows b) {call : TerminalCall} {reply : Unit} {b' : TerminalBuffer}
    (stepped : b.step call = some (reply, b')) : Sound cols rows b' := by
  cases call with
  | scrollBack n =>
      obtain ⟨next, scrolled, equal⟩ := Option.map_eq_some_iff.mp stepped
      cases equal
      exact s.scrollBack scrolled
  | _ =>
      simp only [TerminalBuffer.step, Option.some.injEq, Prod.mk.injEq] at stepped
      obtain ⟨-, rfl⟩ := stepped
      first
        | exact s.putStr _
        | exact s.putChar _
        | exact s.setCursor _ _
        | exact s.newline
        | exact s.backspace
        | exact s.clear
        | exact s.scroll
        | exact s.scrollForward _
        | exact s.resetScroll
        | exact s.reshape rfl rfl rfl rfl rfl s.col_lt s.row_lt

/-- A new terminal of `u32` dimensions at least one is sound: its `usize`
product does not saturate. -/
theorem sound_new (colsPos : 0 < cols) (rowsPos : 0 < rows) (colsWord : cols < 2 ^ 32)
    (rowsWord : rows < 2 ^ 32) : Sound cols rows (new cols rows) := by
  have product : cols * rows < 2 ^ 64 :=
    calc cols * rows < 2 ^ 32 * 2 ^ 32 := Nat.mul_lt_mul'' colsWord rowsWord
      _ = 2 ^ 64 := by norm_num
  refine ⟨rfl, rfl, colsPos, rowsPos, colsPos, rowsPos, ?_, by simp [new], by simp [new, scrollbackLimit],
    Nat.le_refl 0⟩
  rw [new, List.length_replicate, Word.saturatingMul_of_lt product]

theorem inductive_sound (colsPos : 0 < cols) (rowsPos : 0 < rows) (colsWord : cols < 2 ^ 32)
    (rowsWord : rows < 2 ^ 32) : (machine cols rows).Inductive (Sound cols rows) where
  init := sound_new colsPos rowsPos colsWord rowsWord
  step := fun s stepped => s.step stepped

/-! ## The scrollback view -/

/-- The screen's rows, top to bottom. -/
def screenRows (b : TerminalBuffer) : List (List Cell) :=
  (List.range b.rows).map (b.cells.chunkAt b.cols)

/-- What the scrollback view is for: the `rows` rows of the saved rows followed
by the screen, from `scrollOffset` rows before the end of the saved rows. -/
def scrollView (b : TerminalBuffer) : List Cell :=
  (((b.scrollback ++ b.screenRows).drop (b.scrollback.length - b.scrollOffset)).take b.rows).flatten

@[simp]
theorem length_screenRows (b : TerminalBuffer) : b.screenRows.length = b.rows := by
  simp [screenRows]

/-- The top `m` rows of the screen are the first `m` rows' worth of cells. -/
theorem flatten_take_screenRows (b : TerminalBuffer) (m : Nat) :
    (b.screenRows.take m).flatten = b.cells.take (min m b.rows * b.cols) := by
  rw [screenRows, ← List.map_take, List.take_range, List.flatten_map_chunkAt_range]

theorem Sound.width_screenRows (s : Sound cols rows b) : ∀ row ∈ b.screenRows, row.length = cols := by
  intro row member
  obtain ⟨r, below, rfl⟩ := List.mem_map.mp member
  have above : (r + 1) * b.cols ≤ b.cells.length := by
    rw [s.length_cells, s.cols_eq, Nat.mul_comm cols rows]
    exact Nat.mul_le_mul_right cols (Nat.succ_le_of_lt (by simpa [s.rows_eq] using below))
  rw [List.length_chunkAt_of_le above, s.cols_eq]

theorem Sound.length_scrollView (s : Sound cols rows b) : b.scrollView.length = rows * cols := by
  have widths : ∀ row ∈ b.scrollback ++ b.screenRows, row.length = cols := by
    intro row member
    rcases List.mem_append.mp member with saved | shown
    · exact s.row_width row saved
    · exact s.width_screenRows row shown
  have windowRows : (((b.scrollback ++ b.screenRows).drop (b.scrollback.length - b.scrollOffset)).take
      b.rows).length = rows := by
    have := s.offset_le
    simp only [List.length_take, List.length_drop, List.length_append, length_screenRows, s.rows_eq]
    omega
  rw [scrollView, List.length_flatten_of_forall_length
    (fun row member => widths row (List.mem_of_mem_drop (List.mem_of_mem_take member))), windowRows]

/-- With no offset the view is the screen. -/
theorem Sound.scrollView_of_offset_zero (s : Sound cols rows b) (atBottom : b.scrollOffset = 0) :
    b.scrollView = b.cells := by
  have whole := flatten_take_screenRows b b.rows
  rw [List.take_of_length_le (by rw [length_screenRows]), Nat.min_self, s.cols_eq, s.rows_eq,
    Nat.mul_comm, ← s.length_cells, List.take_length] at whole
  rw [scrollView, atBottom, Nat.sub_zero, List.drop_left,
    List.take_of_length_le (by rw [length_screenRows]), whole]

/-- `visible_cells` is the scrollback view, for every offset: the saved rows it
copies are the view's first `min k rows` rows, the prefix of the cells it copies
is the rest, and the padding is empty. -/
theorem Sound.visibleCells_eq (s : Sound cols rows b) : b.visibleCells = b.scrollView := by
  have offsetLe := s.offset_le
  have rowsEq := s.rows_eq
  have fits : (b.rows - min b.scrollOffset b.rows) * b.cols ≤ b.cells.length := by
    rw [s.length_cells, s.cols_eq, Nat.mul_comm cols rows, rowsEq]
    exact Nat.mul_le_mul_right cols (Nat.sub_le _ _)
  -- the view, split at the end of the scrollback
  have window : b.scrollView =
      ((b.scrollback.drop (b.scrollback.length - b.scrollOffset)).take
          (min b.scrollOffset b.rows)).flatten ++
        b.cells.take ((b.rows - min b.scrollOffset b.rows) * b.cols) := by
    rw [scrollView, List.drop_append_of_le_length (Nat.sub_le _ _), List.take_append,
      List.flatten_append, List.length_drop, List.take_eq_take_min (l := List.drop _ _),
      List.length_drop, flatten_take_screenRows]
    congr 3
    · omega
    · omega
  unfold visibleCells
  dsimp only
  rw [if_pos fits]
  split_ifs with atBottom
  · -- an offset into an empty scrollback is zero
    have atBottom : b.scrollOffset = 0 := by
      rcases atBottom with zero | empty
      · exact zero
      · exact Nat.le_zero.mp (empty ▸ offsetLe)
    exact (s.scrollView_of_offset_zero atBottom).symm
  · rw [List.foldl_append_getElem_range', List.nil_append, ← window,
      s.length_scrollView, rowsEq, s.cols_eq, Nat.sub_self, List.replicate_zero, List.append_nil]

/-- Every buffer a `cols × rows` terminal reaches by any sequence of calls keeps
its shape, and its `visible_cells` is the scrollback view, a full screen of
cells. -/
theorem reachable_sound_and_visible (colsPos : 0 < cols) (rowsPos : 0 < rows)
    (colsWord : cols < 2 ^ 32) (rowsWord : rows < 2 ^ 32) {b : TerminalBuffer}
    (reached : (machine cols rows).Reachable b) :
    Sound cols rows b ∧ b.visibleCells = b.scrollView ∧ b.visibleCells.length = rows * cols := by
  have s := (inductive_sound colsPos rowsPos colsWord rowsWord).reachable reached
  exact ⟨s, s.visibleCells_eq, s.visibleCells_eq ▸ s.length_scrollView⟩

/-- A 3 by 2 terminal that prints `ab`, `c` and `d` on three lines, so that the first goes to the
scrollback, and is then scrolled back by one row, stays sound, and shows the scrolled view. -/
theorem reachable_sound_and_visible_scrolled :
    (0 < 3 ∧ 0 < 2 ∧ 3 < 2 ^ 32 ∧ 2 < 2 ^ 32) ∧
      ∃ b, (machine 3 2).run (new 3 2) [.putStr [0x61, 0x62, 0x0A, 0x63, 0x0A, 0x64], .scrollBack 1] =
          some ([(), ()], b) ∧ b.scrollback.length = 1 ∧ b.scrollOffset = 1 ∧
        (Sound 3 2 b ∧ b.visibleCells = b.scrollView ∧ b.visibleCells.length = 2 * 3) :=
  ⟨⟨by decide, by decide, by decide, by decide⟩, _, rfl, rfl, rfl,
    reachable_sound_and_visible (by decide) (by decide) (by decide) (by decide)
      (Machine.Reachable.run _ .init (rfl : (machine 3 2).run (new 3 2)
        [.putStr [0x61, 0x62, 0x0A, 0x63, 0x0A, 0x64], .scrollBack 1] = some (_, _)))⟩

end TerminalBuffer

end Fullerene.Nozzle
