import Fullerene.Lattice.Editor
import Fullerene.Lib.Split
import Mathlib.Algebra.Order.BigOperators.Group.List

/-!
# The editor buffer refines a flat text with a cursor

What the editor is for is a byte string with a cursor in it (`FlatText`):
inserting a byte at the cursor, removing the byte before it or the one under it,
and moving the cursor anywhere in the text. The buffer stands for the string of
its rows joined with line feeds (`EditorBuffer.text`), with the cursor at the
length of the rows above it plus its column (`EditorBuffer.offset`).

`Sound` is what every call keeps: the cursor is on a row and at most at its end.
From a sound buffer every call of the buffer is a step of the flat text, so every
run of the buffer from `from_text(t)` is a run of the flat text from `t`
(`run_refines`); a row split on a line feed and the two joins are where the rows
and the string differ in shape, and `intercalate_append_cons` relates them.

`full_text` reads each row through `as_str`, so it is the flat text exactly when
that text is well-formed UTF-8 (`fullText_eq_text_iff`): one lone byte of a
multibyte character, inserted or left by a deletion, empties its whole row.
-/

namespace Fullerene.Lattice

/-! ## The flat text -/

/-- A byte string and the cursor's offset in it. -/
structure FlatText where
  bytes : List Nat
  offset : Nat
  deriving DecidableEq, Repr

namespace FlatText

/-- Insert a byte at the cursor, which moves past it. -/
def insert (t : FlatText) (ch : Nat) : FlatText :=
  ⟨t.bytes.take t.offset ++ ch :: t.bytes.drop t.offset, t.offset + 1⟩

/-- Remove the byte before the cursor; at offset `0` nothing goes. -/
def backspace (t : FlatText) : FlatText :=
  ⟨t.bytes.take (t.offset - 1) ++ t.bytes.drop t.offset, t.offset - 1⟩

/-- Remove the byte under the cursor; at the end nothing goes. -/
def delete (t : FlatText) : FlatText :=
  ⟨t.bytes.take t.offset ++ t.bytes.drop (t.offset + 1), t.offset⟩

theorem backspace_of_offset_eq_zero {t : FlatText} (atStart : t.offset = 0) : t.backspace = t := by
  obtain ⟨bytes, offset⟩ := t
  subst atStart
  simp [backspace]

theorem delete_of_length_le {t : FlatText} (atEnd : t.bytes.length ≤ t.offset) : t.delete = t := by
  obtain ⟨bytes, offset⟩ := t
  simp only [delete, List.take_of_length_le atEnd, List.drop_of_length_le (Nat.le_succ_of_le atEnd),
    List.append_nil]

end FlatText

/-- The calls that change the text. -/
def EditorCall.edits : EditorCall → Bool
  | .insertChar _ | .backspace | .deleteChar => true
  | _ => false

/-- One call on the flat text: the three edits at the cursor, and every other
call moving the cursor within the text. -/
inductive FlatStep : FlatText → EditorCall → Unit → FlatText → Prop
  | insertChar (t : FlatText) (ch : Nat) : FlatStep t (.insertChar ch) () (t.insert ch)
  | backspace (t : FlatText) : FlatStep t .backspace () t.backspace
  | deleteChar (t : FlatText) : FlatStep t .deleteChar () t.delete
  | move (t : FlatText) {call : EditorCall} {offset : Nat} :
      call.edits = false → offset ≤ t.bytes.length → FlatStep t call () ⟨t.bytes, offset⟩

/-! ## Rows and the flat text -/

/-- The text before row `r`: every earlier row and its line feed. -/
def textBefore (rows : List (List Nat)) (r : Nat) : List Nat :=
  ((rows.take r).map (· ++ [lineFeed])).flatten

/-- The text after row `r`: a line feed and every later row. -/
def textAfter (rows : List (List Nat)) (r : Nat) : List Nat :=
  ((rows.drop (r + 1)).map ([lineFeed] ++ ·)).flatten

namespace EditorBuffer

/-- The rows joined with line feeds. -/
def text (b : EditorBuffer) : List Nat := List.intercalate [lineFeed] b.rows

/-- The cursor's offset in `text`. -/
def offset (b : EditorBuffer) : Nat := (textBefore b.rows b.cursorRow).length + b.cursorCol

def view (b : EditorBuffer) : FlatText := ⟨b.text, b.offset⟩

end EditorBuffer

/-- The joined rows around row `r`. -/
theorem intercalate_eq_around {rows : List (List Nat)} {r : Nat} (within : r < rows.length) :
    List.intercalate [lineFeed] rows = textBefore rows r ++ rows[r] ++ textAfter rows r := by
  conv_lhs => rw [← List.take_append_drop r rows, ← List.getElem_cons_drop within]
  exact List.intercalate_append_cons _ _ _ _

/-- Replacing row `r` replaces it in the joined rows. -/
theorem intercalate_set {rows : List (List Nat)} {r : Nat} (within : r < rows.length) (row : List Nat) :
    List.intercalate [lineFeed] (rows.set r row) = textBefore rows r ++ row ++ textAfter rows r := by
  rw [List.set_eq_take_append_cons_drop, if_pos within, List.intercalate_append_cons]
  rfl

theorem textBefore_set (rows : List (List Nat)) (r : Nat) (row : List Nat) :
    textBefore (rows.set r row) r = textBefore rows r := by
  rw [textBefore, List.take_set_of_le (Nat.le_refl r), textBefore]

theorem textBefore_succ {rows : List (List Nat)} {r : Nat} (within : r < rows.length) :
    textBefore rows (r + 1) = textBefore rows r ++ rows[r] ++ [lineFeed] := by
  simp only [textBefore, List.take_add_one, List.getElem?_eq_getElem within, Option.toList_some,
    List.map_append, List.map_singleton, List.flatten_append, List.flatten_singleton, List.append_assoc]

/-! ## The invariant -/

/-- The cursor is on a row, and at most at its end. -/
structure Sound (b : EditorBuffer) : Prop where
  row_lt : b.cursorRow < b.rows.length
  col_le : b.cursorCol ≤ (b.rows.getD b.cursorRow []).length

variable {b b' : EditorBuffer}

namespace Sound

theorem rows_ne_nil (s : Sound b) : b.rows ≠ [] :=
  List.ne_nil_of_length_pos (Nat.lt_of_le_of_lt (Nat.zero_le _) s.row_lt)

theorem getElem?_eq (s : Sound b) : b.rows[b.cursorRow]? = some (b.rows.getD b.cursorRow []) := by
  rw [List.getElem?_eq_getElem s.row_lt, List.getD_eq_getElem?_getD, List.getElem?_eq_getElem s.row_lt,
    Option.getD_some]

theorem text_eq (s : Sound b) :
    b.text = textBefore b.rows b.cursorRow ++ b.rows.getD b.cursorRow [] ++ textAfter b.rows b.cursorRow := by
  rw [EditorBuffer.text, intercalate_eq_around s.row_lt, List.getD_eq_getElem?_getD,
    List.getElem?_eq_getElem s.row_lt, Option.getD_some]

/-- The cursor is within the text. -/
theorem offset_le (s : Sound b) : b.offset ≤ b.text.length := by
  have col := s.col_le
  rw [EditorBuffer.offset, s.text_eq, List.length_append, List.length_append]
  omega

/-- A buffer whose cursor is on a row of the same rows, at most at its end, is sound. -/
theorem of_rows (sameRows : b'.rows = b.rows) (row : b'.cursorRow < b.rows.length)
    (col : b'.cursorCol ≤ (b.rows.getD b'.cursorRow []).length) : Sound b' :=
  ⟨sameRows ▸ row, sameRows ▸ col⟩

end Sound

/-! ## Moving the cursor keeps the rows -/

namespace EditorBuffer

@[simp]
theorem rows_clampScroll (b : EditorBuffer) : b.clampScroll.rows = b.rows := by
  unfold clampScroll
  split <;> rfl

@[simp]
theorem cursorRow_clampScroll (b : EditorBuffer) : b.clampScroll.cursorRow = b.cursorRow := by
  unfold clampScroll
  split <;> rfl

@[simp]
theorem cursorCol_clampScroll (b : EditorBuffer) : b.clampScroll.cursorCol = b.cursorCol := by
  unfold clampScroll
  split <;> rfl

theorem rowsUp_le (count row : Nat) : rowsUp count row ≤ row := by
  induction count generalizing row with
  | zero => exact Nat.le_refl row
  | succ count inductionHypothesis =>
      rw [rowsUp]
      split
      · exact Nat.le_trans (inductionHypothesis (row - 1)) (Nat.sub_le row 1)
      · exact Nat.le_refl row

theorem rowsDown_lt {total row : Nat} (within : row < total) (count : Nat) :
    rowsDown total count row < total := by
  induction count generalizing row with
  | zero => exact within
  | succ count inductionHypothesis =>
      rw [rowsDown]
      split
      · exact inductionHypothesis ‹_›
      · exact within

end EditorBuffer

namespace Sound

theorem clampScroll (s : Sound b) : Sound b.clampScroll :=
  of_rows (EditorBuffer.rows_clampScroll b) (by simpa using s.row_lt) (by simpa using s.col_le)

/-- Every character start of a row's string is within the row. -/
theorem lt_of_mem_charIndices {row : List Nat} {i : Nat} (member : i ∈ charIndices (asStr row)) :
    i < row.length := by
  have within := List.mem_range.mp (List.mem_filter.mp member).1
  unfold asStr at within
  split at within
  · exact within
  · exact absurd within (Nat.not_lt_zero i)

theorem cursorLeft (s : Sound b) (moved : b.cursorLeft = some b') : Sound b' ∧ b'.rows = b.rows := by
  unfold EditorBuffer.cursorLeft at moved
  split_ifs at moved with inRow above
  · -- to the last character start before the cursor
    simp only [s.getElem?_eq, Option.bind_eq_bind, Option.bind_some, Option.pure_def,
      Option.some.injEq] at moved
    subst moved
    refine ⟨of_rows (b := b) (by simp) (by simpa using s.row_lt) ?_, by simp⟩
    simp only [EditorBuffer.cursorCol_clampScroll, EditorBuffer.cursorRow_clampScroll]
    cases found : ((charIndices (asStr (b.rows.getD b.cursorRow []))).filter
        fun i => decide (i < b.cursorCol)).getLast? with
    | none => exact Nat.zero_le _
    | some previous =>
        have below := of_decide_eq_true (List.mem_filter.mp (List.mem_of_getLast? found)).2
        exact Nat.le_trans (Nat.le_of_lt below) s.col_le
  · -- to the end of the row above
    have aboveLt : b.cursorRow - 1 < b.rows.length := by have := s.row_lt; omega
    simp only [List.getElem?_eq_getElem aboveLt, Option.bind_eq_bind, Option.bind_some,
      Option.pure_def, Option.some.injEq] at moved
    subst moved
    refine ⟨⟨by simpa using aboveLt, ?_⟩, by simp⟩
    simp [List.getD_eq_getElem?_getD, List.getElem?_eq_getElem aboveLt]
  · simp only [Option.bind_eq_bind, Option.pure_def, Option.bind_some, Option.some.injEq] at moved
    subst moved
    exact ⟨s.clampScroll, by simp⟩


theorem length_asStr_le (row : List Nat) : (asStr row).length ≤ row.length := by
  unfold asStr
  split
  · exact Nat.le_refl _
  · exact Nat.zero_le _

theorem cursorRight (s : Sound b) (moved : b.cursorRight = some b') : Sound b' ∧ b'.rows = b.rows := by
  unfold EditorBuffer.cursorRight at moved
  simp only [s.getElem?_eq, Option.bind_eq_bind, Option.bind_some, Option.pure_def,
    Option.some.injEq] at moved
  subst moved
  split_ifs with inRow below
  · -- to the next character start after the cursor, or the end of the row
    refine ⟨of_rows (b := b) (by simp) (by simpa using s.row_lt) ?_, by simp⟩
    simp only [EditorBuffer.cursorCol_clampScroll, EditorBuffer.cursorRow_clampScroll]
    cases found : (charIndices (asStr (b.rows.getD b.cursorRow []))).find?
        (fun i => decide (b.cursorCol < i)) with
    | none => exact length_asStr_le _
    | some next => exact Nat.le_of_lt (lt_of_mem_charIndices (List.mem_of_find?_eq_some found))
  · -- to the start of the row below
    exact ⟨of_rows (b := b) (by simp) (by simpa using below) (by simp), by simp⟩
  · exact ⟨s.clampScroll, by simp⟩

/-- A cursor on a row, at the smaller of its column and the row's length. -/
theorem of_clamped {row : Nat} (within : row < b.rows.length) (col : Nat) (line : List Nat)
    (atRow : b.rows[row]? = some line) :
    Sound ({ b with cursorRow := row, cursorCol := min col line.length } : EditorBuffer).clampScroll := by
  refine of_rows (b := b) (by simp) (by simpa using within) ?_
  simp [List.getD_eq_getElem?_getD, atRow]

theorem cursorUp (s : Sound b) (moved : b.cursorUp = some b') : Sound b' ∧ b'.rows = b.rows := by
  unfold EditorBuffer.cursorUp at moved
  split_ifs at moved with above
  · have aboveLt : b.cursorRow - 1 < b.rows.length := by have := s.row_lt; omega
    simp only [List.getElem?_eq_getElem aboveLt, Option.bind_eq_bind, Option.bind_some,
      Option.pure_def, Option.some.injEq] at moved
    subst moved
    exact ⟨of_clamped aboveLt _ _ (List.getElem?_eq_getElem aboveLt), by simp⟩
  · simp only [Option.pure_def, Option.some.injEq] at moved
    subst moved
    exact ⟨s.clampScroll, by simp⟩

theorem cursorDown (s : Sound b) (moved : b.cursorDown = some b') : Sound b' ∧ b'.rows = b.rows := by
  unfold EditorBuffer.cursorDown at moved
  split_ifs at moved with below
  · simp only [List.getElem?_eq_getElem below, Option.bind_eq_bind, Option.bind_some,
      Option.pure_def, Option.some.injEq] at moved
    subst moved
    exact ⟨of_clamped below _ _ (List.getElem?_eq_getElem below), by simp⟩
  · simp only [Option.pure_def, Option.some.injEq] at moved
    subst moved
    exact ⟨s.clampScroll, by simp⟩

theorem cursorHome (s : Sound b) : Sound b.cursorHome :=
  of_rows (b := b) (by simp [EditorBuffer.cursorHome]) (by simpa [EditorBuffer.cursorHome] using s.row_lt)
    (by simp [EditorBuffer.cursorHome])

theorem cursorEnd (s : Sound b) (moved : b.cursorEnd = some b') : Sound b' ∧ b'.rows = b.rows := by
  unfold EditorBuffer.cursorEnd at moved
  simp only [s.getElem?_eq, Option.bind_eq_bind, Option.bind_some, Option.pure_def,
    Option.some.injEq] at moved
  subst moved
  exact ⟨of_rows (b := b) (by simp) (by simpa using s.row_lt) (by simp), by simp⟩

theorem pageUp (s : Sound b) {viewportRows : Nat} (moved : b.pageUp viewportRows = some b') :
    Sound b' ∧ b'.rows = b.rows := by
  have within : EditorBuffer.rowsUp viewportRows b.cursorRow < b.rows.length :=
    Nat.lt_of_le_of_lt (EditorBuffer.rowsUp_le _ _) s.row_lt
  unfold EditorBuffer.pageUp at moved
  simp only [List.getElem?_eq_getElem within, Option.bind_eq_bind, Option.bind_some,
    Option.pure_def, Option.some.injEq] at moved
  subst moved
  exact ⟨of_clamped within _ _ (List.getElem?_eq_getElem within), by simp⟩

theorem pageDown (s : Sound b) {viewportRows : Nat} (moved : b.pageDown viewportRows = some b') :
    Sound b' ∧ b'.rows = b.rows := by
  have within := EditorBuffer.rowsDown_lt s.row_lt viewportRows
  unfold EditorBuffer.pageDown at moved
  simp only [List.getElem?_eq_getElem within, Option.bind_eq_bind, Option.bind_some,
    Option.pure_def, Option.some.injEq] at moved
  subst moved
  exact ⟨of_clamped within _ _ (List.getElem?_eq_getElem within), by simp⟩

end Sound

/-! ## The viewport follows the cursor -/

namespace EditorBuffer

/-- The viewport of `viewportRows` rows from `scrollRow` holds the cursor's row. -/
def Shows (b : EditorBuffer) (viewportRows : Nat) : Prop :=
  b.scrollRow ≤ b.cursorRow ∧ b.cursorRow < b.scrollRow + viewportRows

@[simp]
theorem rows_clampScrollWithViewport (b : EditorBuffer) (viewportRows : Nat) :
    (b.clampScrollWithViewport viewportRows).rows = b.rows := by
  unfold clampScrollWithViewport
  split <;> rfl

@[simp]
theorem cursorRow_clampScrollWithViewport (b : EditorBuffer) (viewportRows : Nat) :
    (b.clampScrollWithViewport viewportRows).cursorRow = b.cursorRow := by
  unfold clampScrollWithViewport
  split <;> rfl

@[simp]
theorem cursorCol_clampScrollWithViewport (b : EditorBuffer) (viewportRows : Nat) :
    (b.clampScrollWithViewport viewportRows).cursorCol = b.cursorCol := by
  unfold clampScrollWithViewport
  split <;> rfl

/-- After the first branch the cursor's row is in the viewport, whatever its
last row was taken to be, as long as that is not past the viewport's end. -/
theorem shows_followCursor (cursorRow : Nat) {scrollRow lastVisible viewportRows : Nat}
    (positive : 0 < viewportRows) (lastWithin : lastVisible + 1 ≤ scrollRow + viewportRows) :
    followCursor cursorRow scrollRow lastVisible viewportRows ≤ cursorRow ∧
      cursorRow < followCursor cursorRow scrollRow lastVisible viewportRows + viewportRows := by
  unfold followCursor
  split_ifs <;> omega

/-- With the cursor on a row, `clamp_scroll_with_viewport` leaves the cursor's
row in the viewport: the overscroll clamp only moves the viewport up when it
runs past the last row, which is at or below the cursor. -/
theorem shows_clampScrollWithViewport {b : EditorBuffer} (onRow : b.cursorRow < b.rows.length)
    {viewportRows : Nat} (positive : 0 < viewportRows) :
    (b.clampScrollWithViewport viewportRows).Shows viewportRows := by
  have followed := shows_followCursor b.cursorRow positive
    (show Word.saturatingAdd 64 b.scrollRow viewportRows - 1 + 1 ≤ b.scrollRow + viewportRows by
      have := Word.saturatingAdd_le 64 b.scrollRow viewportRows
      omega)
  unfold clampScrollWithViewport Shows
  rw [if_neg (Nat.pos_iff_ne_zero.mp positive)]
  dsimp only
  split_ifs with overscrolled fewer
  · -- past the last row: the viewport ends at the last row, at or below the cursor
    have := Nat.lt_of_lt_of_le overscrolled (Word.saturatingAdd_le _ _ _)
    omega
  · omega
  · exact followed

/-- `ensure_cursor_visible` moves only the viewport, and when it returns the
cursor's row is in it. -/
theorem ensureCursorVisible_spec {b b' : EditorBuffer} (onRow : b.cursorRow < b.rows.length)
    {viewportRows : Nat} (positive : 0 < viewportRows)
    (shown : b.ensureCursorVisible viewportRows = some b') :
    b'.Shows viewportRows ∧ b'.rows = b.rows ∧ b'.cursorRow = b.cursorRow ∧ b'.cursorCol = b.cursorCol := by
  unfold ensureCursorVisible at shown
  rw [if_neg (Nat.pos_iff_ne_zero.mp positive)] at shown
  obtain ⟨bottom, first, shown⟩ := Option.bind_eq_some_iff.mp shown
  obtain ⟨-, rfl⟩ := Word.checkedAdd_eq_some_iff.mp first
  have followed := shows_followCursor b.cursorRow positive
    (show b.scrollRow + viewportRows - 1 + 1 ≤ b.scrollRow + viewportRows by omega)
  obtain ⟨bottom, second, shown⟩ := Option.bind_eq_some_iff.mp shown
  obtain ⟨-, rfl⟩ := Word.checkedAdd_eq_some_iff.mp second
  simp only [Option.pure_def, Option.some.injEq] at shown
  subst shown
  refine ⟨?_, rfl, rfl, rfl⟩
  unfold Shows
  dsimp only
  split_ifs
  · omega
  · exact followed

end EditorBuffer

/-! ## Edits at the cursor -/

theorem getD_set_self {rows : List (List Nat)} {r : Nat} (within : r < rows.length) (row : List Nat) :
    (rows.set r row).getD r [] = row := by
  rw [List.getD_eq_getElem?_getD, List.getElem?_set_self within, Option.getD_some]

/-- The joined rows around rows `q` and `q + 1`. -/
theorem intercalate_eq_around_pair {rows : List (List Nat)} {q : Nat} (within : q + 1 < rows.length) :
    List.intercalate [lineFeed] rows =
      textBefore rows q ++ rows[q] ++ [lineFeed] ++ rows[q + 1] ++ textAfter rows (q + 1) := by
  rw [intercalate_eq_around within, textBefore_succ (by omega)]

/-- Both joins of the editor put rows `q` and `q + 1` together in row `q`. -/
theorem joinedRows_eq {rows : List (List Nat)} {q : Nat} (within : q + 1 < rows.length) :
    (rows.take (q + 1) ++ rows.drop (q + 2)).set q (rows[q] ++ rows[q + 1]) =
      rows.take q ++ (rows[q] ++ rows[q + 1]) :: rows.drop (q + 2) := by
  have front : (rows.take q).length = q := by simp; omega
  rw [List.take_add_one, List.getElem?_eq_getElem (by omega), Option.toList_some, List.append_assoc,
    List.set_append_right _ _ (by omega), front, Nat.sub_self, List.singleton_append, List.set_cons_zero]

/-- The text before the rows that follow a prefix of rows. -/
theorem textBefore_append (front back : List (List Nat)) :
    textBefore (front ++ back) front.length = (front.map (· ++ [lineFeed])).flatten := by
  rw [textBefore, List.take_left' rfl]

theorem textBefore_append_cons {rows : List (List Nat)} {q : Nat} (row : List Nat) (back : List (List Nat))
    (within : q ≤ rows.length) : textBefore (rows.take q ++ row :: back) q = textBefore rows q := by
  have front : (rows.take q).length = q := by simp; omega
  unfold textBefore
  rw [List.take_left' front]

/-- Removing the line feed after a prefix. -/
theorem take_append_drop_succ_of_eq {text front back : List Nat}
    (split : text = front ++ [lineFeed] ++ back) :
    text.take front.length ++ text.drop (front.length + 1) = front ++ back := by
  subst split
  rw [List.append_assoc, List.take_left' rfl, List.drop_length_add_append]
  rfl

namespace Sound

/-- The text up to a column of the cursor's row. -/
theorem take_text (s : Sound b) {col : Nat} (within : col ≤ (b.rows.getD b.cursorRow []).length) :
    b.text.take ((textBefore b.rows b.cursorRow).length + col) =
      textBefore b.rows b.cursorRow ++ (b.rows.getD b.cursorRow []).take col := by
  rw [s.text_eq, List.append_assoc, List.take_length_add_append, List.take_append_of_le_length within]

/-- The text from a column of the cursor's row. -/
theorem drop_text (s : Sound b) {col : Nat} (within : col ≤ (b.rows.getD b.cursorRow []).length) :
    b.text.drop ((textBefore b.rows b.cursorRow).length + col) =
      (b.rows.getD b.cursorRow []).drop col ++ textAfter b.rows b.cursorRow := by
  rw [s.text_eq, List.append_assoc, List.drop_length_add_append, List.drop_append_of_le_length within]

/-- Replacing the cursor's row with a row of at least `col` bytes and moving
the cursor to `col` in it. -/
theorem setRow (s : Sound b) (row : List Nat) (col : Nat) (fits : col ≤ row.length) (dirty : Bool) :
    Sound { b with rows := b.rows.set b.cursorRow row, cursorCol := col, dirty := dirty } ∧
      ({ b with rows := b.rows.set b.cursorRow row, cursorCol := col, dirty := dirty } : EditorBuffer).view =
        ⟨textBefore b.rows b.cursorRow ++ row ++ textAfter b.rows b.cursorRow,
          (textBefore b.rows b.cursorRow).length + col⟩ := by
  refine ⟨⟨by simpa using s.row_lt, by dsimp only; rw [getD_set_self s.row_lt]; exact fits⟩, ?_⟩
  simp only [EditorBuffer.view, EditorBuffer.text, EditorBuffer.offset, intercalate_set s.row_lt,
    textBefore_set]

theorem insertChar (s : Sound b) {ch : Nat} (inserted : b.insertChar ch = some b') :
    Sound b' ∧ b'.view = b.view.insert ch := by
  have onRow := s.row_lt
  have atCol := s.col_le
  unfold EditorBuffer.insertChar at inserted
  simp only [s.getElem?_eq, Option.bind_eq_bind, Option.bind_some] at inserted
  split_ifs at inserted with newline
  · -- a line feed splits the row at the cursor; the new row goes right after it
    simp only [rowSplitOff, Nat.min_eq_left atCol, Option.pure_def, Option.some.injEq] at inserted
    subst inserted
    have front : (b.rows.set b.cursorRow ((b.rows.getD b.cursorRow []).take b.cursorCol)).take
        (b.cursorRow + 1) = b.rows.take b.cursorRow ++ [(b.rows.getD b.cursorRow []).take b.cursorCol] := by
      rw [List.take_add_one, List.getElem?_set_self onRow, List.take_set_of_le (Nat.le_refl _)]
      rfl
    have back : (b.rows.set b.cursorRow ((b.rows.getD b.cursorRow []).take b.cursorCol)).drop
        (b.cursorRow + 1) = b.rows.drop (b.cursorRow + 1) := List.drop_set_of_lt (Nat.lt_succ_self _)
    rw [front, back]
    have headLength : ((b.rows.getD b.cursorRow []).take b.cursorCol).length = b.cursorCol := by
      simp only [List.length_take]
      omega
    have frontLength : (b.rows.take b.cursorRow ++ [(b.rows.getD b.cursorRow []).take b.cursorCol]).length =
        b.cursorRow + 1 := by
      simp only [List.length_append, List.length_take, List.length_singleton]
      omega
    -- the split row in the text, and the text before the new row
    have joined : List.intercalate [lineFeed] (b.rows.take b.cursorRow ++
          [(b.rows.getD b.cursorRow []).take b.cursorCol] ++
          (b.rows.getD b.cursorRow []).drop b.cursorCol :: b.rows.drop (b.cursorRow + 1)) =
        textBefore b.rows b.cursorRow ++ (b.rows.getD b.cursorRow []).take b.cursorCol ++
          lineFeed :: ((b.rows.getD b.cursorRow []).drop b.cursorCol ++ textAfter b.rows b.cursorRow) := by
      rw [List.append_assoc, List.singleton_append, List.intercalate_append_cons]
      simp [textBefore, textAfter]
    have before : textBefore (b.rows.take b.cursorRow ++ [(b.rows.getD b.cursorRow []).take b.cursorCol] ++
          (b.rows.getD b.cursorRow []).drop b.cursorCol :: b.rows.drop (b.cursorRow + 1)) (b.cursorRow + 1) =
        textBefore b.rows b.cursorRow ++ ((b.rows.getD b.cursorRow []).take b.cursorCol ++ [lineFeed]) := by
      rw [← frontLength, textBefore_append]
      simp [textBefore]
    refine ⟨⟨by simp; omega, by simp⟩, ?_⟩
    simp only [EditorBuffer.view, EditorBuffer.offset, FlatText.insert, s.take_text atCol,
      s.drop_text atCol]
    rw [EditorBuffer.text]
    dsimp only
    rw [joined, before]
    simp only [newline, List.length_append, headLength, List.length_singleton, List.append_assoc,
      Nat.add_zero, Nat.add_assoc]
  · -- any other byte goes in at the cursor
    simp only [rowInsert, Nat.min_eq_left atCol, Option.pure_def, Option.some.injEq] at inserted
    subst inserted
    obtain ⟨sound, viewed⟩ := s.setRow ((b.rows.getD b.cursorRow []).take b.cursorCol ++
      ch :: (b.rows.getD b.cursorRow []).drop b.cursorCol) (b.cursorCol + 1)
      (by rw [List.length_append, List.length_cons, List.length_take, List.length_drop]; omega) true
    refine ⟨sound, ?_⟩
    rw [viewed, FlatText.insert, EditorBuffer.view, EditorBuffer.offset]
    simp only [s.take_text atCol, s.drop_text atCol, List.append_assoc, List.cons_append,
      Nat.add_assoc]


/-- Joining rows `q` and `q + 1` of a buffer into row `q`, with the cursor on
row `q` at `col`: the text loses the line feed between them. -/
theorem joinRows {q : Nat} (within : q + 1 < b.rows.length) (col : Nat)
    (atCol : col ≤ (b.rows[q] ++ b.rows[q + 1]).length) :
    Sound
        { b with
          rows := b.rows.take q ++ (b.rows[q] ++ b.rows[q + 1]) :: b.rows.drop (q + 2)
          cursorRow := q
          cursorCol := col
          dirty := true } ∧
      ({ b with
          rows := b.rows.take q ++ (b.rows[q] ++ b.rows[q + 1]) :: b.rows.drop (q + 2)
          cursorRow := q
          cursorCol := col
          dirty := true } : EditorBuffer).view =
        ⟨textBefore b.rows q ++ b.rows[q] ++ b.rows[q + 1] ++ textAfter b.rows (q + 1),
          (textBefore b.rows q).length + col⟩ := by
  have front : (b.rows.take q).length = q := by simp; omega
  refine ⟨⟨by simp; omega, ?_⟩, ?_⟩
  · dsimp only
    rw [List.getD_eq_getElem?_getD, List.getElem?_append_right (by omega), front, Nat.sub_self]
    exact atCol
  · simp only [EditorBuffer.view, EditorBuffer.text, EditorBuffer.offset, List.intercalate_append_cons,
      textBefore_append_cons _ _ (Nat.le_of_lt (Nat.lt_of_succ_lt within)), FlatText.mk.injEq, and_true,
      List.append_assoc]
    rfl

theorem backspace (s : Sound b) (removed : b.backspace = some b') :
    Sound b' ∧ b'.view = b.view.backspace := by
  have onRow := s.row_lt
  have atCol := s.col_le
  unfold EditorBuffer.backspace at removed
  split_ifs at removed with inRow above
  · -- the byte before the cursor goes
    simp only [s.getElem?_eq, Option.bind_eq_bind, Option.bind_some, Option.pure_def,
      Option.some.injEq] at removed
    subst removed
    have removedRow : rowRemove (b.rows.getD b.cursorRow []) (b.cursorCol - 1) =
        (b.rows.getD b.cursorRow []).take (b.cursorCol - 1) ++ (b.rows.getD b.cursorRow []).drop b.cursorCol := by
      rw [rowRemove, if_pos (by omega), Nat.sub_add_cancel inRow]
    rw [removedRow]
    obtain ⟨sound, viewed⟩ := s.setRow ((b.rows.getD b.cursorRow []).take (b.cursorCol - 1) ++
      (b.rows.getD b.cursorRow []).drop b.cursorCol) (b.cursorCol - 1)
      (by rw [List.length_append, List.length_take, List.length_drop]; omega) true
    refine ⟨sound, ?_⟩
    have back : (textBefore b.rows b.cursorRow).length + b.cursorCol - 1 =
        (textBefore b.rows b.cursorRow).length + (b.cursorCol - 1) := by omega
    rw [viewed, FlatText.backspace, EditorBuffer.view, EditorBuffer.offset]
    dsimp only
    rw [back, s.take_text (by omega), s.drop_text atCol]
    simp only [List.append_assoc]
  · -- at the start of a row: join it to the end of the row above
    obtain ⟨q, rowEq⟩ : ∃ q, b.cursorRow = q + 1 := ⟨b.cursorRow - 1, by omega⟩
    have within : q + 1 < b.rows.length := rowEq ▸ onRow
    have atStart : b.cursorCol = 0 := by omega
    have above : (b.rows.take (q + 1) ++ b.rows.drop (q + 1 + 1))[q]? = some b.rows[q] := by
      rw [List.getElem?_append_left (by simp; omega), List.getElem?_take_of_lt (Nat.lt_succ_self q),
        List.getElem?_eq_getElem (by omega)]
    simp only [rowEq, List.getElem?_eq_getElem within, Option.bind_eq_bind, Option.bind_some,
      Nat.add_sub_cancel, above, Option.pure_def, Option.some.injEq] at removed
    subst removed
    rw [show q + 1 + 1 = q + 2 from rfl, joinedRows_eq within]
    obtain ⟨sound, viewed⟩ := joinRows within b.rows[q].length (by simp)
    refine ⟨sound, ?_⟩
    -- the cursor is right after the line feed that goes
    have offsetEq : b.offset = (textBefore b.rows q ++ b.rows[q]).length + 1 := by
      rw [EditorBuffer.offset, rowEq, atStart, textBefore_succ (by omega)]
      simp only [List.length_append, List.length_singleton]
    have split : b.text = (textBefore b.rows q ++ b.rows[q]) ++ [lineFeed] ++
        (b.rows[q + 1] ++ textAfter b.rows (q + 1)) := by
      rw [EditorBuffer.text, intercalate_eq_around_pair within]
      simp only [List.append_assoc]
    rw [viewed, FlatText.backspace, EditorBuffer.view]
    dsimp only
    rw [offsetEq, Nat.add_sub_cancel, take_append_drop_succ_of_eq split]
    simp only [List.append_assoc, List.length_append]
  · -- at the start of the first row nothing goes
    simp only [Option.pure_def, Option.some.injEq] at removed
    subst removed
    refine ⟨⟨s.row_lt, s.col_le⟩, (FlatText.backspace_of_offset_eq_zero ?_).symm⟩
    simp only [EditorBuffer.view, EditorBuffer.offset]
    rw [show b.cursorRow = 0 by omega, show b.cursorCol = 0 by omega]
    rfl


theorem deleteChar (s : Sound b) (removed : b.deleteChar = some b') :
    Sound b' ∧ b'.view = b.view.delete := by
  have onRow := s.row_lt
  have atCol := s.col_le
  have current : b.rows.getD b.cursorRow [] = b.rows[b.cursorRow] := by
    rw [List.getD_eq_getElem?_getD, List.getElem?_eq_getElem onRow, Option.getD_some]
  unfold EditorBuffer.deleteChar at removed
  simp only [s.getElem?_eq, Option.bind_eq_bind, Option.bind_some] at removed
  split_ifs at removed with inRow below
  · -- the byte under the cursor goes
    simp only [Option.pure_def, Option.some.injEq] at removed
    subst removed
    have removedRow : rowRemove (b.rows.getD b.cursorRow []) b.cursorCol =
        (b.rows.getD b.cursorRow []).take b.cursorCol ++ (b.rows.getD b.cursorRow []).drop (b.cursorCol + 1) := by
      rw [rowRemove, if_pos inRow]
    rw [removedRow]
    obtain ⟨sound, viewed⟩ := s.setRow ((b.rows.getD b.cursorRow []).take b.cursorCol ++
      (b.rows.getD b.cursorRow []).drop (b.cursorCol + 1)) b.cursorCol
      (by rw [List.length_append, List.length_take, List.length_drop]; omega) true
    refine ⟨sound, ?_⟩
    rw [viewed, FlatText.delete, EditorBuffer.view, EditorBuffer.offset]
    dsimp only
    rw [Nat.add_assoc, s.take_text atCol, s.drop_text inRow]
    simp only [List.append_assoc]
  · -- at the end of a row: the next row joins it
    have atEnd : b.cursorCol = b.rows[b.cursorRow].length := by rw [← current]; omega
    have next : (b.rows.take (b.cursorRow + 1) ++ b.rows.drop (b.cursorRow + 2))[b.cursorRow]? =
        some b.rows[b.cursorRow] := by
      rw [List.getElem?_append_left (by simp; omega), List.getElem?_take_of_lt (Nat.lt_succ_self _),
        List.getElem?_eq_getElem onRow]
    simp only [List.getElem?_eq_getElem below, Option.bind_some, next, Option.pure_def,
      Option.some.injEq] at removed
    subst removed
    rw [joinedRows_eq below]
    obtain ⟨sound, viewed⟩ := joinRows below b.cursorCol (by simp; omega)
    refine ⟨sound, ?_⟩
    -- the cursor is right before the line feed that goes
    have offsetEq : b.offset = (textBefore b.rows b.cursorRow ++ b.rows[b.cursorRow]).length := by
      rw [EditorBuffer.offset, atEnd, List.length_append]
    have split : b.text = (textBefore b.rows b.cursorRow ++ b.rows[b.cursorRow]) ++ [lineFeed] ++
        (b.rows[b.cursorRow + 1] ++ textAfter b.rows (b.cursorRow + 1)) := by
      rw [EditorBuffer.text, intercalate_eq_around_pair below]
      simp only [List.append_assoc]
    rw [viewed, FlatText.delete, EditorBuffer.view]
    dsimp only
    rw [offsetEq, take_append_drop_succ_of_eq split]
    simp only [List.append_assoc, List.length_append, atEnd]
  · -- at the end of the last row nothing goes
    simp only [Option.pure_def, Option.some.injEq] at removed
    subst removed
    refine ⟨⟨s.row_lt, s.col_le⟩, (FlatText.delete_of_length_le ?_).symm⟩
    have lastRow : textAfter b.rows b.cursorRow = [] := by
      rw [textAfter, List.drop_eq_nil_of_le (by omega)]
      rfl
    show b.text.length ≤ b.offset
    rw [s.text_eq, lastRow, EditorBuffer.offset]
    simp only [List.length_append, List.length_nil]
    omega

end Sound

/-! ## Every call is a step of the flat text -/

theorem eq_some_of_map_unit {x : Option EditorBuffer} {reply : Unit}
    (mapped : x.map (fun next => ((), next)) = some (reply, b')) : x = some b' := by
  obtain ⟨next, found, equal⟩ := Option.map_eq_some_iff.mp mapped
  cases equal
  exact found

/-- A call that keeps the rows only moves the cursor in the flat text. -/
theorem FlatStep.of_rows {call : EditorCall} (moves : call.edits = false) (sound : Sound b')
    (sameRows : b'.rows = b.rows) : FlatStep b.view call () b'.view := by
  have sameText : b'.text = b.text := by rw [EditorBuffer.text, EditorBuffer.text, sameRows]
  have moved : FlatStep b.view call () ⟨b.view.bytes, b'.offset⟩ :=
    FlatStep.move b.view moves (by rw [EditorBuffer.view, ← sameText]; exact sound.offset_le)
  have target : b'.view = ⟨b.view.bytes, b'.offset⟩ := by
    rw [EditorBuffer.view, EditorBuffer.view, sameText]
  rwa [target]

/-- From a sound buffer every call that returns keeps it sound and is a step of
its flat text. -/
theorem Sound.step (s : Sound b) {call : EditorCall} {reply : Unit}
    (stepped : b.step call = some (reply, b')) : Sound b' ∧ FlatStep b.view call reply b'.view := by
  cases reply
  cases call with
  | insertChar ch =>
      obtain ⟨sound, viewed⟩ := s.insertChar (eq_some_of_map_unit stepped)
      exact ⟨sound, viewed ▸ FlatStep.insertChar _ _⟩
  | backspace =>
      obtain ⟨sound, viewed⟩ := s.backspace (eq_some_of_map_unit stepped)
      exact ⟨sound, viewed ▸ FlatStep.backspace _⟩
  | deleteChar =>
      obtain ⟨sound, viewed⟩ := s.deleteChar (eq_some_of_map_unit stepped)
      exact ⟨sound, viewed ▸ FlatStep.deleteChar _⟩
  | cursorLeft =>
      obtain ⟨sound, sameRows⟩ := s.cursorLeft (eq_some_of_map_unit stepped)
      exact ⟨sound, FlatStep.of_rows rfl sound sameRows⟩
  | cursorRight =>
      obtain ⟨sound, sameRows⟩ := s.cursorRight (eq_some_of_map_unit stepped)
      exact ⟨sound, FlatStep.of_rows rfl sound sameRows⟩
  | cursorUp =>
      obtain ⟨sound, sameRows⟩ := s.cursorUp (eq_some_of_map_unit stepped)
      exact ⟨sound, FlatStep.of_rows rfl sound sameRows⟩
  | cursorDown =>
      obtain ⟨sound, sameRows⟩ := s.cursorDown (eq_some_of_map_unit stepped)
      exact ⟨sound, FlatStep.of_rows rfl sound sameRows⟩
  | cursorEnd =>
      obtain ⟨sound, sameRows⟩ := s.cursorEnd (eq_some_of_map_unit stepped)
      exact ⟨sound, FlatStep.of_rows rfl sound sameRows⟩
  | pageUp viewportRows =>
      obtain ⟨sound, sameRows⟩ := s.pageUp (eq_some_of_map_unit stepped)
      exact ⟨sound, FlatStep.of_rows rfl sound sameRows⟩
  | pageDown viewportRows =>
      obtain ⟨sound, sameRows⟩ := s.pageDown (eq_some_of_map_unit stepped)
      exact ⟨sound, FlatStep.of_rows rfl sound sameRows⟩
  | ensureCursorVisible viewportRows =>
      have shown := eq_some_of_map_unit stepped
      by_cases positive : 0 < viewportRows
      · obtain ⟨-, sameRows, sameRow, sameCol⟩ :=
          EditorBuffer.ensureCursorVisible_spec s.row_lt positive shown
        have sound : Sound b' := Sound.of_rows sameRows (sameRow ▸ s.row_lt) (sameRow ▸ sameCol ▸ s.col_le)
        exact ⟨sound, FlatStep.of_rows rfl sound sameRows⟩
      · -- a viewport of no rows changes nothing
        rw [EditorBuffer.ensureCursorVisible, if_pos (by omega), Option.some.injEq] at shown
        subst shown
        exact ⟨s, FlatStep.of_rows rfl s rfl⟩
  | cursorHome =>
      simp only [EditorBuffer.step, Option.some.injEq, Prod.mk.injEq, true_and] at stepped
      subst stepped
      exact ⟨s.cursorHome, FlatStep.of_rows rfl s.cursorHome (by simp [EditorBuffer.cursorHome])⟩
  | clampScroll =>
      simp only [EditorBuffer.step, Option.some.injEq, Prod.mk.injEq, true_and] at stepped
      subst stepped
      exact ⟨s.clampScroll, FlatStep.of_rows rfl s.clampScroll (EditorBuffer.rows_clampScroll b)⟩
  | clampScrollWithViewport viewportRows =>
      simp only [EditorBuffer.step, Option.some.injEq, Prod.mk.injEq, true_and] at stepped
      subst stepped
      have sound : Sound (b.clampScrollWithViewport viewportRows) :=
        Sound.of_rows (EditorBuffer.rows_clampScrollWithViewport b viewportRows)
          (by simpa using s.row_lt) (by simpa using s.col_le)
      exact ⟨sound, FlatStep.of_rows rfl sound (EditorBuffer.rows_clampScrollWithViewport b viewportRows)⟩

/-! ## Opening a text -/

theorem linesFrom_eq_nil_iff {current rest : List Nat} :
    linesFrom current rest = [] ↔ current = [] ∧ rest = [] := by
  induction rest generalizing current with
  | nil => simp [linesFrom]
  | cons byte rest inductionHypothesis =>
      rw [linesFrom]
      split
      · simp
      · rw [inductionHypothesis]
        simp

/-- The lines of a text with no carriage return before a line feed, and the
empty last row `from_text` adds, are the pieces of the text between line feeds.
The induction follows `linesFrom`, with the line collected so far free of line
feeds. -/
theorem linesFrom_append_extra {current rest : List Nat} (noFeed : lineFeed ∉ current)
    (noCrLf : ¬ List.IsInfix [0x0D, lineFeed] (current ++ rest)) :
    linesFrom current rest ++
        (if linesFrom current rest = [] ∨ (current ++ rest).getLast? = some lineFeed then [[]] else []) =
      (current ++ rest).splitOn lineFeed := by
  induction rest generalizing current with
  | nil =>
      rw [List.append_nil, List.splitOn_eq_singleton noFeed]
      by_cases empty : current = []
      · subst empty
        rfl
      · have notFeed : current.getLast? ≠ some lineFeed := fun last =>
          noFeed (List.mem_of_getLast? last)
        simp [linesFrom, empty, notFeed]
  | cons byte rest inductionHypothesis =>
      rw [linesFrom]
      split
      · -- a line feed ends the current line, which has no carriage return at its end
        rename_i isFeed
        subst isFeed
        have kept : stripCr current = current := by
          unfold stripCr
          split
          · rename_i endsCr
            obtain ⟨front, rfl⟩ := List.getLast?_eq_some_iff.mp endsCr
            exact absurd ⟨front, rest, by simp⟩ noCrLf
          · rfl
        have restNoCrLf : ¬ List.IsInfix [0x0D, lineFeed] ([] ++ rest) := fun inside =>
          noCrLf (inside.trans (List.infix_append' (current ++ [lineFeed]) rest []) |>.trans (by simp))
        have tail := inductionHypothesis (List.not_mem_nil) restNoCrLf
        rw [List.nil_append] at tail
        have lastEq : (current ++ lineFeed :: rest).getLast? = some lineFeed ↔
            linesFrom [] rest = [] ∨ rest.getLast? = some lineFeed := by
          rw [linesFrom_eq_nil_iff]
          cases rest with
          | nil => simp
          | cons next more => simp [List.getLast?_cons]
        rw [kept, List.splitOn_append_cons_self, List.splitOn_eq_singleton noFeed, List.singleton_append,
          ← tail, List.cons_append]
        congr 2
        simp only [List.cons_ne_nil, false_or, lastEq]
      · rename_i notFeed
        have more := @inductionHypothesis (current ++ [byte]) (by simp [noFeed, Ne.symm notFeed])
          (by simpa using noCrLf)
        simpa using more

/-- `from_text` opens a text with no carriage return before a line feed on its
pieces between line feeds. -/
theorem rows_fromText {t : List Nat} (noCrLf : ¬ List.IsInfix [0x0D, lineFeed] t) :
    (EditorBuffer.fromText t).rows = t.splitOn lineFeed := by
  have pieces := @linesFrom_append_extra [] t List.not_mem_nil noCrLf
  rw [List.nil_append] at pieces
  rw [← pieces, EditorBuffer.fromText, lines]
  split <;> simp_all

theorem view_fromText {t : List Nat} (noCrLf : ¬ List.IsInfix [0x0D, lineFeed] t) :
    (EditorBuffer.fromText t).view = ⟨t, 0⟩ := by
  simp only [EditorBuffer.view, EditorBuffer.text, rows_fromText noCrLf, List.intercalate_splitOn,
    EditorBuffer.offset]
  rfl

theorem sound_fromText (t : List Nat) : Sound (EditorBuffer.fromText t) := by
  refine ⟨?_, Nat.zero_le _⟩
  simp only [EditorBuffer.fromText]
  split
  · simp
  · rename_i kept
    exact List.length_pos_of_ne_nil (fun empty => kept (Or.inl empty))

theorem inductive_sound (t : List Nat) : (EditorBuffer.machine t).Inductive Sound where
  init := sound_fromText t
  step := fun s stepped => (s.step stepped).1

theorem simulates (t : List Nat) : (EditorBuffer.machine t).Simulates FlatStep EditorBuffer.view Sound :=
  fun s stepped => (s.step stepped).2

/-! ## What `full_text` shows -/

/-- `full_text` is the flat text exactly when that text is well-formed UTF-8:
each row is (the rows are its pieces between line feeds), and a row that is not
reads as empty, which shortens the result. -/
theorem fullText_eq_text_iff (b : EditorBuffer) : b.fullText = b.text ↔ Utf8.valid b.text = true := by
  rw [EditorBuffer.text, Utf8.valid_intercalate (by decide), List.all_eq_true]
  constructor
  · intro same row member
    by_contra invalid
    have emptied : (asStr row).length < row.length := by
      have nonempty : row ≠ [] := fun empty => invalid (empty ▸ Utf8.valid_nil)
      simp [asStr, invalid, List.length_pos_of_ne_nil nonempty]
    have shorter : b.fullText.length < (List.intercalate [lineFeed] b.rows).length := by
      rw [EditorBuffer.fullText, List.length_intercalate, List.length_intercalate, List.length_map,
        List.map_map]
      have sums := List.sum_lt_sum (fun row => (asStr row).length) List.length
        (fun row _ => Sound.length_asStr_le row) ⟨row, member, emptied⟩
      exact Nat.add_lt_add_right sums _
    exact absurd same (Nat.ne_of_lt shorter ∘ congrArg List.length)
  · intro allValid
    rw [EditorBuffer.fullText, List.map_congr_left (fun row member => by
      rw [asStr, if_pos (allValid row member)]), List.map_id']

/-! ## Runs of the editor -/

/-- From a text with no carriage return before a line feed, every run of the
editor ends on non-empty rows with the cursor in them; its rows joined with line
feeds are the flat text under the same calls, and `full_text` shows that text
exactly when it is well-formed UTF-8 (the opened text in particular); and both
viewport adjustments put the cursor row on screen, the second whenever it
returns. -/
theorem run_refines_flat_text {t : List Nat} (noCrLf : ¬ List.IsInfix [0x0D, lineFeed] t)
    {calls : List EditorCall} {replies : List Unit} {final : EditorBuffer}
    (ran : (EditorBuffer.machine t).run (EditorBuffer.fromText t) calls = some (replies, final)) :
    (final.rows ≠ [] ∧ final.cursorRow < final.rows.length ∧
        final.cursorCol ≤ (final.rows.getD final.cursorRow []).length) ∧
      (Machine.Trace FlatStep ⟨t, 0⟩ calls replies final.view ∧
        ((EditorBuffer.fromText t).fullText = t ↔ Utf8.valid t = true) ∧
        (final.fullText = final.text ↔ Utf8.valid final.text = true)) ∧
      ∀ viewportRows, 0 < viewportRows →
        (final.clampScrollWithViewport viewportRows).Shows viewportRows ∧
        ∀ shown, final.ensureCursorVisible viewportRows = some shown → shown.Shows viewportRows := by
  have s : Sound final :=
    (inductive_sound t).reachable (Machine.Reachable.run _ Machine.Reachable.init ran)
  have traced := Machine.Simulates.trace (simulates t) (inductive_sound t) (sound_fromText t) ran
  have opened : (EditorBuffer.fromText t).text = t := congrArg FlatText.bytes (view_fromText noCrLf)
  rw [view_fromText noCrLf] at traced
  refine ⟨⟨s.rows_ne_nil, s.row_lt, s.col_le⟩, ⟨traced, ?_, fullText_eq_text_iff final⟩, ?_⟩
  · have shown := fullText_eq_text_iff (EditorBuffer.fromText t)
    rwa [opened] at shown
  · intro viewportRows positive
    exact ⟨EditorBuffer.shows_clampScrollWithViewport s.row_lt positive,
      fun _ shown => (EditorBuffer.ensureCursorVisible_spec s.row_lt positive shown).1⟩

/-- On the text `ab`, line feed, `cd`: going to the end of the second row, typing `e`, going home
and deleting backwards joins the rows into `abcde`, and the run is a run of the flat text. -/
theorem run_refines_flat_text_join :
    ¬ List.IsInfix [0x0D, lineFeed] [0x61, 0x62, lineFeed, 0x63, 0x64] ∧
      ∃ final, (EditorBuffer.machine [0x61, 0x62, lineFeed, 0x63, 0x64]).run
          (EditorBuffer.fromText [0x61, 0x62, lineFeed, 0x63, 0x64])
          [.cursorDown, .cursorEnd, .insertChar 0x65, .cursorHome, .backspace] = some ([(), (), (), (), ()], final) ∧
        final.fullText = [0x61, 0x62, 0x63, 0x64, 0x65] ∧
        ((final.rows ≠ [] ∧ final.cursorRow < final.rows.length ∧
            final.cursorCol ≤ (final.rows.getD final.cursorRow []).length) ∧
          (Machine.Trace FlatStep ⟨[0x61, 0x62, lineFeed, 0x63, 0x64], 0⟩
              [.cursorDown, .cursorEnd, .insertChar 0x65, .cursorHome, .backspace] [(), (), (), (), ()] final.view ∧
            ((EditorBuffer.fromText [0x61, 0x62, lineFeed, 0x63, 0x64]).fullText = [0x61, 0x62, lineFeed, 0x63, 0x64] ↔
              Utf8.valid [0x61, 0x62, lineFeed, 0x63, 0x64] = true) ∧
            (final.fullText = final.text ↔ Utf8.valid final.text = true)) ∧
          ∀ viewportRows, 0 < viewportRows →
            (final.clampScrollWithViewport viewportRows).Shows viewportRows ∧
            ∀ shown, final.ensureCursorVisible viewportRows = some shown → shown.Shows viewportRows) :=
  ⟨by decide, _, rfl, rfl, run_refines_flat_text (by decide)
    (rfl : (EditorBuffer.machine [0x61, 0x62, lineFeed, 0x63, 0x64]).run
      (EditorBuffer.fromText [0x61, 0x62, lineFeed, 0x63, 0x64])
      [.cursorDown, .cursorEnd, .insertChar 0x65, .cursorHome, .backspace] = some (_, _))⟩

/-- A byte that is not UTF-8 on its own, inserted into the empty text: the flat
text holds it, but its row no longer reads as UTF-8 and full_text is empty. -/
theorem insertChar_invalid_hides_row :
    ((EditorBuffer.fromText []).insertChar 0x80).map (·.view) = some ((FlatText.mk [] 0).insert 0x80) ∧
      ((EditorBuffer.fromText []).insertChar 0x80).map EditorBuffer.fullText = some [] := by
  decide

end Fullerene.Lattice
