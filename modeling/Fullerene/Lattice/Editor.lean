import Fullerene.Lib.Machine
import Fullerene.Lib.Utf8
import Fullerene.Lib.Word

/-!
# The Lattice editor buffer

`EditorBuffer` of the `lattice` crate: the text as a list of rows of bytes
(without their line feeds), a cursor given by a row and a byte column, and the
first row of the viewport. Editing works on single bytes; the cursor moves
left and right by characters of the row read through `Row::as_str`, which is
the empty string for a row that is not well-formed UTF-8 (`asStr`).

A `Vec` index that is out of range panics: those reads return `Option`, and so
do the additions of `ensure_cursor_visible`, which panic on overflow. The
`Vec::insert` and `Vec::remove` calls on a row, and the `Vec::insert` of a new
row, are at positions the code has just checked, so they are written with
`take` and `drop`.
-/

namespace Fullerene.Lattice

/-- The line feed byte. -/
def lineFeed : Nat := 0x0A

/-! ## Rows -/

/-- `Row::as_str`: the row's bytes if they are well-formed UTF-8, and the empty
string otherwise. -/
def asStr (row : List Nat) : List Nat :=
  if Utf8.valid row then row else []

/-- The byte positions of `str::char_indices`: in a well-formed string, the
bytes that are not continuation bytes start the characters. -/
def charIndices (s : List Nat) : List Nat :=
  (List.range s.length).filter fun i => !(0x80 ≤ s.getD i 0 && s.getD i 0 ≤ 0xBF)

/-- `Row::insert`: the byte goes in at the column, or at the end past it. -/
def rowInsert (row : List Nat) (col ch : Nat) : List Nat :=
  let pos := min col row.length
  row.take pos ++ ch :: row.drop pos

/-- `Row::remove`: the byte at the column, if there is one, goes. -/
def rowRemove (row : List Nat) (col : Nat) : List Nat :=
  if col < row.length then row.take col ++ row.drop (col + 1) else row

/-- `Row::split_off`: the row up to the column, and the rest. -/
def rowSplitOff (row : List Nat) (col : Nat) : List Nat × List Nat :=
  (row.take (min col row.length), row.drop (min col row.length))

/-! ## `str::lines` and `from_text` -/

/-- The line before a line feed, without a carriage return that ends it. -/
def stripCr (line : List Nat) : List Nat :=
  if line.getLast? = some 0x0D then line.dropLast else line

/-- `str::lines` with the bytes of the current line collected so far: every line
feed ends a line (and a carriage return before it), and what follows the last
line feed is a line only if it is not empty. -/
def linesFrom (current : List Nat) : List Nat → List (List Nat)
  | [] => if current = [] then [] else [current]
  | byte :: rest =>
      if byte = lineFeed then stripCr current :: linesFrom [] rest
      else linesFrom (current ++ [byte]) rest

def lines (text : List Nat) : List (List Nat) := linesFrom [] text

/-! ## The buffer -/

structure EditorBuffer where
  rows : List (List Nat)
  cursorRow : Nat
  cursorCol : Nat
  scrollRow : Nat
  dirty : Bool
  deriving DecidableEq, Repr

namespace EditorBuffer

def new : EditorBuffer := ⟨[[]], 0, 0, 0, false⟩

/-- `EditorBuffer::from_text`: the lines of the text, and an empty last row when
there are none or the text ends with a line feed. -/
def fromText (text : List Nat) : EditorBuffer :=
  let rows := lines text
  let hasTrailingNewline := text.getLast? = some lineFeed
  { rows := if rows = [] ∨ hasTrailingNewline then rows ++ [[]] else rows
    cursorRow := 0
    cursorCol := 0
    scrollRow := 0
    dirty := false }

variable (b : EditorBuffer)

/-- `full_text`: the rows through `as_str`, joined with line feeds. -/
def fullText : List Nat := List.intercalate [lineFeed] (b.rows.map asStr)

/-- `visible_lines`: the rows of the viewport through `as_str`. -/
def visibleLines (viewportRows : Nat) : List (List Nat) :=
  let start := min b.scrollRow b.rows.length
  let stop := min (start + viewportRows) b.rows.length
  ((b.rows.drop start).take (stop - start)).map asStr

/-- `clamp_scroll`: bring the viewport up to a cursor above it. -/
def clampScroll : EditorBuffer :=
  if b.cursorRow < b.scrollRow then { b with scrollRow := b.cursorRow } else b

/-! ## Cursor movement -/

def cursorLeft : Option EditorBuffer := do
  let moved ←
    if 0 < b.cursorCol then do
      let row ← b.rows[b.cursorRow]?
      -- the last character start before the cursor
      let previous := ((charIndices (asStr row)).filter fun i => i < b.cursorCol).getLast?
      pure { b with cursorCol := previous.getD 0 }
    else if 0 < b.cursorRow then do
      let above ← b.rows[b.cursorRow - 1]?
      pure { b with cursorRow := b.cursorRow - 1, cursorCol := above.length }
    else pure b
  pure moved.clampScroll

def cursorRight : Option EditorBuffer := do
  let row ← b.rows[b.cursorRow]?
  let s := asStr row
  let moved :=
    if b.cursorCol < s.length then
      -- the first character start after the cursor, or the end of the row
      { b with cursorCol := ((charIndices s).find? fun i => b.cursorCol < i).getD s.length }
    else if b.cursorRow + 1 < b.rows.length then { b with cursorRow := b.cursorRow + 1, cursorCol := 0 }
    else b
  pure moved.clampScroll

def cursorUp : Option EditorBuffer :=
  if 0 < b.cursorRow then do
    let above ← b.rows[b.cursorRow - 1]?
    pure { b with cursorRow := b.cursorRow - 1, cursorCol := min b.cursorCol above.length }.clampScroll
  else pure b.clampScroll

def cursorDown : Option EditorBuffer :=
  if b.cursorRow + 1 < b.rows.length then do
    let below ← b.rows[b.cursorRow + 1]?
    pure { b with cursorRow := b.cursorRow + 1, cursorCol := min b.cursorCol below.length }.clampScroll
  else pure b.clampScroll

def cursorHome : EditorBuffer := { b with cursorCol := 0 }.clampScroll

def cursorEnd : Option EditorBuffer := do
  let row ← b.rows[b.cursorRow]?
  pure { b with cursorCol := row.length }.clampScroll

/-- The `for _ in 0..count` loop of `page_up`: up one row a turn until the first. -/
def rowsUp : Nat → Nat → Nat
  | 0, row => row
  | count + 1, row => if 0 < row then rowsUp count (row - 1) else row

/-- The loop of `page_down`: down one row a turn until the last of `total`. -/
def rowsDown (total : Nat) : Nat → Nat → Nat
  | 0, row => row
  | count + 1, row => if row + 1 < total then rowsDown total count (row + 1) else row

def pageUp (viewportRows : Nat) : Option EditorBuffer := do
  let moved := { b with cursorRow := rowsUp viewportRows b.cursorRow }
  let row ← moved.rows[moved.cursorRow]?
  pure { moved with cursorCol := min moved.cursorCol row.length }.clampScroll

def pageDown (viewportRows : Nat) : Option EditorBuffer := do
  let moved := { b with cursorRow := rowsDown b.rows.length viewportRows b.cursorRow }
  let row ← moved.rows[moved.cursorRow]?
  pure { moved with cursorCol := min moved.cursorCol row.length }.clampScroll

/-! ## Editing -/

/-- `insert_char`: a line feed splits the row at the cursor and moves to the
start of the new row; any other byte goes in at the cursor. -/
def insertChar (ch : Nat) : Option EditorBuffer := do
  let row ← b.rows[b.cursorRow]?
  if ch = lineFeed then
    let (head, tail) := rowSplitOff row b.cursorCol
    let rows := b.rows.set b.cursorRow head
    -- `rows.insert(cursor_row + 1, tail)`, within the rows since `rows[cursor_row]` exists
    pure { b with
      rows := rows.take (b.cursorRow + 1) ++ tail :: rows.drop (b.cursorRow + 1)
      cursorRow := b.cursorRow + 1
      cursorCol := 0
      dirty := true }
  else
    pure { b with
      rows := b.rows.set b.cursorRow (rowInsert row b.cursorCol ch)
      cursorCol := b.cursorCol + 1
      dirty := true }

/-- `backspace`: remove the byte before the cursor, or join the row to the one
above. -/
def backspace : Option EditorBuffer :=
  if 0 < b.cursorCol then do
    let row ← b.rows[b.cursorRow]?
    pure { b with
      rows := b.rows.set b.cursorRow (rowRemove row (b.cursorCol - 1))
      cursorCol := b.cursorCol - 1
      dirty := true }
  else if 0 < b.cursorRow then do
    -- `rows.remove(cursor_row)`
    let current ← b.rows[b.cursorRow]?
    let rows := b.rows.take b.cursorRow ++ b.rows.drop (b.cursorRow + 1)
    let above ← rows[b.cursorRow - 1]?
    pure { b with
      rows := rows.set (b.cursorRow - 1) (above ++ current)
      cursorRow := b.cursorRow - 1
      cursorCol := above.length
      dirty := true }
  else pure { b with dirty := true }

/-- `delete_char`: remove the byte under the cursor, or join the next row to
this one at the end of a row. -/
def deleteChar : Option EditorBuffer := do
  let row ← b.rows[b.cursorRow]?
  if b.cursorCol < row.length then
    pure { b with rows := b.rows.set b.cursorRow (rowRemove row b.cursorCol), dirty := true }
  else if b.cursorRow + 1 < b.rows.length then do
    -- `rows.remove(cursor_row + 1)`
    let next ← b.rows[b.cursorRow + 1]?
    let rows := b.rows.take (b.cursorRow + 1) ++ b.rows.drop (b.cursorRow + 2)
    let current ← rows[b.cursorRow]?
    pure { b with rows := rows.set b.cursorRow (current ++ next), dirty := true }
  else pure { b with dirty := true }

/-! ## Scrolling -/

/-- The first branch of both viewport clamps: a cursor above the viewport
becomes its first row, and one below its last row `lastVisible` its last row. -/
def followCursor (cursorRow scrollRow lastVisible viewportRows : Nat) : Nat :=
  if cursorRow < scrollRow then cursorRow
  else if lastVisible < cursorRow then cursorRow - (viewportRows - 1)
  else scrollRow

/-- `clamp_scroll_with_viewport`, with saturating arithmetic. The source also
stores `min(rows.len() - viewport_rows, scroll_row)` in the overscroll branch,
which the branch overwrites at once. -/
def clampScrollWithViewport (viewportRows : Nat) : EditorBuffer :=
  if viewportRows = 0 then b
  else
    let lastVisible := Word.saturatingAdd 64 b.scrollRow viewportRows - 1
    let scrollRow := followCursor b.cursorRow b.scrollRow lastVisible viewportRows
    let scrollRow :=
      if b.rows.length < Word.saturatingAdd 64 scrollRow viewportRows then
        if viewportRows ≤ b.rows.length then b.rows.length - viewportRows else 0
      else scrollRow
    { b with scrollRow := scrollRow }

/-- `ensure_cursor_visible`; `none` where `scroll_row + viewport_rows`
overflows. -/
def ensureCursorVisible (viewportRows : Nat) : Option EditorBuffer :=
  if viewportRows = 0 then some b
  else do
    let bottom ← Word.checkedAdd 64 b.scrollRow viewportRows
    let scrollRow := followCursor b.cursorRow b.scrollRow (bottom - 1) viewportRows
    let bottom ← Word.checkedAdd 64 scrollRow viewportRows
    let scrollRow :=
      if b.rows.length < bottom then (b.rows.length - 1) - (viewportRows - 1) else scrollRow
    pure { b with scrollRow := scrollRow }

end EditorBuffer

/-! ## The buffer as a machine -/

/-- The public mutating calls of `EditorBuffer`. -/
inductive EditorCall where
  | insertChar (ch : Nat)
  | backspace
  | deleteChar
  | cursorLeft
  | cursorRight
  | cursorUp
  | cursorDown
  | cursorHome
  | cursorEnd
  | pageUp (viewportRows : Nat)
  | pageDown (viewportRows : Nat)
  | clampScrollWithViewport (viewportRows : Nat)
  | clampScroll
  | ensureCursorVisible (viewportRows : Nat)

namespace EditorBuffer

def step (b : EditorBuffer) : EditorCall → Option (Unit × EditorBuffer)
  | .insertChar ch => (b.insertChar ch).map fun next => ((), next)
  | .backspace => b.backspace.map fun next => ((), next)
  | .deleteChar => b.deleteChar.map fun next => ((), next)
  | .cursorLeft => b.cursorLeft.map fun next => ((), next)
  | .cursorRight => b.cursorRight.map fun next => ((), next)
  | .cursorUp => b.cursorUp.map fun next => ((), next)
  | .cursorDown => b.cursorDown.map fun next => ((), next)
  | .cursorHome => some ((), b.cursorHome)
  | .cursorEnd => b.cursorEnd.map fun next => ((), next)
  | .pageUp viewportRows => (b.pageUp viewportRows).map fun next => ((), next)
  | .pageDown viewportRows => (b.pageDown viewportRows).map fun next => ((), next)
  | .clampScrollWithViewport viewportRows => some ((), b.clampScrollWithViewport viewportRows)
  | .clampScroll => some ((), b.clampScroll)
  | .ensureCursorVisible viewportRows => (b.ensureCursorVisible viewportRows).map fun next => ((), next)

/-- An editor opened on `text` and driven by arbitrary calls. -/
def machine (text : List Nat) : Machine EditorBuffer EditorCall Unit := ⟨fromText text, step⟩

end EditorBuffer

end Fullerene.Lattice
