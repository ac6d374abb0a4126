import Fullerene.Lib.Machine
import Fullerene.Lib.Word
import Mathlib.Data.List.Basic

/-!
# The nozzle terminal cell buffer

`TerminalBuffer` of the `nozzle` crate: a screen of `cols * rows` cells in
row-major order, a cursor, the current colours, the rows that scrolled off the
top (at most `scrollbackLimit` of them) and an offset into them for the
scrollback view.

Bytes reach the screen through `putStr`, which decodes ANSI escape sequences
with the three-state machine of the source (`Decoder.feed`): a `CSI` sequence
collects at most eight parameter bytes and ends at its final byte, which
`handleCsi` interprets (cursor movement, erase, colours); an unterminated
sequence is written out as plain bytes when the input ends (`Decoder.finish`).

The `u32` cursor arithmetic of `put_char` and `newline` adds one to a value
below `cols` or `rows`, so it cannot overflow and is modelled on `Nat`;
`scroll_back` adds two `usize` values and panics on overflow, which is the one
call that can abort (`none`). The parameter bytes of a `CSI` sequence are ASCII,
so the `from_utf8` of `handle_csi` never fails and its string is the byte list
itself.
-/

namespace Fullerene.Nozzle

/-- `ANSI_COLORS`. -/
def ansiColors : List Nat :=
  [0x000000, 0xCC0000, 0x00CC00, 0xCCCC00, 0x0000CC, 0xCC00CC, 0x00CCCC, 0xCCCCCC]

/-- `ANSI_BRIGHT_COLORS`. -/
def ansiBrightColors : List Nat :=
  [0x555555, 0xFF5555, 0x55FF55, 0xFFFF55, 0x5555FF, 0xFF55FF, 0x55FFFF, 0xFFFFFF]

/-- `ANSI_STANDARD_256`: the first sixteen entries of the 256-colour palette. -/
def ansiStandard256 : List Nat :=
  [0x000000, 0xCC0000, 0x00CC00, 0xCCCC00, 0x0000CC, 0xCC00CC, 0x00CCCC, 0xCCCCCC, 0x555555,
    0xFF5555, 0x55FF55, 0xFFFF55, 0x5555FF, 0xFF55FF, 0x55FFFF, 0xFFFFFF]

structure TextStyle where
  fg : Nat
  bg : Nat
  deriving DecidableEq, Repr

def TextStyle.default : TextStyle := ⟨0xCCCCCC, 0x000000⟩

structure Cell where
  ch : Nat
  fg : Nat
  bg : Nat
  deriving DecidableEq, Repr

def Cell.default : Cell := ⟨0x20, 0xCCCCCC, 0x000000⟩

structure TerminalBuffer where
  cells : List Cell
  cols : Nat
  rows : Nat
  cursorCol : Nat
  cursorRow : Nat
  style : TextStyle
  scrollback : List (List Cell)
  scrollOffset : Nat
  deriving DecidableEq, Repr

/-! ## Colours of `handle_sgr` -/

/-- `ansi_256_color`: the sixteen standard colours, the 6×6×6 cube and the
grey ramp. -/
def ansi256Color (idx : Nat) : Nat :=
  if idx ≤ 15 then ansiStandard256.getD idx 0
  else if idx ≤ 231 then
    let v := idx - 16
    let scale := fun c : Nat => if c = 0 then 0 else c * 40 + 55
    (scale (v / 36 % 6) <<< 16) ||| (scale (v / 6 % 6) <<< 8) ||| scale (v % 6)
  else
    let l := (idx - 232) * 10 + 8
    (l <<< 16) ||| (l <<< 8) ||| l

/-- The truecolour value of `38;2;r;g;b` and `48;2;r;g;b`. -/
def rgbColor (red green blue : Nat) : Nat :=
  ((red &&& 0xFF) <<< 16) ||| ((green &&& 0xFF) <<< 8) ||| (blue &&& 0xFF)

/-- The extended colour that follows a 38 or a 48 at index `i`, with the number
of codes it takes: `5;n` picks from the palette (`n as u8`), `2;r;g;b` is
truecolour, and anything else takes no code. -/
def extendedColor (codes : List Nat) (i : Nat) : Option (Nat × Nat) :=
  if i + 2 < codes.length ∧ codes.getD (i + 1) 0 = 5 then
    some (ansi256Color (codes.getD (i + 2) 0 % 256), 2)
  else if i + 4 < codes.length ∧ codes.getD (i + 1) 0 = 2 then
    some (rgbColor (codes.getD (i + 2) 0) (codes.getD (i + 3) 0) (codes.getD (i + 4) 0), 4)
  else none

/-- One turn of the loop of `handle_sgr` on code `c` at index `i`: the new style
and the index of the next code. -/
def sgrCode (codes : List Nat) (i c : Nat) (style : TextStyle) : TextStyle × Nat :=
  if c = 0 then (TextStyle.default, i + 1)
  else if 30 ≤ c ∧ c ≤ 37 then ({ style with fg := ansiColors.getD (c - 30) 0 }, i + 1)
  else if c = 38 then
    match extendedColor codes i with
    | some (color, used) => ({ style with fg := color }, i + used + 1)
    | none => (style, i + 1)
  else if 40 ≤ c ∧ c ≤ 47 then ({ style with bg := ansiColors.getD (c - 40) 0 }, i + 1)
  else if c = 48 then
    match extendedColor codes i with
    | some (color, used) => ({ style with bg := color }, i + used + 1)
    | none => (style, i + 1)
  else if 90 ≤ c ∧ c ≤ 97 then ({ style with fg := ansiBrightColors.getD (c - 90) 0 }, i + 1)
  else if 100 ≤ c ∧ c ≤ 107 then ({ style with bg := ansiBrightColors.getD (c - 100) 0 }, i + 1)
  else (style, i + 1)

theorem lt_sgrCode_snd (codes : List Nat) (i c : Nat) (style : TextStyle) :
    i < (sgrCode codes i c style).2 := by
  unfold sgrCode
  split_ifs <;> (try split) <;> simp only <;> omega

/-- The `while i < codes.len()` loop of `handle_sgr`, with `fuel` turns. -/
def sgrLoop (codes : List Nat) : Nat → Nat → TextStyle → TextStyle
  | 0, _, style => style
  | fuel + 1, i, style =>
      if h : i < codes.length then
        let stepped := sgrCode codes i codes[i] style
        sgrLoop codes fuel stepped.2 stepped.1
      else style

theorem sgrLoop_succ_of_lt {codes : List Nat} {fuel i : Nat} (inside : i < codes.length)
    (style : TextStyle) :
    sgrLoop codes (fuel + 1) i style =
      sgrLoop codes fuel (sgrCode codes i codes[i] style).2 (sgrCode codes i codes[i] style).1 := by
  rw [sgrLoop, dif_pos inside]

theorem sgrLoop_of_le {codes : List Nat} {i : Nat} (past : codes.length ≤ i) (fuel : Nat)
    (style : TextStyle) : sgrLoop codes fuel i style = style := by
  cases fuel with
  | zero => rfl
  | succ fuel => rw [sgrLoop, dif_neg (Nat.not_lt.mpr past)]

/-- Every turn moves the index forward, so the loop has ended once the fuel
covers the codes left: more fuel changes nothing. -/
theorem sgrLoop_succ_of_le {codes : List Nat} {fuel i : Nat} (enough : codes.length ≤ i + fuel)
    (style : TextStyle) : sgrLoop codes (fuel + 1) i style = sgrLoop codes fuel i style := by
  induction fuel generalizing i style with
  | zero => rw [sgrLoop_of_le (by omega), sgrLoop_of_le (by omega)]
  | succ fuel inductionHypothesis =>
      by_cases inside : i < codes.length
      · have moved := lt_sgrCode_snd codes i codes[i] style
        rw [sgrLoop_succ_of_lt inside, sgrLoop_succ_of_lt inside]
        exact inductionHypothesis (by omega) _
      · rw [sgrLoop_of_le (by omega), sgrLoop_of_le (by omega)]

/-- `handle_sgr`: the loop runs at most one turn per code. -/
def handleSgr (codes : List Nat) (style : TextStyle) : TextStyle :=
  sgrLoop codes codes.length 0 style

/-! ## Parameters of a `CSI` sequence -/

/-- `str::parse::<u32>`: an optional `+`, then at least one decimal digit, with
a value that fits in 32 bits. -/
def parseU32 (part : List Nat) : Option Nat :=
  let digits := match part with
    | 0x2B :: rest => rest
    | _ => part
  if digits ≠ [] ∧ digits.all (fun d => 0x30 ≤ d && d ≤ 0x39) then
    let value := digits.foldl (fun value d => value * 10 + (d - 0x30)) 0
    if value < 2 ^ 32 then some value else none
  else none

/-- The numbers of `handle_csi`: the parameter string split at `;`, at most
eight parts, each parsed with `0` for a part that does not parse; no numbers for
an empty string. -/
def csiParams (params : List Nat) : List Nat :=
  if params = [] then []
  else ((params.splitOn 0x3B).take 8).map fun part => (parseU32 part).getD 0

/-- The count of a cursor movement: the first number, at least one. -/
def csiCount (nums : List Nat) : Nat :=
  if 0 < nums.length then max (nums.getD 0 0) 1 else 1

namespace TerminalBuffer

/-- The most rows the scrollback keeps. -/
def scrollbackLimit : Nat := 10000

/-- `TerminalBuffer::new`: a blank screen of `cols * rows` cells (a saturating
`usize` product) with the cursor at the top left. -/
def new (cols rows : Nat) : TerminalBuffer where
  cells := List.replicate (Word.saturatingMul 64 cols rows) Cell.default
  cols := cols
  rows := rows
  cursorCol := 0
  cursorRow := 0
  style := TextStyle.default
  scrollback := []
  scrollOffset := 0

variable (b : TerminalBuffer)

def setFg (color : Nat) : TerminalBuffer := { b with style := { b.style with fg := color } }

def setBg (color : Nat) : TerminalBuffer := { b with style := { b.style with bg := color } }

def setStyle (style : TextStyle) : TerminalBuffer := { b with style := style }

def setCursor (col row : Nat) : TerminalBuffer :=
  { b with cursorCol := min col (b.cols - 1), cursorRow := min row (b.rows - 1) }

/-- The blank cell in the current colours, which `clear` and `scroll` write. -/
def blank : Cell := ⟨0x20, b.style.fg, b.style.bg⟩

/-- The index of the cursor's cell. -/
def cursorIndex : Nat := b.cursorRow * b.cols + b.cursorCol

def clear : TerminalBuffer :=
  { b with cells := List.replicate b.cells.length b.blank, cursorCol := 0, cursorRow := 0 }

/-- `scroll`: a screen of one row is blanked; otherwise the top row goes to the
scrollback (dropping its oldest row past the limit), the rows move up and the
bottom row is blanked. -/
def scroll : TerminalBuffer :=
  if b.cells.length ≤ b.cols then { b with cells := List.replicate b.cells.length b.blank }
  else
    let scrollback := b.scrollback ++ [b.cells.take b.cols]
    { b with
      scrollback := if scrollbackLimit < scrollback.length then scrollback.drop 1 else scrollback
      cells := b.cells.drop b.cols ++ List.replicate b.cols b.blank }

def newline : TerminalBuffer :=
  if b.cursorRow + 1 < b.rows then { b with cursorCol := 0, cursorRow := b.cursorRow + 1 }
  else { b with cursorCol := 0 }.scroll

/-- `cells[idx] = cell` under the `idx < cells.len()` guard of the source. -/
def writeCell (idx : Nat) (cell : Cell) : TerminalBuffer :=
  if idx < b.cells.length then { b with cells := b.cells.set idx cell } else b

/-- `put_char`: write the cell under the cursor and advance, wrapping to the next
line at the right edge. -/
def putChar (ch : Nat) : TerminalBuffer :=
  let written := b.writeCell b.cursorIndex ⟨ch, b.style.fg, b.style.bg⟩
  let moved := { written with cursorCol := written.cursorCol + 1 }
  if moved.cols ≤ moved.cursorCol then moved.newline else moved

/-- `backspace`: step left and blank that cell, or from the first column go to
the end of the row above (without blanking). -/
def backspace : TerminalBuffer :=
  if 0 < b.cursorCol then
    let moved := { b with cursorCol := b.cursorCol - 1 }
    moved.writeCell moved.cursorIndex Cell.default
  else if 0 < b.cursorRow then { b with cursorRow := b.cursorRow - 1, cursorCol := b.cols - 1 }
  else b

/-- `put_byte`: line feed, backspace and carriage return, printable bytes
(`0x20` and above, so also the bytes of multibyte characters), and every other
control byte ignored. -/
def putByte (byte : Nat) : TerminalBuffer :=
  if byte = 0x0A then b.newline
  else if byte = 0x08 then b.backspace
  else if byte = 0x0D then { b with cursorCol := 0 }
  else if 0x20 ≤ byte then b.putChar byte
  else b

/-- `handle_csi`: the final byte picks the command, the parameters its numbers. -/
def handleCsi (finalByte : Nat) (params : List Nat) : TerminalBuffer :=
  let nums := csiParams params
  match finalByte with
  | 0x41 => { b with cursorRow := b.cursorRow - csiCount nums }
  | 0x42 => { b with cursorRow := min (Word.saturatingAdd 32 b.cursorRow (csiCount nums)) (b.rows - 1) }
  | 0x43 => { b with cursorCol := min (Word.saturatingAdd 32 b.cursorCol (csiCount nums)) (b.cols - 1) }
  | 0x44 => { b with cursorCol := b.cursorCol - csiCount nums }
  | 0x48 =>
      let row := if 0 < nums.length then nums.getD 0 0 - 1 else 0
      let col := if 1 < nums.length then nums.getD 1 0 - 1 else 0
      { b with cursorRow := min row (b.rows - 1), cursorCol := min col (b.cols - 1) }
  | 0x4A =>
      let mode := if 0 < nums.length then nums.getD 0 0 else 0
      if mode = 2 then b.clear else b
  | 0x6D => { b with style := handleSgr (if nums = [] then [0] else nums) b.style }
  | _ => b

/-! ## Decoding a byte string -/

inductive AnsiState where
  | normal
  | esc
  | csi
  deriving DecidableEq, Repr

/-- What `put_str` carries from byte to byte: the buffer, the escape state and
`param_buf[..param_len]`. -/
structure Decoder where
  buffer : TerminalBuffer
  state : AnsiState
  params : List Nat

/-- One byte of the loop of `put_str`. -/
def Decoder.feed (d : Decoder) (byte : Nat) : Decoder :=
  match d.state with
  | .normal =>
      if byte = 0x1B then { d with state := .esc } else { d with buffer := d.buffer.putByte byte }
  | .esc =>
      if byte = 0x5B then { d with state := .csi, params := [] }
      else { d with buffer := (d.buffer.putByte 0x1B).putByte byte, state := .normal }
  | .csi =>
      if 0x30 ≤ byte ∧ byte ≤ 0x3F then
        { d with params := if d.params.length < 8 then d.params ++ [byte] else d.params }
      else { d with buffer := d.buffer.handleCsi byte d.params, state := .normal }

/-- The end of `put_str`: an unterminated sequence is written as plain bytes. -/
def Decoder.finish (d : Decoder) : TerminalBuffer :=
  match d.state with
  | .esc => d.buffer.putByte 0x1B
  | .csi => d.params.foldl putByte ((d.buffer.putByte 0x1B).putByte 0x5B)
  | .normal => d.buffer

def putStr (bytes : List Nat) : TerminalBuffer :=
  (bytes.foldl Decoder.feed ⟨b, .normal, []⟩).finish

/-! ## The scrollback view -/

/-- `scroll_back`; `none` where `scroll_offset + n` overflows. -/
def scrollBack (n : Nat) : Option TerminalBuffer :=
  (Word.checkedAdd 64 b.scrollOffset n).map fun offset =>
    { b with scrollOffset := min offset b.scrollback.length }

def scrollForward (n : Nat) : TerminalBuffer := { b with scrollOffset := b.scrollOffset - n }

def resetScroll : TerminalBuffer := { b with scrollOffset := 0 }

/-- `visible_cells`: at offset `k` into a scrollback of `L` rows, the saved rows
from `L - k` (at most a screen of them), then the top rows of the screen, padded
to a full screen. -/
def visibleCells : List Cell :=
  if b.scrollOffset = 0 ∨ b.scrollback.length = 0 then b.cells
  else
    let start := b.scrollback.length - b.scrollOffset
    let numSbRows := min b.scrollOffset b.rows
    let saved := (List.range' start numSbRows).foldl
      (fun result i => if h : i < b.scrollback.length then result ++ b.scrollback[i] else result) []
    let bufCells := (b.rows - numSbRows) * b.cols
    let result := saved ++ (if bufCells ≤ b.cells.length then b.cells.take bufCells else b.cells)
    result ++ List.replicate (b.rows * b.cols - result.length) Cell.default

end TerminalBuffer

/-! ## The buffer as a machine -/

/-- The public mutating calls of `TerminalBuffer`. -/
inductive TerminalCall where
  | putStr (bytes : List Nat)
  | putChar (ch : Nat)
  | setCursor (col row : Nat)
  | newline
  | backspace
  | clear
  | scroll
  | scrollBack (n : Nat)
  | scrollForward (n : Nat)
  | resetScroll
  | setFg (color : Nat)
  | setBg (color : Nat)
  | setStyle (style : TextStyle)

namespace TerminalBuffer

def step (b : TerminalBuffer) : TerminalCall → Option (Unit × TerminalBuffer)
  | .putStr bytes => some ((), b.putStr bytes)
  | .putChar ch => some ((), b.putChar ch)
  | .setCursor col row => some ((), b.setCursor col row)
  | .newline => some ((), b.newline)
  | .backspace => some ((), b.backspace)
  | .clear => some ((), b.clear)
  | .scroll => some ((), b.scroll)
  | .scrollBack n => (b.scrollBack n).map fun next => ((), next)
  | .scrollForward n => some ((), b.scrollForward n)
  | .resetScroll => some ((), b.resetScroll)
  | .setFg color => some ((), b.setFg color)
  | .setBg color => some ((), b.setBg color)
  | .setStyle style => some ((), b.setStyle style)

/-- A terminal of `cols` columns and `rows` rows driven by arbitrary calls. -/
def machine (cols rows : Nat) : Machine TerminalBuffer TerminalCall Unit :=
  ⟨new cols rows, step⟩

end TerminalBuffer

end Fullerene.Nozzle
