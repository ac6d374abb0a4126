import Fullerene.Nozzle.LineEditor
import Fullerene.Lib.Machine
import Fullerene.Lib.Utf8
import Mathlib.Data.List.GetD
import Mathlib.Data.List.InsertIdx

/-!
# What the line editor echoes

Every editing primitive of `LineEditor` writes to the terminal as it changes
the buffer: the new byte, or the tail of the line redrawn after an insertion or
an erasure, followed by backspaces back to the cursor.  Read by a terminal in
which a printable byte overwrites the cell under the cursor and advances it and
`0x08` moves one cell left (`Screen`), the echo keeps the line after the prompt
showing exactly the buffer, followed by blanks, with the cursor at the prompt's
length plus the editor's cursor (`Synced`), for every key that edits the line
(`Synced.press`) and so along every run of such keys from a fresh prompt
(`synced_of_run`).

The one exception is TAB with two or more completions: it lists them on new
lines and redraws the line after its own prompt `"> "`, moving the cursor back
with `ESC [ D`.  Neither the prompt nor that sequence is what the terminal
line had, so after `nozzle> c` and TAB the buffer `c` stands at column 2 of a
new line with the cursor at 3, not at 8 and 9
(`completion_listing_leaves_prompt`).
-/

namespace Fullerene.Nozzle

/-! ## The terminal as the echo is read -/

/-- One line of the terminal: its cells, blank where nothing was written, and the cursor's
column. -/
structure Screen where
  cells : Nat → UInt8
  col : Nat

namespace Screen

def blank : Screen := ⟨fun _ => 0x20, 0⟩

/-- A printable byte overwrites the cell under the cursor and moves right, `0x08` moves one cell
left (not past the edge), a line feed starts a blank line, and any other byte is ignored. -/
def put (screen : Screen) (byte : UInt8) : Screen :=
  if byte = 0x08 then { screen with col := screen.col - 1 }
  else if byte = 0x0A then blank
  else if isPrintable byte then ⟨Function.update screen.cells screen.col byte, screen.col + 1⟩
  else screen

def write (screen : Screen) (bytes : List UInt8) : Screen := bytes.foldl put screen

/-- From column `start` on, the line shows `line` followed by blanks. -/
def Shows (screen : Screen) (start : Nat) (line : List UInt8) : Prop :=
  ∀ i, screen.cells (start + i) = line.getD i 0x20

theorem write_append (screen : Screen) (front back : List UInt8) :
    screen.write (front ++ back) = (screen.write front).write back :=
  List.foldl_append

theorem write_backspaces (screen : Screen) (n : Nat) :
    screen.write (List.replicate n 0x08) = { screen with col := screen.col - n } := by
  induction n generalizing screen with
  | zero => rfl
  | succ n ih =>
    rw [List.replicate_succ, write, List.foldl_cons, ← write, put, if_pos rfl, ih]
    congr 1
    dsimp only
    omega

theorem put_printable (screen : Screen) {byte : UInt8} (printable : isPrintable byte = true) :
    screen.put byte = ⟨Function.update screen.cells screen.col byte, screen.col + 1⟩ := by
  have notBack : byte ≠ 0x08 := by
    rintro rfl
    exact absurd printable (by decide)
  have notFeed : byte ≠ 0x0A := by
    rintro rfl
    exact absurd printable (by decide)
  rw [put, if_neg notBack, if_neg notFeed, if_pos printable]

/-- The line with `byte` in cell `k`, for a cell within it or just past its end. -/
theorem getD_take_cons_drop {line : List UInt8} {k : Nat} (within : k ≤ line.length) (byte : UInt8) (i : Nat) :
    (line.take k ++ byte :: line.drop (k + 1)).getD i 0x20 = if i = k then byte else line.getD i 0x20 := by
  simp only [List.getD_eq_getElem?_getD, List.getElem?_append, List.length_take, List.getElem?_take,
    List.getElem?_cons, List.getElem?_drop]
  split_ifs <;> first | rfl | omega | (congr 2; omega)

theorem getD_append_blanks (line : List UInt8) (n i : Nat) :
    (line ++ List.replicate n 0x20).getD i 0x20 = line.getD i 0x20 := by
  by_cases inside : i < line.length
  · exact List.getD_append _ _ _ _ inside
  · have past : line.getD i 0x20 = 0x20 := List.getD_eq_default _ _ (by omega)
    rw [List.getD_append_right _ _ _ _ (by omega), past, List.getD_eq_getElem?_getD,
      List.getElem?_getD_replicate_default_eq]

variable {screen : Screen} {start : Nat} {line : List UInt8}

/-- Blanks at the end of a line are not seen. -/
theorem shows_append_blanks (n : Nat) : screen.Shows start (line ++ List.replicate n 0x20) ↔ screen.Shows start line := by
  simp only [Shows, getD_append_blanks]

theorem Shows.put_printable (shows : screen.Shows start line) {k : Nat} (at_ : screen.col = start + k)
    (within : k ≤ line.length) {byte : UInt8} (printable : isPrintable byte = true) :
    (screen.put byte).Shows start (line.take k ++ byte :: line.drop (k + 1)) := by
  intro i
  rw [screen.put_printable printable, getD_take_cons_drop within]
  simp only [Function.update_apply, at_, Nat.add_left_cancel_iff]
  split_ifs
  · rfl
  · exact shows i

/-- Printable text written at cell `k` overwrites the cells it covers, one byte after another. -/
theorem Shows.write_printable {text : List UInt8} (printable : Printable text) :
    ∀ {screen : Screen} {line : List UInt8} {k : Nat}, screen.Shows start line → screen.col = start + k →
      k ≤ line.length →
      (screen.write text).Shows start (line.take k ++ text ++ line.drop (k + text.length)) ∧
        (screen.write text).col = start + k + text.length := by
  induction text with
  | nil =>
    intro screen line k shows at_ _
    simpa [write] using And.intro shows at_
  | cons byte text ih =>
    intro screen line k shows at_ within
    rw [show screen.write (byte :: text) = (screen.put byte).write text from rfl]
    have first := shows.put_printable at_ within (printable byte List.mem_cons_self)
    have moved : (screen.put byte).col = start + (k + 1) := by
      rw [screen.put_printable (printable byte List.mem_cons_self), at_]
      rfl
    obtain ⟨rest, col⟩ := ih (fun other member => printable other (List.mem_cons_of_mem byte member)) first moved
      (by simp only [List.length_append, List.length_take, List.length_cons, List.length_drop]; omega)
    -- the cells before the rest of the text are those of the line up to `k`, then `byte`
    have before : (line.take k ++ byte :: line.drop (k + 1)).take (k + 1) = line.take k ++ [byte] := by
      rw [List.take_append, List.take_of_length_le (by simp only [List.length_take]; omega), List.length_take,
        Nat.min_eq_left within,
        show k + 1 - k = 1 by omega, List.take_succ_cons, List.take_zero]
    have after : (line.take k ++ byte :: line.drop (k + 1)).drop (k + 1 + text.length) =
        line.drop (k + (text.length + 1)) := by
      rw [List.drop_append, List.drop_eq_nil_of_le (by simp only [List.length_take]; omega), List.nil_append,
        List.length_take,
        Nat.min_eq_left within, show k + 1 + text.length - k = text.length + 1 by omega, List.drop_succ_cons,
        List.drop_drop]
      congr 1
      omega
    refine ⟨?_, by rw [col, List.length_cons]; omega⟩
    rw [before, after] at rest
    simpa using rest

/-- Backspaces move the cursor and leave every cell as it was. -/
theorem shows_write_backspaces (n : Nat) :
    (screen.write (List.replicate n 0x08)).Shows start line ↔ screen.Shows start line := by
  rw [write_backspaces]
  rfl

theorem printable_blanks (n : Nat) : Printable (List.replicate n 0x20) := by
  intro byte member
  rw [List.eq_of_mem_replicate member]
  rfl

end Screen

/-! ## What each primitive writes -/

/-- `core::str::from_utf8(bytes).unwrap_or("?")`. -/
def fromUtf8Or (bytes : List UInt8) : List UInt8 :=
  if Utf8.valid (bytes.map UInt8.toNat) then bytes else [0x3F]

theorem fromUtf8Or_of_printable {bytes : List UInt8} (printable : Printable bytes) : fromUtf8Or bytes = bytes := by
  have ascii : ∀ n ∈ bytes.map UInt8.toNat, n < 0x80 := by
    intro n member
    obtain ⟨byte, inBytes, rfl⟩ := List.mem_map.1 member
    have bounded := printable byte inBytes
    simp only [isPrintable, Bool.and_eq_true, decide_eq_true_eq] at bounded
    exact Nat.lt_of_le_of_lt (UInt8.le_iff_toNat_le.1 bounded.2) (by decide)
  rw [fromUtf8Or, if_pos (Utf8.valid_of_lt ascii)]

namespace LineEditor

/-- What `do_insert` writes: at the end of the line the new byte; inside it, the tail from the new
byte on, then backspaces to just after it. -/
def doInsertEcho (editor : LineEditor) (ch : UInt8) : List UInt8 :=
  if editor.cursor ≥ editor.buffer.length then fromUtf8Or [ch]
  else
    let tail := (editor.buffer.insertIdx editor.cursor ch).drop editor.cursor
    fromUtf8Or tail ++ List.replicate (tail.length - 1) 0x08

/-- The end of `do_backspace` and `do_delete` once a byte is removed: blanks over the old tail,
back, the new tail, and back again. -/
def eraseEcho (tail : List UInt8) : List UInt8 :=
  List.replicate (tail.length + 1) 0x20 ++ List.replicate (tail.length + 1) 0x08 ++ fromUtf8Or tail ++
    List.replicate tail.length 0x08

def doBackspaceEcho (editor : LineEditor) : List UInt8 :=
  if editor.cursor = 0 then []
  else [0x08] ++ eraseEcho ((editor.buffer.eraseIdx (editor.cursor - 1)).drop (editor.cursor - 1))

def doDeleteEcho (editor : LineEditor) : List UInt8 :=
  if editor.cursor ≥ editor.buffer.length then []
  else eraseEcho ((editor.buffer.eraseIdx editor.cursor).drop editor.cursor)

def doCursorLeftEcho (editor : LineEditor) : List UInt8 := if editor.cursor > 0 then [0x08] else []

def doCursorRightEcho (editor : LineEditor) : List UInt8 :=
  if editor.cursor < editor.buffer.length then fromUtf8Or [editor.buffer.getD editor.cursor 0] else []

/-- `do_home`: a backspace for each `do_cursor_left`. -/
def doHomeEcho (editor : LineEditor) : List UInt8 := List.replicate editor.cursor 0x08

/-- `do_end`: the bytes after the cursor, each written again by `do_cursor_right`. -/
def doEndEcho (editor : LineEditor) : List UInt8 :=
  (editor.buffer.drop editor.cursor).flatMap fun byte => fromUtf8Or [byte]

def doClearLineEcho (editor : LineEditor) : List UInt8 :=
  editor.doHomeEcho ++ List.replicate editor.buffer.length 0x20 ++ List.replicate editor.buffer.length 0x08

/-- `replace_buffer` blanks the line as `do_clear_line` does, then writes the new text. -/
def replaceBufferEcho (editor : LineEditor) (newText : List UInt8) : List UInt8 :=
  editor.doClearLineEcho ++ (if newText.isEmpty then [] else newText)

def historyUpEcho (editor : LineEditor) : List UInt8 :=
  match editor.browsing with
  | none => if editor.history.isEmpty then [] else editor.replaceBufferEcho (editor.history.getD 0 [])
  | some i => if i + 1 < editor.history.length then editor.replaceBufferEcho (editor.history.getD (i + 1) []) else []

def historyDownEcho (editor : LineEditor) : List UInt8 :=
  match editor.browsing with
  | none => []
  | some 0 => editor.replaceBufferEcho editor.savedLine
  | some (i + 1) => editor.replaceBufferEcho (editor.history.getD i [])

/-- What `do_insert` writes for each byte in turn. -/
def insertAllEcho : LineEditor → List UInt8 → List UInt8
  | _, [] => []
  | editor, ch :: rest => editor.doInsertEcho ch ++ insertAllEcho (editor.doInsert ch) rest

/-- What `do_tab_complete` writes: the rest of the only completion, inserted; or the completions
on a line of their own and the line redrawn after `"> "`, the cursor moved back over the bytes
after it with `ESC [ D`. -/
def doTabCompleteEcho (editor : LineEditor) (cmds : List (List UInt8)) : List UInt8 :=
  let word := (editor.buffer.take editor.cursor).drop editor.wordStart
  match getCompletionsFor word cmds with
  | [] => []
  | [completion] => insertAllEcho editor (completion.drop word.length)
  | completions =>
    [0x0A] ++ completions.flatMap (fun name => name ++ [0x20, 0x20]) ++ [0x0A] ++ [0x3E, 0x20] ++ editor.buffer ++
      (List.replicate (editor.buffer.length - editor.cursor) [0x1B, 0x5B, 0x44]).flatten

/-- What `read_line` writes for one key. -/
def pressEcho (editor : LineEditor) (cmds : List (List UInt8)) : Key → List UInt8
  | .char ch => if editor.buffer.length < editor.maxLen then editor.doInsertEcho ch else []
  | .backspace => editor.doBackspaceEcho
  | .delete => editor.doDeleteEcho
  | .left => editor.doCursorLeftEcho
  | .right => editor.doCursorRightEcho
  | .home => editor.doHomeEcho
  | .toEnd => editor.doEndEcho
  | .up => editor.historyUpEcho
  | .down => editor.historyDownEcho
  | .clearLine => editor.doClearLineEcho
  | .interrupt => editor.doClearLineEcho ++ [0x5E, 0x43, 0x0A]
  | .eof => []
  | .tab => editor.doTabCompleteEcho cmds
  | .enter => [0x0A]
  | .ignored => []

/-- TAB that meets two or more completions, which it lists before it redraws the line. -/
def Lists (editor : LineEditor) (cmds : List (List UInt8)) (key : Key) : Prop :=
  key = .tab ∧ 2 ≤ (getCompletionsFor ((editor.buffer.take editor.cursor).drop editor.wordStart) cmds).length

end LineEditor

/-! ## The echo keeps the line in view -/

/-- The line after the prompt shows the buffer, followed by blanks, and the cursor is at the
prompt's length plus the editor's cursor. -/
def Synced (prompt : Nat) (screen : Screen) (editor : LineEditor) : Prop :=
  screen.col = prompt + editor.cursor ∧ screen.Shows prompt editor.buffer

variable {prompt : Nat} {screen : Screen} {editor : LineEditor}

theorem Synced.doInsert (synced : Synced prompt screen editor) (sound : editor.Sound) {ch : UInt8}
    (printable : isPrintable ch = true) :
    Synced prompt (screen.write (editor.doInsertEcho ch)) (editor.doInsert ch) := by
  obtain ⟨at_, shows⟩ := synced
  have within := sound.cursor_le
  unfold LineEditor.doInsertEcho LineEditor.doInsert
  split
  · -- at the end of the line the byte is appended
    rename_i atEnd
    have single : Printable [ch] := by simpa [Printable] using printable
    rw [fromUtf8Or_of_printable single]
    obtain ⟨written, col⟩ := shows.write_printable single at_ within
    rw [List.take_of_length_le (by omega), List.drop_eq_nil_of_le (by simp only [List.length_cons]; omega),
      List.append_nil] at written
    exact ⟨by rw [col]; simp; omega, written⟩
  · -- inside it the tail from the new byte on is redrawn
    rename_i inside
    have tailPrintable : Printable ((editor.buffer.insertIdx editor.cursor ch).drop editor.cursor) := by
      intro byte member
      rcases (List.mem_insertIdx within).1 (List.mem_of_mem_drop member) with rfl | old
      · exact printable
      · exact sound.buffer_printable byte old
    have longer := List.length_insertIdx_of_le_length within ch
    dsimp only
    rw [fromUtf8Or_of_printable tailPrintable, Screen.write_append, Screen.write_backspaces]
    obtain ⟨written, col⟩ := shows.write_printable tailPrintable at_ within
    have gone : editor.buffer.drop (editor.cursor + ((editor.buffer.insertIdx editor.cursor ch).drop editor.cursor).length) = [] :=
      List.drop_eq_nil_of_le (by rw [List.length_drop]; omega)
    rw [gone, List.append_nil,
      ← List.take_insertIdx_eq_take_of_le editor.buffer ch editor.cursor editor.cursor (Nat.le_refl _),
      List.take_append_drop] at written
    refine ⟨?_, written⟩
    dsimp only
    rw [col, List.length_drop]
    omega

/-- The end of an erasure at cell `k`, where the line lost one byte at or after `k`: blanking the
old tail and one cell more and redrawing the new tail leaves the new line in view and the cursor
back at `k`. -/
theorem Screen.Shows.eraseEcho {old new : List UInt8} {k : Nat} (shows : screen.Shows prompt old)
    (at_ : screen.col = prompt + k) (kept : new.take k = old.take k) (shorter : old.length = new.length + 1)
    (within : k ≤ new.length) (printable : Printable new) :
    (screen.write (LineEditor.eraseEcho (new.drop k))).Shows prompt new ∧
      (screen.write (LineEditor.eraseEcho (new.drop k))).col = prompt + k := by
  have tailPrintable : Printable (new.drop k) := fun byte member => printable byte (List.mem_of_mem_drop member)
  have tailLength : (new.drop k).length = new.length - k := List.length_drop
  unfold LineEditor.eraseEcho
  rw [fromUtf8Or_of_printable tailPrintable, Screen.write_append, Screen.write_append, Screen.write_append,
    Screen.write_backspaces, Screen.write_backspaces]
  -- blanks over the old tail and the cell after it
  obtain ⟨blanked, col⟩ := shows.write_printable (Screen.printable_blanks ((new.drop k).length + 1)) at_ (by omega)
  have gone : old.drop (k + (List.replicate ((new.drop k).length + 1) (0x20 : UInt8)).length) = [] :=
    List.drop_eq_nil_of_le (by rw [List.length_replicate]; omega)
  rw [gone, List.append_nil] at blanked
  -- back to `k`, and the new tail over the blanks
  rw [show (screen.write (List.replicate ((new.drop k).length + 1) 0x20)).col - ((new.drop k).length + 1) = prompt + k by
    rw [col, List.length_replicate]; omega]
  have back : Screen.Shows ⟨(screen.write (List.replicate ((new.drop k).length + 1) 0x20)).cells, prompt + k⟩ prompt
      (old.take k ++ List.replicate ((new.drop k).length + 1) 0x20) := blanked
  have room : k ≤ (old.take k ++ List.replicate ((new.drop k).length + 1) (0x20 : UInt8)).length := by
    simp only [List.length_append, List.length_take, List.length_drop, List.length_replicate]
    omega
  obtain ⟨redrawn, col'⟩ := back.write_printable tailPrintable rfl room
  have front : (old.take k ++ List.replicate ((new.drop k).length + 1) (0x20 : UInt8)).take k = new.take k := by
    rw [List.take_append_of_le_length (by simp only [List.length_take]; omega),
      List.take_of_length_le (by simp only [List.length_take]; omega), kept]
  have back' : (old.take k ++ List.replicate ((new.drop k).length + 1) (0x20 : UInt8)).drop (k + (new.drop k).length) =
      List.replicate 1 0x20 := by
    rw [List.drop_append, List.drop_eq_nil_of_le (by simp only [List.length_take, List.length_drop]; omega),
      List.nil_append, List.length_take,
      Nat.min_eq_left (by omega), show k + (new.drop k).length - k = (new.drop k).length by omega, List.drop_replicate]
    congr 1
    omega
  rw [front, back', List.take_append_drop, Screen.shows_append_blanks] at redrawn
  refine ⟨redrawn, ?_⟩
  dsimp only
  rw [col']
  omega

theorem Synced.doBackspace (synced : Synced prompt screen editor) (sound : editor.Sound) :
    Synced prompt (screen.write editor.doBackspaceEcho) editor.doBackspace := by
  obtain ⟨at_, shows⟩ := synced
  have within := sound.cursor_le
  unfold LineEditor.doBackspaceEcho LineEditor.doBackspace
  split
  · exact ⟨at_, shows⟩
  · rename_i moved
    -- one cell left, then the erasure at the new cursor
    have left : screen.write [0x08] = ⟨screen.cells, prompt + (editor.cursor - 1)⟩ := by
      rw [show [(0x08 : UInt8)] = List.replicate 1 0x08 from rfl, Screen.write_backspaces]
      congr 1
      omega
    have shorter := List.length_eraseIdx_of_lt (show editor.cursor - 1 < editor.buffer.length by omega)
    have back : Screen.Shows ⟨screen.cells, prompt + (editor.cursor - 1)⟩ prompt editor.buffer := shows
    rw [Screen.write_append, left]
    obtain ⟨erased, col⟩ := back.eraseEcho rfl (List.take_eraseIdx_eq_take_of_le _ _ _ (Nat.le_refl _))
      (by omega) (by omega) fun byte member => sound.buffer_printable byte (List.mem_of_mem_eraseIdx member)
    exact ⟨col, erased⟩

theorem Synced.doDelete (synced : Synced prompt screen editor) (sound : editor.Sound) :
    Synced prompt (screen.write editor.doDeleteEcho) editor.doDelete := by
  obtain ⟨at_, shows⟩ := synced
  unfold LineEditor.doDeleteEcho LineEditor.doDelete
  split
  · exact ⟨at_, shows⟩
  · rename_i inside
    have shorter := List.length_eraseIdx_of_lt (show editor.cursor < editor.buffer.length by omega)
    obtain ⟨erased, col⟩ := shows.eraseEcho at_ (List.take_eraseIdx_eq_take_of_le _ _ _ (Nat.le_refl _))
      (by omega) (by omega) fun byte member => sound.buffer_printable byte (List.mem_of_mem_eraseIdx member)
    exact ⟨col, erased⟩

theorem Synced.doCursorLeft (synced : Synced prompt screen editor) :
    Synced prompt (screen.write editor.doCursorLeftEcho) editor.doCursorLeft := by
  obtain ⟨at_, shows⟩ := synced
  unfold LineEditor.doCursorLeftEcho LineEditor.doCursorLeft
  split
  · rename_i moved
    rw [show [(0x08 : UInt8)] = List.replicate 1 0x08 from rfl, Screen.write_backspaces]
    exact ⟨by dsimp only; omega, shows⟩
  · exact ⟨at_, shows⟩

theorem Synced.doCursorRight (synced : Synced prompt screen editor) (sound : editor.Sound) :
    Synced prompt (screen.write editor.doCursorRightEcho) editor.doCursorRight := by
  obtain ⟨at_, shows⟩ := synced
  unfold LineEditor.doCursorRightEcho LineEditor.doCursorRight
  split
  · rename_i inside
    have under : editor.buffer.getD editor.cursor 0 = editor.buffer[editor.cursor] := List.getD_eq_getElem _ _ inside
    have single : Printable [editor.buffer.getD editor.cursor 0] := by
      intro byte member
      rw [List.mem_singleton.1 member, under]
      exact sound.buffer_printable _ (List.getElem_mem inside)
    rw [fromUtf8Or_of_printable single]
    -- the byte under the cursor is written again
    obtain ⟨written, col⟩ := shows.write_printable single at_ (by omega)
    have same : editor.buffer.take editor.cursor ++ [editor.buffer.getD editor.cursor 0] ++
        editor.buffer.drop (editor.cursor + 1) = editor.buffer := by
      rw [List.append_assoc, List.singleton_append, under, List.getElem_cons_drop, List.take_append_drop]
    rw [List.length_singleton, same] at written
    exact ⟨col, written⟩
  · exact ⟨at_, shows⟩

theorem Synced.doHome (synced : Synced prompt screen editor) :
    Synced prompt (screen.write editor.doHomeEcho) editor.doHome := by
  obtain ⟨at_, shows⟩ := synced
  rw [LineEditor.doHomeEcho, Screen.write_backspaces]
  exact ⟨by dsimp only [LineEditor.doHome]; omega, shows⟩

theorem flatMap_fromUtf8Or {bytes : List UInt8} (printable : Printable bytes) :
    (bytes.flatMap fun byte => fromUtf8Or [byte]) = bytes := by
  induction bytes with
  | nil => rfl
  | cons byte bytes ih =>
    rw [List.flatMap_cons, fromUtf8Or_of_printable (by simpa [Printable] using printable byte List.mem_cons_self),
      ih fun other member => printable other (List.mem_cons_of_mem byte member)]
    rfl

theorem Synced.doEnd (synced : Synced prompt screen editor) (sound : editor.Sound) :
    Synced prompt (screen.write editor.doEndEcho) editor.doEnd := by
  obtain ⟨at_, shows⟩ := synced
  have within := sound.cursor_le
  have tailPrintable : Printable (editor.buffer.drop editor.cursor) :=
    fun byte member => sound.buffer_printable byte (List.mem_of_mem_drop member)
  rw [LineEditor.doEndEcho, flatMap_fromUtf8Or tailPrintable]
  -- the bytes after the cursor are written again
  obtain ⟨written, col⟩ := shows.write_printable tailPrintable at_ within
  have gone : editor.buffer.drop (editor.cursor + (editor.buffer.drop editor.cursor).length) = [] :=
    List.drop_eq_nil_of_le (by rw [List.length_drop]; omega)
  rw [List.take_append_drop, gone, List.append_nil] at written
  refine ⟨?_, written⟩
  rw [col, List.length_drop]
  dsimp only [LineEditor.doEnd]
  omega

theorem Synced.doClearLine (synced : Synced prompt screen editor) :
    Synced prompt (screen.write editor.doClearLineEcho) editor.doClearLine := by
  obtain ⟨at_, shows⟩ := synced
  unfold LineEditor.doClearLineEcho
  rw [Screen.write_append, Screen.write_append, LineEditor.doHomeEcho, Screen.write_backspaces,
    Screen.write_backspaces, show screen.col - editor.cursor = prompt + 0 by omega]
  have home : Screen.Shows ⟨screen.cells, prompt + 0⟩ prompt editor.buffer := shows
  -- blanks over the whole line, then back to its start
  obtain ⟨blanked, col⟩ := home.write_printable (Screen.printable_blanks editor.buffer.length) rfl (Nat.zero_le _)
  rw [List.take_zero, List.nil_append, List.drop_eq_nil_of_le (by simp), List.append_nil,
    ← List.nil_append (List.replicate _ _), Screen.shows_append_blanks] at blanked
  refine ⟨?_, blanked⟩
  dsimp only [LineEditor.doClearLine, LineEditor.doHome]
  rw [col, List.length_replicate]
  omega

theorem Synced.replaceBuffer (synced : Synced prompt screen editor) {newText : List UInt8}
    (printable : Printable newText) :
    Synced prompt (screen.write (editor.replaceBufferEcho newText)) (editor.replaceBuffer newText) := by
  obtain ⟨at_, shows⟩ := synced.doClearLine
  have text : (if newText.isEmpty then [] else newText) = newText := by cases newText <;> rfl
  rw [LineEditor.replaceBufferEcho, Screen.write_append, text]
  obtain ⟨written, col⟩ := shows.write_printable printable at_ (Nat.zero_le _)
  simp only [LineEditor.doClearLine, LineEditor.doHome, List.take_nil, List.drop_nil, List.nil_append,
    List.append_nil] at written col
  exact ⟨col, written⟩

theorem Synced.historyUp (synced : Synced prompt screen editor) (sound : editor.Sound) {next : LineEditor}
    (moved : editor.historyUp = some next) : Synced prompt (screen.write editor.historyUpEcho) next := by
  unfold LineEditor.historyUp at moved
  unfold LineEditor.historyUpEcho
  rcases browsing : editor.browsing with _ | index
  · rw [browsing] at moved
    dsimp only at moved ⊢
    by_cases empty : editor.history.isEmpty = true
    · rw [if_pos empty] at moved
      cases moved
      rw [if_pos empty]
      exact synced
    · -- browsing starts at the newest entry
      obtain ⟨entry, found, printable⟩ := sound.entry (List.length_pos_iff.mpr (by simpa using empty))
      rw [if_neg empty, found] at moved
      cases moved
      rw [if_neg empty, List.getD_eq_getElem?_getD, found, Option.getD_some]
      have saved : Synced prompt screen { editor with savedLine := editor.buffer, browsing := some 0 } := synced
      exact saved.replaceBuffer printable
  · rw [browsing] at moved
    dsimp only at moved ⊢
    by_cases inside : index + 1 < editor.history.length
    · obtain ⟨entry, found, printable⟩ := sound.entry inside
      rw [if_pos inside, found] at moved
      cases moved
      rw [if_pos inside, List.getD_eq_getElem?_getD, found, Option.getD_some]
      exact Synced.replaceBuffer (show Synced prompt screen { editor with browsing := some (index + 1) } from synced)
        printable
    · rw [if_neg inside] at moved
      cases moved
      rw [if_neg inside]
      exact synced

theorem Synced.historyDown (synced : Synced prompt screen editor) (sound : editor.Sound) {next : LineEditor}
    (moved : editor.historyDown = some next) : Synced prompt (screen.write editor.historyDownEcho) next := by
  unfold LineEditor.historyDown at moved
  unfold LineEditor.historyDownEcho
  rcases browsing : editor.browsing with _ | _ | index
  · rw [browsing] at moved
    cases moved
    exact synced
  · -- back below the newest entry: the saved line
    rw [browsing] at moved
    cases moved
    exact Synced.replaceBuffer (show Synced prompt screen { editor with browsing := none } from synced)
      sound.saved_printable
  · have inside : index < editor.history.length := by
      have := sound.browsing_lt (index + 1) browsing
      omega
    obtain ⟨entry, found, printable⟩ := sound.entry inside
    rw [browsing] at moved
    dsimp only at moved ⊢
    rw [found] at moved
    cases moved
    rw [List.getD_eq_getElem?_getD, found, Option.getD_some]
    exact Synced.replaceBuffer (show Synced prompt screen { editor with browsing := some index } from synced) printable

/-- Inserting bytes one after another, as TAB does with the rest of its completion. -/
theorem Synced.insertAll {chars : List UInt8} (printable : Printable chars) :
    ∀ {screen : Screen} {editor : LineEditor}, Synced prompt screen editor → editor.Sound →
      Synced prompt (screen.write (LineEditor.insertAllEcho editor chars)) (chars.foldl LineEditor.doInsert editor) := by
  induction chars with
  | nil => exact fun synced _ => synced
  | cons ch chars ih =>
    intro screen editor synced sound
    have byte := printable ch List.mem_cons_self
    rw [LineEditor.insertAllEcho, Screen.write_append, List.foldl_cons]
    exact ih (fun other member => printable other (List.mem_cons_of_mem ch member)) (synced.doInsert sound byte)
      (sound.doInsert byte)

theorem Synced.doTabComplete (synced : Synced prompt screen editor) (sound : editor.Sound) {cmds : List (List UInt8)}
    (commands : ∀ name ∈ cmds, Printable name) (notListing : ¬ editor.Lists cmds .tab) :
    Synced prompt (screen.write (editor.doTabCompleteEcho cmds)) (editor.doTabComplete cmds) := by
  unfold LineEditor.doTabCompleteEcho LineEditor.doTabComplete
  dsimp only
  rcases offered : getCompletionsFor ((editor.buffer.take editor.cursor).drop editor.wordStart) cmds with
    _ | ⟨completion, _ | ⟨other, more⟩⟩
  · exact synced
  · -- the only completion is one of the commands, and its rest is inserted
    have command : completion ∈ cmds := by
      have listed : completion ∈ getCompletionsFor ((editor.buffer.take editor.cursor).drop editor.wordStart) cmds := by
        rw [offered]
        exact List.mem_singleton_self _
      unfold getCompletionsFor at listed
      split at listed
      · cases listed
      · exact List.mem_of_mem_filter listed
    exact synced.insertAll (fun byte member => commands completion command byte (List.mem_of_mem_drop member)) sound
  · exact absurd ⟨rfl, by rw [offered]; simp⟩ notListing

/-- Every key that keeps `read_line` editing keeps the line in view, unless it is a TAB that
lists completions. -/
theorem Synced.press (synced : Synced prompt screen editor) (sound : editor.Sound) {cmds : List (List UInt8)}
    (commands : ∀ name ∈ cmds, Printable name) {key : Key} (valid : key.Valid) (notListing : ¬ editor.Lists cmds key)
    {next : LineEditor} (pressed : editor.press cmds key = some (.editing, next)) :
    Synced prompt (screen.write (editor.pressEcho cmds key)) next := by
  cases key with
  | char ch =>
    obtain ⟨-, rfl⟩ := Prod.mk.inj (Option.some.inj pressed)
    rw [LineEditor.pressEcho]
    split
    · exact synced.doInsert sound valid
    · exact synced
  | backspace =>
    obtain ⟨-, rfl⟩ := Prod.mk.inj (Option.some.inj pressed)
    exact synced.doBackspace sound
  | delete =>
    obtain ⟨-, rfl⟩ := Prod.mk.inj (Option.some.inj pressed)
    exact synced.doDelete sound
  | left =>
    obtain ⟨-, rfl⟩ := Prod.mk.inj (Option.some.inj pressed)
    exact synced.doCursorLeft
  | right =>
    obtain ⟨-, rfl⟩ := Prod.mk.inj (Option.some.inj pressed)
    exact synced.doCursorRight sound
  | home =>
    obtain ⟨-, rfl⟩ := Prod.mk.inj (Option.some.inj pressed)
    exact synced.doHome
  | toEnd =>
    obtain ⟨-, rfl⟩ := Prod.mk.inj (Option.some.inj pressed)
    exact synced.doEnd sound
  | up =>
    obtain ⟨moved, found, same⟩ := Option.map_eq_some_iff.1 pressed
    obtain ⟨-, rfl⟩ := Prod.mk.inj same
    exact synced.historyUp sound found
  | down =>
    obtain ⟨moved, found, same⟩ := Option.map_eq_some_iff.1 pressed
    obtain ⟨-, rfl⟩ := Prod.mk.inj same
    exact synced.historyDown sound found
  | clearLine =>
    obtain ⟨-, rfl⟩ := Prod.mk.inj (Option.some.inj pressed)
    exact synced.doClearLine
  | interrupt => exact absurd (Prod.mk.inj (Option.some.inj pressed)).1 (by decide)
  | eof =>
    obtain ⟨-, rfl⟩ := Prod.mk.inj (Option.some.inj pressed)
    exact synced
  | tab =>
    obtain ⟨-, rfl⟩ := Prod.mk.inj (Option.some.inj pressed)
    exact synced.doTabComplete sound commands notListing
  | enter => exact absurd (Prod.mk.inj (Option.some.inj pressed)).1 (by simp)
  | ignored =>
    obtain ⟨-, rfl⟩ := Prod.mk.inj (Option.some.inj pressed)
    exact synced

/-! ## Along a run of keys -/

/-- `DEFAULT_PROMPT`, which the shell writes before it calls `read_line`. -/
def defaultPrompt : List UInt8 := asciiBytes "nozzle> "

namespace LineEditor

/-- One key of `read_line`, with what it writes to the terminal line. -/
def echoStep (cmds : List (List UInt8)) (state : LineEditor × Screen) (key : Key) :
    Option (Outcome × (LineEditor × Screen)) :=
  (state.1.press cmds key).map fun result => (result.1, result.2, state.2.write (state.1.pressEcho cmds key))

/-- `read_line` on a fresh editor after the shell wrote `prompt` on a blank line. -/
def echoMachine (cmds : List (List UInt8)) (prompt : List UInt8) : Machine (LineEditor × Screen) Key Outcome :=
  ⟨(new, Screen.blank.write prompt), echoStep cmds⟩

/-- A key that `nextKey` can make and after which `read_line` goes on editing, other than a TAB
that lists completions. -/
def KeepsEditing (cmds : List (List UInt8)) (state : LineEditor × Screen) (key : Key) : Prop :=
  key.Valid ∧ ¬ state.1.Lists cmds key ∧ ∀ outcome next, state.1.press cmds key = some (outcome, next) →
    outcome = .editing

end LineEditor

open LineEditor in
theorem echoStep_keeps {cmds : List (List UInt8)} (commands : ∀ name ∈ cmds, Printable name)
    {state next : LineEditor × Screen} {key : Key} {reply : Outcome} (allowed : KeepsEditing cmds state key)
    (holds : state.1.Sound ∧ Synced prompt state.2 state.1) (stepped : echoStep cmds state key = some (reply, next)) :
    next.1.Sound ∧ Synced prompt next.2 next.1 := by
  obtain ⟨valid, notListing, editing⟩ := allowed
  obtain ⟨⟨outcome, editor'⟩, pressed, same⟩ := Option.map_eq_some_iff.1 stepped
  obtain ⟨rfl, rfl⟩ := Prod.mk.inj same
  obtain rfl := editing outcome editor' pressed
  -- the editor's own invariant comes from `Sound.press`
  obtain ⟨outcome', next', pressed', soundNext⟩ := holds.1.press commands valid
  rw [pressed] at pressed'
  obtain ⟨-, rfl⟩ := Prod.mk.inj (Option.some.inj pressed')
  exact ⟨soundNext, holds.2.press holds.1 commands valid notListing pressed⟩

/-- `read_line` starts with the prompt just written and an empty buffer, which is in view. -/
theorem synced_prompt {text : List UInt8} (printable : Printable text) (editor : LineEditor) :
    Synced text.length (Screen.blank.write text) { editor with buffer := [], cursor := 0, browsing := none } := by
  have start : Screen.blank.Shows 0 [] := fun _ => rfl
  obtain ⟨written, col⟩ := start.write_printable printable rfl (Nat.zero_le _)
  refine ⟨by rw [col]; simp, fun i => ?_⟩
  -- past the prompt nothing was written
  have past := written (text.length + i)
  rw [List.take_nil, List.nil_append, List.drop_nil, List.append_nil, Nat.zero_add,
    List.getD_eq_default _ _ (Nat.le_add_right _ _)] at past
  exact past

open LineEditor in
/-- Along every run of keys that keep `read_line` editing, none of them a TAB that lists
completions, the echo keeps the buffer in view after the prompt with the cursor at its place. -/
theorem synced_of_run {cmds : List (List UInt8)} (commands : ∀ name ∈ cmds, Printable name) {text : List UInt8}
    {start final : LineEditor × Screen} {keys : List Key} {replies : List Outcome} (sound : start.1.Sound)
    (synced : Synced prompt start.2 start.1) (allowed : (echoMachine cmds text).AllowedAlong (KeepsEditing cmds) start keys)
    (ran : (echoMachine cmds text).run start keys = some (replies, final)) :
    final.1.Sound ∧ Synced prompt final.2 final.1 :=
  (echoMachine cmds text).run_invariant_along (fun allowed holds stepped => echoStep_keeps commands allowed holds stepped)
    allowed ⟨sound, synced⟩ ran

open LineEditor in
/-- From the prompt on, after every key of such a run. -/
theorem synced_after_keys {cmds : List (List UInt8)} (commands : ∀ name ∈ cmds, Printable name) {text : List UInt8}
    (printable : Printable text) {final : LineEditor × Screen} {keys : List Key} {replies : List Outcome}
    (allowed : (echoMachine cmds text).AllowedAlong (KeepsEditing cmds) (echoMachine cmds text).init keys)
    (ran : (echoMachine cmds text).run (echoMachine cmds text).init keys = some (replies, final)) :
    Synced text.length final.2 final.1 :=
  (synced_of_run commands (sound_withCapacity 256) (synced_prompt printable new) allowed ran).2

open LineEditor in
/-- After `nozzle> ` the keys `c` and TAB: `c` has several completions, which TAB lists before it
redraws the line after `"> "`; the buffer is `c` with the cursor after it, but the cursor is at
column 3 of a new line, not at 9. -/
theorem completion_listing_leaves_prompt :
    ∃ final, (echoMachine defaultCommands defaultPrompt).run (echoMachine defaultCommands defaultPrompt).init
        [.char 0x63, .tab] = some ([.editing, .editing], final) ∧
      final.1.buffer = [0x63] ∧ final.1.cursor = 1 ∧ final.2.col = 3 ∧
        ¬ Synced defaultPrompt.length final.2 final.1 := by
  refine ⟨_, rfl, rfl, rfl, rfl, fun synced => ?_⟩
  have col := synced.1
  revert col
  decide

end Fullerene.Nozzle
