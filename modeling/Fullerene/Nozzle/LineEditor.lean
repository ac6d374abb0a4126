import Mathlib.Data.List.Chain

/-!
# The shell's line editor

`LineEditor::read_line` reads bytes from the terminal until a line is
finished: printable characters are inserted at the cursor while the buffer
is shorter than `max_len`, and the control bytes and escape sequences edit
the buffer, move the cursor and browse the history.  TAB asks the shell for
the commands that start with the word before the cursor and, when there is
exactly one, inserts the rest of its name.  A finished line is added to the
history unless it is empty or repeats the newest entry.

The bytes are read as keys (`nextKey`), and each key is one step of the
editor (`LineEditor.press`).  Along every sequence of keys the cursor stays
within the buffer, the buffer holds printable ASCII only, and the history
keeps at most `HISTORY_MAX` entries, none empty and no two adjacent ones
equal (`Sound`), and `read_line` returns on every input.  The length limit
holds for every key but TAB (`Bounded`): TAB completion inserts through
`do_insert` without the check the typed-character path makes
(`tab_completion_overruns_max_len`).
-/

namespace Fullerene.Nozzle

/-! ## Completions -/

/-- `u8::is_ascii_whitespace` as `str::trim` meets it in a command line. -/
def isWhitespace (byte : UInt8) : Bool := byte = 0x20 || (0x09 ≤ byte && byte ≤ 0x0D)

/-- `str::trim`. -/
def trim (text : List UInt8) : List UInt8 :=
  ((text.dropWhile isWhitespace).reverse.dropWhile isWhitespace).reverse

/-- `u8::to_ascii_lowercase`, as `str::to_lowercase` acts on ASCII. -/
def toLower (byte : UInt8) : UInt8 := if 0x41 ≤ byte ∧ byte ≤ 0x5A then byte + 0x20 else byte

/-- `get_completions_for`: the command names that start with the lowercased
word. -/
def getCompletionsFor (word : List UInt8) (cmds : List (List UInt8)) : List (List UInt8) :=
  if word.contains 0x20 then []
  else
    let lower := (trim word).map toLower
    cmds.filter fun name => lower.isPrefixOf name

/-- The bytes of an ASCII string. -/
def asciiBytes (text : String) : List UInt8 := text.toList.map fun c => c.toNat.toUInt8

/-- The names of `default_commands`, which `get_completions` completes. -/
def defaultCommands : List (List UInt8) :=
  ["clear", "echo", "exit", "uname", "ls", "cat", "pwd", "mem", "metrics", "cpuinfo", "tasks", "windows",
    "dmesg", "hexdump", "version", "reboot", "shutdown", "calc", "run", "taskmon", "devices", "theme",
    "wallpaper", "pci", "badapple", "cd", "tree", "find", "cp", "mv", "write", "app", "rm", "mkdir", "touch",
    "df", "date", "uptime", "whoami", "history", "sleep", "grep", "sort", "wc", "mount", "usb_info",
    "usb_rescan", "sd_rescan", "hello_linux", "linux_run", "run_busybox", "wasm"].map asciiBytes

/-! ## The editor -/

/-- `HISTORY_MAX`. -/
def historyMax : Nat := 128

/-- `LineEditor`: the history is a `VecDeque` with the newest entry first.
The buffer holds ASCII only, so `String::from_utf8_lossy` leaves it as it is. -/
structure LineEditor where
  buffer : List UInt8
  cursor : Nat
  history : List (List UInt8)
  browsing : Option Nat
  savedLine : List UInt8
  maxLen : Nat
  deriving DecidableEq, Repr

namespace LineEditor

def withCapacity (maxLen : Nat) : LineEditor := ⟨[], 0, [], none, [], maxLen⟩

def new : LineEditor := withCapacity 256

def doInsert (editor : LineEditor) (ch : UInt8) : LineEditor :=
  if editor.cursor ≥ editor.buffer.length then
    { editor with buffer := editor.buffer ++ [ch], cursor := editor.buffer.length + 1 }
  else { editor with buffer := editor.buffer.insertIdx editor.cursor ch, cursor := editor.cursor + 1 }

def doBackspace (editor : LineEditor) : LineEditor :=
  if editor.cursor = 0 then editor
  else { editor with buffer := editor.buffer.eraseIdx (editor.cursor - 1), cursor := editor.cursor - 1 }

def doDelete (editor : LineEditor) : LineEditor :=
  if editor.cursor ≥ editor.buffer.length then editor
  else { editor with buffer := editor.buffer.eraseIdx editor.cursor }

def doCursorLeft (editor : LineEditor) : LineEditor :=
  if editor.cursor > 0 then { editor with cursor := editor.cursor - 1 } else editor

def doCursorRight (editor : LineEditor) : LineEditor :=
  if editor.cursor < editor.buffer.length then { editor with cursor := editor.cursor + 1 } else editor

/-- `do_home`: `do_cursor_left` until the cursor is at the start. -/
def doHome (editor : LineEditor) : LineEditor := { editor with cursor := 0 }

/-- `do_end`: `do_cursor_right` until the cursor is at the end. -/
def doEnd (editor : LineEditor) : LineEditor :=
  { editor with cursor := max editor.cursor editor.buffer.length }

def doClearLine (editor : LineEditor) : LineEditor := { editor.doHome with buffer := [], cursor := 0 }

def replaceBuffer (editor : LineEditor) (newText : List UInt8) : LineEditor :=
  { editor.doHome with buffer := newText, cursor := newText.length }

/-- `history_up`; `none` is the panic of an index past the history. -/
def historyUp (editor : LineEditor) : Option LineEditor :=
  match editor.browsing with
  | none =>
      if editor.history.isEmpty then some editor
      else do
        let entry ← editor.history[0]?
        pure ({ editor with savedLine := editor.buffer, browsing := some 0 }.replaceBuffer entry)
  | some i =>
      if i + 1 < editor.history.length then do
        let entry ← editor.history[i + 1]?
        pure ({ editor with browsing := some (i + 1) }.replaceBuffer entry)
      else some editor

/-- `history_down`; `none` is the panic of an index past the history. -/
def historyDown (editor : LineEditor) : Option LineEditor :=
  match editor.browsing with
  | none => some editor
  | some 0 => some ({ editor with browsing := none }.replaceBuffer editor.savedLine)
  | some (i + 1) => do
      let entry ← editor.history[i]?
      pure ({ editor with browsing := some i }.replaceBuffer entry)

def addToHistory (editor : LineEditor) (line : List UInt8) : LineEditor :=
  if line.isEmpty then editor
  else if editor.history.head? = some line then editor
  else
    let history := if editor.history.length ≥ historyMax then editor.history.dropLast else editor.history
    { editor with history := line :: history }

/-- Where the word before the cursor starts: after its last space. -/
def wordStart (editor : LineEditor) : Nat :=
  let before := editor.buffer.take editor.cursor
  match before.reverse.idxOf? 0x20 with
  | some fromEnd => before.length - fromEnd
  | none => 0

/-- `do_tab_complete`: the rest of the only completion is inserted one byte
at a time. -/
def doTabComplete (editor : LineEditor) (cmds : List (List UInt8)) : LineEditor :=
  let word := (editor.buffer.take editor.cursor).drop editor.wordStart
  match getCompletionsFor word cmds with
  | [completion] => (completion.drop word.length).foldl doInsert editor
  | _ => editor

end LineEditor

/-! ## Keys -/

/-- What `read_line` does with the bytes it reads. -/
inductive Key
  | char (ch : UInt8)
  | backspace
  | delete
  | left
  | right
  | home
  | toEnd
  | up
  | down
  | clearLine
  | interrupt
  | eof
  | tab
  | enter
  | ignored
  deriving DecidableEq, Repr

/-- `u8::is_ascii_graphic() || ch == b' '`. -/
def isPrintable (byte : UInt8) : Bool := 0x20 ≤ byte && byte ≤ 0x7E

/-- `handle_escape` after the `ESC`: the bytes it reads, and the key they
make. -/
def escapeKey : List UInt8 → Key × List UInt8
  | 0x5B :: code :: rest =>
      if code = 0x41 then (.up, rest)
      else if code = 0x42 then (.down, rest)
      else if code = 0x43 then (.right, rest)
      else if code = 0x44 then (.left, rest)
      else if code = 0x48 then (.home, rest)
      else if code = 0x46 then (.toEnd, rest)
      else if code = 0x33 then
        match rest with
        | tilde :: more => (if tilde = 0x7E then .delete else .ignored, more)
        | [] => (.ignored, [])
      else (.ignored, rest)
  | 0x4F :: code :: rest =>
      if code = 0x48 then (.home, rest)
      else if code = 0x46 then (.toEnd, rest)
      else (.ignored, rest)
  | [_] => (.ignored, [])
  | _ :: rest => (.ignored, rest)
  | [] => (.ignored, [])

/-- The `match term.read_byte()` of `read_line`: `none` when the terminal has
no more bytes. -/
def nextKey : List UInt8 → Option (Key × List UInt8)
  | [] => none
  | byte :: rest =>
      some <|
        if byte = 0x0A ∨ byte = 0x0D then (.enter, rest)
        else if byte = 0x08 ∨ byte = 0x7F then (.backspace, rest)
        else if byte = 0x1B then escapeKey rest
        else if byte = 0x15 then (.clearLine, rest)
        else if byte = 0x03 then (.interrupt, rest)
        else if byte = 0x04 then (.eof, rest)
        else if isPrintable byte then (.char byte, rest)
        else if byte = 0x09 then (.tab, rest)
        else (.ignored, rest)

/-- What a key makes `read_line` do next. -/
inductive Outcome
  | editing
  | line (text : List UInt8)
  | noLine
  deriving DecidableEq, Repr

namespace LineEditor

/-- One key of `read_line`; `none` is a panic. -/
def press (editor : LineEditor) (cmds : List (List UInt8)) : Key → Option (Outcome × LineEditor)
  | .char ch => some (.editing, if editor.buffer.length < editor.maxLen then editor.doInsert ch else editor)
  | .backspace => some (.editing, editor.doBackspace)
  | .delete => some (.editing, editor.doDelete)
  | .left => some (.editing, editor.doCursorLeft)
  | .right => some (.editing, editor.doCursorRight)
  | .home => some (.editing, editor.doHome)
  | .toEnd => some (.editing, editor.doEnd)
  | .up => editor.historyUp.map (.editing, ·)
  | .down => editor.historyDown.map (.editing, ·)
  | .clearLine => some (.editing, editor.doClearLine)
  | .interrupt => some (.noLine, editor.doClearLine)
  | .eof => some (if editor.buffer.isEmpty then .noLine else .editing, editor)
  | .tab => some (.editing, editor.doTabComplete cmds)
  | .enter => some (.line editor.buffer, editor.addToHistory editor.buffer)
  | .ignored => some (.editing, editor)

/-- The loop of `read_line` over the bytes still to read.  Every key takes at
least one byte, so fuel of their number and one more never runs out. -/
def readLoop (cmds : List (List UInt8)) : Nat → LineEditor → List UInt8 →
    Option (Option (List UInt8) × LineEditor × List UInt8)
  | 0, _, _ => none
  | fuel + 1, editor, input =>
      match nextKey input with
      | none => some (none, editor, [])
      | some (key, rest) => do
          let (outcome, editor) ← editor.press cmds key
          match outcome with
          | .editing => readLoop cmds fuel editor rest
          | .line text => some (some text, editor, rest)
          | .noLine => some (none, editor, rest)

/-- `read_line` on the bytes the terminal will give: the line, the editor
after it and the bytes left unread. -/
def readLine (editor : LineEditor) (cmds : List (List UInt8)) (input : List UInt8) :
    Option (Option (List UInt8) × LineEditor × List UInt8) :=
  readLoop cmds (input.length + 1) { editor with buffer := [], cursor := 0, browsing := none } input

end LineEditor

end Fullerene.Nozzle

namespace Fullerene.Nozzle

/-! ## What every key keeps -/

/-- Bytes that `is_ascii_graphic() || == b' '` accepts. -/
def Printable (text : List UInt8) : Prop := ∀ byte ∈ text, isPrintable byte = true

/-- A key as `nextKey` makes it: a character key carries a printable byte. -/
def Key.Valid : Key → Prop
  | .char ch => isPrintable ch = true
  | _ => True

/-- An escape sequence makes no character and no TAB, and leaves a suffix of
what it reads. -/
theorem escapeKey_spec (bytes : List UInt8) :
    (escapeKey bytes).1.Valid ∧ (escapeKey bytes).1 ≠ .tab ∧ (escapeKey bytes).2 <:+ bytes := by
  fun_cases escapeKey bytes <;> (try split) <;> simp [Key.Valid, List.suffix_cons_iff]

/-- Every key takes at least one byte; a character key is printable, and TAB
takes the byte 0x09. -/
theorem nextKey_eq_some {input rest : List UInt8} {key : Key} (taken : nextKey input = some (key, rest)) :
    key.Valid ∧ (key = .tab → 0x09 ∈ input) ∧ ∃ byte more, input = byte :: more ∧ rest <:+ more := by
  cases input with
  | nil => cases taken
  | cons byte more =>
      -- every branch but the escape takes exactly one byte
      have single : ∀ k : Key, k.Valid → (k = .tab → byte = 0x09) → (k, more) = (key, rest) →
          key.Valid ∧ (key = .tab → 0x09 ∈ byte :: more) ∧ ∃ b m, byte :: more = b :: m ∧ rest <:+ m := by
        intro k valid tab same
        obtain ⟨rfl, rfl⟩ := Prod.mk.inj same
        exact ⟨valid, fun isTab => tab isTab ▸ List.mem_cons_self, byte, more, rfl, List.suffix_refl more⟩
      simp only [nextKey, Option.some.injEq] at taken
      split_ifs at taken with enter back escape clear interrupt eof printable tab
      · exact single .enter trivial nofun taken
      · exact single .backspace trivial nofun taken
      · obtain ⟨valid, notTab, suffix⟩ := escapeKey_spec more
        rw [taken] at valid notTab suffix
        exact ⟨valid, fun isTab => absurd isTab notTab, byte, more, rfl, suffix⟩
      · exact single .clearLine trivial nofun taken
      · exact single .interrupt trivial nofun taken
      · exact single .eof trivial nofun taken
      · exact single (.char byte) printable nofun taken
      · exact single .tab trivial (fun _ => tab) taken
      · exact single .ignored trivial nofun taken

namespace LineEditor

/-- The editor's invariant: the cursor within the buffer, printable text
everywhere, and a history of at most `HISTORY_MAX` non-empty entries with no
two adjacent ones equal, which the browsing index points into. -/
structure Sound (editor : LineEditor) : Prop where
  cursor_le : editor.cursor ≤ editor.buffer.length
  buffer_printable : Printable editor.buffer
  saved_printable : Printable editor.savedLine
  history_printable : ∀ entry ∈ editor.history, Printable entry
  history_nonempty : ∀ entry ∈ editor.history, entry ≠ []
  history_length : editor.history.length ≤ historyMax
  history_chain : editor.history.IsChain (· ≠ ·)
  browsing_lt : ∀ index, editor.browsing = some index → index < editor.history.length

variable {editor : LineEditor}

/-- Editing the buffer and moving the cursor keep the invariant as long as
the cursor stays within printable text. -/
theorem Sound.withBuffer (sound : editor.Sound) {buffer : List UInt8} {cursor : Nat}
    (within : cursor ≤ buffer.length) (printable : Printable buffer) : { editor with buffer, cursor }.Sound :=
  ⟨within, printable, sound.saved_printable, sound.history_printable, sound.history_nonempty, sound.history_length,
    sound.history_chain, sound.browsing_lt⟩

theorem Sound.doInsert (sound : editor.Sound) {ch : UInt8} (printable : isPrintable ch = true) :
    (editor.doInsert ch).Sound := by
  unfold LineEditor.doInsert
  split
  · refine sound.withBuffer (by simp) fun byte member => ?_
    rcases List.mem_append.mp member with old | added
    · exact sound.buffer_printable byte old
    · rw [List.mem_singleton.mp added]
      exact printable
  · rename_i inside
    refine sound.withBuffer (by rw [List.length_insertIdx_of_le_length sound.cursor_le]; omega) fun byte member => ?_
    rcases (List.mem_insertIdx sound.cursor_le).mp member with rfl | old
    · exact printable
    · exact sound.buffer_printable byte old

theorem Sound.doBackspace (sound : editor.Sound) : editor.doBackspace.Sound := by
  unfold LineEditor.doBackspace
  split
  · exact sound
  · have within := sound.cursor_le
    refine sound.withBuffer (by rw [List.length_eraseIdx_of_lt (by omega)]; omega) fun byte member =>
      sound.buffer_printable byte (List.mem_of_mem_eraseIdx member)

theorem Sound.doDelete (sound : editor.Sound) : editor.doDelete.Sound := by
  unfold LineEditor.doDelete
  split
  · exact sound
  · rename_i inside
    refine sound.withBuffer (by rw [List.length_eraseIdx_of_lt (by omega)]; omega) fun byte member =>
      sound.buffer_printable byte (List.mem_of_mem_eraseIdx member)

theorem Sound.replaceBuffer (sound : editor.Sound) {newText : List UInt8} (printable : Printable newText) :
    (editor.replaceBuffer newText).Sound :=
  sound.withBuffer (Nat.le_refl _) printable

/-- The history entry at an index the browsing may reach. -/
theorem Sound.entry (sound : editor.Sound) {index : Nat} (inside : index < editor.history.length) :
    ∃ entry, editor.history[index]? = some entry ∧ Printable entry :=
  ⟨_, List.getElem?_eq_getElem inside, sound.history_printable _ (List.getElem_mem inside)⟩

theorem Sound.historyUp (sound : editor.Sound) : ∃ next, editor.historyUp = some next ∧ next.Sound := by
  unfold LineEditor.historyUp
  split
  · split
    · exact ⟨editor, rfl, sound⟩
    · rename_i nonempty
      have inside : 0 < editor.history.length := List.length_pos_iff.mpr (by simpa using nonempty)
      obtain ⟨entry, found, printable⟩ := sound.entry inside
      refine ⟨_, by rw [found]; rfl, Sound.replaceBuffer ?_ printable⟩
      exact { sound with
        saved_printable := sound.buffer_printable
        browsing_lt := fun index browsing => by cases browsing; exact inside }
  · rename_i index _
    split
    · rename_i inside
      obtain ⟨entry, found, printable⟩ := sound.entry inside
      refine ⟨_, by rw [found]; rfl, Sound.replaceBuffer ?_ printable⟩
      exact { sound with browsing_lt := fun index' browsing => by cases browsing; exact inside }
    · exact ⟨editor, rfl, sound⟩

theorem Sound.historyDown (sound : editor.Sound) : ∃ next, editor.historyDown = some next ∧ next.Sound := by
  unfold LineEditor.historyDown
  split
  · exact ⟨editor, rfl, sound⟩
  · refine ⟨_, rfl, Sound.replaceBuffer ?_ sound.saved_printable⟩
    exact { sound with browsing_lt := fun _ browsing => by cases browsing }
  · rename_i index browsing
    have inside : index < editor.history.length := by
      have := sound.browsing_lt (index + 1) browsing
      omega
    obtain ⟨entry, found, printable⟩ := sound.entry inside
    refine ⟨_, by rw [found]; rfl, Sound.replaceBuffer ?_ printable⟩
    exact { sound with browsing_lt := fun index' browsing' => by cases browsing'; exact inside }

/-- The buffer pushed in front of a prefix of the history that keeps all
but at most its oldest entry. -/
theorem Sound.pushHistory (sound : editor.Sound) {kept : List (List UInt8)} (prefixKept : kept <+: editor.history)
    (longEnough : editor.history.length ≤ kept.length + 1) (short : kept.length + 1 ≤ historyMax)
    (nonempty : editor.buffer ≠ []) (fresh : editor.history.head? ≠ some editor.buffer) :
    { editor with history := editor.buffer :: kept }.Sound := by
  have member : ∀ entry ∈ kept, entry ∈ editor.history := fun _ kept => prefixKept.subset kept
  refine ⟨sound.cursor_le, sound.buffer_printable, sound.saved_printable, ?_, ?_, short, ?_, ?_⟩
  · intro entry entries
    rcases List.mem_cons.mp entries with rfl | old
    · exact sound.buffer_printable
    · exact sound.history_printable entry (member entry old)
  · intro entry entries
    rcases List.mem_cons.mp entries with rfl | old
    · exact nonempty
    · exact sound.history_nonempty entry (member entry old)
  · -- the newest kept entry is the newest entry of the history
    refine List.isChain_cons.mpr ⟨fun newest head equal => fresh ?_, sound.history_chain.prefix prefixKept⟩
    rw [List.prefix_iff_eq_take.mp prefixKept, List.head?_take] at head
    split at head
    · cases head
    · rw [equal]
      exact head
  · intro index browsing
    have := sound.browsing_lt index browsing
    simp only [List.length_cons]
    omega

/-- A finished line joins the history at the front, unless it is empty or
repeats the newest entry; a full history loses its oldest. -/
theorem Sound.addToHistory (sound : editor.Sound) : (editor.addToHistory editor.buffer).Sound := by
  unfold LineEditor.addToHistory
  split
  · exact sound
  split
  · exact sound
  rename_i empty fresh
  have nonempty : editor.buffer ≠ [] := fun isNil => empty (by rw [isNil]; rfl)
  have bounded := sound.history_length
  dsimp only
  split
  · rename_i full
    refine sound.pushHistory (List.dropLast_prefix _) ?_ ?_ nonempty fresh <;>
      (rw [List.length_dropLast]; unfold historyMax at *; omega)
  · rename_i notFull
    exact sound.pushHistory (List.prefix_refl _) (Nat.le_succ _) (by omega) nonempty fresh

theorem Sound.foldl_doInsert {chars : List UInt8} (printable : Printable chars) :
    ∀ {editor : LineEditor}, editor.Sound → (chars.foldl LineEditor.doInsert editor).Sound := by
  induction chars with
  | nil => exact fun sound => sound
  | cons ch chars more =>
      intro editor sound
      exact more (fun byte member => printable byte (List.mem_cons_of_mem _ member))
        (sound.doInsert (printable ch List.mem_cons_self))

theorem Sound.doTabComplete (sound : editor.Sound) {cmds : List (List UInt8)}
    (commands : ∀ name ∈ cmds, Printable name) : (editor.doTabComplete cmds).Sound := by
  unfold LineEditor.doTabComplete
  dsimp only
  split
  · rename_i completion only
    have offered : completion ∈ getCompletionsFor ((editor.buffer.take editor.cursor).drop editor.wordStart) cmds := by
      rw [only]
      exact List.mem_singleton_self _
    -- a completion is one of the commands
    have command : completion ∈ cmds := by
      unfold getCompletionsFor at offered
      split at offered
      · cases offered
      · exact List.mem_of_mem_filter offered
    exact Sound.foldl_doInsert (fun byte member => commands completion command byte (List.mem_of_mem_drop member)) sound
  · exact sound

/-- Every key a terminal can send returns, and keeps the invariant. -/
theorem Sound.press (sound : editor.Sound) {cmds : List (List UInt8)} (commands : ∀ name ∈ cmds, Printable name)
    {key : Key} (valid : key.Valid) : ∃ outcome next, editor.press cmds key = some (outcome, next) ∧ next.Sound := by
  have within := sound.cursor_le
  cases key with
  | char ch =>
      refine ⟨_, _, rfl, ?_⟩
      split
      · exact sound.doInsert valid
      · exact sound
  | backspace => exact ⟨_, _, rfl, sound.doBackspace⟩
  | delete => exact ⟨_, _, rfl, sound.doDelete⟩
  | left =>
      refine ⟨_, _, rfl, ?_⟩
      unfold doCursorLeft
      split
      · exact sound.withBuffer (by omega) sound.buffer_printable
      · exact sound
  | right =>
      refine ⟨_, _, rfl, ?_⟩
      unfold doCursorRight
      split
      · rename_i inside
        exact sound.withBuffer (by omega) sound.buffer_printable
      · exact sound
  | home => exact ⟨_, _, rfl, sound.withBuffer (Nat.zero_le _) sound.buffer_printable⟩
  | toEnd => exact ⟨_, _, rfl, sound.withBuffer (by omega) sound.buffer_printable⟩
  | up =>
      obtain ⟨next, moved, soundNext⟩ := sound.historyUp
      exact ⟨.editing, next, by simp only [LineEditor.press, moved, Option.map_some], soundNext⟩
  | down =>
      obtain ⟨next, moved, soundNext⟩ := sound.historyDown
      exact ⟨.editing, next, by simp only [LineEditor.press, moved, Option.map_some], soundNext⟩
  | clearLine => exact ⟨_, _, rfl, sound.withBuffer (Nat.le_refl 0) fun _ => nofun⟩
  | interrupt => exact ⟨_, _, rfl, sound.withBuffer (Nat.le_refl 0) fun _ => nofun⟩
  | eof => exact ⟨_, _, rfl, sound⟩
  | tab => exact ⟨_, _, rfl, sound.doTabComplete commands⟩
  | enter => exact ⟨_, _, rfl, sound.addToHistory⟩
  | ignored => exact ⟨_, _, rfl, sound⟩

theorem sound_withCapacity (maxLen : Nat) : (withCapacity maxLen).Sound :=
  ⟨Nat.le_refl 0, nofun, nofun, nofun, nofun, Nat.zero_le _, List.isChain_nil, nofun⟩

/-- Only ENTER ends a line, and the line is the buffer. -/
theorem press_line {cmds : List (List UInt8)} {key : Key} {text : List UInt8} {next : LineEditor}
    (pressed : editor.press cmds key = some (.line text, next)) : text = editor.buffer := by
  cases key <;> simp [press] at pressed
  case eof =>
    split at pressed <;> cases pressed.1
  case enter => exact pressed.1.symm

/-- The loop of `read_line` runs to the end of its input or its line on
enough fuel, and keeps the invariant. -/
theorem Sound.readLoop {cmds : List (List UInt8)} (commands : ∀ name ∈ cmds, Printable name) :
    ∀ {fuel : Nat} {editor : LineEditor} {input : List UInt8}, editor.Sound → input.length < fuel →
      ∃ line next rest, LineEditor.readLoop cmds fuel editor input = some (line, next, rest) ∧ next.Sound ∧
        ∀ text, line = some text → Printable text := by
  intro fuel
  induction fuel with
  | zero => exact fun _ short => absurd short (Nat.not_lt_zero _)
  | succ fuel more =>
      intro editor input sound short
      cases taken : nextKey input with
      | none => exact ⟨none, editor, [], by simp only [LineEditor.readLoop, taken], sound, nofun⟩
      | some step =>
          obtain ⟨key, rest⟩ := step
          obtain ⟨valid, -, byte, tail, rfl, suffix⟩ := nextKey_eq_some taken
          obtain ⟨outcome, next, pressed, soundNext⟩ := sound.press commands valid
          have shorter : rest.length < fuel := by
            have := suffix.length_le
            simp only [List.length_cons] at short
            omega
          cases outcome with
          | editing =>
              obtain ⟨line, final, left, ran, soundFinal, printable⟩ := more soundNext shorter
              refine ⟨line, final, left, ?_, soundFinal, printable⟩
              simp only [LineEditor.readLoop, taken, pressed]
              exact ran
          | line text =>
              refine ⟨some text, next, rest, ?_, soundNext, ?_⟩
              · simp only [LineEditor.readLoop, taken, pressed]
                rfl
              · rintro _ ⟨⟩
                rw [press_line pressed]
                exact sound.buffer_printable
          | noLine =>
              refine ⟨none, next, rest, ?_, soundNext, nofun⟩
              simp only [LineEditor.readLoop, taken, pressed]
              rfl

/-- `read_line` always returns on the bytes the terminal gives, with a
printable line, and keeps the invariant for the next call. -/
theorem Sound.readLine (sound : editor.Sound) {cmds : List (List UInt8)} (commands : ∀ name ∈ cmds, Printable name)
    (input : List UInt8) :
    ∃ line next rest, editor.readLine cmds input = some (line, next, rest) ∧ next.Sound ∧
      ∀ text, line = some text → Printable text :=
  -- the line starts empty, with the history kept and not browsed
  have reset : ({ editor with buffer := [], cursor := 0, browsing := none } : LineEditor).Sound :=
    { sound with cursor_le := Nat.le_refl 0, buffer_printable := nofun, browsing_lt := nofun }
  reset.readLoop commands (Nat.lt_succ_self _)

/-! ## The length limit

`max_len` is checked only where a typed character is inserted.  Every other
key keeps the texts of the editor within the limit; TAB does not (see
`tab_completion_overruns_max_len` below). -/

/-- No text of the editor longer than `limit`, and the editor's own
`max_len` at most `limit`. -/
structure Bounded (limit : Nat) (editor : LineEditor) : Prop where
  maxLen_le : editor.maxLen ≤ limit
  buffer_le : editor.buffer.length ≤ limit
  saved_le : editor.savedLine.length ≤ limit
  history_le : ∀ entry ∈ editor.history, entry.length ≤ limit

variable {limit : Nat}

theorem Bounded.withBuffer (bounded : editor.Bounded limit) {buffer : List UInt8} {cursor : Nat}
    (short : buffer.length ≤ limit) : ({ editor with buffer, cursor } : LineEditor).Bounded limit :=
  { bounded with buffer_le := short }

theorem Bounded.doInsert (bounded : editor.Bounded limit) (room : editor.buffer.length < editor.maxLen) (ch : UInt8) :
    (editor.doInsert ch).Bounded limit := by
  have := bounded.maxLen_le
  unfold LineEditor.doInsert
  split
  · exact bounded.withBuffer (by simp only [List.length_append, List.length_singleton]; omega)
  · rename_i inside
    exact bounded.withBuffer (by rw [List.length_insertIdx_of_le_length (by omega)]; omega)

theorem Bounded.doBackspace (bounded : editor.Bounded limit) : editor.doBackspace.Bounded limit := by
  unfold LineEditor.doBackspace
  split
  · exact bounded
  · exact bounded.withBuffer ((List.length_eraseIdx_le _ _).trans bounded.buffer_le)

theorem Bounded.doDelete (bounded : editor.Bounded limit) : editor.doDelete.Bounded limit := by
  unfold LineEditor.doDelete
  split
  · exact bounded
  · exact bounded.withBuffer ((List.length_eraseIdx_le _ _).trans bounded.buffer_le)

theorem Bounded.replaceBuffer (bounded : editor.Bounded limit) {newText : List UInt8}
    (short : newText.length ≤ limit) : (editor.replaceBuffer newText).Bounded limit :=
  bounded.withBuffer short

theorem Bounded.historyUp (bounded : editor.Bounded limit) {next : LineEditor}
    (moved : editor.historyUp = some next) : next.Bounded limit := by
  unfold LineEditor.historyUp at moved
  split at moved
  · split at moved
    · cases moved
      exact bounded
    · obtain ⟨entry, found, replaced⟩ := Option.bind_eq_some_iff.mp moved
      cases replaced
      refine Bounded.replaceBuffer ?_ (bounded.history_le entry (List.mem_of_getElem? found))
      exact { bounded with saved_le := bounded.buffer_le }
  · split at moved
    · obtain ⟨entry, found, replaced⟩ := Option.bind_eq_some_iff.mp moved
      cases replaced
      refine Bounded.replaceBuffer ?_ (bounded.history_le entry (List.mem_of_getElem? found))
      exact { bounded with }
    · cases moved
      exact bounded

theorem Bounded.historyDown (bounded : editor.Bounded limit) {next : LineEditor}
    (moved : editor.historyDown = some next) : next.Bounded limit := by
  unfold LineEditor.historyDown at moved
  split at moved
  · cases moved
    exact bounded
  · cases moved
    refine Bounded.replaceBuffer ?_ bounded.saved_le
    exact { bounded with }
  · obtain ⟨entry, found, replaced⟩ := Option.bind_eq_some_iff.mp moved
    cases replaced
    refine Bounded.replaceBuffer ?_ (bounded.history_le entry (List.mem_of_getElem? found))
    exact { bounded with }

theorem Bounded.addToHistory (bounded : editor.Bounded limit) : (editor.addToHistory editor.buffer).Bounded limit := by
  unfold LineEditor.addToHistory
  split
  · exact bounded
  split
  · exact bounded
  dsimp only
  refine { bounded with history_le := fun entry member => ?_ }
  rcases List.mem_cons.mp member with rfl | old
  · exact bounded.buffer_le
  · split at old
    · exact bounded.history_le entry ((List.dropLast_prefix _).subset old)
    · exact bounded.history_le entry old

theorem bounded_withCapacity (maxLen : Nat) : (withCapacity maxLen).Bounded maxLen :=
  ⟨Nat.le_refl _, Nat.zero_le _, Nat.zero_le _, nofun⟩

/-- Every key but TAB keeps the editor within the limit, and so does the line
ENTER returns. -/
theorem Bounded.press (bounded : editor.Bounded limit) {cmds : List (List UInt8)} {key : Key} {outcome : Outcome}
    {next : LineEditor} (notTab : key ≠ .tab) (pressed : editor.press cmds key = some (outcome, next)) :
    next.Bounded limit ∧ ∀ text, outcome = .line text → text.length ≤ limit := by
  cases key with
  | char ch =>
      cases pressed
      refine ⟨?_, nofun⟩
      split
      · rename_i room
        exact bounded.doInsert room ch
      · exact bounded
  | backspace =>
      cases pressed
      exact ⟨bounded.doBackspace, nofun⟩
  | delete =>
      cases pressed
      exact ⟨bounded.doDelete, nofun⟩
  | left =>
      cases pressed
      refine ⟨?_, nofun⟩
      unfold doCursorLeft
      split
      · exact bounded.withBuffer bounded.buffer_le
      · exact bounded
  | right =>
      cases pressed
      refine ⟨?_, nofun⟩
      unfold doCursorRight
      split
      · exact bounded.withBuffer bounded.buffer_le
      · exact bounded
  | home =>
      cases pressed
      exact ⟨bounded.withBuffer bounded.buffer_le, nofun⟩
  | toEnd =>
      cases pressed
      exact ⟨bounded.withBuffer bounded.buffer_le, nofun⟩
  | up =>
      obtain ⟨moved, found, same⟩ := Option.map_eq_some_iff.mp pressed
      cases same
      exact ⟨bounded.historyUp found, nofun⟩
  | down =>
      obtain ⟨moved, found, same⟩ := Option.map_eq_some_iff.mp pressed
      cases same
      exact ⟨bounded.historyDown found, nofun⟩
  | clearLine =>
      cases pressed
      exact ⟨bounded.withBuffer (Nat.zero_le _), nofun⟩
  | interrupt =>
      cases pressed
      exact ⟨bounded.withBuffer (Nat.zero_le _), nofun⟩
  | eof =>
      cases pressed
      refine ⟨bounded, fun text ended => ?_⟩
      split at ended <;> cases ended
  | tab => exact absurd rfl notTab
  | enter =>
      cases pressed
      exact ⟨bounded.addToHistory, fun text ended => by cases ended; exact bounded.buffer_le⟩
  | ignored =>
      cases pressed
      exact ⟨bounded, nofun⟩

/-- On input without the byte 0x09, `read_line`'s loop keeps the editor and
its line within the limit. -/
theorem Bounded.readLoop {cmds : List (List UInt8)} :
    ∀ {fuel : Nat} {editor : LineEditor} {input : List UInt8} {line : Option (List UInt8)} {next : LineEditor}
      {rest : List UInt8}, editor.Bounded limit → 0x09 ∉ input →
      LineEditor.readLoop cmds fuel editor input = some (line, next, rest) →
      next.Bounded limit ∧ ∀ text, line = some text → text.length ≤ limit := by
  intro fuel
  induction fuel with
  | zero => exact fun _ _ ran => by cases ran
  | succ fuel more =>
      intro editor input line next rest bounded noTab ran
      cases taken : nextKey input with
      | none =>
          simp only [LineEditor.readLoop, taken] at ran
          cases ran
          exact ⟨bounded, nofun⟩
      | some step =>
          obtain ⟨key, left⟩ := step
          obtain ⟨-, tab, byte, tail, rfl, suffix⟩ := nextKey_eq_some taken
          simp only [LineEditor.readLoop, taken] at ran
          obtain ⟨⟨outcome, pressedEditor⟩, pressed, ran⟩ := Option.bind_eq_some_iff.mp ran
          obtain ⟨boundedNext, lineShort⟩ := bounded.press (fun isTab => noTab (tab isTab)) pressed
          cases outcome with
          | editing =>
              -- the bytes left are a suffix of the input, so hold no 0x09 either
              exact more boundedNext (fun inLeft => noTab (List.mem_cons_of_mem _ (suffix.subset inLeft))) ran
          | line text =>
              cases ran
              exact ⟨boundedNext, fun _ same => by cases same; exact lineShort text rfl⟩
          | noLine =>
              cases ran
              exact ⟨boundedNext, nofun⟩

theorem Bounded.readLine (bounded : editor.Bounded limit) {cmds : List (List UInt8)} {input : List UInt8}
    {line : Option (List UInt8)} {next : LineEditor} {rest : List UInt8} (noTab : 0x09 ∉ input)
    (ran : editor.readLine cmds input = some (line, next, rest)) :
    next.Bounded limit ∧ ∀ text, line = some text → text.length ≤ limit :=
  -- the line starts empty
  have reset : Bounded limit { editor with buffer := [], cursor := 0, browsing := none } :=
    { bounded with buffer_le := Nat.zero_le _ }
  reset.readLoop noTab ran

/-- TAB inserts the rest of the only completion without looking at
`max_len`: with room for one byte, `b` and TAB make the line `badapple`. -/
theorem tab_completion_overruns_max_len :
    ∃ next, (withCapacity 1).readLine defaultCommands [0x62, 0x09, 0x0D] = some (some (asciiBytes "badapple"), next, []) ∧
      next.maxLen = 1 ∧ next.buffer.length = 8 ∧ next.cursor = 8 :=
  ⟨_, rfl, rfl, rfl, rfl⟩

end LineEditor

end Fullerene.Nozzle
