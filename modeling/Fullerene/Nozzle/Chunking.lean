import Fullerene.Nozzle.TerminalBuffer

/-!
# Writing a string in pieces

`put_str` keeps its escape state and its parameter bytes in locals, and a call
ends by writing out an unfinished sequence as plain bytes.  Two calls therefore
act as one call on the joined string when the first piece leaves the decoder
outside a sequence (`putStr_append_of_normal`), whatever parameters a finished
sequence left behind, since the next `ESC [` starts them afresh
(`Decoder.Agree`); a first piece without `ESC` always does
(`put_str_chunks_outside_escape`).  A sequence cut inside is not resumed: `ESC` then `[31m`
prints `[31m` where `ESC [31m` sets the colour
(`put_str_split_escape_prints_text`).
-/

namespace Fullerene.Nozzle.TerminalBuffer

/-- The decoder `put_str` starts from. -/
def Decoder.start (b : TerminalBuffer) : Decoder := ⟨b, .normal, []⟩

theorem putStr_eq (b : TerminalBuffer) (bytes : List Nat) :
    b.putStr bytes = (bytes.foldl Decoder.feed (Decoder.start b)).finish := rfl

theorem Decoder.finish_of_normal {d : Decoder} (normal : d.state = .normal) : d.finish = d.buffer := by
  unfold finish
  rw [normal]

/-- Two decoders that differ at most in parameters neither will read: the parameters count only
inside a `CSI` sequence. -/
def Decoder.Agree (d d' : Decoder) : Prop :=
  d.buffer = d'.buffer ∧ d.state = d'.state ∧ (d.state = .csi → d.params = d'.params)

namespace Decoder.Agree

variable {d d' : Decoder}

theorem feed (agree : d.Agree d') (byte : Nat) : (d.feed byte).Agree (d'.feed byte) := by
  obtain ⟨buffer, state, params⟩ := d
  obtain ⟨buffer', state', params'⟩ := d'
  obtain ⟨sameBuffer, sameState, sameParams⟩ := agree
  dsimp only at sameBuffer sameState sameParams
  subst sameBuffer sameState
  cases state with
  | normal =>
    simp only [Decoder.feed]
    split_ifs <;> exact ⟨rfl, rfl, by simp⟩
  | esc =>
    simp only [Decoder.feed]
    -- `ESC [` clears the parameters in both; any other byte leaves the sequence
    split_ifs
    · exact ⟨rfl, rfl, fun _ => rfl⟩
    · exact ⟨rfl, rfl, by simp⟩
  | csi =>
    obtain rfl := sameParams rfl
    exact ⟨rfl, rfl, fun _ => rfl⟩

theorem foldl_feed (agree : d.Agree d') (bytes : List Nat) :
    (bytes.foldl Decoder.feed d).Agree (bytes.foldl Decoder.feed d') := by
  induction bytes generalizing d d' with
  | nil => exact agree
  | cons byte bytes ih => exact ih (agree.feed byte)

theorem finish_eq (agree : d.Agree d') : d.finish = d'.finish := by
  obtain ⟨buffer, state, params⟩ := d
  obtain ⟨buffer', state', params'⟩ := d'
  obtain ⟨sameBuffer, sameState, sameParams⟩ := agree
  dsimp only at sameBuffer sameState sameParams
  subst sameBuffer sameState
  cases state with
  | csi => rw [sameParams rfl]
  | _ => rfl

end Decoder.Agree

/-- Two writes act as one when the first ends outside an escape sequence. -/
theorem putStr_append_of_normal (b : TerminalBuffer) (a c : List Nat)
    (normal : (a.foldl Decoder.feed (Decoder.start b)).state = .normal) :
    (b.putStr a).putStr c = b.putStr (a ++ c) := by
  set d := a.foldl Decoder.feed (Decoder.start b)
  have restart : (Decoder.start d.buffer).Agree d := ⟨rfl, normal.symm, by simp [Decoder.start]⟩
  rw [putStr_eq b a, Decoder.finish_of_normal normal, putStr_eq, putStr_eq, List.foldl_append]
  exact (restart.foldl_feed c).finish_eq

/-- Bytes without an `ESC` keep the decoder outside a sequence. -/
theorem Decoder.state_foldl_feed_of_not_mem {bytes : List Nat} (noEsc : 0x1B ∉ bytes) :
    ∀ {d : Decoder}, d.state = .normal → (bytes.foldl Decoder.feed d).state = .normal := by
  induction bytes with
  | nil => exact fun normal => normal
  | cons byte bytes ih =>
      intro d normal
      have notEsc : byte ≠ 0x1B := fun same => noEsc (same ▸ List.mem_cons_self)
      rw [List.foldl_cons]
      apply ih (fun mem => noEsc (List.mem_cons_of_mem _ mem))
      -- outside a sequence a byte other than `ESC` is printed and the state stays
      simp only [Decoder.feed, normal, if_neg notEsc]

/-- How `put_str` behaves under chunking: two writes act as one on the joined bytes whenever the
first leaves the decoder outside an escape sequence, in particular whenever it holds no `ESC`. -/
theorem put_str_chunks_outside_escape (b : TerminalBuffer) (a c : List Nat) :
    ((a.foldl Decoder.feed (Decoder.start b)).state = .normal → (b.putStr a).putStr c = b.putStr (a ++ c)) ∧
      (0x1B ∉ a → (b.putStr a).putStr c = b.putStr (a ++ c)) :=
  ⟨putStr_append_of_normal b a c, fun noEsc =>
    putStr_append_of_normal b a c (Decoder.state_foldl_feed_of_not_mem noEsc rfl)⟩

/-- A write that ends with a whole `ESC [31m` and a write of `x` act as one. -/
theorem put_str_chunks_after_sgr :
    ((new 8 2).putStr [0x1B, 0x5B, 0x33, 0x31, 0x6D]).putStr [0x78] =
      (new 8 2).putStr [0x1B, 0x5B, 0x33, 0x31, 0x6D, 0x78] :=
  (put_str_chunks_outside_escape (new 8 2) [0x1B, 0x5B, 0x33, 0x31, 0x6D] [0x78]).1 rfl

/-- An `ESC` at the end of one write and `[31m` at the start of the next print `[31m` and leave
the colour alone, where the two together set the foreground and print nothing. -/
theorem put_str_split_escape_prints_text :
    ((new 8 2).putStr [0x1B]).putStr [0x5B, 0x33, 0x31, 0x6D] ≠ (new 8 2).putStr [0x1B, 0x5B, 0x33, 0x31, 0x6D] ∧
      (((new 8 2).putStr [0x1B]).putStr [0x5B, 0x33, 0x31, 0x6D]).cursorCol = 4 ∧
      ((new 8 2).putStr [0x1B, 0x5B, 0x33, 0x31, 0x6D]).cursorCol = 0 := by
  have split : (((new 8 2).putStr [0x1B]).putStr [0x5B, 0x33, 0x31, 0x6D]).cursorCol = 4 := by decide
  have whole : ((new 8 2).putStr [0x1B, 0x5B, 0x33, 0x31, 0x6D]).cursorCol = 0 := by decide
  refine ⟨fun same => ?_, split, whole⟩
  have := congrArg TerminalBuffer.cursorCol same
  rw [split, whole] at this
  cases this

end Fullerene.Nozzle.TerminalBuffer
