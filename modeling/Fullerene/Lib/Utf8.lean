import Mathlib.Data.List.Basic

/-!
# Well-formed UTF-8 as an automaton

The well-formed byte sequences of the Unicode standard (its table of
well-formed UTF-8 byte sequences), read byte by byte: at a character boundary a
lead byte says how many continuation bytes follow and the range of the first
one, which rules out overlong forms, surrogates and code points past
`U+10FFFF`. `valid` is what `core::str::from_utf8` accepts.

The lemmas are those that cutting a text at an ASCII byte needs: no ASCII byte
continues a character, so a text joined with an ASCII separator is valid
exactly when every piece is.
-/

namespace Utf8

/-- The range of the next continuation byte: all of `80..BF`, or the narrower
first continuation byte after `E0`, `ED`, `F0` and `F4`. -/
inductive Range where
  | any
  | fromA0
  | belowA0
  | from90
  | below90
  deriving DecidableEq, Repr

def Range.contains : Range → Nat → Bool
  | .any, byte => 0x80 ≤ byte && byte ≤ 0xBF
  | .fromA0, byte => 0xA0 ≤ byte && byte ≤ 0xBF
  | .belowA0, byte => 0x80 ≤ byte && byte ≤ 0x9F
  | .from90, byte => 0x90 ≤ byte && byte ≤ 0xBF
  | .below90, byte => 0x80 ≤ byte && byte ≤ 0x8F

/-- Between characters, or inside one with `count` continuation bytes to come. -/
inductive State where
  | boundary
  | expect (count : Nat) (range : Range)
  deriving DecidableEq, Repr

/-- What a byte at a character boundary starts. -/
def lead (byte : Nat) : Option State :=
  if byte < 0x80 then some .boundary
  else if 0xC2 ≤ byte ∧ byte ≤ 0xDF then some (.expect 1 .any)
  else if byte = 0xE0 then some (.expect 2 .fromA0)
  else if byte = 0xED then some (.expect 2 .belowA0)
  else if 0xE1 ≤ byte ∧ byte ≤ 0xEF then some (.expect 2 .any)
  else if byte = 0xF0 then some (.expect 3 .from90)
  else if 0xF1 ≤ byte ∧ byte ≤ 0xF3 then some (.expect 3 .any)
  else if byte = 0xF4 then some (.expect 3 .below90)
  else none

def step : State → Nat → Option State
  | .boundary, byte => lead byte
  | .expect count range, byte =>
      if range.contains byte then some (if count = 1 then .boundary else .expect (count - 1) .any)
      else none

/-- The bytes form a sequence of whole well-formed characters. -/
def valid (bytes : List Nat) : Bool :=
  decide (bytes.foldlM step .boundary = some .boundary)

theorem Range.contains_of_lt {range : Range} {byte : Nat} (ascii : byte < 0x80) :
    range.contains byte = false := by
  cases range <;> simp [Range.contains] <;> omega

/-- An ASCII byte ends nothing: it is a character at a boundary and breaks a
character that is not complete. -/
theorem step_of_lt {byte : Nat} (ascii : byte < 0x80) (state : State) :
    step state byte = if state = .boundary then some .boundary else none := by
  cases state with
  | boundary => simp [step, lead, ascii]
  | expect count range => simp [step, Range.contains_of_lt ascii]

@[simp]
theorem valid_nil : valid [] = true := rfl

/-- A text with an ASCII byte in it is valid exactly when the text before and
the text after the byte are. -/
theorem valid_append_cons_of_lt {byte : Nat} (ascii : byte < 0x80) (front back : List Nat) :
    valid (front ++ byte :: back) = (valid front && valid back) := by
  simp only [valid, List.foldlM_append, List.foldlM_cons]
  cases stopped : front.foldlM step State.boundary with
  | none => simp
  | some state =>
      by_cases atBoundary : state = .boundary
      · subst atBoundary
        simp [step_of_lt ascii]
      · simp [step_of_lt ascii, atBoundary]

/-- ASCII text is valid. -/
theorem valid_of_lt {bytes : List Nat} (ascii : ∀ byte ∈ bytes, byte < 0x80) : valid bytes = true := by
  induction bytes with
  | nil => rfl
  | cons byte rest inductionHypothesis =>
      rw [← List.nil_append (byte :: rest), valid_append_cons_of_lt (ascii byte List.mem_cons_self), valid_nil,
        inductionHypothesis fun other member => ascii other (List.mem_cons_of_mem byte member)]
      rfl

/-- Pieces joined with an ASCII separator are valid exactly when every piece is. -/
theorem valid_intercalate {byte : Nat} (ascii : byte < 0x80) (pieces : List (List Nat)) :
    valid (List.intercalate [byte] pieces) = pieces.all valid := by
  induction pieces with
  | nil => rfl
  | cons piece rest inductionHypothesis =>
      cases rest with
      | nil => simp
      | cons next more =>
          rw [List.intercalate_cons_cons, List.append_assoc, List.singleton_append,
            valid_append_cons_of_lt ascii, inductionHypothesis]
          rfl

end Utf8
