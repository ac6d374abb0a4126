import Fullerene.Toluene.Calc

/-!
# The calculator evaluates exactly its grammar

The language is `E ::= T (('+'|'-') T)*`, `T ::= F (('*'|'/') F)*`,
`F ::= digits | '-' F | '(' E ')'`, over lexemes: a literal (a run of digits)
or one of the six operator bytes.  A string spells a list of lexemes when it
is their texts with whitespace around them; two literals in a row need
whitespace between them, else they read as one literal (`Spaced`).
`Derives p ls v` says that `ls` is a phrase `p` whose left-to-right
evaluation over the integers keeps every literal, intermediate and final
value in `i64`, never divides by zero, and ends at `v`.

`evaluate_eq_some_iff`: `evaluate s = some v` exactly when `s` spells a
sentence that evaluates to `v`.  The tokenizer reads what `s` spells
(`tokenizeFrom_spaced`, `exists_spaced_of_tokenizeFrom`), the parser accepts
what derives (`run_complete`, with the fuel it is given) and nothing else
(`run_sound`).
-/

namespace Fullerene.Toluene

/-! ## Lexemes -/

/-- The value of the digits `ds` read after the value `v`. -/
def digitsFrom (v : Nat) (ds : List UInt8) : Nat := ds.foldl (fun v c => 10 * v + (c - 0x30).toNat) v

theorem le_digitsFrom (v : Nat) (ds : List UInt8) : v ≤ digitsFrom v ds := by
  induction ds generalizing v with
  | nil => exact Nat.le_refl v
  | cons c ds ih =>
    have := ih (10 * v + (c - 0x30).toNat)
    simp only [digitsFrom, List.foldl_cons] at this ⊢
    omega

/-- A literal: a nonempty run of ASCII digits. -/
structure Literal where
  digits : List UInt8
  nonempty : digits ≠ []
  allDigits : ∀ c ∈ digits, isDigit c = true

def Literal.value (d : Literal) : Nat := digitsFrom 0 d.digits

inductive Lexeme
  | lit (d : Literal)
  | plus
  | minus
  | mul
  | div
  | lParen
  | rParen

def Lexeme.text : Lexeme → List UInt8
  | .lit d => d.digits
  | .plus => [0x2B]
  | .minus => [0x2D]
  | .mul => [0x2A]
  | .div => [0x2F]
  | .lParen => [0x28]
  | .rParen => [0x29]

def Lexeme.token : Lexeme → Token
  | .lit d => .num d.value
  | .plus => .plus
  | .minus => .minus
  | .mul => .mul
  | .div => .div
  | .lParen => .lParen
  | .rParen => .rParen

def Lexeme.isLit : Lexeme → Bool
  | .lit _ => true
  | _ => false

/-- `s` spells `ls`: their texts with whitespace before, between and after them, at least one
whitespace byte keeping two literals in a row apart. -/
inductive Spaced : List Lexeme → List UInt8 → Prop
  | nil {w : List UInt8} : (∀ c ∈ w, isSpace c = true) → Spaced [] w
  | cons {w s : List UInt8} {l : Lexeme} {ls : List Lexeme} : (∀ c ∈ w, isSpace c = true) → Spaced ls s →
      (l.isLit = true → ls.head?.any Lexeme.isLit = true → s.head?.any isSpace = true) →
      Spaced (l :: ls) (w ++ l.text ++ s)

/-- Every literal fits `i64`. -/
def LitsFit (ls : List Lexeme) : Prop := ∀ d, Lexeme.lit d ∈ ls → d.value < 2 ^ 63

/-! ## The grammar and its values -/

/-- `E`, `T`, `F`, and the loops `(('+'|'-') T)*` and `(('*'|'/') F)*` after a prefix worth `acc`. -/
inductive Phrase
  | expr
  | term
  | factor
  | exprTail (acc : Int)
  | termTail (acc : Int)

def InI64 (x : Int) : Prop := -2 ^ 63 ≤ x ∧ x < 2 ^ 63

/-- `Derives p ls v`: `ls` is a `p` that evaluates to `v` within `i64`. -/
inductive Derives : Phrase → List Lexeme → Int → Prop
  | expr {ts rest : List Lexeme} {a v : Int} : Derives .term ts a → Derives (.exprTail a) rest v →
      Derives .expr (ts ++ rest) v
  | exprEnd {a : Int} : Derives (.exprTail a) [] a
  | add {ts rest : List Lexeme} {a b v : Int} : Derives .term ts b → InI64 (a + b) →
      Derives (.exprTail (a + b)) rest v → Derives (.exprTail a) (.plus :: ts ++ rest) v
  | sub {ts rest : List Lexeme} {a b v : Int} : Derives .term ts b → InI64 (a - b) →
      Derives (.exprTail (a - b)) rest v → Derives (.exprTail a) (.minus :: ts ++ rest) v
  | term {ts rest : List Lexeme} {a v : Int} : Derives .factor ts a → Derives (.termTail a) rest v →
      Derives .term (ts ++ rest) v
  | termEnd {a : Int} : Derives (.termTail a) [] a
  | mul {ts rest : List Lexeme} {a b v : Int} : Derives .factor ts b → InI64 (a * b) →
      Derives (.termTail (a * b)) rest v → Derives (.termTail a) (.mul :: ts ++ rest) v
  | div {ts rest : List Lexeme} {a b v : Int} : Derives .factor ts b → b ≠ 0 → InI64 (a.tdiv b) →
      Derives (.termTail (a.tdiv b)) rest v → Derives (.termTail a) (.div :: ts ++ rest) v
  | lit (d : Literal) : (d.value : Int) < 2 ^ 63 → Derives .factor [.lit d] d.value
  | neg {ts : List Lexeme} {a : Int} : Derives .factor ts a → InI64 (-a) → Derives .factor (.minus :: ts) (-a)
  | paren {ts : List Lexeme} {a : Int} : Derives .expr ts a → Derives .factor (.lParen :: ts ++ [.rParen]) a

/-! ## The tokenizer reads what a string spells -/

theorem not_isDigit_of_isSpace {c : UInt8} (space : isSpace c = true) : isDigit c = false := by
  simp only [isSpace, Bool.or_eq_true, beq_iff_eq] at space
  rcases space with ((rfl | rfl) | rfl) | rfl <;> decide

theorem opToken_eq_some {c : UInt8} {token : Token} (op : opToken c = some token) :
    ∃ l : Lexeme, l.isLit = false ∧ l.text = [c] ∧ l.token = token := by
  unfold opToken at op
  split_ifs at op <;> cases op <;> subst_vars
  exacts [⟨.plus, rfl, rfl, rfl⟩, ⟨.minus, rfl, rfl, rfl⟩, ⟨.mul, rfl, rfl, rfl⟩, ⟨.div, rfl, rfl, rfl⟩,
    ⟨.lParen, rfl, rfl, rfl⟩, ⟨.rParen, rfl, rfl, rfl⟩]

theorem isDigit_isSpace_of_opToken {c : UInt8} {token : Token} (op : opToken c = some token) :
    isDigit c = false ∧ isSpace c = false := by
  unfold opToken at op
  split_ifs at op <;> subst_vars <;> decide

/-- The operator lexemes are read by `opToken`. -/
theorem opToken_text {l : Lexeme} (notLit : l.isLit = false) :
    ∃ c, l.text = [c] ∧ opToken c = some l.token := by
  cases l <;> first | exact ⟨_, rfl, rfl⟩ | cases notLit

/-- A byte that is not a digit ends the digit loop and is read by the outer loop. -/
theorem tokenizeFrom_of_not_isDigit {c : UInt8} (notDigit : isDigit c = false) (s : List UInt8)
    (pending : Option Int) (tokens : List Token) :
    tokenizeFrom (c :: s) pending tokens =
      if isSpace c then tokenizeFrom s none (flush pending tokens)
      else
        match opToken c with
        | some token => tokenizeFrom s none (flush pending tokens ++ [token])
        | none => none :=
  if_neg (by rw [notDigit]; decide)

theorem tokenizeFrom_space {c : UInt8} (space : isSpace c = true) (s : List UInt8) (tokens : List Token) :
    tokenizeFrom (c :: s) none tokens = tokenizeFrom s none tokens := by
  rw [tokenizeFrom_of_not_isDigit (not_isDigit_of_isSpace space), if_pos space]
  rfl

theorem tokenizeFrom_spaces {w : List UInt8} (spaces : ∀ c ∈ w, isSpace c = true) (s : List UInt8)
    (tokens : List Token) : tokenizeFrom (w ++ s) none tokens = tokenizeFrom s none tokens := by
  induction w with
  | nil => rfl
  | cons c w ih =>
    rw [List.cons_append, tokenizeFrom_space (spaces c List.mem_cons_self)]
    exact ih fun c' mem => spaces c' (List.mem_cons_of_mem c mem)

theorem tokenizeFrom_op {c : UInt8} {token : Token} (op : opToken c = some token) (s : List UInt8)
    (tokens : List Token) : tokenizeFrom (c :: s) none tokens = tokenizeFrom s none (tokens ++ [token]) := by
  obtain ⟨notDigit, notSpace⟩ := isDigit_isSpace_of_opToken op
  rw [tokenizeFrom_of_not_isDigit notDigit, if_neg (by rw [notSpace]; decide), op]
  rfl

/-- The digit loop ends at a byte that is not a digit, or at the end, and pushes its number. -/
theorem tokenizeFrom_flush {s : List UInt8} (ends : ∀ c ∈ s.head?, isDigit c = false) (val : Int)
    (tokens : List Token) : tokenizeFrom s (some val) tokens = tokenizeFrom s none (tokens ++ [.num val]) := by
  cases s with
  | nil => rfl
  | cons c s =>
    rw [tokenizeFrom_of_not_isDigit (ends c rfl), tokenizeFrom_of_not_isDigit (ends c rfl)]
    rfl

/-- One pass of the digit loop on a value in range. -/
theorem digitStep (v : Nat) (c : UInt8) :
    ((checkedMul (v : Int) 10).bind fun x => checkedAdd x (c - 0x30).toNat) =
      if 10 * v + (c - 0x30).toNat < 2 ^ 63 then some ((10 * v + (c - 0x30).toNat : Nat) : Int) else none := by
  unfold checkedMul checkedAdd checkedI64
  by_cases fits : 10 * v + (c - 0x30).toNat < 2 ^ 63
  · have product : -2 ^ 63 ≤ (v : Int) * 10 ∧ (v : Int) * 10 < 2 ^ 63 := by omega
    rw [if_pos product, Option.bind_some, if_pos (by omega), if_pos fits]
    push_cast
    rw [Int.mul_comm]
  · rw [if_neg fits]
    -- either the product or the sum leaves the range
    by_cases product : -2 ^ 63 ≤ (v : Int) * 10 ∧ (v : Int) * 10 < 2 ^ 63
    · rw [if_pos product, Option.bind_some, if_neg (by omega)]
    · rw [if_neg product, Option.bind_none]

theorem digitsFrom_cons (v : Nat) (c : UInt8) (ds : List UInt8) :
    digitsFrom v (c :: ds) = digitsFrom (10 * v + (c - 0x30).toNat) ds := rfl

/-- The digit loop over `ds`, entered with the value `v`. -/
theorem tokenizeFrom_digits {ds : List UInt8} (digits : ∀ c ∈ ds, isDigit c = true) (s : List UInt8) {v : Nat}
    (inRange : v < 2 ^ 63) (tokens : List Token) :
    tokenizeFrom (ds ++ s) (some (v : Int)) tokens =
      if digitsFrom v ds < 2 ^ 63 then tokenizeFrom s (some (digitsFrom v ds : Int)) tokens else none := by
  induction ds generalizing v with
  | nil => rw [List.nil_append, digitsFrom, List.foldl_nil, if_pos inRange]
  | cons c ds ih =>
    have digit := digits c List.mem_cons_self
    rw [List.cons_append, tokenizeFrom, if_pos digit, Option.getD_some, digitStep, digitsFrom_cons]
    by_cases fits : 10 * v + (c - 0x30).toNat < 2 ^ 63
    · rw [if_pos fits]
      exact ih (fun c' mem => digits c' (List.mem_cons_of_mem c mem)) fits
    · -- the value only grows, so the whole run is out of range too
      have grows := le_digitsFrom (10 * v + (c - 0x30).toNat) ds
      rw [if_neg fits, if_neg (by omega)]

/-- A literal followed by a byte that is not a digit, or by nothing. -/
theorem tokenizeFrom_lit (d : Literal) {s : List UInt8} (ends : ∀ c ∈ s.head?, isDigit c = false)
    (tokens : List Token) :
    tokenizeFrom (d.digits ++ s) none tokens =
      if d.value < 2 ^ 63 then tokenizeFrom s none (tokens ++ [.num d.value]) else none := by
  obtain ⟨c, ds, spelled⟩ := List.exists_cons_of_ne_nil d.nonempty
  have digit := d.allDigits c (by rw [spelled]; exact List.mem_cons_self)
  -- the first digit starts the loop from 0, as a pending 0 would
  have fromZero : tokenizeFrom (d.digits ++ s) none tokens = tokenizeFrom (d.digits ++ s) (some ((0 : Nat) : Int)) tokens := by
    rw [spelled, List.cons_append, tokenizeFrom, tokenizeFrom, if_pos digit, if_pos digit]
    rw [Option.getD_none, Option.getD_some, show ((0 : Nat) : Int) = 0 from rfl]
  rw [fromZero, tokenizeFrom_digits d.allDigits s (Nat.two_pow_pos 63), ← Literal.value]
  split
  · exact tokenizeFrom_flush ends _ tokens
  · rfl

theorem Lexeme.text_ne_nil (l : Lexeme) : l.text ≠ [] := by
  cases l with
  | lit d => exact d.nonempty
  | _ => simp [Lexeme.text]

/-- A digit at the front of a spelling starts a literal. -/
theorem Spaced.isLit_of_isDigit {ls : List Lexeme} {s : List UInt8} (spelled : Spaced ls s) :
    ∀ c ∈ s.head?, isDigit c = true → ls.head?.any Lexeme.isLit = true := by
  intro c head digit
  cases spelled with
  | nil spaces =>
    have := not_isDigit_of_isSpace (spaces c (List.mem_of_mem_head? head))
    simp_all
  | @cons w s l ls spaces _ _ =>
    cases w with
    | cons c' w =>
      simp only [List.cons_append, List.head?_cons, Option.mem_def, Option.some.injEq] at head
      have := not_isDigit_of_isSpace (spaces c' List.mem_cons_self)
      simp_all
    | nil =>
      by_cases lit : l.isLit = true
      · simpa using lit
      · obtain ⟨c', text, op⟩ := opToken_text (by simpa using lit)
        simp only [List.nil_append, text, List.cons_append, List.nil_append, List.head?_cons, Option.mem_def,
          Option.some.injEq] at head
        subst head
        simp_all [(isDigit_isSpace_of_opToken op).1]

/-- A literal at the front is spelled from a space or a digit. -/
theorem Spaced.head_of_isLit {ls : List Lexeme} {s : List UInt8} (spelled : Spaced ls s)
    (lit : ls.head?.any Lexeme.isLit = true) : s.head?.any (fun c => isSpace c || isDigit c) = true := by
  cases spelled with
  | nil => simp at lit
  | @cons w s l ls spaces _ _ =>
    cases w with
    | cons c w => simp [spaces c List.mem_cons_self]
    | nil =>
      cases l with
      | lit d =>
        obtain ⟨c, ds, spells⟩ := List.exists_cons_of_ne_nil d.nonempty
        have := d.allDigits c (by rw [spells]; exact List.mem_cons_self)
        simp [Lexeme.text, spells, this]
      | _ => simp [Lexeme.isLit] at lit

theorem Spaced.cons_space {ls : List Lexeme} {s : List UInt8} (spelled : Spaced ls s) {c : UInt8}
    (space : isSpace c = true) : Spaced ls (c :: s) := by
  cases spelled with
  | nil spaces => exact .nil (List.forall_mem_cons.2 ⟨space, spaces⟩)
  | cons spaces rest apart => exact .cons (List.forall_mem_cons.2 ⟨space, spaces⟩) rest apart

theorem LitsFit.tail {l : Lexeme} {ls : List Lexeme} (fits : LitsFit (l :: ls)) : LitsFit ls :=
  fun d mem => fits d (List.mem_cons_of_mem l mem)

theorem LitsFit.of_subset {ls ls' : List Lexeme} (fits : LitsFit ls) (sub : ls' ⊆ ls) : LitsFit ls' :=
  fun d mem => fits d (sub mem)

theorem LitsFit.append {ls₁ ls₂ : List Lexeme} (fits₁ : LitsFit ls₁) (fits₂ : LitsFit ls₂) :
    LitsFit (ls₁ ++ ls₂) := by
  intro d mem
  rcases List.mem_append.1 mem with left | right
  · exact fits₁ d left
  · exact fits₂ d right

theorem LitsFit.cons {l : Lexeme} {ls : List Lexeme} (head : ∀ d, l = .lit d → d.value < 2 ^ 63)
    (fits : LitsFit ls) : LitsFit (l :: ls) := by
  intro d mem
  rcases List.mem_cons.1 mem with here | there
  · exact head d here.symm
  · exact fits d there

theorem LitsFit.nil : LitsFit [] := fun _ mem => nomatch mem

theorem LitsFit.cons_op {l : Lexeme} {ls : List Lexeme} (notLit : l.isLit = false) (fits : LitsFit ls) :
    LitsFit (l :: ls) :=
  LitsFit.cons (fun d same => by simp [same, Lexeme.isLit] at notLit) fits

/-- The tokenizer reads the lexemes a string spells. -/
theorem tokenizeFrom_spaced {ls : List Lexeme} {s : List UInt8} (spelled : Spaced ls s) (fits : LitsFit ls)
    (tokens : List Token) : tokenizeFrom s none tokens = some (tokens ++ ls.map Lexeme.token) := by
  induction spelled generalizing tokens with
  | @nil w spaces =>
    rw [← List.append_nil w, tokenizeFrom_spaces spaces]
    simp [tokenizeFrom, flush]
  | @cons w s l ls spaces rest apart ih =>
    rw [List.append_assoc, tokenizeFrom_spaces spaces]
    by_cases lit : l.isLit = true
    · obtain ⟨d, rfl⟩ : ∃ d, l = .lit d := by cases l <;> simp_all [Lexeme.isLit]
      -- a digit right after the literal would start another literal with no space between
      have ends : ∀ c ∈ s.head?, isDigit c = false := by
        intro c head
        by_contra digit
        have next := rest.isLit_of_isDigit c head (by simpa using digit)
        have space := apart lit next
        rw [Option.mem_def.1 head] at space
        simp_all [not_isDigit_of_isSpace (by simpa using space)]
      rw [Lexeme.text, tokenizeFrom_lit d ends, if_pos (fits d List.mem_cons_self), ih fits.tail]
      simp [Lexeme.token]
    · obtain ⟨c, text, op⟩ := opToken_text (by simpa using lit)
      rw [text, List.singleton_append, tokenizeFrom_op op, ih fits.tail]
      simp

/-- Whatever the tokenizer accepts is a spelling of lexemes, read as their tokens; by strong
induction on the bytes left. -/
theorem exists_spaced_of_tokenizeFrom :
    ∀ n (s : List UInt8), s.length ≤ n → ∀ tokens result, tokenizeFrom s none tokens = some result →
      ∃ ls, Spaced ls s ∧ LitsFit ls ∧ result = tokens ++ ls.map Lexeme.token := by
  intro n
  induction n with
  | zero =>
    intro s short tokens result ran
    rw [List.eq_nil_of_length_eq_zero (Nat.le_zero.1 short)] at ran ⊢
    simp only [tokenizeFrom, flush, Option.some.injEq] at ran
    exact ⟨[], .nil (by simp), fun _ mem => by simp at mem, by simp [ran]⟩
  | succ n ih =>
    intro s short tokens result ran
    cases s with
    | nil =>
      simp only [tokenizeFrom, flush, Option.some.injEq] at ran
      exact ⟨[], .nil (by simp), fun _ mem => by simp at mem, by simp [ran]⟩
    | cons c r =>
      by_cases digit : isDigit c = true
      · -- the longest run of digits is one literal
        let d : Literal := ⟨(c :: r).takeWhile isDigit, by simp [digit],
          fun c' mem => List.all_eq_true.1 List.all_takeWhile c' mem⟩
        set rest := (c :: r).dropWhile isDigit with rest_def
        have split : c :: r = d.digits ++ rest := (List.takeWhile_append_dropWhile).symm
        have ends : ∀ c' ∈ rest.head?, isDigit c' = false := by
          intro c' head
          have := List.head?_dropWhile_not isDigit (c :: r)
          rw [← rest_def, Option.mem_def.1 head] at this
          exact this
        have shorter : rest.length ≤ n := by
          have lengths := congrArg List.length split
          have := List.length_pos_iff.2 d.nonempty
          simp only [List.length_cons, List.length_append] at lengths short
          omega
        rw [split, tokenizeFrom_lit d ends] at ran
        split at ran
        · rename_i fits
          obtain ⟨ls, spelled, litsFit, result_eq⟩ := ih rest shorter _ result ran
          refine ⟨.lit d :: ls, ?_, LitsFit.cons (fun d' same => by cases same; exact fits) litsFit, ?_⟩
          · rw [split, ← List.nil_append d.digits]
            refine .cons (by simp) spelled fun _ next => ?_
            have := spelled.head_of_isLit next
            cases head : rest.head? with
            | none => simp [head] at this
            | some c' =>
              have notDigit := ends c' (by rw [head]; rfl)
              rw [head] at this
              simpa [notDigit] using this
          · rw [result_eq, List.map_cons, List.append_assoc]
            rfl
        · cases ran
      · by_cases space : isSpace c = true
        · rw [tokenizeFrom_space space] at ran
          obtain ⟨ls, spelled, litsFit, result_eq⟩ := ih r (by simpa using short) tokens result ran
          exact ⟨ls, spelled.cons_space space, litsFit, result_eq⟩
        · cases op : opToken c with
          | none =>
            rw [tokenizeFrom_of_not_isDigit (by simpa using digit), if_neg space, op] at ran
            cases ran
          | some token =>
            rw [tokenizeFrom_op op] at ran
            obtain ⟨ls, spelled, litsFit, result_eq⟩ := ih r (by simpa using short) _ result ran
            obtain ⟨l, notLit, text, token_eq⟩ := opToken_eq_some op
            refine ⟨l :: ls, ?_, LitsFit.cons (fun d same => by simp [same, Lexeme.isLit] at notLit) litsFit, ?_⟩
            · have spells : c :: r = [] ++ l.text ++ r := by simp [text]
              rw [spells]
              exact .cons (by simp) spelled fun lit => by simp [notLit] at lit
            · simp [result_eq, token_eq]

/-! ## The parser reads what derives, and nothing else -/

/-- The parser's entry for each phrase: `parse_expr`, `parse_term`, `parse_factor` and the two
loops entered with the value read so far. -/
def run : Phrase → Nat → List Token → Option (Int × List Token)
  | .expr, fuel, ts => parseExpr fuel ts
  | .term, fuel, ts => parseTerm fuel ts
  | .factor, fuel, ts => parseFactor fuel ts
  | .exprTail a, fuel, ts => exprLoop fuel a ts
  | .termTail a, fuel, ts => termLoop fuel a ts

theorem run_zero (p : Phrase) (ts : List Token) : run p 0 ts = none := by
  cases p <;> rfl

theorem checkedI64_eq_some {x y : Int} : checkedI64 x = some y ↔ InI64 x ∧ x = y := by
  unfold checkedI64 InI64
  split
  · rename_i inRange
    rw [Option.some.injEq]
    exact ⟨fun same => ⟨inRange, same⟩, And.right⟩
  · rename_i outside
    constructor
    · intro gone
      cases gone
    · intro inRange
      exact absurd inRange.1 outside

theorem checkedI64_of_inI64 {x : Int} (inRange : InI64 x) : checkedI64 x = some x := if_pos inRange

-- one equation for each arm of the descent that reads a token

theorem parseExpr_succ (fuel : Nat) (ts : List Token) :
    parseExpr (fuel + 1) ts = (parseTerm fuel ts).bind fun p => exprLoop fuel p.1 p.2 := rfl

theorem parseTerm_succ (fuel : Nat) (ts : List Token) :
    parseTerm (fuel + 1) ts = (parseFactor fuel ts).bind fun p => termLoop fuel p.1 p.2 := rfl

theorem exprLoop_plus (fuel : Nat) (a : Int) (ts : List Token) :
    exprLoop (fuel + 1) a (.plus :: ts) =
      (parseTerm fuel ts).bind fun p => (checkedAdd a p.1).bind fun c => exprLoop fuel c p.2 := rfl

theorem exprLoop_minus (fuel : Nat) (a : Int) (ts : List Token) :
    exprLoop (fuel + 1) a (.minus :: ts) =
      (parseTerm fuel ts).bind fun p => (checkedSub a p.1).bind fun c => exprLoop fuel c p.2 := rfl

theorem termLoop_mul (fuel : Nat) (a : Int) (ts : List Token) :
    termLoop (fuel + 1) a (.mul :: ts) =
      (parseFactor fuel ts).bind fun p => (checkedMul a p.1).bind fun c => termLoop fuel c p.2 := rfl

theorem termLoop_div (fuel : Nat) (a : Int) (ts : List Token) :
    termLoop (fuel + 1) a (.div :: ts) =
      (parseFactor fuel ts).bind fun p =>
        if p.1 = 0 then none else (checkedDiv a p.1).bind fun c => termLoop fuel c p.2 := rfl

theorem parseFactor_num (fuel : Nat) (n : Int) (ts : List Token) :
    parseFactor (fuel + 1) (.num n :: ts) = some (n, ts) := rfl

theorem parseFactor_minus (fuel : Nat) (ts : List Token) :
    parseFactor (fuel + 1) (.minus :: ts) =
      (parseFactor fuel ts).bind fun p => (checkedNeg p.1).bind fun c => some (c, p.2) := rfl

theorem parseFactor_lParen (fuel : Nat) (ts : List Token) :
    parseFactor (fuel + 1) (.lParen :: ts) =
      (parseExpr fuel ts).bind fun p =>
        match p.2 with
        | .rParen :: rest => some (p.1, rest)
        | _ => none := rfl

def Token.isAddOp : Token → Bool
  | .plus | .minus => true
  | _ => false

def Token.isMulOp : Token → Bool
  | .mul | .div => true
  | _ => false

theorem exprLoop_stop {ts : List Token} (stops : ∀ t ∈ ts.head?, t.isAddOp = false) (fuel : Nat) (a : Int) :
    exprLoop (fuel + 1) a ts = some (a, ts) :=
  exprLoop.eq_4 a ts fuel (fun _ starts => by simp [starts, Token.isAddOp] at stops)
    (fun _ starts => by simp [starts, Token.isAddOp] at stops)

theorem termLoop_stop {ts : List Token} (stops : ∀ t ∈ ts.head?, t.isMulOp = false) (fuel : Nat) (a : Int) :
    termLoop (fuel + 1) a ts = some (a, ts) :=
  termLoop.eq_4 a ts fuel (fun _ starts => by simp [starts, Token.isMulOp] at stops)
    (fun _ starts => by simp [starts, Token.isMulOp] at stops)

/-! ### Soundness: what the parser reads derives -/

/-- `run p fuel` reads a prefix of the tokens of `ls` that derives `p`, and leaves the tokens of
the rest. -/
def RunSound (fuel : Nat) (p : Phrase) : Prop :=
  ∀ (ls : List Lexeme) (v : Int) (rest : List Token), LitsFit ls → run p fuel (ls.map Lexeme.token) = some (v, rest) →
    ∃ ls₁ ls₂, ls = ls₁ ++ ls₂ ∧ rest = ls₂.map Lexeme.token ∧ Derives p ls₁ v

/-- Two phrases read one after the other. -/
theorem RunSound.append {fuel : Nat} {p q : Phrase} (first : RunSound fuel p) (second : RunSound fuel q)
    {ls : List Lexeme} {a v : Int} {mid rest : List Token} (fits : LitsFit ls)
    (ran₁ : run p fuel (ls.map Lexeme.token) = some (a, mid)) (ran₂ : run q fuel mid = some (v, rest)) :
    ∃ ls₁ ls₂ ls₃, ls = ls₁ ++ ls₂ ++ ls₃ ∧ rest = ls₃.map Lexeme.token ∧ Derives p ls₁ a ∧ Derives q ls₂ v := by
  obtain ⟨ls₁, ls', rfl, rfl, derives₁⟩ := first ls a mid fits ran₁
  obtain ⟨ls₂, ls₃, rfl, rfl, derives₂⟩ :=
    second ls' v rest (fits.of_subset (List.subset_append_right _ _)) ran₂
  exact ⟨ls₁, ls₂, ls₃, (List.append_assoc _ _ _).symm, rfl, derives₁, derives₂⟩

/-- A loop that meets a token it does not take reads nothing. -/
theorem RunSound.stop {ls : List Lexeme} {a v : Int} {rest : List Token} (ran : some (a,
    ls.map Lexeme.token) = some (v, rest))
    (p : Phrase) (ends : Derives p [] a) : ∃ ls₁ ls₂, ls = ls₁ ++ ls₂ ∧ rest = ls₂.map Lexeme.token ∧
        Derives p ls₁ v := by
  obtain ⟨rfl, rfl⟩ := Prod.mk.inj (Option.some.inj ran)
  exact ⟨[], ls, rfl, rfl, ends⟩

section Sound

variable {fuel : Nat} (ih : ∀ p, RunSound fuel p)
include ih

theorem RunSound.expr : RunSound (fuel + 1) .expr := by
  intro ls v rest fits ran
  obtain ⟨⟨a, mid⟩, termRan, tailRan⟩ := Option.bind_eq_some_iff.1 ran
  obtain ⟨ls₁, ls₂, ls₃, rfl, rfl, term, tail⟩ := (ih .term).append (ih (.exprTail a)) fits termRan tailRan
  exact ⟨ls₁ ++ ls₂, ls₃, rfl, rfl, .expr term tail⟩

theorem RunSound.term : RunSound (fuel + 1) .term := by
  intro ls v rest fits ran
  obtain ⟨⟨a, mid⟩, factorRan, tailRan⟩ := Option.bind_eq_some_iff.1 ran
  obtain ⟨ls₁, ls₂, ls₃, rfl, rfl, factor, tail⟩ := (ih .factor).append (ih (.termTail a)) fits factorRan tailRan
  exact ⟨ls₁ ++ ls₂, ls₃, rfl, rfl, .term factor tail⟩

theorem RunSound.exprTail (a : Int) : RunSound (fuel + 1) (.exprTail a) := by
  intro ls v rest fits ran
  cases ls with
  | nil => exact RunSound.stop ran _ .exprEnd
  | cons l ls =>
    simp only [run, List.map_cons] at ran
    -- only `+` and `-` go round the loop again
    cases l with
    | plus =>
      rw [Lexeme.token, exprLoop_plus] at ran
      obtain ⟨⟨b, mid⟩, termRan, next⟩ := Option.bind_eq_some_iff.1 ran
      obtain ⟨c, added, tailRan⟩ := Option.bind_eq_some_iff.1 next
      obtain ⟨inRange, rfl⟩ := checkedI64_eq_some.1 added
      obtain ⟨ls₁, ls₂, ls₃, rfl, rfl, term, tail⟩ := (ih .term).append (ih (.exprTail _)) fits.tail termRan tailRan
      exact ⟨.plus :: ls₁ ++ ls₂, ls₃, by simp, rfl, .add term inRange tail⟩
    | minus =>
      rw [Lexeme.token, exprLoop_minus] at ran
      obtain ⟨⟨b, mid⟩, termRan, next⟩ := Option.bind_eq_some_iff.1 ran
      obtain ⟨c, subtracted, tailRan⟩ := Option.bind_eq_some_iff.1 next
      obtain ⟨inRange, rfl⟩ := checkedI64_eq_some.1 subtracted
      obtain ⟨ls₁, ls₂, ls₃, rfl, rfl, term, tail⟩ := (ih .term).append (ih (.exprTail _)) fits.tail termRan tailRan
      exact ⟨.minus :: ls₁ ++ ls₂, ls₃, by simp, rfl, .sub term inRange tail⟩
    | _ =>
      rw [exprLoop_stop (by simp [Lexeme.token, Token.isAddOp])] at ran
      exact RunSound.stop ran _ .exprEnd

theorem RunSound.termTail (a : Int) : RunSound (fuel + 1) (.termTail a) := by
  intro ls v rest fits ran
  cases ls with
  | nil => exact RunSound.stop ran _ .termEnd
  | cons l ls =>
    simp only [run, List.map_cons] at ran
    -- only `*` and `/` go round the loop again
    cases l with
    | mul =>
      rw [Lexeme.token, termLoop_mul] at ran
      obtain ⟨⟨b, mid⟩, factorRan, next⟩ := Option.bind_eq_some_iff.1 ran
      obtain ⟨c, multiplied, tailRan⟩ := Option.bind_eq_some_iff.1 next
      obtain ⟨inRange, rfl⟩ := checkedI64_eq_some.1 multiplied
      obtain ⟨ls₁, ls₂, ls₃, rfl, rfl, factor, tail⟩ :=
        (ih .factor).append (ih (.termTail _)) fits.tail factorRan tailRan
      exact ⟨.mul :: ls₁ ++ ls₂, ls₃, by simp, rfl, .mul factor inRange tail⟩
    | div =>
      rw [Lexeme.token, termLoop_div] at ran
      obtain ⟨⟨b, mid⟩, factorRan, next⟩ := Option.bind_eq_some_iff.1 ran
      dsimp only at next
      -- a zero divisor ends the parse with no answer
      by_cases zero : b = 0
      · rw [if_pos zero] at next
        cases next
      rw [if_neg zero] at next
      obtain ⟨c, divided, tailRan⟩ := Option.bind_eq_some_iff.1 next
      rw [checkedDiv, if_neg zero] at divided
      obtain ⟨inRange, rfl⟩ := checkedI64_eq_some.1 divided
      obtain ⟨ls₁, ls₂, ls₃, rfl, rfl, factor, tail⟩ :=
        (ih .factor).append (ih (.termTail _)) fits.tail factorRan tailRan
      exact ⟨.div :: ls₁ ++ ls₂, ls₃, by simp, rfl, .div factor zero inRange tail⟩
    | _ =>
      rw [termLoop_stop (by simp [Lexeme.token, Token.isMulOp])] at ran
      exact RunSound.stop ran _ .termEnd

theorem RunSound.factor : RunSound (fuel + 1) .factor := by
  intro ls v rest fits ran
  cases ls with
  | nil => cases ran
  | cons l ls =>
    simp only [run, List.map_cons] at ran
    -- a literal, a unary minus or a parenthesis; any other token is an error
    cases l with
    | lit d =>
      rw [Lexeme.token, parseFactor_num] at ran
      obtain ⟨rfl, rfl⟩ := Prod.mk.inj (Option.some.inj ran)
      have small := fits d List.mem_cons_self
      exact ⟨[.lit d], ls, rfl, rfl, .lit d (by omega)⟩
    | minus =>
      rw [Lexeme.token, parseFactor_minus] at ran
      obtain ⟨⟨a, mid⟩, factorRan, next⟩ := Option.bind_eq_some_iff.1 ran
      obtain ⟨c, negated, same⟩ := Option.bind_eq_some_iff.1 next
      obtain ⟨inRange, rfl⟩ := checkedI64_eq_some.1 negated
      obtain ⟨rfl, rfl⟩ := Prod.mk.inj (Option.some.inj same)
      obtain ⟨ls₁, ls₂, rfl, rfl, factor⟩ := ih .factor ls a mid fits.tail factorRan
      exact ⟨.minus :: ls₁, ls₂, rfl, rfl, .neg factor inRange⟩
    | lParen =>
      rw [Lexeme.token, parseFactor_lParen] at ran
      obtain ⟨⟨a, mid⟩, exprRan, close⟩ := Option.bind_eq_some_iff.1 ran
      obtain ⟨ls₁, ls₂, rfl, rfl, expr⟩ := ih .expr ls a mid fits.tail exprRan
      -- the expression must be followed by `)`
      cases ls₂ with
      | nil => cases close
      | cons l ls₃ =>
        cases l with
        | rParen =>
          obtain ⟨rfl, rfl⟩ := Prod.mk.inj (Option.some.inj close)
          exact ⟨.lParen :: ls₁ ++ [.rParen], ls₃, by simp, rfl, .paren expr⟩
        | _ => cases close
    | _ => cases ran

end Sound

/-- Whatever the parser reads, at any fuel, derives. -/
theorem run_sound : ∀ fuel p, RunSound fuel p := by
  intro fuel
  induction fuel with
  | zero =>
    intro p ls v rest _ ran
    rw [run_zero] at ran
    cases ran
  | succ fuel ih =>
    intro p
    cases p with
    | expr => exact RunSound.expr ih
    | term => exact RunSound.term ih
    | factor => exact RunSound.factor ih
    | exprTail a => exact RunSound.exprTail ih a
    | termTail a => exact RunSound.termTail ih a

/-! ### Completeness: the parser reads every derivation, given the fuel `evaluate` gives it -/

/-- What may follow a phrase for the parser to stop where the phrase ends: no operator that its
loop, or a loop it ends inside, would take. -/
def Phrase.Stops : Phrase → List Token → Prop
  | .expr, ts | .exprTail _, ts => ∀ t ∈ ts.head?, t.isAddOp = false ∧ t.isMulOp = false
  | .term, ts | .termTail _, ts => ∀ t ∈ ts.head?, t.isMulOp = false
  | .factor, _ => True

/-- How many calls deep the parser goes below a phrase's entry before it reads a token. -/
def Phrase.depth : Phrase → Nat
  | .expr => 3
  | .term => 2
  | .factor | .exprTail _ | .termTail _ => 1

/-- After a term, the rest of an expression starts with `+` or `-`, or is what follows it. -/
theorem Derives.stops_term {a v : Int} {rest : List Lexeme} {outer : List Token}
    (tail : Derives (.exprTail a) rest v) (stops : Phrase.Stops (.exprTail a) outer) :
    Phrase.Stops .term (rest.map Lexeme.token ++ outer) := by
  intro t head
  cases tail with
  | exprEnd => exact (stops t head).2
  | add => simp only [List.map_cons, List.cons_append, List.head?_cons, Option.mem_def, Option.some.injEq] at head
           rw [← head]
           rfl
  | sub => simp only [List.map_cons, List.cons_append, List.head?_cons, Option.mem_def, Option.some.injEq] at head
           rw [← head]
           rfl

/-- A derivation keeps its literals in `i64`. -/
theorem Derives.litsFit {p : Phrase} {ls : List Lexeme} {v : Int} (derives : Derives p ls v) : LitsFit ls := by
  induction derives with
  | expr _ _ fits₁ fits₂ => exact fits₁.append fits₂
  | exprEnd => exact .nil
  | add _ _ _ fits₁ fits₂ => exact .cons_op rfl (fits₁.append fits₂)
  | sub _ _ _ fits₁ fits₂ => exact .cons_op rfl (fits₁.append fits₂)
  | term _ _ fits₁ fits₂ => exact fits₁.append fits₂
  | termEnd => exact .nil
  | mul _ _ _ fits₁ fits₂ => exact .cons_op rfl (fits₁.append fits₂)
  | div _ _ _ _ fits₁ fits₂ => exact .cons_op rfl (fits₁.append fits₂)
  | lit d small => exact .cons (fun d' same => by cases same; omega) .nil
  | neg _ _ fits => exact .cons_op rfl fits
  | paren _ fits => exact .cons_op rfl (fits.append (.cons_op rfl .nil))

/-- Every derivation is read by the parser, followed by any tokens it stops at, when the fuel
covers three calls per lexeme and the depth of the phrase; by induction on the derivation. -/
theorem run_complete {p : Phrase} {ls : List Lexeme} {v : Int} (derives : Derives p ls v) :
    ∀ (outer : List Token) (fuel : Nat), p.Stops outer → 3 * ls.length + p.depth ≤ fuel →
      run p fuel (ls.map Lexeme.token ++ outer) = some (v, outer) := by
  induction derives with
  | @expr ts rest a v _ tail ihTerm ihTail =>
    intro outer fuel stops enough
    simp only [List.length_append, Phrase.depth] at enough
    obtain ⟨f, rfl⟩ : ∃ f, fuel = f + 1 := ⟨fuel - 1, by omega⟩
    have termRan := ihTerm (rest.map Lexeme.token ++ outer) f (tail.stops_term stops) (by simp only [Phrase.depth]; omega)
    have tailRan := ihTail outer f stops (by simp only [Phrase.depth]; omega)
    simp only [run] at termRan tailRan ⊢
    rw [List.map_append, List.append_assoc, parseExpr_succ, termRan, Option.bind_some]
    exact tailRan
  | exprEnd =>
    intro outer fuel stops enough
    obtain ⟨f, rfl⟩ : ∃ f, fuel = f + 1 := ⟨fuel - 1, by simp only [Phrase.depth] at enough; omega⟩
    exact exprLoop_stop (fun t head => (stops t head).1) f _
  | @add ts rest a b v _ inRange tail ihTerm ihTail =>
    intro outer fuel stops enough
    simp only [List.length_cons, List.length_append, Phrase.depth] at enough
    obtain ⟨f, rfl⟩ : ∃ f, fuel = f + 1 := ⟨fuel - 1, by omega⟩
    have termRan := ihTerm (rest.map Lexeme.token ++ outer) f (tail.stops_term stops) (by simp only [Phrase.depth]; omega)
    have tailRan := ihTail outer f stops (by simp only [Phrase.depth]; omega)
    simp only [run] at termRan tailRan ⊢
    simp only [List.map_append, List.map_cons, List.cons_append, List.append_assoc]
    rw [Lexeme.token, exprLoop_plus, termRan, Option.bind_some]
    rw [checkedAdd, checkedI64_of_inI64 inRange, Option.bind_some]
    exact tailRan
  | @sub ts rest a b v _ inRange tail ihTerm ihTail =>
    intro outer fuel stops enough
    simp only [List.length_cons, List.length_append, Phrase.depth] at enough
    obtain ⟨f, rfl⟩ : ∃ f, fuel = f + 1 := ⟨fuel - 1, by omega⟩
    have termRan := ihTerm (rest.map Lexeme.token ++ outer) f (tail.stops_term stops) (by simp only [Phrase.depth]; omega)
    have tailRan := ihTail outer f stops (by simp only [Phrase.depth]; omega)
    simp only [run] at termRan tailRan ⊢
    simp only [List.map_append, List.map_cons, List.cons_append, List.append_assoc]
    rw [Lexeme.token, exprLoop_minus, termRan, Option.bind_some]
    rw [checkedSub, checkedI64_of_inI64 inRange, Option.bind_some]
    exact tailRan
  | @term ts rest a v _ _ ihFactor ihTail =>
    intro outer fuel stops enough
    simp only [List.length_append, Phrase.depth] at enough
    obtain ⟨f, rfl⟩ : ∃ f, fuel = f + 1 := ⟨fuel - 1, by omega⟩
    have factorRan := ihFactor (rest.map Lexeme.token ++ outer) f trivial (by simp only [Phrase.depth]; omega)
    have tailRan := ihTail outer f stops (by simp only [Phrase.depth]; omega)
    simp only [run] at factorRan tailRan ⊢
    rw [List.map_append, List.append_assoc, parseTerm_succ, factorRan, Option.bind_some]
    exact tailRan
  | termEnd =>
    intro outer fuel stops enough
    obtain ⟨f, rfl⟩ : ∃ f, fuel = f + 1 := ⟨fuel - 1, by simp only [Phrase.depth] at enough; omega⟩
    exact termLoop_stop stops f _
  | @mul ts rest a b v _ inRange _ ihFactor ihTail =>
    intro outer fuel stops enough
    simp only [List.length_cons, List.length_append, Phrase.depth] at enough
    obtain ⟨f, rfl⟩ : ∃ f, fuel = f + 1 := ⟨fuel - 1, by omega⟩
    have factorRan := ihFactor (rest.map Lexeme.token ++ outer) f trivial (by simp only [Phrase.depth]; omega)
    have tailRan := ihTail outer f stops (by simp only [Phrase.depth]; omega)
    simp only [run] at factorRan tailRan ⊢
    simp only [List.map_append, List.map_cons, List.cons_append, List.append_assoc]
    rw [Lexeme.token, termLoop_mul, factorRan, Option.bind_some]
    rw [checkedMul, checkedI64_of_inI64 inRange, Option.bind_some]
    exact tailRan
  | @div ts rest a b v _ nonzero inRange _ ihFactor ihTail =>
    intro outer fuel stops enough
    simp only [List.length_cons, List.length_append, Phrase.depth] at enough
    obtain ⟨f, rfl⟩ : ∃ f, fuel = f + 1 := ⟨fuel - 1, by omega⟩
    have factorRan := ihFactor (rest.map Lexeme.token ++ outer) f trivial (by simp only [Phrase.depth]; omega)
    have tailRan := ihTail outer f stops (by simp only [Phrase.depth]; omega)
    simp only [run] at factorRan tailRan ⊢
    simp only [List.map_append, List.map_cons, List.cons_append, List.append_assoc]
    rw [Lexeme.token, termLoop_div, factorRan, Option.bind_some]
    dsimp only
    rw [if_neg nonzero, checkedDiv, if_neg nonzero, checkedI64_of_inI64 inRange, Option.bind_some]
    exact tailRan
  | lit d _ =>
    intro outer fuel _ enough
    obtain ⟨f, rfl⟩ : ∃ f, fuel = f + 1 := ⟨fuel - 1, by simp only [Phrase.depth] at enough; omega⟩
    rfl
  | @neg ts a _ inRange ihFactor =>
    intro outer fuel _ enough
    simp only [List.length_cons, Phrase.depth] at enough
    obtain ⟨f, rfl⟩ : ∃ f, fuel = f + 1 := ⟨fuel - 1, by omega⟩
    have factorRan := ihFactor outer f trivial (by simp only [Phrase.depth]; omega)
    simp only [run] at factorRan ⊢
    rw [List.map_cons, List.cons_append, Lexeme.token, parseFactor_minus, factorRan, Option.bind_some]
    rw [checkedNeg, checkedI64_of_inI64 inRange, Option.bind_some]
  | @paren ts a _ ihExpr =>
    intro outer fuel _ enough
    simp only [List.length_cons, List.length_append, Phrase.depth] at enough
    obtain ⟨f, rfl⟩ : ∃ f, fuel = f + 1 := ⟨fuel - 1, by omega⟩
    -- the expression inside stops at the closing parenthesis
    have exprRan := ihExpr (.rParen :: outer) f (by simp [Phrase.Stops, Token.isAddOp, Token.isMulOp])
      (by simp only [Phrase.depth]; omega)
    simp only [run] at exprRan ⊢
    simp only [List.map_cons, List.map_append, List.map_nil, Lexeme.token, List.cons_append, List.append_assoc,
      List.nil_append]
    rw [parseFactor_lParen, exprRan, Option.bind_some]

/-! ## The calculator -/

theorem evaluate_eq (s : List UInt8) :
    evaluate s = (tokenize s).bind fun tokens =>
      (parseExpr (3 * tokens.length + 3) tokens).bind fun p => if p.2 = [] then some p.1 else none := rfl

/-- The calculator answers `v` exactly for the strings that spell a sentence of the grammar
whose value, kept within `i64` at every step, is `v`. -/
theorem evaluate_eq_some_iff_derives (s : List UInt8) (v : Int) :
    evaluate s = some v ↔ ∃ ls, Spaced ls s ∧ Derives .expr ls v := by
  rw [evaluate_eq]
  constructor
  · intro evaluated
    obtain ⟨tokens, tokenized, parsed⟩ := Option.bind_eq_some_iff.1 evaluated
    obtain ⟨ls, spelled, fits, rfl⟩ := exists_spaced_of_tokenizeFrom s.length s (Nat.le_refl _) [] tokens tokenized
    obtain ⟨⟨result, rest⟩, ran, finished⟩ := Option.bind_eq_some_iff.1 parsed
    dsimp only at finished
    split at finished
    · rename_i used
      obtain rfl := Option.some.inj finished
      rw [List.nil_append] at ran
      obtain ⟨ls₁, ls₂, rfl, rest_eq, derives⟩ :=
          run_sound (3 * (ls.map Lexeme.token).length + 3) .expr ls result rest fits ran
      -- every token is used, so the sentence is all of the lexemes
      rw [used, eq_comm, List.map_eq_nil_iff] at rest_eq
      subst rest_eq
      exact ⟨ls₁, by simpa using spelled, derives⟩
    · cases finished
  · rintro ⟨ls, spelled, derives⟩
    have tokenized : tokenize s = some (ls.map Lexeme.token) := by
      rw [tokenize, tokenizeFrom_spaced spelled derives.litsFit [], List.nil_append]
    have ran := run_complete derives [] (3 * (ls.map Lexeme.token).length + 3) (by simp [Phrase.Stops])
      (by simp [Phrase.depth])
    rw [List.append_nil] at ran
    rw [tokenized, Option.bind_some]
    rw [show parseExpr _ _ = _ from ran, Option.bind_some]
    rfl

/-- The literal `12`. -/
def twelve : Literal where
  digits := [0x31, 0x32]
  nonempty := List.cons_ne_nil _ _
  allDigits := fun c mem => by
    rcases List.mem_cons.1 mem with rfl | mem
    · rfl
    · rw [List.mem_singleton.1 mem]
      rfl

/-- Spaces are not ignored inside a number: `1 2` is `12` once its spaces are dropped, a sentence
worth 12, but the calculator reads two numbers and rejects the second. -/
theorem evaluate_rejects_spaced_digits :
    evaluate [0x31, 0x20, 0x32] = none ∧
      Spaced [.lit twelve] ([0x31, 0x20, 0x32].filter fun c => !isSpace c) ∧ Derives .expr [.lit twelve] 12 := by
  refine ⟨by decide, ?_, ?_⟩
  · have filtered : ([0x31, 0x20,
    0x32] : List UInt8).filter (fun c => !isSpace c) = [] ++ (Lexeme.lit twelve).text ++ [] := by
      decide
    rw [filtered]
    exact .cons (by simp) (.nil (by simp)) (by simp)
  · exact .expr (.term (.lit twelve (by decide)) .termEnd) .exprEnd

end Fullerene.Toluene
