import Mathlib

/-!
# The Toluene calculator

`evaluate` tokenizes a byte string (whitespace skipped, a run of digits read
into an `i64` with checked arithmetic, six operator bytes) and parses the
tokens by recursive descent: `parse_expr` and `parse_term` are loops over
`+`/`-` and `*`/`/` around `parse_term` and `parse_factor`, `parse_factor`
reads a number, a unary minus or a parenthesised expression.  Every
operation is a checked `i64` operation; a failed one, a zero divisor, a
missing token or a token left over makes the answer `None`.

`i64` values are integers with an explicit range check.  The source indexes
the token slice; the parser here takes the tokens from the current position
on, and the recursion is given `fuel` (three calls per token at most, which
`Grammar` shows is always enough).
-/

namespace Fullerene.Toluene

/-! ## Checked `i64` arithmetic -/

/-- `Some x` when `x` is an `i64`. -/
def checkedI64 (x : Int) : Option Int := if -2 ^ 63 ≤ x ∧ x < 2 ^ 63 then some x else none

def checkedAdd (a b : Int) : Option Int := checkedI64 (a + b)

def checkedSub (a b : Int) : Option Int := checkedI64 (a - b)

def checkedMul (a b : Int) : Option Int := checkedI64 (a * b)

def checkedNeg (a : Int) : Option Int := checkedI64 (-a)

/-- `i64::checked_div`: `None` for a zero divisor or `i64::MIN / -1`; the quotient truncates
toward zero. -/
def checkedDiv (a b : Int) : Option Int := if b = 0 then none else checkedI64 (a.tdiv b)

/-! ## Tokens -/

inductive Token
  | num (n : Int)
  | plus
  | minus
  | mul
  | div
  | lParen
  | rParen
  deriving DecidableEq, Repr

/-- `b'0'..=b'9'`. -/
def isDigit (b : UInt8) : Bool := 0x30 ≤ b && b ≤ 0x39

/-- `b' ' | b'\t' | b'\n' | b'\r'`. -/
def isSpace (b : UInt8) : Bool := b == 0x20 || b == 0x09 || b == 0x0A || b == 0x0D

/-- The six arms of `tokenize` that push one token for one byte. -/
def opToken (b : UInt8) : Option Token :=
  if b = 0x2B then some .plus
  else if b = 0x2D then some .minus
  else if b = 0x2A then some .mul
  else if b = 0x2F then some .div
  else if b = 0x28 then some .lParen
  else if b = 0x29 then some .rParen
  else none

/-- The number read so far, pushed when the digit loop ends. -/
def flush : Option Int → List Token → List Token
  | none, tokens => tokens
  | some val, tokens => tokens ++ [.num val]

/-- The scan of `tokenize` over the bytes left; `pending` is the value of the digits read so far
while inside the inner digit loop. -/
def tokenizeFrom : List UInt8 → Option Int → List Token → Option (List Token)
  | [], pending, tokens => some (flush pending tokens)
  | ch :: rest, pending, tokens =>
    if isDigit ch then
      -- one pass of `val = val.checked_mul(10)?.checked_add(digit)?`, from 0 on the first digit
      match (checkedMul (pending.getD 0) 10).bind fun v => checkedAdd v (ch - 0x30).toNat with
      | none => none
      | some val => tokenizeFrom rest (some val) tokens
    else
      -- the digit loop, if it ran, ends before `ch`, which the outer loop reads
      let tokens := flush pending tokens
      if isSpace ch then tokenizeFrom rest none tokens
      else
        match opToken ch with
        | some token => tokenizeFrom rest none (tokens ++ [token])
        | none => none

def tokenize (expr : List UInt8) : Option (List Token) := tokenizeFrom expr none []

/-! ## The parser -/

mutual

/-- `parse_expr`. -/
def parseExpr : Nat → List Token → Option (Int × List Token)
  | 0, _ => none
  | fuel + 1, tokens => do
    let (left, rest) ← parseTerm fuel tokens
    exprLoop fuel left rest

/-- The `while` loop of `parse_expr`. -/
def exprLoop : Nat → Int → List Token → Option (Int × List Token)
  | 0, _, _ => none
  | fuel + 1, left, .plus :: rest => do
    let (right, rest) ← parseTerm fuel rest
    let left ← checkedAdd left right
    exprLoop fuel left rest
  | fuel + 1, left, .minus :: rest => do
    let (right, rest) ← parseTerm fuel rest
    let left ← checkedSub left right
    exprLoop fuel left rest
  | _ + 1, left, rest => some (left, rest)

/-- `parse_term`. -/
def parseTerm : Nat → List Token → Option (Int × List Token)
  | 0, _ => none
  | fuel + 1, tokens => do
    let (left, rest) ← parseFactor fuel tokens
    termLoop fuel left rest

/-- The `while` loop of `parse_term`. -/
def termLoop : Nat → Int → List Token → Option (Int × List Token)
  | 0, _, _ => none
  | fuel + 1, left, .mul :: rest => do
    let (right, rest) ← parseFactor fuel rest
    let left ← checkedMul left right
    termLoop fuel left rest
  | fuel + 1, left, .div :: rest => do
    let (right, rest) ← parseFactor fuel rest
    if right = 0 then none
    let left ← checkedDiv left right
    termLoop fuel left rest
  | _ + 1, left, rest => some (left, rest)

/-- `parse_factor`. -/
def parseFactor : Nat → List Token → Option (Int × List Token)
  | 0, _ => none
  | _ + 1, [] => none
  | _ + 1, .num n :: rest => some (n, rest)
  | fuel + 1, .minus :: rest => do
    let (val, rest) ← parseFactor fuel rest
    let val ← checkedNeg val
    some (val, rest)
  | fuel + 1, .lParen :: rest => do
    let (val, rest) ← parseExpr fuel rest
    match rest with
    | .rParen :: rest => some (val, rest)
    | _ => none
  | _ + 1, _ :: _ => none

end

/-- `evaluate`: the tokens must all be used. -/
def evaluate (expr : List UInt8) : Option Int := do
  let tokens ← tokenize expr
  let (result, rest) ← parseExpr (3 * tokens.length + 3) tokens
  if rest = [] then some result else none

/-- The tests of `calc.rs`: `2+3*4`, `(2+3)*4`, `-5+3` and `5/0`. -/
example : evaluate [0x32, 0x2B, 0x33, 0x2A, 0x34] = some 14 ∧ evaluate [0x28, 0x32, 0x2B, 0x33, 0x29, 0x2A,
    0x34] = some 20 ∧
    evaluate [0x2D, 0x35, 0x2B, 0x33] = some (-2) ∧ evaluate [0x35, 0x2F, 0x30] = none := by decide

end Fullerene.Toluene
