import Mathlib.Data.Fin.Tuple.Basic
import Mathlib.Data.Fin.VecNotation
import Mathlib.Data.Fintype.Pi
import Mathlib.Data.List.GetD
import Mathlib.Tactic.FinCases

/-!
# AES-128 (FIPS-197) and AES key wrap (RFC 3394)

The cipher is written from the standard: a byte is an element of GF(2⁸),
multiplication by `x` is `xtime` (§4.2.1), the S-box is the affine map of
the multiplicative inverse (§5.1.1), byte `r + 4c` of a block is row `r`,
column `c` of the state (§3.4), and the key schedule yields a round key of
four words per round (§5.2).  Key wrap is RFC 3394 §2.2.1 over any 128-bit
block cipher.

Both inverse directions rest on `foldl_reverse_undo`: a run of steps is
undone by the reverse run of their inverses.  `allBytes` decides a property
of every byte, which is how the tables of an implementation are compared
with the algebra here.
-/

namespace Aes

/-- A 128-bit block, the cipher's input, output, state and round key. -/
abbrev Block := Fin 16 → UInt8

/-- A four-byte word: a column of the state or a word of the key schedule. -/
abbrev Word := Fin 4 → UInt8

/-- A 64-bit half block of key wrap. -/
abbrev Half := Fin 8 → UInt8

/-! ## Runs of steps and their inverses -/

section Undo

variable {σ τ α : Type*} (forward : σ → α → σ) (backward : τ → α → τ) (view : σ → τ)
  (good : σ → Prop)

/-- If `backward x` undoes `forward x` (seen through `view`) on states where `good` holds,
and every step keeps `good`, the reverse run of `backward` undoes the run of `forward`. -/
theorem foldl_reverse_undo (steps : List α)
    (keep : ∀ x ∈ steps, ∀ s, good s → good (forward s x))
    (undo : ∀ x ∈ steps, ∀ s, good s → backward (view (forward s x)) x = view s) :
    ∀ s, good s → steps.reverse.foldl backward (view (steps.foldl forward s)) = view s := by
  induction steps with
  | nil => intro s _; rfl
  | cons x rest ih =>
    intro s start
    have rest_undone := ih (fun y mem => keep y (List.mem_cons_of_mem x mem))
      (fun y mem => undo y (List.mem_cons_of_mem x mem)) (forward s x)
      (keep x List.mem_cons_self s start)
    rw [List.reverse_cons, List.foldl_append, List.foldl_cons, List.foldl_cons, List.foldl_nil, rest_undone]
    exact undo x List.mem_cons_self s start

end Undo

/-! ## Exhaustive checks over bytes -/

/-- `p` holds of all 256 bytes. -/
def allBytes (p : UInt8 → Bool) : Bool := (List.range 256).all fun n => p n.toUInt8

theorem allBytes_spec {p : UInt8 → Bool} (checked : allBytes p = true) (b : UInt8) : p b = true := by
  unfold allBytes at checked
  rw [List.all_eq_true] at checked
  have := checked b.toNat (List.mem_range.2 b.toNat_lt)
  simpa using this

/-! ## GF(2⁸) -/

/-- Multiplication by `x` modulo `x⁸ + x⁴ + x³ + x + 1` (§4.2.1). -/
def xtime (b : UInt8) : UInt8 := (b <<< 1) ^^^ (if b &&& 0x80 = 0 then 0 else 0x1B)

/-- `xtime` on the value of a byte, for the inverse below. -/
def xtimeValue (n : Nat) : Nat := (2 * n) % 256 ^^^ (if n < 128 then 0 else 0x1B)

/-- Both are multiplication by `x`. -/
example : ∀ b : Fin 256, (xtime b.val.toUInt8).toNat = xtimeValue b.val := by decide +kernel

/-- The product `a • b` of byte values over the `k` low bits of `b`: `b₀a ⊕ (x·a) • (b >> 1)`
(§4.2.1). -/
def mulBits : Nat → Nat → Nat → Nat
  | 0, _, _ => 0
  | k + 1, a, b => (if b % 2 = 1 then a else 0) ^^^ mulBits k (xtimeValue a) (b / 2)

def mul (a b : Nat) : Nat := mulBits 8 a b

/-- The multiplicative inverse `b⁻¹ = b²⁵⁴` (so `0 ↦ 0`), by an addition chain for 254. -/
def inv (b : Nat) : Nat :=
  let b2 := mul b b
  let b3 := mul b2 b
  let b6 := mul b3 b3
  let b12 := mul b6 b6
  let b15 := mul b12 b3
  let b30 := mul b15 b15
  let b60 := mul b30 b30
  let b63 := mul b60 b3
  let b126 := mul b63 b63
  let b127 := mul b126 b
  mul b127 b127

/-- The example of §4.2.1, and its inverse. -/
example : mul 0x57 0x83 = 0xC1 ∧ inv 0x53 = 0xCA := by decide +kernel

/-- `b` rotated left by `k` bits. -/
def rotl (b : UInt8) (k : UInt8) : UInt8 := (b <<< k) ||| (b >>> (8 - k))

/-- The affine transformation of §5.1.1: bit `i` of the result is
`bᵢ ⊕ bᵢ₊₄ ⊕ bᵢ₊₅ ⊕ bᵢ₊₆ ⊕ bᵢ₊₇ ⊕ cᵢ` with `c = 0x63`. -/
def affine (b : UInt8) : UInt8 := b ^^^ rotl b 1 ^^^ rotl b 2 ^^^ rotl b 3 ^^^ rotl b 4 ^^^ 0x63

def sbox (b : UInt8) : UInt8 := affine (inv b.toNat).toUInt8

/-- The example of §5.1.1. -/
example : sbox 0x53 = 0xED := rfl

theorem xor_and_distrib (a b c : UInt8) : (a ^^^ b) &&& c = (a &&& c) ^^^ (b &&& c) := by
  rw [← UInt8.toBitVec_inj, UInt8.toBitVec_and, UInt8.toBitVec_xor, UInt8.toBitVec_xor, UInt8.toBitVec_and,
    UInt8.toBitVec_and]
  ext i
  simp [Bool.and_xor_distrib_right]

theorem and_0x80 (a : UInt8) : a &&& 0x80 = 0 ∨ a &&& 0x80 = 0x80 := by
  have := allBytes_spec (p := fun a => a &&& 0x80 == 0 || a &&& 0x80 == 0x80) (by decide +kernel) a
  simpa using this

/-- `xtime` is additive: multiplication by `x` distributes over `⊕`. -/
theorem xtime_xor (a b : UInt8) : xtime (a ^^^ b) = xtime a ^^^ xtime b := by
  unfold xtime
  rw [xor_and_distrib, UInt8.shiftLeft_xor]
  have set : (0x80 : UInt8) ≠ 0 := by decide
  -- the reduction of a sum is the sum of the reductions: split on the two top bits
  rcases and_0x80 a with ha | ha <;> rcases and_0x80 b with hb | hb <;> rw [ha, hb]
  · simp
  · simp only [UInt8.zero_xor, if_pos, if_neg set, UInt8.xor_zero]
    ac_rfl
  · simp only [UInt8.xor_zero, if_pos, if_neg set]
    ac_rfl
  · simp only [UInt8.xor_self, if_pos, if_neg set]
    rw [UInt8.xor_zero, UInt8.xor_assoc, UInt8.xor_comm (b <<< 1) 27, ← UInt8.xor_assoc 27 27, UInt8.xor_self,
      UInt8.zero_xor]

/-! ## The state -/

/-- Row `r`, column `c` of the state is byte `r + 4c` of the block (§3.4). -/
def cell (r c : Fin 4) : Fin 16 := ⟨r.val + 4 * c.val, by omega⟩

def row (i : Fin 16) : Fin 4 := ⟨i.val % 4, by omega⟩

def column (i : Fin 16) : Fin 4 := ⟨i.val / 4, by omega⟩

@[simp] theorem row_cell (r c : Fin 4) : row (cell r c) = r := by
  ext
  simp only [row, cell]
  omega

@[simp] theorem column_cell (r c : Fin 4) : column (cell r c) = c := by
  ext
  simp only [column, cell]
  omega

@[simp] theorem cell_row_column (i : Fin 16) : cell (row i) (column i) = i := by
  ext
  simp only [row, column, cell]
  omega

/-- Column `c` of the state. -/
def columnOf (s : Block) (c : Fin 4) : Word := fun r => s (cell r c)

def xorWord (w v : Word) : Word := fun r => w r ^^^ v r

/-! ## The cipher (§5.1) -/

def subBytes (s : Block) : Block := fun i => sbox (s i)

/-- Row `r` is rotated left by `r` places (§5.1.2). -/
def shiftRows (s : Block) : Block := fun i => s (cell (row i) (column i + row i))

/-- `s'ᵣ = ({02} • sᵣ) ⊕ ({03} • sᵣ₊₁) ⊕ sᵣ₊₂ ⊕ sᵣ₊₃` (§5.1.3), with `{03} • b = xtime b ⊕ b`. -/
def mixColumn (w : Word) : Word := fun r =>
  xtime (w r) ^^^ (xtime (w (r + 1)) ^^^ w (r + 1)) ^^^ w (r + 2) ^^^ w (r + 3)

/-- The first column of round 1 of the cipher example in Appendix B. -/
example : mixColumn ![0xd4, 0xbf, 0x5d, 0x30] = ![0x04, 0x66, 0x81, 0xe5] := by decide +kernel

def mixColumns (s : Block) : Block := fun i => mixColumn (columnOf s (column i)) (row i)

def addRoundKey (s k : Block) : Block := fun i => s i ^^^ k i

/-! ## The key schedule (§5.2) -/

def subWord (w : Word) : Word := fun r => sbox (w r)

def rotWord (w : Word) : Word := fun r => w (r + 1)

/-- `x^i` in GF(2⁸): the first byte of `Rcon[i + 1]`. -/
def rc : Nat → UInt8
  | 0 => 1
  | i + 1 => xtime (rc i)

def rconWord (b : UInt8) : Word := ![b, 0, 0, 0]

/-- The words `w[4i] … w[4i + 3]` of round `i` from those of round `i - 1`: each is the word
four back `⊕` the word before it, which for the first goes through `RotWord`, `SubWord` and
`Rcon[i]`. -/
def expandRound (prev : Block) (rcon : UInt8) : Block :=
  let w0 := xorWord (columnOf prev 0) (xorWord (subWord (rotWord (columnOf prev 3))) (rconWord rcon))
  let w1 := xorWord (columnOf prev 1) w0
  let w2 := xorWord (columnOf prev 2) w1
  let w3 := xorWord (columnOf prev 3) w2
  fun i => ![w0, w1, w2, w3] (column i) (row i)

/-- Round key `i`: the key itself, then one `expandRound` per round. -/
def roundKey (key : Block) : Nat → Block
  | 0 => key
  | i + 1 => expandRound (roundKey key i) (rc i)

/-- `w[4] … w[7]` of the expansion example in Appendix A.1. -/
example : roundKey ![0x2b, 0x7e, 0x15, 0x16, 0x28, 0xae, 0xd2, 0xa6, 0xab, 0xf7, 0x15, 0x88, 0x09, 0xcf, 0x4f, 0x3c] 1 =
    ![0xa0, 0xfa, 0xfe, 0x17, 0x88, 0x54, 0x2c, 0xb1, 0x23, 0xa3, 0x39, 0x39, 0x2a, 0x6c, 0x76, 0x05] := by
  decide +kernel

/-- `Cipher` for `Nr = 10`. -/
def cipher (key input : Block) : Block :=
  let state := addRoundKey input (roundKey key 0)
  let state := (List.range' 1 9).foldl (fun state round =>
    addRoundKey (mixColumns (shiftRows (subBytes state))) (roundKey key round)) state
  addRoundKey (shiftRows (subBytes state)) (roundKey key 10)

/-- `MixColumns` is additive on a column. -/
theorem mixColumn_xor (w v : Word) : mixColumn (xorWord w v) = xorWord (mixColumn w) (mixColumn v) := by
  funext r
  simp only [mixColumn, xorWord, xtime_xor]
  ac_rfl

/-! ## Additive maps on bytes -/

/-- The eight one-bit bytes. -/
def bits : List UInt8 := [1, 2, 4, 8, 16, 32, 64, 128]

/-- A byte is the `⊕` of its bits. -/
theorem eq_xor_bits (x : UInt8) :
    x = (x &&& 1) ^^^ (x &&& 2) ^^^ (x &&& 4) ^^^ (x &&& 8) ^^^ (x &&& 16) ^^^ (x &&& 32) ^^^ (x &&& 64) ^^^
      (x &&& 128) := by
  have := allBytes_spec (p := fun x => x == (x &&& 1) ^^^ (x &&& 2) ^^^ (x &&& 4) ^^^ (x &&& 8) ^^^ (x &&& 16) ^^^
    (x &&& 32) ^^^ (x &&& 64) ^^^ (x &&& 128)) (by decide +kernel) x
  simpa using this

theorem and_bit {m : UInt8} (bit : m ∈ bits) (x : UInt8) : x &&& m = 0 ∨ x &&& m = m := by
  have := allBytes_spec (p := fun x => bits.all fun m => x &&& m == 0 || x &&& m == m) (by decide +kernel) x
  simpa using List.all_eq_true.1 this m bit

theorem eq_zero_of_additive {f : UInt8 → Word} (additive : ∀ x y, f (x ^^^ y) = xorWord (f x) (f y)) :
    f 0 = fun _ => 0 := by
  funext r
  have twice := congrFun (additive 0 0) r
  rw [UInt8.xor_self] at twice
  -- `f 0 r = f 0 r ⊕ f 0 r`, and the right side is zero
  simpa only [xorWord, UInt8.xor_self] using twice

/-- Two additive maps from bytes to words that agree on the eight one-bit bytes agree. -/
theorem additive_ext {f g : UInt8 → Word} (hf : ∀ x y, f (x ^^^ y) = xorWord (f x) (f y))
    (hg : ∀ x y, g (x ^^^ y) = xorWord (g x) (g y)) (agree : ∀ m ∈ bits, f m = g m) (x : UInt8) : f x = g x := by
  have masked : ∀ m ∈ bits, f (x &&& m) = g (x &&& m) := by
    intro m bit
    rcases and_bit bit x with cleared | kept
    · rw [cleared, eq_zero_of_additive hf, eq_zero_of_additive hg]
    · rw [kept]
      exact agree m bit
  rw [eq_xor_bits x]
  simp only [hf, hg]
  simp only [bits, List.mem_cons, List.not_mem_nil, or_false, forall_eq_or_imp, forall_eq] at masked
  obtain ⟨m1, m2, m4, m8, m16, m32, m64, m128⟩ := masked
  rw [m1, m2, m4, m8, m16, m32, m64, m128]

/-! ## Key wrap (RFC 3394 §2.2.1) -/

/-- The default initial value `A6A6A6A6A6A6A6A6` (§2.2.3.1). -/
def defaultIv : Half := fun _ => 0xA6

/-- The 64-bit big-endian encoding of `t`. -/
def counter (t : UInt64) : Half := fun k => (t >>> (8 * (7 - k.val)).toUInt64).toUInt8

/-- The steps `(j, i)` of the wrapping loops, `j` outer: step `(j, i)` uses `t = n·j + i + 1`. -/
def steps (n : Nat) : List (Nat × Nat) := (List.range 6).flatMap fun j => (List.range n).map fun i => (j, i)

theorem lt_of_mem_steps {n : Nat} {step : Nat × Nat} (mem : step ∈ steps n) : step.2 < n := by
  simp only [steps, List.mem_flatMap, List.mem_map, List.mem_range] at mem
  obtain ⟨j, _, i, inside, rfl⟩ := mem
  exact inside

/-- `B = AES(K, A | R[i])`, `A = MSB(64, B) ⊕ t`, `R[i] = LSB(64, B)`. -/
def wrapStep (encrypt : Block → Block) (n : Nat) (state : Half × List Half) (step : Nat × Nat) :
    Half × List Half :=
  let b := encrypt (Fin.append state.1 (state.2.getD step.2 fun _ => 0))
  (fun k => b (Fin.castAdd 8 k) ^^^ counter (n * step.1 + step.2 + 1).toUInt64 k,
    state.2.set step.2 fun k => b (Fin.natAdd 8 k))

def wrap (encrypt : Block → Block) (iv : Half) (plain : List Half) : Half × List Half :=
  (steps plain.length).foldl (wrapStep encrypt plain.length) (iv, plain)

/-- The octets `C₀ | C₁ | ⋯ | Cₙ` of a wrapped key. -/
def octets (state : Half × List Half) : List UInt8 := List.ofFn state.1 ++ state.2.flatMap List.ofFn

def wrapBytes (encrypt : Block → Block) (iv : Half) (plain : List Half) : List UInt8 :=
  octets (wrap encrypt iv plain)

theorem length_octets (state : Half × List Half) : (octets state).length = 8 + 8 * state.2.length := by
  simp [octets, List.length_flatMap]
  omega

theorem getD_flatMap_ofFn (halves : List Half) {i : Nat} (inside : i < halves.length) (k : Fin 8) :
    (halves.flatMap List.ofFn).getD (i * 8 + k) 0 = halves[i] k := by
  induction halves generalizing i with
  | nil => simp at inside
  | cons first rest ih =>
    rw [List.flatMap_cons]
    cases i with
    | zero =>
      rw [List.getD_append _ _ _ _ (by simp), List.getD_eq_getElem _ _ (by simp), List.getElem_ofFn]
      simp
    | succ i =>
      rw [List.getD_append_right _ _ _ _ (by simp; omega), List.length_ofFn,
        show (i + 1) * 8 + k - 8 = i * 8 + k by omega]
      exact ih (by simpa using inside)

/-- `C₀` is the first eight octets. -/
theorem getD_octets_zero (state : Half × List Half) (k : Fin 8) : (octets state).getD k 0 = state.1 k := by
  rw [octets, List.getD_append _ _ _ _ (by simp), List.getD_eq_getElem _ _ (by simp), List.getElem_ofFn]

/-- `Cᵢ₊₁` is the eight octets at `8(i + 1)`. -/
theorem getD_octets_succ (state : Half × List Half) {i : Nat} (inside : i < state.2.length) (k : Fin 8) :
    (octets state).getD ((i + 1) * 8 + k) 0 = state.2[i] k := by
  rw [octets, List.getD_append_right _ _ _ _ (by simp; omega), List.length_ofFn,
    show (i + 1) * 8 + k - 8 = i * 8 + k by omega]
  exact getD_flatMap_ofFn state.2 inside k

theorem length_wrapStep (encrypt : Block → Block) (n : Nat) (state : Half × List Half) (step : Nat × Nat) :
    (wrapStep encrypt n state step).2.length = state.2.length :=
  List.length_set

theorem length_wrap (encrypt : Block → Block) (iv : Half) (plain : List Half) :
    (wrap encrypt iv plain).2.length = plain.length := by
  unfold wrap
  -- every step rewrites one half in place
  have kept : ∀ (run : List (Nat × Nat)) (state : Half × List Half),
      (run.foldl (wrapStep encrypt plain.length) state).2.length = state.2.length := by
    intro run
    induction run with
    | nil => intro state; rfl
    | cons step rest ih =>
      intro state
      rw [List.foldl_cons, ih, length_wrapStep]
  exact kept _ _

end Aes
