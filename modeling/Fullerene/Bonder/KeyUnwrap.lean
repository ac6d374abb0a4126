import Mathlib
import Fullerene.Lib.Aes

/-!
# AES key unwrap of the WPA supplicant

`aes_key_unwrap` opens the key data of EAPOL message 3: RFC 3394 unwrapping
with the default IV, over the file's own AES-128 decryption.  That one is
written by hand: `aes_key_expansion` with the table `AES_SBOX`,
`aes_inv_shift_rows` as a table of source positions, `aes_inv_sub_bytes`
with `AES_INV_SBOX`, and `aes_inv_mix_columns` over the bitwise `gf_mul`.

The tables agree with the algebra of FIPS-197 (`aesSbox_eq`,
`aesInvSbox_sbox`, `rcon_eq`), the key schedule is the standard one
(`aesKeyExpansion_eq`), and each inverse step undoes its forward step; so
`aes_decrypt_block` inverts AES-128, and unwrapping gives back every key the
standard wrap produced.
-/

namespace Fullerene.Bonder

namespace Wpa

open Aes

/-- The instance behind the row numerals `0 … 3` of this file, by name. -/
local instance fourNeZero : NeZero 4 := ⟨by decide⟩

/-! ## The block decryption -/

/-- `AES_SBOX`. -/
def aesSbox : List UInt8 := [
  0x63, 0x7C, 0x77, 0x7B, 0xF2, 0x6B, 0x6F, 0xC5, 0x30, 0x01, 0x67, 0x2B, 0xFE, 0xD7, 0xAB, 0x76,
  0xCA, 0x82, 0xC9, 0x7D, 0xFA, 0x59, 0x47, 0xF0, 0xAD, 0xD4, 0xA2, 0xAF, 0x9C, 0xA4, 0x72, 0xC0,
  0xB7, 0xFD, 0x93, 0x26, 0x36, 0x3F, 0xF7, 0xCC, 0x34, 0xA5, 0xE5, 0xF1, 0x71, 0xD8, 0x31, 0x15,
  0x04, 0xC7, 0x23, 0xC3, 0x18, 0x96, 0x05, 0x9A, 0x07, 0x12, 0x80, 0xE2, 0xEB, 0x27, 0xB2, 0x75,
  0x09, 0x83, 0x2C, 0x1A, 0x1B, 0x6E, 0x5A, 0xA0, 0x52, 0x3B, 0xD6, 0xB3, 0x29, 0xE3, 0x2F, 0x84,
  0x53, 0xD1, 0x00, 0xED, 0x20, 0xFC, 0xB1, 0x5B, 0x6A, 0xCB, 0xBE, 0x39, 0x4A, 0x4C, 0x58, 0xCF,
  0xD0, 0xEF, 0xAA, 0xFB, 0x43, 0x4D, 0x33, 0x85, 0x45, 0xF9, 0x02, 0x7F, 0x50, 0x3C, 0x9F, 0xA8,
  0x51, 0xA3, 0x40, 0x8F, 0x92, 0x9D, 0x38, 0xF5, 0xBC, 0xB6, 0xDA, 0x21, 0x10, 0xFF, 0xF3, 0xD2,
  0xCD, 0x0C, 0x13, 0xEC, 0x5F, 0x97, 0x44, 0x17, 0xC4, 0xA7, 0x7E, 0x3D, 0x64, 0x5D, 0x19, 0x73,
  0x60, 0x81, 0x4F, 0xDC, 0x22, 0x2A, 0x90, 0x88, 0x46, 0xEE, 0xB8, 0x14, 0xDE, 0x5E, 0x0B, 0xDB,
  0xE0, 0x32, 0x3A, 0x0A, 0x49, 0x06, 0x24, 0x5C, 0xC2, 0xD3, 0xAC, 0x62, 0x91, 0x95, 0xE4, 0x79,
  0xE7, 0xC8, 0x37, 0x6D, 0x8D, 0xD5, 0x4E, 0xA9, 0x6C, 0x56, 0xF4, 0xEA, 0x65, 0x7A, 0xAE, 0x08,
  0xBA, 0x78, 0x25, 0x2E, 0x1C, 0xA6, 0xB4, 0xC6, 0xE8, 0xDD, 0x74, 0x1F, 0x4B, 0xBD, 0x8B, 0x8A,
  0x70, 0x3E, 0xB5, 0x66, 0x48, 0x03, 0xF6, 0x0E, 0x61, 0x35, 0x57, 0xB9, 0x86, 0xC1, 0x1D, 0x9E,
  0xE1, 0xF8, 0x98, 0x11, 0x69, 0xD9, 0x8E, 0x94, 0x9B, 0x1E, 0x87, 0xE9, 0xCE, 0x55, 0x28, 0xDF,
  0x8C, 0xA1, 0x89, 0x0D, 0xBF, 0xE6, 0x42, 0x68, 0x41, 0x99, 0x2D, 0x0F, 0xB0, 0x54, 0xBB, 0x16]

/-- `AES_INV_SBOX`. -/
def aesInvSbox : List UInt8 := [
  0x52, 0x09, 0x6A, 0xD5, 0x30, 0x36, 0xA5, 0x38, 0xBF, 0x40, 0xA3, 0x9E, 0x81, 0xF3, 0xD7, 0xFB,
  0x7C, 0xE3, 0x39, 0x82, 0x9B, 0x2F, 0xFF, 0x87, 0x34, 0x8E, 0x43, 0x44, 0xC4, 0xDE, 0xE9, 0xCB,
  0x54, 0x7B, 0x94, 0x32, 0xA6, 0xC2, 0x23, 0x3D, 0xEE, 0x4C, 0x95, 0x0B, 0x42, 0xFA, 0xC3, 0x4E,
  0x08, 0x2E, 0xA1, 0x66, 0x28, 0xD9, 0x24, 0xB2, 0x76, 0x5B, 0xA2, 0x49, 0x6D, 0x8B, 0xD1, 0x25,
  0x72, 0xF8, 0xF6, 0x64, 0x86, 0x68, 0x98, 0x16, 0xD4, 0xA4, 0x5C, 0xCC, 0x5D, 0x65, 0xB6, 0x92,
  0x6C, 0x70, 0x48, 0x50, 0xFD, 0xED, 0xB9, 0xDA, 0x5E, 0x15, 0x46, 0x57, 0xA7, 0x8D, 0x9D, 0x84,
  0x90, 0xD8, 0xAB, 0x00, 0x8C, 0xBC, 0xD3, 0x0A, 0xF7, 0xE4, 0x58, 0x05, 0xB8, 0xB3, 0x45, 0x06,
  0xD0, 0x2C, 0x1E, 0x8F, 0xCA, 0x3F, 0x0F, 0x02, 0xC1, 0xAF, 0xBD, 0x03, 0x01, 0x13, 0x8A, 0x6B,
  0x3A, 0x91, 0x11, 0x41, 0x4F, 0x67, 0xDC, 0xEA, 0x97, 0xF2, 0xCF, 0xCE, 0xF0, 0xB4, 0xE6, 0x73,
  0x96, 0xAC, 0x74, 0x22, 0xE7, 0xAD, 0x35, 0x85, 0xE2, 0xF9, 0x37, 0xE8, 0x1C, 0x75, 0xDF, 0x6E,
  0x47, 0xF1, 0x1A, 0x71, 0x1D, 0x29, 0xC5, 0x89, 0x6F, 0xB7, 0x62, 0x0E, 0xAA, 0x18, 0xBE, 0x1B,
  0xFC, 0x56, 0x3E, 0x4B, 0xC6, 0xD2, 0x79, 0x20, 0x9A, 0xDB, 0xC0, 0xFE, 0x78, 0xCD, 0x5A, 0xF4,
  0x1F, 0xDD, 0xA8, 0x33, 0x88, 0x07, 0xC7, 0x31, 0xB1, 0x12, 0x10, 0x59, 0x27, 0x80, 0xEC, 0x5F,
  0x60, 0x51, 0x7F, 0xA9, 0x19, 0xB5, 0x4A, 0x0D, 0x2D, 0xE5, 0x7A, 0x9F, 0x93, 0xC9, 0x9C, 0xEF,
  0xA0, 0xE0, 0x3B, 0x4D, 0xAE, 0x2A, 0xF5, 0xB0, 0xC8, 0xEB, 0xBB, 0x3C, 0x83, 0x53, 0x99, 0x61,
  0x17, 0x2B, 0x04, 0x7E, 0xBA, 0x77, 0xD6, 0x26, 0xE1, 0x69, 0x14, 0x63, 0x55, 0x21, 0x0C, 0x7D]

def aesAddRoundKey (state roundKey : Block) : Block := fun i => state i ^^^ roundKey i

def aesInvSubBytes (state : Block) : Block := fun i => aesInvSbox.getD (state i).toNat 0

/-- Where `aes_inv_shift_rows` takes byte `i` from: `state[i] = tmp[invShiftRowsFrom i]`. -/
def invShiftRowsFrom : Fin 16 → Fin 16 := ![0, 13, 10, 7, 4, 1, 14, 11, 8, 5, 2, 15, 12, 9, 6, 3]

def aesInvShiftRows (state : Block) : Block := fun i => state (invShiftRowsFrom i)

/-- The eight passes of the loop of `gf_mul`, on the running `a`, `b` and `p`. -/
def gfMulLoop : Nat → UInt8 → UInt8 → UInt8 → UInt8
  | 0, _, _, p => p
  | n + 1, a, b, p =>
    let p := if b &&& 1 != 0 then p ^^^ a else p
    let hiBitSet := a &&& 0x80 != 0
    let a := a <<< 1
    let a := if hiBitSet then a ^^^ 0x1B else a
    gfMulLoop n a (b >>> 1) p

def gfMul (a b : UInt8) : UInt8 := gfMulLoop 8 a b 0

/-- One pass of the loop of `aes_inv_mix_columns`, on the column `s0 … s3`. -/
def invMixColumn (s0 s1 s2 s3 : UInt8) : Word := ![
  gfMul s0 0x0e ^^^ gfMul s1 0x0b ^^^ gfMul s2 0x0d ^^^ gfMul s3 0x09,
  gfMul s0 0x09 ^^^ gfMul s1 0x0e ^^^ gfMul s2 0x0b ^^^ gfMul s3 0x0d,
  gfMul s0 0x0d ^^^ gfMul s1 0x09 ^^^ gfMul s2 0x0e ^^^ gfMul s3 0x0b,
  gfMul s0 0x0b ^^^ gfMul s1 0x0d ^^^ gfMul s2 0x09 ^^^ gfMul s3 0x0e]

/-- Pass `i` of the loop reads and writes only bytes `4i … 4i + 3`, so the passes are
independent and each column is rewritten from its own old bytes. -/
def aesInvMixColumns (state : Block) : Block := fun i =>
  let c := column i
  invMixColumn (state (cell 0 c)) (state (cell 1 c)) (state (cell 2 c)) (state (cell 3 c)) (row i)

/-- `rcon` of `aes_key_expansion`. -/
def rcon : List UInt8 := [0x01, 0x02, 0x04, 0x08, 0x10, 0x20, 0x40, 0x80, 0x1B, 0x36]

/-- The body of the loop of `aes_key_expansion`: round key `i` from round key `i - 1` and
`rcon[i - 1]`. -/
def expandRoundKey (prev : Block) (rconByte : UInt8) : Block :=
  -- `temp` is `prev[12..16]` rotated left by one, substituted, with `rcon` in its first byte
  let temp : Word := fun j => aesSbox.getD (prev (cell (j + 1) 3)).toNat 0
  let temp := Function.update temp 0 (temp 0 ^^^ rconByte)
  -- the four loops over `j`: `prev[j] ^ temp[j]`, then `prev[j] ^ round_keys[i][j - 4]`
  let w0 : Word := fun j => prev (cell j 0) ^^^ temp j
  let w1 : Word := fun j => prev (cell j 1) ^^^ w0 j
  let w2 : Word := fun j => prev (cell j 2) ^^^ w1 j
  let w3 : Word := fun j => prev (cell j 3) ^^^ w2 j
  fun i => ![w0, w1, w2, w3] (column i) (row i)

/-- Entry `i` of the array `round_keys`, which the source reads at `0 … 10`. -/
def aesKeyExpansion (key : Block) : Nat → Block
  | 0 => key
  | i + 1 => expandRoundKey (aesKeyExpansion key i) (rcon.getD i 0)

def aesDecryptBlock (key ciphertext : Block) : Block :=
  let roundKeys := aesKeyExpansion key
  let state := aesAddRoundKey ciphertext (roundKeys 10)
  let state := (List.range' 1 9).reverse.foldl (fun state round =>
    aesInvMixColumns (aesAddRoundKey (aesInvSubBytes (aesInvShiftRows state)) (roundKeys round))) state
  aesAddRoundKey (aesInvSubBytes (aesInvShiftRows state)) (roundKeys 0)

/-! ## The unwrap -/

/-- `ciphertext[i * 8..(i + 1) * 8]`. -/
def chunk (bytes : List UInt8) (i : Nat) : Half := fun k => bytes.getD (i * 8 + k) 0

/-- `for k in 0..8 { a[7 - k] ^= ((t >> (k * 8)) & 0xFF) as u8 }`. -/
def xorCounter (a : Half) (t : UInt64) : Half :=
  (List.range 8).foldl (fun a k =>
    Function.update a ⟨7 - k, by omega⟩ (a ⟨7 - k, by omega⟩ ^^^ ((t >>> (k * 8).toUInt64) &&& 0xFF).toUInt8)) a

/-- The body of the inner loop for `j` and `i`, on `a` and the blocks of `r`. -/
def unwrapStep (kek : Block) (n j i : Nat) (state : Half × List Half) : Half × List Half :=
  let t : UInt64 := (n * j + i + 1).toUInt64
  let a := xorCounter state.1 t
  let b : Block := Fin.append a (state.2.getD i fun _ => 0)
  let decrypted := aesDecryptBlock kek b
  (fun k => decrypted (Fin.castAdd 8 k), state.2.set i fun k => decrypted (Fin.natAdd 8 k))

/-- `aes_key_unwrap`; the vector `r` is kept as its `n` blocks of eight bytes, the only
slices the source reads and writes. -/
def aesKeyUnwrap (kek : Block) (ciphertext : List UInt8) : Except Unit (List UInt8) :=
  if ciphertext.length < 24 ∨ ciphertext.length % 8 ≠ 0 then .error ()
  else
    let n := ciphertext.length / 8 - 1
    let r := (List.range n).map fun i => chunk ciphertext (i + 1)
    let a := chunk ciphertext 0
    let state := (List.range 6).reverse.foldl (fun state j =>
      (List.range n).reverse.foldl (fun state i => unwrapStep kek n j i state) state) (a, r)
    let expectedIv : Half := fun _ => 0xA6
    if state.1 ≠ expectedIv then .error () else .ok (state.2.flatMap List.ofFn)

/-! ## The tables are the standard ones -/

theorem aesSbox_eq (b : UInt8) : aesSbox.getD b.toNat 0 = sbox b := by
  have := allBytes_spec (p := fun b => aesSbox.getD b.toNat 0 == sbox b) (by decide +kernel) b
  simpa using this

theorem aesInvSbox_sbox (b : UInt8) : aesInvSbox.getD (sbox b).toNat 0 = b := by
  have := allBytes_spec (p := fun b => aesInvSbox.getD (aesSbox.getD b.toNat 0).toNat 0 == b) (by decide +kernel) b
  rw [← aesSbox_eq]
  simpa using this

theorem rcon_eq {i : Nat} (inside : i < 10) : rcon.getD i 0 = rc i := by
  have table : ∀ i : Fin 10, rcon.getD i 0 = rc i := by decide
  exact table ⟨i, inside⟩

/-! ## Each inverse step undoes its step -/

theorem aesAddRoundKey_addRoundKey (state key : Block) : aesAddRoundKey (addRoundKey state key) key = state := by
  funext i
  simp only [aesAddRoundKey, addRoundKey, UInt8.xor_assoc, UInt8.xor_self, UInt8.xor_zero]

theorem aesInvShiftRows_shiftRows (state : Block) : aesInvShiftRows (shiftRows state) = state := by
  funext i
  fin_cases i <;> rfl

theorem aesInvSubBytes_subBytes (state : Block) : aesInvSubBytes (subBytes state) = state := by
  funext i
  exact aesInvSbox_sbox (state i)

theorem aesInvSubBytes_shiftRows_subBytes (state : Block) :
    aesInvSubBytes (aesInvShiftRows (shiftRows (subBytes state))) = state := by
  rw [aesInvShiftRows_shiftRows, aesInvSubBytes_subBytes]

/-- The update of `a` in `gf_mul` is `xtime`. -/
theorem gfMul_update (a : UInt8) : (if (a &&& 0x80 != 0) = true then a <<< 1 ^^^ 0x1B else a <<< 1) = xtime a := by
  unfold xtime
  by_cases top : a &&& 0x80 = 0 <;> simp [top]

theorem gfMulLoop_xor (n : Nat) (a a' b p p' : UInt8) :
    gfMulLoop n (a ^^^ a') b (p ^^^ p') = gfMulLoop n a b p ^^^ gfMulLoop n a' b p' := by
  induction n generalizing a a' b p p' with
  | zero => rfl
  | succ n ih =>
    simp only [gfMulLoop, gfMul_update, xtime_xor]
    by_cases bit : (b &&& 1 != 0) = true
    · simp only [bit, if_true]
      rw [show p ^^^ p' ^^^ (a ^^^ a') = (p ^^^ a) ^^^ (p' ^^^ a') by ac_rfl]
      exact ih ..
    · simp only [bit]
      exact ih ..

/-- `gf_mul` is additive in its first argument. -/
theorem gfMul_xor (a a' b : UInt8) : gfMul (a ^^^ a') b = gfMul a b ^^^ gfMul a' b := by
  unfold gfMul
  rw [← gfMulLoop_xor, UInt8.xor_self]

/-- `aes_inv_mix_columns` on one column, as a map of words. -/
def invMixWord (w : Word) : Word := invMixColumn (w 0) (w 1) (w 2) (w 3)

theorem invMixWord_xor (w v : Word) : invMixWord (xorWord w v) = xorWord (invMixWord w) (invMixWord v) := by
  funext r
  fin_cases r <;> simp [invMixWord, invMixColumn, xorWord, gfMul_xor] <;> ac_rfl

/-- The column holding `x` in row `k` and zeros elsewhere. -/
def unitWord (k : Fin 4) (x : UInt8) : Word := fun r => if r = k then x else 0

theorem eq_xor_unitWord (w : Word) :
    w = xorWord (unitWord 0 (w 0)) (xorWord (unitWord 1 (w 1)) (xorWord (unitWord 2 (w 2)) (unitWord 3 (w 3)))) := by
  funext r
  fin_cases r <;> simp [xorWord, unitWord]

theorem unitWord_xor (k : Fin 4) (x y : UInt8) : unitWord k (x ^^^ y) = xorWord (unitWord k x) (unitWord k y) := by
  funext r
  by_cases here : r = k <;> simp [unitWord, xorWord, here]

theorem invMixWord_mixColumn_unitWord (k : Fin 4) (x : UInt8) : invMixWord (mixColumn (unitWord k x)) = unitWord k x := by
  refine additive_ext (f := fun x => invMixWord (mixColumn (unitWord k x))) (g := unitWord k) ?_ (unitWord_xor k) ?_ x
  · intro x y
    simp only [unitWord_xor, mixColumn_xor, invMixWord_xor]
  · -- the 4 · 8 columns with a single bit set
    revert k
    decide +kernel

/-- `InvMixColumns` undoes `MixColumns` on a column: both are additive, so it is enough that it
does on the 4 · 256 columns with one nonzero byte. -/
theorem invMixWord_mixColumn (w : Word) : invMixWord (mixColumn w) = w := by
  conv_lhs => rw [eq_xor_unitWord w]
  simp only [mixColumn_xor, invMixWord_xor, invMixWord_mixColumn_unitWord]
  exact (eq_xor_unitWord w).symm

theorem aesInvMixColumns_mixColumns (state : Block) : aesInvMixColumns (mixColumns state) = state := by
  funext i
  have mixed : ∀ r, mixColumns state (cell r (column i)) = mixColumn (columnOf state (column i)) r := by
    intro r
    simp [mixColumns]
  have column_undone := congrFun (invMixWord_mixColumn (columnOf state (column i))) (row i)
  simp only [aesInvMixColumns, mixed]
  rw [show invMixColumn _ _ _ _ = invMixWord (mixColumn (columnOf state (column i))) from rfl, column_undone]
  simp [columnOf]

/-! ## The key schedule and the block decryption -/

theorem expandRoundKey_eq (prev : Block) (rconByte : UInt8) : expandRoundKey prev rconByte = expandRound prev rconByte := by
  -- the two differ only in how `temp` is written: the table and an update for `SubWord` and `Rcon`
  have temp : Function.update (fun j : Fin 4 => aesSbox.getD (prev (cell (j + 1) 3)).toNat 0) 0
        (aesSbox.getD (prev (cell (0 + 1) 3)).toNat 0 ^^^ rconByte) =
      xorWord (subWord (rotWord (columnOf prev 3))) (rconWord rconByte) := by
    simp only [aesSbox_eq]
    funext j
    fin_cases j <;> simp [Function.update, xorWord, subWord, rotWord, columnOf, rconWord]
  unfold expandRoundKey expandRound
  simp only [temp]
  rfl

theorem aesKeyExpansion_eq (key : Block) {i : Nat} (inside : i ≤ 10) : aesKeyExpansion key i = roundKey key i := by
  induction i with
  | zero => rfl
  | succ i ih =>
    rw [aesKeyExpansion, roundKey, ih (by omega), rcon_eq (by omega), expandRoundKey_eq]

/-- A decryption round undoes an encryption round, both seen after `SubBytes` and `ShiftRows`. -/
theorem invRound_round (state key : Block) :
    aesInvMixColumns (aesAddRoundKey (aesInvSubBytes (aesInvShiftRows
      (shiftRows (subBytes (addRoundKey (mixColumns (shiftRows (subBytes state))) key))))) key) =
    shiftRows (subBytes state) := by
  rw [aesInvSubBytes_shiftRows_subBytes, aesAddRoundKey_addRoundKey, aesInvMixColumns_mixColumns]

theorem aesDecryptBlock_cipher (key block : Block) : aesDecryptBlock key (cipher key block) = block := by
  have rounds := foldl_reverse_undo
    (fun state round => addRoundKey (mixColumns (shiftRows (subBytes state))) (roundKey key round))
    (fun state round => aesInvMixColumns (aesAddRoundKey (aesInvSubBytes (aesInvShiftRows state))
      (aesKeyExpansion key round)))
    (fun state => shiftRows (subBytes state)) (fun _ => True) (List.range' 1 9) (fun _ _ _ _ => trivial)
    (fun round mem state _ => by
      simp only [List.mem_range'_1] at mem
      rw [aesKeyExpansion_eq key (by omega)]
      exact invRound_round state _)
    (addRoundKey block (roundKey key 0)) trivial
  unfold aesDecryptBlock cipher
  simp only
  rw [aesKeyExpansion_eq key (by omega : 10 ≤ 10), aesAddRoundKey_addRoundKey, rounds,
    aesInvSubBytes_shiftRows_subBytes, aesKeyExpansion_eq key (by omega : 0 ≤ 10), aesAddRoundKey_addRoundKey]

/-! ## Unwrapping undoes wrapping -/

theorem and_255 (b : UInt8) : b &&& 255 = b := by
  have low := allBytes_spec (p := fun b => b &&& 255 == b) (by decide +kernel) b
  simpa using low

/-- The counter loop `xor`s `t`, big-endian, into `a`. -/
theorem xorCounter_eq (a : Half) (t : UInt64) : xorCounter a t = fun k => a k ^^^ counter t k := by
  funext k
  fin_cases k <;> simp [xorCounter, counter, List.range_succ, Function.update, and_255]

theorem unwrapStep_wrapStep (kek : Block) (n j i : Nat) (state : Half × List Half) (inside : i < state.2.length) :
    unwrapStep kek n j i (wrapStep (cipher kek) n state (j, i)) = state := by
  obtain ⟨a, r⟩ := state
  simp only [unwrapStep, wrapStep, xorCounter_eq, UInt8.xor_assoc, UInt8.xor_self, UInt8.xor_zero]
  have inside : i < r.length := inside
  set b := cipher kek (Fin.append a (r.getD i fun _ => 0)) with encrypted
  -- unwrapping reads back the half that wrapping stored
  have stored : (r.set i fun k => b (Fin.natAdd 8 k)).getD i (fun _ => 0) = fun k => b (Fin.natAdd 8 k) := by
    rw [List.getD_eq_getElem _ _ (by simpa using inside), List.getElem_set_self]
  rw [stored, Fin.append_castAdd_natAdd, encrypted, aesDecryptBlock_cipher]
  simp only [Fin.append_left, Fin.append_right, List.set_set]
  rw [List.getD_eq_getElem _ _ inside, List.set_getElem_self]

/-- The two loops of the unwrap run the steps of the wrap backwards. -/
theorem unwrapLoops_eq (kek : Block) (n : Nat) (state : Half × List Half) :
    (List.range 6).reverse.foldl (fun state j =>
        (List.range n).reverse.foldl (fun state i => unwrapStep kek n j i state) state) state =
      (steps n).reverse.foldl (fun state step => unwrapStep kek n step.1 step.2 state) state := by
  rw [steps, List.reverse_flatMap, List.foldl_flatMap]
  congr
  funext state j
  rw [Function.comp_apply, ← List.map_reverse, List.foldl_map]

theorem aesKeyUnwrap_wrapBytes (kek : Block) (plain : List Half) (twoBlocks : 2 ≤ plain.length) :
    aesKeyUnwrap kek (wrapBytes (cipher kek) defaultIv plain) = .ok (plain.flatMap List.ofFn) := by
  set wrapped := wrap (cipher kek) defaultIv plain with wrapped_def
  have length : wrapped.2.length = plain.length := length_wrap _ _ _
  have octets_length : (octets wrapped).length = 8 + 8 * plain.length := by rw [length_octets, length]
  have blocks : (8 + 8 * plain.length) / 8 - 1 = plain.length := by omega
  -- the unwrap reads `C₀` into `a` and `C₁ … Cₙ` into `r`
  have iv : chunk (octets wrapped) 0 = wrapped.1 := by
    funext k
    simpa [chunk] using getD_octets_zero wrapped k
  have halves : (List.range plain.length).map (fun i => chunk (octets wrapped) (i + 1)) = wrapped.2 := by
    apply List.ext_getElem (by simp [length])
    intro i _ inside
    funext k
    simp only [List.getElem_map, List.getElem_range, chunk]
    exact getD_octets_succ wrapped inside k
  have undone := foldl_reverse_undo (wrapStep (cipher kek) plain.length)
    (fun state step => unwrapStep kek plain.length step.1 step.2 state) id
    (fun state => state.2.length = plain.length) (steps plain.length)
    (fun step _ state good => by rw [length_wrapStep]; exact good)
    (fun step mem state good => unwrapStep_wrapStep kek _ _ _ state (by rw [good]; exact lt_of_mem_steps mem))
    (defaultIv, plain) rfl
  unfold aesKeyUnwrap wrapBytes
  rw [← wrapped_def, octets_length, if_neg (by omega)]
  simp only [blocks, iv, halves, unwrapLoops_eq]
  rw [show (wrapped.1, wrapped.2) = wrapped from rfl, wrapped_def, wrap]
  simp only [id] at undone
  -- the IV comes back as the default one, so the check passes
  rw [undone]
  exact if_neg fun different => different rfl

theorem key_unwrap_inverts_key_wrap :
    (∀ key block : Block, aesDecryptBlock key (cipher key block) = block) ∧
      ∀ (kek : Block) (plain : List Half), 2 ≤ plain.length →
        aesKeyUnwrap kek (wrapBytes (cipher kek) defaultIv plain) = .ok (plain.flatMap List.ofFn) :=
  ⟨aesDecryptBlock_cipher, aesKeyUnwrap_wrapBytes⟩

/-- The key data of the RFC 3394 §4.1 example. -/
def rfc3394KeyData : List Half :=
  [![0x00, 0x11, 0x22, 0x33, 0x44, 0x55, 0x66, 0x77], ![0x88, 0x99, 0xAA, 0xBB, 0xCC, 0xDD, 0xEE, 0xFF]]

/-- At the key-encryption key `000102…0F` and the key data of the RFC 3394 §4.1 example. -/
theorem key_unwrap_inverts_rfc3394_example :
    2 ≤ rfc3394KeyData.length ∧
      aesKeyUnwrap (fun i => i.val.toUInt8) (wrapBytes (cipher fun i => i.val.toUInt8) defaultIv rfc3394KeyData) =
        .ok (rfc3394KeyData.flatMap List.ofFn) :=
  ⟨by decide, key_unwrap_inverts_key_wrap.2 _ _ (by decide)⟩

end Wpa

end Fullerene.Bonder
