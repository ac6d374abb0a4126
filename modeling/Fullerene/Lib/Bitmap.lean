import Mathlib.Data.List.GetD

/-!
# Bitmaps packed into 64-bit words

Bit `index` of a packed bitmap lives in word `index / 64` at position
`index % 64`.  Code sets it with `word ||| mask bit`, clears it with
`word &&& ~~~mask bit` and tests it with `word &&& mask bit == 0`; `bit`
reads the words as a function of the index, and the lemmas below say what
each of these word operations does to that function.
-/

namespace Bitmap

/-- `1 << bit` as a 64-bit word. -/
def mask (bit : Nat) : UInt64 := 1 <<< bit.toUInt64

/-- Bit `index` of the words; past the last word it reads 0. -/
def bit (words : List UInt64) (index : Nat) : Bool :=
  (words.getD (index / 64) 0).toBitVec.getLsbD (index % 64)

theorem getLsbD_mask {j : Nat} (h : j < 64) (k : Nat) : (mask j).toBitVec.getLsbD k = decide (k = j) := by
  unfold mask
  rw [UInt64.toBitVec_shiftLeft, Bool.eq_iff_iff]
  simp [Nat.mod_eq_of_lt h]
  omega

theorem and_mask_beq_zero (word : UInt64) {j : Nat} (h : j < 64) :
    (word &&& mask j == 0) = !word.toBitVec.getLsbD j := by
  rw [Bool.eq_iff_iff, beq_iff_eq, Bool.not_eq_true', ← UInt64.toBitVec_inj, UInt64.toBitVec_and]
  constructor
  · intro cleared
    have := congrArg (·.getLsbD j) cleared
    simpa [getLsbD_mask h] using this
  · intro clear
    refine BitVec.eq_of_getLsbD_eq fun k _ => ?_
    rw [BitVec.getLsbD_and, getLsbD_mask h]
    by_cases same : k = j
    · simp [same, clear]
    · simp [same]

/-- Every bit of `u64::MAX` is set. -/
theorem getLsbD_max {j : Nat} (h : j < 64) : (0xFFFFFFFFFFFFFFFF : UInt64).toBitVec.getLsbD j = true := by
  have allOnes : (0xFFFFFFFFFFFFFFFF : UInt64).toBitVec = BitVec.allOnes 64 := by decide
  rw [allOnes, BitVec.getLsbD_allOnes]
  exact decide_eq_true h

theorem bit_of_lt (words : List UInt64) {index : Nat} (inside : index / 64 < words.length) :
    bit words index = words[index / 64].toBitVec.getLsbD (index % 64) := by
  rw [bit, List.getD_eq_getElem _ _ inside]

/-- Bit `j` of word `i` is bit `i * 64 + j` of the bitmap. -/
theorem bit_mul_add (words : List UInt64) {i j : Nat} (inside : i < words.length) (h : j < 64) :
    bit words (i * 64 + j) = words[i].toBitVec.getLsbD j := by
  have word : (i * 64 + j) / 64 = i := by omega
  have position : (i * 64 + j) % 64 = j := by omega
  simp only [bit, word, position, List.getD_eq_getElem _ _ inside]

theorem bit_replicate {n : Nat} (word : UInt64) {index : Nat} (inside : index / 64 < n) :
    bit (List.replicate n word) index = word.toBitVec.getLsbD (index % 64) := by
  rw [bit, List.getD_replicate _ inside]

/-- Writing a word changes only the bits it holds. -/
theorem bit_set_of_div_ne (words : List UInt64) {i : Nat} (word : UInt64) {k : Nat} (other : i ≠ k / 64) :
    bit (words.set i word) k = bit words k := by
  simp only [bit, List.getD_eq_getElem?_getD, List.getElem?_set_ne other]

/-- Two indices in one word are equal when their positions in it are. -/
theorem eq_iff_mod_eq {index k : Nat} (same : k / 64 = index / 64) : k = index ↔ k % 64 = index % 64 := by
  constructor
  · intro equal
    rw [equal]
  · intro position
    rw [← Nat.div_add_mod k 64, ← Nat.div_add_mod index 64, same, position]

theorem bit_set_or_mask (words : List UInt64) {index : Nat} (inside : index / 64 < words.length) (k : Nat) :
    bit (words.set (index / 64) (words[index / 64] ||| mask (index % 64))) k = (bit words k || decide (k = index)) := by
  by_cases same : k / 64 = index / 64
  · have within : k / 64 < words.length := same ▸ inside
    rw [bit_of_lt _ (by rw [List.length_set]; exact within), bit_of_lt _ within]
    simp only [List.getElem_set, same, if_true, UInt64.toBitVec_or, BitVec.getLsbD_or,
      getLsbD_mask (Nat.mod_lt index (by decide)), eq_iff_mod_eq same]
  · have other : k ≠ index := fun equal => same (by rw [equal])
    rw [bit_set_of_div_ne _ _ (Ne.symm same)]
    simp [other]

theorem bit_set_and_not_mask (words : List UInt64) {index : Nat} (inside : index / 64 < words.length) (k : Nat) :
    bit (words.set (index / 64) (words[index / 64] &&& ~~~mask (index % 64))) k = (bit words k && !decide (k = index)) := by
  by_cases same : k / 64 = index / 64
  · have within : k / 64 < words.length := same ▸ inside
    rw [bit_of_lt _ (by rw [List.length_set]; exact within), bit_of_lt _ within]
    simp only [List.getElem_set, same, if_true, UInt64.toBitVec_and, UInt64.toBitVec_not, BitVec.getLsbD_and,
      BitVec.getLsbD_not, getLsbD_mask (Nat.mod_lt index (by decide)), eq_iff_mod_eq same]
    simp [Nat.mod_lt k (by decide : 64 > 0)]
  · have other : k ≠ index := fun equal => same (by rw [equal])
    rw [bit_set_of_div_ne _ _ (Ne.symm same)]
    simp [other]

end Bitmap
