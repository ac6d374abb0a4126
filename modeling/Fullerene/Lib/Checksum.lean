import Mathlib.Data.Nat.ModEq

/-!
# The Internet checksum

The one's-complement sum of a byte string read as big-endian 16-bit words,
with an odd last byte padded by a zero byte (`wordSum`), folded to 16 bits by
end-around carries (`foldCarries`).  Folding keeps the residue modulo
`65535` and keeps a positive sum positive, so a folded sum is `0xFFFF`
exactly when the sum is a positive multiple of `65535` (`foldCarries_eq_max_iff`).

A sender stores the complement of the folded sum in a zeroed word of the
data; the receiver's sum then folds to `0xFFFF` (`verifies_of_complement`).
A word stored with its two bytes swapped verifies only when those bytes are
equal (`verifies_swapped_iff`).
-/

namespace OnesComplement

/-- The sum of the big-endian 16-bit words of the data, an odd last byte
padded with a zero byte. -/
def wordSum : List UInt8 → Nat
  | [] => 0
  | [last] => last.toNat * 256
  | high :: low :: rest => (high.toNat * 256 + low.toNat) + wordSum rest

/-- Rounds of `while sum >> 16 != 0 { sum = (sum & 0xFFFF) + (sum >> 16) }`. -/
def foldRounds : Nat → Nat → Nat
  | 0, sum => sum
  | fuel + 1, sum =>
      if sum >>> 16 = 0 then sum else foldRounds fuel ((sum &&& 0xFFFF) + (sum >>> 16))

/-- The carry folding loop; a round lowers a sum of `2 ^ 16` or more, so
`sum` rounds are enough. -/
def foldCarries (sum : Nat) : Nat :=
  foldRounds sum sum

/-- The 16-bit word a receiver reads back: folding the sum gives `0xFFFF`. -/
def Verifies (data : List UInt8) : Prop :=
  foldCarries (wordSum data) = 0xFFFF

instance (data : List UInt8) : Decidable (Verifies data) :=
  inferInstanceAs (Decidable (foldCarries (wordSum data) = 0xFFFF))

/-! ## Words -/

/-- The two bytes of a 16-bit word, most significant first. -/
def beBytes (word : Nat) : List UInt8 :=
  [(word / 256).toUInt8, word.toUInt8]

theorem wordSum_append {first : List UInt8} (even : first.length % 2 = 0) (second : List UInt8) :
    wordSum (first ++ second) = wordSum first + wordSum second := by
  induction first using wordSum.induct with
  | case1 => simp [wordSum]
  | case2 last => simp at even
  | case3 high low rest inductionHypothesis =>
      have evenRest : rest.length % 2 = 0 := by
        simp only [List.length_cons] at even
        omega
      simp only [List.cons_append, wordSum, inductionHypothesis evenRest]
      omega

theorem wordSum_beBytes {word : Nat} (small : word < 65536) : wordSum (beBytes word) = word := by
  simp only [beBytes, wordSum, Nat.toUInt8_eq, UInt8.toNat_ofNat', Nat.reducePow]
  omega

/-! ## Folding the carries -/

/-- One round adds the carries above the low 16 bits back into them. -/
theorem fold_step_eq (sum : Nat) : (sum &&& 0xFFFF) + (sum >>> 16) = sum % 65536 + sum / 65536 := by
  have low : sum &&& 0xFFFF = sum % 65536 := by
    simpa using Nat.and_two_pow_sub_one_eq_mod sum 16
  have high : sum >>> 16 = sum / 65536 := by
    simpa using Nat.shiftRight_eq_div_pow sum 16
  rw [low, high]

/-- One round keeps the residue modulo `65535`. -/
theorem fold_step_modEq (sum : Nat) : (sum &&& 0xFFFF) + (sum >>> 16) ≡ sum [MOD 65535] := by
  rw [fold_step_eq]
  unfold Nat.ModEq
  omega

theorem foldRounds_modEq : ∀ (fuel sum : Nat), foldRounds fuel sum ≡ sum [MOD 65535]
  | 0, _ => Nat.ModEq.refl _
  | fuel + 1, sum => by
      unfold foldRounds
      split_ifs
      · exact Nat.ModEq.refl _
      · exact (foldRounds_modEq fuel _).trans (fold_step_modEq sum)

theorem foldRounds_pos : ∀ {fuel sum : Nat}, 0 < sum → 0 < foldRounds fuel sum
  | 0, _, positive => positive
  | fuel + 1, sum, positive => by
      unfold foldRounds
      split_ifs with done
      · exact positive
      · -- there is a carry, so the next sum is positive
        have carry : 0 < sum >>> 16 := Nat.pos_of_ne_zero done
        exact foldRounds_pos (Nat.add_pos_right _ carry)

/-- A round takes at least `65535` off a sum with a carry, so `fuel` rounds
bring a sum below `65536 + 65535 * fuel` under `65536`. -/
theorem foldRounds_lt : ∀ {fuel sum : Nat}, sum < 65536 + 65535 * fuel → foldRounds fuel sum < 65536
  | 0, _, bounded => bounded
  | fuel + 1, sum, bounded => by
      unfold foldRounds
      have high : sum >>> 16 = sum / 65536 := by
        simpa using Nat.shiftRight_eq_div_pow sum 16
      have split := Nat.div_add_mod sum 65536
      split_ifs with done
      · rw [high, Nat.div_eq_zero_iff] at done
        exact done.resolve_left (by decide)
      · rw [high] at done
        apply foldRounds_lt
        rw [fold_step_eq]
        -- with the carries and the low bits named, the bound is linear
        generalize sum / 65536 = carries at *
        generalize sum % 65536 = low at *
        omega

/-- No round raises the sum. -/
theorem foldRounds_le : ∀ (fuel sum : Nat), foldRounds fuel sum ≤ sum
  | 0, _ => le_refl _
  | fuel + 1, sum => by
      unfold foldRounds
      split_ifs
      · exact le_refl _
      · refine (foldRounds_le fuel _).trans ?_
        rw [fold_step_eq]
        omega

theorem foldCarries_lt (sum : Nat) : foldCarries sum < 65536 :=
  foldRounds_lt (by omega)

theorem foldCarries_modEq (sum : Nat) : foldCarries sum ≡ sum [MOD 65535] :=
  foldRounds_modEq sum sum

theorem foldCarries_pos {sum : Nat} (positive : 0 < sum) : 0 < foldCarries sum :=
  foldRounds_pos positive

theorem foldCarries_le (sum : Nat) : foldCarries sum ≤ sum :=
  foldRounds_le sum sum

/-- The folded sum is `0xFFFF` exactly when the sum is a positive multiple of
`65535`. -/
theorem foldCarries_eq_max_iff {sum : Nat} :
    foldCarries sum = 0xFFFF ↔ 0 < sum ∧ sum % 65535 = 0 := by
  have residue : foldCarries sum % 65535 = sum % 65535 := foldCarries_modEq sum
  have bounded := foldCarries_lt sum
  have below := foldCarries_le sum
  constructor
  · intro folded
    omega
  · rintro ⟨positive, multiple⟩
    have positiveFold := foldCarries_pos positive
    omega

/-! ## Checking a stored checksum -/

section Stored

variable {before after : List UInt8} {word : Nat}

/-- The data with a word in place of a zeroed word at an even position. -/
theorem wordSum_stored (even : before.length % 2 = 0) (small : word < 65536) :
    wordSum (before ++ beBytes word ++ after) = wordSum (before ++ [0, 0] ++ after) + word := by
  have evenZero : (before ++ [0, 0]).length % 2 = 0 := by
    simp only [List.length_append, List.length_cons, List.length_nil]
    omega
  have evenWord : (before ++ beBytes word).length % 2 = 0 := by
    simp only [beBytes, List.length_append, List.length_cons, List.length_nil]
    omega
  rw [wordSum_append evenWord, wordSum_append even, wordSum_beBytes small, wordSum_append evenZero,
    wordSum_append even]
  simp only [wordSum, UInt8.toNat_zero]
  omega

/-- Data with a word stored in a zeroed word verifies when the sum with the
zero there plus the word is a positive multiple of `65535`. -/
theorem verifies_stored_iff (even : before.length % 2 = 0) (small : word < 65536) :
    Verifies (before ++ beBytes word ++ after) ↔
      0 < wordSum (before ++ [0, 0] ++ after) + word ∧
        (wordSum (before ++ [0, 0] ++ after) + word) % 65535 = 0 := by
  rw [Verifies, wordSum_stored even small, foldCarries_eq_max_iff]

/-- The complement of the folded sum of the data with a zeroed word, stored in
that word, makes the data verify. -/
theorem verifies_of_complement (even : before.length % 2 = 0) :
    Verifies (before ++ beBytes (0xFFFF - foldCarries (wordSum (before ++ [0, 0] ++ after))) ++ after) := by
  generalize summed : wordSum (before ++ [0, 0] ++ after) = sum
  have residue : foldCarries sum % 65535 = sum % 65535 := foldCarries_modEq sum
  have bounded := foldCarries_lt sum
  have below := foldCarries_le sum
  rw [verifies_stored_iff even (by omega), summed]
  omega

/-- RFC 768 sends a complement of zero as `0xFFFF`, which verifies as well. -/
theorem verifies_of_complement_or_max (even : before.length % 2 = 0) :
    Verifies (before ++ beBytes
      (if 0xFFFF - foldCarries (wordSum (before ++ [0, 0] ++ after)) = 0 then 0xFFFF
        else 0xFFFF - foldCarries (wordSum (before ++ [0, 0] ++ after))) ++ after) := by
  generalize summed : wordSum (before ++ [0, 0] ++ after) = sum
  have residue : foldCarries sum % 65535 = sum % 65535 := foldCarries_modEq sum
  have bounded := foldCarries_lt sum
  have below := foldCarries_le sum
  rw [verifies_stored_iff even (by split_ifs <;> omega), summed]
  split_ifs <;> omega

/-- The stored word with its bytes swapped verifies only when its two bytes
are equal. -/
theorem verifies_swapped_iff (even : before.length % 2 = 0)
    (positive : 0 < wordSum (before ++ [0, 0] ++ after)) {high low : Nat}
    (complement : high * 256 + low = 0xFFFF - foldCarries (wordSum (before ++ [0, 0] ++ after)))
    (highSmall : high < 256) (lowSmall : low < 256) :
    Verifies (before ++ beBytes (low * 256 + high) ++ after) ↔ high = low := by
  generalize summed : wordSum (before ++ [0, 0] ++ after) = sum at positive complement
  have residue : foldCarries sum % 65535 = sum % 65535 := foldCarries_modEq sum
  have bounded := foldCarries_lt sum
  rw [verifies_stored_iff even (by omega), summed]
  omega

end Stored

end OnesComplement
