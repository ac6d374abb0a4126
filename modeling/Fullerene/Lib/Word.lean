import Mathlib.Tactic.Ring

/-!
# Unsigned machine words as natural numbers

A value of an unsigned `bits`-wide integer type is a natural number below
`2 ^ bits`.  `checkedAdd` is `checked_add` (`none` on overflow) and
`checkedMul` is `checked_mul`; `checkedAdd` is also
the meaning of `+` and `+=` in a build with overflow checks, where `none`
stands for the panic.  `checkedAddSigned` adds a signed offset and fails
below zero as well.  `saturatingAdd`, `saturatingMul` and
`saturatingAddSigned` stop at the largest word (and the last at zero).
Clearing the low bits of a word with a mask rounds it down
(`land_two_pow_sub_two_pow`).  `wrappingAdd` and `wrappingSub` compute
modulo `2 ^ bits`, so words that count something follow the count's
difference as long as it fits (`wrappingSub_mod_mod`); `toSigned` is `as iN`.
-/

namespace Word

/-- `uN::MAX`. -/
def max (bits : Nat) : Nat := 2 ^ bits - 1

/-- `a.checked_add(b)` on `bits`-wide words. -/
def checkedAdd (bits a b : Nat) : Option Nat :=
  if a + b < 2 ^ bits then some (a + b) else none

@[simp]
theorem checkedAdd_eq_some_iff {bits a b sum : Nat} :
    checkedAdd bits a b = some sum ↔ a + b < 2 ^ bits ∧ a + b = sum := by
  unfold checkedAdd
  split <;> simp_all

@[simp]
theorem checkedAdd_eq_none_iff {bits a b : Nat} :
    checkedAdd bits a b = none ↔ 2 ^ bits ≤ a + b := by
  unfold checkedAdd
  split <;> simp_all

theorem checkedAdd_of_lt {bits a b : Nat} (fits : a + b < 2 ^ bits) : checkedAdd bits a b = some (a + b) :=
  checkedAdd_eq_some_iff.mpr ⟨fits, rfl⟩

/-- `a.checked_mul(b)` on `bits`-wide words. -/
def checkedMul (bits a b : Nat) : Option Nat :=
  if a * b < 2 ^ bits then some (a * b) else none

@[simp]
theorem checkedMul_eq_some_iff {bits a b product : Nat} :
    checkedMul bits a b = some product ↔ a * b < 2 ^ bits ∧ a * b = product := by
  unfold checkedMul
  split <;> simp_all

/-- `a - b` on unsigned words in a build with overflow checks: below zero it panics. -/
def checkedSub (a b : Nat) : Option Nat :=
  if b ≤ a then some (a - b) else none

@[simp]
theorem checkedSub_eq_some_iff {a b difference : Nat} :
    checkedSub a b = some difference ↔ b ≤ a ∧ a - b = difference := by
  unfold checkedSub
  split <;> simp_all

/-- `a.checked_add_signed(b)` on `bits`-wide words. -/
def checkedAddSigned (bits a : Nat) (b : Int) : Option Nat :=
  if 0 ≤ (a : Int) + b ∧ (a : Int) + b < 2 ^ bits then some ((a : Int) + b).toNat else none

/-- `a.saturating_add(b)` on `bits`-wide words. -/
def saturatingAdd (bits a b : Nat) : Nat := min (a + b) (max bits)

/-- `a.saturating_mul(b)` on `bits`-wide words. -/
def saturatingMul (bits a b : Nat) : Nat := min (a * b) (max bits)

/-- `a.saturating_add_signed(b)` on `bits`-wide words: the sum, held between
zero and the largest word. -/
def saturatingAddSigned (bits a : Nat) (b : Int) : Nat := min ((a : Int) + b).toNat (max bits)

/-- `a.wrapping_add(b)` on `bits`-wide words. -/
def wrappingAdd (bits a b : Nat) : Nat := (a + b) % 2 ^ bits

/-- `a.wrapping_sub(b)` on `bits`-wide words. -/
def wrappingSub (bits a b : Nat) : Nat := (a + (2 ^ bits - b % 2 ^ bits)) % 2 ^ bits

/-- `a as iN` of a `bits`-wide word: two's complement. -/
def toSigned (bits a : Nat) : Int := if a < 2 ^ (bits - 1) then a else (a : Int) - 2 ^ bits

/-- Two counters kept modulo `2 ^ bits` differ by their difference modulo
`2 ^ bits`. -/
theorem wrappingSub_mod_mod (bits : Nat) {x y : Nat} (le : y ≤ x) :
    wrappingSub bits (x % 2 ^ bits) (y % 2 ^ bits) = (x - y) % 2 ^ bits := by
  have positive : 0 < 2 ^ bits := Nat.two_pow_pos bits
  unfold wrappingSub
  rw [Nat.mod_mod]
  generalize 2 ^ bits = size at positive ⊢
  have divX := Nat.mod_add_div x size
  have divY := Nat.mod_add_div y size
  have remainderX := Nat.mod_lt x positive
  have remainderY := Nat.mod_lt y positive
  obtain ⟨turns, quotients⟩ := Nat.exists_eq_add_of_le (Nat.div_le_div_right le : y / size ≤ x / size)
  rw [quotients, Nat.mul_add] at divX
  -- either the remainders are in order, or `x` has gone round once more
  by_cases ordered : y % size ≤ x % size
  · rw [show x - y = (x % size - y % size) + size * turns by omega, Nat.add_mul_mod_self_left,
      show x % size + (size - y % size) = (x % size - y % size) + size * 1 by omega, Nat.add_mul_mod_self_left]
  · obtain ⟨more, rfl⟩ := Nat.exists_eq_add_one_of_ne_zero (show turns ≠ 0 by rintro rfl; omega)
    rw [Nat.mul_add, Nat.mul_one] at divX
    rw [show x - y = (x % size + (size - y % size)) + size * more by omega, Nat.add_mul_mod_self_left]

@[simp]
theorem wrappingSub_self (bits a : Nat) : wrappingSub bits a a = 0 := by
  have positive : 0 < 2 ^ bits := Nat.two_pow_pos bits
  unfold wrappingSub
  generalize 2 ^ bits = size at positive ⊢
  have division := Nat.mod_add_div a size
  have remainder := Nat.mod_lt a positive
  rw [show a + (size - a % size) = size * (a / size) + size * 1 by omega, ← Nat.mul_add, Nat.mul_mod_right]

/-- A word is non-negative as `iN` exactly when its top bit is clear. -/
theorem toSigned_nonneg_iff {bits a : Nat} (word : a < 2 ^ bits) : 0 ≤ toSigned bits a ↔ a < 2 ^ (bits - 1) := by
  unfold toSigned
  split
  · rename_i low
    exact iff_of_true (Int.natCast_nonneg a) low
  · rename_i high
    have below : (a : Int) < 2 ^ bits := by exact_mod_cast word
    exact iff_of_false (by omega) high

theorem saturatingAdd_of_lt {bits a b : Nat} (fits : a + b < 2 ^ bits) : saturatingAdd bits a b = a + b := by
  unfold saturatingAdd max
  omega

theorem saturatingAdd_le (bits a b : Nat) : saturatingAdd bits a b ≤ a + b :=
  Nat.min_le_left _ _

theorem saturatingMul_of_lt {bits a b : Nat} (fits : a * b < 2 ^ bits) : saturatingMul bits a b = a * b := by
  unfold saturatingMul max
  omega

/-- ANDing a word with the mask of its bits from `low` up rounds it down to a
multiple of `2 ^ low`. -/
theorem land_two_pow_sub_two_pow {bits low value : Nat} (within : value < 2 ^ bits) (below : low ≤ bits) :
    value &&& (2 ^ bits - 2 ^ low) = value / 2 ^ low * 2 ^ low := by
  have mask : 2 ^ bits - 2 ^ low = (2 ^ (bits - low) - 1) * 2 ^ low := by
    rw [Nat.sub_mul, one_mul, ← pow_add, Nat.sub_add_cancel below]
  apply Nat.eq_of_testBit_eq
  intro index
  rw [Nat.testBit_and, mask, Nat.testBit_mul_two_pow, Nat.testBit_mul_two_pow,
    Nat.testBit_div_two_pow, Nat.testBit_two_pow_sub_one]
  -- the mask keeps the bits from `low` to `bits`; above `bits` the word has none
  by_cases lowLe : low ≤ index
  · rw [Nat.sub_add_cancel lowLe]
    by_cases inside : index < bits
    · simp [lowLe, show index - low < bits - low by omega]
    · have high : value.testBit index = false :=
        Nat.testBit_lt_two_pow (lt_of_lt_of_le within (Nat.pow_le_pow_right (by decide) (by omega)))
      simp [high]
  · simp [lowLe]

theorem lt_of_checkedAdd_eq_some {bits a b sum : Nat} (added : checkedAdd bits a b = some sum) :
    sum < 2 ^ bits := by
  obtain ⟨fits, rfl⟩ := checkedAdd_eq_some_iff.mp added
  exact fits

/-! ## Signed words as integers

A value of a signed `bits`-wide type is an integer in
`[-2 ^ (bits - 1), 2 ^ (bits - 1))`.  With overflow checks, `+` and `-` leave
that range only by panicking (`none`); `as uN` takes the residue modulo
`2 ^ bits`. -/

/-- `a + b` on `bits`-wide signed integers in a build with overflow checks. -/
def checkedAddInt (bits : Nat) (a b : Int) : Option Int :=
  if -2 ^ (bits - 1) ≤ a + b ∧ a + b < 2 ^ (bits - 1) then some (a + b) else none

/-- `a - b` on `bits`-wide signed integers in a build with overflow checks. -/
def checkedSubInt (bits : Nat) (a b : Int) : Option Int :=
  if -2 ^ (bits - 1) ≤ a - b ∧ a - b < 2 ^ (bits - 1) then some (a - b) else none

/-- `a.saturating_sub(b)` on `bits`-wide signed integers. -/
def saturatingSubInt (bits : Nat) (a b : Int) : Int :=
  Max.max (-2 ^ (bits - 1)) (min (a - b) (2 ^ (bits - 1) - 1))

/-- `a as uN` of a `bits`-wide signed integer. -/
def ofSigned (bits : Nat) (a : Int) : Nat := (a % 2 ^ bits).toNat

@[simp]
theorem checkedAddInt_eq_some_iff {bits : Nat} {a b sum : Int} :
    checkedAddInt bits a b = some sum ↔ (-2 ^ (bits - 1) ≤ a + b ∧ a + b < 2 ^ (bits - 1)) ∧ a + b = sum := by
  unfold checkedAddInt
  split <;> simp_all

@[simp]
theorem checkedSubInt_eq_some_iff {bits : Nat} {a b difference : Int} :
    checkedSubInt bits a b = some difference ↔
      (-2 ^ (bits - 1) ≤ a - b ∧ a - b < 2 ^ (bits - 1)) ∧ a - b = difference := by
  unfold checkedSubInt
  split <;> simp_all

/-- A residue that is already in range is the value itself. -/
theorem ofSigned_of_nonneg {bits : Nat} {a : Int} (nonneg : 0 ≤ a) (below : a < 2 ^ bits) :
    ofSigned bits a = a.toNat := by
  unfold ofSigned
  rw [Int.emod_eq_of_lt nonneg below]

/-- A negative value above `-2 ^ bits` goes round once. -/
theorem ofSigned_of_neg {bits : Nat} {a : Int} (negative : a < 0) (above : -2 ^ bits ≤ a) :
    ofSigned bits a = (a + 2 ^ bits).toNat := by
  unfold ofSigned
  have wrapped : a % 2 ^ bits = a + 2 ^ bits := by
    rw [← Int.add_emod_right]
    exact Int.emod_eq_of_lt (by omega) (by omega)
  rw [wrapped]

end Word
