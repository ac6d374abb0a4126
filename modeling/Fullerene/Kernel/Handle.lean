import Mathlib.Tactic.IntervalCases

/-!
# Signed kernel object handles

`Handle::new` packs a slot byte, a generation byte and a permission byte into
the low 24 bits of a 64-bit word and puts a 40-bit MAC of the three bytes,
keyed with the per-boot secret, into bits 63..24.  `slot`, `generation` and
`permissions` read the bytes back and `is_valid` recomputes the MAC.

Every handle the kernel makes is valid and reads back the bytes it was made
from.  The MAC authenticates those bytes and nothing else, so two handles made
from the same three bytes are the same handle, whatever they were made for.
The secret is the value `HANDLE_SECRET` holds after `init_handle_secret`; it
is a parameter here.
-/

namespace Fullerene.Kernel

/-! The bits of `HandlePerms`. -/

namespace HandlePerms

def read : UInt8 := 0b00001
def write : UInt8 := 0b00010
def signal : UInt8 := 0b00100
def duplicate : UInt8 := 0b01000
def transfer : UInt8 := 0b10000

end HandlePerms

/-- `handle_mac`: the top 40 bits of two SplitMix64 rounds over the packed
bytes plus the secret; `0` while the secret is `0`. -/
def handleMac (secret : UInt64) (slot generation perms : UInt8) : UInt64 :=
  if secret = 0 then 0
  else
    let data := slot.toUInt64 <<< 16 ||| generation.toUInt64 <<< 8 ||| perms.toUInt64
    let h := data + secret
    let h := h ^^^ h >>> 31
    let h := h * 0x9E3779B97F4A7C15
    let h := h ^^^ h >>> 29
    let h := h * 0xBF58476D1CE4E5B9
    let h := h ^^^ h >>> 32
    h &&& 0xFFFFFFFFFF000000

/-- `struct Handle(u64)`. -/
structure Handle where
  raw : UInt64
  deriving DecidableEq, Repr

namespace Handle

def slotShift : UInt64 := 16
def permShift : UInt64 := 8
def macMask : UInt64 := 0xFFFFFFFFFF000000

/-- `Handle::new`. -/
def new (secret : UInt64) (slot generation perms : UInt8) : Handle :=
  ⟨handleMac secret slot generation perms ||| slot.toUInt64 <<< slotShift |||
    perms.toUInt64 <<< permShift ||| generation.toUInt64⟩

def slot (handle : Handle) : UInt8 :=
  ((handle.raw >>> slotShift) &&& 0xFF).toUInt8

def generation (handle : Handle) : UInt8 :=
  (handle.raw &&& 0xFF).toUInt8

def permissions (handle : Handle) : UInt8 :=
  ((handle.raw >>> permShift) &&& 0xFF).toUInt8

/-- `Handle::is_valid`: the high bits are the MAC of the low bytes. -/
def isValid (secret : UInt64) (handle : Handle) : Bool :=
  handle.raw &&& macMask == handleMac secret handle.slot handle.generation handle.permissions

/-! ## Packing -/

/-- The MAC has no bits below bit 24. -/
theorem handleMac_eq_and_macMask (secret : UInt64) (slot generation perms : UInt8) :
    ∃ hash, handleMac secret slot generation perms = hash &&& macMask := by
  unfold handleMac
  split_ifs
  · exact ⟨0, rfl⟩
  · exact ⟨_, rfl⟩

-- The three readers and the mask see a word whose high bits are masked and
-- whose low bytes are the packed ones; each is checked bit by bit.
theorem slot_pack (hash : UInt64) (slot generation perms : UInt8) :
    Handle.slot ⟨hash &&& macMask ||| slot.toUInt64 <<< slotShift |||
      perms.toUInt64 <<< permShift ||| generation.toUInt64⟩ = slot := by
  apply UInt8.toBitVec_inj.mp
  apply BitVec.eq_of_getLsbD_eq
  intro bit below
  simp [Handle.slot, macMask, slotShift, permShift, BitVec.getLsbD_or, BitVec.getLsbD_and]
  interval_cases bit <;> simp

theorem generation_pack (hash : UInt64) (slot generation perms : UInt8) :
    Handle.generation ⟨hash &&& macMask ||| slot.toUInt64 <<< slotShift |||
      perms.toUInt64 <<< permShift ||| generation.toUInt64⟩ = generation := by
  apply UInt8.toBitVec_inj.mp
  apply BitVec.eq_of_getLsbD_eq
  intro bit below
  simp [Handle.generation, macMask, slotShift, permShift, BitVec.getLsbD_and]
  interval_cases bit <;> simp

theorem permissions_pack (hash : UInt64) (slot generation perms : UInt8) :
    Handle.permissions ⟨hash &&& macMask ||| slot.toUInt64 <<< slotShift |||
      perms.toUInt64 <<< permShift ||| generation.toUInt64⟩ = perms := by
  apply UInt8.toBitVec_inj.mp
  apply BitVec.eq_of_getLsbD_eq
  intro bit below
  simp [Handle.permissions, macMask, slotShift, permShift, BitVec.getLsbD_or,
    BitVec.getLsbD_and]
  interval_cases bit <;> simp

theorem macMask_pack (hash : UInt64) (slot generation perms : UInt8) :
    (hash &&& macMask ||| slot.toUInt64 <<< slotShift ||| perms.toUInt64 <<< permShift |||
      generation.toUInt64) &&& macMask = hash &&& macMask := by
  apply UInt64.toBitVec_inj.mp
  apply BitVec.eq_of_getLsbD_eq
  intro bit below
  simp only [UInt64.toBitVec_and, UInt64.toBitVec_or, BitVec.getLsbD_and, BitVec.getLsbD_or]
  -- below bit 24 the mask is clear, from bit 24 on the packed bytes are
  by_cases low : bit < 24
  · have clear : macMask.toBitVec.getLsbD bit = false := by
      simp only [macMask]
      interval_cases bit <;> rfl
    simp [clear]
  · simp [slotShift, permShift, BitVec.getLsbD_of_ge, show 8 ≤ bit - 16 by omega,
      show 8 ≤ bit - 8 by omega, show 8 ≤ bit by omega]

@[simp]
theorem slot_new (secret : UInt64) (slot generation perms : UInt8) :
    (new secret slot generation perms).slot = slot := by
  obtain ⟨hash, mac⟩ := handleMac_eq_and_macMask secret slot generation perms
  rw [new, mac]
  exact slot_pack hash slot generation perms

@[simp]
theorem generation_new (secret : UInt64) (slot generation perms : UInt8) :
    (new secret slot generation perms).generation = generation := by
  obtain ⟨hash, mac⟩ := handleMac_eq_and_macMask secret slot generation perms
  rw [new, mac]
  exact generation_pack hash slot generation perms

@[simp]
theorem permissions_new (secret : UInt64) (slot generation perms : UInt8) :
    (new secret slot generation perms).permissions = perms := by
  obtain ⟨hash, mac⟩ := handleMac_eq_and_macMask secret slot generation perms
  rw [new, mac]
  exact permissions_pack hash slot generation perms

/-- Every handle the kernel makes passes `is_valid`. -/
@[simp]
theorem isValid_new (secret : UInt64) (slot generation perms : UInt8) :
    (new secret slot generation perms).isValid secret = true := by
  unfold isValid
  rw [slot_new, generation_new, permissions_new, beq_iff_eq]
  obtain ⟨hash, mac⟩ := handleMac_eq_and_macMask secret slot generation perms
  show (_ ||| _ ||| _ ||| _) &&& macMask = _
  rw [mac]
  exact macMask_pack hash slot generation perms

/-- Handles made from different slot bytes differ. -/
theorem new_ne_of_slot_ne {secret : UInt64} {slot other generation otherGeneration perms
    otherPerms : UInt8} (different : slot ≠ other) :
    new secret slot generation perms ≠ new secret other otherGeneration otherPerms := by
  intro same
  apply different
  rw [← slot_new secret slot generation perms, same, slot_new]

end Handle

end Fullerene.Kernel
