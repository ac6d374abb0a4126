import Mathlib.Data.Nat.Bitwise

/-!
# Four-level x86-64 paging

The walk the processor makes from CR3 down to a page (Intel SDM Vol. 3A,
4.5).  A PML4 entry points to a page-directory-pointer table.  A PDPT entry
either maps a 1 GiB page (its PS bit is set) or points to a page directory.
A page-directory entry either maps a 2 MiB page or points to a page table,
whose entries map 4 KiB pages.  In a PML4 entry the PS bit is reserved and the
walk faults.  A user-mode access is allowed when every entry on the way is
present and user-accessible; a write also needs every entry writable.

Addresses and entries are natural numbers below `2 ^ 64`.  Memory is the
64-bit word at each physical byte address, so entry `index` of the table at
`table` is the word at `table + index * 8`.
-/

namespace Paging

/-- The 64-bit word stored at each physical byte address. -/
abbrev Memory := Nat → Nat

/-! ## Entries -/

def present : Nat := 0x1
def writable : Nat := 0x2
def userAccessible : Nat := 0x4
def hugePage : Nat := 0x80

/-- `flags.contains(mask)`: every bit of `mask` is set. -/
def contains (flags mask : Nat) : Bool := flags &&& mask == mask

/-- `PageTableEntry::flags`: bits 0..11 and 52..63. -/
def entryFlags (entry : Nat) : Nat := entry &&& 0xFFF0000000000FFF

/-- `PageTableEntry::addr`: bits 12..51. -/
def entryAddr (entry : Nat) : Nat := entry &&& 0x000FFFFFFFFFF000

/-- The index, in the table of one level, of the entry that translates
`vaddr`: the nine bits above `shift`. -/
def tableIndex (vaddr shift : Nat) : Nat := (vaddr >>> shift) &&& 0x1FF

def readEntry (memory : Memory) (table index : Nat) : Nat := memory (table + index * 8)

/-- x86_64's `align_down(addr, align)`, `addr & !(align - 1)` for a power of
two `align`. -/
def alignDown (addr align : Nat) : Nat := addr / align * align

theorem land_eq_right_iff {value mask : Nat} :
    value &&& mask = mask ↔ ∀ bit, mask.testBit bit = true → value.testBit bit = true := by
  constructor
  · intro covered bit set
    rw [← covered, Nat.testBit_and, Bool.and_eq_true] at set
    exact set.1
  · intro covers
    apply Nat.eq_of_testBit_eq
    intro bit
    rw [Nat.testBit_and]
    cases set : mask.testBit bit
    · exact Bool.and_false _
    · rw [covers bit set]
      rfl

theorem contains_and (first second mask : Nat) :
    contains (first &&& second) mask = (contains first mask && contains second mask) := by
  unfold contains
  apply Bool.eq_iff_iff.mpr
  simp only [Bool.and_eq_true, beq_iff_eq, land_eq_right_iff, Nat.testBit_and]
  constructor
  · intro covers
    exact ⟨fun bit set => (covers bit set).1, fun bit set => (covers bit set).2⟩
  · rintro ⟨inFirst, inSecond⟩ bit set
    exact ⟨inFirst bit set, inSecond bit set⟩

/-- The flags a walk tests are among the bits `entryFlags` keeps. -/
theorem contains_entryFlags {mask : Nat} (kept : mask &&& 0xFFF0000000000FFF = mask)
    (entry : Nat) : contains (entryFlags entry) mask = contains entry mask := by
  unfold contains entryFlags
  rw [Nat.land_assoc, Nat.land_comm 0xFFF0000000000FFF, kept]

theorem tableIndex_eq_div_mod (vaddr shift : Nat) :
    tableIndex vaddr shift = vaddr / 2 ^ shift % 512 := by
  unfold tableIndex
  rw [Nat.shiftRight_eq_div_pow, show (0x1FF : Nat) = 2 ^ 9 - 1 from rfl,
    Nat.and_two_pow_sub_one_eq_mod]

/-- Addresses in one 4 KiB page have the same index at every level. -/
theorem tableIndex_eq_of_page_eq {vaddr other : Nat} (samePage : vaddr / 4096 = other / 4096)
    {shift : Nat} (above : 12 ≤ shift) : tableIndex vaddr shift = tableIndex other shift := by
  have split : 2 ^ shift = 4096 * 2 ^ (shift - 12) := by
    rw [show 4096 = 2 ^ 12 from rfl, ← pow_add, Nat.add_sub_cancel' above]
  rw [tableIndex_eq_div_mod, tableIndex_eq_div_mod, split, ← Nat.div_div_eq_div_mul,
    ← Nat.div_div_eq_div_mul, samePage]

theorem tableIndex_lt (vaddr shift : Nat) : tableIndex vaddr shift < 512 := by
  rw [tableIndex_eq_div_mod]
  exact Nat.mod_lt _ (by decide)

/-! ## The walk -/

/-- The end of a walk: log2 of the page size (30, 21 or 12) and the entries
read, from the PML4 entry down to the one that maps the page. -/
structure Leaf where
  shift : Nat
  entries : List Nat
  deriving DecidableEq, Repr

/-- The walk below the PML4 entry that translates `vaddr`. -/
def walkFrom (memory : Memory) (vaddr pml4e : Nat) : Option Leaf :=
  if !contains pml4e present || contains pml4e hugePage then none
  else
    let pdpte := readEntry memory (entryAddr pml4e) (tableIndex vaddr 30)
    if !contains pdpte present then none
    else if contains pdpte hugePage then some ⟨30, [pml4e, pdpte]⟩
    else
      let pde := readEntry memory (entryAddr pdpte) (tableIndex vaddr 21)
      if !contains pde present then none
      else if contains pde hugePage then some ⟨21, [pml4e, pdpte, pde]⟩
      else
        let pte := readEntry memory (entryAddr pde) (tableIndex vaddr 12)
        if !contains pte present then none else some ⟨12, [pml4e, pdpte, pde, pte]⟩

/-- The processor's walk from the PML4 table at `cr3`; `none` is a page
fault. -/
def walk (memory : Memory) (cr3 vaddr : Nat) : Option Leaf :=
  walkFrom memory vaddr (readEntry memory cr3 (tableIndex vaddr 39))

/-- Every entry on the way grants user access, and write access if asked. -/
def Leaf.allows (leaf : Leaf) (write : Bool) : Bool :=
  leaf.entries.all fun entry => contains entry userAccessible && (!write || contains entry writable)

/-- Whether a user-mode access to `vaddr` succeeds. -/
def userAllows (memory : Memory) (cr3 vaddr : Nat) (write : Bool) : Bool :=
  match walk memory cr3 vaddr with
  | some leaf => leaf.allows write
  | none => false

/-- The four entries a walk reads when no entry maps a page, each found
through the address in the one above. -/
def chain (memory : Memory) (cr3 vaddr : Nat) : List Nat :=
  let pml4e := readEntry memory cr3 (tableIndex vaddr 39)
  let pdpte := readEntry memory (entryAddr pml4e) (tableIndex vaddr 30)
  let pde := readEntry memory (entryAddr pdpte) (tableIndex vaddr 21)
  [pml4e, pdpte, pde, readEntry memory (entryAddr pde) (tableIndex vaddr 12)]

/-- When every entry of the chain is present and the PML4 entry has no PS
bit, the walk ends in a page, and the entries it read begin the chain. -/
theorem walk_of_chain {memory : Memory} {cr3 vaddr : Nat}
    (noHuge : contains (readEntry memory cr3 (tableIndex vaddr 39)) hugePage = false)
    (allPresent : ∀ entry ∈ chain memory cr3 vaddr, contains entry present = true) :
    ∃ leaf, walk memory cr3 vaddr = some leaf ∧ leaf.entries <+: chain memory cr3 vaddr := by
  simp only [chain, List.mem_cons, List.not_mem_nil, or_false, forall_eq_or_imp, forall_eq]
    at allPresent
  obtain ⟨present4, present3, present2, present1⟩ := allPresent
  unfold walk walkFrom
  simp only [present4, present3, present2, present1, noHuge, Bool.not_true, Bool.or_false,
    Bool.false_eq_true, if_false]
  -- the walk stops at the first PS bit below the PML4 entry
  split_ifs
  · exact ⟨_, rfl, [_, _], rfl⟩
  · exact ⟨_, rfl, [_], rfl⟩
  · exact ⟨_, rfl, [], rfl⟩

/-- The walk reads only the bits above the page offset. -/
theorem walk_eq_of_page_eq {vaddr other : Nat} (samePage : vaddr / 4096 = other / 4096)
    (memory : Memory) (cr3 : Nat) : walk memory cr3 vaddr = walk memory cr3 other := by
  unfold walk walkFrom
  rw [tableIndex_eq_of_page_eq samePage (by decide : 12 ≤ 39),
    tableIndex_eq_of_page_eq samePage (by decide : 12 ≤ 30),
    tableIndex_eq_of_page_eq samePage (by decide : 12 ≤ 21),
    tableIndex_eq_of_page_eq samePage (le_refl 12)]

theorem userAllows_eq_of_page_eq {vaddr other : Nat} (samePage : vaddr / 4096 = other / 4096)
    (memory : Memory) (cr3 : Nat) (write : Bool) :
    userAllows memory cr3 vaddr write = userAllows memory cr3 other write := by
  unfold userAllows
  rw [walk_eq_of_page_eq samePage]

end Paging
