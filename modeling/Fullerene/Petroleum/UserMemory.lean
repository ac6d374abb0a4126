import Fullerene.Lib.Paging
import Fullerene.Lib.Word

/-!
# Validating user pointers against the page tables

`validate_user_range` checks a user buffer page by page: each page is looked
up by `walk_page_table_for_flags`, which reads the four levels of the tables
under CR3 and ANDs their flags, and must come out present, user-accessible
and, for a write, writable.  `UserSlice::new` and `UserPtr::new`/`new_mut`
accept a buffer only after this check.

The walk tests the page-size bit on the flags it has ANDed so far, and a
PML4 entry never has that bit, so it never stops at a 1 GiB or 2 MiB page: it
reads the first 4 KiB of the page as the next table.  Whatever the user keeps
there decides the answer (`walk_reads_huge_page`,
`validate_user_range_misreads_huge_page`).  The ANDed flags still include
every real entry on the way, so a buffer the check accepts is one the
processor lets the user touch (`validateUserRange_sound`).

The physical-memory window at `PHYSICAL_MEMORY_OFFSET` is taken to map all of
physical memory, so reading a table through it reads the physical word.
-/

namespace Fullerene.Petroleum

open Paging

/-- The `SystemError` variants the modelled parts of `petroleum` return. -/
inductive SystemError
  | invalidArgument
  | permissionDenied
  | internalError
  | frameAllocationFailed
  | unmappingFailed
  | mappingFailed
  deriving DecidableEq, Repr

/-- `is_user_address`. -/
def isUserAddress (addr : Nat) : Bool := addr < 0x0000800000000000

/-- `VirtAddr::try_new`: a canonical address, bits 47..63 all equal. -/
def virtAddrTryNew (addr : Nat) : Option Nat :=
  if addr < 0x0000800000000000 ∨ 0xFFFF800000000000 ≤ addr then some addr else none

theorem eq_of_virtAddrTryNew_eq_some {addr virt : Nat} (accepted : virtAddrTryNew addr = some virt) :
    virt = addr := by
  unfold virtAddrTryNew at accepted
  split_ifs at accepted
  exact (Option.some.inj accepted).symm

/-- `walk_page_table_for_flags`, reading the tables of the PML4 at `cr3`. -/
def walkPageTableForFlags (memory : Memory) (cr3 vaddr : Nat) : Option Nat :=
  let p4e := readEntry memory cr3 (tableIndex vaddr 39)
  if !contains (entryFlags p4e) present then none
  else
    let flags := entryFlags p4e
    if contains flags hugePage then some flags
    else
      let p3e := readEntry memory (entryAddr p4e) (tableIndex vaddr 30)
      if !contains (entryFlags p3e) present then none
      else
        let flags := flags &&& entryFlags p3e
        if contains flags hugePage then some flags
        else
          let p2e := readEntry memory (entryAddr p3e) (tableIndex vaddr 21)
          if !contains (entryFlags p2e) present then none
          else
            let flags := flags &&& entryFlags p2e
            if contains flags hugePage then some flags
            else
              let p1e := readEntry memory (entryAddr p2e) (tableIndex vaddr 12)
              if !contains (entryFlags p1e) present then none
              else some (flags &&& entryFlags p1e)

/-- One turn of the page loop of `validate_user_range`. -/
def checkPage (memory : Memory) (cr3 : Nat) (writable : Bool) (vaddr : Nat) :
    Except SystemError Unit :=
  match walkPageTableForFlags memory cr3 vaddr with
  | none => .error .invalidArgument
  | some flags =>
      if !contains flags present then .error .invalidArgument
      else if !contains flags userAccessible then .error .permissionDenied
      else if writable && !contains flags Paging.writable then .error .permissionDenied
      else .ok ()

/-- `validate_user_range(addr, len, writable)`. -/
def validateUserRange (memory : Memory) (cr3 addr len : Nat) (writable : Bool) :
    Except SystemError Unit :=
  if len = 0 then .ok ()
  else
    match Word.checkedAdd 64 addr (len - 1) with
    | none => .error .invalidArgument
    | some endAddr =>
        match virtAddrTryNew addr, virtAddrTryNew endAddr with
        | some start, some end_ =>
            if !isUserAddress start || !isUserAddress end_ then .error .permissionDenied
            else
              let pageStart := alignDown start 4096
              let numPages := (alignDown end_ 4096 - pageStart) / 4096 + 1
              (List.range numPages).forM fun page =>
                checkPage memory cr3 writable (pageStart + page * 4096)
        | _, _ => .error .invalidArgument

/-- `UserSlice`: a user buffer that passed the check. -/
structure UserSlice where
  ptr : Nat
  len : Nat
  writable : Bool
  deriving DecidableEq, Repr

/-- `UserSlice::new`. -/
def UserSlice.new (memory : Memory) (cr3 ptr len : Nat) (writable : Bool) :
    Except SystemError UserSlice :=
  if len = 0 then .ok ⟨ptr, 0, writable⟩
  else if ptr = 0 then .error .invalidArgument
  else
    match validateUserRange memory cr3 ptr len writable with
    | .error error => .error error
    | .ok () => .ok ⟨ptr, len, writable⟩

/-- `UserPtr::new` for a type of `size` bytes (`new_mut` when `writable`). -/
def UserPtr.new (memory : Memory) (cr3 size ptr : Nat) (writable : Bool) :
    Except SystemError Nat :=
  if ptr = 0 then .error .invalidArgument
  else
    match validateUserRange memory cr3 ptr size writable with
    | .error error => .error error
    | .ok () => .ok ptr

/-! ## What the walk reads -/

theorem forM_eq_ok_iff {α ε : Type} {f : α → Except ε Unit} {items : List α} :
    items.forM f = .ok () ↔ ∀ item ∈ items, f item = .ok () := by
  induction items with
  | nil => exact ⟨fun _ _ absent => absurd absent List.not_mem_nil, fun _ => rfl⟩
  | cons head tail inductionHypothesis =>
      rw [List.forall_mem_cons, ← inductionHypothesis]
      show (f head >>= fun _ => tail.forM f) = .ok () ↔ _
      cases f head with
      | error error => simp [bind, Except.bind]
      | ok _ => simp [bind, Except.bind]

-- the walk's flag tests are all on bits that `entryFlags` keeps
theorem contains_entryFlags_present (entry : Nat) :
    contains (entryFlags entry) present = contains entry present :=
  contains_entryFlags (by decide) entry

theorem contains_entryFlags_hugePage (entry : Nat) :
    contains (entryFlags entry) hugePage = contains entry hugePage :=
  contains_entryFlags (by decide) entry

/-- Below a PML4 entry without a PS bit, the walk never sees a PS bit in its
ANDed flags: it returns only when the whole chain of four entries is present,
and a flag it returns is set in each of them. -/
theorem walkPageTableForFlags_chain {memory : Memory} {cr3 vaddr flags : Nat}
    (noHuge : contains (readEntry memory cr3 (tableIndex vaddr 39)) hugePage = false)
    (walked : walkPageTableForFlags memory cr3 vaddr = some flags) :
    (∀ entry ∈ chain memory cr3 vaddr, contains entry present = true) ∧
      ∀ mask, mask &&& 0xFFF0000000000FFF = mask → contains flags mask = true →
        ∀ entry ∈ chain memory cr3 vaddr, contains entry mask = true := by
  unfold walkPageTableForFlags at walked
  unfold chain
  dsimp only at walked ⊢
  -- name the four entries, each read through the one above
  generalize readEntry memory cr3 (tableIndex vaddr 39) = pml4e at noHuge walked ⊢
  generalize readEntry memory (entryAddr pml4e) (tableIndex vaddr 30) = pdpte at walked ⊢
  generalize readEntry memory (entryAddr pdpte) (tableIndex vaddr 21) = pde at walked ⊢
  generalize readEntry memory (entryAddr pde) (tableIndex vaddr 12) = pte at walked ⊢
  simp only [contains_entryFlags_present, contains_and, contains_entryFlags_hugePage, noHuge,
    Bool.false_and, Bool.false_eq_true, if_false] at walked
  split_ifs at walked with absent4 absent3 absent2 absent1
  obtain rfl := Option.some.inj walked
  simp only [Bool.not_eq_true', Bool.not_eq_false] at absent4 absent3 absent2 absent1
  simp only [List.mem_cons, List.not_mem_nil, or_false, forall_eq_or_imp, forall_eq]
  refine ⟨⟨?_, ?_, ?_, ?_⟩, fun mask kept covered => ?_⟩
  · simpa using absent4
  · simpa using absent3
  · simpa using absent2
  · simpa using absent1
  · simp only [contains_and, contains_entryFlags kept, Bool.and_eq_true] at covered
    exact ⟨covered.1.1.1, covered.1.1.2, covered.1.2, covered.2⟩

/-! ## Soundness of the check -/

/-- A page the loop accepts is one the processor lets the user access. -/
theorem checkPage_sound {memory : Memory} {cr3 : Nat} {writable : Bool} {vaddr : Nat}
    (noHuge : contains (readEntry memory cr3 (tableIndex vaddr 39)) hugePage = false)
    (checked : checkPage memory cr3 writable vaddr = .ok ()) :
    userAllows memory cr3 vaddr writable = true := by
  unfold checkPage at checked
  split at checked
  · cases checked
  · rename_i flags walked
    -- the failing tests return errors; what is left passed all three
    split_ifs at checked with notPresent notUser notWritable
    obtain ⟨allPresent, covers⟩ := walkPageTableForFlags_chain noHuge walked
    obtain ⟨leaf, walkedLeaf, beginsChain⟩ := walk_of_chain noHuge allPresent
    unfold userAllows Leaf.allows
    rw [walkedLeaf, List.all_eq_true]
    intro entry member
    have inChain := beginsChain.subset member
    have user := covers userAccessible (by decide) (by simpa using notUser) entry inChain
    -- a write needs the writable bit, which the last test found in the ANDed flags
    cases writable with
    | false => simp [user]
    | true =>
        have write := covers Paging.writable (by decide) (by simpa using notWritable) entry inChain
        simp [user, write]

/-- Every byte of a range that `validate_user_range` accepts is a user
address that the processor lets the user read, and write if asked, provided
no PML4 entry carries the reserved PS bit. -/
theorem validateUserRange_sound {memory : Memory} {cr3 addr len : Nat} {writable : Bool}
    (wellFormed : ∀ index < 512, contains (readEntry memory cr3 index) hugePage = false)
    (validated : validateUserRange memory cr3 addr len writable = .ok ()) {byte : Nat}
    (above : addr ≤ byte) (below : byte < addr + len) :
    isUserAddress byte = true ∧ userAllows memory cr3 byte writable = true := by
  unfold validateUserRange at validated
  split_ifs at validated with empty
  · omega
  split at validated
  · cases validated
  rename_i endAddr added
  obtain ⟨-, rfl⟩ := Word.checkedAdd_eq_some_iff.mp added
  split at validated
  · rename_i start end_ startAccepted endAccepted
    obtain rfl := eq_of_virtAddrTryNew_eq_some startAccepted
    obtain rfl := eq_of_virtAddrTryNew_eq_some endAccepted
    split_ifs at validated with outside
    simp only [Bool.or_eq_true, Bool.not_eq_true', not_or, Bool.not_eq_false, isUserAddress,
      decide_eq_true_eq] at outside
    -- the byte lies in page number byte / 4096 - addr / 4096 of the loop
    have inRange : byte / 4096 - start / 4096 ∈
        List.range ((alignDown (start + (len - 1)) 4096 - alignDown start 4096) / 4096 + 1) := by
      rw [List.mem_range]
      unfold alignDown
      omega
    have checked := forM_eq_ok_iff.mp validated _ inRange
    have samePage : (alignDown start 4096 + (byte / 4096 - start / 4096) * 4096) / 4096 =
        byte / 4096 := by
      unfold alignDown
      omega
    refine ⟨by simp only [isUserAddress, decide_eq_true_eq]; omega, ?_⟩
    rw [← userAllows_eq_of_page_eq samePage]
    exact checkPage_sound (wellFormed _ (tableIndex_lt _ _)) checked
  · cases validated

section WellFormed

variable {memory : Memory} {cr3 : Nat}
  (wellFormed : ∀ index < 512, contains (readEntry memory cr3 index) hugePage = false)
include wellFormed

/-- Every byte of a slice that `UserSlice::new` returns may be accessed by the
user with the slice's rights. -/
theorem UserSlice.new_sound {ptr len : Nat} {writable : Bool} {slice : UserSlice}
    (created : UserSlice.new memory cr3 ptr len writable = .ok slice) {byte : Nat}
    (above : slice.ptr ≤ byte) (below : byte < slice.ptr + slice.len) :
    isUserAddress byte = true ∧ userAllows memory cr3 byte slice.writable = true := by
  unfold UserSlice.new at created
  split_ifs at created with empty
  · -- an empty slice has no bytes
    cases created
    exact absurd below (by simpa using above)
  · split at created
    · cases created
    · rename_i validated
      cases created
      exact validateUserRange_sound wellFormed validated above below

/-- The same for `UserPtr::new` and `UserPtr::new_mut` on a type of `size`
bytes. -/
theorem UserPtr.new_sound {size ptr : Nat} {writable : Bool} {checked : Nat}
    (created : UserPtr.new memory cr3 size ptr writable = .ok checked) {byte : Nat}
    (above : checked ≤ byte) (below : byte < checked + size) :
    isUserAddress byte = true ∧ userAllows memory cr3 byte writable = true := by
  unfold UserPtr.new at created
  split_ifs at created
  split at created
  · cases created
  · rename_i validated
    cases created
    exact validateUserRange_sound wellFormed validated above below

end WellFormed

/-! ## Large pages -/

/-- Where the processor stops at a 2 MiB page, `walk_page_table_for_flags`
goes on: it reads the word at `entryAddr pde + index * 8`, inside the page,
as a page-table entry, and that word decides its answer. -/
theorem walk_reads_huge_page {memory : Memory} {cr3 vaddr pml4e pdpte pde : Nat}
    (walked : walk memory cr3 vaddr = some ⟨21, [pml4e, pdpte, pde]⟩) :
    walkPageTableForFlags memory cr3 vaddr =
      if contains (readEntry memory (entryAddr pde) (tableIndex vaddr 12)) present then
        some (entryFlags pml4e &&& entryFlags pdpte &&& entryFlags pde &&&
          entryFlags (readEntry memory (entryAddr pde) (tableIndex vaddr 12)))
      else none := by
  unfold walk walkFrom at walked
  unfold walkPageTableForFlags
  dsimp only at walked ⊢
  generalize readEntry memory cr3 (tableIndex vaddr 39) = e4 at walked ⊢
  generalize readEntry memory (entryAddr e4) (tableIndex vaddr 30) = e3 at walked ⊢
  generalize readEntry memory (entryAddr e3) (tableIndex vaddr 21) = e2 at walked ⊢
  -- the walk ends at a 1 GiB page, a 2 MiB page or a 4 KiB page; only the middle fits
  split_ifs at walked with absent4 absent3 huge3 absent2 huge2
  · simp at walked
  · simp only [Option.some.injEq, Leaf.mk.injEq, List.cons.injEq, and_true, true_and] at walked
    obtain ⟨rfl, rfl, rfl⟩ := walked
    simp only [Bool.or_eq_true, Bool.not_eq_true', not_or, Bool.not_eq_false, Bool.not_eq_true]
      at absent4 absent3 absent2 huge3
    -- the ANDed flags keep the PML4 entry's clear PS bit, so no test below stops the walk
    simp only [contains_entryFlags_present, contains_entryFlags_hugePage, contains_and,
      absent4.1, absent4.2, absent3, absent2, Bool.not_true, Bool.false_and, Bool.false_eq_true,
      if_false, Bool.not_eq_true']
    cases contains (readEntry memory (entryAddr e2) (tableIndex vaddr 12)) present <;> rfl
  · simp at walked

/-- A 2 MiB user page at virtual address 0, backed by physical 0x200000;
the PML4 is at 0x1000, the PDPT at 0x2000 and the page directory at 0x3000,
and every other word is 0. -/
def hugePageMemory : Memory := fun address =>
  if address = 0x1000 then 0x2000 ||| 0x7
  else if address = 0x2000 then 0x3000 ||| 0x7
  else if address = 0x3000 then 0x200000 ||| 0x87
  else 0

theorem validate_user_range_misreads_huge_page :
    userAllows hugePageMemory 0x1000 0x1000 true = true ∧
      validateUserRange hugePageMemory 0x1000 0x1000 1 false = .error .invalidArgument ∧
      validateUserRange (Function.update hugePageMemory 0x200008 0x7) 0x1000 0x1000 1 true =
        .ok () :=
  ⟨rfl, rfl, rfl⟩

end Fullerene.Petroleum
