import Fullerene.Kernel.Event
import Fullerene.Petroleum.MapPage
import Fullerene.Petroleum.ProcessPageTable
import Fullerene.Lib.Word

/-!
# The native memory syscalls

`syscall_map_memory` maps fresh frames at a page-aligned user hint, or else
at the next range of a bump counter, one page at a time through
`MemoryContext::map_page`, that is `UnifiedMemoryManager::safe_map_page` and
`map_page_4k` under the manager's page table; a failure unmaps the pages
mapped so far.  `syscall_unmap_memory` unmaps page by page and gives each
unmapped frame back; `syscall_protect_memory` checks every page, then sets
the new flags, restoring the old ones on a failure.

`map_page_4k` overwrites an L1 entry that is already there, and nothing
checks the hint's pages before: mapping at a hint whose page is mapped
replaces the mapping, and the frame that backed it is neither mapped there
any more nor given back (`syscallMapMemory_hint_overwrites`,
`map_memory_twice_leaks_frame`).

What the `x86_64` crate's mapper does (`unmap`, `translate`, `update_flags`)
is a parameter, as in `Petroleum.ProcessPageTable`.
-/

namespace Fullerene.Kernel

open Paging Function
open Fullerene.Petroleum

/-- `PROT_READ`. -/
def protRead : Nat := 1

/-- `PROT_WRITE`. -/
def protWrite : Nat := 2

/-- `PROT_EXEC`. -/
def protExec : Nat := 4

/-- The `x86_64` mapper operations behind `translate_address` and
`set_page_flags`: the physical address an address translates to, if any, and
the update of a page's flags. -/
structure FlagOps where
  translate : Memory → (pml4 vaddr : Nat) → Option Nat
  updateFlags : Memory → (pml4 vaddr flags : Nat) → Except Petroleum.SystemError Unit × Memory

/-- The fields of `UnifiedMemoryManager` these calls read. -/
structure UnifiedMemoryManager where
  pageTableManager : ProcessPageTable
  initialized : Bool

/-- What the native memory syscalls read and change: the memory context's
manager, the page tables in physical memory with the free frames, the counter
`NEXT_VADDR`, and CR3. -/
structure NativeMemory where
  manager : Option UnifiedMemoryManager
  tables : Tables
  nextVaddr : Nat
  cr3 : Nat

namespace NativeMemory

variable (state : NativeMemory)

/-- `MemoryContext::allocate_frame`: the first free frame; `none` for each of
its errors (no manager, not initialized, no free frame). -/
def allocateFrame : Option (Nat × NativeMemory) :=
  match state.manager with
  | none => none
  | some manager =>
      if !manager.initialized then none
      else
        match state.tables.frames with
        | [] => none
        | frame :: rest => some (frame, { state with tables := { state.tables with frames := rest } })

/-- `MemoryContext::free_frame`: the frame is free again (its bit in the
bitmap cleared); nothing without an initialized manager. -/
def freeFrame (frame : Nat) : NativeMemory :=
  match state.manager with
  | some manager =>
      if manager.initialized ∧ frame ∉ state.tables.frames then
        { state with tables := { state.tables with frames := frame :: state.tables.frames } }
      else state
  | none => state

/-- `MemoryContext::map_page`, `UnifiedMemoryManager::safe_map_page`:
`map_page_4k` under the manager's current page table, keeping what it did on
a failure; `false` for an error, `none` for a panic. -/
def mapPage (vaddr frame flags : Nat) : Option (Bool × NativeMemory) :=
  match state.manager with
  | none => some (false, state)
  | some manager =>
      if !manager.initialized then some (false, state)
      else do
        let virt ← virtAddrTryNew vaddr
        let (result, tables) ← mapPage4k state.tables manager.pageTableManager.currentPageTable virt frame flags
        match result with
        | .ok () => some (true, { state with tables })
        | .error _ => some (false, { state with tables })

/-- `UnifiedMemoryManager::safe_unmap_page`: unmap through the page table
manager and free the frame it returns; a failed unmap is ignored. -/
def safeUnmapPage (ops : OffsetOps) (manager : UnifiedMemoryManager) (vaddr : Nat) :
    Option (Bool × NativeMemory) :=
  if !manager.initialized then some (false, state)
  else do
    let (result, memory) ← manager.pageTableManager.unmapPage ops state.tables.memory vaddr
    let unmapped := { state with tables := { state.tables with memory } }
    match result with
    | .ok frame => some (true, unmapped.freeFrame frame)
    | .error _ => some (true, unmapped)

/-- `rollback_mapped_pages`: unmap each page mapped so far, ignoring errors. -/
def rollbackMappedPages (ops : OffsetOps) (pages : List Nat) : Option NativeMemory :=
  match state.manager with
  | none => some state
  | some manager =>
      pages.foldlM (fun state vaddr => (state.safeUnmapPage ops manager vaddr).map Prod.snd) state

end NativeMemory

/-- The page flags of `syscall_map_memory` for `prot`. -/
def mapFlags (prot : Nat) : Nat :=
  let flags := if prot &&& protRead ≠ 0 then present else 0
  let flags := if prot &&& protWrite ≠ 0 then flags ||| writable else flags
  let flags := if prot &&& protExec = 0 then flags ||| noExecuteFlag else flags
  flags ||| userAccessible

/-- The loop of `syscall_map_memory` over the page indices; `mapped` are the
pages mapped so far. -/
def mapLoop (ops : OffsetOps) (virtBase flags : Nat) :
    NativeMemory → List Nat → List Nat → Option (Except SyscallError Unit × NativeMemory)
  | state, _, [] => some (.ok (), state)
  | state, mapped, i :: rest =>
      match state.allocateFrame with
      | none => (state.rollbackMappedPages ops mapped).map fun state => (.error .outOfMemory, state)
      | some (frame, state) => do
          let vaddr := virtBase + i * 4096
          match ← state.mapPage vaddr frame flags with
          | (true, state) => mapLoop ops virtBase flags state (mapped ++ [vaddr]) rest
          | (false, state) =>
              ((state.freeFrame frame).rollbackMappedPages ops mapped).map fun state =>
                (.error .outOfMemory, state)

/-- The checks of a user range `[addr, addr + length)` that the syscalls
share: `InvalidArgument` when the end overflows or an end is not canonical,
`PermissionDenied` when it leaves the user half. -/
def checkUserRange (addr length : Nat) : Except SyscallError Unit :=
  match Word.checkedAdd 64 addr length with
  | none => .error .invalidArgument
  | some endVaddr =>
      match virtAddrTryNew addr, virtAddrTryNew (endVaddr - 1) with
      | some startAddr, some endAddr =>
          if !isUserAddress startAddr || !isUserAddress endAddr then .error .permissionDenied else .ok ()
      | _, _ => .error .invalidArgument

/-- `syscall_map_memory(addr_hint, length, flags)`; the new range's address on
success. -/
def syscallMapMemory (ops : OffsetOps) (state : NativeMemory) (addrHint length flags : Nat) :
    Option (Except SyscallError Nat × NativeMemory) :=
  if length = 0 ∨ 128 * 2 ^ 20 < length then some (.error .invalidArgument, state)
  else
    match (if addrHint ≠ 0 then checkUserRange addrHint length else .ok ()) with
    | .error error => some (.error error, state)
    | .ok () =>
        let prot := (flags >>> 16) &&& 0xFF
        let ptFlags := mapFlags prot
        let (virtBase, state) :=
          if addrHint ≠ 0 ∧ addrHint % 4096 = 0 ∧ isUserAddress addrHint then (addrHint, state)
          else
            let alignedLen := (length + 4095) / 4096 * 4096
            (state.nextVaddr, { state with nextVaddr := (state.nextVaddr + alignedLen) % 2 ^ 64 })
        let numPages := (length + 4095) / 4096
        (mapLoop ops virtBase ptFlags state [] (List.range numPages)).map fun (result, state) =>
          match result with
          | .ok () => (.ok virtBase, state)
          | .error error => (.error error, state)

/-- The loop of `syscall_unmap_memory`, which stops at the first error. -/
def unmapLoop (ops : OffsetOps) (manager : UnifiedMemoryManager) (addr : Nat) :
    NativeMemory → List Nat → Option (Except SyscallError Unit × NativeMemory)
  | state, [] => some (.ok (), state)
  | state, i :: rest => do
      match ← state.safeUnmapPage ops manager (addr + i * 4096) with
      | (true, state) => unmapLoop ops manager addr state rest
      | (false, state) => some (.error .outOfMemory, state)

/-- `syscall_unmap_memory(addr, length)`. -/
def syscallUnmapMemory (ops : OffsetOps) (state : NativeMemory) (addr length : Nat) :
    Option (Except SyscallError Nat × NativeMemory) :=
  if length = 0 ∨ addr % 4096 ≠ 0 then some (.error .invalidArgument, state)
  else
    match checkUserRange addr length with
    | .error error => some (.error error, state)
    | .ok () =>
        match state.manager with
        | none => some (.error .outOfMemory, state)
        | some manager =>
            (unmapLoop ops manager addr state (List.range ((length + 4095) / 4096))).map fun (result, state) =>
              match result with
              | .ok () => (.ok 0, state)
              | .error error => (.error error, state)

/-- `get_page_flags`: the flags of the L1 entry of `vaddr` under CR3, empty
when it or a table on the way is not present (or a huge page). -/
def getPageFlags (memory : Memory) (cr3 vaddr : Nat) : Nat :=
  let step (table : Option Nat) (shift : Nat) : Option Nat :=
    table.bind fun table =>
      let entry := readEntry memory table (tableIndex vaddr shift)
      if contains entry present && !contains entry hugePage then some (entryAddr entry) else none
  match step (step (step (some cr3) 39) 30) 21 with
  | none => 0
  | some l1 =>
      let entry := readEntry memory l1 (tableIndex vaddr 12)
      if contains (entryFlags entry) present then entryFlags entry else 0

/-- The flags of `syscall_protect_memory` for `prot`. -/
def protectFlags (prot : Nat) : Nat :=
  if prot = 0 then userAccessible
  else
    let flags := if prot &&& protRead ≠ 0 then present else 0
    let flags := if prot &&& protWrite ≠ 0 ∨ prot &&& protExec ≠ 0 then flags ||| present else flags
    let flags := flags ||| userAccessible
    let flags := if prot &&& protWrite ≠ 0 then flags ||| writable else flags
    if prot &&& protExec = 0 then flags ||| noExecuteFlag else flags

/-- `set_page_flags` through the page table manager; `none` for the panic of
a table without a mapper. -/
def setPageFlags (flagOps : FlagOps) (table : ProcessPageTable) (memory : Memory) (vaddr flags : Nat) :
    Option (Except Petroleum.SystemError Unit × Memory) :=
  table.withMapper (.error .internalError, memory) fun pml4 => flagOps.updateFlags memory pml4 vaddr flags

/-- The first pass of `syscall_protect_memory`: every page translates, and
its old flags are kept for a rollback. -/
def collectPageInfo (flagOps : FlagOps) (table : ProcessPageTable) (memory : Memory) (cr3 addr : Nat) :
    List Nat → Option (Except SyscallError (List (Nat × Nat)))
  | [] => some (.ok [])
  | i :: rest => do
      let vaddr := addr + i * 4096
      let translated ← table.withMapper none fun pml4 => flagOps.translate memory pml4 vaddr
      match translated with
      | none => some (.error .invalidArgument)
      | some _ =>
          -- `get_page_flags` answers `InternalError` only before `init`
          if !table.initialized then some (.error .invalidArgument)
          else
            (collectPageInfo flagOps table memory cr3 addr rest).map fun rest =>
              rest.map fun rest => (vaddr, getPageFlags memory cr3 vaddr) :: rest

/-- The second pass: set the new flags page by page; at the first failure
restore the pages before it and answer `OutOfMemory`. -/
def applyFlags (flagOps : FlagOps) (table : ProcessPageTable) (flags : Nat) (done : List (Nat × Nat)) :
    Memory → List (Nat × Nat) → Option (Except SyscallError Unit × Memory)
  | memory, [] => some (.ok (), memory)
  | memory, (vaddr, original) :: rest => do
      match ← setPageFlags flagOps table memory vaddr flags with
      | (.ok (), memory) => applyFlags flagOps table flags (done ++ [(vaddr, original)]) memory rest
      | (.error _, memory) =>
          let restored ← done.foldlM (fun memory (vaddr, original) =>
            (setPageFlags flagOps table memory vaddr original).map Prod.snd) memory
          some (.error .outOfMemory, restored)

/-- `syscall_protect_memory(addr, length, prot)`. -/
def syscallProtectMemory (flagOps : FlagOps) (state : NativeMemory) (addr length prot : Nat) :
    Option (Except SyscallError Nat × NativeMemory) :=
  if length = 0 ∨ 128 * 2 ^ 20 < length ∨ addr % 4096 ≠ 0 then some (.error .invalidArgument, state)
  else
    match virtAddrTryNew addr with
    | none => some (.error .invalidArgument, state)
    | some startAddr =>
        match Word.checkedAdd 64 addr (length - 1) with
        | none => some (.error .invalidArgument, state)
        | some endVaddr =>
            match virtAddrTryNew endVaddr with
            | none => some (.error .invalidArgument, state)
            | some endAddr =>
                if !isUserAddress startAddr || !isUserAddress endAddr then some (.error .permissionDenied, state)
                else
                  match state.manager with
                  | none => some (.error .outOfMemory, state)
                  | some manager => do
                      let table := manager.pageTableManager
                      let numPages := (length + 4095) / 4096
                      match ← collectPageInfo flagOps table state.tables.memory state.cr3 addr (List.range numPages) with
                      | .error error => some (.error error, state)
                      | .ok pageInfo =>
                          let (result, memory) ← applyFlags flagOps table (protectFlags prot) [] state.tables.memory pageInfo
                          let state := { state with tables := { state.tables with memory } }
                          match result with
                          | .ok () => some (.ok 0, state)
                          | .error error => some (.error error, state)

/-! ## Mapping at a hint whose page is mapped -/

theorem checkUserRange_of_le {addr length : Nat} (positive : 0 < length)
    (user : addr + length ≤ 0x0000800000000000) : checkUserRange addr length = .ok () := by
  have fits : Word.checkedAdd 64 addr length = some (addr + length) := Word.checkedAdd_of_lt (by omega)
  have startCanonical : virtAddrTryNew addr = some addr := by
    unfold virtAddrTryNew
    rw [if_pos (Or.inl (by omega))]
  have endCanonical : virtAddrTryNew (addr + length - 1) = some (addr + length - 1) := by
    unfold virtAddrTryNew
    rw [if_pos (Or.inl (by omega))]
  have startUser : isUserAddress addr = true := by
    simp only [isUserAddress, decide_eq_true_eq]
    omega
  have endUser : isUserAddress (addr + length - 1) = true := by
    simp only [isUserAddress, decide_eq_true_eq]
    omega
  simp [checkUserRange, fits, startCanonical, endCanonical, startUser, endUser]

namespace NativeMemory

variable {state : NativeMemory} {manager : UnifiedMemoryManager}

theorem allocateFrame_of_cons (present : state.manager = some manager) (ready : manager.initialized = true)
    {frame : Nat} {rest : List Nat} (free : state.tables.frames = frame :: rest) :
    state.allocateFrame = some (frame, { state with tables := { state.tables with frames := rest } }) := by
  simp [allocateFrame, present, ready, free]

/-- Under an initialized manager, `map_page` at a user page whose tables exist
writes the page's L1 entry, whatever it held. -/
theorem mapPage_of_tables (present : state.manager = some manager) (ready : manager.initialized = true)
    {vaddr frame flags pml4e pdpte pde : Nat} (user : vaddr < 0x0000800000000000)
    (aligned : frame % 4096 = 0)
    (readL4 : readEntry state.tables.memory manager.pageTableManager.currentPageTable (tableIndex vaddr 39) = pml4e)
    (l4Used : pml4e ≠ 0)
    (readL3 : readEntry state.tables.memory (entryAddr pml4e) (tableIndex vaddr 30) = pdpte) (l3Used : pdpte ≠ 0)
    (l3Small : contains (entryFlags pdpte) hugePage = false)
    (readL2 : readEntry state.tables.memory (entryAddr pdpte) (tableIndex vaddr 21) = pde) (l2Used : pde ≠ 0)
    (l2Small : contains (entryFlags pde) hugePage = false) :
    state.mapPage vaddr frame flags = some (true, { state with tables :=
      ⟨setEntry state.tables.memory (entryAddr pde) (tableIndex vaddr 12) frame flags, state.tables.frames⟩ }) := by
  have canonical : virtAddrTryNew vaddr = some vaddr := by
    unfold virtAddrTryNew
    rw [if_pos (Or.inl user)]
  simp only [mapPage, present, ready, Bool.not_true, Bool.false_eq_true, if_false, canonical,
    Option.bind_eq_bind, Option.bind_some,
    mapPage4k_of_tables aligned readL4 l4Used readL3 l3Used l3Small readL2 l2Used l2Small]

end NativeMemory

/-- `syscall_map_memory` of one page at a page-aligned user hint whose tables
exist succeeds with the first free frame and overwrites the hint's L1 entry,
whatever it held: a frame mapped there before is no longer mapped at the hint
and is not given back. -/
theorem syscallMapMemory_hint_overwrites (ops : OffsetOps) {state : NativeMemory}
    {manager : UnifiedMemoryManager} (present : state.manager = some manager)
    (ready : manager.initialized = true) {frame : Nat} {rest : List Nat}
    (free : state.tables.frames = frame :: rest) (aligned : frame % 4096 = 0) {hint flags pml4e pdpte pde : Nat}
    (nonzero : hint ≠ 0) (pageAligned : hint % 4096 = 0) (user : hint + 4096 ≤ 0x0000800000000000)
    (readL4 : readEntry state.tables.memory manager.pageTableManager.currentPageTable (tableIndex hint 39) = pml4e)
    (l4Used : pml4e ≠ 0)
    (readL3 : readEntry state.tables.memory (entryAddr pml4e) (tableIndex hint 30) = pdpte) (l3Used : pdpte ≠ 0)
    (l3Small : contains (entryFlags pdpte) hugePage = false)
    (readL2 : readEntry state.tables.memory (entryAddr pdpte) (tableIndex hint 21) = pde) (l2Used : pde ≠ 0)
    (l2Small : contains (entryFlags pde) hugePage = false) :
    syscallMapMemory ops state hint 4096 flags =
      some (.ok hint, { state with tables :=
        ⟨setEntry state.tables.memory (entryAddr pde) (tableIndex hint 12) frame
          (mapFlags ((flags >>> 16) &&& 0xFF)), rest⟩ }) := by
  have allocated := NativeMemory.allocateFrame_of_cons present ready free
  have mapped := @NativeMemory.mapPage_of_tables { state with tables := { state.tables with frames := rest } }
    manager present ready hint frame (mapFlags ((flags >>> 16) &&& 0xFF)) pml4e pdpte pde (by omega) aligned
    readL4 l4Used readL3 l3Used l3Small readL2 l2Used l2Small
  simp only [syscallMapMemory, show ¬ (4096 = 0 ∨ 128 * 2 ^ 20 < 4096) by decide, if_false,
    checkUserRange_of_le (by decide) user, isUserAddress, nonzero, pageAligned, show hint < 0x0000800000000000 by omega,
    decide_true, ne_eq, not_false_eq_true, and_self, if_true]
  simp [mapLoop, allocated, mapped]

/-- The memory context after `init`: the manager's page table at `0x1000`
maps its first 2 MiB page through the L1 table at `0x4000`, which is empty;
two frames are free. -/
def oneTableMemory : NativeMemory :=
  ⟨some ⟨⟨0x1000, true, some 0x1000, some 0x1000, []⟩, true⟩,
    ⟨fun addr => if addr = 0x1000 then 0x2007 else if addr = 0x2000 then 0x3007
      else if addr = 0x3010 then 0x4007 else 0, [0x10000, 0x11000]⟩,
    0x10000000000, 0x1000⟩

/-- Two `syscall_map_memory(0x400000, 4096, PROT_READ | PROT_WRITE)` calls:
both succeed, the second replaces the first's frame `0x10000` in the page's
L1 entry, and that frame is not free either. -/
theorem map_memory_twice_leaks_frame (ops : OffsetOps) :
    ∃ afterFirst afterSecond,
      syscallMapMemory ops oneTableMemory 0x400000 4096 0x30000 = some (.ok 0x400000, afterFirst) ∧
      syscallMapMemory ops afterFirst 0x400000 4096 0x30000 = some (.ok 0x400000, afterSecond) ∧
      (walk afterFirst.tables.memory 0x1000 0x400000).map Leaf.entries =
        some [0x2007, 0x3007, 0x4007, 0x10000 ||| mapFlags 3] ∧
      (walk afterSecond.tables.memory 0x1000 0x400000).map Leaf.entries =
        some [0x2007, 0x3007, 0x4007, 0x11000 ||| mapFlags 3] ∧
      afterSecond.tables.frames = [] := by
  -- each call writes the page's L1 entry, the tables above it being there
  refine ⟨_, _,
    syscallMapMemory_hint_overwrites ops rfl rfl rfl (by decide) (by decide) (by decide) (by decide)
      rfl (by decide) rfl (by decide) (by decide) rfl (by decide) (by decide),
    syscallMapMemory_hint_overwrites ops rfl rfl rfl (by decide) (by decide) (by decide) (by decide)
      rfl (by decide) rfl (by decide) (by decide) rfl (by decide) (by decide), ?_, ?_, rfl⟩
  · decide +kernel
  · decide +kernel

end Fullerene.Kernel
