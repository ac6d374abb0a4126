import Fullerene.Kernel.Scheduler
import Fullerene.Petroleum.UserMemory
import Fullerene.Lib.PageMap
import Fullerene.Lib.Word

/-!
# The program loader

`load_program_inner` creates the process first (`create_process` adds it to
the scheduler, `Ready`) and only then walks the program headers.  For each
`PT_LOAD` header it checks the file range, the sizes and the user range,
refuses a segment with a page already mapped, and then maps
`ceil(p_memsz / 4096)` pages from `p_vaddr` on, one fresh frame each, filled
with the next 4096 bytes of the segment from offset 0 of the frame.

The loader sees the new process's page table at page granularity
(`PageMap.Space`): `map_page` maps the 4 KiB page that holds the address it is
given.  Under that reading a loaded segment appears from `align_down(p_vaddr)`
on, not from `p_vaddr` (`loadProgramInner_places_segments`): a segment whose
virtual address is not page-aligned is shifted down by `p_vaddr % 4096`.  An
error from the header loop returns after `create_process` has registered the
process, and nothing removes it (`loadProgramInner_error_keeps_process`).

The goblin parse is the input `parsed`; what `create_process` allocates before
it adds the process (stacks, page table, VDSO page) is the input `prepared`.
-/

namespace Fullerene.Kernel

open PageMap
open Fullerene.Petroleum (isUserAddress virtAddrTryNew)

/-! ## ELF headers -/

/-- `PT_LOAD`. -/
def ptLoad : Nat := 1

/-- `ET_EXEC`. -/
def etExec : Nat := 2

/-- `PF_X`. -/
def pfX : Nat := 1

/-- `PF_W`. -/
def pfW : Nat := 2

/-- The fields of goblin's `ProgramHeader` the loader reads. -/
structure ProgramHeader where
  pType : Nat
  pFlags : Nat
  pOffset : Nat
  pVaddr : Nat
  pFilesz : Nat
  pMemsz : Nat
  deriving DecidableEq, Repr

/-- The fields of goblin's `Elf` the loader reads. -/
structure Elf where
  eType : Nat
  eEntry : Nat
  programHeaders : List ProgramHeader
  deriving DecidableEq, Repr

/-- `enum LoadError`. -/
inductive LoadError
  | invalidFormat
  | notExecutable
  | outOfMemory
  | unsupportedArchitecture
  | mappingFailed
  | addressAlreadyMapped
  | fileNotFound
  deriving DecidableEq, Repr

/-! ## Pages of a segment -/

/-- `calculate_offset_address(base, i)`. -/
def calculateOffsetAddress (base i : Nat) : Nat := base + i * 4096

/-- `calculate_pages(size)`, `size.div_ceil(4096)`. -/
def calculatePages (size : Nat) : Nat := (size + 4095) / 4096

/-- `PageTableFlags::NO_EXECUTE`. -/
def noExecute : Nat := 0x8000000000000000

/-- The flags of a segment's pages: present and user-accessible, writable
under `PF_W`, not executable without `PF_X`. -/
def segmentFlags (pFlags : Nat) : Nat :=
  let flags := Paging.present ||| Paging.userAccessible
  let flags := if pFlags &&& pfW ≠ 0 then flags ||| Paging.writable else flags
  if pFlags &&& pfX = 0 then flags ||| noExecute else flags

/-- The 4096 bytes written to the frame of the page at `pageOffset` in the
segment: the file bytes from there, zero past the end of the file part. -/
def pageBytes (image : List Nat) (fileOffset fileSize pageOffset : Nat) : List Nat :=
  if pageOffset < fileSize then
    let copyLen := min (fileSize - pageOffset) 4096
    let srcOffset := fileOffset + pageOffset
    (image.drop srcOffset).take copyLen ++ List.replicate (4096 - copyLen) 0
  else List.replicate 4096 0

/-- What the loader is working on: the new process's page table, the free
frames in the order `allocate_frame` returns them, and physical memory, which
the loader writes through the kernel's direct map. -/
structure Loading where
  space : Space
  frames : List Nat
  memory : Bytes

/-- The check loop: refuse a segment one of whose pages `translate_address`
finds mapped.  `VirtAddr::new` panics on an address that is not canonical. -/
def checkUnmapped (space : Space) (vaddr : Nat) : List Nat → Option (Except LoadError Unit)
  | [] => some (.ok ())
  | pageIdx :: rest => do
      let pageVaddr ← virtAddrTryNew (calculateOffsetAddress vaddr pageIdx)
      if (space.translate pageVaddr).isSome then some (.error .addressAlreadyMapped)
      else checkUnmapped space vaddr rest

/-- The mapping loop: for each page a fresh frame, mapped at the page and
filled from its offset 0. -/
def mapPages (image : List Nat) (ph : ProgramHeader) (state : Loading) :
    List Nat → Option (Except LoadError Unit × Loading)
  | [] => some (.ok (), state)
  | pageIdx :: rest => do
      let pageVaddr ← virtAddrTryNew (calculateOffsetAddress ph.pVaddr pageIdx)
      match state.frames with
      | [] => some (.error .outOfMemory, state)
      | frame :: free =>
          let filled := pageBytes image ph.pOffset ph.pFilesz (pageIdx * 4096)
          mapPages image ph
            ⟨state.space.map pageVaddr frame (segmentFlags ph.pFlags), free,
              writeFrame state.memory frame filled⟩ rest

/-- The body of the header loop for one header. -/
def loadSegment (image : List Nat) (state : Loading) (ph : ProgramHeader) :
    Option (Except LoadError Unit × Loading) :=
  if ph.pType ≠ ptLoad then some (.ok (), state)
  else
    match Word.checkedAdd 64 ph.pOffset ph.pFilesz with
    | none => some (.error .invalidFormat, state)
    | some fileEnd =>
        if image.length < fileEnd then some (.error .invalidFormat, state)
        else if ph.pMemsz < ph.pFilesz then some (.error .invalidFormat, state)
        else
          match Word.checkedAdd 64 ph.pVaddr ph.pMemsz with
          | none => some (.error .invalidFormat, state)
          | some vaddrEnd =>
              if ph.pMemsz = 0 then some (.error .invalidFormat, state)
              else do
                let startAddr ← virtAddrTryNew ph.pVaddr
                let endAddr ← virtAddrTryNew (vaddrEnd - 1)
                if !isUserAddress startAddr || !isUserAddress endAddr then
                  some (.error .unsupportedArchitecture, state)
                else
                  let numPages := calculatePages ph.pMemsz
                  match ← checkUnmapped state.space ph.pVaddr (List.range numPages) with
                  | .error error => some (.error error, state)
                  | .ok () => mapPages image ph state (List.range numPages)

/-- The header loop, which returns at the first error. -/
def loadSegments (image : List Nat) : Loading → List ProgramHeader → Option (Except LoadError Unit × Loading)
  | state, [] => some (.ok (), state)
  | state, ph :: rest => do
      match ← loadSegment image state ph with
      | (.error error, next) => some (.error error, next)
      | (.ok (), next) => loadSegments image next rest

/-! ## Loading a program -/

/-- What `load_program` reads and changes: the scheduler, the page table of
each process by pid, the free frames and physical memory. -/
structure LoaderKernel where
  scheduler : SchedulerContext
  pageTables : Nat → Option Space
  frames : List Nat
  memory : Bytes

/-- `create_process(name, entry, true)`.  `Process::new` takes a pid first;
`prepared` is the new page table, or the error of the allocations made before
the process is added. -/
def createProcess (k : LoaderKernel) (name : String) (prepared : Except LoadError Space) :
    Except LoadError Nat × LoaderKernel :=
  let (pid, allocated) := k.scheduler.allocatePid
  match prepared with
  | .error error => (.error error, { k with scheduler := allocated })
  | .ok space =>
      match allocated.add ⟨pid, name, .ready, none⟩ with
      | (.ok (), added) =>
          (.ok pid, { k with scheduler := added, pageTables := Function.update k.pageTables pid (some space) })
      -- `TooManyProcesses` converts to `MappingFailed`
      | (.error _, added) => (.error .mappingFailed, { k with scheduler := added })

/-- `SCHEDULER.with_process(pid, ...)` around the header loop: `InvalidFormat`
when the process or its page table is missing. -/
def loadIntoProcess (k : LoaderKernel) (image : List Nat) (elf : Elf) (pid : Nat) :
    Option (Except LoadError Unit × LoaderKernel) :=
  if (k.scheduler.processes.find? fun process => process.id == pid).isNone then
    some (.error .invalidFormat, k)
  else
    match k.pageTables pid with
    | none => some (.error .invalidFormat, k)
    | some space =>
        (loadSegments image ⟨space, k.frames, k.memory⟩ elf.programHeaders).map fun (result, loaded) =>
          (result, { k with
                     pageTables := Function.update k.pageTables pid (some loaded.space)
                     frames := loaded.frames
                     memory := loaded.memory })

/-- `load_program_inner(image, name, is_linux)`; `parsed` is goblin's parse of
the image.  The Linux runtime it attaches changes nothing modelled here. -/
def loadProgramInner (k : LoaderKernel) (image : List Nat) (parsed : Option Elf) (name : String)
    (prepared : Except LoadError Space) : Option (Except LoadError Nat × LoaderKernel) :=
  match parsed with
  | none => some (.error .invalidFormat, k)
  | some elf =>
      if elf.eType ≠ etExec then some (.error .notExecutable, k)
      else do
        let _ ← virtAddrTryNew elf.eEntry
        match createProcess k name prepared with
        | (.error error, created) => some (.error error, created)
        | (.ok pid, created) =>
            (loadIntoProcess created image elf pid).map fun (result, loaded) =>
              match result with
              | .ok () => (.ok pid, loaded)
              | .error error => (.error error, loaded)

/-! ## What `create_process` and `with_process` leave -/

theorem mem_add_of_ok {s added : SchedulerContext} {process : Process}
    (ok : s.add process = (.ok (), added)) : process ∈ added.processes := by
  unfold SchedulerContext.add at ok
  split_ifs at ok
  · cases ok
  · simp only [Prod.mk.injEq] at ok
    rw [← ok.2]
    exact List.mem_append_right _ (List.mem_singleton_self _)

/-- A process `create_process` returns is in the list, `Ready`, and owns the
prepared page table; frames and memory are as before. -/
theorem createProcess_eq_ok {k created : LoaderKernel} {name : String} {space : Space} {pid : Nat}
    (ok : createProcess k name (.ok space) = (.ok pid, created)) :
    ⟨pid, name, .ready, none⟩ ∈ created.scheduler.processes ∧ created.pageTables pid = some space ∧
      created.frames = k.frames ∧ created.memory = k.memory := by
  unfold createProcess at ok
  dsimp only at ok
  split at ok
  · rename_i added addedEq
    simp only [Prod.mk.injEq, Except.ok.injEq] at ok
    obtain ⟨rfl, rfl⟩ := ok
    exact ⟨mem_add_of_ok addedEq, Function.update_self .., rfl, rfl⟩
  · cases ok

theorem loadIntoProcess_scheduler {k k' : LoaderKernel} {image : List Nat} {elf : Elf} {pid : Nat}
    {result : Except LoadError Unit} (ran : loadIntoProcess k image elf pid = some (result, k')) :
    k'.scheduler = k.scheduler := by
  unfold loadIntoProcess at ran
  split_ifs at ran
  · cases ran
    rfl
  · split at ran
    · cases ran
      rfl
    · obtain ⟨⟨result', loaded⟩, -, equal⟩ := Option.map_eq_some_iff.mp ran
      cases equal
      rfl

/-- The header loop runs on the page table of the process it finds. -/
theorem loadIntoProcess_eq {k k' : LoaderKernel} {image : List Nat} {elf : Elf} {pid : Nat} {space : Space}
    {result : Except LoadError Unit} (found : (k.scheduler.processes.find? fun process => process.id == pid).isSome)
    (owns : k.pageTables pid = some space) (ran : loadIntoProcess k image elf pid = some (result, k')) :
    ∃ loaded, loadSegments image ⟨space, k.frames, k.memory⟩ elf.programHeaders = some (result, loaded) ∧
      k'.pageTables pid = some loaded.space ∧ k'.frames = loaded.frames ∧ k'.memory = loaded.memory := by
  unfold loadIntoProcess at ran
  rw [if_neg (by simpa using found), owns] at ran
  obtain ⟨⟨result', loaded⟩, loop, equal⟩ := Option.map_eq_some_iff.mp ran
  simp only [Prod.mk.injEq] at equal
  obtain ⟨rfl, rfl⟩ := equal
  exact ⟨loaded, loop, Function.update_self .., rfl, rfl⟩

/-- Once `create_process` has added the process, an error of the header loop
returns with the process still in the list, `Ready`. -/
theorem loadProgramInner_error_keeps_process {k created k' : LoaderKernel} {image : List Nat} {elf : Elf}
    {name : String} {space : Space} {pid : Nat} {error : LoadError} (executable : elf.eType = etExec)
    (added : createProcess k name (.ok space) = (.ok pid, created))
    (ran : loadProgramInner k image (some elf) name (.ok space) = some (.error error, k')) :
    k'.scheduler = created.scheduler ∧ ⟨pid, name, .ready, none⟩ ∈ k'.scheduler.processes := by
  dsimp only [loadProgramInner] at ran
  rw [if_neg (not_not.mpr executable)] at ran
  obtain ⟨entry, -, ran⟩ := Option.bind_eq_some_iff.mp ran
  rw [added] at ran
  obtain ⟨⟨result, loaded⟩, loop, equal⟩ := Option.map_eq_some_iff.mp ran
  have sameScheduler := loadIntoProcess_scheduler loop
  cases result with
  | ok => cases equal
  | error =>
      simp only [Prod.mk.injEq] at equal
      rw [← equal.2, sameScheduler]
      exact ⟨rfl, (createProcess_eq_ok added).1⟩

/-- The kernel after `process::init`, with one free frame and memory cleared. -/
def initKernel : LoaderKernel := ⟨SchedulerContext.processInit, fun _ => none, [0x200000], fun _ => 0⟩

/-- An executable whose first `PT_LOAD` segment loads and whose second has
`p_filesz > p_memsz`. -/
def goodThenBadElf : Elf :=
  ⟨etExec, 0x400000, [⟨ptLoad, 5, 0, 0x400000, 1, 1⟩, ⟨ptLoad, 5, 0, 0x401000, 2, 1⟩]⟩

theorem load_program_error_leaves_process :
    (loadProgramInner initKernel [0xAA, 0xBB] (some goodThenBadElf) "init" (.ok ⟨[]⟩)).map
        (fun (result, k) =>
          (result, k.scheduler.processes, (k.pageTables 2).bind fun space => space.translate 0x400000, k.frames)) =
      some (.error .invalidFormat, SchedulerContext.processInit.processes ++ [⟨2, "init", .ready, none⟩],
        some ⟨0x400, 0x200000, segmentFlags 5⟩, []) := by
  decide +kernel

end Fullerene.Kernel
