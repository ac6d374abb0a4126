import Fullerene.Kernel.Linux.Range
import Fullerene.Lib.Machine
import Fullerene.Lib.Paging

/-!
# The Linux memory calls

`sys_mmap` places an anonymous mapping with `find_free_anon_region`, maps a
fresh frame at each of its pages and tracks the region; `sys_munmap` and
`sys_mprotect` act on a range of owned user pages and keep the region list in
step; `sys_brk` moves the program break, mapping the pages it grows over.
Each page loop undoes the pages it mapped when a frame or a mapping fails.

The tracked regions stay page-aligned, inside the user half and pairwise
disjoint over every run of the four calls (`wellPlaced_of_run`), so the
search never returns a place that overlaps one.  Two answers differ from what
the calls are for.  The search returns `0` for "none", which is also the
first place when a hint in the first page rounds down to address 0: `mmap`
then fails with `ENOMEM` with the whole low range free
(`mmap_hint_in_first_page_fails`).  `brk` refuses to grow over pages that are
still mapped, and shrinking leaves them mapped, so growing back after a shrink
fails (`brk_regrow_after_shrink_fails`).

The memory manager is the initialized one of the running process.  Its page
table is the entry of each 4 KiB page, by page number: an entry in use holds a
frame and `PageTableFlags` bits, and it translates when it is present.  The
frame allocator hands out its free frames in order, and `mapFails` are the
pages whose `map_page` fails for want of a frame for a page table.
-/

namespace Fullerene.Kernel.Linux

open Paging (contains present writable userAccessible)

/-! ## Constants -/

def enomem : Nat := 12

def enosys : Nat := 38

/-- `errno_code(e)`: the negated errno as a `u64`. -/
def errnoCode (error : Nat) : Nat := (2 ^ 64 - error) % 2 ^ 64

def protRead : Nat := 0x1

def protWrite : Nat := 0x2

def protExec : Nat := 0x4

def protNone : Nat := 0x0

def mapShared : Nat := 0x01

def mapPrivate : Nat := 0x02

def mapFixed : Nat := 0x10

def mapAnonymous : Nat := 0x20

def defaultMmapBase : Nat := 0x0000000100000000

/-- `petroleum::vdso::VDSO_USER_BASE`. -/
def vdsoUserBase : Nat := 0x700000000000

def vdsoSize : Nat := pageSize

/-- `PageTableFlags::NO_EXECUTE`. -/
def noExecute : Nat := 0x8000000000000000

/-- `!(PROT_READ | PROT_WRITE | PROT_EXEC)` as the bits of an `i32`. -/
def notAllowedProt : Nat := 0xFFFFFFFF ^^^ (protRead ||| protWrite ||| protExec)

/-- `flags.remove(mask)`, that is `flags & !mask`. -/
def removeFlags (flags mask : Nat) : Nat := flags - (flags &&& mask)

/-! ## The memory manager -/

/-- A page-table entry in use: a frame and its `PageTableFlags` bits. -/
structure Mapping where
  frame : Nat
  flags : Nat
  deriving DecidableEq, Repr

/-- The page table by page number, the free frames, and the pages whose
`map_page` fails. -/
structure MemoryManager where
  entries : Nat → Option Mapping
  free : List Nat
  mapFails : Nat → Bool

namespace MemoryManager

variable (mgr : MemoryManager)

/-- `translate_address(addr).is_ok()`: the entry of the page is present. -/
def translates (addr : Nat) : Bool :=
  (mgr.entries (addr / pageSize)).any fun entry => contains entry.flags present

/-- `get_page_flags(addr)`: the flags of a present entry, and none otherwise. -/
def getPageFlags (addr : Nat) : Nat :=
  match mgr.entries (addr / pageSize) with
  | some entry => if contains entry.flags present then entry.flags else 0
  | none => 0

/-- `allocate_frame`. -/
def allocateFrame : Option (Nat × MemoryManager) :=
  match mgr.free with
  | [] => none
  | frame :: rest => some (frame, { mgr with free := rest })

/-- `free_frame`. -/
def freeFrame (frame : Nat) : MemoryManager := { mgr with free := frame :: mgr.free }

/-- `map_page(addr, frame, flags)`: an entry already in use is left as it is,
since `PageAlreadyMapped` is ignored. -/
def mapPage (addr frame flags : Nat) : Except Unit MemoryManager :=
  if mgr.mapFails (addr / pageSize) then .error ()
  else
    match mgr.entries (addr / pageSize) with
    | some _ => .ok mgr
    | none => .ok { mgr with entries := Function.update mgr.entries (addr / pageSize) (some ⟨frame, flags⟩) }

/-- `safe_unmap_page(addr)`: a present entry is cleared and its frame freed;
unmapping anything else fails, which the function ignores. -/
def safeUnmapPage (addr : Nat) : MemoryManager :=
  match mgr.entries (addr / pageSize) with
  | some entry =>
      if contains entry.flags present then
        { mgr with entries := Function.update mgr.entries (addr / pageSize) none, free := entry.frame :: mgr.free }
      else mgr
  | none => mgr

/-- `set_page_flags(addr, flags)`: fails on an entry not in use. -/
def setPageFlags (addr flags : Nat) : Option MemoryManager :=
  match mgr.entries (addr / pageSize) with
  | some entry =>
      some { mgr with entries := Function.update mgr.entries (addr / pageSize) (some { entry with flags := flags }) }
  | none => none

end MemoryManager

/-! ## The runtime's regions and break -/

/-- The fields of `LinuxRuntime` that the memory calls use. -/
structure LinuxRuntime where
  programBreak : Nat
  initialBreak : Nat
  mmapRegions : List LinuxMmapRegion
  deriving DecidableEq, Repr

namespace LinuxRuntime

variable (rt : LinuxRuntime)

/-- `track_region`. -/
def trackRegion (addr size prot : Nat) : LinuxRuntime :=
  { rt with mmapRegions := rt.mmapRegions ++ [⟨addr, size, prot⟩] }

/-- `remove_region`: drop the first region with this exact range. -/
def removeRegion (addr size : Nat) : Bool × LinuxRuntime :=
  match rt.mmapRegions.findIdx? fun region => region.addr == addr && region.size == size with
  | some position => (true, { rt with mmapRegions := rt.mmapRegions.eraseIdx position })
  | none => (false, rt)

/-- The end of `sys_mprotect`: the first region with this exact range takes
the new protection. -/
def setRegionProt (addr size prot : Nat) : LinuxRuntime :=
  match rt.mmapRegions.findIdx? fun region => region.addr == addr && region.size == size with
  | some position => { rt with mmapRegions := rt.mmapRegions.modify position fun region => { region with prot := prot } }
  | none => rt

end LinuxRuntime

/-- `overlaps_reserved_user_mapping`: the range meets the vDSO page. -/
def overlapsReservedUserMapping (addr size : Nat) : Bool :=
  rangesOverlap addr size vdsoUserBase vdsoSize

/-- `range_is_owned_user_memory`: every page is present and user-accessible. -/
def rangeIsOwnedUserMemory (mgr : MemoryManager) (addr size : Nat) : Bool :=
  (List.range (size / pageSize)).all fun index =>
    match Word.checkedAdd 64 addr (index * pageSize) with
    | none => false
    | some page => contains (mgr.getPageFlags page) userAccessible

/-! ## `mmap`, `munmap` and `mprotect` -/

/-- The page flags of `sys_mmap` for a protection. -/
def mmapPageFlags (prot : Nat) : Nat :=
  let flags := present ||| userAccessible ||| noExecute
  let flags := if prot &&& protWrite ≠ 0 then flags ||| writable else flags
  if prot &&& protExec ≠ 0 then removeFlags flags noExecute else flags

/-- The page loop of `sys_mmap`: a fresh frame at each page in turn.  When a
frame or a mapping fails, the frame of the turn goes back and the pages in
`mapped`, those mapped so far, are unmapped. -/
def mapEach (flags : Nat) (mgr : MemoryManager) (mapped : List Nat) : List Nat → Except MemoryManager MemoryManager
  | [] => .ok mgr
  | page :: rest =>
      match mgr.allocateFrame with
      | none => .error (mapped.foldl MemoryManager.safeUnmapPage mgr)
      | some (frame, allocated) =>
          match allocated.mapPage page frame flags with
          | .error () => .error (mapped.foldl MemoryManager.safeUnmapPage (allocated.freeFrame frame))
          | .ok next => mapEach flags next (mapped ++ [page]) rest

/-- The pages of a range of `size` bytes at `addr`; the sums stay below
`USER_ADDRESS_LIMIT`, so the `+` of the loops cannot overflow. -/
def pagesOf (addr size : Nat) : List Nat :=
  (List.range (size / pageSize)).map fun index => addr + index * pageSize

/-- The end of `sys_mmap` from the search on: a place for `alignedLen` bytes at
or after `hint`, a fresh frame at each of its pages, and the region tracked. -/
def mmapAt (rt : LinuxRuntime) (mgr : MemoryManager) (prot alignedLen hint : Nat) :
    Option (Nat × LinuxRuntime × MemoryManager) :=
  (findFreeAnonRegion rt.mmapRegions mgr.translates alignedLen hint).map fun addr =>
    if addr = 0 then (errnoCode enomem, rt, mgr)
    else
      match mapEach (mmapPageFlags prot) mgr [] (pagesOf addr alignedLen) with
      | .error rolledBack => (errnoCode enomem, rt, rolledBack)
      | .ok mapped => (addr, rt.trackRegion addr alignedLen prot, mapped)

/-- `sys_mmap(addr_hint, length, prot, flags, fd, offset)` with the `i32`
arguments as their 32-bit patterns: the return value, and `none` for a panic. -/
def sysMmap (rt : LinuxRuntime) (mgr : MemoryManager) (addrHint length protArg flagsArg offset : Nat) :
    Option (Nat × LinuxRuntime × MemoryManager) :=
  let prot := protArg % 2 ^ 32
  let flags := flagsArg % 2 ^ 32
  let sharing := flags &&& (mapPrivate ||| mapShared)
  if prot &&& notAllowedProt ≠ 0 then some (errnoCode einval, rt, mgr)
  else if sharing = 0 ∨ sharing = mapPrivate ||| mapShared then some (errnoCode einval, rt, mgr)
  else if flags &&& mapFixed ≠ 0 then some (errnoCode einval, rt, mgr)
  else if length = 0 then some (errnoCode einval, rt, mgr)
  else if flags &&& mapAnonymous = 0 then some (errnoCode enosys, rt, mgr)
  else if offset ≠ 0 then some (errnoCode einval, rt, mgr)
  else
    match checkedPageRange 0 length false with
    | .error error => some (errnoCode error, rt, mgr)
    | .ok (_, alignedLen) =>
        let hint := if addrHint = 0 then .ok defaultMmapBase
          else (checkedPageRange addrHint alignedLen false).map Prod.fst
        match hint with
        | .error error => some (errnoCode error, rt, mgr)
        | .ok hint => mmapAt rt mgr prot alignedLen hint

/-- `sys_munmap(addr, length)`; `safe_unmap_page` never fails on the
initialized manager. -/
def sysMunmap (rt : LinuxRuntime) (mgr : MemoryManager) (addr length : Nat) :
    Nat × LinuxRuntime × MemoryManager :=
  match checkedPageRange addr length true with
  | .error error => (errnoCode error, rt, mgr)
  | .ok (alignedAddr, alignedLen) =>
      if overlapsReservedUserMapping alignedAddr alignedLen then (errnoCode einval, rt, mgr)
      else if !rangeIsOwnedUserMemory mgr alignedAddr alignedLen then (errnoCode einval, rt, mgr)
      else
        let unmapped := (pagesOf alignedAddr alignedLen).foldl MemoryManager.safeUnmapPage mgr
        (0, (rt.removeRegion alignedAddr alignedLen).2, unmapped)

/-- The page flags of `sys_mprotect` for a protection. -/
def mprotectPageFlags (prot : Nat) : Nat :=
  if prot ≠ protNone then
    let flags := userAccessible ||| present
    let flags := if prot &&& protWrite ≠ 0 then flags ||| writable else flags
    if prot &&& protExec = 0 then flags ||| noExecute else flags
  else userAccessible

/-- The flag loop of `sys_mprotect`: set the flags of each page in turn; when
one fails, put back the original flags of the pages before it. -/
def protectEach (flags : Nat) (original : List (Nat × Nat)) (mgr : MemoryManager) :
    List (Nat × Nat) → Except MemoryManager MemoryManager
  | [] => .ok mgr
  | (page, _) :: rest =>
      match mgr.setPageFlags page flags with
      | none =>
          .error ((original.take (original.length - rest.length - 1)).foldl
            (fun restored (rollbackPage, rollbackFlags) => (restored.setPageFlags rollbackPage rollbackFlags).getD restored)
            mgr)
      | some next => protectEach flags original next rest

/-- `sys_mprotect(addr, length, prot)`. -/
def sysMprotect (rt : LinuxRuntime) (mgr : MemoryManager) (addr length protArg : Nat) :
    Nat × LinuxRuntime × MemoryManager :=
  let prot := protArg % 2 ^ 32
  if prot &&& notAllowedProt ≠ 0 then (errnoCode einval, rt, mgr)
  else
    match checkedPageRange addr length false with
    | .error error => (errnoCode error, rt, mgr)
    | .ok (alignedAddr, alignedLen) =>
        if overlapsReservedUserMapping alignedAddr alignedLen then (errnoCode einval, rt, mgr)
        else if !rangeIsOwnedUserMemory mgr alignedAddr alignedLen then (errnoCode einval, rt, mgr)
        else
          let original := (pagesOf alignedAddr alignedLen).map fun page => (page, mgr.getPageFlags page)
          match protectEach (mprotectPageFlags prot) original mgr original with
          | .error restored => (errnoCode enomem, rt, restored)
          | .ok protected_ => (0, rt.setRegionProt alignedAddr alignedLen prot, protected_)

/-! ## `brk` -/

/-- The page flags of the heap. -/
def brkPageFlags : Nat := present ||| writable ||| userAccessible

/-- The page loop of `sys_brk` over the indices from `startPage`.  A failed
frame unmaps the pages before the index that translate; a failed mapping
frees its frame and unmaps them all. -/
def brkMapEach (startPage : Nat) (mgr : MemoryManager) : List Nat → Except MemoryManager MemoryManager
  | [] => .ok mgr
  | index :: rest =>
      match mgr.allocateFrame with
      | none =>
          .error ((List.range index).foldl (fun restored earlier =>
            let unmapVaddr := startPage + earlier * pageSize
            if restored.translates unmapVaddr then restored.safeUnmapPage unmapVaddr else restored) mgr)
      | some (frame, allocated) =>
          match allocated.mapPage (startPage + index * pageSize) frame brkPageFlags with
          | .error () =>
              .error ((List.range index).foldl (fun restored earlier =>
                restored.safeUnmapPage (startPage + earlier * pageSize)) (allocated.freeFrame frame))
          | .ok next => brkMapEach startPage next rest

/-- `sys_brk(new_brk)`: the break after the call, and `none` for a panic. -/
def sysBrk (rt : LinuxRuntime) (mgr : MemoryManager) (newBrk : Nat) : Option (Nat × LinuxRuntime × MemoryManager) :=
  if newBrk = 0 then some (rt.programBreak, rt, mgr)
  else if newBrk < rt.initialBreak ∨ newBrk ≥ userAddressLimit ∨ newBrk - rt.initialBreak > maxLinuxMemory then
    some (rt.programBreak, rt, mgr)
  else
    let oldBrk := rt.programBreak
    let moved := { rt with programBreak := newBrk }
    if newBrk > oldBrk then
      -- `(old_brk + align - 1) & !(align - 1)` and the same for `new_brk`
      (Word.checkedAdd 64 oldBrk pageSize).bind fun oldRaised =>
        (Word.checkedAdd 64 newBrk pageSize).map fun newRaised =>
          let startPage := (oldRaised - 1) &&& pageFrameMask
          let endPage := (newRaised - 1) &&& pageFrameMask
          if endPage > startPage then
            let growth := endPage - startPage
            if trackedRangeOverlaps rt.mmapRegions startPage growth || rangeIsMapped mgr.translates startPage growth then
              (oldBrk, rt, mgr)
            else
              match brkMapEach startPage mgr (List.range (growth / pageSize)) with
              | .error rolledBack => (oldBrk, rt, rolledBack)
              | .ok mapped => (newBrk, moved, mapped)
          else (newBrk, moved, mgr)
    -- shrinking only lowers the break
    else some (newBrk, moved, mgr)

/-! ## The calls as a machine -/

/-- The runtime and the memory manager of one Linux process. -/
structure LinuxMemory where
  runtime : LinuxRuntime
  manager : MemoryManager

/-- A memory call with the arguments it reads. -/
inductive MemoryCall
  | mmap (addrHint length prot flags offset : Nat)
  | munmap (addr length : Nat)
  | mprotect (addr length prot : Nat)
  | brk (newBrk : Nat)
  deriving DecidableEq, Repr

/-- One call and its `u64` return value. -/
def LinuxMemory.step (state : LinuxMemory) : MemoryCall → Option (Nat × LinuxMemory)
  | .mmap addrHint length prot flags offset =>
      (sysMmap state.runtime state.manager addrHint length prot flags offset).map
        fun (reply, rt, mgr) => (reply, ⟨rt, mgr⟩)
  | .munmap addr length =>
      let (reply, rt, mgr) := sysMunmap state.runtime state.manager addr length
      some (reply, ⟨rt, mgr⟩)
  | .mprotect addr length prot =>
      let (reply, rt, mgr) := sysMprotect state.runtime state.manager addr length prot
      some (reply, ⟨rt, mgr⟩)
  | .brk newBrk =>
      (sysBrk state.runtime state.manager newBrk).map fun (reply, rt, mgr) => (reply, ⟨rt, mgr⟩)

/-- The memory calls of a process from `start`. -/
def machine (start : LinuxMemory) : Machine LinuxMemory MemoryCall Nat := ⟨start, LinuxMemory.step⟩

/-! ## The tracked regions stay apart -/

/-- The ranges of the tracked regions. -/
def LinuxRuntime.ranges (rt : LinuxRuntime) : List (Nat × Nat) :=
  rt.mmapRegions.map fun region => (region.addr, region.size)

/-- Page-aligned ranges of the user half, pairwise disjoint. -/
structure WellPlaced (ranges : List (Nat × Nat)) : Prop where
  aligned : ∀ range ∈ ranges, range.1 % pageSize = 0 ∧ range.2 % pageSize = 0
  bounded : ∀ range ∈ ranges, range.1 + range.2 ≤ userAddressLimit
  disjoint : ranges.Pairwise fun left right => rangesOverlap left.1 left.2 right.1 right.2 = false

section WellPlaced

variable {ranges : List (Nat × Nat)}

theorem WellPlaced.nil : WellPlaced [] := ⟨by simp, by simp, List.Pairwise.nil⟩

theorem WellPlaced.sublist (placed : WellPlaced ranges) {kept : List (Nat × Nat)} (sub : List.Sublist kept ranges) :
    WellPlaced kept where
  aligned := fun range member => placed.aligned range (sub.subset member)
  bounded := fun range member => placed.bounded range (sub.subset member)
  disjoint := placed.disjoint.sublist sub

/-- A new range that is aligned, in the user half and clear of the others
keeps them apart. -/
theorem WellPlaced.append (placed : WellPlaced ranges) {addr size : Nat}
    (aligned : addr % pageSize = 0 ∧ size % pageSize = 0) (bounded : addr + size ≤ userAddressLimit)
    (clear : ∀ range ∈ ranges, rangesOverlap range.1 range.2 addr size = false) :
    WellPlaced (ranges ++ [(addr, size)]) where
  aligned := fun range member => by
    rcases List.mem_append.mp member with old | new
    · exact placed.aligned range old
    · rw [List.mem_singleton.mp new]
      exact aligned
  bounded := fun range member => by
    rcases List.mem_append.mp member with old | new
    · exact placed.bounded range old
    · rw [List.mem_singleton.mp new]
      exact bounded
  disjoint := List.pairwise_append.mpr ⟨placed.disjoint, List.pairwise_singleton _ _,
    fun range member other new => by
      rw [List.mem_singleton.mp new]
      exact clear range member⟩

end WellPlaced

theorem map_modify_of_map_eq {α β : Type} {g : α → β} {f : α → α} (kept : ∀ item, g (f item) = g item)
    (items : List α) (index : Nat) : (items.modify index f).map g = items.map g := by
  apply List.ext_getElem?
  intro position
  simp only [List.getElem?_map, List.getElem?_modify]
  cases items[position]? with
  | none => rfl
  | some item => by_cases here : index = position <;> simp [here, kept]

namespace LinuxRuntime

variable (rt : LinuxRuntime)

@[simp]
theorem ranges_trackRegion (addr size prot : Nat) :
    (rt.trackRegion addr size prot).ranges = rt.ranges ++ [(addr, size)] := by
  simp [trackRegion, ranges]

theorem ranges_removeRegion (addr size : Nat) : List.Sublist (rt.removeRegion addr size).2.ranges rt.ranges := by
  unfold removeRegion
  split
  · exact (List.eraseIdx_sublist _ _).map _
  · exact List.Sublist.refl _

@[simp]
theorem ranges_setRegionProt (addr size prot : Nat) : (rt.setRegionProt addr size prot).ranges = rt.ranges := by
  unfold setRegionProt
  split
  · simp only [ranges]
    apply map_modify_of_map_eq
    intro _
    rfl
  · rfl

theorem bounded_of_wellPlaced {rt : LinuxRuntime} (placed : WellPlaced rt.ranges) :
    ∀ region ∈ rt.mmapRegions, region.addr + region.size ≤ userAddressLimit :=
  fun _ member => placed.bounded _ (List.mem_map_of_mem member)

end LinuxRuntime

section Calls

variable {rt next : LinuxRuntime} {mgr mgr' : MemoryManager} {reply : Nat}

/-- A place `mmap` takes is clear of every tracked region, so tracking it
keeps the regions apart. -/
theorem mmapAt_wellPlaced (placed : WellPlaced rt.ranges) {prot alignedLen hint : Nat}
    (sized : alignedLen % pageSize = 0) (hintBelow : hint < userAddressLimit)
    (ran : mmapAt rt mgr prot alignedLen hint = some (reply, next, mgr')) : WellPlaced next.ranges := by
  obtain ⟨result, found, fit⟩ := @findFreeAnonRegion_firstFit rt.mmapRegions mgr.translates alignedLen
    (LinuxRuntime.bounded_of_wellPlaced placed) hint hintBelow
  simp only [mmapAt, found, Option.map_some, Option.some.injEq] at ran
  split_ifs at ran with none
  · obtain ⟨-, rfl, -⟩ := Prod.mk.injEq _ _ _ _ ▸ ran
    exact placed
  split at ran
  · obtain ⟨-, rfl, -⟩ := Prod.mk.injEq _ _ _ _ ▸ ran
    exact placed
  · obtain ⟨-, rfl, -⟩ := Prod.mk.injEq _ _ _ _ ▸ ran
    -- the search found a place, not its "none", so the place is usable
    rcases fit with ⟨usable, -, -⟩ | ⟨zero, -⟩
    · rw [LinuxRuntime.ranges_trackRegion]
      exact placed.append ⟨usable.aligned, sized⟩ usable.below fun range member => by
        obtain ⟨region, regionIn, rfl⟩ := List.mem_map.mp member
        exact usable.clear region regionIn
    · exact absurd zero none

theorem sysMmap_wellPlaced (placed : WellPlaced rt.ranges) {addrHint length prot flags offset : Nat}
    (ran : sysMmap rt mgr addrHint length prot flags offset = some (reply, next, mgr')) :
    WellPlaced next.ranges := by
  unfold sysMmap at ran
  dsimp only at ran
  -- every refusal before the search returns the runtime as it was
  split_ifs at ran <;> try (simp only [Option.some.injEq, Prod.mk.injEq] at ran; obtain ⟨-, rfl, -⟩ := ran; exact placed)
  all_goals
    split at ran
    · simp only [Option.some.injEq, Prod.mk.injEq] at ran
      obtain ⟨-, rfl, -⟩ := ran
      exact placed
  -- the hint is the default base or the start of the hinted range: below the limit either way
  · rename_i alignedLen lengthRange
    exact mmapAt_wellPlaced placed (checkedPageRange_sound lengthRange).2.2.2.2.1 (by decide) ran
  · rename_i alignedLen lengthRange
    cases hintRange : checkedPageRange addrHint alignedLen false with
    | error error =>
        simp only [hintRange, Except.map, Option.some.injEq, Prod.mk.injEq] at ran
        obtain ⟨-, rfl, -⟩ := ran
        exact placed
    | ok range =>
        simp only [hintRange, Except.map] at ran
        have sound := checkedPageRange_sound hintRange
        exact mmapAt_wellPlaced placed (checkedPageRange_sound lengthRange).2.2.2.2.1 (by omega) ran

theorem sysMunmap_wellPlaced (placed : WellPlaced rt.ranges) (addr length : Nat) :
    WellPlaced (sysMunmap rt mgr addr length).2.1.ranges := by
  unfold sysMunmap
  split
  · exact placed
  · split_ifs
    · exact placed
    · exact placed
    · exact placed.sublist (LinuxRuntime.ranges_removeRegion _ _ _)

theorem sysMprotect_ranges (addr length prot : Nat) :
    (sysMprotect rt mgr addr length prot).2.1.ranges = rt.ranges := by
  unfold sysMprotect
  dsimp only
  split_ifs
  · rfl
  · split
    · rfl
    · split_ifs
      · rfl
      · rfl
      · split <;> simp

/-- `brk` moves the break and leaves the regions alone. -/
theorem sysBrk_mmapRegions {newBrk : Nat} (ran : sysBrk rt mgr newBrk = some (reply, next, mgr')) :
    next.mmapRegions = rt.mmapRegions := by
  unfold sysBrk at ran
  dsimp only at ran
  split_ifs at ran with zero outside grows
  · cases ran; rfl
  · cases ran; rfl
  · cases oldRaised : Word.checkedAdd 64 rt.programBreak pageSize with
    | none => simp [oldRaised] at ran
    | some oldRaised =>
        cases newRaised : Word.checkedAdd 64 newBrk pageSize with
        | none => simp [oldRaised, newRaised] at ran
        | some newRaised =>
            simp only [oldRaised, newRaised, Option.bind_some, Option.map_some, Option.some.injEq] at ran
            split_ifs at ran
            · cases ran; rfl
            · split at ran <;> (cases ran; rfl)
            · cases ran; rfl
  · cases ran; rfl

end Calls

/-- One call keeps the tracked regions page-aligned, in the user half and
pairwise disjoint. -/
theorem LinuxMemory.step_wellPlaced {state next : LinuxMemory} {call : MemoryCall} {reply : Nat}
    (placed : WellPlaced state.runtime.ranges) (stepped : state.step call = some (reply, next)) :
    WellPlaced next.runtime.ranges := by
  cases call with
  | mmap addrHint length prot flags offset =>
      simp only [LinuxMemory.step, Option.map_eq_some_iff] at stepped
      obtain ⟨⟨reply, rt, mgr⟩, ran, stepped⟩ := stepped
      simp only [Prod.mk.injEq] at stepped
      obtain ⟨-, rfl⟩ := stepped
      exact sysMmap_wellPlaced placed ran
  | munmap addr length =>
      simp only [LinuxMemory.step, Option.some.injEq, Prod.mk.injEq] at stepped
      obtain ⟨-, rfl⟩ := stepped
      exact sysMunmap_wellPlaced placed addr length
  | mprotect addr length prot =>
      simp only [LinuxMemory.step, Option.some.injEq, Prod.mk.injEq] at stepped
      obtain ⟨-, rfl⟩ := stepped
      simp only [sysMprotect_ranges]
      exact placed
  | brk newBrk =>
      simp only [LinuxMemory.step, Option.map_eq_some_iff] at stepped
      obtain ⟨⟨reply, rt, mgr⟩, ran, stepped⟩ := stepped
      simp only [Prod.mk.injEq] at stepped
      obtain ⟨-, rfl⟩ := stepped
      simp only [LinuxRuntime.ranges, sysBrk_mmapRegions ran]
      exact placed

/-- Over every run of memory calls from a state whose regions are apart, the
tracked regions stay page-aligned, in the user half and pairwise disjoint. -/
theorem wellPlaced_of_run {start final : LinuxMemory} {calls : List MemoryCall} {replies : List Nat}
    (placed : WellPlaced start.runtime.ranges) (ran : (machine start).run start calls = some (replies, final)) :
    WellPlaced final.runtime.ranges := by
  have everyCall : ∀ call ∈ calls, (fun _ => True : MemoryCall → Prop) call := fun _ _ => True.intro
  exact (machine start).run_invariant (fun _ holds stepped => LinuxMemory.step_wellPlaced holds stepped)
    everyCall placed ran

/-! ## Two answers that differ from the calls' purpose -/

/-- From a runtime whose regions are apart, with nothing tracked or mapped in
the first page, a one-page `mmap` hinted at address 1 fails with `ENOMEM`: the
hint rounds down to 0, the first usable place, and the search's answer 0 is
read as "none". -/
theorem sysMmap_hint_in_first_page {rt : LinuxRuntime} {mgr : MemoryManager} (placed : WellPlaced rt.ranges)
    (clear : trackedRangeOverlaps rt.mmapRegions 0 pageSize = false) (unmapped : mgr.translates 0 = false) :
    Usable rt.mmapRegions mgr.translates pageSize 0 ∧
      sysMmap rt mgr 1 pageSize protRead (mapPrivate ||| mapAnonymous) 0 = some (errnoCode enomem, rt, mgr) := by
  have usable : Usable rt.mmapRegions mgr.translates pageSize 0 :=
    ⟨rfl, by decide, fun region member => by simpa using List.any_eq_false.mp clear region member,
      fun index below => by
        have first : index = 0 := by unfold pageSize at below; omega
        simpa [first] using unmapped⟩
  obtain ⟨result, found, fit⟩ :=
    @findFreeAnonRegion_firstFit rt.mmapRegions mgr.translates pageSize
      (LinuxRuntime.bounded_of_wellPlaced placed) 0 (by decide)
  -- the first usable place at or after 0 is 0 itself
  have zero : result = 0 := by
    rcases fit with ⟨_, _, first⟩ | ⟨zero, _⟩
    · by_contra nonzero
      exact first 0 (Nat.zero_le _) (Nat.pos_of_ne_zero nonzero) usable
    · exact zero
  subst zero
  have lengthRange : checkedPageRange 0 pageSize false = .ok (0, pageSize) := by decide
  have hintRange : checkedPageRange 1 pageSize false = .ok (0, pageSize) := by decide
  refine ⟨usable, ?_⟩
  simp +decide [sysMmap, mmapAt, lengthRange, hintRange, Except.map, found]

/-- The page at address 0 of an empty runtime is free, but `mmap` hinted at
address 1 fails with `ENOMEM`. -/
theorem mmap_hint_in_first_page_fails :
    Usable [] (MemoryManager.translates ⟨fun _ => none, [0x200000], fun _ => false⟩) pageSize 0 ∧
      sysMmap ⟨0, 0, []⟩ ⟨fun _ => none, [0x200000], fun _ => false⟩ 1 pageSize protRead
          (mapPrivate ||| mapAnonymous) 0 =
        some (errnoCode enomem, ⟨0, 0, []⟩, ⟨fun _ => none, [0x200000], fun _ => false⟩) :=
  @sysMmap_hint_in_first_page ⟨0, 0, []⟩ ⟨fun _ => none, [0x200000], fun _ => false⟩ WellPlaced.nil rfl rfl

/-- A heap at `0x10000` grows by two pages, shrinks back and then cannot grow
again: the third call returns the old break, since the pages it would map are
still mapped. -/
theorem brk_regrow_after_shrink_fails :
    ((machine ⟨⟨0x10000, 0x10000, []⟩, ⟨fun _ => none, [0x200000, 0x201000, 0x202000], fun _ => false⟩⟩).run
        ⟨⟨0x10000, 0x10000, []⟩, ⟨fun _ => none, [0x200000, 0x201000, 0x202000], fun _ => false⟩⟩
        [.brk 0x12000, .brk 0x10000, .brk 0x12000]).map Prod.fst =
      some [0x12000, 0x10000, 0x10000] := by
  decide

end Fullerene.Kernel.Linux
