import Fullerene.Petroleum.UserMemory

/-!
# Process page tables and their clone

`ProcessPageTable` keeps the PML4 frame of a process, the tables it has
allocated, and an `OffsetPageTable` (`mapper`) through which its
`PageTableHelper` methods change the tables.  `new_with_frame` builds no
mapper and `Initializable::init` only marks the table initialized, so every
later `map_page` or `unmap_page` on such a table panics at
`self.mapper.as_mut().unwrap()` (`unmapPage_init_newWithFrame`).

`clone_page_table` allocates a frame and copies into it the present entries
of the source PML4, nothing below them: the clone and the source reach the
same lower-level tables, so a later change to any of them is seen through
both (`clonePageTable_shares_tables`).

What the crate's `OffsetPageTable` does once a method has its mapper is a
parameter, `OffsetOps`.
-/

namespace Fullerene.Petroleum

open Paging Function

/-- The fields of `ProcessPageTable` these methods read; `mapper` is the PML4
its `OffsetPageTable` works on. -/
structure ProcessPageTable where
  currentPageTable : Nat
  initialized : Bool
  pml4Frame : Option Nat
  mapper : Option Nat
  allocatedTables : List Nat
  deriving DecidableEq, Repr

/-- The x86_64 crate's `OffsetPageTable` operations over the PML4 at the
given address, as `unmap_page` and `map_page` use them. -/
structure OffsetOps where
  unmap : Memory → (pml4 vaddr : Nat) → Except SystemError Nat × Memory
  map : Memory → (pml4 vaddr paddr flags : Nat) → Except SystemError Unit × Memory

namespace ProcessPageTable

/-- `ProcessPageTable::new_with_frame`. -/
def newWithFrame (frame : Nat) : ProcessPageTable := ⟨frame, false, some frame, none, []⟩

/-- `Initializable::init`. -/
def init (table : ProcessPageTable) : ProcessPageTable := { table with initialized := true }

/-- The head of every `PageTableHelper` method: `InternalError` before `init`,
then `self.mapper.as_mut().unwrap()`, which panics (`none`) when there is no
mapper.  `operate` is the rest of the method. -/
def withMapper {α : Type} (table : ProcessPageTable) (notInitialized : α) (operate : Nat → α) :
    Option α :=
  if !table.initialized then some notInitialized else table.mapper.map operate

/-- `PageTableHelper::unmap_page`. -/
def unmapPage (ops : OffsetOps) (table : ProcessPageTable) (memory : Memory) (vaddr : Nat) :
    Option (Except SystemError Nat × Memory) :=
  table.withMapper (.error .internalError, memory) fun pml4 => ops.unmap memory pml4 vaddr

/-- `PageTableHelper::map_page`. -/
def mapPage (ops : OffsetOps) (table : ProcessPageTable) (memory : Memory)
    (vaddr paddr flags : Nat) : Option (Except SystemError Unit × Memory) :=
  table.withMapper (.error .internalError, memory) fun pml4 => ops.map memory pml4 vaddr paddr flags

/-- The head of `clone_page_table`: a table that tracks another PML4 than the
one in CR3 gets a mapper over the one in CR3. -/
def trackCr3 (table : ProcessPageTable) (cr3 : Nat) : ProcessPageTable :=
  if table.pml4Frame ≠ some cr3 then { table with mapper := some cr3, pml4Frame := some cr3 }
  else table

/-- One turn of the copy loop of `clone_page_table`: a present entry of the
source PML4 is written to the same index of the new one. -/
def copyEntry (source destination : Nat) (memory : Memory) (index : Nat) : Memory :=
  let entry := readEntry memory source index
  if contains (entryFlags entry) present then update memory (destination + index * 8) entry
  else memory

/-- The copy loop of `clone_page_table`, over the 512 indices. -/
def copyPresentEntries (source destination : Nat) (memory : Memory) : Memory :=
  (List.range 512).foldl (copyEntry source destination) memory

/-- `clone_page_table(source_table)`, under CR3 `cr3` and with the frame
allocator's free frames; it returns the new PML4 frame. -/
def clonePageTable (table : ProcessPageTable) (cr3 : Nat) (memory : Memory) (frames : List Nat)
    (source : Nat) :
    Option (Except SystemError (Nat × Memory × List Nat) × ProcessPageTable) :=
  if !table.initialized then some (.error .internalError, table)
  else
    let table := table.trackCr3 cr3
    if !(source ∈ table.allocatedTables ∨ table.pml4Frame = some source) then
      some (.error .invalidArgument, table)
    else
      match frames with
      | [] => some (.error .frameAllocationFailed, table)
      | newFrame :: rest =>
          match table.mapper with
          | none => none
          | some _ =>
              some (.ok (newFrame, copyPresentEntries source newFrame memory, rest),
                { table with allocatedTables := newFrame :: table.allocatedTables })

/-! ## The table `new_with_frame` makes -/

/-- A table made by `new_with_frame` and `init` has no mapper: unmapping
through it panics. -/
theorem unmapPage_init_newWithFrame (ops : OffsetOps) (frame : Nat) (memory : Memory)
    (vaddr : Nat) : (newWithFrame frame).init.unmapPage ops memory vaddr = none :=
  rfl

/-! ## The copy loop -/

theorem readEntry_copyEntry_of_ne {source destination : Nat} (memory : Memory) {index other : Nat}
    (different : index ≠ other) :
    readEntry (copyEntry source destination memory index) destination other =
      readEntry memory destination other := by
  unfold copyEntry readEntry
  dsimp only
  split_ifs
  · exact update_of_ne (by omega) _ _
  · rfl

section Copy

variable {source destination : Nat}
  (separate : destination + 4096 ≤ source ∨ source + 4096 ≤ destination)
include separate

theorem readEntry_copyEntry_source (memory : Memory) {index other : Nat} (below : index < 512)
    (otherBelow : other < 512) :
    readEntry (copyEntry source destination memory index) source other =
      readEntry memory source other := by
  unfold copyEntry readEntry
  dsimp only
  split_ifs
  · exact update_of_ne (by omega) _ _
  · rfl

/-- The loop over distinct indices keeps the source PML4, copies each present
entry it visits, and leaves the other entries of the new PML4 alone. -/
theorem readEntry_foldl_copyEntry {indices : List Nat} (bounded : ∀ index ∈ indices, index < 512)
    (distinct : indices.Nodup) (memory : Memory) :
    (∀ other < 512, readEntry (indices.foldl (copyEntry source destination) memory) source other =
        readEntry memory source other) ∧
      (∀ index ∈ indices, contains (entryFlags (readEntry memory source index)) present = true →
        readEntry (indices.foldl (copyEntry source destination) memory) destination index =
          readEntry memory source index) ∧
      ∀ other, other ∉ indices →
        readEntry (indices.foldl (copyEntry source destination) memory) destination other =
          readEntry memory destination other := by
  induction indices generalizing memory with
  | nil => exact ⟨fun _ _ => rfl, fun _ absent => absurd absent List.not_mem_nil, fun _ _ => rfl⟩
  | cons first rest inductionHypothesis =>
      rw [List.nodup_cons] at distinct
      have firstBelow := bounded first List.mem_cons_self
      obtain ⟨keptSource, copied, untouched⟩ := inductionHypothesis
        (fun index member => bounded index (List.mem_cons_of_mem _ member)) distinct.2
        (copyEntry source destination memory first)
      -- the first turn writes only index `first` of the new PML4
      have sourceAfterFirst : ∀ other < 512,
          readEntry (copyEntry source destination memory first) source other =
            readEntry memory source other :=
        fun _ otherBelow => readEntry_copyEntry_source separate memory firstBelow otherBelow
      refine ⟨fun other otherBelow => ?_, fun index member isPresent => ?_, fun other absent => ?_⟩
      · rw [List.foldl_cons, keptSource other otherBelow, sourceAfterFirst other otherBelow]
      · rw [List.foldl_cons]
        rcases List.mem_cons.mp member with rfl | later
        · rw [untouched index distinct.1]
          unfold copyEntry
          dsimp only
          rw [if_pos isPresent]
          unfold readEntry
          rw [update_self]
        · have indexBelow := bounded index member
          rw [copied index later (by rwa [sourceAfterFirst index indexBelow]),
            sourceAfterFirst index indexBelow]
      · rw [List.foldl_cons, untouched other (fun member => absent (List.mem_cons_of_mem _ member))]
        exact readEntry_copyEntry_of_ne memory (fun same => absent (same ▸ List.mem_cons_self))

/-- The new PML4 holds every present entry of the source, and the source is
unchanged. -/
theorem copyPresentEntries_spec (memory : Memory) :
    (∀ index < 512, readEntry (copyPresentEntries source destination memory) source index =
        readEntry memory source index) ∧
      ∀ index < 512, contains (entryFlags (readEntry memory source index)) present = true →
        readEntry (copyPresentEntries source destination memory) destination index =
          readEntry memory source index := by
  obtain ⟨keptSource, copied, -⟩ := readEntry_foldl_copyEntry separate
    (fun _ member => List.mem_range.mp member) List.nodup_range memory
  exact ⟨keptSource, fun index below => copied index (List.mem_range.mpr below)⟩

end Copy

/-! ## The clone -/

/-- The inversion of a successful `clone_page_table`: the new PML4 is the
first free frame and memory is the copy loop's. -/
theorem clonePageTable_eq_ok {table : ProcessPageTable} {cr3 : Nat} {memory : Memory}
    {frames : List Nat} {source newFrame : Nat} {cloned : Memory} {rest : List Nat}
    {updated : ProcessPageTable}
    (ran : table.clonePageTable cr3 memory frames source = some (.ok (newFrame, cloned, rest), updated)) :
    frames = newFrame :: rest ∧ cloned = copyPresentEntries source newFrame memory := by
  unfold clonePageTable at ran
  split_ifs at ran with notInitialized
  · cases ran
  · dsimp only at ran
    generalize table.trackCr3 cr3 = tracked at ran
    split_ifs at ran with unknown
    · cases ran
    split at ran
    · cases ran
    · split at ran
      · cases ran
      · simp only [Option.some.injEq, Prod.mk.injEq, Except.ok.injEq] at ran
        obtain ⟨⟨rfl, rfl, rfl⟩, -⟩ := ran
        exact ⟨rfl, rfl⟩

/-- After `clone_page_table`, the new PML4 reaches the tables the source
reaches: in every later memory that keeps both PML4 frames, an address whose
source PML4 entry was present walks the same way from either. -/
theorem clonePageTable_shares_tables {table : ProcessPageTable} {cr3 : Nat} {memory : Memory}
    {frames : List Nat} {source newFrame : Nat} {cloned : Memory} {rest : List Nat}
    {updated : ProcessPageTable}
    (ran : table.clonePageTable cr3 memory frames source = some (.ok (newFrame, cloned, rest), updated))
    (separate : newFrame + 4096 ≤ source ∨ source + 4096 ≤ newFrame) {later : Memory}
    (keepsSource : ∀ index < 512, readEntry later source index = readEntry cloned source index)
    (keepsClone : ∀ index < 512, readEntry later newFrame index = readEntry cloned newFrame index)
    {vaddr : Nat}
    (mapped : contains (entryFlags (readEntry memory source (tableIndex vaddr 39))) present = true) :
    walk later newFrame vaddr = walk later source vaddr := by
  rw [(clonePageTable_eq_ok ran).2] at keepsSource keepsClone
  obtain ⟨keptSource, copied⟩ := copyPresentEntries_spec separate memory
  have below := tableIndex_lt vaddr 39
  -- both walks start from the same PML4 entry
  have sameEntry : readEntry later newFrame (tableIndex vaddr 39) =
      readEntry later source (tableIndex vaddr 39) :=
    calc readEntry later newFrame (tableIndex vaddr 39)
        = readEntry (copyPresentEntries source newFrame memory) newFrame (tableIndex vaddr 39) :=
          keepsClone _ below
      _ = readEntry memory source (tableIndex vaddr 39) := copied _ below mapped
      _ = readEntry (copyPresentEntries source newFrame memory) source (tableIndex vaddr 39) :=
          (keptSource _ below).symm
      _ = readEntry later source (tableIndex vaddr 39) := (keepsSource _ below).symm
  unfold walk
  rw [sameEntry]

end ProcessPageTable

end Fullerene.Petroleum
