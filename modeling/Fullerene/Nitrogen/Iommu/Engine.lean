import Mathlib
import Fullerene.Lib.Machine
import Fullerene.Nitrogen.Iommu.Iova
import Fullerene.Nitrogen.Iommu.Table

/-!
# The IOMMU engine: `dma_map` and `dma_unmap`

`IommuEngine` holds the root table with its context tables, the one second-level
page table of domain 0, and the IOVA allocator.  `dma_map` points the device's
context entry to the page table (unless the entry blocks the device), takes an
IOVA range from the allocator, and maps its pages one by one.  When a page fails
it unmaps the pages before it and gives the range back.  `dma_unmap` unmaps the
pages of a range and frees it.  The VT-d registers and their invalidations are
hardware and are left out.

`DmaSystem` runs the engine under callers that unmap only mappings they hold,
with the size they mapped, and map physical memory below `2 ^ 52`.  In every
state it reaches (`DmaSystem.reachable_coherent`), the IOVA ranges of the live
mappings and the free set partition the window, and the page table translates
exactly the pages of the live mappings, each to its physical page.
-/

namespace Fullerene.Nitrogen.Iommu

open Paging (Memory readEntry tableIndex)

/-! ## Root and context entries -/

/-- `TT_HOST_WITH_STRUCTURES`. -/
def ttHostWithStructures : Nat := 0 <<< 2

/-- `CTX_AW_3LEVEL`. -/
def ctxAw3level : Nat := 2 <<< 8

/-- `CTX_FPD`. -/
def ctxFpd : Nat := 1 <<< 1

/-- `CTX_TT_MASK`. -/
def ctxTtMask : Nat := 0b11 <<< 2

/-- `ContextEntry`: its low and its high `u64`. -/
structure ContextEntry where
  lo : Nat
  hi : Nat
  deriving DecidableEq, Repr

namespace ContextEntry

/-- `ContextEntry::is_present`. -/
def isPresent (entry : ContextEntry) : Bool := entry.lo &&& 1 != 0

/-- `ContextEntry::translation_type`. -/
def translationType (entry : ContextEntry) : Nat := entry.lo &&& ctxTtMask

/-- `ContextEntry::is_blocked`: present, host translation, and no page table. -/
def isBlocked (entry : ContextEntry) : Bool :=
  entry.isPresent && entry.translationType == ttHostWithStructures && entry.hi == 0

/-- `ContextEntry::new_host`. -/
def newHost (secondLevelPtPhys addressWidth : Nat) : ContextEntry :=
  ⟨(secondLevelPtPhys &&& 0x000FFFFFFFFFF000) ||| 1 ||| ttHostWithStructures ||| ctxFpd, addressWidth >>> 8⟩

end ContextEntry

/-- The context entry at `addr`: the words at `addr` and `addr + 8`. -/
def readContextEntry (memory : Memory) (addr : Nat) : ContextEntry := ⟨memory addr, memory (addr + 8)⟩

/-- `*entry = value` on the context entry at `addr`. -/
def writeContextEntry (memory : Memory) (addr : Nat) (entry : ContextEntry) : Memory :=
  Function.update (Function.update memory addr entry.lo) (addr + 8) entry.hi

namespace RootEntry

/-- `RootEntry::is_present`. -/
def isPresent (entry : Nat) : Bool := entry &&& 1 != 0

/-- `RootEntry::new`. -/
def new (ctxTablePhys : Nat) : Nat := ctxTablePhys ||| 1

/-- `RootEntry::context_table_phys`. -/
def contextTablePhys (entry : Nat) : Nat := entry &&& 0xFFFFFFFFFFFFF000

end RootEntry

/-- `IommuRootTable`; `root_table_virt` is the root itself, as `phys_to_virt` is the identity. -/
structure IommuRootTable where
  rootTablePhys : Nat
  contextTablePages : List Nat
  deriving DecidableEq, Repr

namespace IommuRootTable

/-- `IommuRootTable::new`: a zeroed root table. -/
def new (host : Host) : Option (IommuRootTable × Host) :=
  match allocFrame host with
  | none => none
  | some (phys, host) => some (⟨phys, []⟩, { host with memory := zeroFrame host.memory phys })

/-- `IommuRootTable::get_context_entry`: the address of the device's context entry.  A bus
without a context table gets a zeroed one, recorded in `context_table_pages`; `none` where
`alloc_frame` fails and `?` returns. -/
def getContextEntry (rootTable : IommuRootTable) (host : Host) (bus device function : Nat) :
    Option (Nat × IommuRootTable × Host) :=
  let rootEntry := readEntry host.memory rootTable.rootTablePhys bus
  let idx := (device <<< 3) ||| function
  if !RootEntry.isPresent rootEntry then
    match allocFrame host with
    | none => none
    | some (ctPhys, host) =>
        let memory := writeEntry (zeroFrame host.memory ctPhys) rootTable.rootTablePhys bus (RootEntry.new ctPhys)
        some (ctPhys + idx * 16, { rootTable with contextTablePages := rootTable.contextTablePages ++ [ctPhys] },
          { host with memory })
  else some (RootEntry.contextTablePhys rootEntry + idx * 16, rootTable, host)

end IommuRootTable

/-! ## The engine -/

/-- `IommuEngine`, without its registers. -/
structure IommuEngine where
  rootTable : IommuRootTable
  pageTable : IommuPageTable
  iova : IovaAllocator
  deriving DecidableEq, Repr

namespace IommuEngine

/-- `IommuEngine::new`, with the memory callbacks set. -/
def new (host : Host) (iovaBits : Nat) : Option (IommuEngine × Host) :=
  match IommuRootTable.new host with
  | none => none
  | some (rootTable, host) =>
      match IommuPageTable.new host 0 with
      | none => none
      | some (pageTable, host) => some (⟨rootTable, pageTable, IovaAllocator.new iovaBits⟩, host)

/-- The loop of `dma_map` over pages `i .. i + count` of the range at `iova`: `Err (i, ..)` at the
first page whose `map_page` fails, with the tables as that call left them. -/
def mapPages (iova phys : Nat) :
    (i count : Nat) → IommuPageTable → Host → Except (Nat × IommuPageTable × Host) (IommuPageTable × Host)
  | _, 0, table, host => .ok (table, host)
  | i, count + 1, table, host =>
      match table.mapPage host ((iova + i * 4096) % 2 ^ 64) ((phys + i * 4096) % 2 ^ 64) with
      | (.error (), table, host) => .error (i, table, host)
      | (.ok (), table, host) => mapPages iova phys (i + 1) count table host

/-- `for j in i..i + count { unmap_page(iova + j * 4096) }`: the rollback of `dma_map` and the
loop of `dma_unmap`. -/
def unmapPages (table : IommuPageTable) (iova : Nat) : (i count : Nat) → Host → Host
  | _, 0, host => host
  | i, count + 1, host => unmapPages table iova (i + 1) count (table.unmapPage host ((iova + i * 4096) % 2 ^ 64))

/-- The first block of `dma_map`: find the device's context entry and, unless it blocks the device,
point it to the page table. -/
def pointContext (engine : IommuEngine) (host : Host) (deviceId : Nat) : Option (IommuRootTable × Host) :=
  let bus := (deviceId >>> 8) % 256
  let device := (deviceId >>> 3) &&& 0x1F
  let function := deviceId &&& 0x7
  match engine.rootTable.getContextEntry host bus device function with
  | none => none
  | some (entry, rootTable, host) =>
      if (readContextEntry host.memory entry).isBlocked then some (rootTable, host)
      else some (rootTable, { host with
        memory := writeContextEntry host.memory entry (ContextEntry.newHost engine.pageTable.rootPhys ctxAw3level) })

/-- `IommuEngine::dma_map`. -/
def dmaMap (engine : IommuEngine) (host : Host) (deviceId phys size : Nat) : Except Unit Nat × IommuEngine × Host :=
  match engine.pointContext host deviceId with
  | none => (.error (), engine, host)
  | some (rootTable, host) =>
      match engine.iova.alloc size with
      | (none, iova) => (.error (), ⟨rootTable, engine.pageTable, iova⟩, host)
      | (some addr, iova) =>
          let pages := (size + 4095) % 2 ^ 64 / 4096
          match mapPages addr phys 0 pages engine.pageTable host with
          | .ok (pageTable, host) => (.ok addr, ⟨rootTable, pageTable, iova⟩, host)
          | .error (i, pageTable, host) =>
              -- roll back: unmap the pages mapped so far and give the range back
              (.error (), ⟨rootTable, pageTable, iova.free addr size⟩, unmapPages pageTable addr 0 i host)

/-- `IommuEngine::dma_unmap`. -/
def dmaUnmap (engine : IommuEngine) (host : Host) (iova size : Nat) : IommuEngine × Host :=
  let pages := (size + 4095) % 2 ^ 64 / 4096
  ({ engine with iova := engine.iova.free iova size }, unmapPages engine.pageTable iova 0 pages host)

end IommuEngine

/-! ## Page maps -/

/-- `pages` with pages `lo .. hi` of the range at `iova` mapped to the same pages of the range at
`phys`. -/
def fill (pages : Nat → Option Nat) (iova phys lo hi page : Nat) : Option Nat :=
  if iova / 4096 + lo ≤ page ∧ page < iova / 4096 + hi then some (phys + (page - iova / 4096) * 4096)
  else pages page

/-- `pages` without pages `lo .. hi` of the range at `iova`. -/
def clear (pages : Nat → Option Nat) (iova lo hi page : Nat) : Option Nat :=
  if iova / 4096 + lo ≤ page ∧ page < iova / 4096 + hi then none else pages page

section PageMaps

variable {pages : Nat → Option Nat} {iova phys lo mid hi : Nat}

theorem fill_self : fill pages iova phys lo lo = pages :=
  funext fun _ => if_neg (by omega)

theorem clear_self : clear pages iova lo lo = pages :=
  funext fun _ => if_neg (by omega)

/-- Mapping the next page of the range extends the filled pages by one. -/
theorem update_fill (aligned : iova % 4096 = 0) (ordered : lo ≤ hi) :
    Function.update (fill pages iova phys lo hi) ((iova + hi * 4096) / 4096) (some (phys + hi * 4096)) =
      fill pages iova phys lo (hi + 1) := by
  have page : (iova + hi * 4096) / 4096 = iova / 4096 + hi := by omega
  funext other
  rw [page, Function.update_apply]
  unfold fill
  by_cases here : other = iova / 4096 + hi
  · rw [if_pos here, if_pos (by omega), here, Nat.add_sub_cancel_left]
  · -- any other page is in the longer range exactly when it was in the shorter one
    rw [if_neg here]
    by_cases inside : iova / 4096 + lo ≤ other ∧ other < iova / 4096 + hi
    · rw [if_pos inside, if_pos (by omega)]
    · rw [if_neg inside, if_neg (by omega)]

/-- Unmapping the next page of the range extends the cleared pages by one. -/
theorem update_clear (aligned : iova % 4096 = 0) (ordered : lo ≤ hi) :
    Function.update (clear pages iova lo hi) ((iova + hi * 4096) / 4096) none = clear pages iova lo (hi + 1) := by
  have page : (iova + hi * 4096) / 4096 = iova / 4096 + hi := by omega
  funext other
  rw [page, Function.update_apply]
  unfold clear
  by_cases here : other = iova / 4096 + hi
  · rw [if_pos here, if_pos (by omega)]
  · rw [if_neg here]
    by_cases inside : iova / 4096 + lo ≤ other ∧ other < iova / 4096 + hi
    · rw [if_pos inside, if_pos (by omega)]
    · rw [if_neg inside, if_neg (by omega)]

theorem fill_fill (low : lo ≤ mid) (high : mid ≤ hi) :
    fill (fill pages iova phys lo mid) iova phys mid hi = fill pages iova phys lo hi := by
  funext page
  unfold fill
  by_cases upper : iova / 4096 + mid ≤ page ∧ page < iova / 4096 + hi
  · rw [if_pos upper, if_pos (by omega)]
  · rw [if_neg upper]
    by_cases lower : iova / 4096 + lo ≤ page ∧ page < iova / 4096 + mid
    · rw [if_pos lower, if_pos (by omega)]
    · rw [if_neg lower, if_neg (by omega)]

theorem clear_clear (low : lo ≤ mid) (high : mid ≤ hi) :
    clear (clear pages iova lo mid) iova mid hi = clear pages iova lo hi := by
  funext page
  unfold clear
  by_cases upper : iova / 4096 + mid ≤ page ∧ page < iova / 4096 + hi
  · rw [if_pos upper, if_pos (by omega)]
  · rw [if_neg upper]
    by_cases lower : iova / 4096 + lo ≤ page ∧ page < iova / 4096 + mid
    · rw [if_pos lower, if_pos (by omega)]
    · rw [if_neg lower, if_neg (by omega)]

/-- Clearing pages that were just filled over pages that were unmapped gives back the map. -/
theorem clear_fill (unmapped : ∀ page, iova / 4096 + lo ≤ page → page < iova / 4096 + hi → pages page = none) :
    clear (fill pages iova phys lo hi) iova lo hi = pages := by
  funext page
  unfold clear fill
  by_cases inside : iova / 4096 + lo ≤ page ∧ page < iova / 4096 + hi
  · rw [if_pos inside, unmapped page inside.1 inside.2]
  · rw [if_neg inside, if_neg inside]

end PageMaps

/-- Page tables that form a tree and implement the page map `pages`. -/
structure Sound (table : IommuPageTable) (host : Host) (pages : Nat → Option Nat) : Prop where
  tree : Tree host.memory table.rootPhys table.allocatedPages
  represents : Represents host.memory table.rootPhys pages

namespace IommuEngine

variable {table table' : IommuPageTable} {host host' : Host} {pages : Nat → Option Nat}

/-- The pages of a range that ends below `bound` lie below it. -/
theorem page_lt {base i last bound : Nat} (fits : base + last * 4096 ≤ bound) (before : i < last) :
    base + i * 4096 < bound :=
  Nat.lt_of_lt_of_le (Nat.add_lt_add_left (Nat.mul_lt_mul_of_pos_right before (by decide)) base) fits

/-- A page below `2 ^ 39` is a `u64` that does not wrap. -/
theorem page_mod {base i last : Nat} (fits : base + last * 4096 ≤ 2 ^ 52) (before : i < last) :
    (base + i * 4096) % 2 ^ 64 = base + i * 4096 :=
  Nat.mod_eq_of_lt ((page_lt fits before).trans (Nat.pow_lt_pow_right (by decide) (by decide)))

/-- The loop of `dma_map`: on `Ok` every page of `i .. i + count` is mapped, and on `Err` at page
`j` the pages before it are; the tables stay a tree and take frames from the host only. -/
theorem mapPages_spec (others : List Nat) {iova phys last : Nat} (aligned : iova % 4096 = 0)
    (iovaFits : iova + last * 4096 ≤ 2 ^ 39) (physFits : phys + last * 4096 ≤ 2 ^ 52) :
    ∀ (count i : Nat) {table : IommuPageTable} {host : Host} {pages : Nat → Option Nat},
      Sound table host pages → Fresh host.frames (others ++ table.allocatedPages) → i + count ≤ last →
      (∀ {table' host'}, mapPages iova phys i count table host = .ok (table', host') →
        Grows table host table' host' ∧ Sound table' host' (fill pages iova phys i (i + count))) ∧
      (∀ {j table' host'}, mapPages iova phys i count table host = .error (j, table', host') →
        i ≤ j ∧ j < i + count ∧ Grows table host table' host' ∧ Sound table' host' (fill pages iova phys i j)) := by
  have iovaWide : iova + last * 4096 ≤ 2 ^ 52 := iovaFits.trans (Nat.pow_le_pow_right (by decide) (by decide))
  intro count
  induction count with
  | zero =>
      intro i table host pages sound _ _
      refine ⟨fun finished => ?_, fun failed => nomatch failed⟩
      cases finished
      exact ⟨Grows.refl _ _, fill_self ▸ sound⟩
  | succ count inductionHypothesis =>
      intro i table host pages sound fresh within
      have before : i < last := by omega
      have freshTables : Fresh host.frames table.allocatedPages := fresh.mono fun _ held => List.mem_append_right _ held
      cases mapped : table.mapPage host ((iova + i * 4096) % 2 ^ 64) ((phys + i * 4096) % 2 ^ 64) with
      | mk result rest =>
      obtain ⟨table1, host1⟩ := rest
      rw [page_mod iovaWide before, page_mod physFits before] at mapped
      obtain ⟨grows1, tree1, -, -⟩ :=
        IommuPageTable.mapPage_spec sound.tree freshTables (page_lt physFits before) mapped
      have represents1 := IommuPageTable.mapPage_represents sound.tree freshTables (page_lt physFits before)
        sound.represents mapped
      rw [← grows1.rootPhys] at tree1
      unfold mapPages
      rw [page_mod iovaWide before, page_mod physFits before, mapped]
      cases result with
      | error failure =>
          -- the page fails: the loop stops here, with the tables as `map_page` left them
          rw [if_neg (fun failed => nomatch failed)] at represents1
          refine ⟨fun finished => (nomatch finished), fun failed => ?_⟩
          cases failed
          exact ⟨le_refl _, by omega, grows1, tree1, fill_self ▸ represents1⟩
      | ok success =>
          -- the page is mapped: the loop goes on from the next page
          have extended : Function.update pages ((iova + i * 4096) / 4096) (some (phys + i * 4096)) =
              fill pages iova phys i (i + 1) := by
            rw [← update_fill aligned (le_refl i), fill_self]
          rw [if_pos rfl, extended] at represents1
          obtain ⟨finishes, fails⟩ := inductionHypothesis (i + 1) ⟨tree1, represents1⟩ (grows1.fresh others fresh)
            (by omega)
          refine ⟨fun finished => ?_, fun failed => ?_⟩
          · obtain ⟨grows, sound⟩ := finishes finished
            rw [fill_fill (by omega) (by omega), show i + 1 + count = i + (count + 1) by omega] at sound
            exact ⟨grows1.trans grows, sound⟩
          · obtain ⟨low, high, grows, sound⟩ := fails failed
            rw [fill_fill (by omega) low] at sound
            exact ⟨by omega, by omega, grows1.trans grows, sound⟩

/-- The loop of `dma_unmap` and of the rollback: the pages `i .. i + count` are unmapped, and the
tables stay a tree on the same frames. -/
theorem unmapPages_spec {iova last : Nat} (aligned : iova % 4096 = 0) (iovaFits : iova + last * 4096 ≤ 2 ^ 39) :
    ∀ (count i : Nat) {host : Host} {pages : Nat → Option Nat}, Sound table host pages → i + count ≤ last →
      Grows table host table (unmapPages table iova i count host) ∧
        Sound table (unmapPages table iova i count host) (clear pages iova i (i + count)) := by
  have iovaWide : iova + last * 4096 ≤ 2 ^ 52 := iovaFits.trans (Nat.pow_le_pow_right (by decide) (by decide))
  intro count
  induction count with
  | zero =>
      intro i host pages sound _
      exact ⟨Grows.refl _ _, clear_self ▸ sound⟩
  | succ count inductionHypothesis =>
      intro i host pages sound within
      have before : i < last := by omega
      obtain ⟨grows1, tree1, -⟩ := IommuPageTable.unmapPage_spec ((iova + i * 4096) % 2 ^ 64) sound.tree
      have represents1 := IommuPageTable.unmapPage_represents ((iova + i * 4096) % 2 ^ 64) sound.tree
        sound.represents
      have accepted : (iova + i * 4096) % 4096 = 0 ∧ iova + i * 4096 < 2 ^ 39 := ⟨by omega, page_lt iovaFits before⟩
      have shrunk : Function.update pages ((iova + i * 4096) / 4096) none = clear pages iova i (i + 1) := by
        rw [← update_clear aligned (le_refl i), clear_self]
      rw [page_mod iovaWide before, if_pos accepted, shrunk] at represents1
      rw [page_mod iovaWide before] at grows1 tree1
      obtain ⟨grows, sound'⟩ := inductionHypothesis (i + 1) ⟨tree1, represents1⟩ (by omega)
      rw [clear_clear (by omega) (by omega), show i + 1 + count = i + (count + 1) by omega] at sound'
      rw [unmapPages, page_mod iovaWide before]
      exact ⟨grows1.trans grows, sound'⟩

end IommuEngine

/-- Writes outside the frames of the tables keep what the tables mean. -/
theorem Sound.congr {table : IommuPageTable} {host host' : Host} {pages : Nat → Option Nat} (sound : Sound table host pages)
    (agree : ∀ frame ∈ table.allocatedPages, ∀ addr, frame ≤ addr → addr < frame + 4096 → host'.memory addr = host.memory addr) :
    Sound table host' pages := by
  have same := sound.tree.tableAt_congr agree
  exact ⟨sound.tree.of_tableAt_eq fun path table => same path table.walk,
    fun iova below => (same _ (pagePath_walk iova)).trans (sound.represents iova below)⟩

/-! ## Where the engine's frames are -/

/-- Frames taken from the front of the fresh ones join the frames in use without repeats. -/
theorem Fresh.nodup_append {used taken rest : List Nat} (distinct : used.Nodup) (fresh : Fresh (taken ++ rest) used) :
    (used ++ taken).Nodup :=
  List.nodup_append.mpr ⟨distinct, (List.nodup_append.mp fresh.nodup).1,
    fun _ held other taken' same => fresh.unused other (List.mem_append_left _ taken') (same ▸ held)⟩

/-- Memory read at the frame of the root table. -/
theorem readEntry_eq_of_agree {memory memory' : Memory} {table index : Nat} (below : index < 512)
    (agree : ∀ addr, table ≤ addr → addr < table + 4096 → memory' addr = memory addr) :
    readEntry memory' table index = readEntry memory table index :=
  agree _ (by omega) (by omega)

namespace IommuEngine

/-- The frames the engine holds: the root table, the context tables and the page tables. -/
def frames (engine : IommuEngine) : List Nat :=
  engine.rootTable.rootTablePhys :: engine.rootTable.contextTablePages ++ engine.pageTable.allocatedPages

/-- The engine's frames are distinct pages that the host will not hand out again, and every present
root entry names one of the context tables. -/
structure Layout (engine : IommuEngine) (host : Host) : Prop where
  distinct : engine.frames.Nodup
  framed : ∀ frame ∈ engine.frames, Frame frame
  fresh : Fresh host.frames engine.frames
  rooted : ∀ bus < 256, RootEntry.isPresent (readEntry host.memory engine.rootTable.rootTablePhys bus) = true →
    RootEntry.contextTablePhys (readEntry host.memory engine.rootTable.rootTablePhys bus) ∈
      engine.rootTable.contextTablePages

variable {engine : IommuEngine} {host host' : Host}

theorem root_mem_frames (engine : IommuEngine) : engine.rootTable.rootTablePhys ∈ engine.frames :=
  List.mem_cons_self

theorem context_mem_frames {table : Nat} (held : table ∈ engine.rootTable.contextTablePages) : table ∈ engine.frames :=
  List.mem_cons_of_mem _ (List.mem_append_left _ held)

theorem page_mem_frames {table : Nat} (held : table ∈ engine.pageTable.allocatedPages) : table ∈ engine.frames :=
  List.mem_cons_of_mem _ (List.mem_append_right _ held)

/-- An address in one frame of the engine is in no other. -/
theorem Layout.apart (layout : Layout engine host) {frame other addr : Nat} (held : frame ∈ engine.frames)
    (held' : other ∈ engine.frames) (distinct : other ≠ frame) (inside : other ≤ addr ∧ addr < other + 4096) :
    ¬(frame ≤ addr ∧ addr < frame + 4096) :=
  not_inside_of_ne (layout.framed frame held).1 (layout.framed other held').1 distinct inside

/-- The root table is not a page table. -/
theorem Layout.root_not_page (layout : Layout engine host) :
    engine.rootTable.rootTablePhys ∉ engine.pageTable.allocatedPages := fun held =>
  (List.nodup_cons.mp layout.distinct).1 (List.mem_append_right _ held)

/-- No context table is a page table. -/
theorem Layout.context_ne_page (layout : Layout engine host) {table frame : Nat}
    (context : table ∈ engine.rootTable.contextTablePages) (page : frame ∈ engine.pageTable.allocatedPages) :
    table ≠ frame :=
  (List.nodup_append.mp (List.nodup_cons.mp layout.distinct).2).2.2 table context frame page

/-- No context table is the root table. -/
theorem Layout.context_ne_root (layout : Layout engine host) {table : Nat}
    (context : table ∈ engine.rootTable.contextTablePages) : table ≠ engine.rootTable.rootTablePhys := fun same =>
  (List.nodup_cons.mp layout.distinct).1 (List.mem_append_left _ (same ▸ context))

/-- A change of the page tables that `Grows` allows keeps the layout: the frames it takes are
fresh, and it does not write the root table. -/
theorem Layout.grows (layout : Layout engine host) {pageTable : IommuPageTable}
    (grows : Grows engine.pageTable host pageTable host') : Layout { engine with pageTable } host' := by
  obtain ⟨taken, split, grown⟩ := grows.taken
  have fresh : Fresh (taken ++ host'.frames) engine.frames := split ▸ layout.fresh
  have framesEq : ({ engine with pageTable } : IommuEngine).frames = engine.frames ++ taken := by
    simp [frames, grown]
  have rootKept : ∀ bus < 512, readEntry host'.memory engine.rootTable.rootTablePhys bus =
      readEntry host.memory engine.rootTable.rootTablePhys bus := by
    intro bus below
    refine readEntry_eq_of_agree below fun addr low high => grows.outside addr fun frame held inside => ?_
    -- the root table is neither an old page table nor a fresh frame
    have rootOld := layout.root_not_page
    rw [grown] at held
    rcases List.mem_append.mp held with old | new
    · exact layout.apart (page_mem_frames old) (root_mem_frames engine)
        (fun same => rootOld (same ▸ old)) ⟨low, high⟩ inside
    · exact not_inside_of_ne (fresh.framed frame (List.mem_append_left _ new)).1
        (layout.framed _ (root_mem_frames engine)).1
        (fun same => fresh.unused frame (List.mem_append_left _ new) (same ▸ root_mem_frames engine)) ⟨low, high⟩ inside
  refine ⟨framesEq ▸ fresh.nodup_append layout.distinct, ?_, framesEq ▸ fresh.drop, ?_⟩
  · intro frame held
    rw [framesEq] at held
    rcases List.mem_append.mp held with old | new
    · exact layout.framed frame old
    · exact fresh.framed frame (List.mem_append_left _ new)
  · intro bus below present
    rw [rootKept bus (by omega)] at present ⊢
    exact layout.rooted bus below present

/-- `RootEntry::new(frame)` names `frame` and is present. -/
theorem rootEntry_new {frame : Nat} (framed : Frame frame) :
    RootEntry.isPresent (RootEntry.new frame) = true ∧ RootEntry.contextTablePhys (RootEntry.new frame) = frame := by
  refine ⟨by simp [RootEntry.isPresent, RootEntry.new], ?_⟩
  apply Nat.eq_of_testBit_eq
  intro bit
  rw [RootEntry.contextTablePhys, RootEntry.new, show (0xFFFFFFFFFFFFF000 : Nat) = (2 ^ 52 - 1) <<< 12 by decide]
  simp only [Nat.testBit_and, Nat.testBit_or, Nat.testBit_shiftLeft, Nat.testBit_two_pow_sub_one]
  -- the mask keeps bits 12 to 63; the frame has none below 12 or from 52 on
  by_cases below : bit < 12
  · simp [below, framed.testBit_low below]
  · have one : Nat.testBit 1 bit = false := Nat.testBit_lt_two_pow (Nat.one_lt_two_pow (by omega))
    by_cases above : 52 ≤ bit
    · simp [one, framed.testBit_high above]
    · simp [one, show 12 ≤ bit by omega, show bit - 12 < 52 by omega]

/-- `get_context_entry`: the entry lies in a context table, the layout stays, and the page tables
are not written.  A bus without a context table gets a fresh one. -/
theorem getContextEntry_spec (layout : Layout engine host) {bus device function entry : Nat}
    {rootTable : IommuRootTable} (busBelow : bus < 256) (idxBelow : (device <<< 3) ||| function < 256)
    (got : engine.rootTable.getContextEntry host bus device function = some (entry, rootTable, host')) :
    Layout { engine with rootTable } host' ∧ rootTable.rootTablePhys = engine.rootTable.rootTablePhys ∧
      (∃ table ∈ rootTable.contextTablePages, table ≤ entry ∧ entry + 16 ≤ table + 4096) ∧
      ∀ frame ∈ engine.pageTable.allocatedPages, ∀ addr, frame ≤ addr → addr < frame + 4096 →
        host'.memory addr = host.memory addr := by
  have rootFrame := layout.framed _ (root_mem_frames engine)
  unfold IommuRootTable.getContextEntry at got
  dsimp only at got
  split_ifs at got with absent
  · -- no context table yet: the next frame of the host becomes one
    cases listed : host.frames with
    | nil => simp [allocFrame, listed] at got
    | cons table rest =>
    simp only [allocFrame, listed, Option.some.injEq, Prod.mk.injEq] at got
    obtain ⟨rfl, rfl, rfl⟩ := got
    have fresh : Fresh ([table] ++ rest) engine.frames := by
      rw [List.singleton_append, ← listed]
      exact layout.fresh
    have framed : Frame table := fresh.framed table List.mem_cons_self
    have unused : table ∉ engine.frames := fresh.unused table List.mem_cons_self
    have perm : ({ engine with rootTable := { engine.rootTable with
        contextTablePages := engine.rootTable.contextTablePages ++ [table] } } : IommuEngine).frames.Perm
        (engine.frames ++ [table]) := by
      simp only [frames, List.cons_append, List.append_assoc]
      exact ((List.perm_append_singleton table _).symm.append_left _).cons _
    -- the root table is written at entry `bus` only, and the new table is zeroed
    have reads : ∀ bus' < 256, readEntry (writeEntry (zeroFrame host.memory table) engine.rootTable.rootTablePhys bus
        (RootEntry.new table)) engine.rootTable.rootTablePhys bus' =
        if bus' = bus then RootEntry.new table else readEntry host.memory engine.rootTable.rootTablePhys bus' := by
      intro bus' below
      rw [readEntry_writeEntry rootFrame.1 rootFrame.1 (by omega) (by omega)]
      by_cases same : bus' = bus
      · rw [if_pos ⟨rfl, same⟩, if_pos same]
      · rw [if_neg (fun both => same both.2), if_neg same, readEntry, readEntry, zeroFrame, if_neg]
        exact not_inside_of_ne framed.1 rootFrame.1 (fun equal => unused (equal ▸ root_mem_frames engine))
          ⟨by omega, by omega⟩
    refine ⟨⟨perm.nodup_iff.mpr (fresh.nodup_append layout.distinct), ?_, ?_, ?_⟩, rfl,
      ⟨table, List.mem_append_right _ (List.mem_singleton_self table), by omega, by omega⟩, ?_⟩
    · intro frame held
      rcases List.mem_append.mp (perm.subset held) with old | new
      · exact layout.framed frame old
      · exact (List.mem_singleton.mp new) ▸ framed
    · exact fresh.drop.mono fun _ held => perm.subset held
    · intro bus' below present
      rw [reads bus' below] at present ⊢
      by_cases same : bus' = bus
      · rw [if_pos same, (rootEntry_new framed).2]
        exact List.mem_append_right _ (List.mem_singleton_self table)
      · rw [if_neg same] at present ⊢
        exact List.mem_append_left _ (layout.rooted bus' below present)
    · intro frame held addr low high
      have pageFrame := layout.framed frame (page_mem_frames held)
      show writeEntry (zeroFrame host.memory table) _ bus _ addr = host.memory addr
      have offRoot : addr ≠ engine.rootTable.rootTablePhys + bus * 8 := fun equal =>
        layout.apart (root_mem_frames engine) (page_mem_frames held)
          (fun same => layout.root_not_page (same ▸ held)) ⟨low, high⟩ ⟨by omega, by omega⟩
      rw [writeEntry, Function.update_of_ne offRoot, zeroFrame, if_neg]
      exact not_inside_of_ne framed.1 pageFrame.1 (fun same => unused (same ▸ page_mem_frames held)) ⟨low, high⟩
  · -- the bus has a context table already
    simp only [Option.some.injEq, Prod.mk.injEq] at got
    obtain ⟨rfl, rfl, rfl⟩ := got
    have present : RootEntry.isPresent (readEntry host.memory engine.rootTable.rootTablePhys bus) = true := by
      simpa using absent
    exact ⟨layout, rfl, ⟨_, layout.rooted bus busBelow present, by omega, by omega⟩, fun _ _ _ _ _ => rfl⟩

/-- The write of a context entry inside a context table keeps the layout and the page tables. -/
theorem Layout.writeContext (layout : Layout engine host) {table entry : Nat}
    (held : table ∈ engine.rootTable.contextTablePages) (low : table ≤ entry) (high : entry + 16 ≤ table + 4096)
    (value : ContextEntry) :
    Layout engine { host with memory := writeContextEntry host.memory entry value } ∧
      ∀ frame ∈ engine.pageTable.allocatedPages, ∀ addr, frame ≤ addr → addr < frame + 4096 →
        writeContextEntry host.memory entry value addr = host.memory addr := by
  -- both words of the entry lie in the context table, which is no other frame of the engine
  have outside : ∀ frame ∈ engine.frames, frame ≠ table → ∀ addr, frame ≤ addr → addr < frame + 4096 →
      writeContextEntry host.memory entry value addr = host.memory addr := by
    intro frame member distinct addr low' high'
    have away := layout.apart (context_mem_frames held) member distinct ⟨low', high'⟩
    rw [writeContextEntry, Function.update_of_ne (by omega), Function.update_of_ne (by omega)]
  refine ⟨⟨layout.distinct, layout.framed, layout.fresh, fun bus below present => ?_⟩,
    fun frame member => outside frame (page_mem_frames member) (fun same => layout.context_ne_page held member same.symm)⟩
  have kept := readEntry_eq_of_agree (show bus < 512 by omega)
    (outside _ (root_mem_frames engine) (layout.context_ne_root held).symm)
  rw [kept] at present ⊢
  exact layout.rooted bus below present

/-- The layout reads the tables of the engine only. -/
theorem Layout.of_tables (layout : Layout engine host) {engine' : IommuEngine}
    (sameRoot : engine'.rootTable = engine.rootTable) (samePages : engine'.pageTable = engine.pageTable) :
    Layout engine' host := by
  obtain ⟨rootTable, pageTable, iova⟩ := engine
  obtain ⟨rootTable', pageTable', iova'⟩ := engine'
  dsimp only at sameRoot samePages
  subst sameRoot samePages
  exact ⟨layout.distinct, layout.framed, layout.fresh, layout.rooted⟩

/-- The context block of `dma_map` keeps the layout and writes no page table. -/
theorem pointContext_spec (layout : Layout engine host) {deviceId : Nat} {rootTable : IommuRootTable}
    (pointed : engine.pointContext host deviceId = some (rootTable, host')) :
    Layout { engine with rootTable } host' ∧
      ∀ frame ∈ engine.pageTable.allocatedPages, ∀ addr, frame ≤ addr → addr < frame + 4096 →
        host'.memory addr = host.memory addr := by
  have busBelow : (deviceId >>> 8) % 256 < 256 := Nat.mod_lt _ (by decide)
  have idxBelow : ((deviceId >>> 3) &&& 0x1F) <<< 3 ||| (deviceId &&& 0x7) < 256 := by
    have device : (deviceId >>> 3) &&& 0x1F ≤ 0x1F := Nat.and_le_right
    have function : deviceId &&& 0x7 ≤ 0x7 := Nat.and_le_right
    rw [show (256 : Nat) = 2 ^ 8 from rfl]
    exact Nat.or_lt_two_pow (by rw [Nat.shiftLeft_eq]; omega) (by omega)
  unfold pointContext at pointed
  dsimp only at pointed
  cases got : engine.rootTable.getContextEntry host ((deviceId >>> 8) % 256) ((deviceId >>> 3) &&& 0x1F)
      (deviceId &&& 0x7) with
  | none => simp [got] at pointed
  | some found =>
      obtain ⟨entry, rootTable1, host1⟩ := found
      obtain ⟨layout1, -, ⟨table, held, low, high⟩, agree1⟩ := getContextEntry_spec layout busBelow idxBelow got
      simp only [got] at pointed
      split_ifs at pointed with blocked
      · -- a blocked device keeps its entry
        simp only [Option.some.injEq, Prod.mk.injEq] at pointed
        obtain ⟨rfl, rfl⟩ := pointed
        exact ⟨layout1, agree1⟩
      · simp only [Option.some.injEq, Prod.mk.injEq] at pointed
        obtain ⟨rfl, rfl⟩ := pointed
        obtain ⟨layout2, agree2⟩ :=
          layout1.writeContext held low high (ContextEntry.newHost engine.pageTable.rootPhys ctxAw3level)
        exact ⟨layout2, fun frame member addr low' high' =>
          (agree2 frame member addr low' high').trans (agree1 frame member addr low' high')⟩

end IommuEngine

/-! ## The page map of the live mappings -/

/-- A mapping `dma_map` returned: its IOVA, and the physical address and size it was asked for. -/
structure DmaMapping where
  iova : Nat
  phys : Nat
  size : Nat
  deriving DecidableEq, Repr

namespace DmaMapping

/-- The range as the allocator records it: `(addr, size)`. -/
def range (mapping : DmaMapping) : Nat × Nat := (mapping.iova, mapping.size)

/-- The pages of the mapping: `iova / 4096 + k` for `k < alignUp size / 4096`. -/
def Covers (mapping : DmaMapping) (page : Nat) : Prop :=
  mapping.iova / 4096 + 0 ≤ page ∧ page < mapping.iova / 4096 + alignUp mapping.size / 4096

/-- A page of an aligned mapping is one whose first address lies in its range. -/
theorem covers_iff {mapping : DmaMapping} (aligned : mapping.iova % 4096 = 0) {page : Nat} :
    mapping.Covers page ↔ page * 4096 ∈ Set.Ico mapping.iova (mapping.iova + alignUp mapping.size) := by
  have whole := alignUp_mod mapping.size
  rw [Covers, Set.mem_Ico]
  omega

end DmaMapping

/-- The page map of the live mappings: page `iova / 4096 + k` of a mapping to page `k` of its
physical range. -/
def pageMap : List DmaMapping → Nat → Option Nat
  | [] => fun _ => none
  | mapping :: live => fill (pageMap live) mapping.iova mapping.phys 0 (alignUp mapping.size / 4096)

theorem pageMap_eq_none {live : List DmaMapping} {page : Nat} (away : ∀ mapping ∈ live, ¬mapping.Covers page) :
    pageMap live page = none := by
  induction live with
  | nil => rfl
  | cons mapping live inductionHypothesis =>
      have uncovered : ¬(mapping.iova / 4096 + 0 ≤ page ∧ page < mapping.iova / 4096 + alignUp mapping.size / 4096) :=
        away mapping List.mem_cons_self
      rw [pageMap, fill, if_neg uncovered]
      exact inductionHypothesis fun other held => away other (List.mem_cons_of_mem _ held)

/-- A page of a live mapping maps to the same page of its physical range, when no two live mappings
share a page. -/
theorem pageMap_eq_some {live : List DmaMapping} {mapping : DmaMapping} {page : Nat}
    (apart : live.Pairwise fun first second => ∀ page, ¬(first.Covers page ∧ second.Covers page))
    (held : mapping ∈ live) (covered : mapping.Covers page) :
    pageMap live page = some (mapping.phys + (page - mapping.iova / 4096) * 4096) := by
  induction live with
  | nil => exact absurd held List.not_mem_nil
  | cons first rest inductionHypothesis =>
      obtain ⟨firstApart, restApart⟩ := List.pairwise_cons.mp apart
      by_cases same : first = mapping
      · subst same
        exact if_pos covered
      · -- the page is the mapping's, so the first mapping of the list does not have it
        have later : mapping ∈ rest := (List.mem_cons.mp held).resolve_left (Ne.symm same)
        have uncovered : ¬(first.iova / 4096 + 0 ≤ page ∧ page < first.iova / 4096 + alignUp first.size / 4096) :=
          fun firstCovers => firstApart mapping later page ⟨firstCovers, covered⟩
        rw [pageMap, fill, if_neg uncovered]
        exact inductionHypothesis restApart later

/-- Filling one range and clearing another commute when the ranges share no page. -/
theorem clear_fill_comm {pages : Nat → Option Nat} {iova phys lo hi other lo' hi' : Nat}
    (apart : ∀ page, ¬((iova / 4096 + lo ≤ page ∧ page < iova / 4096 + hi) ∧
      (other / 4096 + lo' ≤ page ∧ page < other / 4096 + hi'))) :
    clear (fill pages iova phys lo hi) other lo' hi' = fill (clear pages other lo' hi') iova phys lo hi := by
  funext page
  unfold clear fill
  by_cases filled : iova / 4096 + lo ≤ page ∧ page < iova / 4096 + hi
  · have uncleared : ¬(other / 4096 + lo' ≤ page ∧ page < other / 4096 + hi') := fun cleared =>
      apart page ⟨filled, cleared⟩
    simp only [if_pos filled, if_neg uncleared]
  · simp only [if_neg filled]

/-- Unmapping the pages of one live mapping leaves the page map of the others, when no two live
mappings share a page. -/
theorem pageMap_erase {live : List DmaMapping} {mapping : DmaMapping}
    (apart : live.Pairwise fun first second => ∀ page, ¬(first.Covers page ∧ second.Covers page))
    (held : mapping ∈ live) :
    clear (pageMap live) mapping.iova 0 (alignUp mapping.size / 4096) = pageMap (live.erase mapping) := by
  induction live with
  | nil => exact absurd held List.not_mem_nil
  | cons first rest inductionHypothesis =>
      obtain ⟨firstApart, restApart⟩ := List.pairwise_cons.mp apart
      by_cases same : first = mapping
      · -- the erased mapping is the first: its pages were not in the page map of the rest
        subst same
        rw [List.erase_cons_head, pageMap]
        exact clear_fill fun page low high =>
          pageMap_eq_none fun other member covered => firstApart other member page ⟨⟨low, high⟩, covered⟩
      · have later : mapping ∈ rest := (List.mem_cons.mp held).resolve_left (Ne.symm same)
        rw [List.erase_cons_tail (by simpa using same), pageMap, pageMap,
          clear_fill_comm fun page both => firstApart mapping later page both, inductionHypothesis restApart later]

/-- Unmapping the pages of one live mapping leaves the allocator's record of the others, when no two
live mappings have one range. -/
theorem map_range_erase {live : List DmaMapping} {mapping : DmaMapping}
    (distinct : live.Pairwise fun first second => first.range ≠ second.range) (held : mapping ∈ live) :
    (live.erase mapping).map DmaMapping.range = (live.map DmaMapping.range).erase mapping.range := by
  induction live with
  | nil => exact absurd held List.not_mem_nil
  | cons first rest inductionHypothesis =>
      obtain ⟨firstDistinct, restDistinct⟩ := List.pairwise_cons.mp distinct
      by_cases same : first = mapping
      · subst same
        rw [List.erase_cons_head, List.map_cons, List.erase_cons_head]
      · have later : mapping ∈ rest := (List.mem_cons.mp held).resolve_left (Ne.symm same)
        rw [List.erase_cons_tail (by simpa using same), List.map_cons, List.map_cons,
          List.erase_cons_tail (by simpa using firstDistinct mapping later), inductionHypothesis restDistinct later]

/-- A call on the engine: `dma_map(device_id, phys, size)` or `dma_unmap(iova, size)`. -/
inductive DmaCall
  | map (deviceId phys size : Nat)
  | unmap (iova size : Nat)
  deriving DecidableEq, Repr

/-- What a call returns: the result of `dma_map`, or nothing for `dma_unmap`. -/
inductive DmaReply
  | mapped (result : Except Unit Nat)
  | unmapped

/-- The live mappings after a `dma_map` call: one more when it returns `Ok`. -/
def recordMap (result : Except Unit Nat) (phys size : Nat) (live : List DmaMapping) : List DmaMapping :=
  match result with
  | .ok iova => ⟨iova, phys, size⟩ :: live
  | .error () => live

/-- The engine, the host's memory and frames, and the mappings its callers hold. -/
structure DmaSystem where
  engine : IommuEngine
  host : Host
  live : List DmaMapping

namespace DmaSystem

/-- The engine from `engine` and `host` under callers that map physical memory below `2 ^ 52` and
unmap only a mapping they hold, with its size. -/
def machine (engine : IommuEngine) (host : Host) : Machine DmaSystem DmaCall DmaReply where
  init := ⟨engine, host, []⟩
  step system
    | .map deviceId phys size =>
        if phys + alignUp size ≤ 2 ^ 52 then
          let (result, engine, host) := system.engine.dmaMap system.host deviceId phys size
          some (.mapped result, ⟨engine, host, recordMap result phys size system.live⟩)
        else none
    | .unmap iova size =>
        match system.live.find? fun mapping => mapping.iova == iova && mapping.size == size with
        | some mapping =>
            some (.unmapped, ⟨(system.engine.dmaUnmap system.host iova size).1,
              (system.engine.dmaUnmap system.host iova size).2, system.live.erase mapping⟩)
        | none => none

/-- What holds in every state a run reaches: the allocator's free set and the live ranges partition
the window, the frames are laid out, and the page tables implement the page map of the live
mappings. -/
structure Coherent (limit : Nat) (system : DmaSystem) : Prop where
  partition : IovaSystem.Partition limit ⟨system.engine.iova, system.live.map DmaMapping.range⟩
  layout : system.engine.Layout system.host
  sound : Sound system.engine.pageTable system.host (pageMap system.live)

variable {limit : Nat} {system : DmaSystem}

theorem Coherent.placed (coherent : Coherent limit system) {mapping : DmaMapping} (held : mapping ∈ system.live) :
    mapping.iova % 4096 = 0 ∧ 4096 ≤ mapping.iova ∧ mapping.iova + alignUp mapping.size ≤ limit ∧
      0 < alignUp mapping.size :=
  coherent.partition.placed _ (List.mem_map_of_mem held)

/-- No two live mappings share a page. -/
theorem Coherent.apart (coherent : Coherent limit system) :
    system.live.Pairwise fun first second => ∀ page, ¬(first.Covers page ∧ second.Covers page) := by
  refine List.Pairwise.imp_of_mem ?_ (List.pairwise_map.mp coherent.partition.separate)
  intro first second heldFirst heldSecond disjoint page ⟨coversFirst, coversSecond⟩
  exact Set.disjoint_left.mp disjoint ((DmaMapping.covers_iff (coherent.placed heldFirst).1).mp coversFirst)
    ((DmaMapping.covers_iff (coherent.placed heldSecond).1).mp coversSecond)

/-- No two live mappings have one range: each has a page. -/
theorem Coherent.distinct (coherent : Coherent limit system) :
    system.live.Pairwise fun first second => first.range ≠ second.range := by
  refine List.Pairwise.imp_of_mem ?_ coherent.apart
  intro first second heldFirst _ apart same
  have whole := alignUp_mod first.size
  have positive := (coherent.placed heldFirst).2.2.2
  have sameIova : first.iova = second.iova := congrArg Prod.fst same
  have sameSize : first.size = second.size := congrArg Prod.snd same
  apply apart (first.iova / 4096)
  refine ⟨⟨by omega, by omega⟩, ⟨by omega, ?_⟩⟩
  rw [← sameIova, ← sameSize]
  omega

/-- The pages of a free range are in no live mapping. -/
theorem Coherent.free_unmapped (coherent : Coherent limit system) {addr size : Nat} (aligned : addr % 4096 = 0)
    (taken : Set.Ico addr (addr + alignUp size) ⊆ freeSet system.engine.iova.freeList) :
    ∀ page, addr / 4096 + 0 ≤ page → page < addr / 4096 + alignUp size / 4096 → pageMap system.live page = none := by
  intro page low high
  have whole := alignUp_mod size
  have inRange : page * 4096 ∈ Set.Ico addr (addr + alignUp size) := by
    rw [Set.mem_Ico]
    omega
  refine pageMap_eq_none fun mapping held covered => ?_
  exact Set.disjoint_left.mp (coherent.partition.notFree _ (List.mem_map_of_mem held)) (taken inRange)
    ((DmaMapping.covers_iff (coherent.placed held).1).mp covered)

theorem pages_eq (size : Nat) : alignUp size / 4096 = (size + 4095) % 2 ^ 64 / 4096 :=
  Nat.mul_div_cancel _ (by decide)

/-- `dma_map` keeps the invariant, and records the mapping when it returns `Ok`; on `Err` the
rollback gives back the map and the range. -/
theorem dmaMap_coherent (coherent : Coherent limit system) {deviceId phys size : Nat} {result : Except Unit Nat}
    {engine' : IommuEngine} {host' : Host} (physFits : phys + alignUp size ≤ 2 ^ 52)
    (mapped : system.engine.dmaMap system.host deviceId phys size = (result, engine', host')) :
    Coherent limit ⟨engine', host', recordMap result phys size system.live⟩ := by
  obtain ⟨engine, host, live⟩ := system
  unfold IommuEngine.dmaMap at mapped
  cases pointed : engine.pointContext host deviceId with
  | none =>
      simp only [pointed, Prod.mk.injEq] at mapped
      obtain ⟨rfl, rfl, rfl⟩ := mapped
      exact coherent
  | some found =>
  obtain ⟨rootTable, host1⟩ := found
  simp only [pointed] at mapped
  obtain ⟨layout1, agree1⟩ := IommuEngine.pointContext_spec coherent.layout pointed
  have sound1 : Sound engine.pageTable host1 (pageMap live) := coherent.sound.congr agree1
  cases allocated : engine.iova.alloc size with
  | mk handed iova =>
  cases handed with
  | none =>
      -- no range: the context entry stays pointed, nothing else changes
      obtain rfl : iova = engine.iova := by
        simpa [allocated] using IovaAllocator.alloc_none (show (engine.iova.alloc size).1 = none by rw [allocated])
      simp only [allocated, Prod.mk.injEq] at mapped
      obtain ⟨rfl, rfl, rfl⟩ := mapped
      exact ⟨coherent.partition, layout1.of_tables rfl rfl, sound1⟩
  | some addr =>
  obtain ⟨positive, aligned, -, high, taken, -, -⟩ :=
    IovaAllocator.alloc_some coherent.partition.small coherent.partition.formed allocated
  have partition1 := IovaSystem.partition_alloc coherent.partition allocated
  have fits : addr + (size + 4095) % 2 ^ 64 / 4096 * 4096 ≤ 2 ^ 39 := high.trans coherent.partition.small
  obtain ⟨finishes, fails⟩ := IommuEngine.mapPages_spec (rootTable.rootTablePhys :: rootTable.contextTablePages)
    aligned fits physFits ((size + 4095) % 2 ^ 64 / 4096) 0 sound1 layout1.fresh (by omega)
  simp only [allocated] at mapped
  cases loop : IommuEngine.mapPages addr phys 0 ((size + 4095) % 2 ^ 64 / 4096) engine.pageTable host1 with
  | ok done =>
      -- every page is mapped: the new mapping joins the live ones
      obtain ⟨pageTable, host2⟩ := done
      simp only [loop, Prod.mk.injEq] at mapped
      obtain ⟨rfl, rfl, rfl⟩ := mapped
      obtain ⟨grows, sound2⟩ := finishes loop
      rw [Nat.zero_add, ← pages_eq] at sound2
      exact ⟨partition1, (layout1.grows grows).of_tables rfl rfl, sound2⟩
  | error failure =>
      -- page `j` failed: the pages before it are unmapped again and the range is freed
      obtain ⟨j, pageTable, host2⟩ := failure
      simp only [loop, Prod.mk.injEq] at mapped
      obtain ⟨rfl, rfl, rfl⟩ := mapped
      obtain ⟨-, below, grows, sound2⟩ := fails loop
      obtain ⟨grows', sound3⟩ := IommuEngine.unmapPages_spec aligned fits j 0 sound2 (by omega)
      have restored : clear (fill (pageMap live) addr phys 0 j) addr 0 (0 + j) = pageMap live := by
        rw [Nat.zero_add]
        exact clear_fill fun page low' high' =>
          coherent.free_unmapped aligned taken page low' (by rw [pages_eq]; omega)
      rw [restored] at sound3
      have partition2 := IovaSystem.partition_free partition1 List.mem_cons_self
      rw [List.erase_cons_head] at partition2
      exact ⟨partition2, (layout1.grows (grows.trans grows')).of_tables rfl rfl, sound3⟩

/-- `dma_unmap` of a live mapping with its size keeps the invariant without that mapping. -/
theorem dmaUnmap_coherent (coherent : Coherent limit system) {mapping : DmaMapping} (held : mapping ∈ system.live) :
    Coherent limit ⟨(system.engine.dmaUnmap system.host mapping.iova mapping.size).1,
      (system.engine.dmaUnmap system.host mapping.iova mapping.size).2, system.live.erase mapping⟩ := by
  obtain ⟨aligned, -, high, -⟩ := coherent.placed held
  have fits : mapping.iova + (mapping.size + 4095) % 2 ^ 64 / 4096 * 4096 ≤ 2 ^ 39 :=
    high.trans coherent.partition.small
  obtain ⟨grows, sound'⟩ :=
    IommuEngine.unmapPages_spec aligned fits ((mapping.size + 4095) % 2 ^ 64 / 4096) 0 coherent.sound (by omega)
  have cleared : clear (pageMap system.live) mapping.iova 0 (0 + (mapping.size + 4095) % 2 ^ 64 / 4096) =
      pageMap (system.live.erase mapping) := by
    rw [Nat.zero_add, ← pages_eq]
    exact pageMap_erase coherent.apart held
  rw [cleared] at sound'
  have partition' := IovaSystem.partition_free coherent.partition (List.mem_map_of_mem held)
  dsimp only at partition'
  rw [show (mapping.iova, mapping.size) = mapping.range from rfl, ← map_range_erase coherent.distinct held] at partition'
  exact ⟨partition', (coherent.layout.grows grows).of_tables rfl rfl, sound'⟩

/-- Every call a caller may make keeps the invariant. -/
theorem coherent_step {engine : IommuEngine} {host : Host} (coherent : Coherent limit system) {call : DmaCall}
    {reply : DmaReply} {next : DmaSystem} (stepped : (machine engine host).step system call = some (reply, next)) :
    Coherent limit next := by
  cases call with
  | map deviceId phys size =>
      simp only [machine] at stepped
      split_ifs at stepped with physFits
      cases mapped : system.engine.dmaMap system.host deviceId phys size with
      | mk result rest =>
      obtain ⟨engine', host'⟩ := rest
      simp only [mapped, Option.some.injEq, Prod.mk.injEq] at stepped
      obtain ⟨-, rfl⟩ := stepped
      exact dmaMap_coherent coherent physFits mapped
  | unmap iova size =>
      simp only [machine] at stepped
      cases found : system.live.find? fun mapping => mapping.iova == iova && mapping.size == size with
      | none => simp [found] at stepped
      | some mapping =>
          simp only [found, Option.some.injEq, Prod.mk.injEq] at stepped
          obtain ⟨-, rfl⟩ := stepped
          have named := List.find?_some found
          simp only [Bool.and_eq_true, beq_iff_eq] at named
          obtain ⟨rfl, rfl⟩ := named
          exact dmaUnmap_coherent coherent (List.mem_of_find?_eq_some found)

/-- A table whose entries are all zero ends every walk through it. -/
theorem tableAt_cons_of_zero {memory : Memory} {root index : Nat} (zero : readEntry memory root index = 0)
    (rest : List Nat) : tableAt memory root (index :: rest) = none := by
  unfold tableAt
  rw [List.foldlM_cons, show child memory root index = none by rw [child, zero]; rfl]
  rfl

/-- What `IommuEngine::new` builds from fresh frames: a zeroed root table, a page table that is one
zeroed frame, and the whole window free. -/
theorem coherent_init {host0 : Host} {iovaBits : Nat} {engine : IommuEngine} {host : Host} (wide : 12 < iovaBits)
    (fresh : Fresh host0.frames []) (created : IommuEngine.new host0 iovaBits = some (engine, host)) :
    Coherent (2 ^ max 12 (min iovaBits 39)) (machine engine host).init := by
  unfold IommuEngine.new IommuRootTable.new IommuPageTable.new allocFrame at created
  cases listed : host0.frames with
  | nil => simp [listed] at created
  | cons root rest =>
  cases rest with
  | nil => simp [listed] at created
  | cons page rest =>
  simp only [listed, Option.some.injEq, Prod.mk.injEq] at created
  obtain ⟨rfl, rfl⟩ := created
  rw [listed] at fresh
  have rootFrame := fresh.framed root List.mem_cons_self
  have pageFrame := fresh.framed page (List.mem_cons_of_mem _ List.mem_cons_self)
  obtain ⟨rootFirst, pageNext, restDistinct⟩ : root ∉ page :: rest ∧ page ∉ rest ∧ rest.Nodup := by
    have := fresh.nodup
    simp only [List.nodup_cons] at this
    exact ⟨this.1, this.2.1, this.2.2⟩
  have distinctFrames : page ≠ root := fun same => rootFirst (same ▸ List.mem_cons_self)
  -- the two new frames read zero
  have zeroRoot : ∀ bus < 512, readEntry (zeroFrame (zeroFrame host0.memory root) page) root bus = 0 := by
    intro bus below
    rw [readEntry, zeroFrame, if_neg (not_inside_of_ne pageFrame.1 rootFrame.1 distinctFrames.symm
      ⟨by omega, by omega⟩), zeroFrame, if_pos ⟨by omega, by omega⟩]
  have zeroPage : ∀ index < 512, readEntry (zeroFrame (zeroFrame host0.memory root) page) page index = 0 :=
    fun index below => by rw [readEntry, zeroFrame, if_pos ⟨by omega, by omega⟩]
  -- so the only walk from the page table's root is the empty one
  have walks : ∀ path, WalkPath path → tableAt (zeroFrame (zeroFrame host0.memory root) page) page path =
      if path = [] then some page else none := by
    intro path walk
    cases path with
    | nil => rfl
    | cons index rest =>
        rw [if_neg (List.cons_ne_nil _ _), tableAt_cons_of_zero (zeroPage index (walk.2 index List.mem_cons_self))]
  show Coherent _ ⟨⟨⟨root, []⟩, ⟨page, 0, [page]⟩, IovaAllocator.new iovaBits⟩,
    ⟨zeroFrame (zeroFrame host0.memory root) page, rest⟩, []⟩
  have framesEq : IommuEngine.frames ⟨⟨root, []⟩, ⟨page, 0, [page]⟩, IovaAllocator.new iovaBits⟩ = [root, page] := rfl
  refine ⟨IovaSystem.partition_init wide, ⟨?_, ?_, ?_, ?_⟩, ⟨⟨?_, ?_, ?_⟩, ?_⟩⟩
  · rw [framesEq]
    exact List.nodup_cons.mpr ⟨by simpa using distinctFrames.symm, List.nodup_singleton page⟩
  · intro frame held
    rw [framesEq] at held
    simp only [List.mem_cons, List.not_mem_nil, or_false] at held
    rcases held with rfl | rfl
    · exact rootFrame
    · exact pageFrame
  · refine ⟨restDistinct, fun frame held => fresh.framed frame (List.mem_cons_of_mem _ (List.mem_cons_of_mem _ held)),
      fun frame held taken => ?_⟩
    rw [framesEq] at taken
    simp only [List.mem_cons, List.not_mem_nil, or_false] at taken
    rcases taken with rfl | rfl
    · exact rootFirst (List.mem_cons_of_mem _ held)
    · exact pageNext held
  · intro bus below present
    rw [zeroRoot bus (by omega)] at present
    exact absurd present (by decide)
  · intro frame held
    rw [List.mem_singleton.mp held]
    exact pageFrame
  · intro path table frame reached
    rw [walks path table.walk] at reached
    split_ifs at reached
    exact List.mem_singleton.mpr (Option.some.inj reached).symm
  · intro path path' table table' frame reached reached'
    rw [walks path table.walk] at reached
    rw [walks path' table'.walk] at reached'
    split_ifs at reached reached' with empty empty'
    rw [empty, empty']
  · intro iova _
    rw [translate, walks _ (pagePath_walk iova), if_neg (by simp [pagePath])]
    rfl

/-- Every state a run reaches from a new engine is coherent. -/
theorem coherent_of_reachable {host0 : Host} {iovaBits : Nat} {engine : IommuEngine} {host : Host}
    (wide : 12 < iovaBits) (fresh : Fresh host0.frames []) (created : IommuEngine.new host0 iovaBits = some (engine, host))
    (reached : (machine engine host).Reachable system) : Coherent (2 ^ max 12 (min iovaBits 39)) system :=
  Machine.Inductive.reachable ⟨coherent_init wide fresh created, fun holds stepped => coherent_step holds stepped⟩
    reached

/-- Distinct frames, each page aligned and below `2 ^ 52`, are fresh before any is used. -/
theorem fresh_of_frames {frames : List Nat} (distinct : frames.Nodup) (framed : ∀ frame ∈ frames, Frame frame) :
    Fresh frames [] :=
  ⟨distinct, framed, fun _ _ used => absurd used List.not_mem_nil⟩

/-- The engine `new` builds on a zeroed host whose first free frames are 4096 and 8192: the root
table and the page table's top level. -/
def startEngine : IommuEngine := ⟨⟨4096, []⟩, ⟨8192, 0, [8192]⟩, IovaAllocator.new 39⟩

/-- The IOMMU maps exactly the live mappings: in every state a run reaches from a new engine, the
page tables take byte `k` of every live mapping to byte `k` of its physical range, and fault on
every IOVA below `2 ^ 39` outside the live mappings. -/
theorem reachable_translate {host0 : Host} {iovaBits : Nat} {engine : IommuEngine} {host : Host}
    (wide : 12 < iovaBits) (fresh : Fresh host0.frames []) (created : IommuEngine.new host0 iovaBits = some (engine, host))
    (reached : (machine engine host).Reachable system) :
    (∀ mapping ∈ system.live, ∀ offset < alignUp mapping.size,
      (translate system.host.memory system.engine.pageTable.rootPhys (mapping.iova + offset)).map
        (· + (mapping.iova + offset) % 4096) = some (mapping.phys + offset)) ∧
    ∀ iova < 2 ^ 39, (∀ mapping ∈ system.live, iova ∉ Set.Ico mapping.iova (mapping.iova + alignUp mapping.size)) →
      translate system.host.memory system.engine.pageTable.rootPhys iova = none := by
  have coherent := coherent_of_reachable wide fresh created reached
  refine ⟨fun mapping held offset below => ?_, fun iova below outside => ?_⟩
  · obtain ⟨aligned, -, high, -⟩ := coherent.placed held
    have whole := alignUp_mod mapping.size
    have inWindow : mapping.iova + offset < 2 ^ 39 :=
      Nat.lt_of_lt_of_le (Nat.add_lt_add_left below _) (high.trans coherent.partition.small)
    have covered : mapping.Covers ((mapping.iova + offset) / 4096) := by
      unfold DmaMapping.Covers
      omega
    rw [coherent.sound.represents _ inWindow, pageMap_eq_some coherent.apart held covered, Option.map_some,
      Option.some.injEq]
    -- the frame is the page of the offset, and the IOVA keeps the offset in the page
    omega
  · rw [coherent.sound.represents iova below]
    refine pageMap_eq_none fun mapping held covered => outside mapping held ?_
    have whole := alignUp_mod mapping.size
    have aligned := (coherent.placed held).1
    unfold DmaMapping.Covers at covered
    rw [Set.mem_Ico]
    omega

/-- A host with five free frames: after `new` takes two, three are left for the page tables of a
first mapping. -/
def fiveFrames : Host := ⟨fun _ => 0, [4096, 8192, 12288, 16384, 20480]⟩

/-- The host `new` leaves of `fiveFrames`; the engine is `startEngine`. -/
def fiveHost : Host := ⟨zeroFrame (zeroFrame (fun _ => 0) 4096) 8192, [12288, 16384, 20480]⟩

theorem new_fiveFrames : IommuEngine.new fiveFrames 39 = some (startEngine, fiveHost) := rfl

theorem fresh_fiveFrames : Fresh fiveFrames.frames [] :=
  fresh_of_frames (by decide) (by unfold Frame; decide)

/-- After two pages at physical address `0x100000` are mapped for device 0 on a new engine over five
frames, the live mapping is at IOVA 4096 and both its pages translate, and every other IOVA does
not. -/
theorem translate_after_map :
    ∃ replies system, (machine startEngine fiveHost).run (machine startEngine fiveHost).init
        [.map 0 0x100000 8192] = some (replies, system) ∧ replies = [.mapped (.ok 4096)] ∧ system.live.length = 1 ∧
      ((∀ mapping ∈ system.live, ∀ offset < alignUp mapping.size,
        (translate system.host.memory system.engine.pageTable.rootPhys (mapping.iova + offset)).map
          (· + (mapping.iova + offset) % 4096) = some (mapping.phys + offset)) ∧
      ∀ iova < 2 ^ 39, (∀ mapping ∈ system.live, iova ∉ Set.Ico mapping.iova (mapping.iova + alignUp mapping.size)) →
        translate system.host.memory system.engine.pageTable.rootPhys iova = none) :=
  ⟨_, _, rfl, rfl, rfl, reachable_translate (by decide) fresh_fiveFrames new_fiveFrames
    (Machine.Reachable.run _ .init (rfl : (machine startEngine fiveHost).run (machine startEngine fiveHost).init
      [.map 0 0x100000 8192] = some (_, _)))⟩

/-- No IOVA is handed out twice by the engine: in every state a run reaches from a new engine, the
ranges of the live mappings are aligned, disjoint and inside `[4096, 2^bits)`, and with the
allocator's free set they cover that window. -/
theorem reachable_ranges {host0 : Host} {iovaBits : Nat} {engine : IommuEngine} {host : Host}
    (wide : 12 < iovaBits) (fresh : Fresh host0.frames []) (created : IommuEngine.new host0 iovaBits = some (engine, host))
    (reached : (machine engine host).Reachable system) :
    IovaSystem.Partition (2 ^ max 12 (min iovaBits 39)) ⟨system.engine.iova, system.live.map DmaMapping.range⟩ :=
  (coherent_of_reachable wide fresh created reached).partition

/-- After two mappings on a new engine over five frames, their ranges and the free set partition
the window. -/
theorem ranges_after_two_maps :
    ∃ replies system, (machine startEngine fiveHost).run (machine startEngine fiveHost).init
        [.map 0 0x100000 8192, .map 1 0x200000 4096] = some (replies, system) ∧
      replies = [.mapped (.ok 4096), .mapped (.ok 12288)] ∧
      IovaSystem.Partition (2 ^ max 12 (min 39 39)) ⟨system.engine.iova, system.live.map DmaMapping.range⟩ :=
  ⟨_, _, rfl, rfl, reachable_ranges (by decide) fresh_fiveFrames new_fiveFrames
    (Machine.Reachable.run _ .init (rfl : (machine startEngine fiveHost).run (machine startEngine fiveHost).init
      [.map 0 0x100000 8192, .map 1 0x200000 4096] = some (_, _)))⟩

end DmaSystem

end Fullerene.Nitrogen.Iommu
