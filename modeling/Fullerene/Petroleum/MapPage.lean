import Fullerene.Petroleum.UserMemory

/-!
# Mapping one 4 KiB page

`KernelMemoryOperations::map_page_4k` walks the four levels from an L4 table.
An unused L4, L3 or L2 entry gets a fresh zeroed table, entered with the
caller's flags and `PRESENT`.  A 1 GiB page on the way is split into 512
2 MiB pages with the old flags; a 2 MiB page on the way is split into 512
4 KiB pages with the old flags, but the L2 entry that replaces it carries the
caller's flags.  Last, the L1 entry is overwritten with `phys | flags`,
whatever it held.  Tables come from the free frames of the frame allocator.

Where every intermediate entry already exists, the call writes one word, the
L1 entry (`mapPage4k_of_tables`).  Where it splits a 2 MiB page, the other
511 pages of that page are walked through the new L2 entry and so take the
caller's permissions: mapping one of them read-only takes write access away
from all of them (`map_page_4k_split_drops_write`).
-/

namespace Fullerene.Petroleum

open Paging Function

/-- `PAGE_SIZE_2M`. -/
def pageSize2M : Nat := 2 * 1024 * 1024

/-- `PageTableFlags::NO_EXECUTE`. -/
def noExecuteFlag : Nat := 0x8000000000000000

/-- The `MemoryError` variant `map_page_4k` returns. -/
inductive MemoryError
  | frameAllocationFailed
  deriving DecidableEq, Repr

/-- Page tables in physical memory and the free frames of the frame
allocator, in the order `allocate_frame` returns them. -/
structure Tables where
  memory : Memory
  frames : List Nat

/-- `PageTableEntry::is_unused`. -/
def isUnused (entry : Nat) : Bool := entry == 0

/-- `flags.remove(mask)`. -/
def removeFlag (flags mask : Nat) : Nat := flags ^^^ (flags &&& mask)

/-- `entry.set_addr(addr, flags)` on entry `index` of the table at `table`. -/
def setEntry (memory : Memory) (table index addr flags : Nat) : Memory :=
  update memory (table + index * 8) (addr ||| flags)

/-- `zero_table_at_offset`: the 4096 bytes of the table at `table` become zero. -/
def zeroTable (memory : Memory) (table : Nat) : Memory :=
  fun addr => if table ≤ addr ∧ addr < table + 4096 then 0 else memory addr

/-- The loop that fills a new table: entry `j` is `entry j`. -/
def fillTable (memory : Memory) (table : Nat) (entry : Nat → Nat) : Memory :=
  fun addr => if table ≤ addr ∧ addr < table + 4096 ∧ (addr - table) % 8 = 0 then entry ((addr - table) / 8)
    else memory addr

/-- `allocate_zeroed_table_from`. -/
def allocateZeroedTable (tables : Tables) : Except MemoryError Nat × Tables :=
  match tables.frames with
  | [] => (.error .frameAllocationFailed, tables)
  | frame :: rest => (.ok frame, ⟨zeroTable tables.memory frame, rest⟩)

/-- The table below entry `index` of `table`: the entry's address, or a fresh
table entered with `flags | PRESENT` when the entry is unused. -/
def nextTable (tables : Tables) (table index flags : Nat) : Except MemoryError Nat × Tables :=
  let entry := readEntry tables.memory table index
  if isUnused entry then
    match allocateZeroedTable tables with
    | (.error error, tables) => (.error error, tables)
    | (.ok addr, tables) => (.ok addr, { tables with memory := setEntry tables.memory table index addr (flags ||| present) })
  else (.ok (entryAddr entry), tables)

/-- The split of a 1 GiB page at entry `index` of the L3 table `l3`: 512
2 MiB pages with the old flags, under an L3 entry with the old flags. -/
def split1G (tables : Tables) (l3 index : Nat) : Except MemoryError Unit × Tables :=
  let entry := readEntry tables.memory l3 index
  if contains (entryFlags entry) hugePage then
    let hugePhysBase := entryAddr entry
    let origFlags := entryFlags entry
    match allocateZeroedTable tables with
    | (.error error, tables) => (.error error, tables)
    | (.ok l2Phys, tables) =>
        let memory := fillTable tables.memory l2Phys fun j =>
          (hugePhysBase + j * pageSize2M) ||| (origFlags ||| present ||| hugePage)
        (.ok (), { tables with memory := setEntry memory l3 index l2Phys (removeFlag origFlags hugePage ||| present) })
  else (.ok (), tables)

/-- The L2 step: a fresh L1 table under an unused entry, or the split of a
2 MiB page into 512 4 KiB pages with the old flags, under an L2 entry with
the caller's flags. -/
def splitOrFill2M (tables : Tables) (l2 index flags : Nat) : Except MemoryError Unit × Tables :=
  let entry := readEntry tables.memory l2 index
  if isUnused entry then
    match allocateZeroedTable tables with
    | (.error error, tables) => (.error error, tables)
    | (.ok l1Phys, tables) => (.ok (), { tables with memory := setEntry tables.memory l2 index l1Phys (flags ||| present) })
  else if contains (entryFlags entry) hugePage then
    let hugePagePhysBase := entryAddr entry
    let splitFlags := removeFlag (entryFlags entry) hugePage
    match allocateZeroedTable tables with
    | (.error error, tables) => (.error error, tables)
    | (.ok l1Phys, tables) =>
        let memory := fillTable tables.memory l1Phys fun j => (hugePagePhysBase + j * 4096) ||| (splitFlags ||| present)
        (.ok (), { tables with memory := setEntry memory l2 index l1Phys (flags ||| present) })
  else (.ok (), tables)

/-- `KernelMemoryOperations::map_page_4k(virt, phys, flags)` under the L4
table `l4`.  A failed table allocation returns with the tables made so far;
`none` is the panic of `set_addr` on a `phys` that is not page-aligned. -/
def mapPage4k (tables : Tables) (l4 virt phys flags : Nat) : Option (Except MemoryError Unit × Tables) :=
  match nextTable tables l4 (tableIndex virt 39) flags with
  | (.error error, tables) => some (.error error, tables)
  | (.ok l3, tables) =>
      match split1G tables l3 (tableIndex virt 30) with
      | (.error error, tables) => some (.error error, tables)
      | (.ok (), tables) =>
          match nextTable tables l3 (tableIndex virt 30) flags with
          | (.error error, tables) => some (.error error, tables)
          | (.ok l2, tables) =>
              match splitOrFill2M tables l2 (tableIndex virt 21) flags with
              | (.error error, tables) => some (.error error, tables)
              | (.ok (), tables) =>
                  if phys % 4096 = 0 then
                    let l1 := entryAddr (readEntry tables.memory l2 (tableIndex virt 21))
                    some (.ok (), { tables with memory := setEntry tables.memory l1 (tableIndex virt 12) phys flags })
                  else none

/-! ## A region whose tables exist -/

/-- Where the L4, L3 and L2 entries on the way exist and none is a huge page,
`map_page_4k` overwrites the L1 entry and nothing else, and takes no frame. -/
theorem mapPage4k_of_tables {tables : Tables} {l4 virt phys flags pml4e pdpte pde : Nat}
    (aligned : phys % 4096 = 0)
    (readL4 : readEntry tables.memory l4 (tableIndex virt 39) = pml4e) (l4Used : pml4e ≠ 0)
    (readL3 : readEntry tables.memory (entryAddr pml4e) (tableIndex virt 30) = pdpte) (l3Used : pdpte ≠ 0)
    (l3Small : contains (entryFlags pdpte) hugePage = false)
    (readL2 : readEntry tables.memory (entryAddr pdpte) (tableIndex virt 21) = pde) (l2Used : pde ≠ 0)
    (l2Small : contains (entryFlags pde) hugePage = false) :
    mapPage4k tables l4 virt phys flags =
      some (.ok (), ⟨setEntry tables.memory (entryAddr pde) (tableIndex virt 12) phys flags, tables.frames⟩) := by
  simp [mapPage4k, nextTable, split1G, splitOrFill2M, isUnused, readL4, readL3, readL2, l4Used, l3Used,
    l3Small, l2Used, l2Small, aligned]

/-! ## Splitting a 2 MiB page -/

/-- Tables where virtual address `0x400000` lies in a user-writable 2 MiB
page: L4 at `0x1000`, L3 at `0x2000`, L2 at `0x3000`, one free frame. -/
def hugePageTables : Tables :=
  ⟨fun addr => if addr = 0x1000 then 0x2007 else if addr = 0x2000 then 0x3007
    else if addr = 0x3010 then 0x400087 else 0, [0x5000]⟩

/-- Mapping `0x400000` read-only (`PRESENT | USER_ACCESSIBLE`) splits the 2 MiB
page, and its neighbour `0x401000`, still backed by the same physical page,
loses write access: the new L2 entry carries the caller's flags. -/
theorem map_page_4k_split_drops_write :
    userAllows hugePageTables.memory 0x1000 0x401000 true = true ∧
      (mapPage4k hugePageTables 0x1000 0x400000 0x800000 (present ||| userAccessible)).map
          (fun (result, tables) =>
            (result, userAllows tables.memory 0x1000 0x401000 true, (walk tables.memory 0x1000 0x401000).map Leaf.entries)) =
        some (.ok (), false, some [0x2007, 0x3007, 0x5005, 0x401007]) := by
  decide +kernel

end Fullerene.Petroleum
