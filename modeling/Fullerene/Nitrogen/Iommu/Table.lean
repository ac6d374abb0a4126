import Mathlib
import Fullerene.Lib.Paging

/-!
# The IOMMU second-level page table

`IommuPageTable` builds the three-level second-level table of the IOMMU's one
DMA domain.  `map_page` walks from the root table by bits 38..30, 29..21 and
20..12 of the IOVA.  Where an entry on the way has no `IOPTE_R` bit, it takes a
frame from `alloc_frame`, zeroes it and points the entry to it.  The last entry
is set to the physical page with `IOPTE_R | IOPTE_W`.  `unmap_page` clears that
last entry when the path to it exists.

The memory is physical memory as `Paging.Memory` has it, a 64-bit word at each
byte address, and `phys_to_virt` is the identity.  `Host` pairs it with the
frames that `alloc_frame` will return, in order.

What the tables mean is `translate`: the walk over present entries, one table
per level.  While the tables form a tree of frames the code allocated
(`Tree`), `map_page` changes the translation of its own page only, and
`unmap_page` removes that page.  Their only other writes are to fresh frames
(`mapPage_spec`, `unmapPage_spec`).  The tables then refine a partial map from
page numbers to frames (`Represents`).
-/

namespace Fullerene.Nitrogen.Iommu

open Paging (Memory readEntry tableIndex)

/-- `IOPTE_R`. -/
def iopteR : Nat := 1 <<< 0

/-- `IOPTE_W`. -/
def iopteW : Nat := 1 <<< 1

/-- `IOPTE_ADDR_MASK`: bits 51..12. -/
def iopteAddrMask : Nat := 0x000FFFFFFFFFF000

/-- `iopte_addr`. -/
def iopteAddr (entry : Nat) : Nat := entry &&& iopteAddrMask

/-- Physical memory, and the frames `alloc_frame` returns, in order. -/
structure Host where
  memory : Memory
  frames : List Nat

/-- `(ctx.alloc_frame)()`: the next frame, or `None` when there is none. -/
def allocFrame (host : Host) : Option (Nat × Host) :=
  match host.frames with
  | [] => none
  | frame :: frames => some (frame, { host with frames := frames })

/-- `core::ptr::write_bytes(virt, 0, 4096)` on the frame at `frame`. -/
def zeroFrame (memory : Memory) (frame : Nat) : Memory :=
  fun addr => if frame ≤ addr ∧ addr < frame + 4096 then 0 else memory addr

/-- `*table.add(index) = value` on a table of `u64` entries. -/
def writeEntry (memory : Memory) (table index value : Nat) : Memory :=
  Function.update memory (table + index * 8) value

/-- `IommuPageTable`; `root_virt` is `phys_to_virt(root_phys)`, the root itself here. -/
structure IommuPageTable where
  rootPhys : Nat
  domainId : Nat
  allocatedPages : List Nat
  deriving DecidableEq, Repr

namespace IommuPageTable

/-- `IommuPageTable::new`: a zeroed root table. -/
def new (host : Host) (domainId : Nat) : Option (IommuPageTable × Host) :=
  match allocFrame host with
  | none => none
  | some (phys, host) => some (⟨phys, domainId, [phys]⟩, { host with memory := zeroFrame host.memory phys })

/-- `IommuPageTable::alloc_sl_table`: a zeroed frame, recorded in `allocated_pages`. -/
def allocSlTable (table : IommuPageTable) (host : Host) : Option (Nat × IommuPageTable × Host) :=
  match allocFrame host with
  | none => none
  | some (phys, host) =>
      some (phys, { table with allocatedPages := table.allocatedPages ++ [phys] },
        { host with memory := zeroFrame host.memory phys })

/-- One level of `map_page`: the table below entry `index` of the table at `parent`, which is a
new zeroed table, with the entry set to `p | IOPTE_R | IOPTE_W`, when the entry has no
`IOPTE_R`; `none` where `alloc_sl_table` fails and `?` returns. -/
def descend (table : IommuPageTable) (host : Host) (parent index : Nat) :
    Option (Nat × IommuPageTable × Host) :=
  let entry := readEntry host.memory parent index
  if entry &&& iopteR = 0 then
    match table.allocSlTable host with
    | none => none
    | some (next, table, host) =>
        some (next, table, { host with memory := writeEntry host.memory parent index (next ||| iopteR ||| iopteW) })
  else some (iopteAddr entry, table, host)

/-- `IommuPageTable::map_page`.  On `Err` the levels already built stay. -/
def mapPage (table : IommuPageTable) (host : Host) (iova phys : Nat) :
    Except Unit Unit × IommuPageTable × Host :=
  if iova &&& 0xFFF ≠ 0 ∨ phys &&& 0xFFF ≠ 0 ∨ iova >>> 39 ≠ 0 then (.error (), table, host)
  else
    match table.descend host table.rootPhys (tableIndex iova 30) with
    | none => (.error (), table, host)
    | some (sl1, table, host) =>
        match table.descend host sl1 (tableIndex iova 21) with
        | none => (.error (), table, host)
        | some (sl0, table, host) =>
            (.ok (), table,
              { host with memory := writeEntry host.memory sl0 (tableIndex iova 12) (phys ||| iopteR ||| iopteW) })

/-- `IommuPageTable::unmap_page`. -/
def unmapPage (table : IommuPageTable) (host : Host) (iova : Nat) : Host :=
  if iova &&& 0xFFF ≠ 0 ∨ iova >>> 39 ≠ 0 then host
  else
    let sl2Entry := readEntry host.memory table.rootPhys (tableIndex iova 30)
    if sl2Entry &&& iopteR = 0 then host
    else
      let sl1Entry := readEntry host.memory (iopteAddr sl2Entry) (tableIndex iova 21)
      if sl1Entry &&& iopteR = 0 then host
      else { host with memory := writeEntry host.memory (iopteAddr sl1Entry) (tableIndex iova 12) 0 }

end IommuPageTable

/-! ## What the tables mean -/

/-- The frame an entry points to, when its `IOPTE_R` bit is set. -/
def decodeEntry (entry : Nat) : Option Nat := if entry &&& iopteR = 0 then none else some (iopteAddr entry)

/-- The table or page below entry `index` of the table at `table`. -/
def child (memory : Memory) (table index : Nat) : Option Nat := decodeEntry (readEntry memory table index)

/-- The table reached from `root` along a path of entry indices. -/
def tableAt (memory : Memory) (root : Nat) (path : List Nat) : Option Nat := path.foldlM (child memory) root

/-- The entry indices of the three levels for `iova`. -/
def pagePath (iova : Nat) : List Nat := [tableIndex iova 30, tableIndex iova 21, tableIndex iova 12]

/-- The frame the tables at `root` map the page of `iova` to; `none` is a fault. -/
def translate (memory : Memory) (root iova : Nat) : Option Nat := tableAt memory root (pagePath iova)

/-- A frame an entry can name: a page of physical memory below `2 ^ 52`. -/
def Frame (frame : Nat) : Prop := frame % 4096 = 0 ∧ frame < 2 ^ 52

/-! ## Entries -/

theorem decodeEntry_zero : decodeEntry 0 = none := rfl

/-- A frame has no bit below bit 12. -/
theorem Frame.testBit_low {frame bit : Nat} (framed : Frame frame) (below : bit < 12) : frame.testBit bit = false := by
  have := Nat.testBit_mod_two_pow frame 12 bit
  rw [show frame % 2 ^ 12 = 0 from framed.1, Nat.zero_testBit] at this
  simpa [below] using this.symm

/-- A frame has no bit from bit 52 on. -/
theorem Frame.testBit_high {frame bit : Nat} (framed : Frame frame) (above : 52 ≤ bit) : frame.testBit bit = false :=
  Nat.testBit_lt_two_pow (lt_of_lt_of_le framed.2 (Nat.pow_le_pow_right (by decide) above))

/-- An entry set to `frame | IOPTE_R | IOPTE_W` points to `frame`. -/
theorem decodeEntry_or {frame : Nat} (framed : Frame frame) :
    decodeEntry (frame ||| iopteR ||| iopteW) = some frame := by
  have present : (frame ||| iopteR ||| iopteW) &&& iopteR ≠ 0 := by
    intro cleared
    have := congrArg (fun entry => entry.testBit 0) cleared
    simp [iopteR, iopteW] at this
  unfold decodeEntry
  rw [if_neg present, Option.some.injEq]
  apply Nat.eq_of_testBit_eq
  intro bit
  rw [iopteAddr, iopteAddrMask, show (0x000FFFFFFFFFF000 : Nat) = (2 ^ 40 - 1) <<< 12 by decide]
  simp only [Nat.testBit_and, Nat.testBit_or, Nat.testBit_shiftLeft, Nat.testBit_two_pow_sub_one, iopteR, iopteW]
  -- below bit 12 the mask is clear and the frame is zero; from bit 52 on both are zero
  by_cases below : bit < 12
  · simp [below, framed.testBit_low below]
  by_cases above : 52 ≤ bit
  · simp [framed.testBit_high above, show ¬bit - 12 < 40 by omega]
  · -- bits 0 and 1 are the flags
    have one : Nat.testBit 1 bit = false := Nat.testBit_lt_two_pow (Nat.one_lt_two_pow (by omega))
    have two : Nat.testBit 1 (bit - 1) = false := Nat.testBit_lt_two_pow (Nat.one_lt_two_pow (by omega))
    simp [one, two, show 12 ≤ bit by omega, show bit - 12 < 40 by omega]

theorem and_fff_eq_zero_iff (value : Nat) : value &&& 0xFFF = 0 ↔ value % 4096 = 0 := by
  rw [show (0xFFF : Nat) = 2 ^ 12 - 1 from rfl, Nat.and_two_pow_sub_one_eq_mod]

theorem shiftRight_39_eq_zero_iff (iova : Nat) : iova >>> 39 = 0 ↔ iova < 2 ^ 39 := by
  rw [Nat.shiftRight_eq_div_pow, Nat.div_eq_zero_iff_lt (Nat.two_pow_pos 39)]

/-- The arguments `map_page` turns away, as numbers. -/
theorem mapPage_rejects_iff (iova phys : Nat) :
    (iova &&& 0xFFF ≠ 0 ∨ phys &&& 0xFFF ≠ 0 ∨ iova >>> 39 ≠ 0) ↔
      ¬(iova % 4096 = 0 ∧ phys % 4096 = 0 ∧ iova < 2 ^ 39) := by
  rw [← and_fff_eq_zero_iff, ← and_fff_eq_zero_iff, ← shiftRight_39_eq_zero_iff]
  tauto

/-! ## Addresses of entries -/

/-- Entries of two frames sit at the same address only when they are one entry of one frame. -/
theorem entry_addr_eq_iff {table other index index' : Nat} (page : table % 4096 = 0)
    (page' : other % 4096 = 0) (inside : index < 512) (inside' : index' < 512) :
    other + index' * 8 = table + index * 8 ↔ other = table ∧ index' = index := by
  constructor
  · intro same
    omega
  · rintro ⟨rfl, rfl⟩
    rfl

theorem readEntry_writeEntry {memory : Memory} {table other index index' value : Nat} (page : table % 4096 = 0)
    (page' : other % 4096 = 0) (inside : index < 512) (inside' : index' < 512) :
    readEntry (writeEntry memory table index value) other index' =
      if other = table ∧ index' = index then value else readEntry memory other index' := by
  unfold readEntry writeEntry
  rw [Function.update_apply]
  exact if_congr (entry_addr_eq_iff page page' inside inside') rfl rfl

theorem child_writeEntry {memory : Memory} {table other index index' value : Nat} (page : table % 4096 = 0)
    (page' : other % 4096 = 0) (inside : index < 512) (inside' : index' < 512) :
    child (writeEntry memory table index value) other index' =
      if other = table ∧ index' = index then decodeEntry value else child memory other index' := by
  rw [child, readEntry_writeEntry page page' inside inside']
  split_ifs <;> rfl

/-- A zeroed frame has no present entry, and zeroing leaves the entries of other frames. -/
theorem child_zeroFrame {memory : Memory} {frame other index : Nat} (page : frame % 4096 = 0)
    (page' : other % 4096 = 0) (inside : index < 512) :
    child (zeroFrame memory frame) other index = if other = frame then none else child memory other index := by
  unfold child readEntry zeroFrame
  by_cases same : other = frame
  · rw [if_pos same, if_pos (by omega)]
    rfl
  · rw [if_neg same, if_neg (by omega)]

/-! ## The tree of tables -/

theorem tableAt_append (memory : Memory) (root : Nat) (path rest : List Nat) :
    tableAt memory root (path ++ rest) = (tableAt memory root path).bind fun table => rest.foldlM (child memory) table := by
  unfold tableAt
  rw [List.foldlM_append]
  rfl

theorem tableAt_append_singleton (memory : Memory) (root : Nat) (path : List Nat) (index : Nat) :
    tableAt memory root (path ++ [index]) = (tableAt memory root path).bind fun table => child memory table index := by
  rw [tableAt_append]
  cases tableAt memory root path with
  | none => rfl
  | some table =>
      show (child memory table index).bind pure = child memory table index
      cases child memory table index <;> rfl

/-- No path goes on below a missing entry. -/
theorem tableAt_append_of_none {memory : Memory} {root : Nat} {path : List Nat} (missing : tableAt memory root path = none)
    (rest : List Nat) : tableAt memory root (path ++ rest) = none := by
  rw [tableAt_append, missing]
  rfl

/-- A path from the root to a table: at most two entry indices. -/
def TablePath (path : List Nat) : Prop := path.length ≤ 2 ∧ ∀ index ∈ path, index < 512

/-- A path the walk can take: at most three entry indices. -/
def WalkPath (path : List Nat) : Prop := path.length ≤ 3 ∧ ∀ index ∈ path, index < 512

theorem TablePath.walk {path : List Nat} (table : TablePath path) : WalkPath path :=
  ⟨by have := table.1; omega, table.2⟩

/-- A path to a table below the root goes through a table one level up. -/
theorem TablePath.prefix {path : List Nat} {index : Nat} (table : TablePath (path ++ [index])) :
    TablePath path ∧ index < 512 := by
  obtain ⟨short, bounded⟩ := table
  rw [List.length_append, List.length_singleton] at short
  exact ⟨⟨by omega, fun other member => bounded other (List.mem_append_left _ member)⟩,
    bounded index (List.mem_append_right _ (List.mem_singleton_self index))⟩

theorem WalkPath.prefix {path : List Nat} {index : Nat} (walk : WalkPath (path ++ [index])) :
    TablePath path ∧ index < 512 := by
  obtain ⟨short, bounded⟩ := walk
  rw [List.length_append, List.length_singleton] at short
  exact ⟨⟨by omega, fun other member => bounded other (List.mem_append_left _ member)⟩,
    bounded index (List.mem_append_right _ (List.mem_singleton_self index))⟩

theorem pagePath_walk (iova : Nat) : WalkPath (pagePath iova) := by
  refine ⟨by simp [pagePath], ?_⟩
  simp only [pagePath, List.mem_cons, List.not_mem_nil, or_false]
  rintro index (rfl | rfl | rfl) <;> exact Paging.tableIndex_lt _ _

/-- The tables from `root` form a tree inside `used`: each is a frame of `used`, reached along one
path only. -/
structure Tree (memory : Memory) (root : Nat) (used : List Nat) : Prop where
  frames : ∀ frame ∈ used, Frame frame
  inside : ∀ path, TablePath path → ∀ table, tableAt memory root path = some table → table ∈ used
  unique : ∀ path path', TablePath path → TablePath path' → ∀ table,
    tableAt memory root path = some table → tableAt memory root path' = some table → path = path'

/-- The tree of tables is what the walks see: memory that walks alike keeps it. -/
theorem Tree.of_tableAt_eq {memory memory' : Memory} {root : Nat} {used : List Nat} (tree : Tree memory root used)
    (same : ∀ path, TablePath path → tableAt memory' root path = tableAt memory root path) : Tree memory' root used where
  frames := tree.frames
  inside path table frame reached := by
    rw [same path table] at reached
    exact tree.inside path table frame reached
  unique path path' table table' frame reached reached' := by
    rw [same path table] at reached
    rw [same path' table'] at reached'
    exact tree.unique path path' table table' frame reached reached'

/-- The walk reads entries of the tables of the tree only: memory that agrees on their frames walks
the same way. -/
theorem Tree.tableAt_congr {memory memory' : Memory} {root : Nat} {used : List Nat} (tree : Tree memory root used)
    (agree : ∀ frame ∈ used, ∀ addr, frame ≤ addr → addr < frame + 4096 → memory' addr = memory addr) :
    ∀ path, WalkPath path → tableAt memory' root path = tableAt memory root path := by
  intro path
  induction path using List.reverseRecOn with
  | nil => intro _; rfl
  | append_singleton path index inductionHypothesis =>
      intro walk
      obtain ⟨table, below⟩ := walk.prefix
      rw [tableAt_append_singleton, tableAt_append_singleton,
        inductionHypothesis ⟨by have := table.1; omega, table.2⟩]
      cases reached : tableAt memory root path with
      | none => rfl
      | some frame =>
          have member := tree.inside path table frame reached
          have page := (tree.frames frame member).1
          simp only [Option.bind_some, child, readEntry]
          rw [agree frame member _ (by omega) (by omega)]

/-- Writing an entry of a table of the tree changes no walk that does not pass through that entry. -/
theorem Tree.tableAt_writeEntry {memory : Memory} {root : Nat} {used : List Nat} (tree : Tree memory root used)
    {path : List Nat} (table : TablePath path) {parent index value : Nat} (reached : tableAt memory root path = some parent)
    (below : index < 512) :
    ∀ other, WalkPath other → ¬(path ++ [index]) <+: other →
      tableAt (writeEntry memory parent index value) root other = tableAt memory root other := by
  have parentPage := (tree.frames parent (tree.inside path table parent reached)).1
  intro other
  induction other using List.reverseRecOn with
  | nil => intro _ _; rfl
  | append_singleton other index' inductionHypothesis =>
      intro walk off
      obtain ⟨table', below'⟩ := walk.prefix
      have offPrefix : ¬(path ++ [index]) <+: other := fun prefix_ => off (prefix_.trans (List.prefix_append _ _))
      rw [tableAt_append_singleton, tableAt_append_singleton,
        inductionHypothesis ⟨by have := table'.1; omega, table'.2⟩ offPrefix]
      cases reached' : tableAt memory root other with
      | none => rfl
      | some frame =>
          have page := (tree.frames frame (tree.inside other table' frame reached')).1
          simp only [Option.bind_some]
          rw [child_writeEntry parentPage page below below']
          -- the written entry is on the walk only when the walk comes through the parent
          rw [if_neg]
          rintro ⟨rfl, rfl⟩
          exact off (by rw [tree.unique other path table' table frame reached' reached])

/-- Writing an entry of a table of the tree: the walk through it ends where the entry points. -/
theorem Tree.tableAt_writeEntry_self {memory : Memory} {root : Nat} {used : List Nat} (tree : Tree memory root used)
    {path : List Nat} (table : TablePath path) {parent index value : Nat} (reached : tableAt memory root path = some parent)
    (below : index < 512) : tableAt (writeEntry memory parent index value) root (path ++ [index]) = decodeEntry value := by
  have parentPage := (tree.frames parent (tree.inside path table parent reached)).1
  rw [tableAt_append_singleton, tree.tableAt_writeEntry table reached below path ⟨by have := table.1; omega, table.2⟩
    (fun prefix_ => by have := prefix_.length_le; simp at this), reached, Option.bind_some,
    child_writeEntry parentPage parentPage below below, if_pos ⟨rfl, rfl⟩]

/-- Two different frames share no byte. -/
theorem not_inside_of_ne {frame other addr : Nat} (page : frame % 4096 = 0) (page' : other % 4096 = 0)
    (distinct : other ≠ frame) (inside : other ≤ addr ∧ addr < other + 4096) : ¬(frame ≤ addr ∧ addr < frame + 4096) := by
  omega

/-- Pointing an empty entry of a table of the tree to a fresh zeroed frame grows the tree by that
frame and adds one walk; a walk further down from it ends at once. -/
theorem Tree.descend_fresh {memory : Memory} {root : Nat} {used : List Nat} (tree : Tree memory root used)
    {path : List Nat} {parent index next : Nat} (pathOk : TablePath (path ++ [index]))
    (reached : tableAt memory root path = some parent) (absent : child memory parent index = none)
    (framed : Frame next) (unused : next ∉ used) :
    Tree (writeEntry (zeroFrame memory next) parent index (next ||| iopteR ||| iopteW)) root (used ++ [next]) ∧
    ∀ other, WalkPath other →
      tableAt (writeEntry (zeroFrame memory next) parent index (next ||| iopteR ||| iopteW)) root other =
        if other = path ++ [index] then some next else tableAt memory root other := by
  obtain ⟨table, below⟩ := pathOk.prefix
  have parentUsed := tree.inside path table parent reached
  have distinct : parent ≠ next := fun same => unused (same ▸ parentUsed)
  -- zeroing the fresh frame leaves every table of the tree, hence every walk
  have zeroed : ∀ other, WalkPath other → tableAt (zeroFrame memory next) root other = tableAt memory root other :=
    tree.tableAt_congr fun frame member addr low high => by
      have apart := not_inside_of_ne framed.1 (tree.frames frame member).1
        (fun same => unused (same ▸ member)) ⟨low, high⟩
      simp only [zeroFrame, if_neg apart]
  have tree0 := tree.of_tableAt_eq fun other table' => zeroed other table'.walk
  have reached0 : tableAt (zeroFrame memory next) root path = some parent := (zeroed path table.walk).trans reached
  have walks : ∀ other, WalkPath other →
      tableAt (writeEntry (zeroFrame memory next) parent index (next ||| iopteR ||| iopteW)) root other =
        if other = path ++ [index] then some next else tableAt memory root other := by
    intro other walk
    by_cases through : (path ++ [index]) <+: other
    · obtain ⟨rest, rfl⟩ := through
      cases rest with
      | nil =>
          rw [List.append_nil, if_pos rfl, tree0.tableAt_writeEntry_self table reached0 below, decodeEntry_or framed]
      | cons step rest =>
          -- below the new table every entry is zero, and before the write the walk stopped at the entry
          have stepBelow : step < 512 := walk.2 step (by simp)
          have deeper : tableAt (writeEntry (zeroFrame memory next) parent index (next ||| iopteR ||| iopteW)) root
              (path ++ [index] ++ [step]) = none := by
            rw [tableAt_append_singleton, tree0.tableAt_writeEntry_self table reached0 below, decodeEntry_or framed,
              Option.bind_some, child_writeEntry (tree.frames parent parentUsed).1 framed.1 below stepBelow,
              if_neg (fun same => distinct same.1.symm), child_zeroFrame framed.1 framed.1 stepBelow, if_pos rfl]
          have before : tableAt memory root (path ++ [index]) = none := by
            rw [tableAt_append_singleton, reached, Option.bind_some, absent]
          rw [if_neg (by simp), show path ++ [index] ++ step :: rest = path ++ [index] ++ [step] ++ rest by simp,
            tableAt_append_of_none deeper, List.append_assoc, tableAt_append_of_none before]
    · rw [tree0.tableAt_writeEntry table reached0 below other walk through, zeroed other walk,
        if_neg (fun (same : other = path ++ [index]) => through (same ▸ List.prefix_refl _))]
  refine ⟨⟨?frames, ?inside, ?unique⟩, walks⟩
  case frames =>
    intro frame member
    rcases List.mem_append.mp member with old | new
    · exact tree.frames frame old
    · exact (List.mem_singleton.mp new) ▸ framed
  case inside =>
    intro other table' frame reachedNew
    rw [walks other table'.walk] at reachedNew
    split_ifs at reachedNew with added
    · exact List.mem_append_right _ (List.mem_singleton.mpr (Option.some.inj reachedNew).symm)
    · exact List.mem_append_left _ (tree.inside other table' frame reachedNew)
  case unique =>
    intro first second tableFirst tableSecond frame reachedFirst reachedSecond
    rw [walks first tableFirst.walk] at reachedFirst
    rw [walks second tableSecond.walk] at reachedSecond
    -- the new frame is reached along the new walk only, an old frame along its old walk only
    split_ifs at reachedFirst reachedSecond with addedFirst addedSecond addedSecond
    · rw [addedFirst, addedSecond]
    · cases reachedFirst
      exact absurd (tree.inside second tableSecond _ reachedSecond) unused
    · cases reachedSecond
      exact absurd (tree.inside first tableFirst _ reachedFirst) unused
    · exact tree.unique first second tableFirst tableSecond frame reachedFirst reachedSecond

/-! ## Fresh frames and what a change may touch -/

/-- Frames `alloc_frame` may return: pages below `2 ^ 52`, each once, none in use. -/
structure Fresh (frames used : List Nat) : Prop where
  nodup : frames.Nodup
  framed : ∀ frame ∈ frames, Frame frame
  unused : ∀ frame ∈ frames, frame ∉ used

/-- Frames taken from the front of the fresh ones are in use from then on. -/
theorem Fresh.drop {taken rest used : List Nat} (fresh : Fresh (taken ++ rest) used) : Fresh rest (used ++ taken) where
  nodup := (List.nodup_append.mp fresh.nodup).2.1
  framed frame member := fresh.framed frame (List.mem_append_right _ member)
  unused frame member := by
    rw [List.mem_append, not_or]
    exact ⟨fresh.unused frame (List.mem_append_right _ member),
      fun early => (List.nodup_append.mp fresh.nodup).2.2 frame early frame member rfl⟩

/-- Fresh for more frames in use is fresh for fewer. -/
theorem Fresh.mono {frames used used' : List Nat} (fresh : Fresh frames used) (fewer : ∀ frame ∈ used', frame ∈ used) :
    Fresh frames used' :=
  ⟨fresh.nodup, fresh.framed, fun frame member held => fresh.unused frame member (fewer frame held)⟩

/-- What a change of the tables may do: keep the root and the domain, take frames from the front
of the host's and record them in `allocated_pages`, and write inside recorded frames only. -/
structure Grows (table : IommuPageTable) (host : Host) (table' : IommuPageTable) (host' : Host) : Prop where
  rootPhys : table'.rootPhys = table.rootPhys
  domainId : table'.domainId = table.domainId
  taken : ∃ taken, host.frames = taken ++ host'.frames ∧ table'.allocatedPages = table.allocatedPages ++ taken
  outside : ∀ addr, (∀ frame ∈ table'.allocatedPages, ¬(frame ≤ addr ∧ addr < frame + 4096)) →
    host'.memory addr = host.memory addr

section Grows

variable {table table' table'' : IommuPageTable} {host host' host'' : Host}

theorem Grows.refl (table : IommuPageTable) (host : Host) : Grows table host table host :=
  ⟨rfl, rfl, ⟨[], rfl, (List.append_nil _).symm⟩, fun _ _ => rfl⟩

theorem Grows.trans (first : Grows table host table' host') (second : Grows table' host' table'' host'') :
    Grows table host table'' host'' where
  rootPhys := second.rootPhys.trans first.rootPhys
  domainId := second.domainId.trans first.domainId
  taken := by
    obtain ⟨early, split, grown⟩ := first.taken
    obtain ⟨late, split', grown'⟩ := second.taken
    exact ⟨early ++ late, by rw [split, split', List.append_assoc], by rw [grown', grown, List.append_assoc]⟩
  outside addr away := by
    obtain ⟨late, _, grown'⟩ := second.taken
    rw [second.outside addr away]
    exact first.outside addr fun frame member => away frame (grown' ▸ List.mem_append_left _ member)

/-- Frames fresh for the tables and for other holders of frames stay fresh for both. -/
theorem Grows.fresh (others : List Nat) (grows : Grows table host table' host')
    (fresh : Fresh host.frames (others ++ table.allocatedPages)) : Fresh host'.frames (others ++ table'.allocatedPages) := by
  obtain ⟨taken, split, grown⟩ := grows.taken
  rw [split] at fresh
  rw [grown, ← List.append_assoc]
  exact fresh.drop

/-- An entry write into a recorded frame is a change the tables may make. -/
theorem Grows.writeEntry (grows : Grows table host table' host') {parent index value : Nat}
    (recorded : parent ∈ table'.allocatedPages) (below : index < 512) :
    Grows table host table' { host' with memory := writeEntry host'.memory parent index value } where
  rootPhys := grows.rootPhys
  domainId := grows.domainId
  taken := grows.taken
  outside addr away := by
    have apart : addr ≠ parent + index * 8 := fun same => away parent recorded (by omega)
    exact (Function.update_of_ne apart _ _).trans (grows.outside addr away)

end Grows

/-! ## Writes to the last level -/

/-- A write to an entry of a last-level table: the tables stay a tree, and the one translation that
changes is that of the pages whose walk ends at the entry, to what the written value names. -/
theorem Tree.writeLeaf {memory : Memory} {root : Nat} {used : List Nat} (tree : Tree memory root used)
    (value : Nat) {iova parent : Nat} (reached : tableAt memory root [tableIndex iova 30, tableIndex iova 21] = some parent) :
    Tree (writeEntry memory parent (tableIndex iova 12) value) root used ∧
      ∀ other, translate (writeEntry memory parent (tableIndex iova 12) value) root other =
        if pagePath other = pagePath iova then decodeEntry value else translate memory root other := by
  have below := Paging.tableIndex_lt iova 12
  have upper : TablePath [tableIndex iova 30, tableIndex iova 21] :=
    ⟨by simp, by simp [Paging.tableIndex_lt]⟩
  have leafWalks : ∀ other, WalkPath other → ¬pagePath iova <+: other →
      tableAt (writeEntry memory parent (tableIndex iova 12) value) root other = tableAt memory root other :=
    tree.tableAt_writeEntry upper reached below
  refine ⟨tree.of_tableAt_eq fun other table' => leafWalks other table'.walk fun through => ?_, fun other => ?_⟩
  · -- a table sits above the leaves: its walk is shorter than a page's
    have := through.length_le
    have := table'.1
    simp [pagePath] at *
    omega
  · by_cases samePage : pagePath other = pagePath iova
    · rw [if_pos samePage, translate, samePage]
      exact tree.tableAt_writeEntry_self upper reached below
    · rw [if_neg samePage, translate, translate, leafWalks _ (pagePath_walk other)
        (fun through => samePage (through.eq_of_length (by simp [pagePath])).symm)]

/-! ## One level of `map_page` -/

namespace IommuPageTable

variable {table table' : IommuPageTable} {host host' : Host}

/-- One level of `map_page`: the entry at `index` of the table at the end of `path` leads to
`next` afterwards, and no other walk changes; the tables stay a tree. -/
theorem descend_spec {path : List Nat} {parent index next : Nat}
    (tree : Tree host.memory table.rootPhys table.allocatedPages) (fresh : Fresh host.frames table.allocatedPages)
    (pathOk : TablePath (path ++ [index])) (reached : tableAt host.memory table.rootPhys path = some parent)
    (descended : table.descend host parent index = some (next, table', host')) :
    Grows table host table' host' ∧ Tree host'.memory table.rootPhys table'.allocatedPages ∧
      ∀ other, WalkPath other → tableAt host'.memory table.rootPhys other =
        if other = path ++ [index] then some next else tableAt host.memory table.rootPhys other := by
  have parentUsed := tree.inside path pathOk.prefix.1 parent reached
  unfold descend at descended
  dsimp only at descended
  split_ifs at descended with missing
  · -- no `IOPTE_R`: the entry now leads to a zeroed frame from the front of the host's
    cases frames : host.frames with
    | nil => simp [allocSlTable, allocFrame, frames] at descended
    | cons frame rest =>
        simp only [allocSlTable, allocFrame, frames, Option.some.injEq, Prod.mk.injEq] at descended
        obtain ⟨rfl, rfl, rfl⟩ := descended
        have absent : child host.memory parent index = none := by
          rw [child, decodeEntry, if_pos missing]
        have taken : frame ∈ host.frames := frames ▸ List.mem_cons_self
        obtain ⟨tree', walks⟩ := tree.descend_fresh pathOk reached absent (fresh.framed frame taken)
          (fresh.unused frame taken)
        refine ⟨⟨rfl, rfl, ⟨[frame], frames, rfl⟩, ?_⟩, tree', walks⟩
        intro addr away
        have zero := away frame (List.mem_append_right _ (List.mem_singleton_self frame))
        have apart : addr ≠ parent + index * 8 := fun same =>
          away parent (List.mem_append_left _ parentUsed) (by have := pathOk.prefix.2; omega)
        show writeEntry (zeroFrame host.memory frame) parent index _ addr = host.memory addr
        rw [writeEntry, Function.update_of_ne apart, zeroFrame, if_neg zero]
  · -- `IOPTE_R` set: the walk goes on through the table the entry names
    simp only [Option.some.injEq, Prod.mk.injEq] at descended
    obtain ⟨rfl, rfl, rfl⟩ := descended
    refine ⟨Grows.refl _ _, tree, fun other _ => ?_⟩
    split_ifs with through
    · rw [through, tableAt_append_singleton, reached, Option.bind_some, child, decodeEntry, if_neg missing]
    · rfl

/-- A change that adds one walk, shorter than the walk to a page, leaves every translation. -/
theorem translate_of_walks {memory memory' : Memory} {root : Nat} {path : List Nat} {index next : Nat}
    (short : TablePath (path ++ [index]))
    (walks : ∀ other, WalkPath other → tableAt memory' root other =
      if other = path ++ [index] then some next else tableAt memory root other) (iova : Nat) :
    translate memory' root iova = translate memory root iova := by
  rw [translate, walks _ (pagePath_walk iova), if_neg]
  · rfl
  intro same
  have := congrArg List.length same
  have := short.1
  simp [pagePath] at *
  omega

/-- `map_page` as a change of the tables: it keeps the tree, and the only translation it changes
is that of the page of `iova`, which on success is `phys`. -/
theorem mapPage_spec {iova phys : Nat} {result : Except Unit Unit}
    (tree : Tree host.memory table.rootPhys table.allocatedPages) (fresh : Fresh host.frames table.allocatedPages)
    (physBelow : phys < 2 ^ 52) (mapped : table.mapPage host iova phys = (result, table', host')) :
    Grows table host table' host' ∧ Tree host'.memory table.rootPhys table'.allocatedPages ∧
      (result = .ok () → iova % 4096 = 0 ∧ phys % 4096 = 0 ∧ iova < 2 ^ 39) ∧
      ∀ other, translate host'.memory table.rootPhys other =
        if result = .ok () ∧ pagePath other = pagePath iova then some phys
        else translate host.memory table.rootPhys other := by
  -- every early return hands back the tables it has, with the result `Err`
  have unchanged : ∀ {table'' : IommuPageTable} {host'' : Host}, Grows table host table'' host'' →
      Tree host''.memory table.rootPhys table''.allocatedPages →
      (∀ other, translate host''.memory table.rootPhys other = translate host.memory table.rootPhys other) →
      ((Except.error () : Except Unit Unit), table'', host'') = (result, table', host') →
      Grows table host table' host' ∧ Tree host'.memory table.rootPhys table'.allocatedPages ∧
        (result = .ok () → iova % 4096 = 0 ∧ phys % 4096 = 0 ∧ iova < 2 ^ 39) ∧
        ∀ other, translate host'.memory table.rootPhys other =
          if result = .ok () ∧ pagePath other = pagePath iova then some phys
          else translate host.memory table.rootPhys other := by
    intro table'' host'' grows tree'' same returned
    simp only [Prod.mk.injEq] at returned
    obtain ⟨rfl, rfl, rfl⟩ := returned
    refine ⟨grows, tree'', fun failed => ?_, fun other => ?_⟩
    · cases failed
    · rw [if_neg (fun failed => by cases failed.1)]
      exact same other
  unfold mapPage at mapped
  split_ifs at mapped with rejected
  · exact unchanged (Grows.refl _ _) tree (fun _ => rfl) mapped
  have accepted := (not_congr (mapPage_rejects_iff iova phys)).mp rejected
  rw [not_not] at accepted
  have below2 := Paging.tableIndex_lt iova 30
  have below1 := Paging.tableIndex_lt iova 21
  have below0 := Paging.tableIndex_lt iova 12
  cases first : table.descend host table.rootPhys (tableIndex iova 30) with
  | none =>
      rw [first] at mapped
      exact unchanged (Grows.refl _ _) tree (fun _ => rfl) mapped
  | some level1 =>
  obtain ⟨sl1, table1, host1⟩ := level1
  simp only [first] at mapped
  have firstPath : TablePath ([] ++ [tableIndex iova 30]) := ⟨by simp, by simp [below2]⟩
  obtain ⟨grows1, tree1, walks1⟩ := descend_spec tree fresh firstPath rfl first
  have root1 : table1.rootPhys = table.rootPhys := grows1.rootPhys
  cases second : table1.descend host1 sl1 (tableIndex iova 21) with
  | none =>
      simp only [second] at mapped
      exact unchanged grows1 tree1 (translate_of_walks firstPath walks1) mapped
  | some level0 =>
  obtain ⟨sl0, table2, host2⟩ := level0
  simp only [second, Prod.mk.injEq] at mapped
  obtain ⟨rfl, rfl, rfl⟩ := mapped
  have secondPath : TablePath ([tableIndex iova 30] ++ [tableIndex iova 21]) := ⟨by simp, by simp [below2, below1]⟩
  have reached1 : tableAt host1.memory table1.rootPhys [tableIndex iova 30] = some sl1 := by
    rw [root1, show [tableIndex iova 30] = [] ++ [tableIndex iova 30] from rfl, walks1 _ firstPath.walk, if_pos rfl]
  obtain ⟨grows2, tree2, walks2⟩ := descend_spec (root1 ▸ tree1) (grows1.fresh [] fresh) secondPath reached1 second
  rw [root1] at tree2 walks2
  have reached2 : tableAt host2.memory table.rootPhys [tableIndex iova 30, tableIndex iova 21] = some sl0 := by
    rw [show [tableIndex iova 30, tableIndex iova 21] = [tableIndex iova 30] ++ [tableIndex iova 21] from rfl,
      walks2 _ secondPath.walk, if_pos rfl]
  obtain ⟨tree3, leaf⟩ := tree2.writeLeaf (phys ||| iopteR ||| iopteW) reached2
  refine ⟨(grows1.trans grows2).writeEntry (tree2.inside _ secondPath sl0 reached2) below0, tree3,
    fun _ => accepted, fun other => ?_⟩
  rw [leaf other, decodeEntry_or ⟨accepted.2.1, physBelow⟩]
  -- the two levels above only added tables, which no page's walk sees
  by_cases samePage : pagePath other = pagePath iova
  · rw [if_pos samePage, if_pos ⟨rfl, samePage⟩]
  · rw [if_neg samePage, if_neg (fun ⟨_, same⟩ => samePage same), translate_of_walks secondPath walks2,
      translate_of_walks firstPath walks1]

/-- `unmap_page` as a change of the tables: it keeps the tree and the frames, writes inside the
tables only, and removes the translation of the page of `iova` when `iova` is an aligned IOVA. -/
theorem unmapPage_spec (iova : Nat) (tree : Tree host.memory table.rootPhys table.allocatedPages) :
    Grows table host table (table.unmapPage host iova) ∧
      Tree (table.unmapPage host iova).memory table.rootPhys table.allocatedPages ∧
      ∀ other, translate (table.unmapPage host iova).memory table.rootPhys other =
        if iova % 4096 = 0 ∧ iova < 2 ^ 39 ∧ pagePath other = pagePath iova then none
        else translate host.memory table.rootPhys other := by
  -- where the walk to the page is missing there is nothing to remove
  have missing : ∀ path, path <+: pagePath iova → tableAt host.memory table.rootPhys path = none →
      ∀ other, translate host.memory table.rootPhys other =
        if iova % 4096 = 0 ∧ iova < 2 ^ 39 ∧ pagePath other = pagePath iova then none
        else translate host.memory table.rootPhys other := by
    intro path above cut other
    split_ifs with removed
    · obtain ⟨rest, split⟩ := above
      rw [translate, removed.2.2, ← split, tableAt_append_of_none cut]
    · rfl
  have root : tableAt host.memory table.rootPhys [] = some table.rootPhys := rfl
  unfold unmapPage
  dsimp only
  split_ifs with rejected noSl2 noSl1
  · refine ⟨Grows.refl _ _, tree, fun other => ?_⟩
    rw [if_neg]
    rw [← and_fff_eq_zero_iff, ← shiftRight_39_eq_zero_iff]
    tauto
  · have cut : tableAt host.memory table.rootPhys [tableIndex iova 30] = none := by
      rw [show [tableIndex iova 30] = [] ++ [tableIndex iova 30] from rfl, tableAt_append_singleton, root,
        Option.bind_some, child, decodeEntry, if_pos noSl2]
    exact ⟨Grows.refl _ _, tree, missing _ ⟨[tableIndex iova 21, tableIndex iova 12], rfl⟩ cut⟩
  · have cut : tableAt host.memory table.rootPhys [tableIndex iova 30, tableIndex iova 21] = none := by
      rw [show [tableIndex iova 30, tableIndex iova 21] = [] ++ [tableIndex iova 30] ++ [tableIndex iova 21] from rfl,
        tableAt_append_singleton, tableAt_append_singleton, root, Option.bind_some, child, decodeEntry, if_neg noSl2,
        Option.bind_some, child, decodeEntry, if_pos noSl1]
    exact ⟨Grows.refl _ _, tree, missing _ ⟨[tableIndex iova 12], rfl⟩ cut⟩
  · -- both upper entries are present: the walk reaches the last-level table, whose entry is cleared
    have reached : tableAt host.memory table.rootPhys [tableIndex iova 30, tableIndex iova 21] =
        some (iopteAddr (readEntry host.memory (iopteAddr (readEntry host.memory table.rootPhys (tableIndex iova 30)))
          (tableIndex iova 21))) := by
      rw [show [tableIndex iova 30, tableIndex iova 21] = [] ++ [tableIndex iova 30] ++ [tableIndex iova 21] from rfl,
        tableAt_append_singleton, tableAt_append_singleton, root, Option.bind_some, child, decodeEntry, if_neg noSl2,
        Option.bind_some, child, decodeEntry, if_neg noSl1]
    have upper : TablePath [tableIndex iova 30, tableIndex iova 21] := ⟨by simp, by simp [Paging.tableIndex_lt]⟩
    obtain ⟨tree', leaf⟩ := tree.writeLeaf 0 reached
    have accepted : iova % 4096 = 0 ∧ iova < 2 ^ 39 := by
      rw [← and_fff_eq_zero_iff, ← shiftRight_39_eq_zero_iff]
      tauto
    refine ⟨(Grows.refl _ _).writeEntry (tree.inside _ upper _ reached) (Paging.tableIndex_lt iova 12), tree',
      fun other => ?_⟩
    rw [leaf other, decodeEntry_zero]
    by_cases samePage : pagePath other = pagePath iova
    · rw [if_pos samePage, if_pos ⟨accepted.1, accepted.2, samePage⟩]
    · rw [if_neg samePage, if_neg (fun removed => samePage removed.2.2)]

end IommuPageTable

/-! ## The tables as a map of pages -/

/-- Two IOVAs of the 39-bit space walk the same path exactly when they lie in one page. -/
theorem pagePath_eq_iff {iova other : Nat} (below : iova < 2 ^ 39) (below' : other < 2 ^ 39) :
    pagePath other = pagePath iova ↔ other / 4096 = iova / 4096 := by
  -- the three indices are the digits of the page number in base 512
  have digits : ∀ value, value < 2 ^ 39 → pagePath value =
      [value / 4096 / 512 / 512, value / 4096 / 512 % 512, value / 4096 % 512] := by
    intro value small
    simp only [pagePath, Paging.tableIndex_eq_div_mod, Nat.div_div_eq_div_mul, List.cons.injEq, and_true]
    refine ⟨?_, rfl, rfl⟩
    exact Nat.mod_eq_of_lt (by omega)
  rw [digits iova below, digits other below']
  simp only [List.cons.injEq, and_true]
  omega

/-- The tables at `root` implement the partial map `pages` from page numbers to frames on the
39-bit IOVA space. -/
def Represents (memory : Memory) (root : Nat) (pages : Nat → Option Nat) : Prop :=
  ∀ iova < 2 ^ 39, translate memory root iova = pages (iova / 4096)

namespace IommuPageTable

variable {table table' : IommuPageTable} {host host' : Host}

/-- `map_page` refines setting one entry of the page map: on success the page of `iova` maps to
`phys`, and on failure the map is as before. -/
theorem mapPage_represents {iova phys : Nat} {result : Except Unit Unit} {pages : Nat → Option Nat}
    (tree : Tree host.memory table.rootPhys table.allocatedPages) (fresh : Fresh host.frames table.allocatedPages)
    (physBelow : phys < 2 ^ 52) (represents : Represents host.memory table.rootPhys pages)
    (mapped : table.mapPage host iova phys = (result, table', host')) :
    Represents host'.memory table'.rootPhys
      (if result = .ok () then Function.update pages (iova / 4096) (some phys) else pages) := by
  obtain ⟨grows, -, accepted, translates⟩ := mapPage_spec tree fresh physBelow mapped
  intro other below
  rw [grows.rootPhys, translates other]
  split_ifs with changed succeeded succeeded
  · rw [(pagePath_eq_iff (accepted succeeded).2.2 below).mp changed.2, Function.update_self]
  · exact absurd changed.1 succeeded
  · rw [Function.update_of_ne (fun same => changed ⟨succeeded, (pagePath_eq_iff (accepted succeeded).2.2 below).mpr same⟩)]
    exact represents other below
  · exact represents other below

/-- `unmap_page` refines erasing one entry of the page map. -/
theorem unmapPage_represents (iova : Nat) {pages : Nat → Option Nat}
    (tree : Tree host.memory table.rootPhys table.allocatedPages) (represents : Represents host.memory table.rootPhys pages) :
    Represents (table.unmapPage host iova).memory table.rootPhys
      (if iova % 4096 = 0 ∧ iova < 2 ^ 39 then Function.update pages (iova / 4096) none else pages) := by
  obtain ⟨-, -, translates⟩ := unmapPage_spec iova tree
  intro other below
  rw [translates other]
  split_ifs with changed accepted accepted
  · rw [(pagePath_eq_iff accepted.2 below).mp changed.2.2, Function.update_self]
  · exact absurd ⟨changed.1, changed.2.1⟩ accepted
  · rw [Function.update_of_ne (fun same => changed ⟨accepted.1, accepted.2, (pagePath_eq_iff accepted.2 below).mpr same⟩)]
    exact represents other below
  · exact represents other below

end IommuPageTable

end Fullerene.Nitrogen.Iommu
