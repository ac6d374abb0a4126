import Mathlib.Data.List.Nodup

/-!
# Address spaces of 4 KiB pages

An address space seen at page granularity: a list of mappings from page
numbers to frames with their flags, the most recent first, over physical
memory that holds a byte at each address.  `translate` finds the mapping of
the page that holds an address and `read` reads through it.

`Owned` is what a frame allocator promises a mapper: the free frames are whole
pages, distinct, and none of them backs a mapped page.  Taking the first free
frame, mapping a page to it and filling it then changes what the space reads
at that page only (`read_map_write_self`, `read_map_write_of_ne`).
-/

namespace PageMap

def pageSize : Nat := 4096

/-- A page number mapped to a frame with its flags. -/
structure Mapping where
  page : Nat
  frame : Nat
  flags : Nat
  deriving DecidableEq, Repr

/-- Physical memory: the byte at each address. -/
abbrev Bytes := Nat → Nat

structure Space where
  mappings : List Mapping
  deriving DecidableEq, Repr

namespace Space

/-- The mapping of the page that holds `vaddr`. -/
def translate (space : Space) (vaddr : Nat) : Option Mapping :=
  space.mappings.find? fun mapping => mapping.page == vaddr / pageSize

/-- Map the page that holds `vaddr` to `frame`. -/
def map (space : Space) (vaddr frame flags : Nat) : Space :=
  ⟨⟨vaddr / pageSize, frame, flags⟩ :: space.mappings⟩

/-- The byte at `vaddr`, read through its mapping. -/
def read (space : Space) (memory : Bytes) (vaddr : Nat) : Option Nat :=
  (space.translate vaddr).map fun mapping => memory (mapping.frame + vaddr % pageSize)

end Space

/-- Write `bytes` to physical memory from address `frame` on. -/
def writeFrame (memory : Bytes) (frame : Nat) (bytes : List Nat) : Bytes :=
  fun addr => if frame ≤ addr ∧ addr < frame + bytes.length then bytes.getD (addr - frame) 0
    else memory addr

/-- The free frames are whole distinct pages, none of them mapped. -/
structure Owned (space : Space) (frames : List Nat) : Prop where
  free_aligned : ∀ frame ∈ frames, frame % pageSize = 0
  mapped_aligned : ∀ mapping ∈ space.mappings, mapping.frame % pageSize = 0
  nodup : frames.Nodup
  disjoint : ∀ mapping ∈ space.mappings, mapping.frame ∉ frames

namespace Space

variable {space : Space} {vaddr frame flags addr : Nat}

theorem translate_map_self (samePage : addr / pageSize = vaddr / pageSize) :
    (space.map vaddr frame flags).translate addr = some ⟨vaddr / pageSize, frame, flags⟩ := by
  simp [translate, map, samePage]

theorem translate_map_of_ne (otherPage : addr / pageSize ≠ vaddr / pageSize) :
    (space.map vaddr frame flags).translate addr = space.translate addr := by
  simp only [translate, map, List.find?_cons]
  rw [show (vaddr / pageSize == addr / pageSize) = false from beq_false_of_ne (Ne.symm otherPage)]

theorem isSome_read_iff (memory : Bytes) : (space.read memory addr).isSome ↔ (space.translate addr).isSome := by
  simp [read]

end Space

theorem writeFrame_of_lt {memory : Bytes} {frame offset : Nat} {bytes : List Nat}
    (inside : offset < bytes.length) : writeFrame memory frame bytes (frame + offset) = bytes.getD offset 0 := by
  simp [writeFrame, inside]

/-- Writing one page-sized frame leaves every other frame of whole pages alone. -/
theorem writeFrame_of_ne {memory : Bytes} {frame other offset : Nat} {bytes : List Nat}
    (fits : bytes.length ≤ pageSize) (frameAligned : frame % pageSize = 0)
    (otherAligned : other % pageSize = 0) (different : other ≠ frame) (inPage : offset < pageSize) :
    writeFrame memory frame bytes (other + offset) = memory (other + offset) := by
  have apart : other + pageSize ≤ frame ∨ frame + pageSize ≤ other := by
    unfold pageSize at *
    omega
  unfold writeFrame
  rw [if_neg (by omega)]

namespace Owned

variable {space : Space} {frame : Nat} {rest : List Nat}

/-- Mapping a page to the first free frame keeps the promise for the rest. -/
theorem map (owned : Owned space (frame :: rest)) (vaddr flags : Nat) :
    Owned (space.map vaddr frame flags) rest where
  free_aligned := fun other member => owned.free_aligned other (List.mem_cons_of_mem _ member)
  mapped_aligned := by
    intro mapping member
    rcases List.mem_cons.mp member with rfl | old
    · exact owned.free_aligned _ List.mem_cons_self
    · exact owned.mapped_aligned mapping old
  nodup := (List.nodup_cons.mp owned.nodup).2
  disjoint := by
    intro mapping member free
    rcases List.mem_cons.mp member with rfl | old
    · exact (List.nodup_cons.mp owned.nodup).1 free
    · exact owned.disjoint mapping old (List.mem_cons_of_mem _ free)

/-- A page read through a mapped frame reads the same after another page is
mapped to the first free frame and that frame is filled. -/
theorem read_map_write_of_ne (owned : Owned space (frame :: rest)) {memory : Bytes}
    {bytes : List Nat} (fits : bytes.length ≤ pageSize) {vaddr flags addr : Nat}
    (mapped : (space.translate addr).isSome) (otherPage : addr / pageSize ≠ vaddr / pageSize) :
    (space.map vaddr frame flags).read (writeFrame memory frame bytes) addr = space.read memory addr := by
  obtain ⟨mapping, found⟩ := Option.isSome_iff_exists.mp mapped
  have member : mapping ∈ space.mappings := List.mem_of_find?_eq_some found
  have different : mapping.frame ≠ frame := fun same =>
    owned.disjoint mapping member (same ▸ List.mem_cons_self)
  have inPage : addr % pageSize < pageSize := Nat.mod_lt _ (by decide)
  rw [Space.read, Space.translate_map_of_ne otherPage, found, Space.read, found]
  simp only [Option.map_some]
  rw [writeFrame_of_ne fits (owned.free_aligned frame List.mem_cons_self)
    (owned.mapped_aligned mapping member) different inPage]

end Owned

/-- A page mapped to a frame filled with a whole page reads that page. -/
theorem read_map_write_self {space : Space} {memory : Bytes} {frame : Nat} {bytes : List Nat}
    (whole : bytes.length = pageSize) {vaddr flags addr : Nat}
    (samePage : addr / pageSize = vaddr / pageSize) :
    (space.map vaddr frame flags).read (writeFrame memory frame bytes) addr =
      some (bytes.getD (addr % pageSize) 0) := by
  have inPage : addr % pageSize < bytes.length := by
    rw [whole]
    exact Nat.mod_lt _ (by decide)
  rw [Space.read, Space.translate_map_self samePage, Option.map_some, writeFrame_of_lt inPage]

end PageMap
