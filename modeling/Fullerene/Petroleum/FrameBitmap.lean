import Mathlib.Order.Bounds.Basic
import Mathlib.Data.Set.Card
import Fullerene.Lib.Bitmap
import Fullerene.Petroleum.UserMemory

/-!
# The physical frame bitmap

`BitmapFrameAllocator` keeps one bit per 4 KiB physical frame, packed into
64-bit words: a set bit is a used frame.  `init_with_memory_map` sizes the
bitmap to the end of the highest descriptor, marks every frame used and
frees the frames of the conventional-memory descriptors.  `allocate` (and
`allocate_frame`) scan the words for the first clear bit above frame 0,
`allocate_contiguous_frames` looks above 16 MiB for the first run of free
frames, and `free_frame`/`deallocate` clear one bit.

Read through `is_frame_available`, the allocator is a set of free frames
below `total_frames`, and each operation does to that set what its name
says.  `init_with_memory_map` frees `physical_start / 4096` up to
`(physical_start + pages * 4096) / 4096`, the frames of the descriptor when
it starts on a 4 KiB boundary, as UEFI promises; for a descriptor that does
not, it frees a frame the descriptor only half covers and keeps used the
frame that holds its last bytes.
-/

namespace Fullerene.Petroleum

open Bitmap

/-- The words `new` reserves for `total_frames` bits. -/
def bitmapSize (totalFrames : Nat) : Nat := (totalFrames + 63) / 64

/-- `BitmapFrameAllocator`: the bitmap holds the words `new` reserved, so
every frame below `total_frames` has its bit. -/
structure BitmapFrameAllocator where
  bitmap : List UInt64
  totalFrames : Nat
  sized : bitmap.length = bitmapSize totalFrames

/-- `PhysFrame`, by its start address. -/
structure PhysFrame where
  startAddress : Nat
  deriving DecidableEq, Repr

/-- The `AllocError` the allocator returns. -/
inductive AllocError
  | outOfMemory
  deriving DecidableEq, Repr

/-- What `MemoryDescriptorValidator` gives `init_with_memory_map`. -/
class MemoryDescriptorValidator (T : Type) where
  getType : T → UInt32
  getPhysicalStart : T → UInt64
  getPageCount : T → UInt64

/-- `EfiMemoryType::EfiConventionalMemory as u32`. -/
def efiConventionalMemory : UInt32 := 7

/-- `EfiMemoryType`. -/
inductive EfiMemoryType
  | efiReservedMemoryType
  | efiLoaderCode
  | efiLoaderData
  | efiBootServicesCode
  | efiBootServicesData
  | efiRuntimeServicesCode
  | efiRuntimeServicesData
  | efiConventionalMemory
  | efiMaxMemoryType
  deriving DecidableEq, Repr

/-- `type_ as u32`. -/
def EfiMemoryType.toU32 : EfiMemoryType → UInt32
  | .efiReservedMemoryType => 0
  | .efiLoaderCode => 1
  | .efiLoaderData => 2
  | .efiBootServicesCode => 3
  | .efiBootServicesData => 4
  | .efiRuntimeServicesCode => 5
  | .efiRuntimeServicesData => 6
  | .efiConventionalMemory => 7
  | .efiMaxMemoryType => 15

/-- `EfiMemoryDescriptor`, with the fields `init_with_memory_map` reads. -/
structure EfiMemoryDescriptor where
  type_ : EfiMemoryType
  physicalStart : UInt64
  numberOfPages : UInt64
  deriving DecidableEq, Repr

instance : MemoryDescriptorValidator EfiMemoryDescriptor where
  getType desc := desc.type_.toU32
  getPhysicalStart desc := desc.physicalStart
  getPageCount desc := desc.numberOfPages

/-- `LOW_MEM_SKIP_FRAMES`: 16 MiB of 4 KiB frames. -/
def lowMemSkipFrames : Nat := 16 * 1024 * 1024 / 4096

/-- `LOW_MEMORY_LIMIT`: 1 MiB of 4 KiB frames. -/
def lowMemoryLimit : Nat := 1024 * 1024 / 4096

namespace BitmapFrameAllocator

theorem index_lt (s : BitmapFrameAllocator) {frame : Nat} (below : frame < s.totalFrames) :
    frame / 64 < s.bitmap.length := by
  rw [s.sized, bitmapSize]
  omega

def isFrameAvailable (s : BitmapFrameAllocator) (frame : Nat) : Bool :=
  if below : frame < s.totalFrames then
    have := s.index_lt below
    s.bitmap[frame / 64] &&& mask (frame % 64) == 0
  else false

def setFrameUsed (s : BitmapFrameAllocator) (frame : Nat) (used : Bool) : BitmapFrameAllocator :=
  if below : frame < s.totalFrames then
    have := s.index_lt below
    let word := s.bitmap[frame / 64]
    { s with
      bitmap := s.bitmap.set (frame / 64) (if used then word ||| mask (frame % 64) else word &&& ~~~mask (frame % 64))
      sized := by rw [List.length_set]; exact s.sized }
  else s

def setFrameRange (s : BitmapFrameAllocator) (start endFrame : Nat) (used : Bool) : BitmapFrameAllocator :=
  (List.range' start (endFrame - start)).foldl (fun s i => s.setFrameUsed i used) s

/-- `BitmapFrameAllocator::new`, with the words that `init` resizes the
reserved bitmap to already in place, all 0. -/
def new (totalFrames : Nat) : BitmapFrameAllocator :=
  ⟨List.replicate (bitmapSize totalFrames) 0, totalFrames, List.length_replicate⟩

def init (s : BitmapFrameAllocator) (initialUsedFrames : Nat) : BitmapFrameAllocator :=
  (List.range initialUsedFrames).foldl (fun s i => s.setFrameUsed i true) s

section MemoryMap

variable {T : Type} [MemoryDescriptorValidator T]

open MemoryDescriptorValidator

/-- `physical_start + page_count * 4096` of a descriptor, in `u64`. -/
def descriptorEnd (desc : T) : UInt64 := getPhysicalStart desc + getPageCount desc * 4096

/-- `max_phys`: the highest descriptor end, from 0. -/
def maxPhys (memoryMap : List T) : UInt64 :=
  memoryMap.foldl (fun maxPhys desc => if descriptorEnd desc > maxPhys then descriptorEnd desc else maxPhys) 0

/-- The body of the second loop of `init_with_memory_map`: a conventional
descriptor's frames freed. -/
def freeConventional (allocator : BitmapFrameAllocator) (desc : T) : BitmapFrameAllocator :=
  if getType desc = efiConventionalMemory then
    allocator.setFrameRange (getPhysicalStart desc / 4096).toNat (descriptorEnd desc / 4096).toNat false
  else allocator

def initWithMemoryMap (memoryMap : List T) : BitmapFrameAllocator :=
  let totalFrames := ((maxPhys memoryMap + 4095) / 4096).toNat
  -- `new`, then every word resized to `u64::MAX`
  let allocator : BitmapFrameAllocator :=
    ⟨List.replicate (bitmapSize totalFrames) 0xFFFFFFFFFFFFFFFF, totalFrames, List.length_replicate⟩
  memoryMap.foldl freeConventional allocator

end MemoryMap

/-- Where the bit loop of `allocate` stops in one word. -/
inductive Scan
  | next
  | found (frame : Nat)
  | outOfMemory
  deriving DecidableEq, Repr

/-- The `for j in 0..64` loop of `allocate` over word `i`. -/
def scanWord (totalFrames i : Nat) (word : UInt64) : List Nat → Scan
  | [] => .next
  | j :: bits =>
      let frameIdx := i * 64 + j
      if frameIdx = 0 then scanWord totalFrames i word bits
      else if frameIdx ≥ totalFrames then .outOfMemory
      else if word &&& mask j = 0 then .found frameIdx
      else scanWord totalFrames i word bits

/-- The `for i in 0..self.bitmap.len()` loop of `allocate`, from word `i`;
`none` is `OutOfMemory`. -/
def scanWords (totalFrames : Nat) : Nat → List UInt64 → Option Nat
  | _, [] => none
  | i, word :: words =>
      if word ≠ 0xFFFFFFFFFFFFFFFF then
        match scanWord totalFrames i word (List.range 64) with
        | .next => scanWords totalFrames (i + 1) words
        | .found frame => some frame
        | .outOfMemory => none
      else scanWords totalFrames (i + 1) words

/-- The body `allocate` and `allocate_frame` share: the frame the scan finds,
marked used. -/
def takeFreeFrame (s : BitmapFrameAllocator) : Option (Nat × BitmapFrameAllocator) :=
  (scanWords s.totalFrames 0 s.bitmap).map fun frameIdx => (frameIdx, s.setFrameUsed frameIdx true)

/-- `FrameAllocator::allocate`. -/
def allocate (s : BitmapFrameAllocator) : Except AllocError PhysFrame × BitmapFrameAllocator :=
  match s.takeFreeFrame with
  | some (frameIdx, next) => (.ok ⟨frameIdx * 4096⟩, next)
  | none => (.error .outOfMemory, s)

/-- `X86FrameAllocator::allocate_frame`. -/
def allocateFrame (s : BitmapFrameAllocator) : Option PhysFrame × BitmapFrameAllocator :=
  match s.takeFreeFrame with
  | some (frameIdx, next) => (some ⟨frameIdx * 4096⟩, next)
  | none => (none, s)

/-- The loop of `allocate_contiguous_frames` with its `count` and `start`:
the run it ends with, as `(start, i)`. -/
def contiguousScan (s : BitmapFrameAllocator) (pages : Nat) : Nat → Nat → List Nat → Option (Nat × Nat)
  | _, _, [] => none
  | count, start, i :: rest =>
      if !s.isFrameAvailable i then contiguousScan s pages 0 (i + 1) rest
      else if count + 1 = pages then some (start, i)
      else contiguousScan s pages (count + 1) start rest

/-- The frames `LOW_MEM_SKIP_FRAMES..self.total_frames`. -/
def framesAboveLowMem (s : BitmapFrameAllocator) : List Nat :=
  (List.range s.totalFrames).drop lowMemSkipFrames

def allocateContiguousFrames (s : BitmapFrameAllocator) (pages : Nat) : Except SystemError Nat × BitmapFrameAllocator :=
  match s.contiguousScan pages 0 lowMemSkipFrames s.framesAboveLowMem with
  | some (start, i) => (.ok (start * 4096), (List.range' start (i + 1 - start)).foldl (fun s j => s.setFrameUsed j true) s)
  | none => (.error .frameAllocationFailed, s)

def availableFrames (s : BitmapFrameAllocator) : Nat :=
  (List.range s.totalFrames).foldl (fun count i => if s.isFrameAvailable i then count + 1 else count) 0

/-- `free_frame`, by the frame's start address. -/
def freeFrame (s : BitmapFrameAllocator) (physAddr : Nat) : BitmapFrameAllocator :=
  let frameIdx := physAddr / 4096
  if frameIdx < s.totalFrames then s.setFrameUsed frameIdx false else s

/-- `FrameAllocator::deallocate`: the body of `free_frame`. -/
def deallocate (s : BitmapFrameAllocator) (frame : PhysFrame) : BitmapFrameAllocator :=
  s.freeFrame frame.startAddress

/-- The loop that `free_contiguous_frames`, `reserve_frames` and
`release_frames` share: `pages` frames from `start_phys` marked. -/
def markFrames (s : BitmapFrameAllocator) (startPhys pages : Nat) (used : Bool) : BitmapFrameAllocator :=
  let startFrame := startPhys / 4096
  (List.range pages).foldl (fun s i => s.setFrameUsed (startFrame + i) used) s

def freeContiguousFrames (s : BitmapFrameAllocator) (startPhys pages : Nat) : BitmapFrameAllocator :=
  s.markFrames startPhys pages false

def reserveFrames (s : BitmapFrameAllocator) (startPhys pages : Nat) : Except SystemError Unit × BitmapFrameAllocator :=
  (.ok (), s.markFrames startPhys pages true)

def releaseFrames (s : BitmapFrameAllocator) (startPhys pages : Nat) : BitmapFrameAllocator :=
  s.markFrames startPhys pages false

/-- `allocate_frame_low`, with the value the code reads from CR3.  The loop
tests the frame's bit itself; below `total_frames` that is
`is_frame_available`. -/
def allocateFrameLow (s : BitmapFrameAllocator) (cr3Addr : UInt64) : Option PhysFrame × BitmapFrameAllocator :=
  let l4FrameIdx := (cr3Addr / 4096).toNat
  match (List.range' 1 (min lowMemoryLimit s.totalFrames - 1)).find?
      (fun frameIdx => frameIdx != l4FrameIdx && s.isFrameAvailable frameIdx) with
  | some frameIdx => (some ⟨frameIdx * 4096⟩, s.setFrameUsed frameIdx true)
  | none => (none, s)

/-! ## The bitmap as a set of free frames -/

/-- A frame is available when it is below `total_frames` and its bit is
clear. -/
theorem isFrameAvailable_eq (s : BitmapFrameAllocator) (frame : Nat) :
    s.isFrameAvailable frame = (decide (frame < s.totalFrames) && !bit s.bitmap frame) := by
  unfold isFrameAvailable
  split
  · rename_i below
    rw [and_mask_beq_zero _ (Nat.mod_lt _ (by decide)), bit_of_lt _ (s.index_lt below)]
    simp [below]
  · rename_i above
    simp [above]

@[simp]
theorem totalFrames_setFrameUsed (s : BitmapFrameAllocator) (frame : Nat) (used : Bool) :
    (s.setFrameUsed frame used).totalFrames = s.totalFrames := by
  unfold setFrameUsed
  split <;> rfl

/-- `set_frame_used` changes the availability of its frame only, and of a
frame below `total_frames` only. -/
theorem isFrameAvailable_setFrameUsed (s : BitmapFrameAllocator) (frame : Nat) (used : Bool) (g : Nat) :
    (s.setFrameUsed frame used).isFrameAvailable g =
      if g = frame then decide (frame < s.totalFrames) && !used else s.isFrameAvailable g := by
  rw [isFrameAvailable_eq, isFrameAvailable_eq, totalFrames_setFrameUsed]
  unfold setFrameUsed
  split
  · rename_i below
    dsimp only
    cases used
    · rw [if_neg Bool.false_ne_true, bit_set_and_not_mask _ (s.index_lt below)]
      by_cases same : g = frame <;> simp [same, below]
    · rw [if_pos rfl, bit_set_or_mask _ (s.index_lt below)]
      by_cases same : g = frame <;> simp [same]
  · rename_i above
    by_cases same : g = frame <;> simp [same, above]

@[simp]
theorem totalFrames_foldl_setFrameUsed (frames : List Nat) (used : Bool) (s : BitmapFrameAllocator) :
    (frames.foldl (fun s i => s.setFrameUsed i used) s).totalFrames = s.totalFrames := by
  induction frames generalizing s with
  | nil => rfl
  | cons frame frames more => rw [List.foldl_cons, more, totalFrames_setFrameUsed]

/-- Marking a list of frames marks exactly the frames on it. -/
theorem isFrameAvailable_foldl_setFrameUsed (frames : List Nat) (used : Bool) (s : BitmapFrameAllocator) (g : Nat) :
    (frames.foldl (fun s i => s.setFrameUsed i used) s).isFrameAvailable g =
      if g ∈ frames then decide (g < s.totalFrames) && !used else s.isFrameAvailable g := by
  induction frames generalizing s with
  | nil => simp
  | cons frame frames more =>
      rw [List.foldl_cons, more, totalFrames_setFrameUsed, isFrameAvailable_setFrameUsed]
      by_cases later : g ∈ frames
      · simp [later]
      · by_cases same : g = frame <;> simp [later, same]

/-! ## `allocate` -/

/-- A frame `allocate` may hand out: available and not frame 0. -/
def isAllocatable (s : BitmapFrameAllocator) (frame : Nat) : Bool := frame != 0 && s.isFrameAvailable frame

/-- Below `total_frames`, the bit test of the scan is `is_frame_available`. -/
theorem isFrameAvailable_mul_add (s : BitmapFrameAllocator) {i j : Nat} (inside : i < s.bitmap.length) (h : j < 64)
    (below : i * 64 + j < s.totalFrames) : s.isFrameAvailable (i * 64 + j) = decide (s.bitmap[i] &&& mask j = 0) := by
  rw [isFrameAvailable_eq, bit_mul_add _ inside h, ← and_mask_beq_zero _ h, Bool.beq_eq_decide_eq]
  simp [below]

/-- What a scan of the frames `lo, …, lo + n - 1` reports: the first frame
it may hand out, none, or that no frame from `lo` on can be handed out. -/
def Scan.Reports (p : Nat → Bool) (lo n : Nat) : Scan → Prop
  | .next => (List.range' lo n).find? p = none
  | .found frame => (List.range' lo n).find? p = some frame
  | .outOfMemory => ∀ frame, lo ≤ frame → p frame = false

/-- A frame the scan passes over leaves its report standing. -/
theorem Scan.Reports.cons {p : Nat → Bool} {lo n : Nat} {scan : Scan} (passed : p lo = false)
    (reports : scan.Reports p (lo + 1) n) : scan.Reports p lo (n + 1) := by
  cases scan with
  | next => simpa [Scan.Reports, List.range'_succ, passed] using reports
  | found frame => simpa [Scan.Reports, List.range'_succ, passed] using reports
  | outOfMemory =>
      intro frame from_lo
      rcases Nat.eq_or_lt_of_le from_lo with here | later
      · rw [← here]
        exact passed
      · exact reports frame later

theorem scanWord_reports (s : BitmapFrameAllocator) {i : Nat} (inside : i < s.bitmap.length) :
    ∀ n j, j + n ≤ 64 → (scanWord s.totalFrames i s.bitmap[i] (List.range' j n)).Reports s.isAllocatable (i * 64 + j) n := by
  intro n
  induction n with
  | zero => exact fun _ _ => rfl
  | succ n more =>
      intro j fits
      have next := more (j + 1) (by omega)
      rw [← Nat.add_assoc] at next
      rw [List.range'_succ, scanWord]
      by_cases zero : i * 64 + j = 0
      · rw [if_pos zero]
        exact next.cons (by simp [isAllocatable, zero])
      rw [if_neg zero]
      by_cases above : i * 64 + j ≥ s.totalFrames
      · rw [if_pos above]
        intro frame from_here
        simp [isAllocatable, isFrameAvailable_eq, show ¬frame < s.totalFrames by omega]
      rw [if_neg above]
      have available := s.isFrameAvailable_mul_add inside (show j < 64 by omega) (by omega)
      by_cases clear : s.bitmap[i] &&& mask j = 0
      · rw [if_pos clear]
        have handOut : s.isAllocatable (i * 64 + j) = true := by
          simp only [isAllocatable, available, clear, decide_true, Bool.and_true]
          simpa using zero
        simp [Scan.Reports, List.range'_succ, handOut]
      · rw [if_neg clear]
        exact next.cons (by simp [isAllocatable, available, clear])

/-- A word of all ones holds no available frame. -/
theorem isFrameAvailable_of_max (s : BitmapFrameAllocator) {i : Nat} (inside : i < s.bitmap.length)
    (full : s.bitmap[i] = 0xFFFFFFFFFFFFFFFF) {j : Nat} (h : j < 64) : s.isFrameAvailable (i * 64 + j) = false := by
  rw [isFrameAvailable_eq, bit_mul_add _ inside h, full, getLsbD_max h]
  simp

/-- The two loops of `allocate` find the first frame it may hand out. -/
theorem scanWords_eq (s : BitmapFrameAllocator) :
    ∀ (words : List UInt64) (i : Nat), s.bitmap.drop i = words →
      scanWords s.totalFrames i words = (List.range' (i * 64) (words.length * 64)).find? s.isAllocatable := by
  intro words
  induction words with
  | nil => exact fun _ _ => rfl
  | cons word words more =>
      intro i dropped
      have inside : i < s.bitmap.length := by
        have := congrArg List.length dropped
        simp only [List.length_drop, List.length_cons] at this
        omega
      rw [List.drop_eq_getElem_cons inside, List.cons.injEq] at dropped
      obtain ⟨this_word, rest⟩ := dropped
      -- the word's 64 frames, then the words after it
      have split : List.range' (i * 64) ((words.length + 1) * 64) =
          List.range' (i * 64) 64 ++ List.range' ((i + 1) * 64) (words.length * 64) := by
        rw [show (words.length + 1) * 64 = 64 + words.length * 64 by ring, ← List.range'_append,
          show i * 64 + 1 * 64 = (i + 1) * 64 by ring]
      rw [List.length_cons, split, List.find?_append, scanWords]
      -- no frame of a range wholly from `lo` on is handed out, when none is from `i * 64` on
      have none_from (lo n : Nat) (low : i * 64 ≤ lo) (passed : ∀ frame, lo ≤ frame → s.isAllocatable frame = false) :
          (List.range' lo n).find? s.isAllocatable = none :=
        List.find?_eq_none.2 fun frame member => by
          rw [passed frame (List.mem_range'_1.mp member).1]
          exact Bool.false_ne_true
      split
      · rename_i notFull
        have reports := scanWord_reports s inside 64 0 (le_refl _)
        rw [Nat.add_zero, ← List.range_eq_range', this_word] at reports
        split
        · rename_i scanned
          rw [scanned] at reports
          rw [show (List.range' (i * 64) 64).find? s.isAllocatable = none from reports, Option.none_or, more (i + 1) rest]
        · rename_i frame scanned
          rw [scanned] at reports
          rw [show (List.range' (i * 64) 64).find? s.isAllocatable = some frame from reports, Option.some_or]
        · rename_i scanned
          rw [scanned] at reports
          rw [none_from _ _ le_rfl reports, none_from _ _ (by omega) fun frame low => reports frame (by omega),
            Option.none_or]
      · rename_i full
        -- a word of all ones holds nothing to hand out
        have skipped : (List.range' (i * 64) 64).find? s.isAllocatable = none :=
          List.find?_eq_none.2 fun frame member => by
            have bounds := List.mem_range'_1.mp member
            have split : frame = i * 64 + (frame - i * 64) := by omega
            rw [split, isAllocatable, s.isFrameAvailable_of_max inside (by rw [this_word]; simpa using full) (by omega)]
            simp
        rw [skipped, Option.none_or, more (i + 1) rest]

theorem lt_of_isFrameAvailable {s : BitmapFrameAllocator} {frame : Nat} (available : s.isFrameAvailable frame = true) :
    frame < s.totalFrames := by
  rw [isFrameAvailable_eq, Bool.and_eq_true, decide_eq_true_eq] at available
  exact available.1

/-- The scan of `allocate` is the search for the first frame it may hand
out below `total_frames`. -/
theorem takeFreeFrame_eq (s : BitmapFrameAllocator) :
    s.takeFreeFrame = ((List.range s.totalFrames).find? s.isAllocatable).map fun frame => (frame, s.setFrameUsed frame true) := by
  unfold takeFreeFrame
  rw [scanWords_eq s s.bitmap 0 List.drop_zero]
  congr 1
  -- the words hold `total_frames` bits and the padding after them
  have covers : s.totalFrames ≤ s.bitmap.length * 64 := by
    rw [s.sized, bitmapSize]
    omega
  have padding : (List.range' s.totalFrames (s.bitmap.length * 64 - s.totalFrames)).find? s.isAllocatable = none :=
    List.find?_eq_none.2 fun frame member => by
      have above : ¬frame < s.totalFrames := by
        have := (List.mem_range'_1.mp member).1
        omega
      simp [isAllocatable, isFrameAvailable_eq, above]
  rw [Nat.zero_mul, List.range_eq_range', show s.bitmap.length * 64 = s.totalFrames + (s.bitmap.length * 64 - s.totalFrames) by omega,
    ← List.range'_append, List.find?_append, Nat.zero_add, Nat.one_mul, padding, Option.or_none]

/-- The frames `allocate` may hand out. -/
def Allocatable (s : BitmapFrameAllocator) : Set Nat := {frame | 1 ≤ frame ∧ s.isFrameAvailable frame = true}

theorem takeFreeFrame_of_isLeast {s : BitmapFrameAllocator} {frame : Nat} (least : IsLeast s.Allocatable frame) :
    s.takeFreeFrame = some (frame, s.setFrameUsed frame true) := by
  obtain ⟨⟨positive, available⟩, lower⟩ := least
  have first : (List.range s.totalFrames).find? s.isAllocatable = some frame := by
    refine List.find?_range_eq_some.2 ⟨?_, List.mem_range.2 (lt_of_isFrameAvailable available), fun earlier before => ?_⟩
    · simp [isAllocatable, available]
      omega
    · by_cases zero : earlier = 0
      · simp [isAllocatable, zero]
      · have passed : earlier ∉ s.Allocatable := fun member => absurd (lower member) (by omega)
        simp only [Allocatable, Set.mem_ofPred_eq, not_and] at passed
        simp [isAllocatable, passed (by omega)]
  rw [takeFreeFrame_eq, first, Option.map_some]

theorem takeFreeFrame_of_forall {s : BitmapFrameAllocator} (exhausted : ∀ frame, 1 ≤ frame → s.isFrameAvailable frame = false) :
    s.takeFreeFrame = none := by
  rw [takeFreeFrame_eq, Option.map_eq_none_iff, List.find?_range_eq_none]
  intro frame _
  by_cases zero : frame = 0
  · simp [isAllocatable, zero]
  · simp [isAllocatable, exhausted frame (by omega)]

/-- Marking a frame used takes it, and only it, out of the available ones. -/
theorem isFrameAvailable_setFrameUsed_true (s : BitmapFrameAllocator) (frame g : Nat) :
    (s.setFrameUsed frame true).isFrameAvailable g = (s.isFrameAvailable g && g != frame) := by
  rw [isFrameAvailable_setFrameUsed]
  by_cases same : g = frame
  · simp [same]
  · simp [same]

theorem takeFreeFrame_eq_some {s next : BitmapFrameAllocator} {frame : Nat} (taken : s.takeFreeFrame = some (frame, next)) :
    IsLeast s.Allocatable frame ∧ next = s.setFrameUsed frame true := by
  rw [takeFreeFrame_eq, Option.map_eq_some_iff] at taken
  obtain ⟨found, first, same⟩ := taken
  cases same
  obtain ⟨allocatable, -, before⟩ := List.find?_range_eq_some.1 first
  simp only [isAllocatable, Bool.and_eq_true, bne_iff_ne, ne_eq] at allocatable
  refine ⟨⟨⟨by omega, allocatable.2⟩, fun g ⟨positive, available⟩ => ?_⟩, rfl⟩
  by_contra later
  have passed := before g (by omega)
  simp [isAllocatable, available] at passed
  omega

theorem allocate_of_isLeast {s : BitmapFrameAllocator} {frame : Nat} (least : IsLeast s.Allocatable frame) :
    s.allocate = (.ok ⟨frame * 4096⟩, s.setFrameUsed frame true) := by
  rw [allocate, takeFreeFrame_of_isLeast least]

theorem allocate_of_forall {s : BitmapFrameAllocator} (exhausted : ∀ frame, 1 ≤ frame → s.isFrameAvailable frame = false) :
    s.allocate = (.error .outOfMemory, s) := by
  rw [allocate, takeFreeFrame_of_forall exhausted]

theorem allocateFrame_of_isLeast {s : BitmapFrameAllocator} {frame : Nat} (least : IsLeast s.Allocatable frame) :
    s.allocateFrame = (some ⟨frame * 4096⟩, s.setFrameUsed frame true) := by
  rw [allocateFrame, takeFreeFrame_of_isLeast least]

theorem allocateFrame_of_forall {s : BitmapFrameAllocator} (exhausted : ∀ frame, 1 ≤ frame → s.isFrameAvailable frame = false) :
    s.allocateFrame = (none, s) := by
  rw [allocateFrame, takeFreeFrame_of_forall exhausted]

theorem allocate_eq_ok {s next : BitmapFrameAllocator} {frame : PhysFrame} (allocated : s.allocate = (.ok frame, next)) :
    ∃ frameIdx, IsLeast s.Allocatable frameIdx ∧ frame = ⟨frameIdx * 4096⟩ ∧ next = s.setFrameUsed frameIdx true := by
  unfold allocate at allocated
  split at allocated
  · rename_i frameIdx taken taken_eq
    cases allocated
    obtain ⟨least, rfl⟩ := takeFreeFrame_eq_some taken_eq
    exact ⟨frameIdx, least, rfl, rfl⟩
  · cases allocated

theorem allocateFrame_eq_some {s next : BitmapFrameAllocator} {frame : PhysFrame}
    (allocated : s.allocateFrame = (some frame, next)) :
    ∃ frameIdx, IsLeast s.Allocatable frameIdx ∧ frame = ⟨frameIdx * 4096⟩ ∧ next = s.setFrameUsed frameIdx true := by
  unfold allocateFrame at allocated
  split at allocated
  · rename_i frameIdx taken taken_eq
    cases allocated
    obtain ⟨least, rfl⟩ := takeFreeFrame_eq_some taken_eq
    exact ⟨frameIdx, least, rfl, rfl⟩
  · cases allocated

/-! ## `allocate_contiguous_frames` -/

/-- `pages` available frames from `start` on. -/
def Run (s : BitmapFrameAllocator) (pages start : Nat) : Prop :=
  ∀ frame, start ≤ frame → frame < start + pages → s.isFrameAvailable frame = true

/-- The runs `allocate_contiguous_frames` may hand out: above 16 MiB. -/
def Runs (s : BitmapFrameAllocator) (pages : Nat) : Set Nat := {start | lowMemSkipFrames ≤ start ∧ s.Run pages start}

/-- What the loop of `allocate_contiguous_frames` reports: the first run and
its last frame, or that there is none.  (Stated without a match on the
result, so that reading it never evaluates the loop.) -/
def RunReport (s : BitmapFrameAllocator) (pages : Nat) (result : Option (Nat × Nat)) : Prop :=
  (∀ start last, result = some (start, last) → IsLeast (s.Runs pages) start ∧ last + 1 = start + pages) ∧
    (result = none → ∀ start, lowMemSkipFrames ≤ start → ¬s.Run pages start)

theorem RunReport.of_none {s : BitmapFrameAllocator} {pages : Nat}
    (none_free : ∀ start, lowMemSkipFrames ≤ start → ¬s.Run pages start) : s.RunReport pages none :=
  ⟨fun _ _ found => (nomatch found), fun _ => none_free⟩

theorem RunReport.of_some {s : BitmapFrameAllocator} {pages start last : Nat} (least : IsLeast (s.Runs pages) start)
    (counted : last + 1 = start + pages) : s.RunReport pages (some (start, last)) :=
  ⟨fun _ _ found => by cases found; exact ⟨least, counted⟩, fun missing => (nomatch missing)⟩

/-- The loop keeps `count` available frames from `start` up to `i`, and no
run starts before `start`. -/
theorem contiguousScan_reports (s : BitmapFrameAllocator) {pages : Nat} (positive : 0 < pages) :
    ∀ (n count start i : Nat), start + count = i → lowMemSkipFrames ≤ start → count < pages →
      (∀ frame, start ≤ frame → frame < i → s.isFrameAvailable frame = true) →
      (∀ earlier, lowMemSkipFrames ≤ earlier → earlier < start → ¬s.Run pages earlier) →
      s.totalFrames ≤ i + n → s.RunReport pages (s.contiguousScan pages count start (List.range' i n)) := by
  intro n
  induction n with
  | zero =>
      intro count start i counted low short kept none_before ended
      rw [List.range'_zero, contiguousScan]
      refine RunReport.of_none fun start' low' run => ?_
      -- a run from `start` on would reach past the last frame
      by_cases before : start' < start
      · exact none_before start' low' before run
      · have last := lt_of_isFrameAvailable (run (start' + pages - 1) (by omega) (by omega))
        omega
  | succ n more =>
      intro count start i counted low short kept none_before ended
      rw [List.range'_succ, contiguousScan]
      split
      · rename_i used
        have unavailable : s.isFrameAvailable i = false := by simpa using used
        refine more 0 (i + 1) (i + 1) rfl (by omega) positive (fun _ _ _ => by omega) ?_ (by omega)
        intro earlier low' before run
        by_cases older : earlier < start
        · exact none_before earlier low' older run
        -- a run from `start` on either covers the used frame or fits in the count
        by_cases covers : i < earlier + pages
        · rw [run i (by omega) covers] at unavailable
          cases unavailable
        · omega
      · rename_i available
        have available : s.isFrameAvailable i = true := by simpa using available
        split
        · rename_i complete
          refine RunReport.of_some ⟨⟨low, ?_⟩, ?_⟩ (by omega)
          · intro frame from_start below
            by_cases last : frame = i
            · rw [last]
              exact available
            · exact kept frame from_start (by omega)
          · rintro earlier ⟨low', run⟩
            by_contra before
            exact none_before earlier low' (by omega) run
        · rename_i incomplete
          refine more (count + 1) start (i + 1) (by omega) low (by omega) (fun frame from_start below => ?_)
            none_before (by omega)
          by_cases last : frame = i
          · rw [last]
            exact available
          · exact kept frame from_start (by omega)

theorem framesAboveLowMem_eq (s : BitmapFrameAllocator) :
    s.framesAboveLowMem = List.range' lowMemSkipFrames (s.totalFrames - lowMemSkipFrames) := by
  rw [framesAboveLowMem, List.range_eq_range', List.drop_range', Nat.zero_add, Nat.mul_one]

theorem allocateContiguousFrames_reports (s : BitmapFrameAllocator) {pages : Nat} (positive : 0 < pages) :
    s.RunReport pages (s.contiguousScan pages 0 lowMemSkipFrames s.framesAboveLowMem) :=
  s.framesAboveLowMem_eq ▸ s.contiguousScan_reports positive (s.totalFrames - lowMemSkipFrames) 0 lowMemSkipFrames lowMemSkipFrames
    (Nat.add_zero _) (le_refl _) positive (fun _ low high => absurd high (Nat.not_lt.2 low))
    (fun _ low high => absurd high (Nat.not_lt.2 low)) (by omega)

theorem allocateContiguousFrames_of_isLeast {s : BitmapFrameAllocator} {pages start : Nat} (positive : 0 < pages)
    (least : IsLeast (s.Runs pages) start) :
    s.allocateContiguousFrames pages = (.ok (start * 4096), (List.range' start pages).foldl (fun s j => s.setFrameUsed j true) s) := by
  obtain ⟨found_some, found_none⟩ := s.allocateContiguousFrames_reports positive
  unfold allocateContiguousFrames
  split
  · rename_i first last scanned
    obtain ⟨found, counted⟩ := found_some first last scanned
    rw [found.unique least, show last + 1 - start = pages by rw [← found.unique least]; omega]
  · rename_i scanned
    exact absurd least.1.2 (found_none scanned start least.1.1)

theorem allocateContiguousFrames_of_forall {s : BitmapFrameAllocator} {pages : Nat}
    (none_free : ∀ start, lowMemSkipFrames ≤ start → ¬s.Run pages start) :
    s.allocateContiguousFrames pages = (.error .frameAllocationFailed, s) := by
  -- with no page asked for, every start is a run
  have positive : 0 < pages := by
    by_contra zero
    exact none_free lowMemSkipFrames (le_refl _) fun frame low high => by omega
  obtain ⟨found_some, -⟩ := s.allocateContiguousFrames_reports positive
  unfold allocateContiguousFrames
  split
  · rename_i first last scanned
    obtain ⟨⟨⟨low, run⟩, -⟩, -⟩ := found_some first last scanned
    exact absurd run (none_free first low)
  · rfl

/-- With no page asked for, the loop never completes a run. -/
theorem contiguousScan_zero (s : BitmapFrameAllocator) (frames : List Nat) :
    ∀ count start, s.contiguousScan 0 count start frames = none := by
  induction frames with
  | nil => exact fun _ _ => rfl
  | cons frame frames more =>
      intro count start
      rw [contiguousScan]
      split
      · exact more _ _
      · rw [if_neg (Nat.succ_ne_zero count)]
        exact more _ _

/-- A request for no page fails and changes nothing. -/
theorem allocateContiguousFrames_zero (s : BitmapFrameAllocator) :
    s.allocateContiguousFrames 0 = (.error .frameAllocationFailed, s) := by
  rw [allocateContiguousFrames, contiguousScan_zero]

theorem isFrameAvailable_foldl_setFrameUsed_range (s : BitmapFrameAllocator) (start pages g : Nat) :
    ((List.range' start pages).foldl (fun s j => s.setFrameUsed j true) s).isFrameAvailable g =
      (s.isFrameAvailable g && !(decide (start ≤ g) && decide (g < start + pages))) := by
  rw [isFrameAvailable_foldl_setFrameUsed]
  by_cases inside : g ∈ List.range' start pages
  · have bounds := List.mem_range'_1.1 inside
    rw [if_pos inside]
    by_cases below : g < s.totalFrames
    · simp [bounds.1, bounds.2]
    · simp [isFrameAvailable_eq, below]
  · have bounds : ¬(start ≤ g ∧ g < start + pages) := fun within => inside (List.mem_range'_1.2 within)
    rw [if_neg inside]
    by_cases low : start ≤ g
    · simp [low, show ¬g < start + pages from fun high => bounds ⟨low, high⟩]
    · simp [low]

theorem allocateContiguousFrames_eq_ok {s next : BitmapFrameAllocator} {pages addr : Nat}
    (allocated : s.allocateContiguousFrames pages = (.ok addr, next)) :
    ∃ start, IsLeast (s.Runs pages) start ∧ 0 < pages ∧ addr = start * 4096 ∧
      next = (List.range' start pages).foldl (fun s j => s.setFrameUsed j true) s := by
  have positive : 0 < pages := by
    by_contra zero
    rw [show pages = 0 by omega, allocateContiguousFrames_zero] at allocated
    cases allocated
  obtain ⟨found_some, -⟩ := s.allocateContiguousFrames_reports positive
  unfold allocateContiguousFrames at allocated
  split at allocated
  · rename_i first last scanned
    obtain ⟨least, counted⟩ := found_some first last scanned
    cases allocated
    exact ⟨first, least, positive, rfl, by rw [show last + 1 - first = pages by omega]⟩
  · cases allocated

/-! ## Freeing, reserving and counting -/

@[simp]
theorem totalFrames_setFrameRange (s : BitmapFrameAllocator) (start endFrame : Nat) (used : Bool) :
    (s.setFrameRange start endFrame used).totalFrames = s.totalFrames :=
  totalFrames_foldl_setFrameUsed _ _ _

theorem isFrameAvailable_setFrameRange (s : BitmapFrameAllocator) (start endFrame : Nat) (used : Bool) (g : Nat) :
    (s.setFrameRange start endFrame used).isFrameAvailable g =
      if start ≤ g ∧ g < endFrame then decide (g < s.totalFrames) && !used else s.isFrameAvailable g := by
  rw [setFrameRange, isFrameAvailable_foldl_setFrameUsed]
  congr 1
  rw [List.mem_range'_1, eq_iff_iff]
  omega

theorem isFrameAvailable_freeFrame (s : BitmapFrameAllocator) (physAddr g : Nat) :
    (s.freeFrame physAddr).isFrameAvailable g = (s.isFrameAvailable g || (g == physAddr / 4096 && decide (g < s.totalFrames))) := by
  unfold freeFrame
  dsimp only
  split
  · rename_i below
    rw [isFrameAvailable_setFrameUsed]
    by_cases same : g = physAddr / 4096
    · simp [same, below]
    · simp [same]
  · rename_i above
    by_cases same : g = physAddr / 4096
    · simp [same, above]
    · simp [same]

theorem isFrameAvailable_deallocate (s : BitmapFrameAllocator) (frame : PhysFrame) (g : Nat) :
    (s.deallocate frame).isFrameAvailable g =
      (s.isFrameAvailable g || (g == frame.startAddress / 4096 && decide (g < s.totalFrames))) :=
  s.isFrameAvailable_freeFrame _ g

/-- The counting loop of `available_frames`. -/
theorem foldl_count_eq (p : Nat → Bool) (frames : List Nat) (count : Nat) :
    frames.foldl (fun count i => if p i then count + 1 else count) count = count + frames.countP p := by
  induction frames generalizing count with
  | nil => rfl
  | cons frame frames more =>
      rw [List.foldl_cons, more, List.countP_cons]
      split <;> omega

theorem availableFrames_eq (s : BitmapFrameAllocator) :
    s.availableFrames = {frame | s.isFrameAvailable frame = true}.ncard := by
  -- every available frame is below `total_frames`
  have below : {frame | s.isFrameAvailable frame = true} = ↑((Finset.range s.totalFrames).filter (s.isFrameAvailable ·)) := by
    ext frame
    simp only [Set.mem_ofPred_eq, Finset.coe_filter, Finset.mem_range]
    exact ⟨fun available => ⟨lt_of_isFrameAvailable available, available⟩, fun ⟨_, available⟩ => available⟩
  rw [availableFrames, foldl_count_eq, Nat.zero_add, below, Set.ncard_coe_finset, Finset.card_def, Finset.filter_val,
    Finset.range_val, Multiset.range, Multiset.filter_coe, Multiset.coe_card, List.countP_eq_length_filter]
  simp only [Bool.decide_eq_true]

/-! ## `allocate_frame_low` -/

/-- The frames `allocate_frame_low` may hand out: below 1 MiB, not frame 0
and not the frame of the PML4. -/
def LowAllocatable (s : BitmapFrameAllocator) (l4FrameIdx : Nat) : Set Nat :=
  {frame | 1 ≤ frame ∧ frame < lowMemoryLimit ∧ frame ≠ l4FrameIdx ∧ s.isFrameAvailable frame = true}

theorem allocateFrameLow_eq_some {s next : BitmapFrameAllocator} {cr3Addr : UInt64} {frame : PhysFrame}
    (allocated : s.allocateFrameLow cr3Addr = (some frame, next)) :
    ∃ frameIdx, IsLeast (s.LowAllocatable (cr3Addr / 4096).toNat) frameIdx ∧ frame = ⟨frameIdx * 4096⟩ ∧
      next = s.setFrameUsed frameIdx true := by
  unfold allocateFrameLow at allocated
  dsimp only at allocated
  split at allocated
  · rename_i frameIdx first
    cases allocated
    obtain ⟨handOut, member, before⟩ := List.find?_range'_eq_some.1 first
    have bounds := List.mem_range'_1.1 member
    simp only [Bool.and_eq_true, bne_iff_ne, ne_eq] at handOut
    refine ⟨frameIdx, ⟨⟨by omega, by omega, handOut.1, handOut.2⟩, fun g ⟨positive, low, notL4, available⟩ => ?_⟩, rfl, rfl⟩
    by_contra later
    have passed := before g positive (by omega)
    exact notL4 (by simpa [available] using passed)
  · cases allocated

/-! ## `init_with_memory_map` -/

section MemoryMap

variable {T : Type} [MemoryDescriptorValidator T]

open MemoryDescriptorValidator

/-- Frame `frame` lies in the descriptor's bytes. -/
def LiesIn (desc : T) (frame : Nat) : Prop :=
  (getPhysicalStart desc).toNat ≤ frame * 4096 ∧
    (frame + 1) * 4096 ≤ (getPhysicalStart desc).toNat + (getPageCount desc).toNat * 4096

/-- The frames the loop body frees for a descriptor. -/
def Frees (desc : T) (frame : Nat) : Prop :=
  getType desc = efiConventionalMemory ∧
    (getPhysicalStart desc / 4096).toNat ≤ frame ∧ frame < (descriptorEnd desc / 4096).toNat

@[simp]
theorem totalFrames_freeConventional (allocator : BitmapFrameAllocator) (desc : T) :
    (freeConventional allocator desc).totalFrames = allocator.totalFrames := by
  unfold freeConventional
  split
  · exact totalFrames_setFrameRange _ _ _ _
  · rfl

@[simp]
theorem totalFrames_foldl_freeConventional (memoryMap : List T) (allocator : BitmapFrameAllocator) :
    (memoryMap.foldl freeConventional allocator).totalFrames = allocator.totalFrames := by
  induction memoryMap generalizing allocator with
  | nil => rfl
  | cons desc memoryMap more => rw [List.foldl_cons, more, totalFrames_freeConventional]

theorem isFrameAvailable_freeConventional (allocator : BitmapFrameAllocator) (desc : T) (frame : Nat) :
    (freeConventional allocator desc).isFrameAvailable frame = true ↔
      allocator.isFrameAvailable frame = true ∨ (frame < allocator.totalFrames ∧ Frees desc frame) := by
  unfold freeConventional Frees
  split
  · rename_i conventional
    rw [isFrameAvailable_setFrameRange]
    split
    · rename_i inside
      rw [Bool.not_false, Bool.and_true, decide_eq_true_iff]
      constructor
      · exact fun below => Or.inr ⟨below, conventional, inside⟩
      · rintro (available | ⟨below, -⟩)
        · exact lt_of_isFrameAvailable available
        · exact below
    · rename_i outside
      constructor
      · exact Or.inl
      · rintro (available | ⟨-, -, freed⟩)
        · exact available
        · exact absurd freed outside
  · rename_i other
    constructor
    · exact Or.inl
    · rintro (available | ⟨-, conventional, -⟩)
      · exact available
      · exact absurd conventional other

/-- The second loop frees the frames of the conventional descriptors, and
nothing else. -/
theorem isFrameAvailable_foldl_freeConventional (memoryMap : List T) (allocator : BitmapFrameAllocator) (frame : Nat) :
    (memoryMap.foldl freeConventional allocator).isFrameAvailable frame = true ↔
      allocator.isFrameAvailable frame = true ∨ (frame < allocator.totalFrames ∧ ∃ desc ∈ memoryMap, Frees desc frame) := by
  induction memoryMap generalizing allocator with
  | nil => simp
  | cons desc memoryMap more =>
      rw [List.foldl_cons, more, isFrameAvailable_freeConventional, totalFrames_freeConventional]
      constructor
      · rintro ((earlier | ⟨below, freed⟩) | ⟨below, later, member, freed⟩)
        · exact Or.inl earlier
        · exact Or.inr ⟨below, desc, List.mem_cons_self, freed⟩
        · exact Or.inr ⟨below, later, List.mem_cons_of_mem _ member, freed⟩
      · rintro (earlier | ⟨below, later, member, freed⟩)
        · exact Or.inl (Or.inl earlier)
        · rcases List.mem_cons.mp member with rfl | member
          · exact Or.inl (Or.inr ⟨below, freed⟩)
          · exact Or.inr ⟨below, later, member, freed⟩

theorem toNat_4096 : (4096 : UInt64).toNat = 4096 := rfl

theorem toNat_descriptorEnd {desc : T} (fits : (getPhysicalStart desc).toNat + (getPageCount desc).toNat * 4096 < 2 ^ 64) :
    (descriptorEnd desc).toNat = (getPhysicalStart desc).toNat + (getPageCount desc).toNat * 4096 := by
  have product : (getPageCount desc).toNat * 4096 < 2 ^ 64 := by omega
  rw [descriptorEnd, UInt64.toNat_add, UInt64.toNat_mul, toNat_4096, Nat.mod_eq_of_lt product, Nat.mod_eq_of_lt fits]

/-- On a descriptor that starts on a 4 KiB boundary and does not overflow,
the loop frees exactly the frames that lie in it. -/
theorem frees_iff_liesIn {desc : T} (aligned : (getPhysicalStart desc).toNat % 4096 = 0)
    (fits : (getPhysicalStart desc).toNat + (getPageCount desc).toNat * 4096 < 2 ^ 64) (frame : Nat) :
    Frees desc frame ↔ getType desc = efiConventionalMemory ∧ LiesIn desc frame := by
  unfold Frees LiesIn
  rw [UInt64.toNat_div, UInt64.toNat_div, toNat_descriptorEnd fits, toNat_4096]
  constructor
  · rintro ⟨conventional, low, high⟩
    exact ⟨conventional, by omega, by omega⟩
  · rintro ⟨conventional, low, high⟩
    exact ⟨conventional, by omega, by omega⟩

/-- Before the second loop every frame is used, padding included. -/
theorem isFrameAvailable_allUsed (totalFrames frame : Nat) :
    (⟨List.replicate (bitmapSize totalFrames) 0xFFFFFFFFFFFFFFFF, totalFrames, List.length_replicate⟩ :
      BitmapFrameAllocator).isFrameAvailable frame = false := by
  rw [isFrameAvailable_eq]
  by_cases below : frame < totalFrames
  · have inside : frame / 64 < bitmapSize totalFrames := by
      unfold bitmapSize
      omega
    simp only [bit_replicate _ inside, getLsbD_max (Nat.mod_lt frame (by decide))]
    simp
  · simp [below]

/-- After `init_with_memory_map`, a frame is available exactly when it is
below `total_frames` and lies in a conventional-memory descriptor, for
descriptors that start on a 4 KiB boundary and end below `2 ^ 64`. -/
theorem isFrameAvailable_initWithMemoryMap (memoryMap : List T)
    (aligned : ∀ desc ∈ memoryMap, (getPhysicalStart desc).toNat % 4096 = 0)
    (fits : ∀ desc ∈ memoryMap, (getPhysicalStart desc).toNat + (getPageCount desc).toNat * 4096 < 2 ^ 64) (frame : Nat) :
    (initWithMemoryMap memoryMap).isFrameAvailable frame = true ↔
      frame < (initWithMemoryMap memoryMap).totalFrames ∧
        ∃ desc ∈ memoryMap, getType desc = efiConventionalMemory ∧ LiesIn desc frame := by
  unfold initWithMemoryMap
  dsimp only
  rw [isFrameAvailable_foldl_freeConventional, totalFrames_foldl_freeConventional, isFrameAvailable_allUsed]
  simp only [Bool.false_eq_true, false_or]
  constructor
  · rintro ⟨below, desc, member, freed⟩
    exact ⟨below, desc, member, (frees_iff_liesIn (aligned desc member) (fits desc member) frame).mp freed⟩
  · rintro ⟨below, desc, member, lies⟩
    exact ⟨below, desc, member, (frees_iff_liesIn (aligned desc member) (fits desc member) frame).mpr lies⟩

end MemoryMap

/-- A conventional-memory descriptor of one page at 2 KiB. -/
def halfPageDescriptor : EfiMemoryDescriptor := ⟨.efiConventionalMemory, 0x800, 1⟩

/-- For the descriptor at 2 KiB, `init_with_memory_map` frees frame 0, whose
lower half is not in the descriptor, and keeps frame 1, which holds the
descriptor's last 2 KiB, used. -/
theorem init_frees_frame_outside_unaligned_descriptor :
    (initWithMemoryMap [halfPageDescriptor]).isFrameAvailable 0 = true ∧ ¬LiesIn halfPageDescriptor 0 ∧
      1 < (initWithMemoryMap [halfPageDescriptor]).totalFrames ∧
      (initWithMemoryMap [halfPageDescriptor]).isFrameAvailable 1 = false := by
  refine ⟨by decide, ?_, by decide, by decide⟩
  unfold LiesIn
  decide

open MemoryDescriptorValidator in
/-- The bitmap is a set of free frames below `total_frames`.
`init_with_memory_map` makes it the frames of the conventional-memory
descriptors, for descriptors on 4 KiB boundaries that end below `2 ^ 64`.
From any allocator, `allocate` and `allocate_frame` take the least
available frame above 0 or fail when there is none; `allocate_contiguous_frames`
takes the first run above 16 MiB or fails and changes nothing;
`free_frame` and `deallocate` free their frame when it is below
`total_frames`; `available_frames` counts the set; and no operation hands
out frame 0 or a frame at or past `total_frames`. -/
theorem frame_bitmap_is_free_frame_set :
    (∀ {T : Type} [MemoryDescriptorValidator T] (memoryMap : List T),
        (∀ desc ∈ memoryMap, (getPhysicalStart desc).toNat % 4096 = 0) →
        (∀ desc ∈ memoryMap, (getPhysicalStart desc).toNat + (getPageCount desc).toNat * 4096 < 2 ^ 64) →
        ∀ frame, (initWithMemoryMap memoryMap).isFrameAvailable frame = true ↔
          frame < (initWithMemoryMap memoryMap).totalFrames ∧
            ∃ desc ∈ memoryMap, getType desc = efiConventionalMemory ∧ LiesIn desc frame) ∧
    ∀ s : BitmapFrameAllocator,
      (∀ frame, IsLeast s.Allocatable frame →
        s.allocate = (.ok ⟨frame * 4096⟩, s.setFrameUsed frame true) ∧
          s.allocateFrame = (some ⟨frame * 4096⟩, s.setFrameUsed frame true)) ∧
      ((∀ frame, 1 ≤ frame → s.isFrameAvailable frame = false) →
        s.allocate = (.error .outOfMemory, s) ∧ s.allocateFrame = (none, s)) ∧
      (∀ frame g, (s.setFrameUsed frame true).isFrameAvailable g = (s.isFrameAvailable g && g != frame)) ∧
      (∀ pages start, 0 < pages → IsLeast (s.Runs pages) start →
        ∃ next, s.allocateContiguousFrames pages = (.ok (start * 4096), next) ∧
          ∀ g, next.isFrameAvailable g = (s.isFrameAvailable g && !(decide (start ≤ g) && decide (g < start + pages)))) ∧
      (∀ pages, (∀ start, lowMemSkipFrames ≤ start → ¬s.Run pages start) →
        s.allocateContiguousFrames pages = (.error .frameAllocationFailed, s)) ∧
      s.allocateContiguousFrames 0 = (.error .frameAllocationFailed, s) ∧
      (∀ physAddr g, (s.freeFrame physAddr).isFrameAvailable g =
        (s.isFrameAvailable g || (g == physAddr / 4096 && decide (g < s.totalFrames)))) ∧
      (∀ frame g, (s.deallocate frame).isFrameAvailable g =
        (s.isFrameAvailable g || (g == frame.startAddress / 4096 && decide (g < s.totalFrames)))) ∧
      s.availableFrames = {frame | s.isFrameAvailable frame = true}.ncard ∧
      (∀ frame next, s.allocate = (.ok frame, next) →
        ∃ frameIdx, frame = ⟨frameIdx * 4096⟩ ∧ 1 ≤ frameIdx ∧ frameIdx < s.totalFrames) ∧
      (∀ frame next, s.allocateFrame = (some frame, next) →
        ∃ frameIdx, frame = ⟨frameIdx * 4096⟩ ∧ 1 ≤ frameIdx ∧ frameIdx < s.totalFrames) ∧
      (∀ pages addr next, s.allocateContiguousFrames pages = (.ok addr, next) →
        ∃ start, addr = start * 4096 ∧ lowMemSkipFrames ≤ start ∧ start + pages ≤ s.totalFrames) ∧
      (∀ cr3Addr frame next, s.allocateFrameLow cr3Addr = (some frame, next) →
        ∃ frameIdx, frame = ⟨frameIdx * 4096⟩ ∧ 1 ≤ frameIdx ∧ frameIdx < s.totalFrames) := by
  refine ⟨fun memoryMap aligned fits frame => isFrameAvailable_initWithMemoryMap memoryMap aligned fits frame, fun s => ?_⟩
  refine ⟨fun frame least => ⟨allocate_of_isLeast least, allocateFrame_of_isLeast least⟩,
    fun exhausted => ⟨allocate_of_forall exhausted, allocateFrame_of_forall exhausted⟩,
    s.isFrameAvailable_setFrameUsed_true,
    fun pages start positive least => ⟨_, allocateContiguousFrames_of_isLeast positive least,
      s.isFrameAvailable_foldl_setFrameUsed_range start pages⟩,
    fun pages none_free => allocateContiguousFrames_of_forall none_free, s.allocateContiguousFrames_zero,
    s.isFrameAvailable_freeFrame, s.isFrameAvailable_deallocate, s.availableFrames_eq, ?_, ?_, ?_, ?_⟩
  · intro frame next allocated
    obtain ⟨frameIdx, ⟨⟨positive, available⟩, -⟩, rfl, -⟩ := allocate_eq_ok allocated
    exact ⟨frameIdx, rfl, positive, lt_of_isFrameAvailable available⟩
  · intro frame next allocated
    obtain ⟨frameIdx, ⟨⟨positive, available⟩, -⟩, rfl, -⟩ := allocateFrame_eq_some allocated
    exact ⟨frameIdx, rfl, positive, lt_of_isFrameAvailable available⟩
  · intro pages addr next allocated
    obtain ⟨start, ⟨⟨low, run⟩, -⟩, positive, rfl, -⟩ := allocateContiguousFrames_eq_ok allocated
    -- the run's last frame is available, so below `total_frames`
    have last := lt_of_isFrameAvailable (run (start + pages - 1) (by omega) (by omega))
    exact ⟨start, rfl, low, by omega⟩
  · intro cr3Addr frame next allocated
    obtain ⟨frameIdx, ⟨⟨positive, -, -, available⟩, -⟩, rfl, -⟩ := allocateFrameLow_eq_some allocated
    exact ⟨frameIdx, rfl, positive, lt_of_isFrameAvailable available⟩

/-- Conventional memory of two pages at 8 KiB and loader code of one page at 16 KiB, both on
4 KiB boundaries. -/
def alignedMap : List EfiMemoryDescriptor := [⟨.efiConventionalMemory, 0x2000, 2⟩, ⟨.efiLoaderCode, 0x4000, 1⟩]

open MemoryDescriptorValidator in
/-- On the aligned map the bitmap `init_with_memory_map` builds is the set of frames of the
conventional-memory descriptor: frame 2 is free and frame 4, of the loader code, is not; and a
request for no page fails there. -/
theorem frame_bitmap_aligned_map :
    (∀ desc ∈ alignedMap, (getPhysicalStart desc).toNat % 4096 = 0) ∧
      (∀ desc ∈ alignedMap, (getPhysicalStart desc).toNat + (getPageCount desc).toNat * 4096 < 2 ^ 64) ∧
      (∀ frame, (initWithMemoryMap alignedMap).isFrameAvailable frame = true ↔
        frame < (initWithMemoryMap alignedMap).totalFrames ∧
          ∃ desc ∈ alignedMap, getType desc = efiConventionalMemory ∧ LiesIn desc frame) ∧
      (initWithMemoryMap alignedMap).isFrameAvailable 2 = true ∧
      (initWithMemoryMap alignedMap).isFrameAvailable 4 = false ∧
      (initWithMemoryMap alignedMap).allocateContiguousFrames 0 =
        (.error .frameAllocationFailed, initWithMemoryMap alignedMap) := by
  have aligned : ∀ desc ∈ alignedMap, (getPhysicalStart desc).toNat % 4096 = 0 := by decide
  have fits : ∀ desc ∈ alignedMap, (getPhysicalStart desc).toNat + (getPageCount desc).toNat * 4096 < 2 ^ 64 := by
    decide
  obtain ⟨initialized, allocator⟩ := frame_bitmap_is_free_frame_set
  exact ⟨aligned, fits, initialized alignedMap aligned fits, by decide, by decide,
    (allocator (initWithMemoryMap alignedMap)).2.2.2.2.2.1⟩

end BitmapFrameAllocator

end Fullerene.Petroleum
