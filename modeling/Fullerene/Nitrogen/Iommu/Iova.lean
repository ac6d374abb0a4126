import Mathlib
import Fullerene.Lib.Machine

/-!
# The IOVA allocator of the IOMMU engine

`IovaAllocator` hands out the I/O virtual address ranges of DMA mappings.  Its
state is a list of free intervals `start ..= end`; `new` frees `[4096, 2^bits)`
for the host address width clamped to `12 ..= 39` bits.  `alloc` rounds the
size up to whole pages and carves the range from the front of the
lowest-starting free interval with room; `free` appends the range, sorts the
intervals by start and merges those that overlap or touch.

Kept separated by gaps, page aligned and inside the window (`WellFormed`), the
list stands for a set of addresses (`freeSet`).  `alloc` takes its range out of
that set at the lowest address where the range fits (`alloc_lowest`), and `free`
puts a range back (`freeSet_free`).  Over every run in which each `free` names
a range that `alloc` handed out and that is still out, the free set and the
ranges out partition the window (`IovaSystem.reachable_partition`): no address
is handed out twice and none is lost.

Addresses and sizes are `u64` and `usize` values, natural numbers here; the
sums that can wrap are taken modulo `2 ^ 64`.
-/

namespace Fullerene.Nitrogen.Iommu

/-- `IovaInterval`: the free addresses `start ..= end` (`last` is the source's `end`). -/
structure IovaInterval where
  start : Nat
  last : Nat
  deriving DecidableEq, Repr

namespace IovaInterval

/-- The addresses of the interval. -/
def addrs (iv : IovaInterval) : Set Nat := Set.Icc iv.start iv.last

/-- `iv.end - iv.start + 1`, in `u64`, wrapping as a release build does.  A dev build checks the
arithmetic and panics on an empty interval; a well-formed free list holds none
(`WellFormed.nonempty`), and on `start ≤ last` nothing wraps, so on the free lists a run reaches
the two builds agree. -/
def avail (iv : IovaInterval) : Nat := (iv.last + 2 ^ 64 + 1 - iv.start) % 2 ^ 64

@[simp]
theorem mem_addrs {iv : IovaInterval} {addr : Nat} : addr ∈ iv.addrs ↔ iv.start ≤ addr ∧ addr ≤ iv.last :=
  Iff.rfl

/-- Without wrapping, the room of a nonempty interval is its length. -/
theorem avail_eq {iv : IovaInterval} (nonempty : iv.start ≤ iv.last) (small : iv.last < 2 ^ 64 - 1) :
    iv.avail = iv.last + 1 - iv.start := by
  unfold avail
  rw [show iv.last + 2 ^ 64 + 1 - iv.start = (iv.last + 1 - iv.start) + 2 ^ 64 by omega, Nat.add_mod_right,
    Nat.mod_eq_of_lt (by omega)]

end IovaInterval

/-- `(size + 4095) & !4095` on a `usize`: the size rounded up to whole pages, wrapping as a release
build does.  A dev build panics on the addition for a size above `2 ^ 64 - 4096`, where this wraps
to a small multiple of 4096; unlike the checked arithmetic elsewhere in the project, that overflow
is not modelled as a panic, and the results about `alloc`, `free`, `dma_map` and `dma_unmap` hold
of the wrapped value. -/
def alignUp (size : Nat) : Nat := (size + 4095) % 2 ^ 64 / 4096 * 4096

theorem alignUp_mod (size : Nat) : alignUp size % 4096 = 0 := by
  unfold alignUp
  exact Nat.mul_mod_left _ _

/-- `IovaAllocator`: the free intervals (the source's field `free`). -/
structure IovaAllocator where
  freeList : List IovaInterval
  deriving DecidableEq, Repr

namespace IovaAllocator

/-- `IovaAllocator::new`: the window `[4096, 2^bits)` for `bits = iova_bits.clamp(12, 39)`. -/
def new (iovaBits : Nat) : IovaAllocator :=
  let bits := max 12 (min iovaBits 39)
  ⟨[⟨2 ^ 12, 2 ^ bits - 1⟩]⟩

/-- One pass of the search loop of `alloc` over `(interval, index)`: keep the lowest-starting
interval with room for `need`, with its index.  The candidate keeps its interval, which is
what `self.free[idx]` reads after the loop. -/
def fitStep (need : Nat) (best : Option (Nat × IovaInterval)) (entry : IovaInterval × Nat) :
    Option (Nat × IovaInterval) :=
  if need ≤ entry.1.avail then
    match best with
    | some found => if entry.1.start < found.2.start then some (entry.2, entry.1) else best
    | none => some (entry.2, entry.1)
  else best

/-- The search loop of `alloc`. -/
def bestFit (need : Nat) (free : List IovaInterval) : Option (Nat × IovaInterval) :=
  free.zipIdx.foldl (fitStep need) none

/-- `IovaAllocator::alloc`: the start of the range, and the allocator after it. -/
def alloc (allocator : IovaAllocator) (size : Nat) : Option Nat × IovaAllocator :=
  let need := alignUp size
  if need = 0 then (none, allocator)
  else
    match bestFit need allocator.freeList with
    | none => (none, allocator)
    | some (idx, iv) =>
        let start := iv.start + need
        if start > iv.last then (some iv.start, ⟨allocator.freeList.eraseIdx idx⟩)
        else (some iv.start, ⟨allocator.freeList.set idx ⟨start, iv.last⟩⟩)

/-- `last.end.saturating_add(1)` on a `u64`. -/
def saturatingSucc (n : Nat) : Nat := min (n + 1) (2 ^ 64 - 1)

/-- One pass of the merge loop of `free`, with `merged` newest first: its head is
`merged.last_mut()`. -/
def mergeStep (merged : List IovaInterval) (iv : IovaInterval) : List IovaInterval :=
  match merged with
  | last :: rest =>
      if iv.start ≤ saturatingSucc last.last then ⟨last.start, max last.last iv.last⟩ :: rest
      else iv :: merged
  | [] => [iv]

/-- `IovaAllocator::free`: `sort_by_key` is a stable sort, as `mergeSort` is. -/
def free (allocator : IovaAllocator) (addr size : Nat) : IovaAllocator :=
  let aligned := alignUp size
  if aligned = 0 then allocator
  else
    let intervals := allocator.freeList ++ [⟨addr, (addr + aligned - 1) % 2 ^ 64⟩]
    let sorted := intervals.mergeSort fun a b => a.start ≤ b.start
    ⟨(sorted.foldl mergeStep []).reverse⟩

end IovaAllocator

/-! ## The free set -/

/-- The addresses of a list of intervals. -/
def freeSet (free : List IovaInterval) : Set Nat := {addr | ∃ iv ∈ free, addr ∈ iv.addrs}

@[simp]
theorem mem_freeSet {free : List IovaInterval} {addr : Nat} :
    addr ∈ freeSet free ↔ ∃ iv ∈ free, iv.start ≤ addr ∧ addr ≤ iv.last :=
  Iff.rfl

theorem freeSet_append (front back : List IovaInterval) :
    freeSet (front ++ back) = freeSet front ∪ freeSet back := by
  ext addr
  simp only [mem_freeSet, List.mem_append, Set.mem_union]
  constructor
  · rintro ⟨iv, member | member, inside⟩
    · exact .inl ⟨iv, member, inside⟩
    · exact .inr ⟨iv, member, inside⟩
  · rintro (⟨iv, member, inside⟩ | ⟨iv, member, inside⟩)
    · exact ⟨iv, .inl member, inside⟩
    · exact ⟨iv, .inr member, inside⟩

theorem freeSet_cons (iv : IovaInterval) (rest : List IovaInterval) :
    freeSet (iv :: rest) = iv.addrs ∪ freeSet rest := by
  ext addr
  simp only [mem_freeSet, List.mem_cons, Set.mem_union, IovaInterval.mem_addrs]
  constructor
  · rintro ⟨other, rfl | member, inside⟩
    · exact .inl inside
    · exact .inr ⟨other, member, inside⟩
  · rintro (inside | ⟨other, member, inside⟩)
    · exact ⟨iv, .inl rfl, inside⟩
    · exact ⟨other, .inr member, inside⟩

@[simp]
theorem freeSet_nil : freeSet [] = ∅ := by
  ext addr
  simp

theorem freeSet_perm {free other : List IovaInterval} (perm : free.Perm other) :
    freeSet free = freeSet other := by
  ext addr
  simp only [mem_freeSet, perm.mem_iff]

theorem freeSet_reverse (free : List IovaInterval) : freeSet free.reverse = freeSet free :=
  freeSet_perm (List.reverse_perm free)

/-- What the allocator keeps of its free list: nonempty intervals of whole pages inside
`[4096, limit)`, sorted by start with a gap between neighbours. -/
structure WellFormed (limit : Nat) (free : List IovaInterval) : Prop where
  separated : free.Pairwise fun earlier later => earlier.last + 1 < later.start
  nonempty : ∀ iv ∈ free, iv.start ≤ iv.last
  aligned : ∀ iv ∈ free, iv.start % 4096 = 0 ∧ (iv.last + 1) % 4096 = 0
  inside : ∀ iv ∈ free, 4096 ≤ iv.start ∧ iv.last < limit

theorem WellFormed.subset_window {limit : Nat} {free : List IovaInterval} (formed : WellFormed limit free)
    {addr : Nat} (member : addr ∈ freeSet free) : 4096 ≤ addr ∧ addr < limit := by
  obtain ⟨iv, listed, low, high⟩ := member
  have bounds := formed.inside iv listed
  omega

/-- The window of the widths `13 ..= 39` is one nonempty interval. -/
theorem new_wellFormed {iovaBits : Nat} (wide : 12 < iovaBits) :
    WellFormed (2 ^ max 12 (min iovaBits 39)) (IovaAllocator.new iovaBits).freeList := by
  have atLeast : 2 ^ 13 ≤ 2 ^ max 12 (min iovaBits 39) := Nat.pow_le_pow_right (by decide) (by omega)
  have pageMultiple : 2 ^ max 12 (min iovaBits 39) % 2 ^ 12 = 0 :=
    Nat.mod_eq_zero_of_dvd (Nat.pow_dvd_pow 2 (by omega))
  refine ⟨List.pairwise_singleton _ _, ?_, ?_, ?_⟩
  all_goals
    intro iv member
    rw [IovaAllocator.new, List.mem_singleton] at member
    subst member
  · dsimp only
    omega
  · dsimp only
    refine ⟨rfl, ?_⟩
    rw [Nat.sub_add_cancel (by omega)]
    exact pageMultiple
  · dsimp only
    omega

theorem freeSet_new (iovaBits : Nat) :
    freeSet (IovaAllocator.new iovaBits).freeList = Set.Ico 4096 (2 ^ max 12 (min iovaBits 39)) := by
  ext addr
  have positive : 0 < 2 ^ max 12 (min iovaBits 39) := Nat.two_pow_pos _
  simp only [IovaAllocator.new, mem_freeSet, List.mem_singleton, exists_eq_left, Set.mem_Ico]
  omega

/-! ## The search of `alloc` -/

namespace IovaAllocator

section Search

variable {need : Nat}

/-- One pass of the search: it ends with no candidate only when it had none and the interval has
no room; it keeps its candidate or takes the interval, which has room; it never moves to a later
start; and an interval with room leaves a candidate that starts no later. -/
theorem fitStep_spec (best : Option (Nat × IovaInterval)) (iv : IovaInterval) (index : Nat) :
    (fitStep need best (iv, index) = none → best = none ∧ iv.avail < need) ∧
    (∀ found, fitStep need best (iv, index) = some found →
      (best = some found ∨ found = (index, iv) ∧ need ≤ iv.avail) ∧
      (∀ previous, best = some previous → found.2.start ≤ previous.2.start) ∧
      (need ≤ iv.avail → found.2.start ≤ iv.start)) := by
  unfold fitStep
  by_cases room : need ≤ iv.avail
  · rw [if_pos room]
    cases best with
    | none =>
        dsimp only
        refine ⟨nofun, ?_⟩
        rintro found ⟨⟩
        exact ⟨.inr ⟨rfl, room⟩, fun _ => nofun, fun _ => le_refl _⟩
    | some candidate =>
        dsimp only
        by_cases earlier : iv.start < candidate.2.start
        · rw [if_pos earlier]
          refine ⟨nofun, ?_⟩
          rintro found ⟨⟩
          refine ⟨.inr ⟨rfl, room⟩, ?_, fun _ => le_refl _⟩
          rintro previous ⟨⟩
          exact earlier.le
        · rw [if_neg earlier]
          refine ⟨nofun, ?_⟩
          rintro found ⟨⟩
          refine ⟨.inl rfl, fun previous same => ?_, fun _ => by omega⟩
          cases same
          exact le_refl _
  · rw [if_neg room]
    refine ⟨fun stuck => ⟨stuck, by omega⟩, ?_⟩
    intro found same
    subst same
    exact ⟨.inl rfl, fun previous same => by cases same; exact le_refl _, fun fits => absurd fits room⟩

/-- The search loop from index `index` on: its result is the candidate it started with or an
interval of the list with room, at its index, and starts no later than that candidate and than
every interval of the list with room. -/
theorem foldl_fitStep_spec :
    ∀ (free : List IovaInterval) (index : Nat) (best : Option (Nat × IovaInterval)),
      ((free.zipIdx index).foldl (fitStep need) best = none → best = none ∧ ∀ iv ∈ free, iv.avail < need) ∧
      ∀ found, (free.zipIdx index).foldl (fitStep need) best = some found →
        (best = some found ∨ ∃ front back, free = front ++ found.2 :: back ∧ found.1 = index + front.length ∧
          need ≤ found.2.avail) ∧
        (∀ previous, best = some previous → found.2.start ≤ previous.2.start) ∧
        ∀ iv ∈ free, need ≤ iv.avail → found.2.start ≤ iv.start
  | [], index, best => by
      refine ⟨fun stuck => ⟨stuck, fun _ absent => by cases absent⟩, ?_⟩
      intro found same
      refine ⟨.inl same, fun previous earlier => ?_, fun _ absent => by cases absent⟩
      rw [List.zipIdx_nil, List.foldl_nil, earlier] at same
      cases same
      exact le_refl _
  | iv :: rest, index, best => by
      obtain ⟨stuckHere, foundHere⟩ := @fitStep_spec need best iv index
      obtain ⟨stuckRest, foundRest⟩ := foldl_fitStep_spec rest (index + 1) (fitStep need best (iv, index))
      rw [List.zipIdx_cons, List.foldl_cons]
      constructor
      · intro stuck
        obtain ⟨none_, roomless⟩ := stuckRest stuck
        obtain ⟨start, small⟩ := stuckHere none_
        refine ⟨start, fun other member => ?_⟩
        rcases List.mem_cons.mp member with same | later
        · rw [same]
          exact small
        · exact roomless other later
      · intro found result
        obtain ⟨origin, belowCandidate, belowRest⟩ := foundRest found result
        -- the candidate after this pass bounds the result, and this pass bounds the candidate
        have fromHere : ∀ candidate, fitStep need best (iv, index) = some candidate →
            found.2.start ≤ candidate.2.start := fun candidate same => belowCandidate candidate same
        refine ⟨?_, fun previous earlier => ?_, fun other member fits => ?_⟩
        · rcases origin with same | ⟨front, back, split, position, fits⟩
          · rcases (foundHere found same).1 with kept | ⟨rfl, fits⟩
            · exact .inl kept
            · exact .inr ⟨[], rest, rfl, rfl, fits⟩
          · refine .inr ⟨iv :: front, back, by rw [split]; rfl, ?_, fits⟩
            rw [position, List.length_cons]
            omega
        · cases candidate : fitStep need best (iv, index) with
          | none => exact absurd earlier (by rw [(stuckHere candidate).1]; simp)
          | some candidate' =>
              exact le_trans (fromHere candidate' candidate) ((foundHere candidate' candidate).2.1 previous earlier)
        · rcases List.mem_cons.mp member with same | later
          · rw [same] at fits ⊢
            cases candidate : fitStep need best (iv, index) with
            | none => exact absurd fits (by have := (stuckHere candidate).2; omega)
            | some candidate' =>
                exact le_trans (fromHere candidate' candidate) ((foundHere candidate' candidate).2.2 fits)
          · exact belowRest other later fits

/-- The search finds nothing exactly when no interval has room. -/
theorem bestFit_eq_none {free : List IovaInterval} (stuck : bestFit need free = none) :
    ∀ iv ∈ free, iv.avail < need :=
  ((foldl_fitStep_spec free 0 none).1 stuck).2

/-- What the search finds is an interval with room, at its index, and no interval with room
starts before it. -/
theorem bestFit_eq_some {free : List IovaInterval} {index : Nat} {iv : IovaInterval}
    (found : bestFit need free = some (index, iv)) :
    (∃ front back, free = front ++ iv :: back ∧ index = front.length) ∧ need ≤ iv.avail ∧
      ∀ other ∈ free, need ≤ other.avail → iv.start ≤ other.start := by
  obtain ⟨origin, -, lowest⟩ := (foldl_fitStep_spec free 0 none).2 (index, iv) found
  rcases origin with stuck | ⟨front, back, split, position, fits⟩
  · cases stuck
  · dsimp only at split position fits lowest
    exact ⟨⟨front, back, split, by rw [position, Nat.zero_add]⟩, fits, lowest⟩

end Search

end IovaAllocator

/-! ## Well-formed free lists -/

section WellFormed

variable {limit : Nat}

/-- Two intervals with a gap between them, in either order. -/
def Apart (iv other : IovaInterval) : Prop := iv.last + 1 < other.start ∨ other.last + 1 < iv.start

/-- Any two different intervals of a list sorted with gaps are apart. -/
theorem apart_of_separated :
    ∀ {free : List IovaInterval}, free.Pairwise (fun earlier later => earlier.last + 1 < later.start) →
      ∀ iv ∈ free, ∀ other ∈ free, iv ≠ other → Apart iv other
  | [], _ => fun _ absent => by cases absent
  | first :: rest, separated => by
      rw [List.pairwise_cons] at separated
      intro iv member other member' different
      rcases List.mem_cons.mp member with rfl | later <;> rcases List.mem_cons.mp member' with rfl | later'
      · exact absurd rfl different
      · exact .inl (separated.1 other later')
      · exact .inr (separated.1 iv later)
      · exact apart_of_separated separated.2 iv later other later' different

theorem WellFormed.apart {free : List IovaInterval} (formed : WellFormed limit free) :
    ∀ iv ∈ free, ∀ other ∈ free, iv ≠ other → Apart iv other :=
  apart_of_separated formed.separated

theorem WellFormed.sublist {free other : List IovaInterval} (formed : WellFormed limit free)
    (sub : other.Sublist free) : WellFormed limit other where
  separated := formed.separated.sublist sub
  nonempty iv member := formed.nonempty iv (sub.subset member)
  aligned iv member := formed.aligned iv (sub.subset member)
  inside iv member := formed.inside iv (sub.subset member)

/-- The neighbours of an interval of a well-formed list end before it starts, or start after it
ends. -/
theorem WellFormed.around {front back : List IovaInterval} {iv : IovaInterval}
    (formed : WellFormed limit (front ++ iv :: back)) :
    (∀ other ∈ front, other.last + 1 < iv.start) ∧ ∀ other ∈ back, iv.last + 1 < other.start := by
  have separated := formed.separated
  rw [List.pairwise_append, List.pairwise_cons] at separated
  exact ⟨fun other member => separated.2.2 other member iv List.mem_cons_self,
    fun other member => separated.2.1.1 other member⟩

/-- Moving the start of an interval of a well-formed list up by whole pages, short of its end,
keeps the list well formed. -/
theorem WellFormed.raise {front back : List IovaInterval} {iv : IovaInterval} {start : Nat}
    (formed : WellFormed limit (front ++ iv :: back)) (up : iv.start ≤ start) (short : start ≤ iv.last)
    (page : start % 4096 = 0) : WellFormed limit (front ++ ⟨start, iv.last⟩ :: back) := by
  obtain ⟨before, after⟩ := formed.around
  have kept : ∀ other ∈ front ++ back, other ∈ front ++ iv :: back := by
    intro other member
    rcases List.mem_append.mp member with early | late
    · exact List.mem_append_left _ early
    · exact List.mem_append_right _ (List.mem_cons_of_mem _ late)
  have this : iv ∈ front ++ iv :: back := List.mem_append_right _ List.mem_cons_self
  -- every property of the new interval comes from the old one
  refine ⟨?_, ?_, ?_, ?_⟩
  · have separated := formed.separated
    rw [List.pairwise_append, List.pairwise_cons] at separated ⊢
    refine ⟨separated.1, ⟨fun other member => after other member, separated.2.1.2⟩, ?_⟩
    intro other member other' member'
    rcases List.mem_cons.mp member' with rfl | late
    · have := before other member
      dsimp only
      omega
    · exact separated.2.2 other member other' (List.mem_cons_of_mem _ late)
  all_goals
    intro other member
    rcases List.mem_append.mp member with early | late
    · first
        | exact formed.nonempty other (List.mem_append_left _ early)
        | exact formed.aligned other (List.mem_append_left _ early)
        | exact formed.inside other (List.mem_append_left _ early)
    rcases List.mem_cons.mp late with rfl | later
    · first
        | exact short
        | exact ⟨page, (formed.aligned iv this).2⟩
        | exact ⟨le_trans (formed.inside iv this).1 up, (formed.inside iv this).2⟩
    · first
        | exact formed.nonempty other (kept other (List.mem_append_right _ later))
        | exact formed.aligned other (kept other (List.mem_append_right _ later))
        | exact formed.inside other (kept other (List.mem_append_right _ later))

theorem lt_of_mem_freeSet {free : List IovaInterval} {bound addr : Nat}
    (below : ∀ iv ∈ free, iv.last + 1 < bound) (member : addr ∈ freeSet free) : addr + 1 < bound := by
  obtain ⟨iv, listed, -, high⟩ := member
  have := below iv listed
  omega

theorem gt_of_mem_freeSet {free : List IovaInterval} {bound addr : Nat}
    (above : ∀ iv ∈ free, bound + 1 < iv.start) (member : addr ∈ freeSet free) : bound + 1 < addr := by
  obtain ⟨iv, listed, low, -⟩ := member
  have := above iv listed
  omega

/-- In a well-formed list a run of free addresses lies inside one interval: the address after an
interval is never free. -/
theorem WellFormed.run_inside {free : List IovaInterval} (formed : WellFormed limit free) {other need : Nat}
    (positive : 0 < need) (fits : Set.Ico other (other + need) ⊆ freeSet free) :
    ∃ iv ∈ free, iv.start ≤ other ∧ other + need ≤ iv.last + 1 := by
  obtain ⟨iv, listed, low, high⟩ := fits ⟨le_refl other, by omega⟩
  refine ⟨iv, listed, low, ?_⟩
  by_contra short
  -- the address just after `iv` would be free, in some interval apart from `iv`
  obtain ⟨next, listedNext, lowNext, highNext⟩ := fits (show iv.last + 1 ∈ Set.Ico other (other + need) from
    ⟨by omega, by omega⟩)
  have different : iv ≠ next := by
    rintro rfl
    omega
  rcases formed.apart iv listed next listedNext different with gap | gap <;> omega

end WellFormed

/-! ## `alloc` -/

namespace IovaAllocator

variable {limit : Nat} {allocator allocator' : IovaAllocator} {size addr : Nat}

/-- A failed `alloc` leaves the allocator as it was. -/
theorem alloc_none (failed : (allocator.alloc size).1 = none) : (allocator.alloc size).2 = allocator := by
  unfold alloc at failed ⊢
  dsimp only at failed ⊢
  by_cases zero : alignUp size = 0
  · rw [if_pos zero]
  rw [if_neg zero] at failed ⊢
  cases found : bestFit (alignUp size) allocator.freeList with
  | none => rfl
  | some candidate =>
      -- a search that finds an interval always hands out its start
      rw [found] at failed
      dsimp only at failed
      split_ifs at failed

/-- The interval `alloc` carves from, where it lies in the list, and what the list becomes. -/
theorem alloc_some_cases (allocated : allocator.alloc size = (some addr, allocator')) :
    0 < alignUp size ∧ ∃ front back iv, allocator.freeList = front ++ iv :: back ∧ addr = iv.start ∧
      alignUp size ≤ iv.avail ∧ (∀ other ∈ allocator.freeList, alignUp size ≤ other.avail → iv.start ≤ other.start) ∧
      (iv.last < iv.start + alignUp size ∧ allocator'.freeList = front ++ back ∨
        iv.start + alignUp size ≤ iv.last ∧ allocator'.freeList = front ++ ⟨iv.start + alignUp size, iv.last⟩ :: back) := by
  unfold alloc at allocated
  dsimp only at allocated
  by_cases zero : alignUp size = 0
  · rw [if_pos zero] at allocated
    cases allocated
  rw [if_neg zero] at allocated
  refine ⟨Nat.pos_of_ne_zero zero, ?_⟩
  cases found : bestFit (alignUp size) allocator.freeList with
  | none =>
      rw [found] at allocated
      cases allocated
  | some candidate =>
      obtain ⟨index, iv⟩ := candidate
      rw [found] at allocated
      dsimp only at allocated
      obtain ⟨⟨front, back, split, position⟩, fits, lowest⟩ := bestFit_eq_some found
      refine ⟨front, back, iv, split, ?_, fits, lowest, ?_⟩
      · split_ifs at allocated <;> cases allocated <;> rfl
      · split_ifs at allocated with past
        · cases allocated
          refine .inl ⟨past, ?_⟩
          rw [split, position, List.eraseIdx_append_of_length_le (le_refl _), Nat.sub_self, List.eraseIdx_cons_zero]
        · cases allocated
          refine .inr ⟨by omega, ?_⟩
          rw [split, position, List.set_append_right _ _ (le_refl _), Nat.sub_self, List.set_cons_zero]

/-- What `alloc` hands out from a well-formed free list: a range of whole pages inside the
window, all of it free, and the free set loses exactly that range while the list stays well
formed. -/
theorem alloc_some (small : limit ≤ 2 ^ 39) (formed : WellFormed limit allocator.freeList)
    (allocated : allocator.alloc size = (some addr, allocator')) :
    0 < alignUp size ∧ addr % 4096 = 0 ∧ 4096 ≤ addr ∧ addr + alignUp size ≤ limit ∧
      Set.Ico addr (addr + alignUp size) ⊆ freeSet allocator.freeList ∧
      freeSet allocator'.freeList = freeSet allocator.freeList \ Set.Ico addr (addr + alignUp size) ∧
      WellFormed limit allocator'.freeList := by
  obtain ⟨positive, front, back, iv, split, rfl, fits, -, rest⟩ := alloc_some_cases allocated
  rw [split] at formed ⊢
  have this : iv ∈ front ++ iv :: back := List.mem_append_right _ List.mem_cons_self
  have nonempty := formed.nonempty iv this
  have aligned := formed.aligned iv this
  have inside := formed.inside iv this
  obtain ⟨before, after⟩ := formed.around
  rw [IovaInterval.avail_eq nonempty (by omega)] at fits
  have page := alignUp_mod size
  refine ⟨positive, aligned.1, inside.1, by omega, ?_, ?_, ?_⟩
  · intro other member
    rw [freeSet_append, freeSet_cons]
    exact .inr (.inl ⟨member.1, by have := member.2; omega⟩)
  · -- the neighbours lie below and above the range, so only `iv` loses addresses
    ext other
    have below : other ∈ freeSet front → other + 1 < iv.start := fun member => lt_of_mem_freeSet before member
    have above : other ∈ freeSet back → iv.last + 1 < other := fun member => gt_of_mem_freeSet after member
    rcases rest with ⟨past, remaining⟩ | ⟨short, remaining⟩
    all_goals
      rw [remaining]
      simp only [freeSet_append, freeSet_cons, Set.mem_union, Set.mem_sdiff, Set.mem_Ico,
        IovaInterval.mem_addrs]
    · constructor
      · rintro (early | late)
        · have := below early
          exact ⟨.inl early, by omega⟩
        · have := above late
          exact ⟨.inr (.inr late), by omega⟩
      · rintro ⟨early | ⟨low, high⟩ | late, outside⟩
        · exact .inl early
        · omega
        · exact .inr late
    · constructor
      · rintro (early | ⟨low, high⟩ | late)
        · have := below early
          exact ⟨.inl early, by omega⟩
        · exact ⟨.inr (.inl ⟨by omega, high⟩), by omega⟩
        · have := above late
          exact ⟨.inr (.inr late), by omega⟩
      · rintro ⟨early | ⟨low, high⟩ | late, outside⟩
        · exact .inl early
        · exact .inr (.inl ⟨by omega, high⟩)
        · exact .inr (.inr late)
  · rcases rest with ⟨-, remaining⟩ | ⟨short, remaining⟩
    · rw [remaining]
      exact formed.sublist ((List.Sublist.refl front).append (List.sublist_cons_self iv back))
    · rw [remaining]
      exact formed.raise (by omega) short (by omega)

/-- `alloc` hands out a start exactly when some run of `alignUp size` free bytes exists, and the
start it hands out is the lowest start of such a run. -/
theorem alloc_eq_some_iff_isLeast (small : limit ≤ 2 ^ 39) (formed : WellFormed limit allocator.freeList)
    (positive : 0 < alignUp size) (addr : Nat) :
    (allocator.alloc size).1 = some addr ↔
      IsLeast {other | Set.Ico other (other + alignUp size) ⊆ freeSet allocator.freeList} addr := by
  -- an interval with room starts no later than any run that fits, and the search finds one
  have lowest : ∀ {found : Nat}, (allocator.alloc size).1 = some found →
      ∀ other ∈ {other | Set.Ico other (other + alignUp size) ⊆ freeSet allocator.freeList}, found ≤ other := by
    intro found allocated other fits
    have pair : allocator.alloc size = (some found, (allocator.alloc size).2) := by rw [← allocated]
    obtain ⟨-, front, back, iv, split, rfl, -, first, -⟩ := alloc_some_cases pair
    obtain ⟨iv', listed, low, high⟩ := formed.run_inside positive fits
    have nonempty := formed.nonempty iv' listed
    have bounded := (formed.inside iv' listed).2
    exact le_trans (first iv' listed (by rw [IovaInterval.avail_eq nonempty (by omega)]; omega)) low
  have found : ∀ {other : Nat}, Set.Ico other (other + alignUp size) ⊆ freeSet allocator.freeList →
      ∃ start, (allocator.alloc size).1 = some start := by
    intro other fits
    obtain ⟨iv', listed, low, high⟩ := formed.run_inside positive fits
    have nonempty := formed.nonempty iv' listed
    have bounded := (formed.inside iv' listed).2
    have room : alignUp size ≤ iv'.avail := by rw [IovaInterval.avail_eq nonempty (by omega)]; omega
    unfold alloc
    dsimp only
    rw [if_neg (by omega)]
    cases search : bestFit (alignUp size) allocator.freeList with
    | none => exact absurd room (by have := bestFit_eq_none search iv' listed; omega)
    | some candidate =>
        dsimp only
        split_ifs
        · exact ⟨_, rfl⟩
        · exact ⟨_, rfl⟩
  constructor
  · intro allocated
    have pair : allocator.alloc size = (some addr, (allocator.alloc size).2) := by rw [← allocated]
    exact ⟨(alloc_some small formed pair).2.2.2.2.1, lowest allocated⟩
  · intro least
    obtain ⟨start, allocated⟩ := found least.1
    have pair : allocator.alloc size = (some start, (allocator.alloc size).2) := by rw [← allocated]
    have atLeast : start ∈ {other | Set.Ico other (other + alignUp size) ⊆ freeSet allocator.freeList} :=
      (alloc_some small formed pair).2.2.2.2.1
    rw [allocated, le_antisymm (lowest allocated addr least.1) (least.2 atLeast)]

/-- A free list with a one-page hole at 4096 below the rest of the window, as `free(4096, 4096)`
leaves it after `alloc(4096)` and `alloc(8192)`: `alloc(8192)` passes over the hole and returns
16384, the least address with two free pages. -/
theorem alloc_skips_one_page_hole :
    (⟨[⟨4096, 8191⟩, ⟨16384, 2 ^ 39 - 1⟩]⟩ : IovaAllocator).alloc 8192 =
        (some 16384, ⟨[⟨4096, 8191⟩, ⟨24576, 2 ^ 39 - 1⟩]⟩) ∧
      IsLeast {other | Set.Ico other (other + alignUp 8192) ⊆
        freeSet [⟨4096, 8191⟩, ⟨16384, 2 ^ 39 - 1⟩]} 16384 := by
  have formed : WellFormed (2 ^ 39) [⟨4096, 8191⟩, ⟨16384, 2 ^ 39 - 1⟩] :=
    ⟨by decide, by decide, by decide, by decide⟩
  have allocated : (⟨[⟨4096, 8191⟩, ⟨16384, 2 ^ 39 - 1⟩]⟩ : IovaAllocator).alloc 8192 =
      (some 16384, ⟨[⟨4096, 8191⟩, ⟨24576, 2 ^ 39 - 1⟩]⟩) := by
    decide
  refine ⟨allocated, (alloc_eq_some_iff_isLeast le_rfl formed (by decide) 16384).mp ?_⟩
  rw [allocated]

/-! ## `free` -/

/-- What the merge loop keeps of `merged`, newest first: an interval ends before the next newer
one starts, and every interval is nonempty, of whole pages and inside the window. -/
structure Merged (limit : Nat) (merged : List IovaInterval) : Prop where
  separated : merged.Pairwise fun later earlier => earlier.last + 1 < later.start
  nonempty : ∀ iv ∈ merged, iv.start ≤ iv.last
  aligned : ∀ iv ∈ merged, iv.start % 4096 = 0 ∧ (iv.last + 1) % 4096 = 0
  inside : ∀ iv ∈ merged, 4096 ≤ iv.start ∧ iv.last < limit

/-- An interval the merge loop may take: nonempty, of whole pages and inside the window. -/
structure Good (limit : Nat) (iv : IovaInterval) : Prop where
  nonempty : iv.start ≤ iv.last
  aligned : iv.start % 4096 = 0 ∧ (iv.last + 1) % 4096 = 0
  inside : 4096 ≤ iv.start ∧ iv.last < limit

theorem saturatingSucc_eq {n : Nat} (small : n < 2 ^ 39) : saturatingSucc n = n + 1 := by
  unfold saturatingSucc
  omega

/-- One pass of the merge loop, on an interval that starts no earlier than the newest merged
one: the merged intervals keep their form and gain exactly the interval's addresses. -/
theorem mergeStep_spec (small : limit ≤ 2 ^ 39) {merged : List IovaInterval} {iv : IovaInterval}
    (kept : Merged limit merged) (good : Good limit iv) (after : ∀ newest ∈ merged.head?, newest.start ≤ iv.start) :
    Merged limit (mergeStep merged iv) ∧ freeSet (mergeStep merged iv) = freeSet merged ∪ iv.addrs ∧
      ∀ newest ∈ (mergeStep merged iv).head?, newest.start ≤ iv.start := by
  cases merged with
  | nil =>
      refine ⟨⟨List.pairwise_singleton _ _, ?_, ?_, ?_⟩, ?_, ?_⟩
      · intro other member; rw [List.mem_singleton.mp member]; exact good.nonempty
      · intro other member; rw [List.mem_singleton.mp member]; exact good.aligned
      · intro other member; rw [List.mem_singleton.mp member]; exact good.inside
      · rw [mergeStep, freeSet_cons]
        ext addr
        simp [freeSet]
      · intro newest member
        cases Option.mem_some_iff.mp member
        exact le_refl _
  | cons newest rest =>
      have newestGood : Good limit newest :=
        ⟨kept.nonempty newest List.mem_cons_self, kept.aligned newest List.mem_cons_self,
          kept.inside newest List.mem_cons_self⟩
      have starts : newest.start ≤ iv.start := after newest rfl
      have separated := kept.separated
      rw [List.pairwise_cons] at separated
      have bounded : newest.last < 2 ^ 39 := by have := newestGood.inside.2; omega
      rw [mergeStep, saturatingSucc_eq bounded]
      split_ifs with touches
      · -- the interval overlaps or touches the newest one, which grows to cover both
        have grown : Good limit ⟨newest.start, max newest.last iv.last⟩ :=
          ⟨by have := newestGood.nonempty; dsimp only; omega,
            ⟨newestGood.aligned.1, by
              dsimp only
              rcases le_total newest.last iv.last with le | le
              · rw [max_eq_right le]; exact good.aligned.2
              · rw [max_eq_left le]; exact newestGood.aligned.2⟩,
            ⟨newestGood.inside.1, by have := newestGood.inside.2; have := good.inside.2; dsimp only; omega⟩⟩
        refine ⟨⟨?_, ?_, ?_, ?_⟩, ?_, fun other member => ?_⟩
        · rw [List.pairwise_cons]
          exact ⟨fun earlier member => separated.1 earlier member, separated.2⟩
        all_goals try
          intro other member
          rcases List.mem_cons.mp member with rfl | later
          · first | exact grown.nonempty | exact grown.aligned | exact grown.inside
          · first
              | exact kept.nonempty other (List.mem_cons_of_mem _ later)
              | exact kept.aligned other (List.mem_cons_of_mem _ later)
              | exact kept.inside other (List.mem_cons_of_mem _ later)
        · rw [freeSet_cons, freeSet_cons, Set.union_right_comm]
          congr 1
          ext addr
          simp only [IovaInterval.mem_addrs, Set.mem_union]
          have := good.nonempty
          omega
        · cases Option.mem_some_iff.mp member
          exact starts
      · -- a gap remains, and the interval becomes the newest one
        refine ⟨⟨?_, ?_, ?_, ?_⟩, ?_, fun other member => ?_⟩
        · rw [List.pairwise_cons, List.pairwise_cons]
          refine ⟨fun earlier member => ?_, separated.1, separated.2⟩
          rcases List.mem_cons.mp member with rfl | older
          · omega
          · have := separated.1 earlier older
            have := newestGood.nonempty
            omega
        all_goals try
          intro other member
          rcases List.mem_cons.mp member with rfl | older
          · first | exact good.nonempty | exact good.aligned | exact good.inside
          · first
              | exact kept.nonempty other older
              | exact kept.aligned other older
              | exact kept.inside other older
        · rw [freeSet_cons, Set.union_comm]
        · cases Option.mem_some_iff.mp member
          exact le_refl _

/-- The merge loop over intervals sorted by start, each starting no earlier than the newest merged
one: the merged list keeps its form and gains exactly their addresses. -/
theorem foldl_mergeStep_spec (small : limit ≤ 2 ^ 39) :
    ∀ {input merged : List IovaInterval}, input.Pairwise (fun a b => a.start ≤ b.start) →
      (∀ iv ∈ input, Good limit iv) → Merged limit merged →
      (∀ newest ∈ merged.head?, ∀ iv ∈ input, newest.start ≤ iv.start) →
      Merged limit (input.foldl mergeStep merged) ∧
        freeSet (input.foldl mergeStep merged) = freeSet merged ∪ freeSet input
  | [], merged, _, _, kept, _ => ⟨kept, by rw [List.foldl_nil]; ext addr; simp [freeSet]⟩
  | iv :: rest, merged, sorted, good, kept, after => by
      rw [List.pairwise_cons] at sorted
      obtain ⟨stepKept, stepSet, stepNewest⟩ :=
        mergeStep_spec small kept (good iv List.mem_cons_self) (fun newest member => after newest member iv List.mem_cons_self)
      obtain ⟨finalKept, finalSet⟩ := foldl_mergeStep_spec small sorted.2 (fun other member => good other (List.mem_cons_of_mem _ member))
        stepKept (fun newest member other later => le_trans (stepNewest newest member) (sorted.1 other later))
      refine ⟨finalKept, ?_⟩
      rw [List.foldl_cons, finalSet, stepSet, freeSet_cons, Set.union_assoc]

/-- `free` of a range of whole pages inside the window, on a well-formed list: the free set
gains exactly the range, and the list stays well formed. -/
theorem freeSet_free (small : limit ≤ 2 ^ 39) (formed : WellFormed limit allocator.freeList)
    (page : addr % 4096 = 0) (low : 4096 ≤ addr) (high : addr + alignUp size ≤ limit) :
    freeSet (allocator.free addr size).freeList = freeSet allocator.freeList ∪ Set.Ico addr (addr + alignUp size) ∧
      WellFormed limit (allocator.free addr size).freeList := by
  unfold free
  dsimp only
  by_cases zero : alignUp size = 0
  · rw [if_pos zero, zero, Nat.add_zero, Set.Ico_self, Set.union_empty]
    exact ⟨rfl, formed⟩
  rw [if_neg zero]
  have page' := alignUp_mod size
  have range : (addr + alignUp size - 1) % 2 ^ 64 = addr + alignUp size - 1 := Nat.mod_eq_of_lt (by omega)
  rw [range]
  -- the sort permutes the intervals, and every one of them may be merged
  let intervals := allocator.freeList ++ [(⟨addr, addr + alignUp size - 1⟩ : IovaInterval)]
  have perm := List.mergeSort_perm intervals fun a b => decide (a.start ≤ b.start)
  have good : ∀ iv ∈ intervals.mergeSort fun a b => decide (a.start ≤ b.start), Good limit iv := by
    intro iv member
    rcases List.mem_append.mp (perm.mem_iff.mp member) with listed | added
    · exact ⟨formed.nonempty iv listed, formed.aligned iv listed, formed.inside iv listed⟩
    · rw [List.mem_singleton.mp added]
      exact ⟨by dsimp only; omega, ⟨page, by dsimp only; rw [Nat.sub_add_cancel (by omega)]; omega⟩,
        ⟨low, by dsimp only; omega⟩⟩
  have sorted : (intervals.mergeSort fun a b => decide (a.start ≤ b.start)).Pairwise
      (fun a b => decide (a.start ≤ b.start) = true) := List.pairwise_mergeSort
    (fun a b c first second => by simp only [decide_eq_true_eq] at first second ⊢; omega)
    (fun a b => by simp only [Bool.or_eq_true, decide_eq_true_eq]; omega) intervals
  obtain ⟨kept, merged⟩ := foldl_mergeStep_spec small (sorted.imp fun ordered => by simpa using ordered) good
    ⟨List.Pairwise.nil, by simp, by simp, by simp⟩ (by simp)
  refine ⟨?_, ⟨?_, fun iv member => kept.nonempty iv (List.mem_reverse.mp member),
    fun iv member => kept.aligned iv (List.mem_reverse.mp member),
    fun iv member => kept.inside iv (List.mem_reverse.mp member)⟩⟩
  · have added : freeSet [(⟨addr, addr + alignUp size - 1⟩ : IovaInterval)] = Set.Ico addr (addr + alignUp size) := by
      ext other
      simp only [mem_freeSet, List.mem_singleton, exists_eq_left, Set.mem_Ico]
      omega
    rw [freeSet_reverse, merged, freeSet_perm perm, freeSet_append, added, freeSet_nil, Set.empty_union]
  · rw [List.pairwise_reverse]
    exact kept.separated

end IovaAllocator

/-! ## Runs of the allocator -/

/-- A call on the allocator: `alloc(size)`, or `free(addr, size)`. -/
inductive IovaCall
  | alloc (size : Nat)
  | free (addr size : Nat)
  deriving DecidableEq, Repr

/-- The allocator with the ranges `(addr, size)` that `alloc` has handed out and that are still
out: the record its caller keeps. -/
structure IovaSystem where
  allocator : IovaAllocator
  live : List (Nat × Nat)
  deriving DecidableEq, Repr

/-- The addresses of the ranges out. -/
def outSet (live : List (Nat × Nat)) : Set Nat := {addr | ∃ range ∈ live, addr ∈ Set.Ico range.1 (range.1 + alignUp range.2)}

namespace IovaSystem

/-- The allocator under callers that free only ranges they hold, with the size they asked for. -/
def machine (iovaBits : Nat) : Machine IovaSystem IovaCall (Option Nat) where
  init := ⟨IovaAllocator.new iovaBits, []⟩
  step system
    | .alloc size =>
        match system.allocator.alloc size with
        | (some addr, allocator) => some (some addr, ⟨allocator, (addr, size) :: system.live⟩)
        | (none, allocator) => some (none, ⟨allocator, system.live⟩)
    | .free addr size =>
        if (addr, size) ∈ system.live then
          some (none, ⟨system.allocator.free addr size, system.live.erase (addr, size)⟩)
        else none

/-- The free set and the ranges out partition the window `[4096, limit)`. -/
structure Partition (limit : Nat) (system : IovaSystem) : Prop where
  small : limit ≤ 2 ^ 39
  formed : WellFormed limit system.allocator.freeList
  placed : ∀ range ∈ system.live, range.1 % 4096 = 0 ∧ 4096 ≤ range.1 ∧ range.1 + alignUp range.2 ≤ limit ∧
    0 < alignUp range.2
  separate : system.live.Pairwise fun range other =>
    Disjoint (Set.Ico range.1 (range.1 + alignUp range.2)) (Set.Ico other.1 (other.1 + alignUp other.2))
  notFree : ∀ range ∈ system.live,
    Disjoint (freeSet system.allocator.freeList) (Set.Ico range.1 (range.1 + alignUp range.2))
  covers : freeSet system.allocator.freeList ∪ outSet system.live = Set.Ico 4096 limit

theorem outSet_cons (range : Nat × Nat) (live : List (Nat × Nat)) :
    outSet (range :: live) = Set.Ico range.1 (range.1 + alignUp range.2) ∪ outSet live := by
  ext addr
  simp only [outSet, List.mem_cons, Set.mem_union, Set.mem_ofPred_eq]
  constructor
  · rintro ⟨other, rfl | member, inside⟩
    · exact .inl inside
    · exact .inr ⟨other, member, inside⟩
  · rintro (inside | ⟨other, member, inside⟩)
    · exact ⟨range, .inl rfl, inside⟩
    · exact ⟨other, .inr member, inside⟩

theorem outSet_perm {live other : List (Nat × Nat)} (perm : live.Perm other) : outSet live = outSet other := by
  ext addr
  simp only [outSet, Set.mem_ofPred_eq, perm.mem_iff]

/-- The window after `new` is all free. -/
theorem partition_init {iovaBits : Nat} (wide : 12 < iovaBits) :
    Partition (2 ^ max 12 (min iovaBits 39)) (machine iovaBits).init where
  small := Nat.pow_le_pow_right (by decide) (by omega)
  formed := new_wellFormed wide
  placed := by simp [machine]
  separate := List.Pairwise.nil
  notFree := by simp [machine]
  covers := by
    rw [show (machine iovaBits).init = ⟨IovaAllocator.new iovaBits, []⟩ from rfl]
    dsimp only
    rw [freeSet_new]
    ext addr
    simp [outSet]

variable {limit iovaBits : Nat} {system : IovaSystem}

/-- A successful `alloc` moves its range from the free set to the ranges out. -/
theorem partition_alloc (holds : Partition limit system) {size addr : Nat} {allocator : IovaAllocator}
    (allocated : system.allocator.alloc size = (some addr, allocator)) :
    Partition limit ⟨allocator, (addr, size) :: system.live⟩ := by
  obtain ⟨positive, page, low, high, taken, shrunk, formed⟩ :=
    IovaAllocator.alloc_some holds.small holds.formed allocated
  refine ⟨holds.small, formed, ?_, ?_, ?_, ?_⟩
  · intro range member
    rcases List.mem_cons.mp member with rfl | older
    · exact ⟨page, low, high, positive⟩
    · exact holds.placed range older
  · -- the range was free, so it meets no range that was out
    refine List.pairwise_cons.mpr ⟨fun other member => ?_, holds.separate⟩
    exact Set.disjoint_of_subset_left taken (holds.notFree other member)
  · intro range member
    rw [shrunk]
    rcases List.mem_cons.mp member with rfl | older
    · exact Set.disjoint_sdiff_left
    · exact Set.disjoint_of_subset_left Set.sdiff_subset (holds.notFree range older)
  · rw [outSet_cons, shrunk, ← Set.union_assoc, Set.sdiff_union_self, Set.union_eq_left.mpr taken]
    exact holds.covers

/-- A `free` of a range out moves it back to the free set. -/
theorem partition_free (holds : Partition limit system) {addr size : Nat} (member : (addr, size) ∈ system.live) :
    Partition limit ⟨system.allocator.free addr size, system.live.erase (addr, size)⟩ := by
  obtain ⟨page, low, high, -⟩ := holds.placed (addr, size) member
  obtain ⟨grown, formed⟩ := IovaAllocator.freeSet_free holds.small holds.formed page low high
  have perm := List.perm_cons_erase member
  have separate := (perm.pairwise_iff fun disjoint => disjoint.symm).mp holds.separate
  rw [List.pairwise_cons] at separate
  refine ⟨holds.small, formed, fun range kept => holds.placed range (List.mem_of_mem_erase kept), separate.2, ?_, ?_⟩
  · intro range kept
    rw [grown]
    exact Disjoint.union_left (holds.notFree range (List.mem_of_mem_erase kept)) (separate.1 range kept)
  · rw [grown, ← holds.covers, outSet_perm perm, outSet_cons, Set.union_assoc]

/-- Every call a caller may make keeps the partition. -/
theorem partition_step (holds : Partition limit system) {call : IovaCall} {reply : Option Nat}
    {next : IovaSystem} (stepped : (machine iovaBits).step system call = some (reply, next)) :
    Partition limit next := by
  cases call with
  | alloc size =>
      simp only [machine] at stepped
      cases allocated : system.allocator.alloc size with
      | mk handed allocator =>
          cases handed with
          | none =>
              rw [allocated] at stepped
              cases stepped
              have unchanged : (system.allocator.alloc size).2 = system.allocator :=
                IovaAllocator.alloc_none (by rw [allocated])
              rw [allocated] at unchanged
              rw [show allocator = system.allocator from unchanged]
              exact holds
          | some addr =>
              rw [allocated] at stepped
              cases stepped
              exact partition_alloc holds allocated
  | free addr size =>
      simp only [machine] at stepped
      split_ifs at stepped with member
      cases stepped
      exact partition_free holds member

/-- No IOVA is handed out twice and none is lost: in every state a run of the allocator reaches,
under callers that free only the ranges they hold, the free list is well formed and the free
set and the ranges out partition `[4096, 2^bits)`. -/
theorem reachable_partition {iovaBits : Nat} (wide : 12 < iovaBits) {system : IovaSystem}
    (reached : (machine iovaBits).Reachable system) : Partition (2 ^ max 12 (min iovaBits 39)) system :=
  Machine.Inductive.reachable ⟨partition_init wide, fun holds stepped => partition_step holds stepped⟩ reached

/-- A run that allocates one and two pages and frees the first keeps the free set, now with a hole
at 4096, and the range still out a partition of the window. -/
theorem partition_after_free :
    ∃ system, (machine 39).run (machine 39).init [.alloc 4096, .alloc 8192, .free 4096 4096] =
        some ([some 4096, some 8192, none], system) ∧
      system.live = [(8192, 8192)] ∧ Partition (2 ^ max 12 (min 39 39)) system :=
  ⟨_, rfl, rfl, reachable_partition (by decide) (Machine.Reachable.run _ .init
    (rfl : (machine 39).run (machine 39).init [.alloc 4096, .alloc 8192, .free 4096 4096] = some (_, _)))⟩

end IovaSystem

end Fullerene.Nitrogen.Iommu
