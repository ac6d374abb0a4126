import Fullerene.Lib.Word
import Fullerene.Petroleum.UserMemory
import Mathlib.Order.Basic

/-!
# User ranges of the Linux memory calls

`checked_page_range` turns an address and a length into a page-aligned start
and a size.  The end it rounds up is that of the last byte,
`addr + length - 1`, so when the last byte is the first byte of a page the
range stops just before it: an aligned one-byte range is refused, and an
aligned range of `4096 * k + 1` bytes loses its last byte
(`checkedPageRange_covers_iff`).  What the function does return is a
page-aligned range of the user half that starts in the page of `addr`
(`checkedPageRange_sound`).

`find_free_anon_region` searches for a place for an anonymous mapping from a
page-aligned candidate: past the farthest end of the tracked regions the
candidate overlaps, and one page on when it covers a mapped page.  It skips no
usable place and stops, returning the first one or `0`
(`findFreeAnonRegion_firstFit`); `0` is also the first place when the search
starts at address 0.

Words are natural numbers below `2 ^ 64`, the page table is read only through
whether `translate_address` succeeds at an address, and a `+` that would
overflow is the panic `none`.
-/

namespace Fullerene.Kernel.Linux

open Fullerene.Petroleum (isUserAddress virtAddrTryNew)

def pageSize : Nat := 4096

def pageMask : Nat := pageSize - 1

def maxLinuxMemory : Nat := 128 * 1024 * 1024

def userAddressLimit : Nat := 0x0000800000000000

/-- `!PAGE_MASK` as a `u64`. -/
def pageFrameMask : Nat := 0xFFFFFFFFFFFFF000

def einval : Nat := 22

/-- `checked_page_range(addr, length, require_aligned_addr)`: the start and
size of the page-aligned range, or the errno. -/
def checkedPageRange (addr length : Nat) (requireAlignedAddr : Bool) : Except Nat (Nat × Nat) :=
  if length = 0 ∨ length > maxLinuxMemory then .error einval
  else if requireAlignedAddr ∧ addr &&& pageMask ≠ 0 then .error einval
  else
    let start := if requireAlignedAddr then addr else addr &&& pageFrameMask
    match Word.checkedAdd 64 addr (length - 1) with
    | none => .error einval
    | some last =>
        match Word.checkedAdd 64 last pageMask with
        | none => .error einval
        | some raised =>
            let endAddr := raised &&& pageFrameMask
            -- `end.checked_sub(start)`
            if endAddr < start then .error einval
            else
              let size := endAddr - start
              if size = 0 ∨ size > maxLinuxMemory ∨ endAddr > userAddressLimit then .error einval
              else
                match virtAddrTryNew start, virtAddrTryNew (endAddr - 1) with
                | some startVa, some endVa =>
                    if !isUserAddress startVa || !isUserAddress endVa then .error einval
                    else .ok (start, size)
                | _, _ => .error einval

example : checkedPageRange 0x1234 1 false = .ok (0x1000, 4096) := by decide

example : checkedPageRange 0x1234 4096 true = .error einval := by decide

/-! ## What `checked_page_range` accepts -/

theorem land_pageFrameMask {value : Nat} (within : value < 2 ^ 64) :
    value &&& pageFrameMask = value / pageSize * pageSize :=
  Word.land_two_pow_sub_two_pow within (by decide : 12 ≤ 64)

theorem land_pageMask (value : Nat) : value &&& pageMask = value % pageSize :=
  Nat.and_two_pow_sub_one_eq_mod value 12

/-- The start the function returns: `addr` itself, or rounded down to its page. -/
def roundedStart (addr : Nat) (requireAlignedAddr : Bool) : Nat :=
  if requireAlignedAddr then addr else addr / pageSize * pageSize

/-- The end the function rounds to: the last byte's address rounded up. -/
def roundedEnd (addr length : Nat) : Nat := (addr + (length - 1) + pageMask) / pageSize * pageSize

/-- The conditions under which `checked_page_range` returns a range. -/
structure Accepted (addr length : Nat) (requireAlignedAddr : Bool) : Prop where
  positive : 0 < length
  bounded : length ≤ maxLinuxMemory
  aligned : requireAlignedAddr = true → addr % pageSize = 0
  fits : addr + (length - 1) + pageMask < 2 ^ 64
  nonempty : roundedStart addr requireAlignedAddr < roundedEnd addr length
  small : roundedEnd addr length - roundedStart addr requireAlignedAddr ≤ maxLinuxMemory
  user : roundedEnd addr length ≤ userAddressLimit

theorem start_eq_roundedStart {addr : Nat} (addrWord : addr < 2 ^ 64) (aligned : Bool) :
    (if aligned = true then addr else addr &&& pageFrameMask) = roundedStart addr aligned := by
  cases aligned <;> simp [roundedStart, land_pageFrameMask addrWord]

/-- A range is returned only for an address whose last byte fits a word. -/
theorem lt_of_checkedPageRange_eq_ok {addr length start size : Nat} {aligned : Bool}
    (ok : checkedPageRange addr length aligned = .ok (start, size)) : addr < 2 ^ 64 := by
  by_contra big
  have overflow : Word.checkedAdd 64 addr (length - 1) = none := Word.checkedAdd_eq_none_iff.mpr (by omega)
  unfold checkedPageRange at ok
  simp only [overflow] at ok
  split_ifs at ok

theorem checkedPageRange_eq_ok {addr length start size : Nat} {aligned : Bool}
    (ok : checkedPageRange addr length aligned = .ok (start, size)) :
    Accepted addr length aligned ∧ start = roundedStart addr aligned ∧
      size = roundedEnd addr length - roundedStart addr aligned := by
  have addrWord := lt_of_checkedPageRange_eq_ok ok
  unfold checkedPageRange at ok
  simp only [land_pageMask, start_eq_roundedStart addrWord] at ok
  split_ifs at ok with lengthBad alignBad
  cases lastSome : Word.checkedAdd 64 addr (length - 1) with
  | none => simp only [lastSome, reduceCtorEq] at ok
  | some last =>
    cases raisedSome : Word.checkedAdd 64 last pageMask with
    | none => simp only [lastSome, raisedSome, reduceCtorEq] at ok
    | some raised =>
      simp only [lastSome, raisedSome] at ok
      obtain ⟨_, rfl⟩ := Word.checkedAdd_eq_some_iff.mp lastSome
      obtain ⟨raisedFits, rfl⟩ := Word.checkedAdd_eq_some_iff.mp raisedSome
      rw [land_pageFrameMask raisedFits, ← roundedEnd] at ok
      split_ifs at ok with before bad
      split at ok
      · split_ifs at ok
        obtain ⟨rfl, rfl⟩ := Prod.mk.inj (Except.ok.inj ok)
        exact ⟨⟨by omega, by omega, fun alignedAddr => by simpa [alignedAddr] using alignBad, raisedFits,
          by omega, by omega, by omega⟩, rfl, rfl⟩
      · simp only [reduceCtorEq] at ok

section Accepted

variable {addr length start size : Nat} {aligned : Bool}

theorem Accepted.start_aligned (accepted : Accepted addr length aligned) :
    roundedStart addr aligned % pageSize = 0 := by
  have := accepted.aligned
  unfold roundedStart pageSize at *
  cases aligned <;> simp_all [Nat.mul_mod_left]

theorem Accepted.start_le (accepted : Accepted addr length aligned) :
    roundedStart addr aligned ≤ addr ∧ addr < roundedStart addr aligned + pageSize := by
  unfold roundedStart pageSize
  cases aligned with
  | false =>
      simp only [Bool.false_eq_true, ↓reduceIte]
      omega
  | true => simp

/-- A range that `checked_page_range` returns is a non-empty run of whole pages
of the user half that starts in the page of `addr`. -/
theorem checkedPageRange_sound (ok : checkedPageRange addr length aligned = .ok (start, size)) :
    start % pageSize = 0 ∧ start ≤ addr ∧ addr < start + pageSize ∧ 0 < size ∧
      size % pageSize = 0 ∧ size ≤ maxLinuxMemory ∧ start + size ≤ userAddressLimit ∧
      ∀ byte, start ≤ byte → byte < start + size → isUserAddress byte = true := by
  obtain ⟨accepted, rfl, rfl⟩ := checkedPageRange_eq_ok ok
  have startAligned := accepted.start_aligned
  have ⟨startLe, addrLt⟩ := accepted.start_le
  have := accepted.nonempty
  have := accepted.user
  have := accepted.small
  refine ⟨startAligned, startLe, addrLt, by omega, ?_, by omega, by omega, ?_⟩
  · unfold roundedEnd pageSize at *
    omega
  · intro byte _ below
    simp only [isUserAddress, userAddressLimit] at *
    simp only [decide_eq_true_eq]
    omega

/-- The returned range holds the last byte of `[addr, addr + length)` exactly
when that byte is not the first of its page. -/
theorem checkedPageRange_covers_iff (ok : checkedPageRange addr length aligned = .ok (start, size)) :
    addr + length ≤ start + size ↔ (addr + length - 1) % pageSize ≠ 0 := by
  obtain ⟨accepted, rfl, rfl⟩ := checkedPageRange_eq_ok ok
  have nonempty := accepted.nonempty
  have := accepted.positive
  rw [Nat.add_sub_cancel' (Nat.le_of_lt nonempty)]
  unfold roundedEnd pageMask pageSize
  omega

end Accepted

/-- At `addr = 4096` the function returns one page for `4097` bytes, so the
byte at `8192` is outside, and it refuses the one-byte range at `4096`. -/
theorem checked_page_range_drops_last_byte :
    checkedPageRange 4096 4097 true = .ok (4096, 4096) ∧ 4096 + 4096 < 4096 + 4097 ∧
      checkedPageRange 4096 1 true = .error einval := by
  refine ⟨by decide, by decide, by decide⟩

/-! ## The search for a free place -/

/-- The fields of `LinuxMmapRegion` that the memory calls read and write;
`prot` is the `i32` as its 32-bit pattern. -/
structure LinuxMmapRegion where
  addr : Nat
  size : Nat
  prot : Nat
  deriving DecidableEq, Repr

/-- `ranges_overlap`: a range whose end overflows overlaps everything. -/
def rangesOverlap (leftAddr leftSize rightAddr rightSize : Nat) : Bool :=
  match Word.checkedAdd 64 leftAddr leftSize, Word.checkedAdd 64 rightAddr rightSize with
  | some leftEnd, some rightEnd => leftAddr < rightEnd && rightAddr < leftEnd
  | _, _ => true

/-- `tracked_range_overlaps`. -/
def trackedRangeOverlaps (regions : List LinuxMmapRegion) (addr size : Nat) : Bool :=
  regions.any fun region => rangesOverlap region.addr region.size addr size

/-- `range_is_mapped`, with `translates` telling whether `translate_address`
succeeds at an address. -/
def rangeIsMapped (translates : Nat → Bool) (addr size : Nat) : Bool :=
  (List.range (size / pageSize)).any fun index =>
    match Word.checkedAdd 64 addr (index * pageSize) with
    | none => true
    | some page => translates page

/-- The candidate after a collision in `find_free_anon_region`: the farthest end
of the tracked regions that overlap, or `USER_ADDRESS_LIMIT`. -/
def farthestEnd (regions : List LinuxMmapRegion) (candidate size : Nat) : Nat :=
  (((regions.filter fun region => rangesOverlap region.addr region.size candidate size).filterMap
    fun region => Word.checkedAdd 64 region.addr region.size).max?).getD userAddressLimit

/-- The loop of `find_free_anon_region` from `candidate`, one unit of `fuel` a
turn.  `none` is the panic of `candidate + PAGE_MASK` or the end of the fuel,
which `searchFuel` never reaches (`findFreeAnonRegion_firstFit`). -/
def searchFrom (regions : List LinuxMmapRegion) (translates : Nat → Bool) (size : Nat) :
    Nat → Nat → Option Nat
  | 0, _ => none
  | fuel + 1, candidate =>
      match Word.checkedAdd 64 candidate size with
      | none => some 0
      | some stop =>
          if stop > userAddressLimit then some 0
          else if trackedRangeOverlaps regions candidate size then
            (Word.checkedAdd 64 (farthestEnd regions candidate size) pageMask).bind fun raised =>
              searchFrom regions translates size fuel (raised &&& pageFrameMask)
          else if rangeIsMapped translates candidate size then
            searchFrom regions translates size fuel (Word.saturatingAdd 64 candidate pageSize)
          else some candidate

/-- One turn per page of the user half, and one more for the candidate past it. -/
def searchFuel : Nat := userAddressLimit / pageSize + 2

/-- `find_free_anon_region(rt, mgr, size, start)`. -/
def findFreeAnonRegion (regions : List LinuxMmapRegion) (translates : Nat → Bool) (size start : Nat) :
    Option Nat :=
  (Word.checkedAdd 64 start pageMask).bind fun raised =>
    searchFrom regions translates size searchFuel (raised &&& pageFrameMask)

/-- A place for `size` bytes at `addr` that the search may return: page-aligned,
in the user half, overlapping no tracked region and covering no mapped page. -/
structure Usable (regions : List LinuxMmapRegion) (translates : Nat → Bool) (size addr : Nat) : Prop where
  aligned : addr % pageSize = 0
  below : addr + size ≤ userAddressLimit
  clear : ∀ region ∈ regions, rangesOverlap region.addr region.size addr size = false
  unmapped : ∀ index < size / pageSize, translates (addr + index * pageSize) = false

/-- What the search from `candidate` is to return: the first usable place at or
after it, or `0` when there is none. -/
def FirstFit (regions : List LinuxMmapRegion) (translates : Nat → Bool) (size candidate result : Nat) :
    Prop :=
  (Usable regions translates size result ∧ candidate ≤ result ∧
      ∀ addr, candidate ≤ addr → addr < result → ¬Usable regions translates size addr) ∨
    (result = 0 ∧ ∀ addr, candidate ≤ addr → ¬Usable regions translates size addr)

section Search

variable {regions : List LinuxMmapRegion} {translates : Nat → Bool} {size : Nat}

theorem rangesOverlap_eq {leftAddr leftSize rightAddr rightSize : Nat}
    (leftFits : leftAddr + leftSize < 2 ^ 64) (rightFits : rightAddr + rightSize < 2 ^ 64) :
    rangesOverlap leftAddr leftSize rightAddr rightSize =
      (leftAddr < rightAddr + rightSize && rightAddr < leftAddr + leftSize) := by
  simp only [rangesOverlap, Word.checkedAdd_of_lt leftFits, Word.checkedAdd_of_lt rightFits]

theorem rangeIsMapped_eq_false_iff {addr : Nat} (fits : addr + size < 2 ^ 64) :
    rangeIsMapped translates addr size = false ↔
      ∀ index < size / pageSize, translates (addr + index * pageSize) = false := by
  unfold rangeIsMapped
  simp only [List.any_eq_false, List.mem_range]
  apply forall_congr'
  intro index
  apply imp_congr_right
  intro inside
  -- every page the loop looks at lies inside the range, so its address fits
  have pageFits : addr + index * pageSize < 2 ^ 64 := by
    have : index * pageSize < size := by
      unfold pageSize at *
      omega
    omega
  simp only [Word.checkedAdd_of_lt pageFits, Bool.not_eq_true]

/-- After a collision the farthest end is the end of a tracked region that the
candidate overlaps. -/
theorem farthestEnd_spec (bounded : ∀ region ∈ regions, region.addr + region.size ≤ userAddressLimit)
    {candidate : Nat} (fits : candidate + size ≤ userAddressLimit)
    (collides : trackedRangeOverlaps regions candidate size = true) :
    ∃ region ∈ regions, region.addr < candidate + size ∧ candidate < region.addr + region.size ∧
      farthestEnd regions candidate size = region.addr + region.size := by
  obtain ⟨region, member, overlaps⟩ := List.any_eq_true.mp collides
  have regionEnd : Word.checkedAdd 64 region.addr region.size = some (region.addr + region.size) :=
    Word.checkedAdd_of_lt (by have := bounded region member; unfold userAddressLimit at this; omega)
  have inEnds : region.addr + region.size ∈
      (regions.filter fun region => rangesOverlap region.addr region.size candidate size).filterMap
        fun region => Word.checkedAdd 64 region.addr region.size :=
    List.mem_filterMap.mpr ⟨region, List.mem_filter.mpr ⟨member, overlaps⟩, regionEnd⟩
  obtain ⟨farthest, found⟩ := Option.isSome_iff_exists.mp (List.isSome_max?_of_mem inEnds)
  obtain ⟨far, farMember, farEnd⟩ := List.mem_filterMap.mp (List.max?_mem found)
  obtain ⟨farIn, farOverlaps⟩ := List.mem_filter.mp farMember
  obtain ⟨_, rfl⟩ := Word.checkedAdd_eq_some_iff.mp farEnd
  have farFits := bounded far farIn
  rw [rangesOverlap_eq (by unfold userAddressLimit at farFits; omega)
    (by unfold userAddressLimit at fits; omega)] at farOverlaps
  simp only [Bool.and_eq_true, decide_eq_true_eq] at farOverlaps
  exact ⟨far, farIn, farOverlaps.1, farOverlaps.2, by simp [farthestEnd, found]⟩

theorem FirstFit.extend {candidate next result : Nat} (advances : candidate ≤ next)
    (skipped : ∀ addr, candidate ≤ addr → addr < next → ¬Usable regions translates size addr)
    (fit : FirstFit regions translates size next result) :
    FirstFit regions translates size candidate result := by
  rcases fit with ⟨usable, after, first⟩ | ⟨none, nothing⟩
  · refine .inl ⟨usable, by omega, fun addr atLeast before => ?_⟩
    by_cases early : addr < next
    · exact skipped addr atLeast early
    · exact first addr (by omega) before
  · refine .inr ⟨none, fun addr atLeast => ?_⟩
    by_cases early : addr < next
    · exact skipped addr atLeast early
    · exact nothing addr (by omega)

/-- Between two page boundaries no place is usable. -/
theorem not_usable_of_between {addr : Nat} (low : Nat) (lowAligned : low % pageSize = 0) (above : low < addr)
    (before : addr < low + pageSize) : ¬Usable regions translates size addr := by
  intro usable
  have := usable.aligned
  unfold pageSize at *
  omega

/-- The search from an aligned candidate in the user half returns the first
usable place or `0`, given one turn for each page left. -/
theorem searchFrom_firstFit (bounded : ∀ region ∈ regions, region.addr + region.size ≤ userAddressLimit) :
    ∀ fuel candidate, candidate % pageSize = 0 → candidate ≤ userAddressLimit + pageSize →
      (userAddressLimit + pageSize - candidate) / pageSize + 1 ≤ fuel →
      ∃ result, searchFrom regions translates size fuel candidate = some result ∧
        FirstFit regions translates size candidate result := by
  intro fuel
  induction fuel with
  | zero =>
      intro candidate _ _ enough
      exact absurd enough (Nat.not_succ_le_zero _)
  | succ fuel inductionHypothesis =>
      intro candidate aligned within enough
      -- no place at or after a candidate whose range leaves the user half
      have nothingLeft : userAddressLimit < candidate + size →
          ∀ addr, candidate ≤ addr → ¬Usable regions translates size addr :=
        fun past addr atLeast usable => by have := usable.below; omega
      cases stopSome : Word.checkedAdd 64 candidate size with
      | none =>
          have overflow := Word.checkedAdd_eq_none_iff.mp stopSome
          refine ⟨0, by simp [searchFrom, stopSome], .inr ⟨rfl, nothingLeft ?_⟩⟩
          unfold userAddressLimit
          omega
      | some stop =>
          obtain ⟨_, rfl⟩ := Word.checkedAdd_eq_some_iff.mp stopSome
          by_cases past : candidate + size > userAddressLimit
          · exact ⟨0, by simp [searchFrom, stopSome, past], .inr ⟨rfl, nothingLeft past⟩⟩
          by_cases collides : trackedRangeOverlaps regions candidate size = true
          · -- jump past the farthest end of the regions the candidate overlaps
            obtain ⟨region, member, starts, ends, farthest⟩ :=
              farthestEnd_spec bounded (Nat.le_of_not_gt past) collides
            have regionFits := bounded region member
            have raisedSome : Word.checkedAdd 64 (farthestEnd regions candidate size) pageMask =
                some (farthestEnd regions candidate size + pageMask) :=
              Word.checkedAdd_of_lt (by rw [farthest]; unfold userAddressLimit pageMask pageSize at *; omega)
            have raisedWord : farthestEnd regions candidate size + pageMask < 2 ^ 64 :=
              Word.lt_of_checkedAdd_eq_some raisedSome
            set next := (farthestEnd regions candidate size + pageMask) / pageSize * pageSize with nextEq
            have nextBounds : region.addr + region.size ≤ next ∧ next < region.addr + region.size + pageSize := by
              rw [nextEq, farthest]
              unfold pageMask pageSize
              omega
            have nextAligned : next % pageSize = 0 := by simp [nextEq]
            obtain ⟨result, found, fit⟩ := inductionHypothesis next nextAligned
              (by unfold userAddressLimit pageSize at *; omega)
              (by unfold userAddressLimit pageSize at *; omega)
            refine ⟨result, ?_, fit.extend (by omega) fun addr atLeast before => ?_⟩
            · simp [searchFrom, stopSome, past, collides, raisedSome, land_pageFrameMask raisedWord, ← nextEq,
                found]
            · -- before the region's end the place still overlaps it; after it, no page starts
              by_cases overlaps : addr < region.addr + region.size
              · intro usable
                have clear := usable.clear region member
                have := usable.below
                rw [rangesOverlap_eq (by unfold userAddressLimit at regionFits; omega)
                  (by unfold userAddressLimit at this; omega)] at clear
                simp only [Bool.and_eq_false_iff, decide_eq_false_iff_not] at clear
                omega
              · exact not_usable_of_between (next - pageSize)
                  (by unfold pageSize at *; omega) (by omega) (by omega)
          by_cases mapped : rangeIsMapped translates candidate size = true
          · -- one page on: the candidate covers a mapped page
            have nextFits : candidate + pageSize < 2 ^ 64 := by unfold userAddressLimit pageSize at *; omega
            obtain ⟨result, found, fit⟩ := inductionHypothesis (candidate + pageSize)
              (by unfold pageSize at *; omega) (by unfold pageSize userAddressLimit at *; omega)
              (by unfold userAddressLimit pageSize at *; omega)
            refine ⟨result, ?_, fit.extend (by omega) fun addr atLeast before usable => ?_⟩
            · simp [searchFrom, stopSome, past, collides, mapped, Word.saturatingAdd_of_lt nextFits, found]
            · by_cases here : addr = candidate
              · subst here
                have unmapped := (rangeIsMapped_eq_false_iff (by unfold userAddressLimit at *; omega)).mpr
                  usable.unmapped
                simp [unmapped] at mapped
              · exact not_usable_of_between candidate aligned (by omega) before usable
          · -- the candidate itself is usable
            have clearAll := List.any_eq_false.mp (by simpa [trackedRangeOverlaps] using collides)
            have usable : Usable regions translates size candidate :=
              ⟨aligned, by omega, fun region member => by simpa using clearAll region member,
                (rangeIsMapped_eq_false_iff (by unfold userAddressLimit at *; omega)).mp (by simpa using mapped)⟩
            exact ⟨candidate, by simp [searchFrom, stopSome, past, collides, mapped],
              .inl ⟨usable, Nat.le_refl candidate, fun addr atLeast before => by omega⟩⟩

/-- The page-aligned address at or after `start`. -/
def roundUp (start : Nat) : Nat := (start + pageMask) / pageSize * pageSize

/-- `find_free_anon_region` from a start in the user half, with every tracked
region inside it, stops and returns the first usable place at or after the
start rounded up to a page, or `0` when there is none. -/
theorem findFreeAnonRegion_firstFit
    (bounded : ∀ region ∈ regions, region.addr + region.size ≤ userAddressLimit) {start : Nat}
    (startBelow : start < userAddressLimit) :
    ∃ result, findFreeAnonRegion regions translates size start = some result ∧
      FirstFit regions translates size (roundUp start) result := by
  have raisedSome : Word.checkedAdd 64 start pageMask = some (start + pageMask) :=
    Word.checkedAdd_of_lt (by unfold userAddressLimit pageMask pageSize at *; omega)
  have raisedWord := Word.lt_of_checkedAdd_eq_some raisedSome
  obtain ⟨result, found, fit⟩ := @searchFrom_firstFit regions translates size bounded
    searchFuel (roundUp start) (by simp [roundUp])
    (by unfold roundUp pageMask pageSize userAddressLimit at *; omega)
    (by unfold searchFuel roundUp pageMask pageSize userAddressLimit at *; omega)
  refine ⟨result, ?_, fit⟩
  simp only [findFreeAnonRegion, raisedSome, Option.bind_some, land_pageFrameMask raisedWord]
  exact found

end Search

end Fullerene.Kernel.Linux
