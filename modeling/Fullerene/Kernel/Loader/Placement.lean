import Fullerene.Kernel.Loader

/-!
# Where the loader puts a segment

A segment of an ELF image means, at offset `j` from `p_vaddr`, the file byte
`p_offset + j` below `p_filesz` and zero above (`segmentByte`).  The loader
fills the frame of its `i`-th page with the segment bytes `4096 * i` to
`4096 * i + 4095` from offset 0 of the frame, and maps the frame at the page
that holds `p_vaddr + 4096 * i`.  Read back, every loaded segment is therefore
laid out from `align_down(p_vaddr)` (`Placed`), which is `p_vaddr` only for a
page-aligned `p_vaddr`.

The free frames the loader takes are whole distinct pages that back no mapped
page (`PageMap.Owned`); each page it maps is unmapped before, so nothing it
writes changes what an earlier segment, or the rest of the page table, reads.
-/

namespace Fullerene.Kernel

open PageMap
open Fullerene.Petroleum (isUserAddress virtAddrTryNew eq_of_virtAddrTryNew_eq_some)

/-- The byte at offset `j` of a segment in memory. -/
def segmentByte (image : List Nat) (ph : ProgramHeader) (j : Nat) : Nat :=
  if j < ph.pFilesz then image.getD (ph.pOffset + j) 0 else 0

/-- Every page the loader made for the segment reads the segment, from the
page that holds `p_vaddr` on. -/
def Placed (image : List Nat) (loading : Loading) (ph : ProgramHeader) : Prop :=
  ∀ j < calculatePages ph.pMemsz * 4096,
    loading.space.read loading.memory (Paging.alignDown ph.pVaddr 4096 + j) = some (segmentByte image ph j)

/-- What one loop of the loader keeps: the allocator's promise, and every byte
that read before reads the same. -/
structure Keeps (state final : Loading) : Prop where
  owned : Owned final.space final.frames
  reads : ∀ addr, (state.space.read state.memory addr).isSome →
    final.space.read final.memory addr = state.space.read state.memory addr

theorem Keeps.trans {state middle final : Loading} (first : Keeps state middle)
    (second : Keeps middle final) : Keeps state final where
  owned := second.owned
  reads := fun addr readable => by
    rw [second.reads addr (by rw [first.reads addr readable]; exact readable), first.reads addr readable]

theorem Placed.of_keeps {image : List Nat} {state final : Loading} {ph : ProgramHeader}
    (placed : Placed image state ph) (keeps : Keeps state final) : Placed image final ph := by
  intro j inside
  rw [keeps.reads _ (by rw [placed j inside]; rfl), placed j inside]

/-- For a page-aligned `p_vaddr` the layout is the segment's own: every byte of
`[p_vaddr, p_vaddr + p_memsz)` reads the segment. -/
theorem Placed.read_of_aligned {image : List Nat} {loading : Loading} {ph : ProgramHeader}
    (placed : Placed image loading ph) (aligned : ph.pVaddr % 4096 = 0) {j : Nat} (inside : j < ph.pMemsz) :
    loading.space.read loading.memory (ph.pVaddr + j) = some (segmentByte image ph j) := by
  have base : Paging.alignDown ph.pVaddr 4096 = ph.pVaddr := by
    unfold Paging.alignDown
    omega
  have covered : j < calculatePages ph.pMemsz * 4096 := by
    unfold calculatePages
    omega
  rw [← base]
  exact placed j covered

/-! ## The frame of one page -/

section Page

variable {image : List Nat} {fileOffset fileSize : Nat}

theorem length_pageBytes (fits : fileOffset + fileSize ≤ image.length) (pageOffset : Nat) :
    (pageBytes image fileOffset fileSize pageOffset).length = 4096 := by
  unfold pageBytes
  split
  · simp only [List.length_append, List.length_take, List.length_drop, List.length_replicate]
    omega
  · exact List.length_replicate

/-- The frame of the page at `pageOffset` in the segment holds the segment
bytes from there. -/
theorem getD_pageBytes {ph : ProgramHeader} (fits : ph.pOffset + ph.pFilesz ≤ image.length)
    (pageOffset : Nat) {offset : Nat} (inPage : offset < 4096) :
    (pageBytes image ph.pOffset ph.pFilesz pageOffset).getD offset 0 =
      segmentByte image ph (pageOffset + offset) := by
  unfold pageBytes segmentByte
  split
  · rename_i fileLeft
    by_cases copied : offset < min (ph.pFilesz - pageOffset) 4096
    · have fromFile : ph.pOffset + pageOffset + offset < image.length := by omega
      rw [if_pos (show pageOffset + offset < ph.pFilesz by omega), List.getD_eq_getElem?_getD,
        List.getElem?_append_left (by simp; omega), List.getElem?_take_of_lt copied, List.getElem?_drop,
        List.getD_eq_getElem?_getD, Nat.add_assoc]
    · rw [if_neg (show ¬ pageOffset + offset < ph.pFilesz by omega), List.getD_eq_getElem?_getD,
        List.getElem?_append_right (by simp; omega), List.getElem?_replicate]
      split <;> rfl
  · rw [if_neg (show ¬ pageOffset + offset < ph.pFilesz by omega), List.getD_eq_getElem?_getD,
      List.getElem?_replicate]
    split <;> rfl

end Page

/-! ## The check loop and the mapping loop -/

theorem checkUnmapped_eq_ok {space : Space} {vaddr : Nat} {indices : List Nat}
    (checked : checkUnmapped space vaddr indices = some (.ok ())) :
    ∀ i ∈ indices, space.translate (vaddr + i * 4096) = none := by
  induction indices with
  | nil => exact fun _ absent => absurd absent List.not_mem_nil
  | cons pageIdx rest inductionHypothesis =>
      unfold checkUnmapped at checked
      cases canonical : virtAddrTryNew (calculateOffsetAddress vaddr pageIdx) with
      | none => simp [canonical] at checked
      | some pageVaddr =>
          simp only [canonical, Option.bind_eq_bind, Option.bind_some] at checked
          have pageEq := eq_of_virtAddrTryNew_eq_some canonical
          split at checked
          · cases checked
          · rename_i unmapped
            intro i member
            rcases List.mem_cons.mp member with rfl | later
            · rw [pageEq] at unmapped
              simpa [calculateOffsetAddress] using unmapped
            · exact inductionHypothesis checked i later

/-- The mapping loop over distinct page indices whose pages are unmapped:
each page reads the frame it filled, and everything that read before reads
the same. -/
theorem mapPages_spec {image : List Nat} {ph : ProgramHeader} (fits : ph.pOffset + ph.pFilesz ≤ image.length)
    {indices : List Nat} {state final : Loading} (owned : Owned state.space state.frames)
    (fresh : ∀ i ∈ indices, state.space.translate (ph.pVaddr + i * 4096) = none)
    (distinct : indices.Nodup) (ran : mapPages image ph state indices = some (.ok (), final)) :
    Keeps state final ∧ ∀ i ∈ indices, ∀ addr, addr / 4096 = (ph.pVaddr + i * 4096) / 4096 →
      final.space.read final.memory addr = some ((pageBytes image ph.pOffset ph.pFilesz (i * 4096)).getD (addr % 4096) 0) := by
  induction indices generalizing state with
  | nil =>
      simp only [mapPages, Option.some.injEq, Prod.mk.injEq, true_and] at ran
      subst ran
      exact ⟨⟨owned, fun _ _ => rfl⟩, fun _ absent => absurd absent List.not_mem_nil⟩
  | cons pageIdx rest inductionHypothesis =>
      obtain ⟨space, frames, memory⟩ := state
      unfold mapPages at ran
      cases canonical : virtAddrTryNew (calculateOffsetAddress ph.pVaddr pageIdx) with
      | none => simp [canonical] at ran
      | some pageVaddr =>
          simp only [canonical, Option.bind_eq_bind, Option.bind_some] at ran
          have pageEq : pageVaddr = ph.pVaddr + pageIdx * 4096 := eq_of_virtAddrTryNew_eq_some canonical
          cases frames with
          | nil => cases ran
          | cons frame free =>
              rw [List.nodup_cons] at distinct
              dsimp only at ran owned fresh
              have whole := length_pageBytes fits (pageIdx * 4096)
              -- the pages of the other indices are other pages, so they stay unmapped
              have otherPage : ∀ i ∈ rest, (ph.pVaddr + i * 4096) / 4096 ≠ pageVaddr / 4096 := by
                intro i member same
                rw [pageEq, Nat.add_mul_div_right _ _ (by decide),
                  Nat.add_mul_div_right _ _ (by decide)] at same
                exact distinct.1 (Nat.add_left_cancel same ▸ member)
              have freshRest : ∀ i ∈ rest,
                  (space.map pageVaddr frame (segmentFlags ph.pFlags)).translate (ph.pVaddr + i * 4096) = none :=
                fun i member => by
                  rw [Space.translate_map_of_ne (otherPage i member)]
                  exact fresh i (List.mem_cons_of_mem _ member)
              obtain ⟨keeps, placed⟩ := inductionHypothesis (owned.map pageVaddr (segmentFlags ph.pFlags))
                freshRest distinct.2 ran
              -- the first page: mapped and filled here, kept by the rest of the loop
              have first : Keeps ⟨space, frame :: free, memory⟩
                  ⟨space.map pageVaddr frame (segmentFlags ph.pFlags), free,
                    writeFrame memory frame (pageBytes image ph.pOffset ph.pFilesz (pageIdx * 4096))⟩ := by
                refine ⟨owned.map pageVaddr (segmentFlags ph.pFlags), fun addr readable => ?_⟩
                have mapped := (Space.isSome_read_iff memory).mp readable
                have differs : addr / pageSize ≠ pageVaddr / pageSize := fun same => by
                  have unmapped := fresh pageIdx List.mem_cons_self
                  rw [← pageEq] at unmapped
                  rw [Space.translate, same] at mapped
                  rw [Space.translate] at unmapped
                  rw [unmapped] at mapped
                  cases mapped
                exact owned.read_map_write_of_ne (le_of_eq whole) mapped differs
              refine ⟨first.trans keeps, fun i member addr samePage => ?_⟩
              rcases List.mem_cons.mp member with rfl | later
              · have here := @read_map_write_self space memory frame _ whole pageVaddr (segmentFlags ph.pFlags) addr
                  (show addr / pageSize = pageVaddr / pageSize by rw [pageEq]; exact samePage)
                rw [keeps.reads addr (by rw [here]; rfl), here]
                rfl
              · exact placed i later addr samePage

/-! ## One header, and the header loop -/

/-- What a header that loads without error did: nothing, or it passed every
check and its pages were mapped. -/
theorem loadSegment_eq_ok {image : List Nat} {state final : Loading} {ph : ProgramHeader}
    (ran : loadSegment image state ph = some (.ok (), final)) :
    (ph.pType ≠ ptLoad ∧ final = state) ∨
      (ph.pType = ptLoad ∧ ph.pOffset + ph.pFilesz ≤ image.length ∧ ph.pFilesz ≤ ph.pMemsz ∧
        0 < ph.pMemsz ∧ ph.pVaddr + ph.pMemsz - 1 < 0x0000800000000000 ∧
        checkUnmapped state.space ph.pVaddr (List.range (calculatePages ph.pMemsz)) = some (.ok ()) ∧
        mapPages image ph state (List.range (calculatePages ph.pMemsz)) = some (.ok (), final)) := by
  unfold loadSegment at ran
  by_cases loads : ph.pType = ptLoad
  swap
  · rw [if_pos loads, Option.some.injEq, Prod.mk.injEq] at ran
    exact Or.inl ⟨loads, ran.2.symm⟩
  rw [if_neg (not_not.mpr loads)] at ran
  -- the checks in the order of the source, each error case contradicting `ran`
  obtain ⟨fileEnd, fileEndEq⟩ : ∃ fileEnd, Word.checkedAdd 64 ph.pOffset ph.pFilesz = some fileEnd :=
    Option.ne_none_iff_exists'.mp fun overflow => by simp [overflow] at ran
  obtain ⟨-, rfl⟩ := Word.checkedAdd_eq_some_iff.mp fileEndEq
  simp only [fileEndEq] at ran
  by_cases tooShort : image.length < ph.pOffset + ph.pFilesz
  · rw [if_pos tooShort] at ran
    cases ran
  rw [if_neg tooShort] at ran
  by_cases tooSmall : ph.pMemsz < ph.pFilesz
  · rw [if_pos tooSmall] at ran
    cases ran
  rw [if_neg tooSmall] at ran
  obtain ⟨vaddrEnd, vaddrEndEq⟩ : ∃ vaddrEnd, Word.checkedAdd 64 ph.pVaddr ph.pMemsz = some vaddrEnd :=
    Option.ne_none_iff_exists'.mp fun overflow => by simp [overflow] at ran
  obtain ⟨-, rfl⟩ := Word.checkedAdd_eq_some_iff.mp vaddrEndEq
  simp only [vaddrEndEq] at ran
  by_cases empty : ph.pMemsz = 0
  · rw [if_pos empty] at ran
    cases ran
  rw [if_neg empty] at ran
  -- both ends are canonical, or `VirtAddr::new` panics
  obtain ⟨startAddr, startEq⟩ : ∃ startAddr, virtAddrTryNew ph.pVaddr = some startAddr :=
    Option.ne_none_iff_exists'.mp fun panics => by simp [panics] at ran
  obtain ⟨endAddr, endEq⟩ : ∃ endAddr, virtAddrTryNew (ph.pVaddr + ph.pMemsz - 1) = some endAddr :=
    Option.ne_none_iff_exists'.mp fun panics => by simp [startEq, panics] at ran
  simp only [startEq, endEq, Option.bind_eq_bind, Option.bind_some] at ran
  rw [eq_of_virtAddrTryNew_eq_some startEq, eq_of_virtAddrTryNew_eq_some endEq] at ran
  by_cases outside : (!isUserAddress ph.pVaddr || !isUserAddress (ph.pVaddr + ph.pMemsz - 1)) = true
  · rw [if_pos outside] at ran
    cases ran
  rw [if_neg outside] at ran
  have endUser : ph.pVaddr + ph.pMemsz - 1 < 0x0000800000000000 := by
    simp only [Bool.or_eq_true, Bool.not_eq_true', not_or, Bool.not_eq_false] at outside
    simpa [isUserAddress] using outside.2
  have checked : checkUnmapped state.space ph.pVaddr (List.range (calculatePages ph.pMemsz)) = some (.ok ()) := by
    cases found : checkUnmapped state.space ph.pVaddr (List.range (calculatePages ph.pMemsz)) with
    | none => simp [found] at ran
    | some result =>
        cases result with
        | error error => simp [found] at ran
        | ok _ => rfl
  simp only [checked, Option.bind_some] at ran
  exact Or.inr ⟨loads, by omega, by omega, by omega, endUser, checked, ran⟩

/-- A header that loads keeps what read before and, if it is `PT_LOAD`,
places its segment. -/
theorem loadSegment_spec {image : List Nat} {state final : Loading} {ph : ProgramHeader}
    (owned : Owned state.space state.frames) (ran : loadSegment image state ph = some (.ok (), final)) :
    Keeps state final ∧ (ph.pType = ptLoad → Placed image final ph) := by
  rcases loadSegment_eq_ok ran with ⟨skipped, rfl⟩ | ⟨-, fits, -, -, -, checked, mapped⟩
  · exact ⟨⟨owned, fun _ _ => rfl⟩, fun loads => absurd loads skipped⟩
  obtain ⟨keeps, placed⟩ := mapPages_spec fits owned (fun i member => checkUnmapped_eq_ok checked i member)
    List.nodup_range mapped
  refine ⟨keeps, fun _ j inside => ?_⟩
  -- the byte `j` of the segment is in page `j / 4096`, at offset `j % 4096`
  have pageOf : j / 4096 < calculatePages ph.pMemsz := Nat.div_lt_of_lt_mul (by rwa [Nat.mul_comm] at inside)
  have samePage : (Paging.alignDown ph.pVaddr 4096 + j) / 4096 = (ph.pVaddr + j / 4096 * 4096) / 4096 := by
    unfold Paging.alignDown
    omega
  have offsetEq : (Paging.alignDown ph.pVaddr 4096 + j) % 4096 = j % 4096 := by
    unfold Paging.alignDown
    omega
  rw [placed (j / 4096) (List.mem_range.mpr pageOf) _ samePage, offsetEq,
    getD_pageBytes fits _ (Nat.mod_lt _ (by decide)), Nat.div_add_mod' j 4096]

/-- The header loop, when it returns without error, keeps what read before and
places every `PT_LOAD` segment. -/
theorem loadSegments_spec {image : List Nat} {headers : List ProgramHeader} {state final : Loading}
    (owned : Owned state.space state.frames) (ran : loadSegments image state headers = some (.ok (), final)) :
    Keeps state final ∧ ∀ ph ∈ headers, ph.pType = ptLoad → Placed image final ph := by
  induction headers generalizing state with
  | nil =>
      simp only [loadSegments, Option.some.injEq, Prod.mk.injEq, true_and] at ran
      subst ran
      exact ⟨⟨owned, fun _ _ => rfl⟩, fun _ absent => absurd absent List.not_mem_nil⟩
  | cons ph rest inductionHypothesis =>
      unfold loadSegments at ran
      cases loaded : loadSegment image state ph with
      | none => simp [loaded] at ran
      | some outcome =>
          obtain ⟨result, next⟩ := outcome
          cases result with
          | error error => simp [loaded] at ran
          | ok _ =>
              simp only [loaded] at ran
              obtain ⟨first, placedHere⟩ := loadSegment_spec owned loaded
              obtain ⟨rest', placedRest⟩ := inductionHypothesis first.owned ran
              refine ⟨first.trans rest', fun header member loads => ?_⟩
              rcases List.mem_cons.mp member with rfl | later
              · exact (placedHere loads).of_keeps rest'
              · exact placedRest header later loads

/-! ## The loaded program -/

/-- A program that loads has, in the page table of its process, every
`PT_LOAD` segment laid out from the page that holds its `p_vaddr`, over what
the prepared page table read before; the frames left are still the
allocator's to give. -/
theorem loadProgramInner_places_segments {k k' : LoaderKernel} {image : List Nat} {elf : Elf}
    {name : String} {space : Space} {pid : Nat} (owned : Owned space k.frames)
    (ran : loadProgramInner k image (some elf) name (.ok space) = some (.ok pid, k')) :
    ∃ loaded, k'.pageTables pid = some loaded ∧ Owned loaded k'.frames ∧
      (∀ addr, (space.read k.memory addr).isSome → loaded.read k'.memory addr = space.read k.memory addr) ∧
      ∀ ph ∈ elf.programHeaders, ph.pType = ptLoad → Placed image ⟨loaded, k'.frames, k'.memory⟩ ph := by
  dsimp only [loadProgramInner] at ran
  split_ifs at ran
  · cases ran
  obtain ⟨entry, -, ran⟩ := Option.bind_eq_some_iff.mp ran
  -- the process was created, and the loop ran on its prepared page table
  obtain ⟨createdPid, created, createdEq⟩ :
      ∃ createdPid created, createProcess k name (.ok space) = (.ok createdPid, created) := by
    cases createdEq : createProcess k name (.ok space) with
    | mk result created =>
        cases result with
        | error error =>
            rw [createdEq] at ran
            cases ran
        | ok createdPid => exact ⟨createdPid, created, rfl⟩
  rw [createdEq] at ran
  obtain ⟨inList, owns, sameFrames, sameMemory⟩ := createProcess_eq_ok createdEq
  obtain ⟨⟨result, final⟩, loop, equal⟩ := Option.map_eq_some_iff.mp ran
  cases result with
  | error error => cases equal
  | ok =>
      simp only [Prod.mk.injEq, Except.ok.injEq] at equal
      obtain ⟨rfl, rfl⟩ := equal
      have found : (created.scheduler.processes.find? fun process => process.id == createdPid).isSome :=
        List.find?_isSome.mpr ⟨_, inList, beq_self_eq_true _⟩
      obtain ⟨loaded, segments, tableEq, framesEq, memoryEq⟩ := loadIntoProcess_eq found owns loop
      rw [sameFrames, sameMemory] at segments
      obtain ⟨keeps, placed⟩ := loadSegments_spec owned segments
      refine ⟨loaded.space, tableEq, framesEq ▸ keeps.owned, fun addr readable => ?_,
        fun ph member loads => ?_⟩
      · rw [memoryEq]
        exact keeps.reads addr readable
      · rw [framesEq, memoryEq]
        exact placed ph member loads

/-- A segment at `0x400FFF` of two file bytes `AA BB`: the loader maps one
page, at `0x400000`, and fills its frame from offset 0. -/
def unalignedElf : Elf := ⟨etExec, 0x400FFF, [⟨ptLoad, 5, 0, 0x400FFF, 2, 2⟩]⟩

theorem load_program_shifts_unaligned_segment :
    (loadProgramInner initKernel [0xAA, 0xBB] (some unalignedElf) "init" (.ok ⟨[]⟩)).map
        (fun (result, k) =>
          (result, (k.pageTables 2).map fun space =>
            (space.read k.memory 0x400FFF, space.read k.memory 0x401000, space.read k.memory 0x400000))) =
      some (.ok 2, some (some 0, none, some 0xAA)) := by
  decide +kernel

end Fullerene.Kernel
