import Fullerene.Genome.MemFileSystem.Files
import Fullerene.Genome.MemFileSystem.Invariant

/-!
# `MemFileSystem` refines the byte-array model

`files` reads the byte-array model off a `MemFileSystem`: the data of every
inode of kind `File`, and the inode and offset of every descriptor.  Every
call that returns is a `Files.Step` between the views of the states before
and after it, as long as the state is `Consistent`: the tree is well formed,
every inode's `size` is the length of its data, and descriptors hold 64-bit
offsets, inode numbers that were already handed out and descriptor numbers
below the counter.  Every call keeps `Consistent`, so every run of the
filesystem from `MemFileSystem::new()` is a run of the model.

Under `Consistent` the `InvalidSeek` branches of `read` and `write` are dead:
the offset is a 64-bit number, and the end of a read is within the data,
whose length is a 64-bit number.
-/

namespace Fullerene.Genome

open Function

/-- The content of an inode in the byte-array model: its data if it is a
regular file. -/
def Inode.content (inode : Inode) : Option (List UInt8) :=
  if inode.kind = .file then some inode.data else none

/-- The recorded size of an inode is the length of its data, which is a
64-bit number. -/
def Inode.Sized (inode : Inode) : Prop :=
  inode.size = inode.data.length ∧ inode.data.length < 2 ^ 64

/-- What a descriptor designates in the byte-array model: an inode and an
offset. -/
def FileDescriptor.target (desc : FileDescriptor) : Nat × Nat :=
  (desc.ino, desc.offset)

namespace MemFileSystem

/-- The byte-array model of a `MemFileSystem`. -/
def files (fs : MemFileSystem) : Files where
  contents ino := (fs.inodes ino).bind Inode.content
  descriptors fd := (fs.fds fd).map FileDescriptor.target

/-- The invariant under which each call is a step of the byte-array model. -/
structure Consistent (fs : MemFileSystem) : Prop where
  /-- the inodes form a well-formed tree -/
  wellFormed : WellFormed fs.tree fs.nextIno
  /-- every inode's size is the length of its data, a 64-bit number -/
  sized : ∀ {ino inode}, fs.inodes ino = some inode → inode.Sized
  /-- every descriptor holds a 64-bit offset -/
  offsetBound : ∀ {fd desc}, fs.fds fd = some desc → desc.offset < 2 ^ 64
  /-- every descriptor designates an inode number that was handed out -/
  inoBelow : ∀ {fd desc}, fs.fds fd = some desc → desc.ino < fs.nextIno
  /-- every descriptor number is below the descriptor counter -/
  fdBelow : ∀ {fd desc}, fs.fds fd = some desc → fd < fs.nextFd

variable {fs : MemFileSystem}

/-! ## The view after an update -/

theorem files_update_fds (fs : MemFileSystem) (fd : Nat) (value : Option FileDescriptor) :
    files { fs with fds := update fs.fds fd value } =
      { files fs with descriptors := update (files fs).descriptors fd (value.map FileDescriptor.target) } := by
  show { files fs with descriptors := Option.map FileDescriptor.target ∘ update fs.fds fd value } = _
  rw [comp_update]
  rfl

theorem files_update_inodes (fs : MemFileSystem) (ino : Nat) (value : Option Inode) :
    files { fs with inodes := update fs.inodes ino value } =
      { files fs with contents := update (files fs).contents ino (value.bind Inode.content) } := by
  show { files fs with contents := (Option.bind · Inode.content) ∘ update fs.inodes ino value } = _
  rw [comp_update]
  rfl

/-- A write changes one inode and one descriptor. -/
theorem files_update_inodes_fds (fs : MemFileSystem) (ino : Nat) (inode : Option Inode) (fd : Nat)
    (desc : Option FileDescriptor) :
    files { fs with inodes := update fs.inodes ino inode, fds := update fs.fds fd desc } =
      ⟨update (files fs).contents ino (inode.bind Inode.content),
        update (files fs).descriptors fd (desc.map FileDescriptor.target)⟩ := by
  show (⟨(Option.bind · Inode.content) ∘ update fs.inodes ino inode,
    Option.map FileDescriptor.target ∘ update fs.fds fd desc⟩ : Files) = _
  rw [comp_update, comp_update]
  rfl

theorem fileAt_files {fd ino offset : Nat} {content : List UInt8} :
    (files fs).fileAt fd = some (ino, offset, content) ↔
      ∃ desc inode, fs.fds fd = some desc ∧ desc.ino = ino ∧ desc.offset = offset ∧
        fs.inodes ino = some inode ∧ inode.kind = .file ∧ inode.data = content := by
  rw [Files.fileAt_eq_some]
  constructor
  · rintro ⟨described, contained⟩
    obtain ⟨desc, found, same⟩ := Option.map_eq_some_iff.mp described
    obtain ⟨inode, present, fileContent⟩ := Option.bind_eq_some_iff.mp contained
    simp only [FileDescriptor.target, Prod.mk.injEq] at same
    unfold Inode.content at fileContent
    split_ifs at fileContent with isFile
    cases fileContent
    exact ⟨desc, inode, found, same.1, same.2, present, isFile, rfl⟩
  · rintro ⟨desc, inode, found, rfl, rfl, present, isFile, rfl⟩
    refine ⟨by simp [files, found, FileDescriptor.target], ?_⟩
    simp [files, present, Inode.content, isFile]

/-- A descriptor that does not designate a regular file. -/
theorem fileAt_files_eq_none {fd : Nat}
    (noFile : ∀ desc inode, fs.fds fd = some desc → fs.inodes desc.ino = some inode →
      inode.kind ≠ .file) :
    (files fs).fileAt fd = none := by
  cases found : (files fs).fileAt fd with
  | none => rfl
  | some target =>
      obtain ⟨ino, offset, content⟩ := target
      obtain ⟨desc, inode, described, rfl, -, present, isFile, -⟩ := fileAt_files.mp found
      exact absurd isFile (noFile desc inode described present)

/-! ## `read` -/

/-- Under the invariant a read either fails and changes nothing, on a
descriptor that designates no regular file, or returns `readAt` and moves the
descriptor's offset past what it returned. -/
theorem read_cases (consistent : Consistent fs) (fd len : Nat) :
    ((files fs).fileAt fd = none ∧ Failed (fs.read fd len).1 ∧ (fs.read fd len).2 = fs) ∨
      ∃ desc inode, fs.fds fd = some desc ∧ fs.inodes desc.ino = some inode ∧
        inode.kind = .file ∧
        fs.read fd len = (.ok (Files.readAt inode.data desc.offset len),
          { fs with fds := update fs.fds fd (some { desc with
            offset := desc.offset + (Files.readAt inode.data desc.offset len).length }) }) := by
  unfold read
  split
  · rename_i missing
    refine .inl ⟨fileAt_files_eq_none fun desc _ found => ?_, ⟨_, rfl⟩, rfl⟩
    rw [missing] at found
    cases found
  · rename_i desc described
    split
    · rename_i missing
      refine .inl ⟨fileAt_files_eq_none fun desc' _ found present => ?_, ⟨_, rfl⟩, rfl⟩
      rw [described] at found
      cases found
      rw [missing] at present
      cases present
    · rename_i inode present
      by_cases isFile : inode.kind = .file
      · have offsetFits : ¬Word.max 64 < desc.offset := by
          have := consistent.offsetBound described
          unfold Word.max
          omega
        refine .inr ⟨desc, inode, described, present, isFile, ?_⟩
        rw [if_neg (not_not.mpr isFile), if_neg offsetFits]
        split_ifs with past
        · -- nothing is left after the offset: the descriptor keeps its offset
          have empty : Files.readAt inode.data desc.offset len = [] := by
            simp [Files.readAt, List.drop_eq_nil_of_le past]
          have unchanged : ({ desc with offset := desc.offset } : FileDescriptor) = desc := rfl
          rw [empty, List.length_nil, Nat.add_zero, unchanged, ← described, update_eq_self]
        · -- the end of the read is within the data, a 64-bit number
          have within : desc.offset + min (inode.data.drop desc.offset).length len < 2 ^ 64 := by
            have := (consistent.sized present).2
            simp only [List.length_drop]
            omega
          dsimp only
          rw [Word.checkedAdd, if_pos within]
          simp [Files.readAt, Nat.min_comm]
      · refine .inl ⟨fileAt_files_eq_none fun desc' inode' found present' => ?_, ?_⟩
        · rw [described] at found
          cases found
          rw [present] at present'
          cases present'
          exact isFile
        · rw [if_pos isFile]
          exact ⟨⟨_, rfl⟩, rfl⟩

/-! ## The invariant after an update -/

/-- Moving a descriptor to another 64-bit offset keeps the invariant. -/
theorem Consistent.setOffset (consistent : Consistent fs) {fd : Nat} {desc : FileDescriptor}
    (described : fs.fds fd = some desc) {offset : Nat} (bound : offset < 2 ^ 64) :
    Consistent { fs with fds := update fs.fds fd (some { desc with offset }) } where
  wellFormed := consistent.wellFormed
  sized := consistent.sized
  offsetBound := by
    intro other desc' found
    by_cases same : other = fd
    · subst same
      simp only [update_self, Option.some.injEq] at found
      exact found ▸ bound
    · simp only [update_of_ne same] at found
      exact consistent.offsetBound found
  inoBelow := by
    intro other desc' found
    by_cases same : other = fd
    · subst same
      simp only [update_self, Option.some.injEq] at found
      rw [← found]
      exact (consistent.inoBelow described :)
    · simp only [update_of_ne same] at found
      exact consistent.inoBelow found
  fdBelow := by
    intro other desc' found
    by_cases same : other = fd
    · subst same
      exact consistent.fdBelow described
    · simp only [update_of_ne same] at found
      exact consistent.fdBelow found

theorem read_refines (consistent : Consistent fs) (fd len : Nat) :
    Files.Step (files fs) (.read fd len) (.bytes (fs.read fd len).1) (files (fs.read fd len).2) ∧
      Consistent (fs.read fd len).2 := by
  rcases read_cases consistent fd len with ⟨noFile, failed, unchanged⟩ |
      ⟨desc, inode, described, present, isFile, readEq⟩
  · rw [unchanged]
    refine ⟨?_, consistent⟩
    simpa only [Files.Step, noFile, and_true] using failed
  · have target : (files fs).fileAt fd = some (desc.ino, desc.offset, inode.data) :=
      fileAt_files.mpr ⟨desc, inode, described, rfl, rfl, present, isFile, rfl⟩
    rw [readEq]
    refine ⟨?_, consistent.setOffset described ?_⟩
    · simp only [Files.Step, target, true_and]
      exact files_update_fds fs fd _
    · -- the end of the read is within the data, or the offset is unchanged
      have dataBound := (consistent.sized present).2
      have offsetBound := consistent.offsetBound described
      simp only [Files.length_readAt]
      omega

/-! ## `write` -/

/-- Under the invariant a write fails and changes nothing, on a descriptor that
designates no regular file or when the written range would end past the
64-bit offsets, or it writes the data at the offset (`writeAt`, zero-filled),
records the new size and moves the offset past the data. -/
theorem write_cases (consistent : Consistent fs) (fd : Nat) (data : List UInt8) :
    ((files fs).fileAt fd = none ∧ Failed (fs.write fd data).1 ∧ (fs.write fd data).2 = fs) ∨
      ∃ desc inode, fs.fds fd = some desc ∧ fs.inodes desc.ino = some inode ∧
        inode.kind = .file ∧
        ((2 ^ 64 ≤ desc.offset + data.length ∧ Failed (fs.write fd data).1 ∧
            (fs.write fd data).2 = fs) ∨
          (desc.offset + data.length < 2 ^ 64 ∧
            let written := inode.data.writeAt desc.offset data 0
            fs.write fd data = (.ok data.length,
              { fs with
                inodes := update fs.inodes desc.ino
                  (some { inode with data := written, size := written.length })
                fds := update fs.fds fd (some { desc with offset := desc.offset + data.length }) }))) := by
  unfold write
  split
  · rename_i missing
    refine .inl ⟨fileAt_files_eq_none fun desc _ found => ?_, ⟨_, rfl⟩, rfl⟩
    rw [missing] at found
    cases found
  · rename_i desc described
    split
    · rename_i missing
      refine .inl ⟨fileAt_files_eq_none fun desc' _ found present => ?_, ⟨_, rfl⟩, rfl⟩
      rw [described] at found
      cases found
      rw [missing] at present
      cases present
    · rename_i inode present
      by_cases isFile : inode.kind = .file
      · have offsetFits : ¬Word.max 64 < desc.offset := by
          have := consistent.offsetBound described
          unfold Word.max
          omega
        refine .inr ⟨desc, inode, described, present, isFile, ?_⟩
        rw [if_neg (not_not.mpr isFile), if_neg offsetFits]
        split
        · -- the end of the range is past the 64-bit offsets: `InvalidInput`
          rename_i tooFar
          exact .inl ⟨Word.checkedAdd_eq_none_iff.mp tooFar, ⟨_, rfl⟩, rfl⟩
        · rename_i newLen added
          obtain ⟨fits, rfl⟩ := Word.checkedAdd_eq_some_iff.mp added
          refine .inr ⟨fits, ?_⟩
          -- growing and copying is the positional write
          dsimp only
          rw [List.copyFromSlice_resize]
      · refine .inl ⟨fileAt_files_eq_none fun desc' inode' found present' => ?_, ?_⟩
        · rw [described] at found
          cases found
          rw [present] at present'
          cases present'
          exact isFile
        · rw [if_pos isFile]
          exact ⟨⟨_, rfl⟩, rfl⟩

/-- Replacing the data of an inode by a 64-bit number of bytes, with its size
recorded, keeps the invariant. -/
theorem Consistent.setData (consistent : Consistent fs) {ino : Nat} {inode : Inode}
    (present : fs.inodes ino = some inode) {data : List UInt8} (bound : data.length < 2 ^ 64) :
    Consistent
      { fs with inodes := update fs.inodes ino (some { inode with data, size := data.length }) } where
  wellFormed := wellFormed_of_sameTree consistent.wellFormed (sameTree_of_update present (by rfl) rfl rfl)
  sized := by
    intro other inode' found
    by_cases same : other = ino
    · subst same
      simp only [update_self, Option.some.injEq] at found
      rw [← found]
      exact ⟨rfl, bound⟩
    · simp only [update_of_ne same] at found
      exact consistent.sized found
  offsetBound := consistent.offsetBound
  inoBelow := consistent.inoBelow
  fdBelow := consistent.fdBelow

theorem write_refines (consistent : Consistent fs) (fd : Nat) (data : List UInt8) :
    Files.Step (files fs) (.write fd data) (.count (fs.write fd data).1)
        (files (fs.write fd data).2) ∧
      Consistent (fs.write fd data).2 := by
  rcases write_cases consistent fd data with ⟨noFile, failed, unchanged⟩ |
      ⟨desc, inode, described, present, isFile, ⟨tooFar, failed, unchanged⟩ | ⟨fits, writeEq⟩⟩
  · rw [unchanged]
    refine ⟨?_, consistent⟩
    simpa only [Files.Step, noFile, and_true] using failed
  · have target : (files fs).fileAt fd = some (desc.ino, desc.offset, inode.data) :=
      fileAt_files.mpr ⟨desc, inode, described, rfl, rfl, present, isFile, rfl⟩
    rw [unchanged]
    refine ⟨?_, consistent⟩
    simpa only [Files.Step, target, if_neg (Nat.not_lt.mpr tooFar), and_true] using failed
  · have target : (files fs).fileAt fd = some (desc.ino, desc.offset, inode.data) :=
      fileAt_files.mpr ⟨desc, inode, described, rfl, rfl, present, isFile, rfl⟩
    -- the new length is that of the old data or the end of the range
    have writtenBound : (inode.data.writeAt desc.offset data 0).length < 2 ^ 64 := by
      have := (consistent.sized present).2
      simp only [List.length_writeAt]
      omega
    rw [writeEq]
    refine ⟨?_, (consistent.setData present writtenBound).setOffset described fits⟩
    simp only [Files.Step, target, if_pos fits, true_and]
    rw [files_update_inodes_fds]
    simp [Inode.content, isFile, FileDescriptor.target]

/-! ## Descriptor calls -/

theorem descriptors_files_eq_none {fd : Nat} (missing : fs.fds fd = none) :
    (files fs).descriptors fd = none := by
  simp [files, missing]

theorem descriptors_files_eq_some {fd : Nat} {desc : FileDescriptor}
    (described : fs.fds fd = some desc) :
    (files fs).descriptors fd = some (desc.ino, desc.offset) := by
  simp [files, described, FileDescriptor.target]

theorem seek_refines (consistent : Consistent fs) (fd : Nat) (pos : UInt64) :
    Files.Step (files fs) (.seek fd pos) (.status (fs.seek fd pos.toNat).1)
        (files (fs.seek fd pos.toNat).2) ∧
      Consistent (fs.seek fd pos.toNat).2 := by
  unfold seek
  split
  · rename_i missing
    refine ⟨?_, consistent⟩
    simp only [Files.Step, descriptors_files_eq_none missing, and_true]
    exact ⟨_, rfl⟩
  · rename_i desc described
    refine ⟨?_, consistent.setOffset described (UInt64.toNat_lt pos)⟩
    simp only [Files.Step, descriptors_files_eq_some described, true_and]
    exact files_update_fds fs fd _

/-- Dropping a descriptor keeps the invariant. -/
theorem Consistent.dropFd (consistent : Consistent fs) (fd : Nat) :
    Consistent { fs with fds := update fs.fds fd none } where
  wellFormed := consistent.wellFormed
  sized := consistent.sized
  offsetBound := by
    intro other desc found
    by_cases same : other = fd
    · subst same
      simp at found
    · simp only [update_of_ne same] at found
      exact consistent.offsetBound found
  inoBelow := by
    intro other desc found
    by_cases same : other = fd
    · subst same
      simp at found
    · simp only [update_of_ne same] at found
      exact consistent.inoBelow found
  fdBelow := by
    intro other desc found
    by_cases same : other = fd
    · subst same
      simp at found
    · simp only [update_of_ne same] at found
      exact consistent.fdBelow found

theorem close_refines (consistent : Consistent fs) (fd : Nat) :
    Files.Step (files fs) (.close fd) (.status (fs.close fd).1) (files (fs.close fd).2) ∧
      Consistent (fs.close fd).2 := by
  unfold close
  split
  · rename_i missing
    refine ⟨?_, consistent⟩
    simp only [Files.Step, descriptors_files_eq_none missing, and_true]
    exact ⟨_, rfl⟩
  · rename_i desc described
    refine ⟨?_, consistent.dropFd fd⟩
    simp only [Files.Step, descriptors_files_eq_some described, true_and]
    exact files_update_fds fs fd none

theorem size_refines (consistent : Consistent fs) (fd : Nat) :
    Files.Step (files fs) (.size fd) (.count (fs.size fd)) (files fs) := by
  refine ⟨rfl, ?_⟩
  intro ino offset content target
  obtain ⟨desc, inode, described, rfl, -, present, -, rfl⟩ := fileAt_files.mp target
  -- `size` reports the recorded size, which is the length of the data
  simp [size, described, present, (consistent.sized present).1]

theorem position_refines (fd : Nat) :
    Files.Step (files fs) (.position fd) (.count (fs.position fd)) (files fs) := by
  refine ⟨rfl, ?_⟩
  cases described : fs.fds fd with
  | none =>
      rw [descriptors_files_eq_none described]
      exact ⟨.invalidFileDescriptor, by simp [position, described]⟩
  | some desc =>
      rw [descriptors_files_eq_some described]
      simp [position, described]

/-! ## `open` -/

/-- The root exists, so it is numbered below the counter. -/
theorem one_lt_nextIno (consistent : Consistent fs) : 1 < fs.nextIno := by
  obtain ⟨root, rootFound, -⟩ := consistent.wellFormed.root
  exact consistent.wellFormed.belowNext rootFound

/-- `lookup` ends on an inode number that was handed out. -/
theorem lookup_lt_nextIno (consistent : Consistent fs) {path : Path} {ino : Nat}
    (found : fs.lookup path = some ino) : ino < fs.nextIno := by
  rcases lookup_exists (noTargets_of_wellFormed consistent.wellFormed) found with
    rfl | ⟨inode, present⟩
  · exact one_lt_nextIno consistent
  · exact consistent.wellFormed.belowNext (tree_eq_some.mpr ⟨inode, present, rfl⟩)

theorem open_refines (consistent : Consistent fs) {path : Path} {flags : Nat}
    {result : Option FileDescriptor} {next : MemFileSystem}
    (opened : fs.open path flags = some (result, next)) :
    Files.Step (files fs) (.open path flags) (.descriptor result) (files next) ∧
      Consistent next := by
  unfold MemFileSystem.open at opened
  split at opened
  · cases opened
    exact ⟨.inl ⟨rfl, rfl⟩, consistent⟩
  · rename_i ino found
    split at opened
    · cases opened
    · rename_i nextFd added
      obtain ⟨-, rfl⟩ := Word.checkedAdd_eq_some_iff.mp added
      cases opened
      -- the counter's descriptor number is free
      have free : fs.fds fs.nextFd = none := by
        cases present : fs.fds fs.nextFd with
        | none => rfl
        | some desc => exact absurd (consistent.fdBelow present) (Nat.lt_irrefl _)
      refine ⟨.inr ⟨_, rfl, rfl, descriptors_files_eq_none free, files_update_fds fs _ _⟩, ?_⟩
      refine ⟨consistent.wellFormed, consistent.sized, ?_, ?_, ?_⟩
      · intro fd desc described
        by_cases same : fd = fs.nextFd
        · subst same
          simp only [update_self, Option.some.injEq] at described
          rw [← described]
          exact Nat.two_pow_pos 64
        · simp only [update_of_ne same] at described
          exact consistent.offsetBound described
      · intro fd desc described
        by_cases same : fd = fs.nextFd
        · subst same
          simp only [update_self, Option.some.injEq] at described
          rw [← described]
          exact lookup_lt_nextIno consistent found
        · simp only [update_of_ne same] at described
          exact consistent.inoBelow described
      · intro fd desc described
        by_cases same : fd = fs.nextFd
        · exact same ▸ Nat.lt_succ_self _
        · simp only [update_of_ne same] at described
          exact Nat.lt_succ_of_lt (consistent.fdBelow described)

/-! ## `create`, `mkdir` and `unlink` -/

/-- Storing a sized inode, or removing one, keeps every inode sized. -/
theorem sized_update {inodes : Nat → Option Inode}
    (sized : ∀ {ino inode}, inodes ino = some inode → Inode.Sized inode) {changed : Nat}
    {value : Option Inode} (valueSized : ∀ inode, value = some inode → inode.Sized) {ino : Nat}
    {inode : Inode} (found : update inodes changed value ino = some inode) : inode.Sized := by
  by_cases same : ino = changed
  · subst same
    rw [update_self] at found
    exact valueSized inode found
  · rw [update_of_ne same] at found
    exact sized found

/-- A directory has no content in the model. -/
theorem contents_files_of_directory {ino : Nat} {inode : Inode}
    (present : fs.inodes ino = some inode) (directory : inode.kind = .directory) :
    (files fs).contents ino = none := by
  simp [files, present, Inode.content, directory]

theorem create_refines (consistent : Consistent fs) {path : Path} {kind : InodeType}
    {result : Option Nat} {next : MemFileSystem}
    (created : fs.create path kind = some (result, next)) :
    Files.Step (files fs) (.create path kind) (.ino result) (files next) ∧ Consistent next := by
  have wf := consistent.wellFormed
  have fresh := fresh_of_wellFormed wf
  rcases create_cases fresh created with ⟨rfl, rfl⟩ |
      ⟨parentIno, name, parent, -, -, present, directory, -, rfl, rfl⟩
  · exact ⟨.inl ⟨rfl, rfl⟩, consistent⟩
  · have notNew : parentIno ≠ fs.nextIno := wf.ne_next (tree_eq_some.mpr ⟨parent, present, rfl⟩)
    have newContent : (files fs).contents fs.nextIno = none := by simp [files, fresh]
    refine ⟨.inr ⟨fs.nextIno, rfl, newContent, ?_, ?_⟩, ?_⟩
    · -- no descriptor designates the fresh number
      intro fd offset described
      obtain ⟨desc, descFound, same⟩ := Option.map_eq_some_iff.mp described
      simp only [FileDescriptor.target, Prod.mk.injEq] at same
      exact absurd (same.1 ▸ consistent.inoBelow descFound) (Nat.lt_irrefl _)
    · -- the parent is a directory, so only the new inode shows in the model
      show (⟨(Option.bind · Inode.content) ∘ update (update fs.inodes _ _) _ _,
        (files fs).descriptors⟩ : Files) = _
      rw [comp_update, comp_update]
      have parentKept : (some { parent with children := parent.children ++ [fs.nextIno] }).bind
          Inode.content = update (files fs).contents fs.nextIno
            ((some (Inode.new name kind parentIno)).bind Inode.content) parentIno := by
        rw [update_of_ne notNew, contents_files_of_directory present directory]
        simp [Inode.content, directory]
      change (⟨update (update (files fs).contents _ _) parentIno _, _⟩ : Files) = _
      rw [parentKept, update_eq_self]
      by_cases isFile : kind = .file
      · simp [isFile, Inode.content, Inode.new]
      · have newEmpty : (some (Inode.new name kind parentIno)).bind Inode.content = none := by
          simp [Inode.content, Inode.new, isFile]
        rw [newEmpty, ← newContent, update_eq_self, if_neg isFile]
    · refine ⟨create_wellFormed wf created, ?_, consistent.offsetBound, ?_, consistent.fdBelow⟩
      · intro ino inode found
        refine sized_update (sized_update consistent.sized ?_) ?_ found
        · intro inode' isNew
          cases isNew
          exact ⟨rfl, Nat.two_pow_pos 64⟩
        · intro inode' isParent
          cases isParent
          exact (consistent.sized present :)
      · intro fd desc described
        exact Nat.lt_succ_of_lt (consistent.inoBelow described)

theorem mkdir_refines (consistent : Consistent fs) {path : Path} {result : Except FsError Unit}
    {next : MemFileSystem} (made : fs.mkdir path = some (result, next)) :
    Files.Step (files fs) (.mkdir path) (.status result) (files next) ∧ Consistent next := by
  rcases mkdir_cases made with rfl | ⟨created, createdEq⟩
  · exact ⟨rfl, consistent⟩
  · obtain ⟨step, nextConsistent⟩ := create_refines consistent createdEq
    refine ⟨?_, nextConsistent⟩
    -- a directory adds nothing to the model
    rcases step with ⟨-, same⟩ | ⟨ino, -, -, -, same⟩
    · exact same
    · rw [same]
      rfl

theorem unlink_refines (consistent : Consistent fs) (path : Path) :
    Files.Step (files fs) (.unlink path) (.status (fs.unlink path).1) (files (fs.unlink path).2) ∧
      Consistent (fs.unlink path).2 := by
  have wf := consistent.wellFormed
  rcases fs.unlink_cases path with ⟨error, failed⟩ |
      ⟨parentIno, name, childIno, child, parent, -, childFound, -, -, present, unlinked⟩
  · rw [failed]
    exact ⟨.inl ⟨⟨error, rfl⟩, rfl⟩, consistent⟩
  · rw [unlinked]
    -- the child is listed, so the parent is a directory and has no content
    have directory : parent.kind = .directory := by
      obtain ⟨parent', present', member, -⟩ := fs.lookupChild_eq_some childFound
      rw [present] at present'
      cases present'
      exact wf.directory_of_mem (tree_eq_some.mpr ⟨parent, present, rfl⟩) member
    refine ⟨.inr ⟨rfl, childIno, ?_⟩, ?_⟩
    · show (⟨(Option.bind · Inode.content) ∘ update (update fs.inodes _ _) _ _,
        (files fs).descriptors⟩ : Files) = _
      rw [comp_update, comp_update]
      have parentKept : (some { parent with
          children := parent.children.filter (· != childIno) }).bind Inode.content =
            (files fs).contents parentIno := by
        rw [contents_files_of_directory present directory]
        simp [Inode.content, directory]
      change (⟨update (update (files fs).contents parentIno _) childIno _, _⟩ : Files) = _
      rw [parentKept, update_eq_self]
      rfl
    · refine ⟨unlink_wellFormed wf path |> (unlinked ▸ ·), ?_, consistent.offsetBound,
        consistent.inoBelow, consistent.fdBelow⟩
      intro ino inode found
      refine sized_update (sized_update consistent.sized ?_) ?_ found
      · intro inode' isParent
        cases isParent
        exact (consistent.sized present :)
      · intro inode' isSome
        cases isSome

/-! ## Every call, every run -/

/-- Every call that returns is a step of the byte-array model and keeps the
invariant. -/
theorem step_refines (consistent : Consistent fs) {call : Call} {reply : Reply}
    {next : MemFileSystem} (stepped : fs.step call = some (reply, next)) :
    Files.Step (files fs) call reply (files next) ∧ Consistent next := by
  cases call with
  | create path kind =>
      obtain ⟨⟨result, next'⟩, created, same⟩ := Option.map_eq_some_iff.mp stepped
      cases same
      exact create_refines consistent created
  | mkdir path =>
      obtain ⟨⟨result, next'⟩, made, same⟩ := Option.map_eq_some_iff.mp stepped
      cases same
      exact mkdir_refines consistent made
  | unlink path =>
      cases stepped
      exact unlink_refines consistent path
  | «open» path flags =>
      obtain ⟨⟨result, next'⟩, opened, same⟩ := Option.map_eq_some_iff.mp stepped
      cases same
      exact open_refines consistent opened
  | read fd len =>
      cases stepped
      exact read_refines consistent fd len
  | write fd data =>
      cases stepped
      exact write_refines consistent fd data
  | seek fd pos =>
      cases stepped
      exact seek_refines consistent fd pos
  | close fd =>
      cases stepped
      exact close_refines consistent fd
  | size fd =>
      cases stepped
      exact ⟨size_refines consistent fd, consistent⟩
  | position fd =>
      cases stepped
      exact ⟨position_refines fd, consistent⟩
  | readdir path =>
      cases stepped
      exact ⟨rfl, consistent⟩
  | «exists» path =>
      cases stepped
      exact ⟨rfl, consistent⟩

theorem new_consistent : Consistent new where
  wellFormed := new_wellFormed
  sized := by
    intro ino inode found
    by_cases isRoot : ino = 1
    · subst isRoot
      cases found
      exact ⟨rfl, Nat.two_pow_pos 64⟩
    · simp [new, update_of_ne isRoot] at found
  offsetBound := by
    intro fd desc found
    cases found
  inoBelow := by
    intro fd desc found
    cases found
  fdBelow := by
    intro fd desc found
    cases found

theorem consistent_inductive : machine.Inductive Consistent where
  init := new_consistent
  step := fun consistent stepped => (step_refines consistent stepped).2

/-- Every run of `MemFileSystem` from `MemFileSystem::new()`, seen through
`files`, is a run of the byte-array model with the same calls and replies. -/
theorem files_refine {calls : List Call} {replies : List Reply} {fs : MemFileSystem}
    (ran : machine.run machine.init calls = some (replies, fs)) :
    Machine.Trace Files.Step (files new) calls replies (files fs) :=
  Machine.Simulates.trace (fun consistent stepped => (step_refines consistent stepped).1)
    consistent_inductive new_consistent ran

/-- A run that makes a directory, creates a file in it, opens it, writes three bytes and closes it
is a run of the byte-array model. -/
theorem files_refine_write_run :
    ∃ replies fs, machine.run machine.init
        [.mkdir "/d".toList, .create "/d/f".toList .file, .open "/d/f".toList 0, .write 0 [7, 8, 9], .close 0] =
        some (replies, fs) ∧ replies[3]? = some (.count (.ok 3)) ∧
      Machine.Trace Files.Step (files new)
        [.mkdir "/d".toList, .create "/d/f".toList .file, .open "/d/f".toList 0, .write 0 [7, 8, 9], .close 0]
        replies (files fs) :=
  ⟨_, _, rfl, rfl, files_refine rfl⟩

end MemFileSystem

end Fullerene.Genome
