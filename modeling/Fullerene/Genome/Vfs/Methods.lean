import Fullerene.Genome.Vfs.Routing
import Fullerene.Genome.Descriptors
import Fullerene.Lib.Slots

/-!
# The path and descriptor methods of `Vfs`

A path method resolves the path, routes it (`resolve_and_find`) and calls the
filesystem it reaches: `with_fs`, `with_fs_result` and `exists` differ only in
the answer when no mount takes the path (`onRoute`).  A descriptor method
(`read_at` and the five like it) calls the filesystem at a mount index, and
answers `InvalidFileDescriptor` when there is none (`atMount`).

Either way one filesystem answers one call and is stored back: the mount
points and the working directory stay, so routing is unchanged, and every
mount keeps its position with a filesystem that is a later state of its own
(`Vfs.Evolves`).
-/

namespace Fullerene.Genome

namespace Vfs

open FileSystem

variable {F : Type} (vfs : Vfs F)

/-- `find_fs_index`. -/
def findFsIndex (path : Path) : Option Nat :=
  vfs.findFsIndexForAbsolutePath (vfs.resolvePath path)

/-- `resolve_and_find` and a call on the filesystem it finds; `onMissing` is
the answer when no mount takes the path. -/
def onRoute {α : Type} (path : Path) (onMissing : α) (operate : F → Path → Option (α × F)) :
    Option (α × Vfs F) :=
  match vfs.findFs (vfs.resolvePath path) with
  | none => some (onMissing, vfs)
  | some (index, fs, remaining) =>
      (operate fs remaining).map fun (result, fs) => (result, vfs.setFs index fs)

/-- `with_fs`. -/
def withFs {α : Type} (path : Path) (operate : F → Path → Option (Option α × F)) :
    Option (Option α × Vfs F) :=
  vfs.onRoute path none operate

/-- `with_fs_result`. -/
def withFsResult {α : Type} (path : Path) (operate : F → Path → Option (Except FsError α × F)) :
    Option (Except FsError α × Vfs F) :=
  vfs.onRoute path (.error .fileNotFound) operate

/-- The `*_at` methods: the filesystem at `index` answers, and
`InvalidFileDescriptor` is the answer when there is none. -/
def atMount {α : Type} (index : Nat) (operate : F → Option (Except FsError α × F)) :
    Option (Except FsError α × Vfs F) :=
  match vfs.mounts[index]? with
  | none => some (.error .invalidFileDescriptor, vfs)
  | some entry => (operate entry.fs).map fun (result, fs) => (result, vfs.setFs index fs)

section Methods

variable [FileSystem F]

/-- `Vfs::open`. -/
def «open» (path : Path) (flags : Nat) : Option (Option FileDescriptor × Vfs F) :=
  vfs.withFs path fun fs remaining => FileSystem.open fs remaining flags

/-- `Vfs::mkdir`. -/
def mkdir (path : Path) : Option (Except FsError Unit × Vfs F) :=
  vfs.withFsResult path FileSystem.mkdir

/-- `Vfs::unlink`. -/
def unlink (path : Path) : Option (Except FsError Unit × Vfs F) :=
  vfs.withFsResult path FileSystem.unlink

/-- `Vfs::readdir`. -/
def readdir (path : Path) : Option (Except FsError (List VNode) × Vfs F) :=
  vfs.withFsResult path FileSystem.readdir

/-- `Vfs::exists`: `false` when no mount takes the path. -/
def «exists» (path : Path) : Option (Bool × Vfs F) :=
  vfs.onRoute path false FileSystem.exists

/-- `read_at` into a buffer of `len` bytes. -/
def readAt (index fd len : Nat) : Option (Except FsError (List UInt8) × Vfs F) :=
  vfs.atMount index fun fs => FileSystem.read fs fd len

/-- `write_at`. -/
def writeAt (index fd : Nat) (data : List UInt8) : Option (Except FsError Nat × Vfs F) :=
  vfs.atMount index fun fs => FileSystem.write fs fd data

/-- `close_at`. -/
def closeAt (index fd : Nat) : Option (Except FsError Unit × Vfs F) :=
  vfs.atMount index fun fs => FileSystem.close fs fd

/-- `seek_at`. -/
def seekAt (index fd : Nat) (pos : UInt64) : Option (Except FsError Unit × Vfs F) :=
  vfs.atMount index fun fs => FileSystem.seek fs fd pos.toNat

/-- `position_at`. -/
def positionAt (index fd : Nat) : Option (Except FsError Nat × Vfs F) :=
  vfs.atMount index fun fs => FileSystem.position fs fd

/-- `size_at`. -/
def sizeAt (index fd : Nat) : Option (Except FsError Nat × Vfs F) :=
  vfs.atMount index fun fs => FileSystem.size fs fd

end Methods

/-! ## Storing a filesystem back -/

variable {vfs}

theorem getElem?_setFs_self {index : Nat} {entry : MountEntry F}
    (found : vfs.mounts[index]? = some entry) (fs : F) :
    (vfs.setFs index fs).mounts[index]? = some { entry with fs } := by
  simp [setFs, found]

theorem getElem?_setFs_of_ne {index position : Nat} (different : position ≠ index) (fs : F) :
    (vfs.setFs index fs).mounts[position]? = vfs.mounts[position]? := by
  simp only [setFs, List.getElem?_modify, if_neg (Ne.symm different)]
  cases vfs.mounts[position]? <;> rfl

theorem length_setFs (vfs : Vfs F) (index : Nat) (fs : F) :
    (vfs.setFs index fs).mounts.length = vfs.mounts.length :=
  List.length_modify _ _ _

theorem resolvePath_setFs (vfs : Vfs F) (index : Nat) (fs : F) (path : Path) :
    (vfs.setFs index fs).resolvePath path = vfs.resolvePath path :=
  rfl

/-- Routing reads the mount points only. -/
theorem findFsIndexForAbsolutePath_eq (vfs : Vfs F) (path : Path) :
    vfs.findFsIndexForAbsolutePath path =
      if path.head? ≠ some '/' then none
      else ((vfs.mountPoints.zipIdx.filter fun (point, _) => (relativeToMount path point).isSome)
        |>.maxByKey? fun (point, _) => byteLength point).map Prod.snd := by
  unfold findFsIndexForAbsolutePath mountPoints
  split_ifs
  · rfl
  · rw [List.zipIdx_map, List.filter_map, List.maxByKey?_map, Option.map_map]
    rfl

theorem findFsIndex_setFs (vfs : Vfs F) (index : Nat) (fs : F) (path : Path) :
    (vfs.setFs index fs).findFsIndex path = vfs.findFsIndex path := by
  unfold findFsIndex
  rw [resolvePath_setFs, findFsIndexForAbsolutePath_eq, findFsIndexForAbsolutePath_eq,
    mountPoints_setFs]

/-- What `find_fs` returns is the filesystem at the index routing chose. -/
theorem findFs_eq_some {path : Path} {index : Nat} {fs : F} {remaining : Path}
    (found : vfs.findFs path = some (index, fs, remaining)) :
    vfs.findFsIndexForAbsolutePath path = some index ∧
      ∃ entry, vfs.mounts[index]? = some entry ∧ entry.fs = fs := by
  unfold findFs at found
  split_ifs at found
  simp only [Option.bind_eq_bind, Option.bind_eq_some_iff, Option.pure_def, Option.some.injEq,
    Prod.mk.injEq] at found
  obtain ⟨index', indexed, entry, listed, rest, -, rfl, rfl, rfl⟩ := found
  exact ⟨indexed, entry, listed, rfl⟩

/-- A path method answers `onMissing` and changes nothing, or the filesystem
the path is routed to answers it and is stored back. -/
theorem onRoute_eq_some {α : Type} {path : Path} {onMissing result : α}
    {operate : F → Path → Option (α × F)} {next : Vfs F}
    (routed : vfs.onRoute path onMissing operate = some (result, next)) :
    (result = onMissing ∧ next = vfs) ∨
      ∃ index fs remaining fs', vfs.findFs (vfs.resolvePath path) = some (index, fs, remaining) ∧
        operate fs remaining = some (result, fs') ∧ next = vfs.setFs index fs' := by
  unfold onRoute at routed
  split at routed
  · cases routed
    exact .inl ⟨rfl, rfl⟩
  · rename_i index fs remaining found
    obtain ⟨⟨result', fs'⟩, answered, same⟩ := Option.map_eq_some_iff.mp routed
    cases same
    exact .inr ⟨index, fs, remaining, fs', found, answered, rfl⟩

/-- A descriptor method answers `InvalidFileDescriptor` for a missing mount
and changes nothing, or the filesystem at the index answers it and is stored
back. -/
theorem atMount_eq_some {α : Type} {index : Nat} {operate : F → Option (Except FsError α × F)}
    {result : Except FsError α} {next : Vfs F}
    (answered : vfs.atMount index operate = some (result, next)) :
    (vfs.mounts[index]? = none ∧ result = .error .invalidFileDescriptor ∧ next = vfs) ∨
      ∃ entry fs', vfs.mounts[index]? = some entry ∧ operate entry.fs = some (result, fs') ∧
        next = vfs.setFs index fs' := by
  unfold atMount at answered
  split at answered
  · rename_i missing
    cases answered
    exact .inl ⟨missing, rfl, rfl⟩
  · rename_i entry found
    obtain ⟨⟨result', fs'⟩, called, same⟩ := Option.map_eq_some_iff.mp answered
    cases same
    exact .inr ⟨entry, fs', found, called, rfl⟩

/-! ## Mount and unmount -/

/-- The first entry mounted at the normalized mount point. -/
theorem mountedFsIndex_eq_some {mountPoint : Path} {index : Nat}
    (found : vfs.mountedFsIndex mountPoint = some index) :
    ∃ entry, vfs.mounts[index]? = some entry ∧ entry.mountPoint = normalizePath mountPoint := by
  obtain ⟨bound, named, -⟩ := List.findIdx?_eq_some_iff_getElem.mp found
  exact ⟨_, List.getElem?_eq_getElem bound, beq_iff_eq.mp named⟩

theorem not_mem_of_mountedFsIndex {mountPoint : Path}
    (unused : (vfs.mountedFsIndex mountPoint).isSome = false) :
    normalizePath mountPoint ∉ vfs.mountPoints := by
  intro member
  obtain ⟨entry, listed, named⟩ := List.mem_map.mp member
  have missing : vfs.mountedFsIndex mountPoint = none :=
    Option.isNone_iff_eq_none.mp (Option.isSome_eq_false_iff.mp unused)
  unfold mountedFsIndex at missing
  have differs := List.findIdx?_eq_none_iff.mp missing entry listed
  simp [named] at differs

/-- `install` at a mount point in no entry appends the entry. -/
theorem install_of_not_mem {mountPoint : Path} (absent : mountPoint ∉ vfs.mountPoints) (fs : F) :
    vfs.install mountPoint fs = { vfs with mounts := vfs.mounts ++ [⟨mountPoint, fs⟩] } := by
  unfold install
  rw [List.findIdx?_eq_none_iff.mpr]
  intro entry member
  exact beq_false_of_ne fun named => absent (named ▸ List.mem_map_of_mem member)

theorem getElem?_install_of_not_mem {mountPoint : Path} (absent : mountPoint ∉ vfs.mountPoints)
    (fs : F) {index : Nat} {entry : MountEntry F} (found : vfs.mounts[index]? = some entry) :
    (vfs.install mountPoint fs).mounts[index]? = some entry := by
  rw [install_of_not_mem absent]
  show (vfs.mounts ++ _)[index]? = some entry
  rw [List.getElem?_append_left (List.getElem?_eq_some_iff.mp found).1, found]

theorem unmount_eq_ok {mountPoint : Path} {removed : Bool} {next : Vfs F}
    (unmounted : vfs.unmount mountPoint = (.ok removed, next)) :
    next = { vfs with
      mounts := vfs.mounts.filter fun entry => entry.mountPoint != normalizePath mountPoint } := by
  unfold unmount at unmounted
  dsimp only at unmounted
  split_ifs at unmounted
  · cases (Prod.mk.inj unmounted).1
  · obtain ⟨-, rfl⟩ := Prod.mk.inj unmounted
    rfl

theorem unmount_eq_error {mountPoint : Path} {error : FsError} {next : Vfs F}
    (unmounted : vfs.unmount mountPoint = (.error error, next)) : next = vfs := by
  unfold unmount at unmounted
  dsimp only at unmounted
  split_ifs at unmounted
  · obtain ⟨-, rfl⟩ := Prod.mk.inj unmounted
    rfl
  · cases (Prod.mk.inj unmounted).1

/-- `unmount` of a mount point in use fails at the root and otherwise removes
exactly the entry at the index `mounted_fs_index` gives. -/
theorem unmount_of_mountedFsIndex (table : vfs.MountTable) {mountPoint : Path} {index : Nat}
    (found : vfs.mountedFsIndex mountPoint = some index) :
    vfs.unmount mountPoint = (.error .invalidInput, vfs) ∨
      vfs.unmount mountPoint = (.ok true, { vfs with mounts := vfs.mounts.eraseIdx index }) := by
  obtain ⟨entry, listed, named⟩ := mountedFsIndex_eq_some found
  unfold unmount
  dsimp only
  split_ifs with root
  · exact .inl rfl
  -- mount points are distinct, so the filter drops that one position
  have erased : (vfs.mounts.filter fun entry => entry.mountPoint != normalizePath mountPoint) =
      vfs.mounts.eraseIdx index := by
    rw [← named]
    exact List.filter_key_ne_eq_eraseIdx table.distinct listed
  have bound := (List.getElem?_eq_some_iff.mp listed).1
  rw [erased, List.length_eraseIdx_of_lt bound, decide_eq_true (by omega)]
  exact .inr rfl

/-- Under the invariant, one mount point names one position. -/
theorem MountTable.eq_of_mountPoint_eq (table : vfs.MountTable) {first second : Nat}
    {firstEntry secondEntry : MountEntry F} (firstFound : vfs.mounts[first]? = some firstEntry)
    (secondFound : vfs.mounts[second]? = some secondEntry)
    (samePoint : firstEntry.mountPoint = secondEntry.mountPoint) : first = second := by
  have bound : first < vfs.mountPoints.length := by
    simp only [mountPoints, List.length_map]
    exact (List.getElem?_eq_some_iff.mp firstFound).1
  apply (List.getElem?_inj bound table.distinct).mp
  simp [mountPoints, firstFound, secondFound, samePoint]

/-! ## Mounts that evolve in place -/

section Evolves

variable [FileSystem F]

/-- Every mount of `vfs` is still at its position in `next`, at the same mount
point, with a filesystem that is a later state of its own. -/
def Evolves (vfs next : Vfs F) : Prop :=
  ∀ ⦃index : Nat⦄ ⦃entry : MountEntry F⦄, vfs.mounts[index]? = some entry →
    ∃ entry', next.mounts[index]? = some entry' ∧ entry'.mountPoint = entry.mountPoint ∧
      FileSystem.Evolves entry.fs entry'.fs

theorem Evolves.refl (vfs : Vfs F) : vfs.Evolves vfs :=
  fun _ entry found => ⟨entry, found, rfl, .refl _⟩

theorem Evolves.trans {middle next : Vfs F} (first : vfs.Evolves middle)
    (second : middle.Evolves next) : vfs.Evolves next := by
  intro index entry found
  obtain ⟨entry', found', samePoint, evolved⟩ := first found
  obtain ⟨entry'', found'', samePoint', evolved'⟩ := second found'
  exact ⟨entry'', found'', samePoint'.trans samePoint, evolved.trans evolved'⟩

/-- Storing back what the filesystem at `index` left after its own calls. -/
theorem Evolves.setFs {index : Nat} {entry : MountEntry F} (found : vfs.mounts[index]? = some entry)
    {fs : F} (evolved : FileSystem.Evolves entry.fs fs) : vfs.Evolves (vfs.setFs index fs) := by
  intro position other listed
  by_cases same : position = index
  · subst same
    rw [found, Option.some.injEq] at listed
    subst listed
    exact ⟨_, getElem?_setFs_self found fs, rfl, evolved⟩
  · exact ⟨other, (getElem?_setFs_of_ne same fs).trans listed, rfl, .refl _⟩

theorem onRoute_evolves {α : Type} {path : Path} {onMissing result : α}
    {operate : F → Path → Option (α × F)} {next : Vfs F}
    (answers : ∀ {fs remaining result fs'}, operate fs remaining = some (result, fs') →
      FileSystem.Evolves fs fs')
    (routed : vfs.onRoute path onMissing operate = some (result, next)) : vfs.Evolves next := by
  rcases onRoute_eq_some routed with ⟨-, rfl⟩ | ⟨index, fs, remaining, fs', found, called, rfl⟩
  · exact Evolves.refl _
  · obtain ⟨-, entry, listed, rfl⟩ := findFs_eq_some found
    exact Evolves.setFs listed (answers called)

theorem atMount_evolves {α : Type} {index : Nat} {operate : F → Option (Except FsError α × F)}
    {result : Except FsError α} {next : Vfs F}
    (answers : ∀ {fs result fs'}, operate fs = some (result, fs') → FileSystem.Evolves fs fs')
    (answered : vfs.atMount index operate = some (result, next)) : vfs.Evolves next := by
  rcases atMount_eq_some answered with ⟨-, -, rfl⟩ | ⟨entry, fs', found, called, rfl⟩
  · exact Evolves.refl _
  · exact Evolves.setFs found (answers called)

/-- A new entry leaves the others where they are. -/
theorem Evolves.install {mountPoint : Path} (absent : mountPoint ∉ vfs.mountPoints) (fs : F) :
    vfs.Evolves (vfs.install mountPoint fs) :=
  fun _ entry found => ⟨entry, getElem?_install_of_not_mem absent fs found, rfl, .refl _⟩

/-- `next` is `vfs` with the filesystem at one index replaced by what its
methods other than `open` and `close` leave of it. -/
def QuietStore (vfs next : Vfs F) : Prop :=
  ∃ index entry fs, vfs.mounts[index]? = some entry ∧ Quiet entry.fs fs ∧
    next = vfs.setFs index fs

/-- Quiet stores, one after another. -/
def Quieted (vfs next : Vfs F) : Prop :=
  Relation.ReflTransGen QuietStore vfs next

theorem Quieted.evolves {next : Vfs F} (quieted : vfs.Quieted next) : vfs.Evolves next := by
  induction quieted with
  | refl => exact Evolves.refl _
  | tail _ stored evolved =>
      obtain ⟨index, entry, fs, found, quiet, rfl⟩ := stored
      exact evolved.trans (Evolves.setFs found quiet.evolves)

/-- Quiet stores keep the mount points, so routing stays. -/
theorem Quieted.findFsIndex {next : Vfs F} (quieted : vfs.Quieted next) (path : Path) :
    next.findFsIndex path = vfs.findFsIndex path := by
  induction quieted with
  | refl => rfl
  | tail _ stored routedSame =>
      obtain ⟨index, entry, fs, -, -, rfl⟩ := stored
      rw [findFsIndex_setFs, routedSame]

theorem onRoute_quieted {α : Type} {path : Path} {onMissing result : α}
    {operate : F → Path → Option (α × F)} {next : Vfs F}
    (quiets : ∀ {fs remaining result fs'}, operate fs remaining = some (result, fs') → Quiet fs fs')
    (routed : vfs.onRoute path onMissing operate = some (result, next)) : vfs.Quieted next := by
  rcases onRoute_eq_some routed with ⟨-, rfl⟩ | ⟨index, fs, remaining, fs', found, called, rfl⟩
  · exact Relation.ReflTransGen.refl
  · obtain ⟨-, entry, listed, rfl⟩ := findFs_eq_some found
    exact Relation.ReflTransGen.single ⟨index, entry, fs', listed, quiets called, rfl⟩

theorem atMount_quieted {α : Type} {index : Nat} {operate : F → Option (Except FsError α × F)}
    {result : Except FsError α} {next : Vfs F}
    (quiets : ∀ {fs result fs'}, operate fs = some (result, fs') → Quiet fs fs')
    (answered : vfs.atMount index operate = some (result, next)) : vfs.Quieted next := by
  rcases atMount_eq_some answered with ⟨-, -, rfl⟩ | ⟨entry, fs', found, called, rfl⟩
  · exact Relation.ReflTransGen.refl
  · exact Relation.ReflTransGen.single ⟨index, entry, fs', found, quiets called, rfl⟩

/-- `mount` at a mount point in no entry: a quiet `readdir` in the filesystem
the mount point falls in, and maybe the new entry, still in no entry before. -/
theorem mount_quieted {mountPoint : Path} {fs : F} {result : Except FsError Unit} {next : Vfs F}
    (absent : normalizePath mountPoint ∉ vfs.mountPoints)
    (mounted : vfs.mount mountPoint fs = some (result, next)) :
    ∃ middle, vfs.Quieted middle ∧ normalizePath mountPoint ∉ middle.mountPoints ∧
      (next = middle ∨ next = middle.install (normalizePath mountPoint) fs) := by
  unfold mount at mounted
  dsimp only at mounted
  split_ifs at mounted with notRoot
  · split at mounted
    · cases mounted
      exact ⟨vfs, .refl, absent, .inl rfl⟩
    rename_i index target remaining found
    obtain ⟨-, entry, listed, rfl⟩ := findFs_eq_some found
    obtain ⟨⟨answer, target'⟩, read, same⟩ := Option.map_eq_some_iff.mp mounted
    -- the mount point is checked with a `readdir`, which is quiet
    have stored : vfs.QuietStore (vfs.setFs index target') :=
      ⟨index, entry, target', listed, (PlainCall.readdir read).quiet, rfl⟩
    have absentChecked : normalizePath mountPoint ∉ (vfs.setFs index target').mountPoints := by
      rwa [mountPoints_setFs]
    split at same
    · cases same
      exact ⟨_, .single stored, absentChecked, .inl rfl⟩
    · cases same
      exact ⟨_, .single stored, absentChecked, .inr rfl⟩
  · cases mounted
    exact ⟨vfs, .refl, absent, .inr rfl⟩

end Evolves

end Vfs

end Fullerene.Genome
