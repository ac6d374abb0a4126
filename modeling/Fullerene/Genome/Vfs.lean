import Fullerene.Genome.Vfs.Path
import Fullerene.Lib.MaxBy
import Fullerene.Lib.Machine

/-!
# The `Vfs` dispatcher

A table of mount entries, each a mount point and a filesystem, and a working
directory.  The filesystems are of one type `F` with a `FileSystem` instance
(a `Box<dyn FileSystem>` of several kinds is a sum type).  A path is resolved
against the working directory and normalized, then routed to the mount whose
mount point matches it at a component boundary with the most bytes
(`max_by_key`, the last such entry on ties).

A filesystem is reached through `&mut`, so a call on it stores the
filesystem it leaves back into its entry (`setFs`).  A call that panics makes
the whole operation `none`.
-/

namespace Fullerene.Genome

/-- `struct MountEntry`. -/
structure MountEntry (F : Type) where
  mountPoint : Path
  fs : F

/-- `struct Vfs`. -/
structure Vfs (F : Type) where
  mounts : List (MountEntry F)
  wd : Path

namespace Vfs

variable {F : Type} (vfs : Vfs F)

/-- `Vfs::new`: the root filesystem mounted at `/`, working directory `/`. -/
def new (rootFs : F) : Vfs F :=
  ⟨[⟨['/'], rootFs⟩], ['/']⟩

/-- `resolve_path`: an absolute path is normalized, the empty path is the
working directory, and a relative one is appended to the working directory. -/
def resolvePath (path : Path) : Path :=
  if path.head? = some '/' then normalizePath path
  else if path.isEmpty then vfs.wd
  else
    let base := if vfs.wd.getLast? = some '/' then vfs.wd else vfs.wd ++ ['/']
    normalizePath (base ++ path)

/-- `find_fs_index_for_absolute_path`: the index of the matching entry with
the longest mount point, the last one on ties. -/
def findFsIndexForAbsolutePath (path : Path) : Option Nat :=
  if path.head? ≠ some '/' then none
  else
    let matching := vfs.mounts.zipIdx.filter fun (entry, _) =>
      (relativeToMount path entry.mountPoint).isSome
    (matching.maxByKey? fun (entry, _) => byteLength entry.mountPoint).map Prod.snd

/-- `find_fs`: the index of the filesystem an absolute path is routed to, the
filesystem, and the path below its mount point. -/
def findFs (absolutePath : Path) : Option (Nat × F × Path) :=
  if absolutePath.head? ≠ some '/' then none
  else do
    let index ← vfs.findFsIndexForAbsolutePath absolutePath
    let entry ← vfs.mounts[index]?
    let remaining ← relativeToMount absolutePath entry.mountPoint
    pure (index, entry.fs, remaining)

/-- `find_fs_for_path`: the mount index and the path below its mount point. -/
def findFsForPath (path : Path) : Option (Nat × Path) := do
  let absolute := vfs.resolvePath path
  let index ← vfs.findFsIndexForAbsolutePath absolute
  let entry ← vfs.mounts[index]?
  let remaining ← relativeToMount absolute entry.mountPoint
  pure (index, remaining)

/-- `mounted_fs_index`: the first entry mounted exactly at the normalized
mount point. -/
def mountedFsIndex (mountPoint : Path) : Option Nat :=
  vfs.mounts.findIdx? fun entry => entry.mountPoint == normalizePath mountPoint

/-- Store the filesystem a call through `&mut` left at `index`. -/
def setFs (index : Nat) (fs : F) : Vfs F :=
  { vfs with mounts := vfs.mounts.modify index fun entry => { entry with fs } }

/-- The end of `mount`: replace the filesystem of the first entry at the
mount point, or push a new entry. -/
def install (mountPoint : Path) (fs : F) : Vfs F :=
  match vfs.mounts.findIdx? fun entry => entry.mountPoint == mountPoint with
  | some index => vfs.setFs index fs
  | none => { vfs with mounts := vfs.mounts ++ [⟨mountPoint, fs⟩] }

variable [FileSystem F]

/-- `mount`: a mount point other than `/` must be a directory of the
filesystem it falls in (`readdir` succeeds there). -/
def mount (mountPoint : Path) (fs : F) : Option (Except FsError Unit × Vfs F) :=
  let mp := normalizePath mountPoint
  if mp ≠ ['/'] then
    match vfs.findFs mp with
    | none => some (.error .fileNotFound, vfs)
    | some (index, target, remaining) =>
        (FileSystem.readdir target remaining).map fun (result, target) =>
          let checked := vfs.setFs index target
          match result with
          | .error error =>
              (.error (if error = .notADirectory then .notADirectory else .fileNotFound), checked)
          | .ok _ => (.ok (), checked.install mp fs)
  else some (.ok (), vfs.install mp fs)

/-- `unmount`: drop every entry at the normalized mount point; the root
cannot be unmounted. -/
def unmount (mountPoint : Path) : Except FsError Bool × Vfs F :=
  let mp := normalizePath mountPoint
  if mp = ['/'] then (.error .invalidInput, vfs)
  else
    let mounts := vfs.mounts.filter fun entry => entry.mountPoint != mp
    (.ok (decide (mounts.length < vfs.mounts.length)), { vfs with mounts })

/-- `change_directory`: the resolved path must be a directory (`readdir`
succeeds there). -/
def changeDirectory (path : Path) : Option (Except FsError Unit × Vfs F) :=
  let resolved := vfs.resolvePath path
  match vfs.findFs resolved with
  | none => some (.error .fileNotFound, vfs)
  | some (index, target, remaining) =>
      (FileSystem.readdir target remaining).map fun (result, target) =>
        let checked := vfs.setFs index target
        match result with
        | .error error => (.error error, checked)
        | .ok _ => (.ok (), { checked with wd := resolved })

/-! ## The mount table as a machine -/

/-- A call that changes the mount table or the working directory. -/
inductive MountCall (F : Type)
  | mount (mountPoint : Path) (fs : F)
  | unmount (mountPoint : Path)
  | changeDirectory (path : Path)

/-- The value such a call returns. -/
inductive MountReply
  | status (result : Except FsError Unit)
  | removed (result : Except FsError Bool)

/-- One call; `none` when it panics. -/
def mountStep : MountCall F → Option (MountReply × Vfs F)
  | .mount mountPoint fs => (vfs.mount mountPoint fs).map fun (result, next) => (.status result, next)
  | .unmount mountPoint => some (.removed (vfs.unmount mountPoint).1, (vfs.unmount mountPoint).2)
  | .changeDirectory path =>
      (vfs.changeDirectory path).map fun (result, next) => (.status result, next)

/-- The mount table from `Vfs::new(root)`. -/
def mountMachine (rootFs : F) : Machine (Vfs F) (MountCall F) MountReply :=
  ⟨new rootFs, fun vfs => vfs.mountStep⟩

end Vfs

end Fullerene.Genome
