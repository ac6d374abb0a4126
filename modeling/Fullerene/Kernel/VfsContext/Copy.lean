import Fullerene.Kernel.VfsContext
import Fullerene.Lib.Split

/-!
# Recursive copy, move and remove of `VfsContext`

`copy_path` copies a file by opening the source, unlinking the destination if
it exists, creating it afresh and streaming the source into it in 4096-byte
reads; a directory is copied by making the destination and copying each entry
of the source into it.  `remove_path` removes a tree bottom up and
`move_path` is a copy followed by a removal of the source.

The method guards against copying a path onto itself or a directory into
itself by comparing the two strings as the caller wrote them
(`strip_prefix`), and the free `copy_path` compares the resolved paths but
exempts the root.  Two spellings of one file, `/f` and `/./f`, pass the
method's guard: the destination is unlinked while the source is open, the
source's inode goes with it, the first read fails, and the file is left empty
(`copy_path_alias_empties_source`).

The loops that the source runs until they finish carry fuel here: the
recursion of `copy_path` and `remove_path` and the read loop of a file copy;
`none` is a panic or running out of fuel.  `write_all` writes at least one
byte a round, so `data.length + 1` rounds always suffice for it.
-/

namespace Fullerene.Kernel.Contexts

open Genome

/-- `join_path`. -/
def joinPath (parent name : Path) : Path :=
  if parent = ['/'] then '/' :: name
  else parent.rdropWhile (· == '/') ++ '/' :: name

/-- The loop of `copy_path` and `remove_path` over the entries of a directory:
visit each in turn and stop at the first error. -/
def forEntries {F : Type} (visit : VNode → VfsContext F → Option (Except FsError Unit × VfsContext F)) :
    List VNode → VfsContext F → Option (Except FsError Unit × VfsContext F)
  | [], ctx => some (.ok (), ctx)
  | entry :: rest, ctx =>
      match visit entry ctx with
      | none => none
      | some (.error error, ctx) => some (.error error, ctx)
      | some (.ok (), ctx) => forEntries visit rest ctx

namespace VfsContext

variable {F : Type} [FileSystem F]

/-- The rounds of `write_all`: a write of nothing is an error, and a count
past the buffer panics at the slice. -/
def writeAllLoop : Nat → VfsContext F → Nat → List UInt8 → Option (Except FsError Unit × VfsContext F)
  | 0, _, _, _ => none
  | fuel + 1, ctx, fd, data =>
      if data.isEmpty then some (.ok (), ctx)
      else
        match ctx.write fd data with
        | none => none
        | some (.error error, ctx) => some (.error error, ctx)
        | some (.ok written, ctx) =>
            if written = 0 then some (.error .invalidInput, ctx)
            else if data.length < written then none
            else writeAllLoop fuel ctx fd (data.drop written)

/-- `write_all`. -/
def writeAll (ctx : VfsContext F) (fd : Nat) (data : List UInt8) :
    Option (Except FsError Unit × VfsContext F) :=
  writeAllLoop (data.length + 1) ctx fd data

/-- `replace_file`; `result.and(close_result)` is `*>` on `Except`. -/
def replaceFile (ctx : VfsContext F) (path : Path) (data : List UInt8) :
    Option (Except FsError Unit × VfsContext F) := do
  let (present, ctx) ← ctx.exists path
  let (unlinked, ctx) ← if present then ctx.unlink path else pure (.ok (), ctx)
  match unlinked with
  | .error error => pure (.error error, ctx)
  | .ok () =>
      let (created, ctx) ← ctx.create path
      match created with
      | .error error => pure (.error error, ctx)
      | .ok descriptor =>
          let (result, ctx) ← ctx.writeAll descriptor.fd data
          let (closeResult, ctx) ← ctx.close descriptor.fd
          pure (result *> closeResult, ctx)

/-- The read loop of a file copy: read up to 4096 bytes, stop at an empty
read, write them all. -/
def copyLoop : Nat → VfsContext F → Nat → Nat → Option (Except FsError Unit × VfsContext F)
  | 0, _, _, _ => none
  | fuel + 1, ctx, sourceFd, destinationFd => do
      let (read, ctx) ← ctx.read sourceFd 4096
      match read with
      | .error error => pure (.error error, ctx)
      | .ok [] => pure (.ok (), ctx)
      | .ok data =>
          let (written, ctx) ← ctx.writeAll destinationFd data
          match written with
          | .error error => pure (.error error, ctx)
          | .ok () => copyLoop fuel ctx sourceFd destinationFd

/-- The file branch of `copy_path`: the source is open before the
destination is unlinked and created, and both are closed at the end. -/
def copyFile (fuel : Nat) (ctx : VfsContext F) (source destination : Path) :
    Option (Except FsError Unit × VfsContext F) := do
  let (opened, ctx) ← ctx.open source 0
  match opened with
  | none => pure (.error .fileNotFound, ctx)
  | some sourceFd =>
      let (present, ctx) ← ctx.exists destination
      let (unlinked, ctx) ← if present then ctx.unlink destination else pure (.ok (), ctx)
      match unlinked with
      | .error error =>
          let (_, ctx) ← ctx.close sourceFd.fd
          pure (.error error, ctx)
      | .ok () =>
          let (created, ctx) ← ctx.create destination
          match created with
          | .error error =>
              let (_, ctx) ← ctx.close sourceFd.fd
              pure (.error error, ctx)
          | .ok destinationFd =>
              let (result, ctx) ← ctx.copyLoop fuel sourceFd.fd destinationFd.fd
              let (sourceClose, ctx) ← ctx.close sourceFd.fd
              let (destinationClose, ctx) ← ctx.close destinationFd.fd
              pure (result *> sourceClose *> destinationClose, ctx)

/-- `readdir(path).is_ok()`. -/
def listsAsDirectory (ctx : VfsContext F) (path : Path) : Option (Bool × VfsContext F) :=
  (ctx.readdir path).map fun (listed, ctx) =>
    (match listed with
      | .ok _ => true
      | .error _ => false, ctx)

/-- The directory branch shared by both `copy_path`s: make the destination,
then copy each entry of the source with `copy`. -/
def copyDirectory (ctx : VfsContext F) (source destination : Path)
    (copy : Path → Path → Bool → VfsContext F → Option (Except FsError Unit × VfsContext F)) :
    Option (Except FsError Unit × VfsContext F) := do
  let (made, ctx) ← ctx.mkdir destination
  match made with
  | .error error => pure (.error error, ctx)
  | .ok () =>
      let (listed, ctx) ← ctx.readdir source
      match listed with
      | .error error => pure (.error error, ctx)
      | .ok entries =>
          forEntries (fun entry => copy (joinPath source entry.name)
            (joinPath destination entry.name) entry.isDir) entries ctx

/-- `VfsContext::copy_path`: the guard compares the strings as given. -/
def copyPath : Nat → VfsContext F → Path → Path → Bool → Option (Except FsError Unit × VfsContext F)
  | 0, _, _, _, _ => none
  | fuel + 1, ctx, source, destination, isDir =>
      let destinationSuffix := source.isPrefixOf? destination
      if source = destination ∨
          isDir = true ∧ destinationSuffix.any fun suffix => suffix.head? = some '/' then
        some (.error .invalidPath, ctx)
      else if isDir then
        ctx.copyDirectory source destination fun source destination isDir ctx =>
          copyPath fuel ctx source destination isDir
      else ctx.copyFile fuel source destination

/-- `VfsContext::remove_path`. -/
def removePath : Nat → VfsContext F → Path → Bool → Option (Except FsError Unit × VfsContext F)
  | 0, _, _, _ => none
  | fuel + 1, ctx, path, isDir => do
      let (removed, ctx) ←
        if isDir then do
          let (listed, ctx) ← ctx.readdir path
          match listed with
          | .error error => pure (.error error, ctx)
          | .ok entries =>
              forEntries (fun entry ctx => removePath fuel ctx (joinPath path entry.name) entry.isDir)
                entries ctx
        else pure (.ok (), ctx)
      match removed with
      | .error error => pure (.error error, ctx)
      | .ok () => ctx.unlink path

/-- `VfsContext::move_path`. -/
def movePath (fuel : Nat) (ctx : VfsContext F) (source destination : Path) (isDir : Bool) :
    Option (Except FsError Unit × VfsContext F) := do
  let (copied, ctx) ← copyPath fuel ctx source destination isDir
  match copied with
  | .error error => pure (.error error, ctx)
  | .ok () => removePath fuel ctx source isDir

end VfsContext

variable {F : Type} [FileSystem F]

/-- The free `copy_path`, on the context `with_vfs` reaches: it resolves both
paths, refuses a copy onto itself or into itself (unless the source is the
root), and checks that a file is not a directory.  Each free wrapper it calls
is the method of the same name, so the file branch is the method's. -/
def copyPath : Nat → VfsContext F → Path → Path → Bool → Option (Except FsError Unit × VfsContext F)
  | 0, _, _, _, _ => none
  | fuel + 1, ctx, source, destination, isDir =>
      let source := ctx.inner.resolvePath source
      let destination := ctx.inner.resolvePath destination
      -- `destination.as_bytes()[source.len()] == b'/'`: past the prefix, the
      -- first byte is a slash exactly when the first character is one
      if source = destination ∨
          isDir = true ∧ source.isPrefixOf destination = true ∧ 1 < byteLength source ∧
            byteLength source < byteLength destination ∧
            (destination.drop source.length).head? = some '/' then
        some (.error .invalidPath, ctx)
      else if isDir then
        ctx.copyDirectory source destination fun source destination isDir ctx =>
          copyPath fuel ctx source destination isDir
      else do
        -- a file copy refuses a source or a destination that lists as a directory
        let (sourceIsDir, ctx) ← ctx.listsAsDirectory source
        if sourceIsDir then pure (.error .isADirectory, ctx) else
        let (destinationIsDir, ctx) ← ctx.listsAsDirectory destination
        if destinationIsDir then pure (.error .isADirectory, ctx) else
        ctx.copyFile fuel source destination

/-- The free `copy_path` compares resolved paths, so it refuses every pair of
spellings of one path and changes nothing. -/
theorem copyPath_refuses_alias {fuel : Nat} {ctx : VfsContext F} {source destination : Path}
    (isDir : Bool) (aliased : ctx.inner.resolvePath source = ctx.inner.resolvePath destination) :
    copyPath (fuel + 1) ctx source destination isDir = some (.error .invalidPath, ctx) := by
  unfold copyPath
  dsimp only
  rw [if_pos (.inl aliased)]

/-- The free `move_path`, which calls the method. -/
def movePath (fuel : Nat) (ctx : VfsContext F) (source destination : Path) (isDir : Bool) :
    Option (Except FsError Unit × VfsContext F) :=
  ctx.movePath fuel source destination isDir

/-! ## A file copied onto another spelling of itself -/

/-- The bytes of the regular file at a path, in a context of `MemFileSystem`
mounts. -/
def contentAt (ctx : VfsContext MemFileSystem) (path : Path) : Option (List UInt8) := do
  let (_, fs, remaining) ← ctx.inner.findFs (ctx.inner.resolvePath path)
  let ino ← fs.lookup remaining
  fs.files.contents ino

/-- `/f` holds one byte, and `/./f` is another spelling of it.  The method's
guard compares the strings, so `copy_path("/f", "/./f", false)` goes ahead:
it fails with `FileNotFound` rather than `InvalidPath`, with any fuel, and
leaves `/f` empty. -/
theorem copy_path_alias_empties_source :
    ∃ ctx after, (VfsContext.new MemFileSystem.new).replaceFile ['/', 'f'] [1] = some (.ok (), ctx) ∧
      contentAt ctx ['/', 'f'] = some [1] ∧
      ctx.inner.resolvePath ['/', '.', '/', 'f'] = ctx.inner.resolvePath ['/', 'f'] ∧
      (∀ fuel, ctx.copyPath (fuel + 2) ['/', 'f'] ['/', '.', '/', 'f'] false =
        some (.error .fileNotFound, after)) ∧
      contentAt after ['/', 'f'] = some [] :=
  ⟨_, _, rfl, rfl, rfl, fun _ => rfl, rfl⟩

end Fullerene.Kernel.Contexts
