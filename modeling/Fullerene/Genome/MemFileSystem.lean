import Fullerene.Genome.Fs
import Fullerene.Lib.Split
import Fullerene.Lib.Buffer
import Mathlib.Logic.Function.Basic

/-!
# `MemFileSystem`

The in-memory filesystem of `genome/src/vfs.rs`: a map from inode numbers to
inodes, a map from descriptor numbers to descriptors and the two counters
that number new inodes and descriptors.  The `BTreeMap`s are functions into
`Option` updated with `Function.update`.

Path resolution follows the source step by step: `lookup_from` trims and
splits the path, walks its components (`.` stays, `..` climbs, a name is
looked up among the children) and restarts at a symlink target with one more
level of depth.  `lookup_parent` instead cuts the path at its last `/`.

Counters are incremented with `+`, which panics on overflow in the dev
profile the kernel is built with (`overflow-checks = true`); such a call
returns `none`.
-/

namespace Fullerene.Genome

open Function

/-- `const MAX_SYMLINK_DEPTH`. -/
def maxSymlinkDepth : Nat := 8

/-- `struct Inode`. -/
structure Inode where
  name : Path
  kind : InodeType
  data : List UInt8
  children : List Nat
  parent : Nat
  target : Option Path
  size : Nat

/-- `Inode::new`. -/
def Inode.new (name : Path) (kind : InodeType) (parent : Nat) : Inode :=
  { name, kind, data := [], children := [], parent, target := none, size := 0 }

/-- `struct MemFileSystem`. -/
structure MemFileSystem where
  inodes : Nat → Option Inode
  nextIno : Nat
  fds : Nat → Option FileDescriptor
  nextFd : Nat

namespace MemFileSystem

/-- `MemFileSystem::new`: the root directory is inode 1, with parent 0. -/
def new : MemFileSystem where
  inodes := update (fun _ => none) 1 (some (Inode.new [] .directory 0))
  nextIno := 2
  fds := fun _ => none
  nextFd := 0

variable (fs : MemFileSystem)

/-- `lookup_child`: the first child of `parentIno` with that name. -/
def lookupChild (parentIno : Nat) (name : Path) : Option Nat := do
  let parent ← fs.inodes parentIno
  parent.children.find? fun child => (fs.inodes child).any fun inode => inode.name == name

/-- One iteration of the component loop of `lookup_from`, before the symlink
test. -/
def stepComponent (current : Nat) (comp : Path) : Option Nat :=
  if comp = ['.'] then some current
  else if comp = ['.', '.'] then
    (fs.inodes current).map fun inode => if inode.parent = 0 then 1 else inode.parent
  else fs.lookupChild current comp

/-- Where the component loop of `lookup_from` stops: at its end, or at a
symlink, with the path and start inode of the recursive lookup. -/
inductive Walk
  | done (ino : Nat)
  | follow (path : Path) (start : Nat)

/-- The `for` loop of `lookup_from` over the components. -/
def walk : Nat → List Path → Option Walk
  | current, [] => some (.done current)
  | current, comp :: rest =>
      match fs.stepComponent current comp with
      | none => none
      | some next =>
          match fs.inodes next with
          | none => none
          | some inode =>
              match inode.target with
              | some target =>
                  some (.follow (target ++ (rest.map fun trailing => '/' :: trailing).flatten)
                    (if target.head? = some '/' then 1 else current))
              | none => walk next rest

/-- The body of `lookup_from`, with a budget of recursive calls.  The depth
grows by one per call and the body returns at depth `MAX_SYMLINK_DEPTH + 1`,
so the budget `MAX_SYMLINK_DEPTH + 1 - depth` of `lookupFrom` runs out exactly
where the source returns `None`. -/
def lookupFromAux : Nat → Path → Nat → Nat → Option Nat
  | 0, _, _, _ => none
  | budget + 1, path, startIno, depth =>
      if maxSymlinkDepth < depth || path.isEmpty then
        if depth ≤ maxSymlinkDepth then some startIno else none
      else
        let (effectiveStart, trimmed) :=
          if path.head? = some '/' then (1, path.dropWhile (· == '/')) else (startIno, path)
        let components := trimmed.segments '/'
        if components.isEmpty then some effectiveStart
        else
          match fs.walk effectiveStart components with
          | none => none
          | some (.done ino) => some ino
          | some (.follow newPath resolveStart) =>
              lookupFromAux budget newPath resolveStart (depth + 1)

/-- `lookup_from`. -/
def lookupFrom (path : Path) (startIno depth : Nat) : Option Nat :=
  fs.lookupFromAux (maxSymlinkDepth + 1 - depth) path startIno depth

/-- `lookup`: resolution from the root. -/
def lookup (path : Path) : Option Nat :=
  fs.lookupFrom path 1 0

/-- `lookup_parent`: the inode of everything before the last `/` (after
trailing slashes are trimmed) and the name after it. -/
def lookupParent (path : Path) : Option (Nat × Path) :=
  let path := path.rdropWhile (· == '/')
  if path.isEmpty || path == ['/'] then none
  else
    match path.lastIdxOf? '/' with
    | some lastSlash =>
        let parentPath := if lastSlash = 0 then ['/'] else path.take lastSlash
        let name := path.drop (lastSlash + 1)
        (fs.lookup parentPath).map fun parentIno => (parentIno, name)
    | none => some (1, path)

/-- `MemFileSystem::capabilities`. -/
def capabilities : FileSystemCapabilities := ⟨false, true, true, true, true⟩

/-- `open`: resolve the path and register a descriptor at offset 0. -/
def «open» (path : Path) (flags : Nat) : Option (Option FileDescriptor × MemFileSystem) :=
  match fs.lookup path with
  | none => some (none, fs)
  | some ino =>
      match Word.checkedAdd 32 fs.nextFd 1 with
      | none => none
      | some nextFd =>
          let desc : FileDescriptor := { fd := fs.nextFd, ino, offset := 0, flags }
          some (some desc, { fs with nextFd, fds := update fs.fds fs.nextFd (some desc) })

/-- `read(fd, buf)` with `buf.len() = len`. -/
def read (fd len : Nat) : Except FsError (List UInt8) × MemFileSystem :=
  match fs.fds fd with
  | none => (.error .invalidFileDescriptor, fs)
  | some desc =>
      match fs.inodes desc.ino with
      | none => (.error .fileNotFound, fs)
      | some ino =>
          if ino.kind ≠ .file then (.error .isADirectory, fs)
          -- `usize::try_from(desc.offset)`: `usize` is 64 bits wide
          else if Word.max 64 < desc.offset then (.error .invalidSeek, fs)
          else if ino.data.length ≤ desc.offset then (.ok [], fs)
          else
            let data := ino.data.drop desc.offset
            let n := min data.length len
            match Word.checkedAdd 64 desc.offset n with
            | none => (.error .invalidSeek, fs)
            | some offset =>
                (.ok (data.take n), { fs with fds := update fs.fds fd (some { desc with offset }) })

/-- `write(fd, data)`: grow the file with zeros up to the end of the written
range, copy the data in, record the new size, then advance the offset. -/
def write (fd : Nat) (data : List UInt8) : Except FsError Nat × MemFileSystem :=
  match fs.fds fd with
  | none => (.error .invalidFileDescriptor, fs)
  | some desc =>
      match fs.inodes desc.ino with
      | none => (.error .fileNotFound, fs)
      | some ino =>
          if ino.kind ≠ .file then (.error .isADirectory, fs)
          else if Word.max 64 < desc.offset then (.error .invalidSeek, fs)
          else
            match Word.checkedAdd 64 desc.offset data.length with
            | none => (.error .invalidInput, fs)
            | some newLen =>
                let grown := if ino.data.length < newLen then ino.data.resize newLen 0 else ino.data
                let written := grown.copyFromSlice desc.offset data
                let resized : Inode := { ino with data := written, size := written.length }
                let stored : MemFileSystem :=
                  { fs with inodes := update fs.inodes desc.ino (some resized) }
                match Word.checkedAdd 64 desc.offset data.length with
                | none => (.error .invalidSeek, stored)
                | some offset =>
                    (.ok data.length,
                      { stored with fds := update stored.fds fd (some { desc with offset }) })

/-- `close`. -/
def close (fd : Nat) : Except FsError Unit × MemFileSystem :=
  match fs.fds fd with
  | none => (.error .invalidFileDescriptor, fs)
  | some _ => (.ok (), { fs with fds := update fs.fds fd none })

/-- `seek`: any position is accepted. -/
def seek (fd pos : Nat) : Except FsError Unit × MemFileSystem :=
  match fs.fds fd with
  | none => (.error .invalidFileDescriptor, fs)
  | some desc => (.ok (), { fs with fds := update fs.fds fd (some { desc with offset := pos }) })

/-- `position`. -/
def position (fd : Nat) : Except FsError Nat :=
  match fs.fds fd with
  | none => .error .invalidFileDescriptor
  | some desc => .ok desc.offset

/-- `size`: the `size` field of the inode. -/
def size (fd : Nat) : Except FsError Nat :=
  match fs.fds fd with
  | none => .error .invalidFileDescriptor
  | some desc =>
      match fs.inodes desc.ino with
      | none => .error .fileNotFound
      | some inode => .ok inode.size

/-- `create`: refuse an existing path, then insert the new inode and append it
to the children of the parent that `lookup_parent` names. -/
def create (path : Path) (kind : InodeType) : Option (Option Nat × MemFileSystem) :=
  if (fs.lookup path).isSome then some (none, fs)
  else
    match fs.lookupParent path with
    | none => some (none, fs)
    | some (parentIno, name) =>
        match fs.inodes parentIno with
        | none => some (none, fs)
        | some parent =>
            if parent.kind ≠ .directory then some (none, fs)
            else
              match Word.checkedAdd 64 fs.nextIno 1 with
              | none => none
              | some nextIno =>
                  let ino := fs.nextIno
                  let inserted := update fs.inodes ino (some (Inode.new name kind parentIno))
                  let linked := match inserted parentIno with
                    | some parent =>
                        update inserted parentIno (some { parent with children := parent.children ++ [ino] })
                    | none => inserted
                  some (some ino, { fs with nextIno, inodes := linked })

/-- `mkdir`. -/
def mkdir (path : Path) : Option (Except FsError Unit × MemFileSystem) :=
  if path = ['/'] then some (.ok (), fs)
  else
    match fs.lookupParent path with
    | none => some (.error .invalidPath, fs)
    | some _ =>
        match fs.create path .directory with
        | none => none
        | some (none, created) => some (.error .permissionDenied, created)
        | some (some _, created) => some (.ok (), created)

/-- `unlink`: remove a child of the parent that `lookup_parent` names, unless it
is a nonempty directory. -/
def unlink (path : Path) : Except FsError Unit × MemFileSystem :=
  match fs.lookupParent path with
  | none => (.error .fileNotFound, fs)
  | some (parentIno, name) =>
      match fs.lookupChild parentIno name with
      | none => (.error .fileNotFound, fs)
      | some childIno =>
          match fs.inodes childIno with
          | none => (.error .fileNotFound, fs)
          | some child =>
              if child.kind = .directory && !child.children.isEmpty then
                (.error .directoryNotEmpty, fs)
              else
                let unlinked := match fs.inodes parentIno with
                  | some parent =>
                      update fs.inodes parentIno
                        (some { parent with children := parent.children.filter (· != childIno) })
                  | none => fs.inodes
                (.ok (), { fs with inodes := update unlinked childIno none })

/-- `readdir`. -/
def readdir (path : Path) : Except FsError (List VNode) :=
  match fs.lookup path with
  | none => .error .fileNotFound
  | some ino =>
      match fs.inodes ino with
      | none => .error .fileNotFound
      | some inode =>
          if inode.kind ≠ .directory then .error .notADirectory
          else
            .ok (inode.children.filterMap fun child => (fs.inodes child).map fun entry =>
              { name := entry.name, size := entry.size, isDir := entry.kind == .directory })

/-- `exists`. -/
def «exists» (path : Path) : Bool := (fs.lookup path).isSome

end MemFileSystem

instance : FileSystem MemFileSystem where
  capabilities _ := MemFileSystem.capabilities
  «open» fs path flags := fs.open path flags
  read fs fd len := some (fs.read fd len)
  write fs fd data := some (fs.write fd data)
  close fs fd := some (fs.close fd)
  seek fs fd pos := some (fs.seek fd pos)
  position fs fd := some (fs.position fd, fs)
  size fs fd := some (fs.size fd, fs)
  create fs path kind := fs.create path kind
  mkdir fs path := fs.mkdir path
  unlink fs path := some (fs.unlink path)
  readdir fs path := some (fs.readdir path, fs)
  «exists» fs path := some (fs.exists path, fs)

end Fullerene.Genome
