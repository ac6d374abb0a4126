import Fullerene.Lib.Word

/-!
# Genome filesystem interface

The types shared by every filesystem of the `genome` crate (`fs.rs`, the top
of `vfs.rs`) and the `FileSystem` trait.  Paths and names are strings; the
separator `/` is ASCII, so cutting a string at it by characters is cutting it
by bytes, and a path is its list of characters.

Every trait method takes `&mut self`: a method is a function from the
filesystem to its reply and the new filesystem, wrapped in `Option`, where
`none` is a panic (`panic = "abort"`, so the caller never resumes).
-/

namespace Fullerene.Genome

/-- A path or a name. -/
abbrev Path := List Char

/-- A name a directory entry may have, and a component that `normalize_path`
keeps: nonempty, free of `/`, and neither `.` nor `..`. -/
def ValidName (name : Path) : Prop :=
  name ≠ [] ∧ '/' ∉ name ∧ name ≠ ['.'] ∧ name ≠ ['.', '.']

instance : DecidablePred ValidName :=
  fun _ => inferInstanceAs (Decidable (_ ∧ _ ∧ _ ∧ _))

/-- `enum FsError`. -/
inductive FsError
  | fileNotFound
  | fileExists
  | permissionDenied
  | invalidFileDescriptor
  | invalidSeek
  | diskFull
  | notADirectory
  | directoryNotEmpty
  | isADirectory
  | invalidPath
  | notSupported
  | invalidInput
  | unexpectedEof
  | io
  deriving DecidableEq, Repr

/-- `enum InodeType`. -/
inductive InodeType
  | file
  | directory
  | symlink
  deriving DecidableEq, Repr

/-- `struct FileDescriptor`: a descriptor number, the inode it designates, the
position of the next transfer and the open flags. -/
structure FileDescriptor where
  fd : Nat
  ino : Nat
  offset : Nat
  flags : Nat
  deriving DecidableEq, Repr

/-- `struct VNode`: one directory entry as `readdir` reports it. -/
structure VNode where
  name : Path
  size : Nat
  isDir : Bool
  deriving DecidableEq, Repr

/-- `struct FileSystemCapabilities`. -/
structure FileSystemCapabilities where
  readOnly : Bool
  mkdir : Bool
  unlink : Bool
  symlink : Bool
  largeFile : Bool
  deriving DecidableEq, Repr

/-- `FileSystemCapabilities::conservative`, the trait's default. -/
def FileSystemCapabilities.conservative : FileSystemCapabilities :=
  ⟨true, false, false, false, false⟩

/-- `trait FileSystem`.  `read fs fd len` stands for `read(fd, buf)` with
`buf.len() = len` and returns the bytes copied into `buf[..n]`. -/
class FileSystem (F : Type) where
  capabilities : F → FileSystemCapabilities := fun _ => .conservative
  «open» : F → Path → Nat → Option (Option FileDescriptor × F)
  read : F → Nat → Nat → Option (Except FsError (List UInt8) × F)
  write : F → Nat → List UInt8 → Option (Except FsError Nat × F)
  close : F → Nat → Option (Except FsError Unit × F)
  seek : F → Nat → Nat → Option (Except FsError Unit × F)
  position : F → Nat → Option (Except FsError Nat × F) := fun fs _ => some (.error .notSupported, fs)
  size : F → Nat → Option (Except FsError Nat × F) := fun fs _ => some (.error .notSupported, fs)
  create : F → Path → InodeType → Option (Option Nat × F)
  mkdir : F → Path → Option (Except FsError Unit × F)
  unlink : F → Path → Option (Except FsError Unit × F)
  readdir : F → Path → Option (Except FsError (List VNode) × F)
  «exists» : F → Path → Option (Bool × F)

end Fullerene.Genome
