import Fullerene.Genome.MemFileSystem.Machine

/-!
# Files as byte arrays

The model a caller of the `FileSystem` trait has of file data: each regular
file is an array of bytes, and each open descriptor designates a file and an
offset in it.  A read returns the bytes from the offset on, as many as the
buffer holds, and moves that descriptor's offset past them; a write extends
the array with zeros up to its end and overwrites the range; a call that
fails changes nothing.  Which paths exist is not part of this model, so
`open`, `create` and `unlink` may succeed or fail, but what they do when they
succeed is fixed.
-/

namespace Fullerene.Genome

open Function

/-- The bytes of each regular file, and the file and offset of each open
descriptor. -/
structure Files where
  contents : Nat → Option (List UInt8)
  descriptors : Nat → Option (Nat × Nat)

/-- A result that is an error. -/
def Failed {α : Type} (result : Except FsError α) : Prop :=
  ∃ error, result = .error error

namespace Files

open MemFileSystem (Call Reply)

/-- The bytes a read of `len` bytes at `offset` returns. -/
def readAt (content : List UInt8) (offset len : Nat) : List UInt8 :=
  (content.drop offset).take len

/-- The file, offset and content behind a descriptor that designates a regular
file. -/
def fileAt (s : Files) (fd : Nat) : Option (Nat × Nat × List UInt8) :=
  match s.descriptors fd with
  | none => none
  | some (ino, offset) => (s.contents ino).map fun content => (ino, offset, content)

/-- One call answered on the byte-array model. -/
def Step (s : Files) : Call → Reply → Files → Prop
  | .read fd len, .bytes result, s' =>
      match s.fileAt fd with
      | some (ino, offset, content) =>
          let bytes := readAt content offset len
          result = .ok bytes ∧
            s' = { s with descriptors := update s.descriptors fd (some (ino, offset + bytes.length)) }
      | none => Failed result ∧ s' = s
  | .write fd data, .count result, s' =>
      match s.fileAt fd with
      | some (ino, offset, content) =>
          -- the end of the written range must be a 64-bit offset
          if offset + data.length < 2 ^ 64 then
            let written := content.writeAt offset data 0
            result = .ok data.length ∧
              s' = ⟨update s.contents ino (some written),
                update s.descriptors fd (some (ino, offset + data.length))⟩
          else Failed result ∧ s' = s
      | none => Failed result ∧ s' = s
  | .size fd, .count result, s' =>
      s' = s ∧ ∀ ino offset content, s.fileAt fd = some (ino, offset, content) →
        result = .ok content.length
  | .position fd, .count result, s' =>
      s' = s ∧ match s.descriptors fd with
        | some (_, offset) => result = .ok offset
        | none => Failed result
  | .seek fd pos, .status result, s' =>
      match s.descriptors fd with
      | some (ino, _) =>
          result = .ok () ∧
            s' = { s with descriptors := update s.descriptors fd (some (ino, pos.toNat)) }
      | none => Failed result ∧ s' = s
  | .close fd, .status result, s' =>
      match s.descriptors fd with
      | some _ => result = .ok () ∧ s' = { s with descriptors := update s.descriptors fd none }
      | none => Failed result ∧ s' = s
  | .open _ _, .descriptor result, s' =>
      (result = none ∧ s' = s) ∨
        ∃ desc, result = some desc ∧ desc.offset = 0 ∧ s.descriptors desc.fd = none ∧
          s' = { s with descriptors := update s.descriptors desc.fd (some (desc.ino, 0)) }
  | .create _ kind, .ino result, s' =>
      (result = none ∧ s' = s) ∨
        ∃ ino, result = some ino ∧ s.contents ino = none ∧
          (∀ fd offset, s.descriptors fd ≠ some (ino, offset)) ∧
          s' = { s with
            contents := if kind = .file then update s.contents ino (some []) else s.contents }
  | .mkdir _, .status _, s' => s' = s
  | .unlink _, .status result, s' =>
      (Failed result ∧ s' = s) ∨
        (result = .ok () ∧ ∃ ino, s' = { s with contents := update s.contents ino none })
  | .readdir _, .entries _, s' => s' = s
  | .exists _, .flag _, s' => s' = s
  | _, _, _ => False

theorem fileAt_eq_some {s : Files} {fd ino offset : Nat} {content : List UInt8} :
    s.fileAt fd = some (ino, offset, content) ↔
      s.descriptors fd = some (ino, offset) ∧ s.contents ino = some content := by
  unfold fileAt
  split
  · rename_i missing
    simp [missing]
  · rename_i ino' offset' found
    simp only [found, Option.some.injEq, Prod.mk.injEq, Option.map_eq_some_iff]
    constructor
    · rintro ⟨content', present, rfl, rfl, rfl⟩
      exact ⟨⟨rfl, rfl⟩, present⟩
    · rintro ⟨⟨rfl, rfl⟩, present⟩
      exact ⟨content, present, rfl, rfl, rfl⟩

@[simp]
theorem length_readAt (content : List UInt8) (offset len : Nat) :
    (readAt content offset len).length = min len (content.length - offset) := by
  simp [readAt]

end Files

end Fullerene.Genome
