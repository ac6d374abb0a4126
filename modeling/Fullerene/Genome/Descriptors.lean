import Fullerene.Genome.MemFileSystem.Refinement
import Mathlib.Logic.Relation

/-!
# The descriptors a filesystem keeps open

A caller that numbers a filesystem's descriptors itself (the handle table of
the kernel's `VfsContext`) relies on a discipline that the `FileSystem` trait
leaves implicit: a descriptor that `open` returns was not open before and is
open after, `close` closes its own descriptor and no other, and the other
methods open and close nothing.  `Descriptors` states it for a filesystem
type, under an invariant `Sound` of its states.

`MemFileSystem` keeps it under `Consistent`: the byte-array model of its calls
(`Files.Step`) already says which descriptors each call leaves open.

`Evolves fs next` says that `next` is `fs` after some of its own method calls:
the same filesystem, later.
-/

namespace Fullerene.Genome

namespace FileSystem

variable {F : Type} [FileSystem F]

/-- `next` is what a method other than `open` and `close` leaves of `fs`;
`seek` takes a `u64`. -/
inductive PlainCall (fs : F) : F → Prop
  | read {fd len : Nat} {result : Except FsError (List UInt8)} {next : F} :
      FileSystem.read fs fd len = some (result, next) → PlainCall fs next
  | write {fd : Nat} {data : List UInt8} {result : Except FsError Nat} {next : F} :
      FileSystem.write fs fd data = some (result, next) → PlainCall fs next
  | seek {fd : Nat} {pos : UInt64} {result : Except FsError Unit} {next : F} :
      FileSystem.seek fs fd pos.toNat = some (result, next) → PlainCall fs next
  | position {fd : Nat} {result : Except FsError Nat} {next : F} :
      FileSystem.position fs fd = some (result, next) → PlainCall fs next
  | size {fd : Nat} {result : Except FsError Nat} {next : F} :
      FileSystem.size fs fd = some (result, next) → PlainCall fs next
  | create {path : Path} {kind : InodeType} {result : Option Nat} {next : F} :
      FileSystem.create fs path kind = some (result, next) → PlainCall fs next
  | mkdir {path : Path} {result : Except FsError Unit} {next : F} :
      FileSystem.mkdir fs path = some (result, next) → PlainCall fs next
  | unlink {path : Path} {result : Except FsError Unit} {next : F} :
      FileSystem.unlink fs path = some (result, next) → PlainCall fs next
  | readdir {path : Path} {result : Except FsError (List VNode)} {next : F} :
      FileSystem.readdir fs path = some (result, next) → PlainCall fs next
  | «exists» {path : Path} {result : Bool} {next : F} :
      FileSystem.exists fs path = some (result, next) → PlainCall fs next

/-- `next` is what one method call leaves of `fs`. -/
inductive Answers (fs : F) : F → Prop
  | plain {next : F} : PlainCall fs next → Answers fs next
  | «open» {path : Path} {flags : Nat} {result : Option FileDescriptor} {next : F} :
      FileSystem.open fs path flags = some (result, next) → Answers fs next
  | close {fd : Nat} {result : Except FsError Unit} {next : F} :
      FileSystem.close fs fd = some (result, next) → Answers fs next

/-- `next` is `fs` after some of its own method calls. -/
def Evolves (fs next : F) : Prop :=
  Relation.ReflTransGen Answers fs next

theorem Evolves.refl (fs : F) : Evolves fs fs :=
  Relation.ReflTransGen.refl

theorem Evolves.trans {fs middle next : F} (first : Evolves fs middle)
    (second : Evolves middle next) : Evolves fs next :=
  Relation.ReflTransGen.trans first second

theorem Answers.evolves {fs next : F} (answered : Answers fs next) : Evolves fs next :=
  Relation.ReflTransGen.single answered

/-- `next` is `fs` after some of its methods other than `open` and `close`. -/
def Quiet (fs next : F) : Prop :=
  Relation.ReflTransGen PlainCall fs next

theorem PlainCall.quiet {fs next : F} (called : PlainCall fs next) : Quiet fs next :=
  Relation.ReflTransGen.single called

theorem Quiet.evolves {fs next : F} (quiet : Quiet fs next) : Evolves fs next := by
  induction quiet with
  | refl => exact Relation.ReflTransGen.refl
  | tail _ called evolved => exact evolved.tail (Answers.plain called)

end FileSystem

open FileSystem

/-- The descriptor discipline of a filesystem type, under the invariant
`Sound` of its states: which local descriptors are open (`IsOpen`), and how
each method changes that. -/
class Descriptors (F : Type) [FileSystem F] where
  /-- the invariant every method keeps -/
  Sound : F → Prop
  /-- the local descriptors open in a state -/
  IsOpen : F → Nat → Prop
  /-- the descriptor `open` returns was closed, and it is the one it opens -/
  open_some {fs next : F} {path : Path} {flags : Nat} {desc : FileDescriptor} :
    Sound fs → FileSystem.open fs path flags = some (some desc, next) →
      Sound next ∧ ¬ IsOpen fs desc.fd ∧ ∀ fd, IsOpen next fd ↔ fd = desc.fd ∨ IsOpen fs fd
  /-- an `open` that finds nothing opens nothing -/
  open_none {fs next : F} {path : Path} {flags : Nat} :
    Sound fs → FileSystem.open fs path flags = some (none, next) →
      Sound next ∧ ∀ fd, IsOpen next fd ↔ IsOpen fs fd
  /-- `close` closes no descriptor but its own -/
  close {fs next : F} {fd : Nat} {result : Except FsError Unit} :
    Sound fs → FileSystem.close fs fd = some (result, next) →
      Sound next ∧ ∀ other, other ≠ fd → (IsOpen next other ↔ IsOpen fs other)
  /-- the other methods open and close nothing -/
  plain {fs next : F} : Sound fs → PlainCall fs next →
    Sound next ∧ ∀ fd, IsOpen next fd ↔ IsOpen fs fd

namespace Descriptors

variable {F : Type} [FileSystem F] [Descriptors F]

theorem sound_of_answers {fs next : F} (sound : Sound fs) (answered : Answers fs next) :
    Sound next := by
  cases answered with
  | plain called => exact (plain sound called).1
  | @«open» path flags result _ opened =>
      cases result with
      | none => exact (open_none sound opened).1
      | some desc => exact (open_some sound opened).1
  | close closed => exact (close sound closed).1

/-- A filesystem stays sound through its own method calls. -/
theorem sound_of_evolves {fs next : F} (sound : Sound fs) (evolved : Evolves fs next) :
    Sound next := by
  induction evolved with
  | refl => exact sound
  | tail _ answered soundMiddle => exact sound_of_answers soundMiddle answered

/-- Plain methods, one after another, open and close nothing. -/
theorem quiet {fs next : F} (sound : Sound fs) (quiet : Quiet fs next) :
    Sound next ∧ ∀ fd, IsOpen next fd ↔ IsOpen fs fd := by
  induction quiet with
  | refl => exact ⟨sound, fun _ => Iff.rfl⟩
  | tail _ called kept =>
      obtain ⟨soundMiddle, sameMiddle⟩ := kept
      obtain ⟨soundNext, sameNext⟩ := plain soundMiddle called
      exact ⟨soundNext, fun fd => (sameNext fd).trans (sameMiddle fd)⟩

end Descriptors

/-! ## `MemFileSystem` -/

namespace Files

open Function
open MemFileSystem (Call Reply)

/-- The calls other than `open` and `close`. -/
def keepsDescriptors : Call → Bool
  | .open _ _ | .close _ => false
  | _ => true

theorem isSome_update_some {descriptors : Nat → Option (Nat × Nat)} {fd : Nat}
    (opened : (descriptors fd).isSome = true) (value : Nat × Nat) (other : Nat) :
    (update descriptors fd (some value) other).isSome = (descriptors other).isSome := by
  by_cases same : other = fd
  · subst same
    rw [update_self, opened]
    rfl
  · rw [update_of_ne same]

/-- A call other than `open` and `close` leaves the same descriptors open: a
transfer or a seek moves the offset of a descriptor that is open, and the
others change files only. -/
theorem Step.isSome_descriptors {s s' : Files} {call : Call} {reply : Reply}
    (stepped : s.Step call reply s') (keeps : keepsDescriptors call = true) (fd : Nat) :
    (s'.descriptors fd).isSome = (s.descriptors fd).isSome := by
  cases call <;> cases reply <;> simp only [Step, keepsDescriptors, Bool.false_eq_true] at stepped keeps
  case read.bytes fd' len result =>
    split at stepped
    · rename_i ino offset content found
      obtain ⟨-, rfl⟩ := stepped
      have opened := (fileAt_eq_some.mp found).1
      exact isSome_update_some (by rw [opened]; rfl) _ fd
    · rw [stepped.2]
  case write.count fd' data result =>
    split at stepped
    · rename_i ino offset content found
      split_ifs at stepped
      · obtain ⟨-, rfl⟩ := stepped
        exact isSome_update_some (by rw [(fileAt_eq_some.mp found).1]; rfl) _ fd
      · rw [stepped.2]
    · rw [stepped.2]
  case seek.status fd' pos result =>
    split at stepped
    · rename_i ino offset found
      obtain ⟨-, rfl⟩ := stepped
      exact isSome_update_some (by rw [found]; rfl) _ fd
    · rw [stepped.2]
  case create.ino path kind result =>
    rcases stepped with ⟨-, rfl⟩ | ⟨ino, -, -, -, rfl⟩ <;> rfl
  case unlink.status path result =>
    rcases stepped with ⟨-, rfl⟩ | ⟨-, ino, rfl⟩ <;> rfl
  all_goals first
    | rw [stepped]
    | rw [stepped.1]

end Files

namespace MemFileSystem

theorem isSome_descriptors_files (fs : MemFileSystem) (fd : Nat) :
    ((files fs).descriptors fd).isSome = (fs.fds fd).isSome :=
  Option.isSome_map

instance : Descriptors MemFileSystem where
  Sound := Consistent
  IsOpen fs fd := (fs.fds fd).isSome
  open_some := by
    intro fs next path flags desc consistent opened
    have stepped : fs.step (.open path flags) = some (.descriptor (some desc), next) := by
      simp [step, show fs.open path flags = some (some desc, next) from opened]
    obtain ⟨refined, consistentNext⟩ := step_refines consistent stepped
    simp only [Files.Step] at refined
    obtain ⟨absurd, -⟩ | ⟨desc', same, -, closed, viewed⟩ := refined
    · cases absurd
    cases same
    refine ⟨consistentNext, ?_, fun fd => ?_⟩
    · rw [← isSome_descriptors_files, closed]
      exact Bool.false_ne_true
    · rw [← isSome_descriptors_files, ← isSome_descriptors_files, viewed]
      by_cases same : fd = desc.fd
      · subst same
        simp
      · simp [same]
  open_none := by
    intro fs next path flags consistent opened
    have stepped : fs.step (.open path flags) = some (.descriptor none, next) := by
      simp [step, show fs.open path flags = some (none, next) from opened]
    obtain ⟨refined, consistentNext⟩ := step_refines consistent stepped
    simp only [Files.Step] at refined
    obtain ⟨-, viewed⟩ | ⟨desc, absurd, -⟩ := refined
    · refine ⟨consistentNext, fun fd => ?_⟩
      rw [← isSome_descriptors_files, ← isSome_descriptors_files, viewed]
    · cases absurd
  close := by
    intro fs next fd result consistent closed
    have stepped : fs.step (.close fd) = some (.status result, next) := by
      simp only [FileSystem.close, Option.some.injEq] at closed
      simp [step, closed]
    obtain ⟨refined, consistentNext⟩ := step_refines consistent stepped
    refine ⟨consistentNext, fun other different => ?_⟩
    simp only [Files.Step] at refined
    rw [← isSome_descriptors_files, ← isSome_descriptors_files]
    split at refined
    · rw [refined.2]
      dsimp only
      rw [Function.update_of_ne different]
    · rw [refined.2]
  plain := by
    intro fs next consistent called
    -- each plain method is a step of the machine by a call that keeps descriptors
    obtain ⟨call, reply, keeps, stepped⟩ : ∃ call reply, Files.keepsDescriptors call = true ∧
        fs.step call = some (reply, next) := by
      cases called with
      | @read fd len result _ answered =>
          refine ⟨.read fd len, .bytes result, rfl, ?_⟩
          rw [step, show fs.read fd len = (result, next) from Option.some.inj answered]
      | @write fd data result _ answered =>
          refine ⟨.write fd data, .count result, rfl, ?_⟩
          rw [step, show fs.write fd data = (result, next) from Option.some.inj answered]
      | @seek fd pos result _ answered =>
          refine ⟨.seek fd pos, .status result, rfl, ?_⟩
          rw [step, show fs.seek fd pos.toNat = (result, next) from Option.some.inj answered]
      | @position fd result _ answered =>
          obtain ⟨rfl, rfl⟩ := Prod.mk.inj (Option.some.inj answered)
          exact ⟨.position fd, .count _, rfl, rfl⟩
      | @size fd result _ answered =>
          obtain ⟨rfl, rfl⟩ := Prod.mk.inj (Option.some.inj answered)
          exact ⟨.size fd, .count _, rfl, rfl⟩
      | @create path kind result _ answered =>
          refine ⟨.create path kind, .ino result, rfl, ?_⟩
          rw [step, show fs.create path kind = some (result, next) from answered]
          rfl
      | @mkdir path result _ answered =>
          refine ⟨.mkdir path, .status result, rfl, ?_⟩
          rw [step, show fs.mkdir path = some (result, next) from answered]
          rfl
      | @unlink path result _ answered =>
          refine ⟨.unlink path, .status result, rfl, ?_⟩
          rw [step, show fs.unlink path = (result, next) from Option.some.inj answered]
      | @readdir path result _ answered =>
          obtain ⟨rfl, rfl⟩ := Prod.mk.inj (Option.some.inj answered)
          exact ⟨.readdir path, .entries _, rfl, rfl⟩
      | @«exists» path result _ answered =>
          obtain ⟨rfl, rfl⟩ := Prod.mk.inj (Option.some.inj answered)
          exact ⟨.exists path, .flag _, rfl, rfl⟩
    obtain ⟨refined, consistentNext⟩ := step_refines consistent stepped
    refine ⟨consistentNext, fun fd => ?_⟩
    rw [← isSome_descriptors_files, ← isSome_descriptors_files,
      refined.isSome_descriptors keeps fd]

end MemFileSystem

end Fullerene.Genome
