import Fullerene.Genome.MemFileSystem.Lookup
import Fullerene.Lib.Machine

/-!
# `MemFileSystem` as a machine

Every method of the `FileSystem` implementation is one call of a machine that
starts at `MemFileSystem::new()`.  Integer arguments that have a fixed-width
type in the source and that a later bound depends on (`seek`'s `u64`
position) are taken at that type.

The shape of the inode map (names, kinds, children, parents, targets, without
file data) is `tree`; every call other than `create`, `mkdir` and `unlink`
keeps it, which the frame lemmas at the end record once for the invariant
proofs.
-/

namespace Fullerene.Genome

/-- An inode without its data and size. -/
structure Node where
  name : Path
  kind : InodeType
  children : List Nat
  parent : Nat
  target : Option Path

/-- The shape of an inode. -/
def Inode.node (inode : Inode) : Node :=
  ⟨inode.name, inode.kind, inode.children, inode.parent, inode.target⟩

namespace MemFileSystem

open Function

/-- A call of the `FileSystem` trait on a `MemFileSystem`. -/
inductive Call
  | create (path : Path) (kind : InodeType)
  | mkdir (path : Path)
  | unlink (path : Path)
  | «open» (path : Path) (flags : Nat)
  | read (fd len : Nat)
  | write (fd : Nat) (data : List UInt8)
  | seek (fd : Nat) (pos : UInt64)
  | close (fd : Nat)
  | size (fd : Nat)
  | position (fd : Nat)
  | readdir (path : Path)
  | «exists» (path : Path)

/-- The value a call returns. -/
inductive Reply
  | ino (result : Option Nat)
  | status (result : Except FsError Unit)
  | descriptor (result : Option FileDescriptor)
  | bytes (result : Except FsError (List UInt8))
  | count (result : Except FsError Nat)
  | entries (result : Except FsError (List VNode))
  | flag (result : Bool)

/-- One call; `none` when it panics. -/
def step (fs : MemFileSystem) : Call → Option (Reply × MemFileSystem)
  | .create path kind => (fs.create path kind).map fun (result, next) => (.ino result, next)
  | .mkdir path => (fs.mkdir path).map fun (result, next) => (.status result, next)
  | .unlink path => some (.status (fs.unlink path).1, (fs.unlink path).2)
  | .open path flags => (fs.open path flags).map fun (result, next) => (.descriptor result, next)
  | .read fd len => some (.bytes (fs.read fd len).1, (fs.read fd len).2)
  | .write fd data => some (.count (fs.write fd data).1, (fs.write fd data).2)
  | .seek fd pos => some (.status (fs.seek fd pos.toNat).1, (fs.seek fd pos.toNat).2)
  | .close fd => some (.status (fs.close fd).1, (fs.close fd).2)
  | .size fd => some (.count (fs.size fd), fs)
  | .position fd => some (.count (fs.position fd), fs)
  | .readdir path => some (.entries (fs.readdir path), fs)
  | .exists path => some (.flag (fs.exists path), fs)

/-- `MemFileSystem` from `MemFileSystem::new()`. -/
def machine : Machine MemFileSystem Call Reply := ⟨new, step⟩

/-! ## The shape of the inode map -/

/-- The inode map without file data. -/
def tree (fs : MemFileSystem) (ino : Nat) : Option Node :=
  (fs.inodes ino).map Inode.node

theorem tree_eq_some {fs : MemFileSystem} {ino : Nat} {node : Node} :
    fs.tree ino = some node ↔ ∃ inode, fs.inodes ino = some inode ∧ inode.node = node := by
  simp [tree]

/-- A call that keeps the shape of the inode map and the inode counter. -/
def SameTree (fs next : MemFileSystem) : Prop :=
  next.tree = fs.tree ∧ next.nextIno = fs.nextIno

theorem sameTree_refl (fs : MemFileSystem) : SameTree fs fs := ⟨rfl, rfl⟩

theorem sameTree_of_inodes {fs next : MemFileSystem} (inodes : next.inodes = fs.inodes)
    (nextIno : next.nextIno = fs.nextIno) : SameTree fs next :=
  ⟨funext fun ino => by rw [tree, tree, inodes], nextIno⟩

/-- Replacing an inode by one of the same shape keeps the tree. -/
theorem sameTree_of_update {fs next : MemFileSystem} {changed : Nat} {inode inode' : Inode}
    (found : fs.inodes changed = some inode) (shape : inode'.node = inode.node)
    (inodes : next.inodes = update fs.inodes changed (some inode'))
    (nextIno : next.nextIno = fs.nextIno) : SameTree fs next := by
  refine ⟨funext fun ino => ?_, nextIno⟩
  by_cases same : ino = changed
  · subst same
    simp [tree, inodes, found, shape]
  · simp [tree, inodes, update_of_ne same]

theorem open_sameTree {fs next : MemFileSystem} {path : Path} {flags : Nat}
    {result : Option FileDescriptor} (opened : fs.open path flags = some (result, next)) :
    SameTree fs next := by
  unfold MemFileSystem.open at opened
  split at opened
  · cases opened
    exact sameTree_refl fs
  · split at opened
    · cases opened
    · cases opened
      exact sameTree_of_inodes rfl rfl

theorem read_sameTree (fs : MemFileSystem) (fd len : Nat) : SameTree fs (fs.read fd len).2 := by
  unfold MemFileSystem.read
  split
  · exact sameTree_refl fs
  · split
    · exact sameTree_refl fs
    · split_ifs
      all_goals first | exact sameTree_refl fs | skip
      dsimp only
      split
      · exact sameTree_refl fs
      · exact sameTree_of_inodes rfl rfl

/-- A write changes the data of one inode and nothing of its shape. -/
theorem write_sameTree (fs : MemFileSystem) (fd : Nat) (data : List UInt8) :
    SameTree fs (fs.write fd data).2 := by
  unfold MemFileSystem.write
  split
  · exact sameTree_refl fs
  · rename_i desc _
    split
    · exact sameTree_refl fs
    · rename_i inode found
      split_ifs
      all_goals first | exact sameTree_refl fs | skip
      split
      · exact sameTree_refl fs
      · -- only the data and size of `desc.ino` change
        dsimp only
        split <;> exact sameTree_of_update found (by rfl) rfl rfl

theorem seek_sameTree (fs : MemFileSystem) (fd pos : Nat) : SameTree fs (fs.seek fd pos).2 := by
  unfold MemFileSystem.seek
  split
  · exact sameTree_refl fs
  · exact sameTree_of_inodes rfl rfl

theorem close_sameTree (fs : MemFileSystem) (fd : Nat) : SameTree fs (fs.close fd).2 := by
  unfold MemFileSystem.close
  split
  · exact sameTree_refl fs
  · exact sameTree_of_inodes rfl rfl

/-! ## What `create`, `mkdir` and `unlink` can do -/

/-- A `create` that returns either changes nothing or inserts the fresh inode
`nextIno` below the directory that `lookup_parent` names, for a path that
`lookup` does not find. -/
theorem create_cases {fs next : MemFileSystem} {path : Path} {kind : InodeType}
    {result : Option Nat} (fresh : fs.inodes fs.nextIno = none)
    (created : fs.create path kind = some (result, next)) :
    (result = none ∧ next = fs) ∨
      ∃ parentIno name parent, fs.lookup path = none ∧
        fs.lookupParent path = some (parentIno, name) ∧ fs.inodes parentIno = some parent ∧
        parent.kind = .directory ∧ fs.nextIno + 1 < 2 ^ 64 ∧ result = some fs.nextIno ∧
        next = { fs with
          nextIno := fs.nextIno + 1
          inodes := update (update fs.inodes fs.nextIno (some (Inode.new name kind parentIno)))
            parentIno (some { parent with children := parent.children ++ [fs.nextIno] }) } := by
  unfold create at created
  split at created
  · cases created
    exact .inl ⟨rfl, rfl⟩
  · rename_i notFound
    split at created
    · cases created
      exact .inl ⟨rfl, rfl⟩
    · rename_i parentIno name parentFound
      split at created
      · cases created
        exact .inl ⟨rfl, rfl⟩
      · rename_i parent present
        split_ifs at created with notDirectory
        · cases created
          exact .inl ⟨rfl, rfl⟩
        · split at created
          · cases created
          · rename_i nextIno added
            obtain ⟨fits, rfl⟩ := Word.checkedAdd_eq_some_iff.mp added
            -- the parent is an existing inode, so the insertion of the fresh one
            -- does not hide it
            have older : parentIno ≠ fs.nextIno := by
              rintro rfl
              rw [fresh] at present
              cases present
            simp only [update_of_ne older, present, Option.some.injEq, Prod.mk.injEq] at created
            obtain ⟨rfl, rfl⟩ := created
            refine .inr ⟨parentIno, name, parent, by simpa using notFound, parentFound, present,
              by simpa using notDirectory, fits, rfl, rfl⟩

/-- `mkdir` either changes nothing or is a `create` of a directory. -/
theorem mkdir_cases {fs next : MemFileSystem} {path : Path} {result : Except FsError Unit}
    (made : fs.mkdir path = some (result, next)) :
    next = fs ∨ ∃ created, fs.create path .directory = some (created, next) := by
  unfold mkdir at made
  split at made
  · cases made
    exact .inl rfl
  · split at made
    · cases made
      exact .inl rfl
    · split at made
      · cases made
      · cases made
        exact .inr ⟨none, by assumption⟩
      · cases made
        exact .inr ⟨some _, by assumption⟩

/-- An `unlink` either fails and changes nothing, or removes a child, found by
`lookup_child` in the parent that `lookup_parent` names, that is not a
directory with children, and drops it from the parent's children. -/
theorem unlink_cases (fs : MemFileSystem) (path : Path) :
    (∃ error, fs.unlink path = (.error error, fs)) ∨
      ∃ parentIno name childIno child parent, fs.lookupParent path = some (parentIno, name) ∧
        fs.lookupChild parentIno name = some childIno ∧ fs.inodes childIno = some child ∧
        (child.kind = .directory → child.children = []) ∧ fs.inodes parentIno = some parent ∧
        fs.unlink path = (.ok (), { fs with
          inodes := update (update fs.inodes parentIno
            (some { parent with children := parent.children.filter (· != childIno) }))
            childIno none }) := by
  unfold unlink
  split
  · exact .inl ⟨_, rfl⟩
  · rename_i parentIno name parentFound
    split
    · exact .inl ⟨_, rfl⟩
    · rename_i childIno childFound
      split
      · exact .inl ⟨_, rfl⟩
      · rename_i child present
        split_ifs with nonempty
        · exact .inl ⟨_, rfl⟩
        · -- `lookup_child` found the child among the parent's children
          obtain ⟨parent, parentPresent, -, -⟩ := fs.lookupChild_eq_some childFound
          have empty : child.kind = .directory → child.children = [] := by
            intro directory
            simpa [directory] using nonempty
          refine .inr ⟨parentIno, name, childIno, child, parent, parentFound, childFound, present,
            empty, parentPresent, ?_⟩
          simp only [parentPresent]

end MemFileSystem

end Fullerene.Genome
