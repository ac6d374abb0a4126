import Fullerene.Genome.MemFileSystem.Tree

/-!
# The tree invariant of `MemFileSystem`

Every call keeps `WellFormed fs.tree fs.nextIno`: `create` (and `mkdir`
through it) inserts a leaf, `unlink` removes a childless entry and the other
calls keep the shape.  The argument for `create` is `create_name`: when
`lookup` of a path fails, the parent and name that `lookup_parent` returns
name an existing directory and a valid name that none of its children has.

Along every run the counter only grows and a free inode number below it stays
free (`Grows`), so an inode number is never handed out twice.
-/

namespace Fullerene.Genome.MemFileSystem

open Function

variable {fs next : MemFileSystem}

theorem tree_eq_none {ino : Nat} : fs.tree ino = none ↔ fs.inodes ino = none := by
  simp [tree]

/-- The shape of an inode map after a `Function.update`. -/
theorem tree_update (inodes : Nat → Option Inode) (ino : Nat) (inode : Option Inode) :
    (fun i => (update inodes ino inode i).map Inode.node) =
      update (fun i => (inodes i).map Inode.node) ino (inode.map Inode.node) :=
  comp_update (Option.map Inode.node) inodes ino inode

theorem noTargets_of_wellFormed (wf : WellFormed fs.tree fs.nextIno) : fs.NoTargets := by
  intro ino inode found
  exact wf.noTarget (tree_eq_some.mpr ⟨inode, found, rfl⟩)

theorem wellFormed_of_sameTree (wf : WellFormed fs.tree fs.nextIno) (same : SameTree fs next) :
    WellFormed next.tree next.nextIno := by
  rw [same.1, same.2]
  exact wf

/-- One component step from an existing inode lands on an existing inode. -/
theorem stepComponent_exists (wf : WellFormed fs.tree fs.nextIno) {current target : Nat}
    {inode : Inode} {comp : Path} (present : fs.inodes current = some inode)
    (stepped : fs.stepComponent current comp = some target) :
    ∃ found, fs.inodes target = some found := by
  unfold stepComponent at stepped
  split_ifs at stepped with dot dotDot
  · -- `.` stays
    cases stepped
    exact ⟨inode, present⟩
  · -- `..` climbs to the parent, or stays at the root
    rw [present, Option.map_some, Option.some.injEq] at stepped
    subst stepped
    split_ifs with atTop
    · obtain ⟨rootNode, rootFound, -⟩ := wf.root
      obtain ⟨rootInode, rootPresent, -⟩ := tree_eq_some.mp rootFound
      exact ⟨rootInode, rootPresent⟩
    · have notRoot : current ≠ 1 := by
        rintro rfl
        obtain ⟨rootNode, rootFound, -, rootParent⟩ := wf.root
        obtain ⟨rootInode, rootPresent, rfl⟩ := tree_eq_some.mp rootFound
        rw [present] at rootPresent
        cases rootPresent
        exact atTop rootParent
      obtain ⟨parentNode, parentFound, -⟩ :=
        wf.listed (tree_eq_some.mpr ⟨inode, present, rfl⟩) notRoot
      obtain ⟨parentInode, parentPresent, -⟩ := tree_eq_some.mp parentFound
      exact ⟨parentInode, parentPresent⟩
  · -- a name is looked up among the children
    obtain ⟨-, -, -, child, childPresent, -⟩ := fs.lookupChild_eq_some stepped
    exact ⟨child, childPresent⟩

/-- When `lookup` of a path fails, the name `lookup_parent` cuts off it is a
valid name that no child of the parent has. -/
theorem create_name (wf : WellFormed fs.tree fs.nextIno) {path name : Path} {parentIno : Nat}
    {parent : Inode} (absent : fs.lookup path = none)
    (found : fs.lookupParent path = some (parentIno, name))
    (present : fs.inodes parentIno = some parent) :
    ValidName name ∧ name ∉ childNames fs.tree parent.children := by
  have noTargets := noTargets_of_wellFormed wf
  obtain ⟨nonempty, noSlash, -⟩ := lookupParent_spec noTargets found
  have single := lookup_eq_of_lookupParent noTargets found
  rw [absent, resolve_single] at single
  -- the step from the parent to the name lands on no existing inode
  have noStep : ∀ target, fs.stepComponent parentIno name = some target →
      fs.inodes target = none := by
    intro target stepped
    rw [stepped, Option.bind_some] at single
    cases targetPresent : fs.inodes target with
    | none => rfl
    | some _ => simp [targetPresent] at single
  have notDot : name ≠ ['.'] := by
    intro dot
    have stays : fs.stepComponent parentIno name = some parentIno := by
      simp [stepComponent, dot]
    rw [noStep parentIno stays] at present
    cases present
  have notDotDot : name ≠ ['.', '.'] := by
    intro dotDot
    cases stepped : fs.stepComponent parentIno name with
    | none => simp [stepComponent, dotDot, present] at stepped
    | some target =>
        obtain ⟨found, targetPresent⟩ := stepComponent_exists wf present stepped
        rw [noStep target stepped] at targetPresent
        cases targetPresent
  refine ⟨⟨nonempty, noSlash, notDot, notDotDot⟩, ?_⟩
  -- a plain name is looked up among the children, and no child has it
  have missing : fs.lookupChild parentIno name = none := by
    cases child : fs.lookupChild parentIno name with
    | none => rfl
    | some childIno =>
        have stepped : fs.stepComponent parentIno name = some childIno := by
          simp [stepComponent, notDot, notDotDot, child]
        obtain ⟨-, -, -, inode, childPresent, -⟩ := fs.lookupChild_eq_some child
        rw [noStep childIno stepped] at childPresent
        cases childPresent
  intro listed
  obtain ⟨childIno, member, named⟩ := List.mem_filterMap.mp listed
  obtain ⟨childNode, childFound, rfl⟩ := Option.map_eq_some_iff.mp named
  obtain ⟨inode, childPresent, rfl⟩ := tree_eq_some.mp childFound
  exact fs.lookupChild_eq_none present missing childIno member inode childPresent rfl

/-- An inode of a well-formed shape is not the counter's number. -/
theorem fresh_of_wellFormed (wf : WellFormed fs.tree fs.nextIno) : fs.inodes fs.nextIno = none := by
  cases present : fs.inodes fs.nextIno with
  | none => rfl
  | some inode =>
      exact absurd (wf.belowNext (tree_eq_some.mpr ⟨inode, present, rfl⟩)) (Nat.lt_irrefl _)

theorem create_wellFormed (wf : WellFormed fs.tree fs.nextIno) {path : Path} {kind : InodeType}
    {result : Option Nat} (created : fs.create path kind = some (result, next)) :
    WellFormed next.tree next.nextIno := by
  rcases create_cases (fresh_of_wellFormed wf) created with ⟨-, rfl⟩ |
      ⟨parentIno, name, parent, absent, found, present, directory, -, -, rfl⟩
  · exact wf
  · obtain ⟨valid, freshName⟩ := create_name wf absent found present
    have parentFound : fs.tree parentIno = some parent.node := tree_eq_some.mpr ⟨parent, present, rfl⟩
    show WellFormed (fun ino => (update (update fs.inodes _ _) _ _ ino).map Inode.node) _
    rw [tree_update, tree_update]
    exact wf.insert parentFound directory valid freshName

theorem mkdir_wellFormed (wf : WellFormed fs.tree fs.nextIno) {path : Path}
    {result : Except FsError Unit} (made : fs.mkdir path = some (result, next)) :
    WellFormed next.tree next.nextIno := by
  rcases mkdir_cases made with rfl | ⟨created, createdEq⟩
  · exact wf
  · exact create_wellFormed wf createdEq

theorem unlink_wellFormed (wf : WellFormed fs.tree fs.nextIno) (path : Path) :
    WellFormed (fs.unlink path).2.tree (fs.unlink path).2.nextIno := by
  rcases fs.unlink_cases path with ⟨error, failed⟩ |
      ⟨parentIno, name, childIno, child, parent, -, childFound, childPresent, empty, present,
        unlinked⟩
  · rw [failed]
    exact wf
  · rw [unlinked]
    have parentFound : fs.tree parentIno = some parent.node := tree_eq_some.mpr ⟨parent, present, rfl⟩
    have childTree : fs.tree childIno = some child.node := tree_eq_some.mpr ⟨child, childPresent, rfl⟩
    -- only directories have children, and a directory removed is empty
    have childless : child.children = [] := by
      by_cases directory : child.kind = .directory
      · exact empty directory
      · exact wf.leaf childTree directory
    have member' : childIno ∈ parent.node.children := by
      obtain ⟨parent', present', member', -⟩ := fs.lookupChild_eq_some childFound
      rw [present] at present'
      cases present'
      exact member'
    have removed := wf.remove parentFound member' childTree childless
    show WellFormed (fun ino => (update (update fs.inodes _ _) _ _ ino).map Inode.node) _
    rw [tree_update, tree_update]
    exact removed

/-- Every call keeps the tree well formed. -/
theorem step_wellFormed (wf : WellFormed fs.tree fs.nextIno) {call : Call} {reply : Reply}
    (stepped : fs.step call = some (reply, next)) : WellFormed next.tree next.nextIno := by
  cases call with
  | create path kind =>
      obtain ⟨⟨result, next'⟩, created, same⟩ := Option.map_eq_some_iff.mp stepped
      cases same
      exact create_wellFormed wf created
  | mkdir path =>
      obtain ⟨⟨result, next'⟩, made, same⟩ := Option.map_eq_some_iff.mp stepped
      cases same
      exact mkdir_wellFormed wf made
  | unlink path =>
      cases stepped
      exact unlink_wellFormed wf path
  | «open» path flags =>
      obtain ⟨⟨result, next'⟩, opened, same⟩ := Option.map_eq_some_iff.mp stepped
      cases same
      exact wellFormed_of_sameTree wf (open_sameTree opened)
  | read fd len =>
      cases stepped
      exact wellFormed_of_sameTree wf (read_sameTree fs fd len)
  | write fd data =>
      cases stepped
      exact wellFormed_of_sameTree wf (write_sameTree fs fd data)
  | seek fd pos =>
      cases stepped
      exact wellFormed_of_sameTree wf (seek_sameTree fs fd pos.toNat)
  | close fd =>
      cases stepped
      exact wellFormed_of_sameTree wf (close_sameTree fs fd)
  | size fd => cases stepped; exact wf
  | position fd => cases stepped; exact wf
  | readdir path => cases stepped; exact wf
  | «exists» path => cases stepped; exact wf

theorem new_wellFormed : WellFormed new.tree new.nextIno where
  root := ⟨_, rfl, rfl, rfl⟩
  childParent := by
    intro ino node child found member
    obtain ⟨inode, present, rfl⟩ := tree_eq_some.mp found
    by_cases isRoot : ino = 1
    · subst isRoot
      cases present
      cases member
    · simp [new, update_of_ne isRoot] at present
  childrenNodup := by
    intro ino node found
    obtain ⟨inode, present, rfl⟩ := tree_eq_some.mp found
    by_cases isRoot : ino = 1
    · subst isRoot
      cases present
      exact List.nodup_nil
    · simp [new, update_of_ne isRoot] at present
  listed := by
    intro ino node found notRoot
    obtain ⟨inode, present, rfl⟩ := tree_eq_some.mp found
    simp [new, update_of_ne notRoot] at present
  parentLt := by
    intro ino node found notRoot
    obtain ⟨inode, present, rfl⟩ := tree_eq_some.mp found
    simp [new, update_of_ne notRoot] at present
  leaf := by
    intro ino node found notDirectory
    obtain ⟨inode, present, rfl⟩ := tree_eq_some.mp found
    by_cases isRoot : ino = 1
    · subst isRoot
      cases present
      rfl
    · simp [new, update_of_ne isRoot] at present
  namesNodup := by
    intro ino node found
    obtain ⟨inode, present, rfl⟩ := tree_eq_some.mp found
    by_cases isRoot : ino = 1
    · subst isRoot
      cases present
      exact List.nodup_nil
    · simp [new, update_of_ne isRoot] at present
  validName := by
    intro ino node found notRoot
    obtain ⟨inode, present, rfl⟩ := tree_eq_some.mp found
    simp [new, update_of_ne notRoot] at present
  noTarget := by
    intro ino node found
    obtain ⟨inode, present, rfl⟩ := tree_eq_some.mp found
    by_cases isRoot : ino = 1
    · subst isRoot
      cases present
      rfl
    · simp [new, update_of_ne isRoot] at present
  belowNext := by
    intro ino node found
    obtain ⟨inode, present, rfl⟩ := tree_eq_some.mp found
    by_cases isRoot : ino = 1
    · subst isRoot
      decide
    · simp [new, update_of_ne isRoot] at present

theorem wellFormed_inductive : machine.Inductive fun fs => WellFormed fs.tree fs.nextIno where
  init := new_wellFormed
  step := fun wf stepped => step_wellFormed wf stepped

/-! ## Inode numbers are never reused -/

/-- The counter does not decrease, and a number below it that is free stays
free. -/
def Grows (fs next : MemFileSystem) : Prop :=
  fs.nextIno ≤ next.nextIno ∧ ∀ ino, ino < fs.nextIno → fs.inodes ino = none → next.inodes ino = none

theorem grows_refl (fs : MemFileSystem) : Grows fs fs :=
  ⟨Nat.le_refl _, fun _ _ free => free⟩

theorem Grows.trans {later : MemFileSystem} (first : Grows fs next) (second : Grows next later) :
    Grows fs later := by
  refine ⟨Nat.le_trans first.1 second.1, ?_⟩
  intro ino below free
  exact second.2 ino (Nat.lt_of_lt_of_le below first.1) (first.2 ino below free)

theorem grows_of_sameTree (same : SameTree fs next) : Grows fs next := by
  refine ⟨Nat.le_of_eq same.2.symm, ?_⟩
  intro ino _ free
  rw [← tree_eq_none, same.1, tree_eq_none]
  exact free

theorem create_grows (wf : WellFormed fs.tree fs.nextIno) {path : Path} {kind : InodeType}
    {result : Option Nat} (created : fs.create path kind = some (result, next)) :
    Grows fs next := by
  rcases create_cases (fresh_of_wellFormed wf) created with ⟨-, rfl⟩ |
      ⟨parentIno, name, parent, -, -, present, -, -, -, rfl⟩
  · exact grows_refl _
  · refine ⟨Nat.le_succ _, ?_⟩
    intro ino below free
    -- the two updated numbers are the counter and an existing inode
    have notParent : ino ≠ parentIno := by
      rintro rfl
      rw [free] at present
      cases present
    show update (update fs.inodes _ _) _ _ ino = none
    rw [update_of_ne notParent, update_of_ne (Nat.ne_of_lt below), free]

theorem mkdir_grows (wf : WellFormed fs.tree fs.nextIno) {path : Path}
    {result : Except FsError Unit} (made : fs.mkdir path = some (result, next)) :
    Grows fs next := by
  rcases mkdir_cases made with rfl | ⟨created, createdEq⟩
  · exact grows_refl _
  · exact create_grows wf createdEq

theorem unlink_grows (path : Path) : Grows fs (fs.unlink path).2 := by
  rcases fs.unlink_cases path with ⟨error, failed⟩ |
      ⟨parentIno, name, childIno, child, parent, -, -, -, -, present, unlinked⟩
  · rw [failed]
    exact grows_refl fs
  · rw [unlinked]
    refine ⟨Nat.le_refl _, ?_⟩
    intro ino _ free
    have notParent : ino ≠ parentIno := by
      rintro rfl
      rw [free] at present
      cases present
    show update (update fs.inodes _ _) _ _ ino = none
    by_cases removed : ino = childIno
    · rw [removed, update_self]
    · rw [update_of_ne removed, update_of_ne notParent, free]

theorem step_grows (wf : WellFormed fs.tree fs.nextIno) {call : Call} {reply : Reply}
    (stepped : fs.step call = some (reply, next)) : Grows fs next := by
  cases call with
  | create path kind =>
      obtain ⟨⟨result, next'⟩, created, same⟩ := Option.map_eq_some_iff.mp stepped
      cases same
      exact create_grows wf created
  | mkdir path =>
      obtain ⟨⟨result, next'⟩, made, same⟩ := Option.map_eq_some_iff.mp stepped
      cases same
      exact mkdir_grows wf made
  | unlink path =>
      cases stepped
      exact unlink_grows path
  | «open» path flags =>
      obtain ⟨⟨result, next'⟩, opened, same⟩ := Option.map_eq_some_iff.mp stepped
      cases same
      exact grows_of_sameTree (open_sameTree opened)
  | read fd len =>
      cases stepped
      exact grows_of_sameTree (read_sameTree fs fd len)
  | write fd data =>
      cases stepped
      exact grows_of_sameTree (write_sameTree fs fd data)
  | seek fd pos =>
      cases stepped
      exact grows_of_sameTree (seek_sameTree fs fd pos.toNat)
  | close fd =>
      cases stepped
      exact grows_of_sameTree (close_sameTree fs fd)
  | size fd => cases stepped; exact grows_refl fs
  | position fd => cases stepped; exact grows_refl fs
  | readdir path => cases stepped; exact grows_refl fs
  | «exists» path => cases stepped; exact grows_refl fs

/-- A run from a well-formed state only grows it. -/
theorem run_grows {calls : List Call} {replies : List Reply} {later : MemFileSystem}
    (wf : WellFormed fs.tree fs.nextIno) (ran : machine.run fs calls = some (replies, later)) :
    Grows fs later := by
  induction calls generalizing fs replies with
  | nil =>
      simp only [Machine.run_nil, Option.some.injEq, Prod.mk.injEq] at ran
      obtain ⟨-, rfl⟩ := ran
      exact grows_refl fs
  | cons call calls inductionHypothesis =>
      obtain ⟨reply, middle, rest, stepped, tail, -⟩ := machine.run_cons_eq_some.mp ran
      exact (step_grows wf stepped).trans
        (inductionHypothesis (step_wellFormed wf stepped) tail)

/-- In every reachable state the inodes form a well-formed tree rooted at 1,
and along any run from it the inode counter never decreases and an inode
number below it that is free is never used again. -/
theorem reachable_wellFormed (reached : machine.Reachable fs) :
    WellFormed fs.tree fs.nextIno ∧
      ∀ calls replies later, machine.run fs calls = some (replies, later) →
        fs.nextIno ≤ later.nextIno ∧
          ∀ ino, ino < fs.nextIno → fs.inodes ino = none → later.inodes ino = none := by
  have wf := wellFormed_inductive.reachable reached
  refine ⟨wf, ?_⟩
  intro calls replies later ran
  exact run_grows wf ran

/-- After a directory and a file in it are made and the file is unlinked, the tree is well formed and
no later run reuses the freed inode number. -/
theorem reachable_wellFormed_after_unlink :
    ∃ replies fs, machine.run machine.init [.mkdir "/d".toList, .create "/d/f".toList .file, .unlink "/d/f".toList] =
        some (replies, fs) ∧ replies = [.status (.ok ()), .ino (some 3), .status (.ok ())] ∧
      (WellFormed fs.tree fs.nextIno ∧
        ∀ calls replies later, machine.run fs calls = some (replies, later) →
          fs.nextIno ≤ later.nextIno ∧ ∀ ino, ino < fs.nextIno → fs.inodes ino = none → later.inodes ino = none) :=
  ⟨_, _, rfl, rfl, reachable_wellFormed (Machine.Reachable.run machine .init
    (rfl : machine.run machine.init [.mkdir "/d".toList, .create "/d/f".toList .file, .unlink "/d/f".toList] =
      some (_, _)))⟩

end Fullerene.Genome.MemFileSystem
