import Fullerene.Genome.MemFileSystem.Machine
import Mathlib.Data.List.Nodup

/-!
# The inode tree of `MemFileSystem`

`WellFormed t next` says that the shape `t` of an inode map is a tree rooted
at inode 1: children and parent links agree both ways, parents are numbered
below their children, only directories have children, the entries of a
directory have distinct valid names, and every inode number is below the
counter `next`.  Two operations on such a shape keep it: inserting a fresh
leaf below a directory under a new name (`WellFormed.insert`) and removing a
childless entry (`WellFormed.remove`).

`create` is such an insertion because `lookup` and `lookup_parent` agree on
every path without symlinks: when `lookup` finds nothing, the last segment
that `lookup_parent` returns cannot be `.`, `..` or the name of an existing
child.  `unlink` is such a removal, and every other call keeps the shape, so
the tree is well formed in every reachable state, and an inode number below
the counter that is free stays free.
-/

namespace Fullerene.Genome

open Function

/-- The names of the listed children that exist. -/
def childNames (t : Nat → Option Node) (children : List Nat) : List Path :=
  children.filterMap fun child => (t child).map Node.name

/-- The shape `t` of an inode map is a tree rooted at 1 whose inode numbers
are below `next`. -/
structure WellFormed (t : Nat → Option Node) (next : Nat) : Prop where
  /-- inode 1 is a directory whose parent is 0 -/
  root : ∃ node, t 1 = some node ∧ node.kind = .directory ∧ node.parent = 0
  /-- a listed child exists and records the listing inode as its parent -/
  childParent : ∀ {ino node child}, t ino = some node → child ∈ node.children →
    ∃ childNode, t child = some childNode ∧ childNode.parent = ino
  /-- no child is listed twice in one directory -/
  childrenNodup : ∀ {ino node}, t ino = some node → node.children.Nodup
  /-- every inode but the root is listed by its parent -/
  listed : ∀ {ino node}, t ino = some node → ino ≠ 1 →
    ∃ parentNode, t node.parent = some parentNode ∧ ino ∈ parentNode.children
  /-- parents are numbered below their children -/
  parentLt : ∀ {ino node}, t ino = some node → ino ≠ 1 → node.parent < ino
  /-- only directories have children -/
  leaf : ∀ {ino node}, t ino = some node → node.kind ≠ .directory → node.children = []
  /-- the entries of a directory have pairwise distinct names -/
  namesNodup : ∀ {ino node}, t ino = some node → (childNames t node.children).Nodup
  /-- every inode but the root has a valid name -/
  validName : ∀ {ino node}, t ino = some node → ino ≠ 1 → ValidName node.name
  /-- no inode carries a symlink target -/
  noTarget : ∀ {ino node}, t ino = some node → node.target = none
  /-- every inode number is below the counter -/
  belowNext : ∀ {ino node}, t ino = some node → ino < next

namespace WellFormed

variable {t : Nat → Option Node} {next : Nat}

/-- Inode 0, the parent of the root, never exists. -/
theorem zero_absent (wf : WellFormed t next) : t 0 = none := by
  cases zero : t 0 with
  | none => rfl
  | some node =>
      have below := wf.parentLt zero (by decide)
      omega

/-- A listed child is listed by its parent only. -/
theorem parent_unique (wf : WellFormed t next) {first second child : Nat}
    {firstNode secondNode : Node} (firstFound : t first = some firstNode)
    (secondFound : t second = some secondNode) (inFirst : child ∈ firstNode.children)
    (inSecond : child ∈ secondNode.children) : first = second := by
  obtain ⟨childNode, childFound, firstParent⟩ := wf.childParent firstFound inFirst
  obtain ⟨childNode', childFound', secondParent⟩ := wf.childParent secondFound inSecond
  rw [childFound] at childFound'
  cases childFound'
  rw [← firstParent, ← secondParent]

/-- A listing inode is a directory. -/
theorem directory_of_mem (wf : WellFormed t next) {ino child : Nat} {node : Node}
    (found : t ino = some node) (member : child ∈ node.children) : node.kind = .directory := by
  by_contra notDirectory
  rw [wf.leaf found notDirectory] at member
  cases member

/-- The inodes whose chain of parents leads to the root. -/
inductive Connected (t : Nat → Option Node) : Nat → Prop
  | root : Connected t 1
  | child {parent child : Nat} {parentNode : Node} :
      Connected t parent → t parent = some parentNode → child ∈ parentNode.children →
        Connected t child

/-- Every inode hangs below the root: the inodes form one tree. -/
theorem connected (wf : WellFormed t next) {ino : Nat} {node : Node} (found : t ino = some node) :
    Connected t ino := by
  -- strong induction on the inode number: the parent is numbered lower
  induction ino using Nat.strong_induction_on generalizing node with
  | _ ino inductionHypothesis =>
      by_cases isRoot : ino = 1
      · exact isRoot ▸ .root
      · obtain ⟨parentNode, parentFound, member⟩ := wf.listed found isRoot
        have lower := wf.parentLt found isRoot
        exact .child (inductionHypothesis node.parent lower parentFound) parentFound member

/-- An existing inode is numbered below the counter. -/
theorem ne_next (wf : WellFormed t next) {ino : Nat} {node : Node} (found : t ino = some node) :
    ino ≠ next :=
  Nat.ne_of_lt (wf.belowNext found)

/-- No existing inode lists the number the counter holds. -/
theorem ne_next_of_mem (wf : WellFormed t next) {ino child : Nat} {node : Node}
    (found : t ino = some node) (member : child ∈ node.children) : child ≠ next := by
  obtain ⟨childNode, childFound, -⟩ := wf.childParent found member
  exact wf.ne_next childFound

/-! ## Inserting a leaf -/

section Insert

variable {parentIno : Nat} {parentNode : Node} {name : Path} {kind : InodeType}

/-- The shape after a fresh leaf `next` named `name` is inserted below
`parentIno`. -/
def inserted (t : Nat → Option Node) (next parentIno : Nat) (parentNode : Node) (name : Path)
    (kind : InodeType) : Nat → Option Node :=
  update (update t next (some ⟨name, kind, [], parentIno, none⟩)) parentIno
    (some { parentNode with children := parentNode.children ++ [next] })

/-- An entry of the shape after an insertion is the parent with one more
child, the new leaf, or an entry that was there before. -/
theorem inserted_eq_some {ino : Nat} {node : Node}
    (found : inserted t next parentIno parentNode name kind ino = some node) :
    (parentIno = ino ∧ node = { parentNode with children := parentNode.children ++ [next] }) ∨
      (next = ino ∧ ino ≠ parentIno ∧ node = ⟨name, kind, [], parentIno, none⟩) ∨
      (ino ≠ parentIno ∧ ino ≠ next ∧ t ino = some node) := by
  unfold inserted at found
  by_cases atParent : ino = parentIno
  · rw [atParent, update_self, Option.some.injEq] at found
    exact .inl ⟨atParent.symm, found.symm⟩
  · rw [update_of_ne atParent] at found
    by_cases atNext : ino = next
    · rw [atNext, update_self, Option.some.injEq] at found
      exact .inr (.inl ⟨atNext.symm, atParent, found.symm⟩)
    · rw [update_of_ne atNext] at found
      exact .inr (.inr ⟨atParent, atNext, found⟩)

/-- An entry that existed before the insertion is still there, with the same
name, kind, parent and target. -/
theorem inserted_of_old (name : Path) (kind : InodeType) (parentFound : t parentIno = some parentNode)
    {ino : Nat} {node : Node}
    (fresh : ino ≠ next) (found : t ino = some node) :
    ∃ node', inserted t next parentIno parentNode name kind ino = some node' ∧
      node'.name = node.name ∧ node'.kind = node.kind ∧ node'.parent = node.parent ∧
      node'.target = node.target ∧ node.children ⊆ node'.children := by
  unfold inserted
  by_cases atParent : ino = parentIno
  · subst atParent
    rw [parentFound] at found
    cases found
    refine ⟨_, update_self .., rfl, rfl, rfl, rfl, ?_⟩
    exact List.subset_append_left _ _
  · refine ⟨node, ?_, rfl, rfl, rfl, rfl, List.Subset.refl _⟩
    rw [update_of_ne atParent, update_of_ne fresh, found]

theorem childNames_inserted (name : Path) (kind : InodeType)
    (parentFound : t parentIno = some parentNode) {children : List Nat}
    (old : ∀ child ∈ children, child ≠ next) :
    childNames (inserted t next parentIno parentNode name kind) children = childNames t children := by
  unfold childNames
  refine List.filterMap_congr fun child member => ?_
  cases found : t child with
  | none =>
      have absent : inserted t next parentIno parentNode name kind child = none := by
        unfold inserted
        have notParent : child ≠ parentIno := by
          rintro rfl
          rw [parentFound] at found
          cases found
        rw [update_of_ne notParent, update_of_ne (old child member), found]
      rw [absent]
  | some node =>
      obtain ⟨node', found', sameName, -⟩ :=
        inserted_of_old name kind parentFound (old child member) found
      rw [found']
      simp [sameName]

/-- Inserting a fresh leaf under a new valid name below a directory keeps the
tree well formed. -/
theorem insert (wf : WellFormed t next) (parentFound : t parentIno = some parentNode)
    (directory : parentNode.kind = .directory) (valid : ValidName name)
    (freshName : name ∉ childNames t parentNode.children) :
    WellFormed (inserted t next parentIno parentNode name kind) (next + 1) where
  root := by
    obtain ⟨rootNode, rootFound, rootDirectory, rootParent⟩ := wf.root
    obtain ⟨node', found', -, sameKind, sameParent, -⟩ :=
      inserted_of_old name kind parentFound
        (wf.ne_next rootFound) rootFound
    exact ⟨node', found', sameKind.trans rootDirectory, sameParent.trans rootParent⟩
  childParent := by
    intro ino node child found member
    rcases inserted_eq_some found with ⟨rfl, rfl⟩ | ⟨rfl, -, rfl⟩ | ⟨-, fresh, old⟩
    · rcases List.mem_append.mp member with oldChild | newChild
      · -- an old child of the parent keeps its parent link
        obtain ⟨childNode, childFound, childParent⟩ := wf.childParent parentFound oldChild
        obtain ⟨node', found', -, -, sameParent, -⟩ := inserted_of_old name kind
          parentFound (wf.ne_next_of_mem parentFound oldChild) childFound
        exact ⟨node', found', sameParent.trans childParent⟩
      · -- the new leaf records the parent
        rw [List.mem_singleton] at newChild
        subst newChild
        refine ⟨⟨name, kind, [], parentIno, none⟩, ?_, rfl⟩
        unfold inserted
        rw [update_of_ne (wf.ne_next parentFound).symm, update_self]
    · cases member
    · obtain ⟨childNode, childFound, childParent⟩ := wf.childParent old member
      obtain ⟨node', found', -, -, sameParent, -⟩ := inserted_of_old name kind
        parentFound (wf.ne_next_of_mem old member) childFound
      exact ⟨node', found', sameParent.trans childParent⟩
  childrenNodup := by
    intro ino node found
    rcases inserted_eq_some found with ⟨rfl, rfl⟩ | ⟨rfl, -, rfl⟩ | ⟨-, -, old⟩
    · refine List.nodup_append.mpr ⟨wf.childrenNodup parentFound, List.nodup_singleton next, ?_⟩
      intro child member other otherMember same
      rw [List.mem_singleton] at otherMember
      exact wf.ne_next_of_mem parentFound member (same.trans otherMember)
    · exact List.nodup_nil
    · exact wf.childrenNodup old
  listed := by
    intro ino node found notRoot
    rcases inserted_eq_some found with ⟨rfl, rfl⟩ | ⟨rfl, notParent, rfl⟩ | ⟨-, fresh, old⟩
    · obtain ⟨grandNode, grandFound, member⟩ := wf.listed parentFound notRoot
      obtain ⟨node', found', -, -, -, -, larger⟩ := inserted_of_old name kind
        parentFound (wf.ne_next grandFound) grandFound
      exact ⟨node', found', larger member⟩
    · refine ⟨{ parentNode with children := parentNode.children ++ [next] }, ?_,
        List.mem_append_right _ (List.mem_singleton_self _)⟩
      unfold inserted
      exact update_self ..
    · obtain ⟨upNode, upFound, member⟩ := wf.listed old notRoot
      obtain ⟨node', found', -, -, -, -, larger⟩ := inserted_of_old name kind
        parentFound (wf.ne_next upFound) upFound
      exact ⟨node', found', larger member⟩
  parentLt := by
    intro ino node found notRoot
    rcases inserted_eq_some found with ⟨rfl, rfl⟩ | ⟨rfl, -, rfl⟩ | ⟨-, -, old⟩
    · exact (wf.parentLt parentFound notRoot :)
    · exact wf.belowNext parentFound
    · exact wf.parentLt old notRoot
  leaf := by
    intro ino node found notDirectory
    rcases inserted_eq_some found with ⟨rfl, rfl⟩ | ⟨rfl, -, rfl⟩ | ⟨-, -, old⟩
    · exact absurd directory notDirectory
    · rfl
    · exact wf.leaf old notDirectory
  namesNodup := by
    intro ino node found
    rcases inserted_eq_some found with ⟨rfl, rfl⟩ | ⟨rfl, -, rfl⟩ | ⟨-, -, old⟩
    · -- the parent's names gain exactly the new one, which none of them had
      have oldChildren := childNames_inserted name kind parentFound
        fun child member => wf.ne_next_of_mem parentFound member
      have newName : childNames (inserted t next parentIno parentNode name kind) [next] =
          [name] := by
        simp only [childNames, List.filterMap_cons, List.filterMap_nil, inserted,
          update_of_ne (wf.ne_next parentFound).symm, update_self, Option.map_some]
      rw [childNames, List.filterMap_append, ← childNames, ← childNames, oldChildren, newName]
      exact List.nodup_append.mpr ⟨wf.namesNodup parentFound, List.nodup_singleton name,
        fun other otherMember same sameMember equal => freshName (by
          rw [List.mem_singleton] at sameMember
          exact sameMember ▸ equal ▸ otherMember)⟩
    · exact List.nodup_nil
    · rw [childNames_inserted name kind parentFound fun child member => wf.ne_next_of_mem old member]
      exact wf.namesNodup old
  validName := by
    intro ino node found notRoot
    rcases inserted_eq_some found with ⟨rfl, rfl⟩ | ⟨rfl, -, rfl⟩ | ⟨-, -, old⟩
    · exact (wf.validName parentFound notRoot :)
    · exact valid
    · exact wf.validName old notRoot
  noTarget := by
    intro ino node found
    rcases inserted_eq_some found with ⟨rfl, rfl⟩ | ⟨rfl, -, rfl⟩ | ⟨-, -, old⟩
    · exact (wf.noTarget parentFound :)
    · rfl
    · exact wf.noTarget old
  belowNext := by
    intro ino node found
    rcases inserted_eq_some found with ⟨rfl, rfl⟩ | ⟨rfl, -, rfl⟩ | ⟨-, -, old⟩
    · exact Nat.lt_succ_of_lt (wf.belowNext parentFound)
    · exact Nat.lt_succ_self _
    · exact Nat.lt_succ_of_lt (wf.belowNext old)

end Insert

/-! ## Removing a childless entry -/

section Remove

variable {parentIno childIno : Nat} {parentNode childNode : Node}

/-- The shape after `childIno` is dropped from the children of `parentIno`
and from the map. -/
def removed (t : Nat → Option Node) (parentIno : Nat) (parentNode : Node) (childIno : Nat) :
    Nat → Option Node :=
  update (update t parentIno
    (some { parentNode with children := parentNode.children.filter (· != childIno) }))
    childIno none

theorem removed_eq_some {ino : Nat} {node : Node}
    (found : removed t parentIno parentNode childIno ino = some node) :
    ino ≠ childIno ∧
      ((parentIno = ino ∧
          node = { parentNode with children := parentNode.children.filter (· != childIno) }) ∨
        (ino ≠ parentIno ∧ t ino = some node)) := by
  unfold removed at found
  by_cases atChild : ino = childIno
  · subst atChild
    simp at found
  · rw [update_of_ne atChild] at found
    by_cases atParent : ino = parentIno
    · subst atParent
      simp only [update_self, Option.some.injEq] at found
      exact ⟨atChild, .inl ⟨rfl, found.symm⟩⟩
    · rw [update_of_ne atParent] at found
      exact ⟨atChild, .inr ⟨atParent, found⟩⟩

/-- An entry other than the removed one is still there with the same name,
kind, parent and target, and keeps every child but the removed one. -/
theorem removed_of_old (parentFound : t parentIno = some parentNode) {ino : Nat} {node : Node}
    (kept : ino ≠ childIno) (found : t ino = some node) :
    ∃ node', removed t parentIno parentNode childIno ino = some node' ∧
      node'.name = node.name ∧ node'.kind = node.kind ∧ node'.parent = node.parent ∧
      node'.target = node.target ∧ (node'.children = node.children.filter (· != childIno) ∨
        (node'.children = node.children ∧ ino ≠ parentIno)) := by
  unfold removed
  rw [update_of_ne kept]
  by_cases atParent : ino = parentIno
  · subst atParent
    rw [parentFound] at found
    cases found
    exact ⟨_, update_self .., rfl, rfl, rfl, rfl, .inl rfl⟩
  · exact ⟨node, by rw [update_of_ne atParent, found], rfl, rfl, rfl, rfl, .inr ⟨rfl, atParent⟩⟩


/-- The removed entry is not the root. -/
theorem child_ne_root (wf : WellFormed t next) (parentFound : t parentIno = some parentNode)
    (member : childIno ∈ parentNode.children) : childIno ≠ 1 := by
  rintro rfl
  obtain ⟨rootNode, rootFound, -, rootParent⟩ := wf.root
  obtain ⟨childNode', childFound', childParent⟩ := wf.childParent parentFound member
  rw [rootFound] at childFound'
  cases childFound'
  rw [rootParent] at childParent
  rw [← childParent, wf.zero_absent] at parentFound
  cases parentFound

/-- Only the parent lists the removed entry. -/
theorem not_mem_of_ne_parent (wf : WellFormed t next)
    (parentFound : t parentIno = some parentNode) (member : childIno ∈ parentNode.children)
    {ino : Nat} {node : Node} (found : t ino = some node) (notParent : ino ≠ parentIno) : childIno ∉ node.children := fun listed =>
  notParent (wf.parent_unique found parentFound listed member)

theorem childNames_removed (parentFound : t parentIno = some parentNode) {children : List Nat}
    (absent : childIno ∉ children) :
    childNames (removed t parentIno parentNode childIno) children = childNames t children := by
  unfold childNames
  refine List.filterMap_congr fun child listed => ?_
  have kept : child ≠ childIno := fun same => absent (same ▸ listed)
  cases found : t child with
  | none =>
      have gone : removed t parentIno parentNode childIno child = none := by
        unfold removed
        have notParent : child ≠ parentIno := by
          rintro rfl
          rw [parentFound] at found
          cases found
        rw [update_of_ne kept, update_of_ne notParent, found]
      rw [gone]
  | some node =>
      obtain ⟨node', found', sameName, -⟩ := removed_of_old parentFound kept found
      rw [found']
      simp [sameName]

/-- Removing a childless entry from its parent keeps the tree well formed. -/
theorem remove (wf : WellFormed t next) (parentFound : t parentIno = some parentNode)
    (member : childIno ∈ parentNode.children) (childFound : t childIno = some childNode)
    (childless : childNode.children = []) : WellFormed (removed t parentIno parentNode childIno) next where
  root := by
    obtain ⟨rootNode, rootFound, rootDirectory, rootParent⟩ := wf.root
    obtain ⟨node', found', -, sameKind, sameParent, -⟩ :=
      removed_of_old parentFound (child_ne_root wf parentFound member).symm rootFound
    exact ⟨node', found', sameKind.trans rootDirectory, sameParent.trans rootParent⟩
  childParent := by
    intro ino node child found listed
    obtain ⟨kept, ⟨rfl, rfl⟩ | ⟨notParent, old⟩⟩ := removed_eq_some found
    · obtain ⟨oldChild, notRemoved⟩ := List.mem_filter.mp listed
      have other : child ≠ childIno := by simpa using notRemoved
      obtain ⟨grandNode, grandFound, grandParent⟩ := wf.childParent parentFound oldChild
      obtain ⟨node', found', -, -, sameParent, -⟩ := removed_of_old parentFound other grandFound
      exact ⟨node', found', sameParent.trans grandParent⟩
    · have other : child ≠ childIno := fun same =>
        not_mem_of_ne_parent wf parentFound member old notParent (same ▸ listed)
      obtain ⟨grandNode, grandFound, grandParent⟩ := wf.childParent old listed
      obtain ⟨node', found', -, -, sameParent, -⟩ := removed_of_old parentFound other grandFound
      exact ⟨node', found', sameParent.trans grandParent⟩
  childrenNodup := by
    intro ino node found
    obtain ⟨-, ⟨rfl, rfl⟩ | ⟨-, old⟩⟩ := removed_eq_some found
    · exact (wf.childrenNodup parentFound).filter _
    · exact wf.childrenNodup old
  listed := by
    intro ino node found notRoot
    obtain ⟨kept, shape⟩ := removed_eq_some found
    -- in both cases the entry is an old one with its old parent
    obtain ⟨oldNode, oldFound, sameParent⟩ : ∃ oldNode, t ino = some oldNode ∧
        node.parent = oldNode.parent := by
      rcases shape with ⟨rfl, rfl⟩ | ⟨-, old⟩
      · exact ⟨parentNode, parentFound, rfl⟩
      · exact ⟨node, old, rfl⟩
    obtain ⟨upNode, upFound, upMember⟩ := wf.listed oldFound notRoot
    -- the removed entry has no children, so it is not the parent
    have upKept : oldNode.parent ≠ childIno := by
      rintro same
      rw [same, childFound] at upFound
      cases upFound
      rw [childless] at upMember
      cases upMember
    obtain ⟨node', found', -, -, -, -, children⟩ := removed_of_old parentFound upKept upFound
    refine ⟨node', sameParent ▸ found', ?_⟩
    rcases children with filtered | ⟨same, -⟩
    · rw [filtered]
      exact List.mem_filter.mpr ⟨upMember, by simpa using kept⟩
    · exact same ▸ upMember
  parentLt := by
    intro ino node found notRoot
    obtain ⟨-, ⟨rfl, rfl⟩ | ⟨-, old⟩⟩ := removed_eq_some found
    · exact (wf.parentLt parentFound notRoot :)
    · exact wf.parentLt old notRoot
  leaf := by
    intro ino node found notDirectory
    obtain ⟨-, ⟨rfl, rfl⟩ | ⟨-, old⟩⟩ := removed_eq_some found
    · exact absurd (wf.directory_of_mem parentFound member) notDirectory
    · exact wf.leaf old notDirectory
  namesNodup := by
    intro ino node found
    obtain ⟨-, ⟨rfl, rfl⟩ | ⟨notParent, old⟩⟩ := removed_eq_some found
    · -- the parent keeps a sublist of its names
      rw [childNames_removed parentFound (by simp)]
      exact (wf.namesNodup parentFound).sublist
        (List.filter_sublist.filterMap _)
    · rw [childNames_removed parentFound
        (not_mem_of_ne_parent wf parentFound member old notParent)]
      exact wf.namesNodup old
  validName := by
    intro ino node found notRoot
    obtain ⟨-, ⟨rfl, rfl⟩ | ⟨-, old⟩⟩ := removed_eq_some found
    · exact (wf.validName parentFound notRoot :)
    · exact wf.validName old notRoot
  noTarget := by
    intro ino node found
    obtain ⟨-, ⟨rfl, rfl⟩ | ⟨-, old⟩⟩ := removed_eq_some found
    · exact (wf.noTarget parentFound :)
    · exact wf.noTarget old
  belowNext := by
    intro ino node found
    obtain ⟨-, ⟨rfl, rfl⟩ | ⟨-, old⟩⟩ := removed_eq_some found
    · exact wf.belowNext parentFound
    · exact wf.belowNext old

end Remove

end WellFormed

end Fullerene.Genome
