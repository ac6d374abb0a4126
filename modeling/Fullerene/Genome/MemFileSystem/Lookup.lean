import Fullerene.Genome.MemFileSystem

/-!
# Path resolution in `MemFileSystem`

No call of `MemFileSystem` ever sets the `target` of an inode, so in every
reachable state the symlink branch of `lookup_from` is dead.  Under that
condition `lookup` is a plain walk `resolve` over the nonempty segments of the
path from the root, and `lookup_parent` resolves all segments but the last.
The lemmas here compare the two resolutions on the same path: this is where
`create` is shown unable to add a second child of one name, or a child named
`.` or `..`.
-/

namespace Fullerene.Genome.MemFileSystem

open Function

variable (fs : MemFileSystem)

/-- No inode carries a symlink target. -/
def NoTargets : Prop :=
  ∀ ino inode, fs.inodes ino = some inode → inode.target = none

/-- The component walk without symlinks: every step must land on an
existing inode. -/
def resolve : Nat → List Path → Option Nat
  | current, [] => some current
  | current, comp :: rest =>
      match fs.stepComponent current comp with
      | none => none
      | some next =>
          match fs.inodes next with
          | none => none
          | some _ => resolve next rest

@[simp]
theorem resolve_nil (current : Nat) : fs.resolve current [] = some current := rfl

theorem resolve_append (current : Nat) (first second : List Path) :
    fs.resolve current (first ++ second) =
      (fs.resolve current first).bind fun middle => fs.resolve middle second := by
  induction first generalizing current with
  | nil => rfl
  | cons comp rest inductionHypothesis =>
      cases stepped : fs.stepComponent current comp with
      | none => simp [resolve, stepped]
      | some next =>
          cases present : fs.inodes next with
          | none => simp [resolve, stepped, present]
          | some _ =>
              simp only [List.cons_append, resolve, stepped, present]
              exact inductionHypothesis next

theorem resolve_single (current : Nat) (comp : Path) :
    fs.resolve current [comp] =
      (fs.stepComponent current comp).bind fun next => (fs.inodes next).map fun _ => next := by
  cases stepped : fs.stepComponent current comp with
  | none => simp [resolve, stepped]
  | some next => cases present : fs.inodes next <;> simp [resolve, stepped, present]

/-- A resolution over at least one segment ends on an existing inode. -/
theorem exists_of_resolve {current result : Nat} {comps : List Path}
    (resolved : fs.resolve current comps = some result) :
    result = current ∨ ∃ inode, fs.inodes result = some inode := by
  induction comps generalizing current with
  | nil =>
      simp only [resolve_nil, Option.some.injEq] at resolved
      exact .inl resolved.symm
  | cons comp rest inductionHypothesis =>
      cases stepped : fs.stepComponent current comp with
      | none => simp [resolve, stepped] at resolved
      | some next =>
          cases present : fs.inodes next with
          | none => simp [resolve, stepped, present] at resolved
          | some inode =>
              simp only [resolve, stepped, present] at resolved
              rcases inductionHypothesis resolved with same | found
              · exact .inr ⟨inode, same ▸ present⟩
              · exact .inr found

theorem lookupChild_eq_some {parentIno child : Nat} {name : Path}
    (found : fs.lookupChild parentIno name = some child) :
    ∃ parent, fs.inodes parentIno = some parent ∧ child ∈ parent.children ∧
      ∃ inode, fs.inodes child = some inode ∧ inode.name = name := by
  unfold lookupChild at found
  cases present : fs.inodes parentIno with
  | none => simp [present] at found
  | some parent =>
      simp only [present, Option.bind_eq_bind, Option.bind_some] at found
      have named := List.find?_some found
      have member := List.mem_of_find?_eq_some found
      obtain ⟨inode, childPresent, sameName⟩ : ∃ inode, fs.inodes child = some inode ∧
          (inode.name == name) = true := by
        simpa [Option.any_eq_true] using named
      exact ⟨parent, rfl, member, inode, childPresent, by simpa using sameName⟩

theorem lookupChild_eq_none {parentIno : Nat} {name : Path} {parent : Inode}
    (present : fs.inodes parentIno = some parent)
    (missing : fs.lookupChild parentIno name = none) :
    ∀ child ∈ parent.children, ∀ inode, fs.inodes child = some inode → inode.name ≠ name := by
  intro child member inode childPresent sameName
  unfold lookupChild at missing
  simp only [present, Option.bind_eq_bind, Option.bind_some, List.find?_eq_none] at missing
  have := missing child member
  simp [childPresent, sameName] at this

section NoTargets

variable {fs}

theorem walk_of_noTargets (noTargets : fs.NoTargets) (current : Nat) (comps : List Path) :
    fs.walk current comps = (fs.resolve current comps).map .done := by
  induction comps generalizing current with
  | nil => rfl
  | cons comp rest inductionHypothesis =>
      cases stepped : fs.stepComponent current comp with
      | none => simp [walk, resolve, stepped]
      | some next =>
          cases present : fs.inodes next with
          | none => simp [walk, resolve, stepped, present]
          | some inode =>
              simp only [walk, resolve, stepped, present, noTargets next inode present]
              exact inductionHypothesis next

/-- Without symlinks, `lookup` walks the nonempty segments of the path from
the root. -/
theorem lookup_eq_resolve (noTargets : fs.NoTargets) (path : Path) :
    fs.lookup path = fs.resolve 1 (path.segments '/') := by
  show fs.lookupFromAux (maxSymlinkDepth + 1) path 1 0 = _
  rw [lookupFromAux]
  by_cases empty : path = []
  · subst empty
    rfl
  · have notEmpty : path.isEmpty = false := by simpa using empty
    have shallow : decide (maxSymlinkDepth < 0) = false := by decide
    rw [notEmpty, shallow, Bool.or_false, if_neg (by simp)]
    -- both branches of the leading-slash test start at the root and keep the segments
    have start : ∀ (effectiveStart : Nat) (trimmed : Path),
        (if path.head? = some '/' then (1, path.dropWhile (· == '/')) else (1, path)) =
          (effectiveStart, trimmed) → effectiveStart = 1 ∧
            trimmed.segments '/' = path.segments '/' := by
      intro effectiveStart trimmed split
      by_cases slash : path.head? = some '/'
      · rw [if_pos slash, Prod.mk.injEq] at split
        exact ⟨split.1.symm, split.2 ▸ List.segments_dropWhile '/' path⟩
      · rw [if_neg slash, Prod.mk.injEq] at split
        exact ⟨split.1.symm, split.2 ▸ rfl⟩
    split
    rename_i effectiveStart trimmed split
    obtain ⟨rfl, segments⟩ := start effectiveStart trimmed split
    rw [← segments]
    dsimp only
    split
    · rename_i noSegments
      simp only [List.isEmpty_iff] at noSegments
      simp [noSegments]
    · rw [walk_of_noTargets noTargets]
      cases fs.resolve 1 (trimmed.segments '/') <;> rfl

/-- `lookup` never ends on a missing inode other than the root. -/
theorem lookup_exists (noTargets : fs.NoTargets) {path : Path} {ino : Nat}
    (found : fs.lookup path = some ino) : ino = 1 ∨ ∃ inode, fs.inodes ino = some inode := by
  rw [lookup_eq_resolve noTargets] at found
  exact fs.exists_of_resolve found

end NoTargets

/-! ## `lookup_parent` against `lookup` -/

theorem segments_rdropWhile_slash (path : Path) :
    (path.rdropWhile (· == '/')).segments '/' = path.segments '/' :=
  List.segments_rdropWhile '/' path

/-- A list that does not end in `/` has a nonempty last piece after any `/`. -/
theorem name_ne_nil_of_last {trimmed front name : Path}
    (last : ∀ nonempty : trimmed ≠ [], trimmed.getLast nonempty ≠ '/')
    (split : trimmed = front ++ '/' :: name) : name ≠ [] := by
  rintro rfl
  apply last (by simp [split])
  simp [split]

variable {fs}

/-- What `lookup_parent` returns: a nonempty name without `/` that is the last
segment of the path, with the resolution of the segments before it. -/
theorem lookupParent_spec (noTargets : fs.NoTargets) {path : Path} {parent : Nat} {name : Path}
    (found : fs.lookupParent path = some (parent, name)) :
    name ≠ [] ∧ '/' ∉ name ∧ ∃ front, path.segments '/' = front ++ [name] ∧
      fs.resolve 1 front = some parent := by
  rw [← segments_rdropWhile_slash]
  have last : ∀ nonempty : path.rdropWhile (· == '/') ≠ [],
      (path.rdropWhile (· == '/')).getLast nonempty ≠ '/' := by
    intro nonempty isSlash
    exact List.rdropWhile_last_not _ _ nonempty (by simpa using isSlash)
  unfold lookupParent at found
  generalize path.rdropWhile (· == '/') = trimmed at found last
  have nonempty : trimmed ≠ [] := by
    intro empty
    simp [empty] at found
  dsimp only at found
  split at found
  · cases found
  · split at found
    · rename_i index lastSlash
      obtain ⟨split, absent⟩ := List.lastIdxOf?_eq_some lastSlash
      obtain ⟨parent', resolved, same⟩ := Option.map_eq_some_iff.mp found
      simp only [Prod.mk.injEq] at same
      obtain ⟨rfl, rfl⟩ := same
      generalize frontEq : trimmed.take index = front at split resolved
      generalize trimmed.drop (index + 1) = name at split absent ⊢
      have named := name_ne_nil_of_last last split
      refine ⟨named, absent, front.segments '/', ?_, ?_⟩
      · rw [split, List.segments_append_cons_self, List.segments_of_not_mem absent named]
      · rw [lookup_eq_resolve noTargets] at resolved
        split at resolved
        · rename_i atStart
          subst atStart
          simp only [List.take_zero] at frontEq
          subst frontEq
          simpa using resolved
        · exact resolved
    · rename_i noSlash
      simp only [Option.some.injEq, Prod.mk.injEq] at found
      obtain ⟨rfl, rfl⟩ := found
      have absent := List.lastIdxOf?_eq_none_iff.mp noSlash
      exact ⟨nonempty, absent, [], by simp [List.segments_of_not_mem absent nonempty], rfl⟩

/-- `lookup` of a path is the step from what `lookup_parent` resolves to the
last name. -/
theorem lookup_eq_of_lookupParent (noTargets : fs.NoTargets) {path : Path} {parent : Nat}
    {name : Path} (found : fs.lookupParent path = some (parent, name)) :
    fs.lookup path = fs.resolve parent [name] := by
  obtain ⟨-, -, front, segments, resolved⟩ := lookupParent_spec noTargets found
  rw [lookup_eq_resolve noTargets, segments, resolve_append, resolved, Option.bind_some]

end Fullerene.Genome.MemFileSystem
