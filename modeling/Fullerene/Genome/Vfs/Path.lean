import Fullerene.Genome.Fs
import Fullerene.Lib.Split

/-!
# Path utilities of the `Vfs` dispatcher

`normalize_path` splits a path at every `/`, skips empty and `.` components,
lets `..` drop the last kept component, and joins what is kept behind a
leading `/`.  What it keeps are valid names, and a path it returns splits back
into the same components, so it is idempotent: a normalized path is a fixed
point.

`relative_to_mount` cuts a mount point off a path at a component boundary.
A match means the mount point is a prefix of the path, so of two matching
mount points of the same byte length (`String::len`) each is the other.
-/

namespace Fullerene.Genome

/-- One component of the loop of `normalize_path`: empty components and `.`
are skipped, `..` drops the last kept component, any other is kept. -/
def pushComponent (components : List Path) (comp : Path) : List Path :=
  if comp = [] ∨ comp = ['.'] then components
  else if comp = ['.', '.'] then components.dropLast
  else components ++ [comp]

/-- The components that `normalize_path` keeps. -/
def normalComponents (path : Path) : List Path :=
  (path.splitOn '/').foldl pushComponent []

/-- `normalize_path`. -/
def normalizePath (path : Path) : Path :=
  let components := normalComponents path
  if components.isEmpty then ['/'] else '/' :: ['/'].intercalate components

/-- `relative_to_mount`: the rest of an absolute path below a mount point that
ends at a component boundary. -/
def relativeToMount (path mountPoint : Path) : Option Path :=
  if path.head? ≠ some '/' then none
  else if mountPoint = ['/'] then ['/'].isPrefixOf? path
  else if path = mountPoint then some []
  else (mountPoint.isPrefixOf? path).bind fun rest => ['/'].isPrefixOf? rest

/-- `String::len`: the length of a path in UTF-8 bytes. -/
def byteLength (path : Path) : Nat :=
  (path.map Char.utf8Size).sum

/-! ## `normalize_path` -/

theorem normalizePath_eq (path : Path) :
    normalizePath path = '/' :: ['/'].intercalate (normalComponents path) := by
  unfold normalizePath
  dsimp only
  split_ifs with empty
  · rw [List.isEmpty_iff.mp empty]
    rfl
  · rfl

/-- The loop keeps valid names only. -/
theorem foldl_pushComponent_valid {pieces components : List Path}
    (kept : ∀ comp ∈ components, ValidName comp) (free : ∀ piece ∈ pieces, '/' ∉ piece) :
    ∀ comp ∈ pieces.foldl pushComponent components, ValidName comp := by
  induction pieces generalizing components with
  | nil => exact kept
  | cons piece rest inductionHypothesis =>
      apply inductionHypothesis _ fun later member => free later (List.mem_cons_of_mem _ member)
      intro comp member
      unfold pushComponent at member
      split_ifs at member with skipped parent
      · exact kept comp member
      · exact kept comp (List.dropLast_subset _ member)
      · rcases List.mem_append.mp member with old | new
        · exact kept comp old
        · rw [List.mem_singleton] at new
          subst new
          simp only [not_or] at skipped
          exact ⟨skipped.1, free comp List.mem_cons_self, skipped.2, parent⟩

theorem valid_of_mem_normalComponents {path comp : Path}
    (member : comp ∈ normalComponents path) : ValidName comp :=
  foldl_pushComponent_valid (by simp) (fun _ piece => List.not_mem_of_mem_splitOn piece) comp
    member

/-- Valid names are kept as they are. -/
theorem foldl_pushComponent_of_valid {comps : List Path} (valid : ∀ comp ∈ comps, ValidName comp)
    (components : List Path) : comps.foldl pushComponent components = components ++ comps := by
  induction comps generalizing components with
  | nil => simp
  | cons comp rest inductionHypothesis =>
      obtain ⟨nonempty, -, notDot, notDotDot⟩ := valid comp List.mem_cons_self
      have kept : pushComponent components comp = components ++ [comp] := by
        simp [pushComponent, nonempty, notDot, notDotDot]
      rw [List.foldl_cons, kept,
        inductionHypothesis (fun later member => valid later (List.mem_cons_of_mem _ member))]
      simp

/-- A normalized path splits back into its components. -/
theorem normalComponents_normalizePath (path : Path) :
    normalComponents (normalizePath path) = normalComponents path := by
  have valid := fun comp => @valid_of_mem_normalComponents path comp
  rw [normalizePath_eq]
  show (('/' :: ['/'].intercalate (normalComponents path)).splitOn '/').foldl pushComponent [] = _
  rw [List.splitOn_cons_eq_if_modifyHead, if_pos (by simp)]
  by_cases empty : normalComponents path = []
  · rw [empty]
    rfl
  · rw [List.splitOn_intercalate _ (fun comp member => (valid comp member).2.1) empty,
      List.foldl_cons, foldl_pushComponent_of_valid valid]
    simp [pushComponent]

/-- `normalize_path` is idempotent. -/
theorem normalizePath_normalizePath (path : Path) :
    normalizePath (normalizePath path) = normalizePath path := by
  rw [normalizePath_eq (normalizePath path), normalComponents_normalizePath, ← normalizePath_eq]

theorem head_normalizePath (path : Path) : (normalizePath path).head? = some '/' := by
  rw [normalizePath_eq]
  rfl

/-- A normalized path other than `/` does not end in `/`. -/
theorem getLast_normalizePath {path : Path} (notRoot : normalizePath path ≠ ['/']) :
    (normalizePath path).getLast? ≠ some '/' := by
  rw [normalizePath_eq] at notRoot ⊢
  -- the path ends as its last component, which is nonempty and free of `/`
  obtain ⟨front, last, split⟩ : ∃ front last, normalComponents path = front ++ [last] := by
    cases components : normalComponents path using List.reverseRecOn with
    | nil =>
        rw [components] at notRoot
        exact absurd rfl notRoot
    | append_singleton front last _ => exact ⟨front, last, rfl⟩
  obtain ⟨nonempty, free, -⟩ := valid_of_mem_normalComponents
    (show last ∈ normalComponents path by simp [split])
  have joined : (['/'].intercalate (front ++ [last])).getLast? = last.getLast? :=
    List.getLast?_intercalate_append front nonempty
  rw [split, ← List.singleton_append, List.getLast?_append_of_ne_nil _ (by
    intro empty
    rw [empty, List.getLast?_nil, eq_comm, List.getLast?_eq_none_iff] at joined
    exact nonempty joined), joined, List.getLast?_eq_some_getLast nonempty]
  intro isSlash
  rw [Option.some.injEq] at isSlash
  exact free (isSlash ▸ List.getLast_mem nonempty)

/-- Two paths with the same components normalize alike. -/
theorem normalizePath_eq_of_normalComponents_eq {first second : Path}
    (same : normalComponents first = normalComponents second) :
    normalizePath first = normalizePath second := by
  rw [normalizePath_eq, normalizePath_eq second, same]

/-- The loop runs over the pieces before a `/` and then over those after it. -/
theorem normalComponents_append_slash (first second : Path) :
    normalComponents (first ++ '/' :: second) =
      (second.splitOn '/').foldl pushComponent (normalComponents first) := by
  simp only [normalComponents, List.splitOn_append_cons_self, List.foldl_append]

/-- `normalize_path` reads a path component by component, so the part before
any `/` can be normalized first. -/
theorem normalizePath_append_slash (first second : Path) :
    normalizePath (first ++ '/' :: second) = normalizePath (normalizePath first ++ '/' :: second) := by
  apply normalizePath_eq_of_normalComponents_eq
  rw [normalComponents_append_slash, normalComponents_append_slash, normalComponents_normalizePath]

/-- A normalized path is `/` followed by valid names joined by `/`: no empty,
`.` or `..` component, and no `/` at the end unless it is `/` itself. -/
theorem normalizePath_canonical (path : Path) :
    ∃ comps, (∀ comp ∈ comps, ValidName comp) ∧ normalizePath path = '/' :: ['/'].intercalate comps :=
  ⟨normalComponents path, fun _ member => valid_of_mem_normalComponents member, normalizePath_eq path⟩

/-! ## `relative_to_mount` -/

/-- A mount point matches a path when the path is the mount point, or the
mount point followed by `/` and the rest; the root mount point matches every
absolute path. -/
theorem relativeToMount_eq_some_iff {path mountPoint rest : Path} :
    relativeToMount path mountPoint = some rest ↔
      path.head? = some '/' ∧
        if mountPoint = ['/'] then path = '/' :: rest
        else (path = mountPoint ∧ rest = []) ∨ path = mountPoint ++ '/' :: rest := by
  unfold relativeToMount
  by_cases absolute : path.head? = some '/'
  · rw [if_neg (not_not.mpr absolute)]
    by_cases root : mountPoint = ['/']
    · simp only [root, if_true, List.isPrefixOf?_eq_some_iff, List.singleton_append, absolute,
        true_and]
    · rw [if_neg root, if_neg root]
      by_cases whole : path = mountPoint
      · subst whole
        simp [absolute]
      · simp only [whole, if_false, Option.bind_eq_some_iff, List.isPrefixOf?_eq_some_iff,
          List.singleton_append, absolute, true_and, false_and, false_or]
        constructor
        · rintro ⟨middle, rfl, rfl⟩
          rfl
        · intro split
          exact ⟨'/' :: rest, split, rfl⟩
  · simp [absolute]

/-- A matching mount point is a prefix of the path. -/
theorem prefix_of_relativeToMount {path mountPoint rest : Path}
    (matched : relativeToMount path mountPoint = some rest) : mountPoint <+: path := by
  obtain ⟨-, shape⟩ := relativeToMount_eq_some_iff.mp matched
  split_ifs at shape with root
  · rw [root, shape]
    exact List.prefix_append ['/'] rest
  · rcases shape with ⟨rfl, -⟩ | rfl
    · exact List.prefix_refl _
    · exact List.prefix_append _ _

theorem byteLength_append (first second : Path) :
    byteLength (first ++ second) = byteLength first + byteLength second := by
  simp [byteLength]

theorem byteLength_eq_zero {path : Path} (empty : byteLength path = 0) : path = [] := by
  cases path with
  | nil => rfl
  | cons head tail =>
      have positive := Char.utf8Size_pos head
      simp [byteLength] at empty
      omega

/-- Two prefixes of one path with the same byte length are equal. -/
theorem eq_of_prefix_of_byteLength_eq {first second path : Path} (firstPrefix : first <+: path)
    (secondPrefix : second <+: path) (sameLength : byteLength first = byteLength second) :
    first = second := by
  rcases Nat.le_total first.length second.length with shorter | longer
  · obtain ⟨extra, rfl⟩ := List.prefix_of_prefix_length_le firstPrefix secondPrefix shorter
    rw [byteLength_append] at sameLength
    have empty : extra = [] := byteLength_eq_zero (by omega)
    rw [empty, List.append_nil]
  · obtain ⟨extra, rfl⟩ := List.prefix_of_prefix_length_le secondPrefix firstPrefix longer
    rw [byteLength_append] at sameLength
    have empty : extra = [] := byteLength_eq_zero (by omega)
    rw [empty, List.append_nil]

end Fullerene.Genome
