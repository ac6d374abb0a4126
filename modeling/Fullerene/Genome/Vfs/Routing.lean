import Fullerene.Genome.Vfs
import Fullerene.Genome.MemFileSystem
import Mathlib.Data.List.Nodup

/-!
# Mount routing

`MountTable` is the invariant of the mount table: the first entry is the
root mount, every mount point and the working directory are normalized
absolute paths, and no two entries share a mount point.  `mount` installs a
normalized mount point once, `unmount` never removes the root, and
`change_directory` only moves to a resolved path, so every reachable `Vfs`
satisfies it.

Under the invariant every path is routed: the root mount covers every
absolute path, so some entry matches, and `max_by_key` picks the matching
entry with the longest mount point; two different mount points that both
cover a path have different lengths, so that entry is the only longest one.
Joining its mount point and the rest gives back the resolved path.
-/

namespace Fullerene.Genome

/-- `mountPoint` is the path, the root, or a prefix of the path that ends at a
component boundary. -/
def Covers (mountPoint path : Path) : Prop :=
  mountPoint = path ∨ mountPoint = ['/'] ∨ ∃ rest, path = mountPoint ++ '/' :: rest

/-- The path below a mount point joined back to it. -/
def mountJoin (mountPoint rest : Path) : Path :=
  if mountPoint = ['/'] then '/' :: rest
  else if rest = [] then mountPoint
  else mountPoint ++ '/' :: rest

/-- On an absolute path `relative_to_mount` matches exactly the covering
mount points. -/
theorem relativeToMount_isSome_iff {path mountPoint : Path} (absolute : path.head? = some '/') :
    (relativeToMount path mountPoint).isSome ↔ Covers mountPoint path := by
  rw [Option.isSome_iff_exists]
  constructor
  · rintro ⟨rest, matched⟩
    obtain ⟨-, shape⟩ := relativeToMount_eq_some_iff.mp matched
    split_ifs at shape with root
    · exact .inr (.inl root)
    · rcases shape with ⟨rfl, -⟩ | split
      · exact .inl rfl
      · exact .inr (.inr ⟨rest, split⟩)
  · rintro (rfl | root | ⟨rest, split⟩)
    · by_cases root : mountPoint = ['/']
      · subst root
        exact ⟨[], relativeToMount_eq_some_iff.mpr ⟨absolute, by simp⟩⟩
      · exact ⟨[], relativeToMount_eq_some_iff.mpr ⟨absolute, by simp [root]⟩⟩
    · obtain ⟨rest, rfl⟩ : ∃ rest, path = '/' :: rest := by
        cases path with
        | nil => cases absolute
        | cons head rest =>
            cases absolute
            exact ⟨rest, rfl⟩
      exact ⟨rest, relativeToMount_eq_some_iff.mpr ⟨absolute, by simp [root]⟩⟩
    · by_cases root : mountPoint = ['/']
      · subst root
        exact ⟨'/' :: rest, relativeToMount_eq_some_iff.mpr ⟨absolute, by simp [split]⟩⟩
      · exact ⟨rest, relativeToMount_eq_some_iff.mpr ⟨absolute, by simp [root, split]⟩⟩

/-- Joining a nonempty mount point and the rest `relative_to_mount` returns
gives a normalized path back. -/
theorem mountJoin_of_relativeToMount {path mountPoint rest : Path}
    (matched : relativeToMount path mountPoint = some rest) (normal : normalizePath path = path)
    (nonempty : mountPoint ≠ []) : mountJoin mountPoint rest = path := by
  obtain ⟨-, shape⟩ := relativeToMount_eq_some_iff.mp matched
  unfold mountJoin
  split_ifs at shape ⊢ with root empty
  · exact shape.symm
  · rcases shape with ⟨rfl, -⟩ | split
    · rfl
    · -- the path would be the mount point and a trailing `/`, which a
      -- normalized path other than `/` never has
      rw [empty] at split
      have notRoot : normalizePath path ≠ ['/'] := by
        rw [normal, split]
        intro isRoot
        have := congrArg List.length isRoot
        simp only [List.length_append, List.length_singleton] at this
        exact nonempty (List.eq_nil_of_length_eq_zero (by omega))
      have ending := getLast_normalizePath notRoot
      rw [normal, split] at ending
      simp at ending
  · rcases shape with ⟨-, nonempty⟩ | split
    · exact absurd nonempty empty
    · exact split.symm

namespace Vfs

variable {F : Type}

/-- The mount points, in table order. -/
def mountPoints (vfs : Vfs F) : List Path :=
  vfs.mounts.map MountEntry.mountPoint

/-- The invariant of the mount table. -/
structure MountTable (vfs : Vfs F) : Prop where
  /-- the first entry is mounted at `/` -/
  rootFirst : vfs.mountPoints.head? = some ['/']
  /-- every mount point is a normalized absolute path -/
  normalized : ∀ mountPoint ∈ vfs.mountPoints, normalizePath mountPoint = mountPoint
  /-- no two entries share a mount point -/
  distinct : vfs.mountPoints.Nodup
  /-- the working directory is a normalized absolute path -/
  wdNormalized : normalizePath vfs.wd = vfs.wd

variable {vfs : Vfs F}

theorem MountTable.of_mountPoints {next : Vfs F} (table : MountTable vfs)
    (samePoints : next.mountPoints = vfs.mountPoints) (sameWd : next.wd = vfs.wd) :
    MountTable next := by
  obtain ⟨rootFirst, normalized, distinct, wdNormalized⟩ := table
  rw [← samePoints] at rootFirst normalized distinct
  rw [← sameWd] at wdNormalized
  exact ⟨rootFirst, normalized, distinct, wdNormalized⟩

/-- Storing a filesystem keeps the mount points. -/
theorem mountPoints_setFs (vfs : Vfs F) (index : Nat) (fs : F) :
    (vfs.setFs index fs).mountPoints = vfs.mountPoints := by
  apply List.ext_getElem?
  intro position
  simp only [mountPoints, setFs, List.getElem?_map, List.getElem?_modify]
  cases vfs.mounts[position]? with
  | none => rfl
  | some entry => by_cases same : index = position <;> simp [same]

theorem mountPoints_install (vfs : Vfs F) (mountPoint : Path) (fs : F) :
    (vfs.install mountPoint fs).mountPoints =
      if mountPoint ∈ vfs.mountPoints then vfs.mountPoints
      else vfs.mountPoints ++ [mountPoint] := by
  unfold install
  split
  · rename_i index found
    obtain ⟨bound, named, -⟩ := List.findIdx?_eq_some_iff_getElem.mp found
    rw [mountPoints_setFs, if_pos]
    exact List.mem_map.mpr ⟨_, List.getElem_mem bound, by simpa using named⟩
  · rename_i missing
    rw [if_neg]
    · simp [mountPoints]
    · intro member
      obtain ⟨entry, listed, named⟩ := List.mem_map.mp member
      have := List.findIdx?_eq_none_iff.mp missing entry listed
      simp [named] at this

theorem wd_install (vfs : Vfs F) (mountPoint : Path) (fs : F) :
    (vfs.install mountPoint fs).wd = vfs.wd := by
  unfold install
  split <;> rfl

/-- Installing a normalized mount point keeps the invariant. -/
theorem MountTable.install (table : MountTable vfs) {mountPoint : Path}
    (normal : normalizePath mountPoint = mountPoint) (fs : F) :
    MountTable (vfs.install mountPoint fs) := by
  have points := mountPoints_install vfs mountPoint fs
  split_ifs at points with present
  · exact table.of_mountPoints points (wd_install vfs mountPoint fs)
  · obtain ⟨rootFirst, normalized, distinct, wdNormalized⟩ := table
    refine ⟨?_, ?_, ?_, ?_⟩
    · rw [points, List.head?_append, rootFirst]
      rfl
    · intro point member
      rw [points, List.mem_append, List.mem_singleton] at member
      rcases member with old | rfl
      · exact normalized point old
      · exact normal
    · rw [points]
      exact List.nodup_append.mpr ⟨distinct, List.nodup_singleton _,
        fun old oldMember new newMember same => by
          rw [List.mem_singleton] at newMember
          exact present (newMember ▸ same ▸ oldMember)⟩
    · rw [wd_install]
      exact wdNormalized

theorem MountTable.setFs (table : MountTable vfs) (index : Nat) (fs : F) :
    MountTable (vfs.setFs index fs) :=
  table.of_mountPoints (mountPoints_setFs vfs index fs) rfl

/-! ## Routing under the invariant -/

theorem mountPoint_mem {position : Nat} {entry : MountEntry F}
    (found : vfs.mounts[position]? = some entry) : entry.mountPoint ∈ vfs.mountPoints :=
  List.mem_map_of_mem (List.mem_of_getElem? found)

/-- The index `find_fs_index_for_absolute_path` returns names a matching entry,
and no matching entry has a longer mount point. -/
theorem findFsIndexForAbsolutePath_spec (table : MountTable vfs) {path : Path}
    (absolute : path.head? = some '/') :
    ∃ (index : Nat) (entry : MountEntry F), vfs.findFsIndexForAbsolutePath path = some index ∧
      vfs.mounts[index]? = some entry ∧ (relativeToMount path entry.mountPoint).isSome ∧
      ∀ (position : Nat) (other : MountEntry F), vfs.mounts[position]? = some other →
        (relativeToMount path other.mountPoint).isSome →
          byteLength other.mountPoint ≤ byteLength entry.mountPoint := by
  -- the root entry matches every absolute path, so some entry matches
  obtain ⟨rootEntry, rootFound, rootPoint⟩ : ∃ rootEntry, vfs.mounts[0]? = some rootEntry ∧
      rootEntry.mountPoint = ['/'] := by
    have first := table.rootFirst
    unfold mountPoints at first
    cases listed : vfs.mounts with
    | nil => rw [listed] at first; cases first
    | cons head rest =>
        rw [listed, List.map_cons, List.head?_cons, Option.some.injEq] at first
        exact ⟨head, rfl, first⟩
  have rootMatches : (relativeToMount path rootEntry.mountPoint).isSome :=
    (relativeToMount_isSome_iff absolute).mpr (.inr (.inl rootPoint))
  let matching := vfs.mounts.zipIdx.filter fun pair =>
    (relativeToMount path pair.1.mountPoint).isSome
  have member : ∀ (position : Nat) (other : MountEntry F), ((other, position) ∈ matching ↔
      vfs.mounts[position]? = some other ∧ (relativeToMount path other.mountPoint).isSome) := by
    intro position other
    simp [matching, List.mem_filter, List.mem_zipIdx_iff_getElem?]
  obtain ⟨⟨entry, index⟩, best⟩ : ∃ best,
      matching.maxByKey? (fun pair => byteLength pair.1.mountPoint) = some best := by
    apply Option.ne_none_iff_exists'.mp
    rw [Ne, List.maxByKey?_eq_none_iff]
    exact List.ne_nil_of_mem ((member 0 rootEntry).mpr ⟨rootFound, rootMatches⟩)
  obtain ⟨chosen, longest⟩ := List.maxByKey?_spec best
  obtain ⟨entryFound, entryMatches⟩ := (member index entry).mp chosen
  refine ⟨index, entry, ?_, entryFound, entryMatches, ?_⟩
  · unfold findFsIndexForAbsolutePath
    rw [if_neg (not_not.mpr absolute)]
    show (matching.maxByKey? fun pair => byteLength pair.1.mountPoint).map Prod.snd = _
    rw [best]
    rfl
  · intro position other found otherMatches
    exact longest (other, position) ((member position other).mpr ⟨found, otherMatches⟩)

/-- Two entries that both match a path with mount points of the same byte
length are one entry. -/
theorem eq_of_byteLength_eq (table : MountTable vfs) {path : Path} {first second : Nat}
    {firstEntry secondEntry : MountEntry F} (firstFound : vfs.mounts[first]? = some firstEntry)
    (secondFound : vfs.mounts[second]? = some secondEntry)
    (firstMatches : (relativeToMount path firstEntry.mountPoint).isSome)
    (secondMatches : (relativeToMount path secondEntry.mountPoint).isSome)
    (sameLength : byteLength firstEntry.mountPoint = byteLength secondEntry.mountPoint) :
    first = second := by
  obtain ⟨firstRest, firstMatched⟩ := Option.isSome_iff_exists.mp firstMatches
  obtain ⟨secondRest, secondMatched⟩ := Option.isSome_iff_exists.mp secondMatches
  have samePoint := eq_of_prefix_of_byteLength_eq (prefix_of_relativeToMount firstMatched)
    (prefix_of_relativeToMount secondMatched) sameLength
  -- mount points are distinct, so equal mount points sit at one index
  have bound : first < vfs.mountPoints.length := by
    simp only [mountPoints, List.length_map]
    exact (List.getElem?_eq_some_iff.mp firstFound).1
  apply (List.getElem?_inj bound table.distinct).mp
  simp [mountPoints, firstFound, secondFound, samePoint]

theorem unmount_mountTable (table : MountTable vfs) (mountPoint : Path) :
    MountTable (vfs.unmount mountPoint).2 := by
  unfold unmount
  dsimp only
  split_ifs with root
  · exact table
  · obtain ⟨rootFirst, normalized, distinct, wdNormalized⟩ := table
    -- the kept mount points are those other than the removed one
    have points : ({ vfs with mounts := vfs.mounts.filter fun entry =>
        entry.mountPoint != normalizePath mountPoint } : Vfs F).mountPoints =
          vfs.mountPoints.filter (· != normalizePath mountPoint) := by
      simp [mountPoints, List.filter_map, Function.comp_def]
    refine ⟨?_, ?_, ?_, wdNormalized⟩
    · dsimp only
      rw [points]
      obtain ⟨rest, split⟩ : ∃ rest, vfs.mountPoints = ['/'] :: rest := by
        cases listed : vfs.mountPoints with
        | nil => rw [listed] at rootFirst; cases rootFirst
        | cons head rest =>
            rw [listed, List.head?_cons, Option.some.injEq] at rootFirst
            exact ⟨rest, rootFirst ▸ rfl⟩
      rw [split, List.filter_cons, if_pos (by simpa using Ne.symm root)]
      rfl
    · intro point member
      dsimp only at member
      rw [points] at member
      exact normalized point (List.mem_of_mem_filter member)
    · dsimp only
      rw [points]
      exact distinct.filter _

/-- Every resolved path is a normalized absolute path. -/
theorem resolvePath_normalized (table : MountTable vfs) (path : Path) :
    normalizePath (vfs.resolvePath path) = vfs.resolvePath path := by
  unfold resolvePath
  dsimp only
  split_ifs
  · exact normalizePath_normalizePath path
  · exact table.wdNormalized
  · exact normalizePath_normalizePath _
  · exact normalizePath_normalizePath _

theorem head_resolvePath (table : MountTable vfs) (path : Path) :
    (vfs.resolvePath path).head? = some '/' := by
  rw [← resolvePath_normalized table path]
  exact head_normalizePath _

/-- A normalized working directory that ends in `/` is the root. -/
theorem wd_eq_root_of_getLast (table : MountTable vfs) (endsInSlash : vfs.wd.getLast? = some '/') :
    vfs.wd = ['/'] := by
  by_contra notRoot
  rw [← table.wdNormalized] at notRoot endsInSlash
  exact getLast_normalizePath notRoot endsInSlash

/-- A relative path is resolved as the working directory, `/` and the path,
normalized; the root's own `/` is not doubled, and an empty path is the
working directory. -/
theorem resolvePath_of_relative (table : MountTable vfs) {path : Path}
    (relative : path.head? ≠ some '/') :
    vfs.resolvePath path = normalizePath (vfs.wd ++ '/' :: path) := by
  unfold resolvePath
  rw [if_neg relative]
  split_ifs with empty endsInSlash
  · rw [List.isEmpty_iff.mp empty]
    -- the trailing `/` adds an empty component, which the loop skips
    have skipped : normalComponents (vfs.wd ++ ['/']) = normalComponents vfs.wd := by
      rw [normalComponents_append_slash]
      rfl
    rw [normalizePath_eq_of_normalComponents_eq skipped, table.wdNormalized]
  · rw [wd_eq_root_of_getLast table endsInSlash]
    apply normalizePath_eq_of_normalComponents_eq
    show normalComponents ([] ++ '/' :: path) = normalComponents (['/'] ++ '/' :: path)
    rw [normalComponents_append_slash, normalComponents_append_slash]
    rfl
  · dsimp only
    rw [List.append_assoc, List.singleton_append]

theorem new_mountTable (rootFs : F) : MountTable (new rootFs) where
  rootFirst := rfl
  normalized := by
    intro point member
    simp only [mountPoints, new, List.map_cons, List.map_nil, List.mem_singleton] at member
    subst member
    decide
  distinct := List.nodup_singleton _
  wdNormalized := by
    show normalizePath ['/'] = ['/']
    decide

variable [FileSystem F]

theorem mount_mountTable (table : MountTable vfs) {mountPoint : Path} {fs : F}
    {result : Except FsError Unit} {next : Vfs F}
    (mounted : vfs.mount mountPoint fs = some (result, next)) : MountTable next := by
  have normal := normalizePath_normalizePath mountPoint
  unfold mount at mounted
  dsimp only at mounted
  split_ifs at mounted with notRoot
  · split at mounted
    · cases mounted
      exact table
    · rename_i index target remaining found
      obtain ⟨⟨answer, target'⟩, -, same⟩ := Option.map_eq_some_iff.mp mounted
      -- whatever `readdir` answers, only the target filesystem changed
      split at same
      · cases same
        exact table.setFs index target'
      · cases same
        exact (table.setFs index target').install normal fs
  · cases mounted
    exact table.install normal fs

theorem changeDirectory_mountTable (table : MountTable vfs) {path : Path}
    {result : Except FsError Unit} {next : Vfs F}
    (changed : vfs.changeDirectory path = some (result, next)) : MountTable next := by
  unfold changeDirectory at changed
  dsimp only at changed
  split at changed
  · cases changed
    exact table
  · rename_i index target remaining found
    obtain ⟨⟨answer, target'⟩, -, same⟩ := Option.map_eq_some_iff.mp changed
    split at same
    · cases same
      exact table.setFs index target'
    · -- the new working directory is the resolved path
      cases same
      have moved := table.setFs index target'
      exact ⟨moved.rootFirst, moved.normalized, moved.distinct, resolvePath_normalized table path⟩

theorem mountTable_inductive (rootFs : F) : (mountMachine rootFs).Inductive MountTable where
  init := new_mountTable rootFs
  step := by
    intro vfs next call reply table stepped
    cases call with
    | mount mountPoint fs =>
        obtain ⟨⟨result, next'⟩, mounted, same⟩ := Option.map_eq_some_iff.mp stepped
        cases same
        exact mount_mountTable table mounted
    | unmount mountPoint =>
        cases stepped
        exact unmount_mountTable table mountPoint
    | changeDirectory path =>
        obtain ⟨⟨result, next'⟩, changed, same⟩ := Option.map_eq_some_iff.mp stepped
        cases same
        exact changeDirectory_mountTable table changed

/-- In every reachable state the mount table keeps its invariant, and every
path is routed to the one entry whose mount point covers the resolved path
with the most bytes; its mount point joined with the rest is the resolved
path. -/
theorem reachable_routing {rootFs : F} (reached : (mountMachine rootFs).Reachable vfs) :
    MountTable vfs ∧ ∀ path, ∃ index rest entry,
      vfs.findFsForPath path = some (index, rest) ∧ vfs.mounts[index]? = some entry ∧
      Covers entry.mountPoint (vfs.resolvePath path) ∧
      (∀ (position : Nat) (other : MountEntry F), vfs.mounts[position]? = some other →
        position ≠ index →
        Covers other.mountPoint (vfs.resolvePath path) →
          byteLength other.mountPoint < byteLength entry.mountPoint) ∧
      mountJoin entry.mountPoint rest = vfs.resolvePath path := by
  have table := (mountTable_inductive rootFs).reachable reached
  refine ⟨table, ?_⟩
  intro path
  have absolute := head_resolvePath table path
  obtain ⟨index, entry, indexFound, entryFound, entryMatches, longest⟩ :=
    findFsIndexForAbsolutePath_spec table absolute
  obtain ⟨rest, matched⟩ := Option.isSome_iff_exists.mp entryMatches
  -- a normalized mount point starts with `/`, so it is not empty
  have nonempty : entry.mountPoint ≠ [] := by
    intro empty
    have normal := table.normalized _ (mountPoint_mem entryFound)
    rw [empty] at normal
    exact absurd (normal ▸ head_normalizePath []) (by simp)
  refine ⟨index, rest, entry, ?_, entryFound, (relativeToMount_isSome_iff absolute).mp entryMatches,
    ?_, mountJoin_of_relativeToMount matched (resolvePath_normalized table path) nonempty⟩
  · simp [findFsForPath, indexFound, entryFound, matched]
  · intro position other found different covers
    have otherMatches := (relativeToMount_isSome_iff absolute).mpr covers
    have atMost := longest position other found otherMatches
    rcases Nat.lt_or_eq_of_le atMost with shorter | same
    · exact shorter
    · exact absurd (eq_of_byteLength_eq table found entryFound otherMatches entryMatches same)
        different

/-- A root filesystem holding the directory `/mnt`, for the runs below. -/
def rootWithMnt : MemFileSystem := ((MemFileSystem.new.mkdir "/mnt".toList).map Prod.snd).getD MemFileSystem.new

/-- After a filesystem is mounted on `/mnt` of the root and the working directory is changed to
`/mnt/../mnt/.`, which is `/mnt`, every path is routed to the entry of the longest mount point
that covers it. -/
theorem reachable_routing_after_mount :
    ∃ replies vfs, (mountMachine rootWithMnt).run (new rootWithMnt)
        [.mount "/mnt".toList MemFileSystem.new, .changeDirectory "/mnt/../mnt/.".toList] = some (replies, vfs) ∧
      replies = [.status (.ok ()), .status (.ok ())] ∧ vfs.wd = "/mnt".toList ∧
      (MountTable vfs ∧ ∀ path, ∃ index rest entry,
        vfs.findFsForPath path = some (index, rest) ∧ vfs.mounts[index]? = some entry ∧
        Covers entry.mountPoint (vfs.resolvePath path) ∧
        (∀ (position : Nat) (other : MountEntry MemFileSystem), vfs.mounts[position]? = some other →
          position ≠ index →
          Covers other.mountPoint (vfs.resolvePath path) →
            byteLength other.mountPoint < byteLength entry.mountPoint) ∧
        mountJoin entry.mountPoint rest = vfs.resolvePath path) :=
  ⟨_, _, rfl, rfl, rfl, reachable_routing (Machine.Reachable.run _ .init
    (rfl : (mountMachine rootWithMnt).run (new rootWithMnt)
      [.mount "/mnt".toList MemFileSystem.new, .changeDirectory "/mnt/../mnt/.".toList] = some (_, _)))⟩

/-- `normalize_path` is a canonicalizer: its result is `/` followed by valid
names, it is idempotent, and a prefix can be normalized first.  In every
reachable `Vfs` the working directory is normalized and a relative path
resolves as the normalization of the working directory, `/` and the path:
the path's components act on the directory's, and `..` at the root stays
there. -/
theorem normalize_path_is_canonicalizer {rootFs : F} (reached : (mountMachine rootFs).Reachable vfs) :
    (∀ path, ∃ comps, (∀ comp ∈ comps, ValidName comp) ∧
        normalizePath path = '/' :: ['/'].intercalate comps) ∧
      (∀ path, normalizePath (normalizePath path) = normalizePath path) ∧
      (∀ first second, normalizePath (first ++ '/' :: second) =
        normalizePath (normalizePath first ++ '/' :: second)) ∧
      normalizePath vfs.wd = vfs.wd ∧
      ∀ path, path.head? ≠ some '/' →
        vfs.resolvePath path = normalizePath (vfs.wd ++ '/' :: path) ∧
          normalComponents (vfs.resolvePath path) =
            (path.splitOn '/').foldl pushComponent (normalComponents vfs.wd) := by
  have table := (mountTable_inductive rootFs).reachable reached
  refine ⟨normalizePath_canonical, normalizePath_normalizePath, normalizePath_append_slash,
    table.wdNormalized, ?_⟩
  intro path relative
  have resolved := resolvePath_of_relative table relative
  refine ⟨resolved, ?_⟩
  rw [resolved, normalComponents_normalizePath, normalComponents_append_slash]

/-- After the working directory is changed to `/mnt/../mnt/.` of a root holding `/mnt`, it is the
normalized `/mnt`, and a relative `../mnt/x` resolves against it to `/mnt/x`. -/
theorem normalize_path_is_canonicalizer_after_chdir :
    ∃ replies vfs, (mountMachine rootWithMnt).run (new rootWithMnt)
        [.changeDirectory "/mnt/../mnt/.".toList] = some (replies, vfs) ∧
      replies = [.status (.ok ())] ∧ vfs.wd = "/mnt".toList ∧ vfs.resolvePath "../mnt/x".toList = "/mnt/x".toList ∧
      ((∀ path, ∃ comps, (∀ comp ∈ comps, ValidName comp) ∧
          normalizePath path = '/' :: ['/'].intercalate comps) ∧
        (∀ path, normalizePath (normalizePath path) = normalizePath path) ∧
        (∀ first second, normalizePath (first ++ '/' :: second) =
          normalizePath (normalizePath first ++ '/' :: second)) ∧
        normalizePath vfs.wd = vfs.wd ∧
        ∀ path, path.head? ≠ some '/' →
          vfs.resolvePath path = normalizePath (vfs.wd ++ '/' :: path) ∧
            normalComponents (vfs.resolvePath path) =
              (path.splitOn '/').foldl pushComponent (normalComponents vfs.wd)) :=
  ⟨_, _, rfl, rfl, rfl, rfl, normalize_path_is_canonicalizer (Machine.Reachable.run _ .init
    (rfl : (mountMachine rootWithMnt).run (new rootWithMnt) [.changeDirectory "/mnt/../mnt/.".toList] =
      some (_, _)))⟩

end Vfs

end Fullerene.Genome
