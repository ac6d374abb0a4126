import Fullerene.Kernel.VfsContext

/-!
# Descriptor routing of `VfsContext`

The handle table routes each global descriptor to a mount index and a local
descriptor.  `Routed` is what makes those routes right: the mount table keeps
its invariant, every mounted filesystem keeps its own descriptor discipline
(`Descriptors`), global descriptors are distinct, no two entries share a
location, and every entry's location is a descriptor open in the mount at
that index.

`Relocates` says what one call does to the routes.  A descriptor routed after
the call was routed before it to the same local descriptor, in the mount at
the same mount point, whose filesystem is a later state of the one it was
(`FileSystem.Evolves`); or the call registered it, fresh, in the mount its
path is routed to.  After `close` the closed descriptor is routed nowhere,
and after an `unmount` that removed a mount neither are that mount's.

The root must be sound and every mounted filesystem too; then every call
keeps `Routed` and moves the routes as `Relocates` says, in every state of
every run (`routes_of_run`).  Unmounting is the delicate call: it removes
the mount at one position and moves the positions above it down by one, and
the handle table follows (`List.getElem?_eraseIdx_shiftDown`).  Mounting
never replaces a mounted filesystem, because `VfsContext::mount` refuses a
mount point in use; `Vfs::mount` alone would replace it under the routes of
its descriptors.
-/

namespace Fullerene.Kernel.Contexts

open Genome FileSystem Descriptors

namespace VfsContext

variable {F : Type} [FileSystem F] [Descriptors F]

/-- The invariant of the descriptor routes. -/
structure Routed (ctx : VfsContext F) : Prop where
  /-- the mount table keeps its invariant -/
  table : ctx.inner.MountTable
  /-- every mounted filesystem keeps its descriptor discipline -/
  sound : ∀ mount ∈ ctx.inner.mounts, Sound mount.fs
  /-- global descriptors are distinct -/
  fdsDistinct : (ctx.handleTable.entries.map HandleEntry.fd).Nodup
  /-- no two entries route to one local descriptor of one mount -/
  locationsDistinct : (ctx.handleTable.entries.map HandleEntry.location).Nodup
  /-- every entry routes to a descriptor open in the mount at its index -/
  live : ∀ entry ∈ ctx.handleTable.entries, ∃ mount,
    ctx.inner.mounts[entry.mountIndex]? = some mount ∧ IsOpen mount.fs entry.localFd

/-- The path whose file a call opens and registers. -/
def Call.opens : Call F → Option Path
  | .open path _ | .create path => some path
  | _ => none

/-- The global descriptor a reply hands out. -/
def Reply.registered : Reply → Option Nat
  | .opened (some descriptor) | .created (.ok descriptor) => some descriptor.fd
  | _ => none

/-- What one call does to the routes. -/
structure Relocates (ctx : VfsContext F) (call : Call F) (reply : Reply) (next : VfsContext F) :
    Prop where
  /-- a descriptor routed after the call was routed before it to the same
  local descriptor of the mount at the same mount point, whose filesystem only
  evolved, or the call registered it in the mount its path is routed to -/
  kept : ∀ {fd : Nat} {handle' : HandleLocation}, next.handleTable.find fd = some handle' →
    (∃ handle mount mount', ctx.handleTable.find fd = some handle ∧
      handle'.localFd = handle.localFd ∧ ctx.inner.mounts[handle.mountIndex]? = some mount ∧
      next.inner.mounts[handle'.mountIndex]? = some mount' ∧
      mount'.mountPoint = mount.mountPoint ∧ Evolves mount.fs mount'.fs) ∨
    (∃ path, call.opens = some path ∧ reply.registered = some fd ∧
      ctx.handleTable.find fd = none ∧ ctx.inner.findFsIndex path = some handle'.mountIndex)
  /-- `close` leaves its descriptor routed nowhere -/
  closed : ∀ {fd : Nat}, call = .close fd → next.handleTable.find fd = none
  /-- an `unmount` that removed a mount leaves its descriptors routed nowhere -/
  unmounted : ∀ {mountPoint : Path} {fd : Nat} {handle : HandleLocation} {mount : MountEntry F},
    call = .unmount mountPoint → reply = .removed (.ok true) →
    ctx.handleTable.find fd = some handle → ctx.inner.mounts[handle.mountIndex]? = some mount →
    mount.mountPoint = ctx.inner.resolvePath mountPoint → next.handleTable.find fd = none

/-- A call that can take part in a run: a mounted filesystem must be sound. -/
def Call.Admissible : Call F → Prop
  | .mount _ fs => Sound fs
  | _ => True

/-! ## The invariant under one stored filesystem -/

variable {ctx : VfsContext F}

theorem Routed.withEntries (routed : Routed ctx) {handleTable : HandleTable}
    (sameEntries : handleTable.entries = ctx.handleTable.entries) :
    Routed { ctx with handleTable } := by
  obtain ⟨table, sound, fdsDistinct, locationsDistinct, live⟩ := routed
  exact ⟨table, sound, sameEntries ▸ fdsDistinct, sameEntries ▸ locationsDistinct,
    sameEntries ▸ live⟩

/-- Storing back a sound filesystem that keeps open every local descriptor the
table routes to it keeps the routes. -/
theorem Routed.setFs (routed : Routed ctx) {index : Nat} {mount : MountEntry F}
    (found : ctx.inner.mounts[index]? = some mount) {fs : F} (sound : Sound fs)
    (keepsOpen : ∀ entry ∈ ctx.handleTable.entries, entry.mountIndex = index →
      IsOpen mount.fs entry.localFd → IsOpen fs entry.localFd) :
    Routed { ctx with inner := ctx.inner.setFs index fs } where
  table := routed.table.setFs index fs
  sound := by
    intro mount' member
    obtain ⟨position, listed⟩ := List.mem_iff_getElem?.mp member
    by_cases same : position = index
    · subst same
      rw [Vfs.getElem?_setFs_self found, Option.some.injEq] at listed
      subst listed
      exact sound
    · rw [Vfs.getElem?_setFs_of_ne same] at listed
      exact routed.sound mount' (List.mem_of_getElem? listed)
  fdsDistinct := routed.fdsDistinct
  locationsDistinct := routed.locationsDistinct
  live := by
    intro entry member
    obtain ⟨mount', listed, opened⟩ := routed.live entry member
    by_cases same : entry.mountIndex = index
    · rw [same, found, Option.some.injEq] at listed
      subst listed
      refine ⟨{ mount with fs }, ?_, keepsOpen entry member same opened⟩
      show (ctx.inner.setFs index fs).mounts[entry.mountIndex]? = _
      rw [same, Vfs.getElem?_setFs_self found]
    · exact ⟨mount', (Vfs.getElem?_setFs_of_ne same fs).trans listed, opened⟩

theorem Routed.quietStore (routed : Routed ctx) {inner : Vfs F}
    (stored : ctx.inner.QuietStore inner) : Routed { ctx with inner } := by
  obtain ⟨index, mount, fs, found, quiet, rfl⟩ := stored
  obtain ⟨sound, same⟩ := Descriptors.quiet (routed.sound mount (List.mem_of_getElem? found)) quiet
  exact routed.setFs found sound fun _ _ _ opened => (same _).mpr opened

theorem Routed.quieted (routed : Routed ctx) {inner : Vfs F} (quieted : ctx.inner.Quieted inner) :
    Routed { ctx with inner } := by
  induction quieted with
  | refl => exact routed
  | tail _ stored routedMiddle => exact routedMiddle.quietStore stored

theorem new_routed {rootFs : F} (sound : Sound rootFs) : Routed (new rootFs) where
  table := Vfs.new_mountTable rootFs
  sound := by
    intro mount member
    rw [List.mem_singleton.mp member]
    exact sound
  fdsDistinct := List.nodup_nil
  locationsDistinct := List.nodup_nil
  live := fun _ member => nomatch member

/-! ## Routes that stay -/

theorem find_eq_of_entries_eq {table next : HandleTable} (sameEntries : next.entries = table.entries)
    (fd : Nat) : next.find fd = table.find fd := by
  unfold HandleTable.find
  rw [sameEntries]

/-- An entry that a call keeps, when every mount evolves in place, routes to
the mount at the same mount point, a later state of the same filesystem. -/
theorem route_of_mem (routed : Routed ctx) {inner : Vfs F} (evolved : ctx.inner.Evolves inner)
    {entry : HandleEntry} (member : entry ∈ ctx.handleTable.entries) :
    ∃ mount mount', ctx.handleTable.find entry.fd = some entry.location ∧
      ctx.inner.mounts[entry.mountIndex]? = some mount ∧ inner.mounts[entry.mountIndex]? = some mount' ∧
      mount'.mountPoint = mount.mountPoint ∧ Evolves mount.fs mount'.fs := by
  obtain ⟨mount, listed, -⟩ := routed.live entry member
  obtain ⟨mount', listed', samePoint, evolvedFs⟩ := evolved listed
  exact ⟨mount, mount', HandleTable.find_of_mem routed.fdsDistinct member, listed, listed', samePoint,
    evolvedFs⟩

/-- When the entries after a call are entries from before it and every mount
evolves in place, a descriptor routed after the call was routed the same way
before it. -/
theorem kept_of_mem (routed : Routed ctx) {next : VfsContext F}
    (within : ∀ entry ∈ next.handleTable.entries, entry ∈ ctx.handleTable.entries)
    (evolved : ctx.inner.Evolves next.inner) {fd : Nat} {handle' : HandleLocation}
    (found : next.handleTable.find fd = some handle') :
    ∃ handle mount mount', ctx.handleTable.find fd = some handle ∧
      handle'.localFd = handle.localFd ∧ ctx.inner.mounts[handle.mountIndex]? = some mount ∧
      next.inner.mounts[handle'.mountIndex]? = some mount' ∧
      mount'.mountPoint = mount.mountPoint ∧ Evolves mount.fs mount'.fs := by
  obtain ⟨entry, member, rfl, rfl⟩ := HandleTable.exists_of_find_eq_some found
  obtain ⟨mount, mount', before, listed, listed', samePoint, evolvedFs⟩ :=
    route_of_mem routed evolved (within entry member)
  exact ⟨_, mount, mount', before, rfl, listed, listed', samePoint, evolvedFs⟩

/-- A call that keeps the entries and lets every mount evolve in place keeps
every route. -/
theorem relocates_of_entries_eq (routed : Routed ctx) {call : Call F} {reply : Reply}
    {next : VfsContext F} (sameEntries : next.handleTable.entries = ctx.handleTable.entries)
    (evolved : ctx.inner.Evolves next.inner) (notClose : ∀ fd, call ≠ .close fd)
    (notRemoved : ∀ mountPoint, call = .unmount mountPoint → reply ≠ .removed (.ok true)) :
    Relocates ctx call reply next where
  kept found := .inl (kept_of_mem routed (fun _ member => sameEntries ▸ member) evolved found)
  closed same := absurd same (notClose _)
  unmounted same removed := absurd removed (notRemoved _ same)

/-- A call that registers one fresh descriptor in the mount its path is routed
to, and keeps every other route. -/
theorem relocates_of_register (routed : Routed ctx) {call : Call F} {reply : Reply}
    {next : VfsContext F} {fd mountIndex localFd : Nat} {path : Path}
    (appended : next.handleTable.entries = ctx.handleTable.entries ++ [⟨fd, mountIndex, localFd⟩])
    (fresh : ∀ entry ∈ ctx.handleTable.entries, entry.fd ≠ fd)
    (evolved : ctx.inner.Evolves next.inner) (opens : call.opens = some path)
    (registers : reply.registered = some fd)
    (routedTo : ctx.inner.findFsIndex path = some mountIndex) : Relocates ctx call reply next where
  kept := by
    intro fd' handle' found
    obtain ⟨entry, member, rfl, rfl⟩ := HandleTable.exists_of_find_eq_some found
    rw [appended, List.mem_append, List.mem_singleton] at member
    rcases member with old | rfl
    · obtain ⟨mount, mount', before, listed, listed', samePoint, evolvedFs⟩ :=
        route_of_mem routed evolved old
      exact .inl ⟨_, mount, mount', before, rfl, listed, listed', samePoint, evolvedFs⟩
    · exact .inr ⟨path, opens, registers, HandleTable.find_eq_none_iff.mpr fresh, routedTo⟩
  closed same := by cases call <;> simp_all [Call.opens]
  unmounted same := by cases call <;> simp_all [Call.opens]

omit [FileSystem F] [Descriptors F] in
theorem withInner_eq_some {α : Type} {operate : Vfs F → Option (α × Vfs F)} {result : α}
    {next : VfsContext F} (answered : ctx.withInner operate = some (result, next)) :
    ∃ inner, operate ctx.inner = some (result, inner) ∧ next = { ctx with inner } := by
  obtain ⟨⟨result', inner⟩, called, same⟩ := Option.map_eq_some_iff.mp answered
  cases same
  exact ⟨inner, called, rfl⟩

omit [Descriptors F] in
/-- A method that reaches its mount through the handle table and calls a
quiet method there. -/
theorem atHandle_quieted {α : Type} {fd : Nat}
    {operate : Vfs F → HandleLocation → Option (Except FsError α × Vfs F)}
    (quiets : ∀ {vfs handle result inner}, operate vfs handle = some (result, inner) →
      vfs.Quieted inner)
    {result : Except FsError α} {next : VfsContext F}
    (answered : ctx.atHandle fd operate = some (result, next)) :
    ∃ inner, ctx.inner.Quieted inner ∧ next = { ctx with inner } := by
  unfold atHandle at answered
  split at answered
  · cases answered
    exact ⟨ctx.inner, Relation.ReflTransGen.refl, rfl⟩
  · obtain ⟨inner, called, rfl⟩ := withInner_eq_some answered
    exact ⟨inner, quiets called, rfl⟩

omit [Descriptors F] in
/-- `seek_from` calls `position_at` or `size_at` and then `seek_at`, all
quiet. -/
theorem seekFrom_quieted {fd : Nat} {position : SeekFrom} {result : Except FsError Nat}
    {next : VfsContext F} (answered : ctx.seekFrom fd position = some (result, next)) :
    ∃ inner, ctx.inner.Quieted inner ∧ next = { ctx with inner } := by
  unfold seekFrom at answered
  split at answered
  · cases answered
    exact ⟨ctx.inner, Relation.ReflTransGen.refl, rfl⟩
  rename_i handle found
  -- the first call, when there is one, is quiet
  have based : ∀ {base : Except FsError (Option Nat)} {inner : Vfs F},
      seekBase ctx.inner handle position = some (base, inner) → ctx.inner.Quieted inner := by
    intro base inner based
    cases position with
    | start offset =>
        cases based
        exact Relation.ReflTransGen.refl
    | current offset =>
        obtain ⟨⟨base', inner'⟩, called, same⟩ := Option.map_eq_some_iff.mp based
        cases same
        exact Vfs.atMount_quieted (fun called => (PlainCall.position called).quiet) called
    | «end» offset =>
        obtain ⟨⟨base', inner'⟩, called, same⟩ := Option.map_eq_some_iff.mp based
        cases same
        exact Vfs.atMount_quieted (fun called => (PlainCall.size called).quiet) called
  split at answered
  · cases answered
  · cases answered
    exact ⟨_, based (by assumption), rfl⟩
  · cases answered
    exact ⟨_, based (by assumption), rfl⟩
  · rename_i absolute inner baseFound
    obtain ⟨⟨result', inner'⟩, called, same⟩ := Option.map_eq_some_iff.mp answered
    cases same
    exact ⟨inner', (based baseFound).trans
      (Vfs.atMount_quieted (fun called => (PlainCall.seek called).quiet) called), rfl⟩

/-- A call that keeps the handle table and whose filesystems answer quiet
methods only. -/
theorem quiet_routes (routed : Routed ctx) {call : Call F} {reply : Reply} {inner : Vfs F}
    (quieted : ctx.inner.Quieted inner) (notClose : ∀ fd, call ≠ .close fd)
    (notUnmount : ∀ mountPoint, call ≠ .unmount mountPoint) :
    Routed { ctx with inner } ∧ Relocates ctx call reply { ctx with inner } :=
  ⟨routed.quieted quieted, relocates_of_entries_eq routed rfl quieted.evolves notClose
    fun _ same => absurd same (notUnmount _)⟩

/-! ## Opening and registering -/

/-- `register_handle` of a descriptor that the mount at `mountIndex` has open
and that no entry routes to: the table gains that route, or keeps its
entries and the mount closes the descriptor again. -/
theorem registerHandle_routes (routed : Routed ctx) {mountIndex : Nat}
    {descriptor : FileDescriptor} {mount : MountEntry F}
    (found : ctx.inner.mounts[mountIndex]? = some mount) (opened : IsOpen mount.fs descriptor.fd)
    (unrouted : ∀ entry ∈ ctx.handleTable.entries, entry.location ≠ ⟨mountIndex, descriptor.fd⟩)
    {result : Option FileDescriptor} {next : VfsContext F}
    (registered : ctx.registerHandle mountIndex descriptor = some (result, next)) :
    Routed next ∧ ctx.inner.Evolves next.inner ∧
      ((result = none ∧ next.handleTable.entries = ctx.handleTable.entries) ∨
        ∃ fd, (∀ entry ∈ ctx.handleTable.entries, entry.fd ≠ fd) ∧
          result = some { descriptor with fd } ∧
          next.handleTable.entries = ctx.handleTable.entries ++ [⟨fd, mountIndex, descriptor.fd⟩]) := by
  unfold registerHandle at registered
  split at registered
  · rename_i registeredDescriptor handleTable inserted
    cases registered
    obtain ⟨absurd, -⟩ | ⟨fd, fresh, same, appended⟩ := HandleTable.insert_cases inserted
    · cases absurd
    refine ⟨⟨routed.table, routed.sound, ?_, ?_, ?_⟩, Vfs.Evolves.refl _, .inr ⟨fd, fresh, same, appended⟩⟩
    · -- the new global descriptor is one no entry uses
      rw [appended, List.map_append, List.nodup_append]
      refine ⟨routed.fdsDistinct, List.nodup_singleton _, ?_⟩
      intro used usedMember new newMember
      obtain ⟨entry, member, rfl⟩ := List.mem_map.mp usedMember
      rw [List.map_singleton, List.mem_singleton] at newMember
      exact newMember ▸ fresh entry member
    · -- and its location is one no entry routes to
      rw [appended, List.map_append, List.nodup_append]
      refine ⟨routed.locationsDistinct, List.nodup_singleton _, ?_⟩
      intro used usedMember new newMember
      obtain ⟨entry, member, rfl⟩ := List.mem_map.mp usedMember
      rw [List.map_singleton, List.mem_singleton] at newMember
      exact newMember ▸ unrouted entry member
    · intro entry member
      rw [appended, List.mem_append, List.mem_singleton] at member
      rcases member with old | rfl
      · exact routed.live entry old
      · exact ⟨mount, found, opened⟩
  · rename_i handleTable inserted
    obtain ⟨⟨answer, inner⟩, closed, same⟩ := Option.map_eq_some_iff.mp registered
    cases same
    obtain ⟨-, sameEntries⟩ | ⟨fd, -, absurd, -⟩ := HandleTable.insert_cases inserted
    · have kept := routed.withEntries sameEntries
      rcases Vfs.atMount_eq_some closed with ⟨-, -, rfl⟩ | ⟨mount', fs', listed, closing, rfl⟩
      · exact ⟨kept, Vfs.Evolves.refl _, .inl ⟨rfl, sameEntries⟩⟩
      rw [found, Option.some.injEq] at listed
      subst listed
      -- the mount closes the one descriptor no entry routes to
      obtain ⟨soundFs, others⟩ :=
        Descriptors.close (routed.sound mount (List.mem_of_getElem? found)) closing
      refine ⟨kept.setFs found soundFs ?_, Vfs.Evolves.setFs found (Answers.close closing).evolves,
        .inl ⟨rfl, sameEntries⟩⟩
      intro entry member atMount isOpen
      refine (others _ fun same => unrouted entry (sameEntries ▸ member) ?_).mpr isOpen
      show HandleLocation.mk entry.mountIndex entry.localFd = _
      rw [atMount, same]
    · cases absurd

/-- The dispatcher opens a file and the context registers the descriptor at
the mount index the path is routed to. -/
theorem openThenRegister (routed : Routed ctx) {path : Path} {flags mountIndex : Nat}
    {descriptor : FileDescriptor} {inner : Vfs F}
    (indexed : ctx.inner.findFsIndex path = some mountIndex)
    (opened : ctx.inner.open path flags = some (some descriptor, inner))
    {result : Option FileDescriptor} {next : VfsContext F}
    (registered : { ctx with inner }.registerHandle mountIndex descriptor = some (result, next)) :
    Routed next ∧ ctx.inner.Evolves next.inner ∧
      ((result = none ∧ next.handleTable.entries = ctx.handleTable.entries) ∨
        ∃ fd, (∀ entry ∈ ctx.handleTable.entries, entry.fd ≠ fd) ∧
          result = some { descriptor with fd } ∧
          next.handleTable.entries = ctx.handleTable.entries ++ [⟨fd, mountIndex, descriptor.fd⟩]) := by
  rcases Vfs.onRoute_eq_some opened with ⟨absurd, -⟩ | ⟨index, fs, remaining, fs', routedTo, called, rfl⟩
  · cases absurd
  obtain ⟨indexedAbsolute, mount, listed, rfl⟩ := Vfs.findFs_eq_some routedTo
  -- the mount that opened the file is the one `find_fs_index` named
  have same : index = mountIndex := Option.some.inj (indexedAbsolute.symm.trans indexed)
  subst same
  obtain ⟨soundFs, closedBefore, openedAfter⟩ :=
    open_some (routed.sound mount (List.mem_of_getElem? listed)) called
  have stored := routed.setFs listed soundFs fun _ _ _ isOpen => (openedAfter _).mpr (.inr isOpen)
  -- the descriptor was closed before, so no entry routed to it
  have unrouted : ∀ entry ∈ ctx.handleTable.entries,
      entry.location ≠ ⟨index, descriptor.fd⟩ := by
    intro entry member location
    obtain ⟨mount', listed', isOpen⟩ := routed.live entry member
    simp only [HandleEntry.location, HandleLocation.mk.injEq] at location
    rw [location.1, listed, Option.some.injEq] at listed'
    subst listed'
    exact closedBefore (location.2 ▸ isOpen)
  obtain ⟨routedNext, evolved, entries⟩ := registerHandle_routes stored
    (Vfs.getElem?_setFs_self listed fs') ((openedAfter _).mpr (.inl rfl)) unrouted registered
  exact ⟨routedNext, (Vfs.Evolves.setFs listed (Answers.open called).evolves).trans evolved,
    entries⟩

/-- An `open` that finds nothing opens nothing. -/
theorem openNone_routes (routed : Routed ctx) {path : Path} {flags : Nat} {inner : Vfs F}
    (opened : ctx.inner.open path flags = some (none, inner)) :
    Routed { ctx with inner } ∧ ctx.inner.Evolves inner := by
  rcases Vfs.onRoute_eq_some opened with ⟨-, rfl⟩ | ⟨index, fs, remaining, fs', routedTo, called, rfl⟩
  · exact ⟨routed, Vfs.Evolves.refl _⟩
  obtain ⟨-, mount, listed, rfl⟩ := Vfs.findFs_eq_some routedTo
  obtain ⟨soundFs, same⟩ := open_none (routed.sound mount (List.mem_of_getElem? listed)) called
  exact ⟨routed.setFs listed soundFs fun _ _ _ isOpen => (same _).mpr isOpen,
    Vfs.Evolves.setFs listed (Answers.open called).evolves⟩

theorem open_routes (routed : Routed ctx) {path : Path} {flags : Nat}
    {result : Option FileDescriptor} {next : VfsContext F}
    (opened : ctx.open path flags = some (result, next)) :
    Routed next ∧ Relocates ctx (.open path flags) (.opened result) next := by
  unfold «open» at opened
  split at opened
  · cases opened
    exact ⟨routed, relocates_of_entries_eq routed rfl (Vfs.Evolves.refl _) nofun nofun⟩
  rename_i mountIndex indexed
  split at opened
  · cases opened
  · cases opened
    rename_i inner dispatched
    obtain ⟨routedNext, evolved⟩ := openNone_routes routed dispatched
    exact ⟨routedNext, relocates_of_entries_eq routed rfl evolved nofun nofun⟩
  · rename_i descriptor inner dispatched
    obtain ⟨routedNext, evolved, entries⟩ := openThenRegister routed indexed dispatched opened
    refine ⟨routedNext, ?_⟩
    rcases entries with ⟨-, sameEntries⟩ | ⟨fd, fresh, rfl, appended⟩
    · exact relocates_of_entries_eq routed sameEntries evolved nofun nofun
    · exact relocates_of_register routed appended fresh evolved rfl rfl indexed

omit [Descriptors F] in
/-- The first block of `create` calls `exists` and maybe `create`: quiet. -/
theorem ensureFile_quiet {fs : F} {remaining : Path} {result : Except FsError Unit} {next : F}
    (ensured : ensureFile fs remaining = some (result, next)) : Quiet fs next := by
  unfold ensureFile at ensured
  split at ensured
  · cases ensured
  · cases ensured
    rename_i checked
    exact (PlainCall.exists checked).quiet
  · rename_i middle checked
    obtain ⟨⟨created, next'⟩, made, same⟩ := Option.map_eq_some_iff.mp ensured
    cases same
    exact Relation.ReflTransGen.tail (PlainCall.exists checked).quiet (PlainCall.create made)

theorem create_routes (routed : Routed ctx) {path : Path}
    {result : Except FsError FileDescriptor} {next : VfsContext F}
    (created : ctx.create path = some (result, next)) :
    Routed next ∧ Relocates ctx (.create path) (.created result) next := by
  unfold create at created
  split at created
  · cases created
    exact ⟨routed, relocates_of_entries_eq routed rfl (Vfs.Evolves.refl _) nofun nofun⟩
  rename_i mountIndex indexed
  split at created
  · cases created
  · cases created
    rename_i error inner ensured
    exact quiet_routes routed (Vfs.onRoute_quieted ensureFile_quiet ensured) nofun nofun
  rename_i inner ensured
  -- the file exists now, and the path is routed as before
  have quieted := Vfs.onRoute_quieted ensureFile_quiet ensured
  have routedMiddle := routed.quieted quieted
  have indexedMiddle : inner.findFsIndex path = some mountIndex := by
    rw [quieted.findFsIndex, indexed]
  split at created
  · cases created
  · cases created
    rename_i inner' dispatched
    obtain ⟨routedNext, evolved⟩ := openNone_routes routedMiddle dispatched
    exact ⟨routedNext, relocates_of_entries_eq routed rfl (quieted.evolves.trans evolved)
      nofun nofun⟩
  · rename_i descriptor inner' dispatched
    obtain ⟨⟨registeredDescriptor, next'⟩, registered, same⟩ := Option.map_eq_some_iff.mp created
    cases same
    obtain ⟨routedNext, evolved, entries⟩ :=
      openThenRegister routedMiddle indexedMiddle dispatched registered
    refine ⟨routedNext, ?_⟩
    rcases entries with ⟨rfl, sameEntries⟩ | ⟨fd, fresh, rfl, appended⟩
    · exact relocates_of_entries_eq routed sameEntries (quieted.evolves.trans evolved) nofun nofun
    · exact relocates_of_register routed appended fresh (quieted.evolves.trans evolved) rfl rfl
        indexed

/-! ## Closing -/

/-- A `close` whose entries are entries from before and that routes its
descriptor nowhere. -/
theorem relocates_of_close (routed : Routed ctx) {fd : Nat} {reply : Reply} {next : VfsContext F}
    (within : ∀ entry ∈ next.handleTable.entries, entry ∈ ctx.handleTable.entries)
    (evolved : ctx.inner.Evolves next.inner) (gone : next.handleTable.find fd = none) :
    Relocates ctx (.close fd) reply next where
  kept found := .inl (kept_of_mem routed within evolved found)
  closed same := by
    cases same
    exact gone
  unmounted same := by cases same

theorem close_routes (routed : Routed ctx) {fd : Nat} {result : Except FsError Unit}
    {next : VfsContext F} (closed : ctx.close fd = some (result, next)) :
    Routed next ∧ Relocates ctx (.close fd) (.status result) next := by
  unfold close at closed
  split at closed
  · rename_i handleTable taken
    cases closed
    have missing : ctx.handleTable.find fd = none := congrArg Prod.fst taken
    -- no entry has the descriptor, so `take` erases nothing
    have sameEntries : handleTable.entries = ctx.handleTable.entries := by
      rw [← congrArg (fun pair => pair.2.entries) taken]
      exact List.eraseP_of_forall_not fun entry member named =>
        HandleTable.find_eq_none_iff.mp missing entry member (beq_iff_eq.mp named)
    refine ⟨routed.withEntries sameEntries,
      relocates_of_close routed (fun _ member => sameEntries ▸ member) (Vfs.Evolves.refl _) ?_⟩
    rw [find_eq_of_entries_eq sameEntries]
    exact missing
  rename_i handle handleTable taken
  have found : ctx.handleTable.find fd = some handle := congrArg Prod.fst taken
  obtain ⟨entry, named, located, perm⟩ := HandleTable.take_perm routed.fdsDistinct found
  rw [taken] at perm
  -- the entry taken out is the only one with its descriptor and its location
  have fdsRest := List.nodup_cons.mp ((perm.map HandleEntry.fd).nodup_iff.mp routed.fdsDistinct)
  have locationsRest :=
    List.nodup_cons.mp ((perm.map HandleEntry.location).nodup_iff.mp routed.locationsDistinct)
  have within : ∀ other ∈ handleTable.entries, other ∈ ctx.handleTable.entries :=
    fun other member => perm.symm.subset (List.mem_cons_of_mem _ member)
  have gone : handleTable.find fd = none :=
    HandleTable.find_eq_none_iff.mpr fun other member same =>
      fdsRest.1 (named ▸ same ▸ List.mem_map_of_mem member)
  have routedRest : Routed { ctx with handleTable } :=
    ⟨routed.table, routed.sound, fdsRest.2, locationsRest.2,
      fun other member => routed.live other (within other member)⟩
  obtain ⟨⟨answer, inner⟩, called, same⟩ := Option.map_eq_some_iff.mp closed
  cases same
  rcases Vfs.atMount_eq_some called with ⟨-, -, rfl⟩ | ⟨mount, fs', listed, closing, rfl⟩
  · exact ⟨routedRest, relocates_of_close routed within (Vfs.Evolves.refl _) gone⟩
  obtain ⟨soundFs, others⟩ :=
    Descriptors.close (routed.sound mount (List.mem_of_getElem? listed)) closing
  refine ⟨routedRest.setFs listed soundFs ?_,
    relocates_of_close routed within (Vfs.Evolves.setFs listed (Answers.close closing).evolves) gone⟩
  -- the mount closes one local descriptor, routed by the entry taken out only
  intro other member atMount isOpen
  refine (others _ fun same => locationsRest.1 ?_).mpr isOpen
  have sameLocation : other.location = entry.location := by
    show HandleLocation.mk other.mountIndex other.localFd = _
    rw [atMount, same, located]
  exact sameLocation ▸ List.mem_map_of_mem member

/-! ## Mounting -/

/-- A new entry at a mount point in no entry, with a sound filesystem, keeps
the routes: the entries keep their indices below it. -/
theorem Routed.install (routed : Routed ctx) {mountPoint : Path}
    (normal : normalizePath mountPoint = mountPoint) (absent : mountPoint ∉ ctx.inner.mountPoints)
    {fs : F} (soundFs : Sound fs) : Routed { ctx with inner := ctx.inner.install mountPoint fs } where
  table := routed.table.install normal fs
  sound := by
    intro mount member
    rw [Vfs.install_of_not_mem absent] at member
    rcases List.mem_append.mp member with old | added
    · exact routed.sound mount old
    · rw [List.mem_singleton.mp added]
      exact soundFs
  fdsDistinct := routed.fdsDistinct
  locationsDistinct := routed.locationsDistinct
  live := by
    intro entry member
    obtain ⟨mount, listed, isOpen⟩ := routed.live entry member
    exact ⟨mount, Vfs.getElem?_install_of_not_mem absent fs listed, isOpen⟩

/-- `mount` refuses a mount point in use, so it never replaces a mounted
filesystem: it checks the mount point with a quiet `readdir` and maybe adds an
entry at the end. -/
theorem mount_routes (routed : Routed ctx) {mountPoint : Path} {fs : F}
    {result : Except FsError Unit} {next : VfsContext F}
    (mounted : ctx.mount mountPoint fs = some (result, next)) :
    (Sound fs → Routed next) ∧ Relocates ctx (.mount mountPoint fs) (.status result) next := by
  unfold mount at mounted
  split_ifs at mounted with inUse
  · cases mounted
    exact ⟨fun _ => routed, relocates_of_entries_eq routed rfl (Vfs.Evolves.refl _) nofun nofun⟩
  obtain ⟨inner, called, rfl⟩ := withInner_eq_some mounted
  obtain ⟨middle, quieted, absent, installed⟩ :=
    Vfs.mount_quieted (Vfs.not_mem_of_mountedFsIndex (Bool.eq_false_iff.mpr inUse)) called
  have routedMiddle := routed.quieted quieted
  rcases installed with rfl | rfl
  · exact ⟨fun _ => routedMiddle, relocates_of_entries_eq routed rfl quieted.evolves nofun nofun⟩
  · exact ⟨fun soundFs => routedMiddle.install (normalizePath_normalizePath mountPoint) absent soundFs,
      relocates_of_entries_eq routed rfl (quieted.evolves.trans (Vfs.Evolves.install absent fs))
        nofun nofun⟩

/-! ## Unmounting -/

section Unmount

variable {target : Nat}

/-- Dropping the mount at `target` together with the entries routed to it,
and moving the indices above it down, keeps the routes. -/
theorem Routed.dropMount (routed : Routed ctx)
    (table : ({ ctx.inner with mounts := ctx.inner.mounts.eraseIdx target } : Vfs F).MountTable) :
    Routed ⟨{ ctx.inner with mounts := ctx.inner.mounts.eraseIdx target },
      ctx.handleTable.dropMount target⟩ where
  table := table
  sound mount member := routed.sound mount (List.mem_of_mem_eraseIdx member)
  fdsDistinct := by
    rw [HandleTable.entries_dropMount, List.map_map]
    exact routed.fdsDistinct.sublist (List.filter_sublist.map _)
  locationsDistinct := by
    have kept := routed.locationsDistinct.sublist
      ((@List.filter_sublist _ (fun entry : HandleEntry => entry.mountIndex != target)
        ctx.handleTable.entries).map HandleEntry.location)
    rw [HandleTable.entries_dropMount, List.map_map]
    -- two kept entries at one moved location were at one location before
    refine List.Nodup.map_on ?_ kept.of_map
    intro first firstMember second secondMember same
    rw [List.mem_filter, bne_iff_ne] at firstMember secondMember
    simp only [Function.comp_apply, HandleEntry.location, HandleLocation.mk.injEq] at same
    have sameIndex := List.shiftDown_inj firstMember.2 secondMember.2 same.1
    refine List.inj_on_of_nodup_map kept (List.mem_filter.mpr ⟨firstMember.1, ?_⟩)
      (List.mem_filter.mpr ⟨secondMember.1, ?_⟩) ?_
    · exact bne_iff_ne.mpr firstMember.2
    · exact bne_iff_ne.mpr secondMember.2
    · show HandleLocation.mk first.mountIndex first.localFd = ⟨second.mountIndex, second.localFd⟩
      rw [sameIndex, same.2]
  live := by
    intro entry' member
    obtain ⟨entry, old, kept, rfl⟩ := HandleTable.mem_dropMount member
    obtain ⟨mount, listed, isOpen⟩ := routed.live entry old
    exact ⟨mount, (List.getElem?_eraseIdx_shiftDown _ kept).trans listed, isOpen⟩

/-- What `unmount` does to the routes when it removed the mount at `target`,
the one at the resolved mount point. -/
theorem relocates_of_dropMount (routed : Routed ctx) {mountPoint : Path} {mount : MountEntry F}
    (found : ctx.inner.mounts[target]? = some mount)
    (named : mount.mountPoint = ctx.inner.resolvePath mountPoint) :
    Relocates ctx (.unmount mountPoint) (.removed (.ok true))
      ⟨{ ctx.inner with mounts := ctx.inner.mounts.eraseIdx target },
        ctx.handleTable.dropMount target⟩ where
  kept := by
    -- a kept entry routes to the same mount, at its moved index
    intro fd handle' located
    obtain ⟨entry', member, rfl, rfl⟩ := HandleTable.exists_of_find_eq_some located
    obtain ⟨entry, old, kept, rfl⟩ := HandleTable.mem_dropMount member
    obtain ⟨mount', listed, -⟩ := routed.live entry old
    exact .inl ⟨entry.location, mount', mount', HandleTable.find_of_mem routed.fdsDistinct old, rfl,
      listed, (List.getElem?_eraseIdx_shiftDown _ kept).trans listed, rfl, .refl _⟩
  closed same := by cases same
  unmounted := by
    intro mountPoint' fd handle mount' same _ located listed' named'
    cases same
    -- the descriptor's mount has the removed mount point, so it sat at `target`
    have atTarget : handle.mountIndex = target :=
      routed.table.eq_of_mountPoint_eq listed' found (named'.trans named.symm)
    refine HandleTable.find_eq_none_iff.mpr fun entry' member same => ?_
    obtain ⟨entry, old, kept, rfl⟩ := HandleTable.mem_dropMount member
    have location := Option.some.inj
      ((HandleTable.find_of_mem routed.fdsDistinct old).symm.trans (same ▸ located))
    have atIndex : entry.mountIndex = handle.mountIndex := congrArg HandleLocation.mountIndex location
    exact kept (atIndex.trans atTarget)

end Unmount

theorem unmount_routes (routed : Routed ctx) (mountPoint : Path) :
    Routed (ctx.unmount mountPoint).2 ∧
      Relocates ctx (.unmount mountPoint) (.removed (ctx.unmount mountPoint).1)
        (ctx.unmount mountPoint).2 := by
  unfold unmount
  dsimp only
  split
  · exact ⟨routed, relocates_of_entries_eq routed rfl (Vfs.Evolves.refl _) nofun (by simp)⟩
  rename_i target indexed
  obtain ⟨mount, found, named⟩ := Vfs.mountedFsIndex_eq_some indexed
  rw [Vfs.resolvePath_normalized routed.table] at named
  rcases Vfs.unmount_of_mountedFsIndex routed.table indexed with refused | removed
  · -- the root is not unmounted
    rw [refused]
    exact ⟨routed, relocates_of_entries_eq routed rfl (Vfs.Evolves.refl _) nofun (by simp)⟩
  rw [removed]
  have table := Vfs.unmount_mountTable routed.table (ctx.inner.resolvePath mountPoint)
  rw [removed] at table
  exact ⟨routed.dropMount table, relocates_of_dropMount routed found named⟩

/-! ## Every call and every run -/

/-- A call whose filesystems answer quiet methods only. -/
theorem quieted_routes (routed : Routed ctx) {call : Call F} {reply : Reply} {next : VfsContext F}
    (quieted : ∃ inner, ctx.inner.Quieted inner ∧ next = { ctx with inner })
    (notClose : ∀ fd, call ≠ .close fd) (notUnmount : ∀ mountPoint, call ≠ .unmount mountPoint) :
    Routed next ∧ Relocates ctx call reply next := by
  obtain ⟨inner, quieted, rfl⟩ := quieted
  exact quiet_routes routed quieted notClose notUnmount

/-- One call keeps the invariant and moves the routes as `Relocates` says. -/
theorem step_routes (routed : Routed ctx) {call : Call F} (admissible : call.Admissible)
    {reply : Reply} {next : VfsContext F} (stepped : ctx.step call = some (reply, next)) :
    Routed next ∧ Relocates ctx call reply next := by
  cases call with
  | mount mountPoint fs =>
      obtain ⟨⟨result, next'⟩, mounted, ⟨⟩⟩ := Option.map_eq_some_iff.mp stepped
      exact (mount_routes routed mounted).imp (· admissible) id
  | unmount mountPoint =>
      cases stepped
      exact unmount_routes routed mountPoint
  | «open» path flags =>
      obtain ⟨⟨result, next'⟩, opened, ⟨⟩⟩ := Option.map_eq_some_iff.mp stepped
      exact open_routes routed opened
  | create path =>
      obtain ⟨⟨result, next'⟩, created, ⟨⟩⟩ := Option.map_eq_some_iff.mp stepped
      exact create_routes routed created
  | close fd =>
      obtain ⟨⟨result, next'⟩, closed, ⟨⟩⟩ := Option.map_eq_some_iff.mp stepped
      exact close_routes routed closed
  -- the other calls make quiet calls only, through the handle table or a path
  | read fd len =>
      obtain ⟨⟨result, next'⟩, answered, ⟨⟩⟩ := Option.map_eq_some_iff.mp stepped
      exact quieted_routes routed (atHandle_quieted (fun called =>
        Vfs.atMount_quieted (fun called => (PlainCall.read called).quiet) called) answered) nofun nofun
  | write fd data =>
      obtain ⟨⟨result, next'⟩, answered, ⟨⟩⟩ := Option.map_eq_some_iff.mp stepped
      exact quieted_routes routed (atHandle_quieted (fun called =>
        Vfs.atMount_quieted (fun called => (PlainCall.write called).quiet) called) answered) nofun nofun
  | seek fd pos =>
      obtain ⟨⟨result, next'⟩, answered, ⟨⟩⟩ := Option.map_eq_some_iff.mp stepped
      exact quieted_routes routed (atHandle_quieted (fun called =>
        Vfs.atMount_quieted (fun called => (PlainCall.seek called).quiet) called) answered) nofun nofun
  | seekFrom fd position =>
      obtain ⟨⟨result, next'⟩, answered, ⟨⟩⟩ := Option.map_eq_some_iff.mp stepped
      exact quieted_routes routed (seekFrom_quieted answered) nofun nofun
  | position fd =>
      obtain ⟨⟨result, next'⟩, answered, ⟨⟩⟩ := Option.map_eq_some_iff.mp stepped
      exact quieted_routes routed (atHandle_quieted (fun called =>
        Vfs.atMount_quieted (fun called => (PlainCall.position called).quiet) called) answered)
        nofun nofun
  | size fd =>
      obtain ⟨⟨result, next'⟩, answered, ⟨⟩⟩ := Option.map_eq_some_iff.mp stepped
      exact quieted_routes routed (atHandle_quieted (fun called =>
        Vfs.atMount_quieted (fun called => (PlainCall.size called).quiet) called) answered) nofun nofun
  | mkdir path =>
      obtain ⟨⟨result, next'⟩, answered, ⟨⟩⟩ := Option.map_eq_some_iff.mp stepped
      obtain ⟨inner, called, rfl⟩ := withInner_eq_some answered
      exact quiet_routes routed
        (Vfs.onRoute_quieted (fun called => (PlainCall.mkdir called).quiet) called) nofun nofun
  | unlink path =>
      obtain ⟨⟨result, next'⟩, answered, ⟨⟩⟩ := Option.map_eq_some_iff.mp stepped
      obtain ⟨inner, called, rfl⟩ := withInner_eq_some answered
      exact quiet_routes routed
        (Vfs.onRoute_quieted (fun called => (PlainCall.unlink called).quiet) called) nofun nofun

/-- Descriptor routing over runs: from a sound root, along every run of calls
that mount sound filesystems only, the routes keep their invariant, and every
further call moves them as `Relocates` says. -/
theorem routes_of_run {rootFs : F} (rootSound : Sound rootFs) {calls : List (Call F)}
    (admissible : ∀ call ∈ calls, call.Admissible) {replies : List Reply} {final : VfsContext F}
    (ran : (machine rootFs).run (new rootFs) calls = some (replies, final)) :
    Routed final ∧ ∀ {call : Call F}, call.Admissible → ∀ {reply : Reply} {next : VfsContext F},
      final.step call = some (reply, next) → Relocates final call reply next := by
  have routedFinal : Routed final :=
    (machine rootFs).run_invariant (fun allowed routed stepped => (step_routes routed allowed stepped).1)
      admissible (new_routed rootSound) ran
  exact ⟨routedFinal, fun allowed _ _ stepped => (step_routes routedFinal allowed stepped).2⟩

/-- A run that makes `/mnt`, mounts a second filesystem there, and creates and opens `/mnt/f` in
it ends routed, and each further call relocates as the model says. -/
theorem routes_of_run_after_mount :
    ∃ replies final, (machine MemFileSystem.new).run (new MemFileSystem.new)
        [.mkdir "/mnt".toList, .mount "/mnt".toList MemFileSystem.new, .create "/mnt/f".toList,
          .open "/mnt/f".toList 0] = some (replies, final) ∧
      replies.take 2 = [.status (.ok ()), .status (.ok ())] ∧ final.inner.mounts.length = 2 ∧
      (Routed final ∧ ∀ {call : Call MemFileSystem}, call.Admissible →
        ∀ {reply : Reply} {next : VfsContext MemFileSystem},
          final.step call = some (reply, next) → Relocates final call reply next) :=
  ⟨_, _, rfl, rfl, rfl, routes_of_run MemFileSystem.new_consistent
    (fun call member => by
      rcases List.mem_cons.mp member with rfl | member
      · trivial
      rcases List.mem_cons.mp member with rfl | member
      · exact MemFileSystem.new_consistent
      rcases List.mem_cons.mp member with rfl | member
      · trivial
      rcases List.mem_cons.mp member with rfl | member
      · trivial
      · cases member)
    (rfl : (machine MemFileSystem.new).run (new MemFileSystem.new)
      [.mkdir "/mnt".toList, .mount "/mnt".toList MemFileSystem.new, .create "/mnt/f".toList,
        .open "/mnt/f".toList 0] = some (_, _))⟩

end VfsContext

end Fullerene.Kernel.Contexts
