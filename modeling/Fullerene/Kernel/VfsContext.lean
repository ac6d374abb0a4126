import Fullerene.Genome.Vfs.Methods
import Fullerene.Lib.Slots
import Fullerene.Lib.Machine

/-!
# The kernel's `VfsContext`

`VfsContext` (`contexts/vfs.rs`) puts the `Vfs` dispatcher behind one
context and numbers the descriptors it hands out itself.  Its handle table
maps every VFS-global descriptor to the index of the mount that opened it
and that mount's own, local, descriptor.  Local descriptors of two mounts
may be equal; global ones come from a `u32` counter that wraps around and
skips the numbers in use (`allocate_fd`).

Mount indices are positions in the mount table, so `unmount` drops the
entries of the mount it removes and moves those above it down by one, in
step with the `retain` of `Vfs::unmount` (`HandleTable.dropMount`).

The locks only order the accesses, and every method is one step.  The record
of mounted block devices and the trace messages are not modelled.  `new`
takes the root filesystem, which is `MemFileSystem::new()` in the source.
-/

namespace Fullerene.Kernel.Contexts

open Genome

/-- `struct HandleLocation`. -/
structure HandleLocation where
  mountIndex : Nat
  localFd : Nat
  deriving DecidableEq, Repr

/-- `struct HandleEntry`. -/
structure HandleEntry where
  fd : Nat
  mountIndex : Nat
  localFd : Nat
  deriving DecidableEq, Repr

/-- Where an entry routes its descriptor. -/
def HandleEntry.location (entry : HandleEntry) : HandleLocation :=
  ⟨entry.mountIndex, entry.localFd⟩

/-- `struct HandleTable`; `next_fd` is a `u32`. -/
structure HandleTable where
  entries : List HandleEntry
  nextFd : Nat
  deriving DecidableEq, Repr

namespace HandleTable

/-- `HandleTable::new`. -/
def new : HandleTable := ⟨[], 0⟩

/-- The loop of `allocate_fd` at counter value `nextFd` with `turns` turns
left: take the counter, advance it with `wrapping_add(1)`, and stop at a
number that no entry uses, or when the counter is back at `start`. -/
def allocateFdLoop (entries : List HandleEntry) (start : Nat) : Nat → Nat → Option Nat × Nat
  | 0, nextFd => (none, nextFd)
  | turns + 1, nextFd =>
      let candidate := nextFd
      let nextFd := (nextFd + 1) % 2 ^ 32
      if entries.all fun entry => entry.fd != candidate then (some candidate, nextFd)
      else if nextFd = start then (none, nextFd)
      else allocateFdLoop entries start turns nextFd

/-- `allocate_fd`.  The counter is back at its start after `2 ^ 32` turns, so
the loop never runs out of turns. -/
def allocateFd (table : HandleTable) : Option Nat × HandleTable :=
  let looped := allocateFdLoop table.entries table.nextFd (2 ^ 32) table.nextFd
  (looped.1, { table with nextFd := looped.2 })

/-- `insert`: a fresh global descriptor routed to the local one at
`mountIndex`; the reply is the descriptor with the global number. -/
def insert (table : HandleTable) (descriptor : FileDescriptor) (mountIndex : Nat) :
    Option FileDescriptor × HandleTable :=
  match table.allocateFd with
  | (none, table) => (none, table)
  | (some fd, table) =>
      (some { descriptor with fd },
        { table with entries := table.entries ++ [⟨fd, mountIndex, descriptor.fd⟩] })

/-- `find`: the location of the first entry for `fd`. -/
def find (table : HandleTable) (fd : Nat) : Option HandleLocation :=
  (table.entries.find? fun entry => entry.fd == fd).map HandleEntry.location

/-- `take`: `position` and `remove`, that is the location `find` gives and
the entries without the first one for `fd`. -/
def take (table : HandleTable) (fd : Nat) : Option HandleLocation × HandleTable :=
  (table.find fd, { table with entries := table.entries.eraseP fun entry => entry.fd == fd })

/-- The handle-table part of `VfsContext::unmount` once the mount at `target`
is gone: its entries are dropped (`retain`) and the indices above it move
down by one. -/
def dropMount (table : HandleTable) (target : Nat) : HandleTable :=
  { table with
    entries := (table.entries.filter fun entry => entry.mountIndex != target).map fun entry =>
      if entry.mountIndex > target then { entry with mountIndex := entry.mountIndex - 1 } else entry }

/-! ### Lemmas -/

variable {table : HandleTable}

/-- The number `allocate_fd` returns is used by no entry. -/
theorem allocateFdLoop_fresh {entries : List HandleEntry} {start fd : Nat} :
    ∀ {turns nextFd : Nat}, (allocateFdLoop entries start turns nextFd).1 = some fd →
      ∀ entry ∈ entries, entry.fd ≠ fd
  | 0, _, looped => by cases looped
  | turns + 1, nextFd, looped => by
      simp only [allocateFdLoop] at looped
      split_ifs at looped with free
      · cases looped
        intro entry member same
        have differs := List.all_eq_true.mp free entry member
        rw [same, bne_self_eq_false] at differs
        cases differs
      · exact allocateFdLoop_fresh looped

theorem allocateFd_fresh {fd : Nat} (allocated : table.allocateFd.1 = some fd) :
    ∀ entry ∈ table.entries, entry.fd ≠ fd :=
  allocateFdLoop_fresh allocated

/-- `insert` fails and keeps the entries, or appends an entry under a global
descriptor that no entry uses and replies with the descriptor renumbered. -/
theorem insert_cases {descriptor : FileDescriptor} {mountIndex : Nat}
    {result : Option FileDescriptor} {next : HandleTable}
    (inserted : table.insert descriptor mountIndex = (result, next)) :
    (result = none ∧ next.entries = table.entries) ∨
      ∃ fd, (∀ entry ∈ table.entries, entry.fd ≠ fd) ∧ result = some { descriptor with fd } ∧
        next.entries = table.entries ++ [⟨fd, mountIndex, descriptor.fd⟩] := by
  -- `allocate_fd` changes the counter only
  rcases allocated : table.allocateFd with ⟨_ | fd, allocatedTable⟩ <;>
    have sameEntries : allocatedTable.entries = table.entries :=
      (congrArg (fun pair => pair.2.entries) allocated).symm <;>
    simp only [insert, allocated, Prod.mk.injEq] at inserted <;>
    obtain ⟨rfl, rfl⟩ := inserted
  · exact .inl ⟨rfl, sameEntries⟩
  · refine .inr ⟨fd, allocateFd_fresh (by rw [allocated]), rfl, ?_⟩
    rw [sameEntries]

theorem exists_of_find_eq_some {fd : Nat} {handle : HandleLocation}
    (found : table.find fd = some handle) :
    ∃ entry ∈ table.entries, entry.fd = fd ∧ entry.location = handle := by
  obtain ⟨entry, first, rfl⟩ := Option.map_eq_some_iff.mp found
  have matched := List.find?_some first
  exact ⟨entry, List.mem_of_find?_eq_some first, beq_iff_eq.mp matched, rfl⟩

theorem find_eq_none_iff {fd : Nat} : table.find fd = none ↔ ∀ entry ∈ table.entries, entry.fd ≠ fd := by
  simp [find]

/-- With distinct global descriptors, `find` gives the location of the one
entry for the descriptor. -/
theorem find_of_mem (distinct : (table.entries.map HandleEntry.fd).Nodup) {entry : HandleEntry}
    (member : entry ∈ table.entries) : table.find entry.fd = some entry.location := by
  have present : (table.entries.find? fun candidate => candidate.fd == entry.fd).isSome :=
    List.find?_isSome.mpr ⟨entry, member, beq_self_eq_true _⟩
  obtain ⟨first, found⟩ := Option.isSome_iff_exists.mp present
  have matched := List.find?_some found
  -- global descriptors are distinct, so the first entry for it is the entry
  have same : first = entry := List.inj_on_of_nodup_map distinct
    (List.mem_of_find?_eq_some found) member (beq_iff_eq.mp matched)
  simp [find, found, same]

/-- With distinct global descriptors, `take` removes the one entry that `find`
locates. -/
theorem take_perm (distinct : (table.entries.map HandleEntry.fd).Nodup) {fd : Nat}
    {handle : HandleLocation} (found : table.find fd = some handle) :
    ∃ entry, entry.fd = fd ∧ entry.location = handle ∧
      table.entries.Perm (entry :: (table.take fd).2.entries) := by
  obtain ⟨entry, member, named, located⟩ := exists_of_find_eq_some found
  obtain ⟨first, before, after, -, matched, split, erased⟩ :=
    @List.exists_of_eraseP _ (fun candidate => candidate.fd == fd) _ _ member (beq_iff_eq.mpr named)
  -- the first entry for `fd` is the one `find` gives
  have same : first = entry := List.inj_on_of_nodup_map distinct (by simp [split]) member
    ((beq_iff_eq.mp matched).trans named.symm)
  refine ⟨entry, named, located, ?_⟩
  show table.entries.Perm (entry :: table.entries.eraseP _)
  rw [erased, ← same, split]
  exact List.perm_middle

theorem entries_dropMount (table : HandleTable) (target : Nat) :
    (table.dropMount target).entries =
      (table.entries.filter fun entry => entry.mountIndex != target).map fun entry =>
        { entry with mountIndex := List.shiftDown target entry.mountIndex } := by
  apply List.map_congr_left
  intro entry _
  unfold List.shiftDown
  split_ifs <;> rfl

/-- An entry after `dropMount` is an entry from before, of another mount, with
its index moved down. -/
theorem mem_dropMount {target : Nat} {entry' : HandleEntry}
    (member : entry' ∈ (table.dropMount target).entries) :
    ∃ entry ∈ table.entries, entry.mountIndex ≠ target ∧
      entry' = { entry with mountIndex := List.shiftDown target entry.mountIndex } := by
  rw [entries_dropMount, List.mem_map] at member
  obtain ⟨entry, kept, rfl⟩ := member
  rw [List.mem_filter, bne_iff_ne] at kept
  exact ⟨entry, kept.1, kept.2, rfl⟩

end HandleTable

/-- `struct VfsContext`, without the record of mounted block devices. -/
structure VfsContext (F : Type) where
  inner : Vfs F
  handleTable : HandleTable

/-- `genome::io::SeekFrom`: an offset from the start is a `u64`, the others
are `i64`. -/
inductive SeekFrom
  | start (offset : UInt64)
  | current (offset : Int)
  | «end» (offset : Int)
  deriving DecidableEq, Repr

namespace VfsContext

variable {F : Type} (ctx : VfsContext F)

/-- `VfsContext::new` with the given root filesystem. -/
def new (rootFs : F) : VfsContext F :=
  ⟨Vfs.new rootFs, HandleTable.new⟩

/-- A dispatcher method called through the context; the handle table stays. -/
def withInner {α : Type} (operate : Vfs F → Option (α × Vfs F)) : Option (α × VfsContext F) :=
  (operate ctx.inner).map fun (result, inner) => (result, { ctx with inner })

/-- The head of `read`, `write`, `seek`, `position` and `size`: the location
of `fd`, or `InvalidFileDescriptor`, and the dispatcher's method there. -/
def atHandle {α : Type} (fd : Nat)
    (operate : Vfs F → HandleLocation → Option (Except FsError α × Vfs F)) :
    Option (Except FsError α × VfsContext F) :=
  match ctx.handleTable.find fd with
  | none => some (.error .invalidFileDescriptor, ctx)
  | some handle => ctx.withInner fun vfs => operate vfs handle

/-- `unmount`, without the return of block-device leases. -/
def unmount (mountPoint : Path) : Except FsError Bool × VfsContext F :=
  let mountPoint := ctx.inner.resolvePath mountPoint
  match ctx.inner.mountedFsIndex mountPoint with
  | none => (.ok false, ctx)
  | some targetIdx =>
      match ctx.inner.unmount mountPoint with
      | (.error error, inner) => (.error error, { ctx with inner })
      | (.ok removed, inner) =>
          (.ok removed,
            { inner,
              handleTable :=
                if removed then ctx.handleTable.dropMount targetIdx else ctx.handleTable })

variable [FileSystem F]

/-- `mount`: a mount point in use is refused before the dispatcher sees it. -/
def mount (mountPoint : Path) (fs : F) : Option (Except FsError Unit × VfsContext F) :=
  if (ctx.inner.mountedFsIndex mountPoint).isSome then some (.error .fileExists, ctx)
  else ctx.withInner fun vfs => vfs.mount mountPoint fs

/-- `register_handle`: a descriptor the table cannot number is closed again. -/
def registerHandle (mountIndex : Nat) (descriptor : FileDescriptor) :
    Option (Option FileDescriptor × VfsContext F) :=
  match ctx.handleTable.insert descriptor mountIndex with
  | (some registered, handleTable) => some (some registered, { ctx with handleTable })
  | (none, handleTable) =>
      (ctx.inner.closeAt mountIndex descriptor.fd).map fun (_, inner) =>
        (none, { inner, handleTable })

/-- `open`. -/
def «open» (path : Path) (flags : Nat) : Option (Option FileDescriptor × VfsContext F) :=
  match ctx.inner.findFsIndex path with
  | none => some (none, ctx)
  | some mountIndex =>
      match ctx.inner.open path flags with
      | none => none
      | some (none, inner) => some (none, { ctx with inner })
      | some (some descriptor, inner) => { ctx with inner }.registerHandle mountIndex descriptor

/-- `read` into a buffer of `len` bytes. -/
def read (fd len : Nat) : Option (Except FsError (List UInt8) × VfsContext F) :=
  ctx.atHandle fd fun vfs handle => vfs.readAt handle.mountIndex handle.localFd len

/-- `write`. -/
def write (fd : Nat) (data : List UInt8) : Option (Except FsError Nat × VfsContext F) :=
  ctx.atHandle fd fun vfs handle => vfs.writeAt handle.mountIndex handle.localFd data

/-- `seek`. -/
def seek (fd : Nat) (pos : UInt64) : Option (Except FsError Unit × VfsContext F) :=
  ctx.atHandle fd fun vfs handle => vfs.seekAt handle.mountIndex handle.localFd pos

/-- `position`. -/
def position (fd : Nat) : Option (Except FsError Nat × VfsContext F) :=
  ctx.atHandle fd fun vfs handle => vfs.positionAt handle.mountIndex handle.localFd

/-- `size`. -/
def size (fd : Nat) : Option (Except FsError Nat × VfsContext F) :=
  ctx.atHandle fd fun vfs handle => vfs.sizeAt handle.mountIndex handle.localFd

/-- `close`: the entry goes (`take`) before the mount closes the local
descriptor. -/
def close (fd : Nat) : Option (Except FsError Unit × VfsContext F) :=
  match ctx.handleTable.take fd with
  | (none, handleTable) => some (.error .invalidFileDescriptor, { ctx with handleTable })
  | (some handle, handleTable) =>
      (ctx.inner.closeAt handle.mountIndex handle.localFd).map fun (result, inner) =>
        (result, { inner, handleTable })

/-- The target of `seek_from` before its range check: the `u64` offset from
the start, or the position or the size plus the signed offset, `none` when
that leaves the `u64` range. -/
def seekBase (vfs : Vfs F) (handle : HandleLocation) :
    SeekFrom → Option (Except FsError (Option Nat) × Vfs F)
  | .start offset => some (.ok (some offset.toNat), vfs)
  | .current offset =>
      (vfs.positionAt handle.mountIndex handle.localFd).map fun (result, vfs) =>
        (result.map fun base => Word.checkedAddSigned 64 base offset, vfs)
  | .end offset =>
      (vfs.sizeAt handle.mountIndex handle.localFd).map fun (result, vfs) =>
        (result.map fun base => Word.checkedAddSigned 64 base offset, vfs)

/-- `seek_from`. -/
def seekFrom (fd : Nat) (position : SeekFrom) : Option (Except FsError Nat × VfsContext F) :=
  match ctx.handleTable.find fd with
  | none => some (.error .invalidFileDescriptor, ctx)
  | some handle =>
      match seekBase ctx.inner handle position with
      | none => none
      | some (.error error, inner) => some (.error error, { ctx with inner })
      | some (.ok none, inner) => some (.error .invalidSeek, { ctx with inner })
      | some (.ok (some absolute), inner) =>
          (inner.seekAt handle.mountIndex handle.localFd (UInt64.ofNat absolute)).map
            fun (result, inner) => (result.map fun _ => absolute, { ctx with inner })

/-- The first block of `create`: make the file unless the path exists. -/
def ensureFile (fs : F) (remaining : Path) : Option (Except FsError Unit × F) :=
  match FileSystem.exists fs remaining with
  | none => none
  | some (true, fs) => some (.ok (), fs)
  | some (false, fs) =>
      (FileSystem.create fs remaining .file).map fun (created, fs) =>
        (if created.isSome then .ok () else .error .permissionDenied, fs)

/-- `create`.  Both blocks route the path resolved once; the first changes
no mount point and not the working directory, so the second routes it the
same way (`Vfs.findFsIndex_setFs`). -/
def create (path : Path) : Option (Except FsError FileDescriptor × VfsContext F) :=
  match ctx.inner.findFsIndex path with
  | none => some (.error .fileNotFound, ctx)
  | some mountIndex =>
      match ctx.inner.withFsResult path ensureFile with
      | none => none
      | some (.error error, inner) => some (.error error, { ctx with inner })
      | some (.ok (), inner) =>
          match inner.open path 0 with
          | none => none
          | some (none, inner) => some (.error .fileNotFound, { ctx with inner })
          | some (some descriptor, inner) =>
              ({ ctx with inner }.registerHandle mountIndex descriptor).map fun (registered, ctx) =>
                (match registered with
                  | some descriptor => .ok descriptor
                  | none => .error .permissionDenied, ctx)

/-- `mkdir`. -/
def mkdir (path : Path) : Option (Except FsError Unit × VfsContext F) :=
  ctx.withInner fun vfs => vfs.mkdir path

/-- `unlink`. -/
def unlink (path : Path) : Option (Except FsError Unit × VfsContext F) :=
  ctx.withInner fun vfs => vfs.unlink path

/-- `readdir`. -/
def readdir (path : Path) : Option (Except FsError (List VNode) × VfsContext F) :=
  ctx.withInner fun vfs => vfs.readdir path

/-- `exists`. -/
def «exists» (path : Path) : Option (Bool × VfsContext F) :=
  ctx.withInner fun vfs => vfs.exists path

/-! ## The context as a machine -/

/-- A call of the descriptor-routing methods of `VfsContext`. -/
inductive Call (F : Type)
  | mount (mountPoint : Path) (fs : F)
  | unmount (mountPoint : Path)
  | «open» (path : Path) (flags : Nat)
  | create (path : Path)
  | close (fd : Nat)
  | read (fd len : Nat)
  | write (fd : Nat) (data : List UInt8)
  | seek (fd : Nat) (pos : UInt64)
  | seekFrom (fd : Nat) (position : SeekFrom)
  | position (fd : Nat)
  | size (fd : Nat)
  | mkdir (path : Path)
  | unlink (path : Path)

/-- The value such a call returns. -/
inductive Reply
  | status (result : Except FsError Unit)
  | removed (result : Except FsError Bool)
  | opened (result : Option FileDescriptor)
  | created (result : Except FsError FileDescriptor)
  | bytes (result : Except FsError (List UInt8))
  | count (result : Except FsError Nat)

/-- One call; `none` when it panics. -/
def step : Call F → Option (Reply × VfsContext F)
  | .mount mountPoint fs =>
      (ctx.mount mountPoint fs).map fun (result, next) => (.status result, next)
  | .unmount mountPoint => some (.removed (ctx.unmount mountPoint).1, (ctx.unmount mountPoint).2)
  | .open path flags => (ctx.open path flags).map fun (result, next) => (.opened result, next)
  | .create path => (ctx.create path).map fun (result, next) => (.created result, next)
  | .close fd => (ctx.close fd).map fun (result, next) => (.status result, next)
  | .read fd len => (ctx.read fd len).map fun (result, next) => (.bytes result, next)
  | .write fd data => (ctx.write fd data).map fun (result, next) => (.count result, next)
  | .seek fd pos => (ctx.seek fd pos).map fun (result, next) => (.status result, next)
  | .seekFrom fd position =>
      (ctx.seekFrom fd position).map fun (result, next) => (.count result, next)
  | .position fd => (ctx.position fd).map fun (result, next) => (.count result, next)
  | .size fd => (ctx.size fd).map fun (result, next) => (.count result, next)
  | .mkdir path => (ctx.mkdir path).map fun (result, next) => (.status result, next)
  | .unlink path => (ctx.unlink path).map fun (result, next) => (.status result, next)

/-- `VfsContext` from `new` with the given root filesystem. -/
def machine (rootFs : F) : Machine (VfsContext F) (Call F) Reply :=
  ⟨new rootFs, fun ctx => ctx.step⟩

end VfsContext

end Fullerene.Kernel.Contexts
