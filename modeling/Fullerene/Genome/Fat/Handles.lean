import Fullerene.Genome.Descriptors
import Fullerene.Lib.Machine

/-!
# The descriptor tables of the FAT and exFAT filesystems

`FatFileSystem` and `ExFatFileSystem` keep their open files as a list of
handles, each under a descriptor number, and number them from a `u32` counter
`next_fd` that starts at `1`.  `FatFileSystem::open` takes the counter and
advances it with `+=`; the kernel is built with the `dev` profile, whose
overflow checks make that a panic past `u32::MAX` rather than a wrap.
`ExFatFileSystem::next_descriptor` scans from the counter with `wrapping_add`
for a number that no handle holds, skipping `0`.

Only the descriptor bookkeeping is modelled.  The mounted volume `V` answers
whether `open` finds a path and is not changed by `open` and `close`.  Over
every run of `open` and `close` the descriptors of the open handles stay
pairwise distinct (and nonzero for exFAT), and `open` returns none of them
(`descriptors_unique`, where `MemFileSystem` follows from its descriptor
discipline).
-/

namespace Fullerene.Genome

/-- The calls that open and close descriptors. -/
inductive HandleCall
  | «open» (path : Path) (flags : Nat)
  | close (fd : Nat)

/-- What `open` and `close` return. -/
inductive HandleReply
  | descriptor (result : Option FileDescriptor)
  | status (result : Except FsError Unit)

/-! ## FAT -/

/-- `FatFileSystem`: the volume, the descriptor counter and the open handles
`(fd, path, offset)`; the directory caches are left out. -/
structure FatFileSystem (V : Type) where
  inner : V
  nextFd : Nat
  handles : List (Nat × Path × Nat)

namespace FatFileSystem

variable {V : Type} (openFile : V → Path → Bool)

/-- `FatFileSystem::new` once the volume is mounted. -/
def new (inner : V) : FatFileSystem V :=
  ⟨inner, 1, []⟩

/-- `open`: `open_file(path).ok()?`, then the counter is the descriptor. -/
def «open» (fs : FatFileSystem V) (path : Path) (flags : Nat) :
    Option (Option FileDescriptor × FatFileSystem V) :=
  if openFile fs.inner path then
    match Word.checkedAdd 32 fs.nextFd 1 with
    | none => none
    | some nextFd =>
        some (some ⟨fs.nextFd, 0, 0, flags⟩,
          { fs with nextFd, handles := fs.handles ++ [(fs.nextFd, path, 0)] })
  else some (none, fs)

/-- `close`: remove the first handle under `fd`. -/
def close (fs : FatFileSystem V) (fd : Nat) : Except FsError Unit × FatFileSystem V :=
  match fs.handles.findIdx? (·.1 == fd) with
  | none => (.error .invalidFileDescriptor, fs)
  | some position => (.ok (), { fs with handles := fs.handles.eraseIdx position })

/-- One call; `none` when it panics. -/
def step (fs : FatFileSystem V) : HandleCall → Option (HandleReply × FatFileSystem V)
  | .open path flags => (fs.open openFile path flags).map fun (result, next) => (.descriptor result, next)
  | .close fd => some (.status (fs.close fd).1, (fs.close fd).2)

/-- `FatFileSystem` mounted on `inner`. -/
def machine (inner : V) : Machine (FatFileSystem V) HandleCall HandleReply :=
  ⟨new inner, step openFile⟩

/-- The descriptors of the open handles. -/
def descriptors (fs : FatFileSystem V) : List Nat :=
  fs.handles.map (·.1)

/-- The descriptors of the open handles are distinct and below the counter. -/
structure Numbered (fs : FatFileSystem V) : Prop where
  nodup : fs.descriptors.Nodup
  below : ∀ fd ∈ fs.descriptors, fd < fs.nextFd

variable {openFile} {fs next : FatFileSystem V}

theorem new_numbered (inner : V) : Numbered (new inner) :=
  ⟨List.nodup_nil, fun _ member => by cases member⟩

/-- `open` returns the counter, which no open handle holds, and opens it. -/
theorem open_fresh (numbered : Numbered fs) {path : Path} {flags : Nat} {desc : FileDescriptor}
    (opened : fs.open openFile path flags = some (some desc, next)) :
    desc.fd ∉ fs.descriptors ∧ Numbered next := by
  unfold FatFileSystem.open at opened
  split_ifs at opened
  · split at opened
    · cases opened
    rename_i nextFd advanced
    obtain ⟨fits, rfl⟩ := Word.checkedAdd_eq_some_iff.mp advanced
    simp only [Option.some.injEq, Prod.mk.injEq] at opened
    obtain ⟨rfl, rfl⟩ := opened
    have fresh : fs.nextFd ∉ fs.descriptors := fun member => (numbered.below _ member).false
    refine ⟨fresh, ?_, ?_⟩
    · simpa [descriptors] using numbered.nodup.concat fresh
    · -- the handles before are below the old counter, the new one is the old counter
      simp only [descriptors, List.map_append, List.map_cons, List.map_nil, List.mem_append,
        List.mem_singleton]
      rintro fd (member | rfl)
      · exact Nat.lt_succ_of_lt (numbered.below fd member)
      · exact Nat.lt_succ_self _
  · cases opened

/-- `close` keeps a sublist of the handles. -/
theorem close_numbered (numbered : Numbered fs) (fd : Nat) : Numbered (fs.close fd).2 := by
  unfold close
  split
  · exact numbered
  · rename_i position _
    have kept : (fs.handles.eraseIdx position).map (·.1) |>.Sublist fs.descriptors :=
      (List.eraseIdx_sublist _ _).map _
    exact ⟨numbered.nodup.sublist kept, fun fd member => numbered.below fd (kept.subset member)⟩

theorem step_numbered (numbered : Numbered fs) {call : HandleCall} {reply : HandleReply}
    (stepped : fs.step openFile call = some (reply, next)) : Numbered next := by
  cases call with
  | «open» path flags =>
      obtain ⟨⟨result, opened⟩, found, equal⟩ := Option.map_eq_some_iff.mp stepped
      obtain ⟨-, rfl⟩ := Prod.mk.inj equal
      cases result with
      | none =>
          unfold FatFileSystem.open at found
          split_ifs at found
          · split at found
            · cases found
            · cases (Prod.mk.inj (Option.some.inj found)).1
          · obtain ⟨-, rfl⟩ := Prod.mk.inj (Option.some.inj found)
            exact numbered
      | some desc => exact (open_fresh numbered found).2
  | close fd =>
      obtain ⟨-, rfl⟩ := Prod.mk.inj (Option.some.inj stepped)
      exact close_numbered numbered fd

theorem numbered_inductive (inner : V) : (machine openFile inner).Inductive Numbered where
  init := new_numbered inner
  step := fun numbered stepped => step_numbered numbered stepped

end FatFileSystem

/-! ## exFAT -/

/-- A handle of `ExFatFileSystem`: its descriptor, the directory entry of its
file and its offset; the reader and the writer are left out. -/
structure ExFatHandle (E : Type) where
  fd : Nat
  entry : E
  offset : Nat

/-- `ExFatFileSystem`: the volume, the open handles and the descriptor
counter; the device, the metadata cache and the directory caches are left
out. -/
structure ExFatFileSystem (V E : Type) where
  inner : V
  handles : List (ExFatHandle E)
  nextFd : Nat

namespace ExFatFileSystem

variable {V E : Type} (openPath : V → Path → Option E)

/-- `ExFatFileSystem::new` once the volume is mounted. -/
def new (inner : V) : ExFatFileSystem V E :=
  ⟨inner, [], 1⟩

/-- The rounds of `next_descriptor`: take the counter (at least `1`), advance
it with `wrapping_add(1)` (again at least `1`), and stop at a number that no
handle holds. -/
def nextDescriptorLoop : Nat → ExFatFileSystem V E → Option (Nat × ExFatFileSystem V E)
  | 0, _ => none
  | fuel + 1, fs =>
      let fd := max fs.nextFd 1
      let fs := { fs with nextFd := max ((fd + 1) % 2 ^ 32) 1 }
      if fs.handles.all fun handle => handle.fd != fd then some (fd, fs)
      else nextDescriptorLoop fuel fs

/-- `next_descriptor`.  The loop runs until it finds a free number; within
`2 ^ 32` rounds it has tried every number, so `none` is a loop that never
ends. -/
def nextDescriptor (fs : ExFatFileSystem V E) : Option (Nat × ExFatFileSystem V E) :=
  nextDescriptorLoop (2 ^ 32) fs

/-- `open`: `open_path(path).ok()?` and a reader for the entry, then a fresh
descriptor. -/
def «open» (fs : ExFatFileSystem V E) (path : Path) (flags : Nat) :
    Option (Option FileDescriptor × ExFatFileSystem V E) :=
  match openPath fs.inner path with
  | none => some (none, fs)
  | some entry =>
      fs.nextDescriptor.map fun (fd, fs) =>
        (some ⟨fd, 0, 0, flags⟩, { fs with handles := fs.handles ++ [⟨fd, entry, 0⟩] })

/-- `close`: `handle_index` and `remove`.  A handle that `open` made has no
writer, so there is nothing to finish. -/
def close (fs : ExFatFileSystem V E) (fd : Nat) : Except FsError Unit × ExFatFileSystem V E :=
  match fs.handles.findIdx? (·.fd == fd) with
  | none => (.error .invalidFileDescriptor, fs)
  | some index => (.ok (), { fs with handles := fs.handles.eraseIdx index })

/-- One call; `none` when it does not return. -/
def step (fs : ExFatFileSystem V E) : HandleCall → Option (HandleReply × ExFatFileSystem V E)
  | .open path flags => (fs.open openPath path flags).map fun (result, next) => (.descriptor result, next)
  | .close fd => some (.status (fs.close fd).1, (fs.close fd).2)

/-- `ExFatFileSystem` mounted on `inner`. -/
def machine (inner : V) : Machine (ExFatFileSystem V E) HandleCall HandleReply :=
  ⟨new inner, step openPath⟩

/-- The descriptors of the open handles. -/
def descriptors (fs : ExFatFileSystem V E) : List Nat :=
  fs.handles.map (·.fd)

/-- The descriptors of the open handles are distinct and nonzero. -/
structure Numbered (fs : ExFatFileSystem V E) : Prop where
  nodup : fs.descriptors.Nodup
  nonzero : 0 ∉ fs.descriptors

variable {openPath} {fs next : ExFatFileSystem V E}

theorem new_numbered (inner : V) : Numbered (new inner : ExFatFileSystem V E) :=
  ⟨List.nodup_nil, fun member => by cases member⟩

/-- The number `next_descriptor` returns is nonzero and held by no handle; the
scan moves the counter only. -/
theorem nextDescriptorLoop_fresh {fd : Nat} :
    ∀ {fuel : Nat} {fs next : ExFatFileSystem V E}, nextDescriptorLoop fuel fs = some (fd, next) →
      fd ∉ fs.descriptors ∧ 0 < fd ∧ next.handles = fs.handles
  | 0, _, _, looped => by cases looped
  | fuel + 1, fs, next, looped => by
      simp only [nextDescriptorLoop] at looped
      split_ifs at looped with free
      · obtain ⟨rfl, rfl⟩ := Prod.mk.inj (Option.some.inj looped)
        refine ⟨fun member => ?_, lt_max_of_lt_right Nat.one_pos, rfl⟩
        obtain ⟨handle, held, same⟩ := List.mem_map.mp member
        have differs := List.all_eq_true.mp free handle held
        rw [same, bne_self_eq_false] at differs
        cases differs
      · -- the next round sees the same handles
        have later := nextDescriptorLoop_fresh looped
        exact later

/-- `open` returns a nonzero descriptor that no open handle holds, and opens it. -/
theorem open_fresh (numbered : Numbered fs) {path : Path} {flags : Nat} {desc : FileDescriptor}
    (opened : fs.open openPath path flags = some (some desc, next)) :
    desc.fd ∉ fs.descriptors ∧ desc.fd ≠ 0 ∧ Numbered next := by
  unfold ExFatFileSystem.open at opened
  split at opened
  · cases (Prod.mk.inj (Option.some.inj opened)).1
  rename_i entry _
  obtain ⟨⟨fd, scanned⟩, found, equal⟩ := Option.map_eq_some_iff.mp opened
  simp only [Option.some.injEq, Prod.mk.injEq] at equal
  obtain ⟨rfl, rfl⟩ := equal
  obtain ⟨fresh, positive, sameHandles⟩ := nextDescriptorLoop_fresh found
  refine ⟨fresh, Nat.pos_iff_ne_zero.mp positive, ?_, ?_⟩
  · simpa [descriptors, sameHandles] using numbered.nodup.concat fresh
  · simp only [descriptors, sameHandles, List.map_append, List.map_cons, List.map_nil, List.mem_append,
      List.mem_singleton]
    rintro (held | zero)
    · exact numbered.nonzero held
    · exact positive.ne zero

/-- `close` keeps a sublist of the handles. -/
theorem close_numbered (numbered : Numbered fs) (fd : Nat) : Numbered (fs.close fd).2 := by
  unfold close
  split
  · exact numbered
  · rename_i index _
    have kept : (fs.handles.eraseIdx index).map (·.fd) |>.Sublist fs.descriptors :=
      (List.eraseIdx_sublist _ _).map _
    exact ⟨numbered.nodup.sublist kept, fun zero => numbered.nonzero (kept.subset zero)⟩

theorem step_numbered (numbered : Numbered fs) {call : HandleCall} {reply : HandleReply}
    (stepped : fs.step openPath call = some (reply, next)) : Numbered next := by
  cases call with
  | «open» path flags =>
      obtain ⟨⟨result, opened⟩, found, equal⟩ := Option.map_eq_some_iff.mp stepped
      obtain ⟨-, rfl⟩ := Prod.mk.inj equal
      cases result with
      | none =>
          unfold ExFatFileSystem.open at found
          split at found
          · obtain ⟨-, rfl⟩ := Prod.mk.inj (Option.some.inj found)
            exact numbered
          · obtain ⟨_, -, equal⟩ := Option.map_eq_some_iff.mp found
            cases (Prod.mk.inj equal).1
      | some desc => exact (open_fresh numbered found).2.2
  | close fd =>
      obtain ⟨-, rfl⟩ := Prod.mk.inj (Option.some.inj stepped)
      exact close_numbered numbered fd

theorem numbered_inductive (inner : V) : (machine openPath inner).Inductive Numbered where
  init := new_numbered inner
  step := fun numbered stepped => step_numbered numbered stepped

end ExFatFileSystem

/-! ## Descriptor uniqueness -/

/-- In every reachable state of `MemFileSystem`, `FatFileSystem` and
`ExFatFileSystem`, the descriptors of the open handles are distinct (and
nonzero for exFAT), and `open` returns a descriptor that no open handle
holds.  A `MemFileSystem` keeps its handles in a map from their descriptors. -/
theorem descriptors_unique :
    (∀ {fs : MemFileSystem}, MemFileSystem.machine.Reachable fs →
      ∀ {path : Path} {flags : Nat} {desc : FileDescriptor} {next : MemFileSystem},
        fs.open path flags = some (some desc, next) → fs.fds desc.fd = none) ∧
    (∀ {V : Type} (openFile : V → Path → Bool) (inner : V) {fs : FatFileSystem V},
      (FatFileSystem.machine openFile inner).Reachable fs → fs.descriptors.Nodup ∧
        ∀ {path : Path} {flags : Nat} {desc : FileDescriptor} {next : FatFileSystem V},
          fs.open openFile path flags = some (some desc, next) → desc.fd ∉ fs.descriptors) ∧
    (∀ {V E : Type} (openPath : V → Path → Option E) (inner : V) {fs : ExFatFileSystem V E},
      (ExFatFileSystem.machine openPath inner).Reachable fs → fs.descriptors.Nodup ∧ 0 ∉ fs.descriptors ∧
        ∀ {path : Path} {flags : Nat} {desc : FileDescriptor} {next : ExFatFileSystem V E},
          fs.open openPath path flags = some (some desc, next) → desc.fd ∉ fs.descriptors ∧ desc.fd ≠ 0) := by
  refine ⟨fun {fs} reached {path flags desc next} opened => ?_, fun openFile inner _ reached => ?_,
    fun openPath inner _ reached => ?_⟩
  · -- the descriptor discipline of `MemFileSystem` under its consistency invariant
    have consistent : Descriptors.Sound fs := MemFileSystem.consistent_inductive.reachable reached
    have closed : ¬ Descriptors.IsOpen fs desc.fd :=
      (Descriptors.open_some consistent (show FileSystem.open fs path flags = some (some desc, next) from
        opened)).2.1
    exact Option.not_isSome_iff_eq_none.mp closed
  · have numbered := (FatFileSystem.numbered_inductive inner).reachable reached
    exact ⟨numbered.nodup, fun opened => (FatFileSystem.open_fresh numbered opened).1⟩
  · have numbered := (ExFatFileSystem.numbered_inductive inner).reachable reached
    exact ⟨numbered.nodup, numbered.nonzero, fun opened =>
      ⟨(ExFatFileSystem.open_fresh numbered opened).1, (ExFatFileSystem.open_fresh numbered opened).2.1⟩⟩

/-- After runs that open two handles and close the first, the next `open` of each filesystem hands
out a descriptor that no open handle holds: descriptor 2 of the `MemFileSystem`, and 3 of the FAT
and exFAT filesystems, whose descriptor 2 is still open. -/
theorem descriptors_unique_after_close :
    (∃ replies fs next, MemFileSystem.machine.run MemFileSystem.machine.init
        [.create "/f".toList .file, .open "/f".toList 0, .open "/f".toList 0, .close 0] = some (replies, fs) ∧
      ∃ desc, fs.open "/f".toList 0 = some (some desc, next) ∧ desc.fd = 2 ∧ fs.fds desc.fd = none) ∧
    (∃ replies fs next, (FatFileSystem.machine (fun _ _ => true) ()).run (FatFileSystem.new ())
        [.open "/a".toList 0, .open "/b".toList 0, .close 1] = some (replies, fs) ∧ fs.descriptors = [2] ∧
      ∃ desc, fs.open (fun _ _ => true) "/c".toList 0 = some (some desc, next) ∧ desc.fd = 3 ∧
        (fs.descriptors.Nodup ∧ desc.fd ∉ fs.descriptors)) ∧
    (∃ replies fs next, (ExFatFileSystem.machine (fun _ _ => some ()) () :
          Machine (ExFatFileSystem Unit Unit) HandleCall HandleReply).run (ExFatFileSystem.new ())
        [.open "/a".toList 0, .open "/b".toList 0, .close 1] = some (replies, fs) ∧ fs.descriptors = [2] ∧
      ∃ desc, fs.open (fun _ _ => some ()) "/c".toList 0 = some (some desc, next) ∧ desc.fd = 3 ∧
        (fs.descriptors.Nodup ∧ 0 ∉ fs.descriptors ∧ desc.fd ∉ fs.descriptors ∧ desc.fd ≠ 0)) := by
  refine ⟨⟨_, _, _, rfl, _, rfl, rfl, ?_⟩, ⟨_, _, _, rfl, rfl, _, rfl, rfl, ?_⟩,
    ⟨_, _, _, rfl, rfl, _, rfl, rfl, ?_⟩⟩
  · exact descriptors_unique.1 (Machine.Reachable.run _ .init (rfl : MemFileSystem.machine.run MemFileSystem.machine.init
      [.create "/f".toList .file, .open "/f".toList 0, .open "/f".toList 0, .close 0] = some (_, _)))
      (show MemFileSystem.open _ "/f".toList 0 = _ from rfl)
  · have reached := Machine.Reachable.run _ .init (rfl : (FatFileSystem.machine (fun _ _ => true) ()).run
      (FatFileSystem.new ()) [.open "/a".toList 0, .open "/b".toList 0, .close 1] = some (_, _))
    exact ⟨(descriptors_unique.2.1 (fun _ _ => true) () reached).1,
      (descriptors_unique.2.1 (fun _ _ => true) () reached).2
        (show FatFileSystem.open (fun _ _ => true) _ "/c".toList 0 = _ from rfl)⟩
  · have reached := Machine.Reachable.run _ .init (rfl : (ExFatFileSystem.machine (fun _ _ => some ()) () :
      Machine (ExFatFileSystem Unit Unit) HandleCall HandleReply).run (ExFatFileSystem.new ())
        [.open "/a".toList 0, .open "/b".toList 0, .close 1] = some (_, _))
    obtain ⟨distinct, nonzero, fresh⟩ := descriptors_unique.2.2 (fun _ _ => some ()) () reached
    exact ⟨distinct, nonzero, fresh (show ExFatFileSystem.open (fun _ _ => some ()) _ "/c".toList 0 = _ from rfl)⟩

end Fullerene.Genome
