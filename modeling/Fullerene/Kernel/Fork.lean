import Fullerene.Kernel.Event
import Fullerene.Petroleum.ProcessPageTable

/-!
# Fork

`syscall_fork` clones the parent's PML4 with `clone_page_table`, wraps the
clone in a `ProcessPageTable` made by `new_with_frame` and `init`, takes a
kernel stack and a pid, and then unmaps the vDSO address in the child's table
before mapping a fresh vDSO page there and adding the child.

`init` builds no mapper, so the first of these table operations panics
(`ProcessPageTable.unmapPage_init_newWithFrame`): once the clone has
succeeded, fork never returns (`syscall_fork_aborts`), and no call of it
returns `Ok` (`syscall_fork_never_returns_ok`).

One pool of free frames stands for the frame allocators, and the heap's
answer to the kernel-stack allocation is a field of the state.  The vDSO
page's contents are not modelled.
-/

namespace Fullerene.Kernel

open Paging Petroleum

/-- `From<SystemError> for SyscallError`, on the modelled variants. -/
def SyscallError.ofSystemError : Petroleum.SystemError → SyscallError
  | .invalidArgument | .unmappingFailed | .internalError => .invalidArgument
  | .permissionDenied => .permissionDenied
  | .frameAllocationFailed => .outOfMemory
  | .mappingFailed => .addressFault

/-- The fields of a `Process` that fork reads. -/
structure ForkProcess where
  id : Nat
  pageTablePhysAddr : Nat
  isUser : Bool
  deriving DecidableEq, Repr

/-- What `syscall_fork` reads and changes; `pageTableManager` is the memory
manager's, `none` while there is no manager. -/
structure ForkState where
  memory : Memory
  cr3 : Nat
  currentPid : Option Nat
  processes : List ForkProcess
  pageTableManager : Option ProcessPageTable
  frames : List Nat
  heapHasRoom : Bool
  nextPid : Nat

/-- `VDSO_USER_BASE`. -/
def vdsoUserBase : Nat := 0x700000000000

/-- `create_vdso_page`: a fresh frame mapped present and user-accessible at
`VDSO_USER_BASE` in `table`; the frame goes back when the mapping fails. -/
def createVdsoPage (ops : OffsetOps) (table : ProcessPageTable) (s : ForkState) :
    Option (Except SyscallError Nat × ForkState) :=
  match s.frames with
  | [] => some (.error .outOfMemory, s)
  | frame :: rest =>
      match table.mapPage ops s.memory vdsoUserBase frame (present ||| userAccessible) with
      | none => none
      | some (.error _, memory) => some (.error .outOfMemory, { s with memory })
      | some (.ok (), memory) => some (.ok frame, { s with memory, frames := rest })

/-- `SCHEDULER.add` of the child, which fails on a full process list; the
failure frees the child's PML4 frame and its vDSO frame. -/
def addChild (s : ForkState) (child : ForkProcess) (freed : List Nat) :
    Option (Except SyscallError Nat × ForkState) :=
  if maxProcesses ≤ s.processes.length then
    some (.error .outOfMemory, { s with frames := freed ++ s.frames })
  else some (.ok child.id, { s with processes := s.processes ++ [child] })

/-- `syscall_fork`; `none` is a panic. -/
def syscallFork (ops : OffsetOps) (s : ForkState) : Option (Except SyscallError Nat × ForkState) :=
  match s.currentPid with
  | none => some (.error .noSuchProcess, s)
  | some currentPid =>
      match s.processes.find? fun process => process.id == currentPid with
      | none => some (.error .noSuchProcess, s)
      | some parent =>
          match s.pageTableManager with
          | none => some (.error .outOfMemory, s)
          | some manager =>
              match manager.clonePageTable s.cr3 s.memory s.frames parent.pageTablePhysAddr with
              | none => none
              | some (.error error, manager) =>
                  some (.error (.ofSystemError error), { s with pageTableManager := some manager })
              | some (.ok (cloned, memory, frames), manager) =>
                  let s := { s with memory, frames, pageTableManager := some manager }
                  let child := (ProcessPageTable.newWithFrame cloned).init
                  if !s.heapHasRoom then
                    -- `deallocate_process_page_table` gives the PML4 frame back
                    some (.error .outOfMemory, { s with frames := cloned :: s.frames })
                  else
                    let childPid := s.nextPid
                    let s := { s with nextPid := childPid + 1 }
                    match child.unmapPage ops s.memory vdsoUserBase with
                    | none => none
                    | some (_, memory) =>
                        let s := { s with memory }
                        let process : ForkProcess := ⟨childPid, cloned, parent.isUser⟩
                        if parent.isUser then
                          match createVdsoPage ops child s with
                          | none => none
                          | some (.error error, s) =>
                              some (.error error, { s with frames := cloned :: s.frames })
                          | some (.ok vdso, s) => addChild s process [cloned, vdso]
                        else addChild s process [cloned]

/-- Once `clone_page_table` has succeeded and the kernel stack is allocated,
fork panics at the child's `unmap_page`. -/
theorem syscall_fork_aborts (ops : OffsetOps) {s : ForkState} {currentPid : Nat}
    {parent : ForkProcess} {manager updated : ProcessPageTable} {cloned : Nat} {memory : Memory}
    {frames : List Nat} (current : s.currentPid = some currentPid)
    (found : (s.processes.find? fun process => process.id == currentPid) = some parent)
    (managed : s.pageTableManager = some manager)
    (cloneSucceeds : manager.clonePageTable s.cr3 s.memory s.frames parent.pageTablePhysAddr =
      some (.ok (cloned, memory, frames), updated))
    (room : s.heapHasRoom = true) :
    syscallFork ops s = none := by
  unfold syscallFork
  rw [current]
  dsimp only
  rw [found]
  dsimp only
  rw [managed]
  dsimp only
  rw [cloneSucceeds]
  dsimp only
  rw [room, ProcessPageTable.unmapPage_init_newWithFrame]
  rfl

/-- One user process, pid 1 and current, whose PML4 at 0x1000 is in CR3 and
is the one the memory manager tracks; one free frame and room on the heap. -/
def oneUserProcess : ForkState where
  memory _ := 0
  cr3 := 0x1000
  currentPid := some 1
  processes := [⟨1, 0x1000, true⟩]
  pageTableManager := some ⟨0x1000, true, some 0x1000, some 0x1000, []⟩
  frames := [0x5000]
  heapHasRoom := true
  nextPid := 2

theorem fork_of_user_process_aborts (ops : OffsetOps) : syscallFork ops oneUserProcess = none :=
  syscall_fork_aborts ops rfl rfl rfl rfl rfl

theorem syscall_fork_never_returns_ok (ops : OffsetOps) (s : ForkState) (child : Nat)
    (final : ForkState) : syscallFork ops s ≠ some (.ok child, final) := by
  intro forked
  unfold syscallFork at forked
  -- every way out before the clone's success is an error or a panic
  split at forked
  · cases forked
  split at forked
  · cases forked
  split at forked
  · cases forked
  split at forked
  · cases forked
  · cases forked
  -- after it, the child's table panics at its first use
  dsimp only at forked
  split at forked
  · cases forked
  · rw [ProcessPageTable.unmapPage_init_newWithFrame] at forked
    cases forked

end Fullerene.Kernel
