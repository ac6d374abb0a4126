import Mathlib
import Fullerene.Kernel.Scheduler

/-!
# Linux `wait4`

`sys_wait4` reaps a child.  With `pid <= 0` it looks for the first listed
process whose parent is the caller and that has terminated, and removes it;
when there is none it returns 0, at once under `WNOHANG` and after blocking
the caller otherwise.  With `pid > 0` it removes every process listed under
that pid, with no check of parent or state.

The any-child branch removes only terminated children of the caller
(`sysWait4_any_child_reaps_terminated`).  The other branch removes whatever
process it names (`sysWait4_reaps_named`): a caller can reap a running, an
unrelated or the idle process (`wait4_reaps_unrelated_processes`).

The status word written to user memory is left out.
-/

namespace Fullerene.Kernel.Linux

open Fullerene.Kernel

def wnohang : Nat := 1

/-- `args[0] as i64`. -/
def signedPid (pidArg : Nat) : Int := if pidArg < 2 ^ 63 then pidArg else (pidArg : Int) - 2 ^ 64

/-- The search of the any-child branch: the first listed process whose
parent is the caller and that has terminated. -/
def terminatedChild (s : SchedulerContext) : Option Nat :=
  (s.processes.find? fun process => process.parentId == some s.currentPid && process.state == .terminated).map
    Process.id

/-- `sys_wait4(pid, status, options, rusage)` with the `u64` arguments: the pid
returned and the scheduler after the call, `none` when `block_current` panics. -/
def sysWait4 (s : SchedulerContext) (pidArg optionsArg : Nat) : Option (Nat × SchedulerContext) :=
  let target := if signedPid pidArg ≤ 0 then terminatedChild s else some pidArg
  match target with
  | some target => some (target, s.reap target)
  | none =>
      if optionsArg % 2 ^ 32 &&& wnohang ≠ 0 then some (0, s)
      else s.blockCurrent.map fun (_, blocked) => (0, blocked)

section Wait

variable {s next : SchedulerContext} {pidArg optionsArg reply : Nat}

theorem mem_reap_iff {target : Nat} {process : Process} :
    process ∈ (s.reap target).processes ↔ process ∈ s.processes ∧ process.id ≠ target := by
  simp [SchedulerContext.reap]

theorem terminatedChild_spec {target : Nat} (found : terminatedChild s = some target) :
    ∃ child ∈ s.processes, child.id = target ∧ child.parentId = some s.currentPid ∧
      child.state = .terminated := by
  obtain ⟨child, search, rfl⟩ := Option.map_eq_some_iff.mp found
  have matched := List.find?_some search
  simp only [Bool.and_eq_true, beq_iff_eq] at matched
  exact ⟨child, List.mem_of_find?_eq_some search, rfl, matched⟩

/-- With `pid <= 0` and distinct pids, every pid that the call removes from
the list is that of a terminated child of the caller. -/
theorem sysWait4_any_child_reaps_terminated (distinct : (s.processes.map Process.id).Nodup)
    (anyChild : signedPid pidArg ≤ 0) (ran : sysWait4 s pidArg optionsArg = some (reply, next))
    {process : Process} (listed : process ∈ s.processes) (gone : process.id ∉ next.processes.map Process.id) :
    process.parentId = some s.currentPid ∧ process.state = .terminated := by
  simp only [sysWait4, anyChild, ↓reduceIte] at ran
  cases found : terminatedChild s with
  | some target =>
      simp only [found, Option.some.injEq, Prod.mk.injEq] at ran
      obtain ⟨-, rfl⟩ := ran
      -- only the pid of the found child leaves, and distinct pids make it that child
      have removed : process.id = target := by
        by_contra kept
        exact gone (List.mem_map_of_mem (mem_reap_iff.mpr ⟨listed, kept⟩))
      obtain ⟨child, childListed, childId, parent, terminated⟩ := terminatedChild_spec found
      have same : process = child :=
        List.inj_on_of_nodup_map distinct listed childListed (removed.trans childId.symm)
      exact same ▸ ⟨parent, terminated⟩
  | none =>
      -- no child to reap: the call returns at once or blocks, and every pid stays
      simp only [found] at ran
      have ids : next.processes.map Process.id = s.processes.map Process.id := by
        split_ifs at ran
        · obtain ⟨-, rfl⟩ := Prod.mk.inj (Option.some.inj ran)
          rfl
        · obtain ⟨⟨switch, blocked⟩, blockedEq, result⟩ := Option.map_eq_some_iff.mp ran
          obtain ⟨-, rfl⟩ := Prod.mk.inj result
          exact SchedulerContext.blockCurrent_ids blockedEq
      exact absurd (ids ▸ List.mem_map_of_mem listed) gone

/-- With `pid > 0` the call removes the process listed under that pid,
whatever its parent and state. -/
theorem sysWait4_reaps_named (named : 0 < signedPid pidArg) :
    sysWait4 s pidArg optionsArg = some (pidArg, s.reap pidArg) ∧
      ∀ process ∈ (s.reap pidArg).processes, process.id ≠ pidArg := by
  have positive : ¬signedPid pidArg ≤ 0 := by omega
  refine ⟨by simp [sysWait4, positive], fun process member => (mem_reap_iff.mp member).2⟩

end Wait

/-- After `process::init` and the creation of a process with no parent, the
idle process, current and running, can reap that ready process, and it can
reap itself. -/
theorem wait4_reaps_unrelated_processes :
    (SchedulerContext.processInit.createProcess "init" none).2.processes =
        [⟨1, "idle", .running, none⟩, ⟨2, "init", .ready, none⟩] ∧
      (SchedulerContext.processInit.createProcess "init" none).2.currentPid = 1 ∧
      ((sysWait4 (SchedulerContext.processInit.createProcess "init" none).2 2 0).map
        fun result => result.2.processes) = some [⟨1, "idle", .running, none⟩] ∧
      ((sysWait4 (SchedulerContext.processInit.createProcess "init" none).2 1 0).map
        fun result => result.2.processes) = some [⟨2, "init", .ready, none⟩] := by
  refine ⟨rfl, rfl, ?_, ?_⟩
  · rw [(sysWait4_reaps_named (by decide)).1]
    rfl
  · rw [(sysWait4_reaps_named (by decide)).1]
    rfl

end Fullerene.Kernel.Linux
