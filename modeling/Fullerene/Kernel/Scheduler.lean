import Fullerene.Lib.Machine
import Mathlib.Tactic.SplitIfs
import Mathlib.Data.List.Nodup

/-!
# The round-robin scheduler

`SchedulerContext` keeps the process list and tracks the current process
twice: as the pid `current_pid` and as the position `schedule_index` in the
list.  `schedule_next` clamps the index to the list, scans round-robin from
the position after it for a `Ready` process (falling back to `idle` when it
comes round again), demotes the process at the old position if it is
`Running`, promotes the chosen one, and returns the pid at the old position
as the process whose context is saved.

Every call that only changes states or appends keeps the two views in step
(`Synced`), and from a synced state `schedule_next` returns the current pid
and leaves exactly the chosen process running.  `cleanup` and the `retain` of
`sys_wait4` remove entries and shift the positions behind them without
touching `schedule_index`; after a removal before the current position the
next `schedule_next` demotes the wrong process and returns the wrong pid.

Process creation (`create_process`, `fork`, thread creation, Linux `clone`)
is one call: a pid from `allocate_pid` and a `Ready` process with a name and
a parent, given to `add`.  The pid counter is a `Nat`: the model does not
reach the `2^64` allocations after which `fetch_add` wraps.
-/

namespace Fullerene.Kernel

/-- `enum ProcessState`. -/
inductive ProcessState
  | ready
  | running
  | blocked
  | terminated
  deriving DecidableEq, Repr

/-- The fields of `struct Process` that the scheduler reads. -/
structure Process where
  id : Nat
  name : String
  state : ProcessState
  parentId : Option Nat
  deriving DecidableEq, Repr

/-- The `SystemError` that `add` returns. -/
inductive SystemError
  | tooManyProcesses
  deriving DecidableEq, Repr

/-- `MAX_PROCESSES`, the capacity of the process list. -/
def maxProcesses : Nat := 64

/-- `Vec::swap_remove`: the last element takes the removed one's place. -/
def swapRemove {α : Type} (list : List α) (index : Nat) : List α :=
  match list.getLast? with
  | none => list
  | some last => (list.set index last).dropLast

/-- The scheduler state of `struct SchedulerContext`; the process list holds
each process under its own pid. -/
structure SchedulerContext where
  processes : List Process
  nextPid : Nat
  scheduleIndex : Nat
  currentPid : Nat
  deriving DecidableEq, Repr

namespace SchedulerContext

variable (s : SchedulerContext)

/-- `SchedulerContext::new`. -/
def new : SchedulerContext := ⟨[], 1, 0, 0⟩

/-- `allocate_pid`. -/
def allocatePid : Nat × SchedulerContext :=
  (s.nextPid, { s with nextPid := s.nextPid + 1 })

/-- `add`: refuse a full list, drop a stale entry with the same pid by
`swap_remove`, and push the process. -/
def add (process : Process) : Except SystemError Unit × SchedulerContext :=
  if maxProcesses ≤ s.processes.length then (.error .tooManyProcesses, s)
  else
    let kept :=
      match s.processes.findIdx? fun listed => listed.id == process.id with
      | some position => swapRemove s.processes position
      | none => s.processes
    (.ok (), { s with processes := kept ++ [process] })

/-- `with_process`: apply `f` to the first process with the pid. -/
def withProcess (pid : Nat) (f : Process → Process) : SchedulerContext :=
  match s.processes.findIdx? fun listed => listed.id == pid with
  | some index => { s with processes := s.processes.modify index f }
  | none => s

/-- `cleanup`: drop the terminated processes. -/
def cleanup : SchedulerContext :=
  { s with processes := s.processes.filter fun process => process.state != .terminated }

/-- The `list.retain` by which `sys_wait4` removes a reaped child. -/
def reap (pid : Nat) : SchedulerContext :=
  { s with processes := s.processes.filter fun process => process.id != pid }

/-- The loop of `schedule_next`: step round-robin from `next`, stop at a
`Ready` process, and when the scan is back at `start` fall back to the first
process named `idle`.  With one unit of fuel per process the scan is back at
`start` before the fuel runs out; `none` is an out-of-range index. -/
def scan (processes : List Process) (start : Nat) : Nat → Nat → Option Nat
  | 0, next => some next
  | fuel + 1, next =>
      let next := (next + 1) % processes.length
      match processes[next]? with
      | none => none
      | some process =>
          if process.state = .ready then some next
          else if next = start then
            some ((processes.findIdx? fun listed => listed.name == "idle").getD next)
          else scan processes start fuel next

/-- The state changes at the end of `schedule_next`: when the position
changes, a running process at the old position becomes ready and the chosen
one runs. -/
def handOver (processes : List Process) (currentIdx nextIdx : Nat) : List Process :=
  if currentIdx ≠ nextIdx then
    (processes.modify currentIdx fun process =>
      if process.state = .running then { process with state := .ready } else process).modify
      nextIdx fun process => { process with state := .running }
  else processes

/-- `schedule_next`: the pid at the clamped old position and the chosen pid.
`none` when indexing panics. -/
def scheduleNext : Option ((Option Nat × Nat) × SchedulerContext) :=
  if s.processes.isEmpty then some ((none, 0), s)
  else
    let currentIdx := min s.scheduleIndex (s.processes.length - 1)
    (scan s.processes currentIdx s.processes.length currentIdx).bind fun nextIdx =>
      s.processes[nextIdx]?.map fun chosen =>
        ((s.processes[currentIdx]?.map Process.id, chosen.id),
          { s with processes := handOver s.processes currentIdx nextIdx, scheduleIndex := nextIdx,
                   currentPid := chosen.id })

/-- `unblock_process`: a blocked process becomes ready. -/
def unblockProcess (pid : Nat) : SchedulerContext :=
  s.withProcess pid fun process =>
    if process.state = .blocked then { process with state := .ready } else process

/-- `block_current`: block the current process and schedule; the pair that
`schedule_next` returned is what the context switch uses. -/
def blockCurrent : Option (Option (Option Nat × Nat) × SchedulerContext) :=
  if s.currentPid = 0 then some (none, s)
  else
    ((s.withProcess s.currentPid fun process => { process with state := .blocked }).scheduleNext).map
      fun (switch, next) => (some switch, next)

/-- `SchedulerContext::yield_current`. -/
def yieldCurrent : Option (Option (Option Nat × Nat) × SchedulerContext) :=
  if s.currentPid = 0 then some (none, s)
  else s.scheduleNext.map fun (switch, next) => (some switch, next)

/-- `unblock_waiting_parents`: unblock the parent of the child if it is
blocked. -/
def unblockWaitingParents (childPid : Nat) : SchedulerContext :=
  let parent := ((s.processes.find? fun process => process.id == childPid).bind
    Process.parentId).filter fun parentId =>
      (s.processes.find? fun process => process.id == parentId).any fun parent =>
        parent.state == .blocked
  match parent with
  | some parentId => s.unblockProcess parentId
  | none => s

/-- The part of `terminate_process` inside `with_process`: a process other
than `idle` is terminated and the waiters its resources release (given with
the call) are returned. -/
def markTerminated (pid : Nat) (waiters : List Nat) : List Nat × SchedulerContext :=
  match s.processes.find? fun process => process.id == pid with
  | some process =>
      if process.name = "idle" then ([], s)
      else (waiters, s.withProcess pid fun process => { process with state := .terminated })
  | none => ([], s)

/-- `terminate_process`: mark the process, unblock the released waiters and
then its parent; terminating the current process schedules. -/
def terminateProcess (pid : Nat) (waiters : List Nat) :
    Option (Option (Option Nat × Nat) × SchedulerContext) :=
  let marked := s.markTerminated pid waiters
  let released := (marked.1.foldl (fun state waiter => state.unblockProcess waiter) marked.2)
    |>.unblockWaitingParents pid
  if released.currentPid = pid then
    released.scheduleNext.map fun (switch, next) => (some switch, next)
  else some (none, released)

/-- A new `Ready` process under a fresh pid, as `create_process`, `fork`,
thread creation and Linux `clone` build it. -/
def createProcess (name : String) (parentId : Option Nat) : Except SystemError Nat × SchedulerContext :=
  let (pid, allocated) := s.allocatePid
  match allocated.add ⟨pid, name, .ready, parentId⟩ with
  | (.ok (), added) => (.ok pid, added)
  | (.error error, added) => (.error error, added)

/-- `process::init`: the `idle` process, running and current. -/
def processInit : SchedulerContext :=
  let (pid, allocated) := new.allocatePid
  { (allocated.add ⟨pid, "idle", .running, none⟩).2 with currentPid := pid }

/-! ## The scheduler as a machine -/

/-- A call that changes the process list or the scheduling state. -/
inductive Call
  | create (name : String) (parentId : Option Nat)
  | scheduleNext
  | blockCurrent
  | yieldCurrent
  | unblock (pid : Nat)
  | terminate (pid : Nat) (waiters : List Nat)
  | cleanup
  | reap (pid : Nat)
  deriving DecidableEq, Repr

/-- The value a call returns; `scheduled` is the pair `schedule_next`
returned, whose old pid is the process a context is saved into. -/
inductive Reply
  | created (result : Except SystemError Nat)
  | scheduled (old : Option Nat) (new : Nat)
  | done

/-- The reply of a call that may have run `schedule_next`. -/
def Reply.ofSwitch : Option (Option Nat × Nat) → Reply
  | some (old, new) => .scheduled old new
  | none => .done

/-- One call; `none` when it panics. -/
def step : Call → Option (Reply × SchedulerContext)
  | .create name parentId =>
      some (.created (s.createProcess name parentId).1, (s.createProcess name parentId).2)
  | .scheduleNext => s.scheduleNext.map fun ((old, new), next) => (.scheduled old new, next)
  | .blockCurrent => s.blockCurrent.map fun (switch, next) => (Reply.ofSwitch switch, next)
  | .yieldCurrent => s.yieldCurrent.map fun (switch, next) => (Reply.ofSwitch switch, next)
  | .unblock pid => some (.done, s.unblockProcess pid)
  | .terminate pid waiters =>
      (s.terminateProcess pid waiters).map fun (switch, next) => (Reply.ofSwitch switch, next)
  | .cleanup => some (.done, s.cleanup)
  | .reap pid => some (.done, s.reap pid)

/-- The scheduler from `process::init`. -/
def machine : Machine SchedulerContext Call Reply :=
  ⟨processInit, fun s => s.step⟩

/-! ## The two views of the current process -/

/-- The pid at the scheduled position is the current pid, only the process
there may be running, and the listed pids are distinct and below the pid
counter. -/
structure Synced (s : SchedulerContext) : Prop where
  current : (s.processes.map Process.id)[s.scheduleIndex]? = some s.currentPid
  onlyScheduledRuns : ∀ {index : Nat} {process : Process}, s.processes[index]? = some process →
    process.state = .running → index = s.scheduleIndex
  fresh : ∀ pid ∈ s.processes.map Process.id, pid < s.nextPid
  distinct : (s.processes.map Process.id).Nodup

/-- `next` differs from `s` in process states only, and no process starts
running. -/
structure Demotes (s next : SchedulerContext) : Prop where
  ids : next.processes.map Process.id = s.processes.map Process.id
  noNewRunning : ∀ {index : Nat} {process : Process}, next.processes[index]? = some process →
    process.state = .running → ∃ before, s.processes[index]? = some before ∧ before.state = .running
  nextPid : next.nextPid = s.nextPid
  scheduleIndex : next.scheduleIndex = s.scheduleIndex
  currentPid : next.currentPid = s.currentPid

/-- The calls that remove processes from the list. -/
def Call.removes : Call → Bool
  | .cleanup => true
  | .reap _ => true
  | _ => false

variable {s}

theorem Demotes.refl (s : SchedulerContext) : Demotes s s :=
  ⟨rfl, fun found running => ⟨_, found, running⟩, rfl, rfl, rfl⟩

theorem Demotes.trans {middle next : SchedulerContext} (first : Demotes s middle)
    (second : Demotes middle next) : Demotes s next where
  ids := second.ids.trans first.ids
  noNewRunning := fun found running => by
    obtain ⟨before, foundBefore, runningBefore⟩ := second.noNewRunning found running
    exact first.noNewRunning foundBefore runningBefore
  nextPid := second.nextPid.trans first.nextPid
  scheduleIndex := second.scheduleIndex.trans first.scheduleIndex
  currentPid := second.currentPid.trans first.currentPid

theorem map_id_modify {f : Process → Process} (sameId : ∀ process, (f process).id = process.id)
    (processes : List Process) (index : Nat) :
    (processes.modify index f).map Process.id = processes.map Process.id := by
  apply List.ext_getElem?
  intro position
  simp only [List.getElem?_map, List.getElem?_modify]
  cases processes[position]? with
  | none => rfl
  | some process => by_cases here : index = position <;> simp [here, sameId]

theorem getElem?_modify_eq_some {α : Type} {f : α → α} {list : List α} {index position : Nat}
    {value : α} (found : (list.modify index f)[position]? = some value) :
    ∃ before, list[position]? = some before ∧
      value = if index = position then f before else before := by
  rw [List.getElem?_modify] at found
  obtain ⟨before, foundBefore, rfl⟩ := Option.map_eq_some_iff.mp found
  exact ⟨before, foundBefore, rfl⟩

/-- Updating one process without changing its pid and without making it run. -/
theorem withProcess_demotes {pid : Nat} {f : Process → Process}
    (sameId : ∀ process, (f process).id = process.id)
    (noRun : ∀ process, (f process).state = .running → process.state = .running) :
    Demotes s (s.withProcess pid f) := by
  unfold withProcess
  split
  · rename_i index _
    refine ⟨map_id_modify sameId _ _, ?_, rfl, rfl, rfl⟩
    intro position process found running
    obtain ⟨before, foundBefore, rfl⟩ := getElem?_modify_eq_some found
    refine ⟨before, foundBefore, ?_⟩
    split_ifs at running
    · exact noRun before running
    · exact running
  · exact Demotes.refl s

theorem unblockProcess_demotes (pid : Nat) : Demotes s (s.unblockProcess pid) := by
  apply withProcess_demotes
  · intro process
    split_ifs <;> rfl
  · intro process running
    -- a process made ready is not running, so only the untouched branch is left
    split_ifs at running with blocked
    exact running

theorem foldl_unblockProcess_demotes (waiters : List Nat) :
    Demotes s (waiters.foldl (fun state waiter => state.unblockProcess waiter) s) := by
  induction waiters generalizing s with
  | nil => exact Demotes.refl s
  | cons waiter rest inductionHypothesis =>
      exact (unblockProcess_demotes waiter).trans inductionHypothesis

theorem unblockWaitingParents_demotes (childPid : Nat) :
    Demotes s (s.unblockWaitingParents childPid) := by
  unfold unblockWaitingParents
  dsimp only
  split
  · exact unblockProcess_demotes _
  · exact Demotes.refl s

/-- A change of states only keeps the two views in step. -/
theorem Synced.demotes {next : SchedulerContext} (synced : Synced s) (demoted : Demotes s next) :
    Synced next where
  current := by rw [demoted.ids, demoted.scheduleIndex, demoted.currentPid]; exact synced.current
  onlyScheduledRuns := fun found running => by
    obtain ⟨before, foundBefore, runningBefore⟩ := demoted.noNewRunning found running
    rw [demoted.scheduleIndex]
    exact synced.onlyScheduledRuns foundBefore runningBefore
  fresh := fun pid listed => by
    rw [demoted.ids] at listed
    rw [demoted.nextPid]
    exact synced.fresh pid listed
  distinct := by rw [demoted.ids]; exact synced.distinct

theorem Synced.scheduleIndex_lt (synced : Synced s) : s.scheduleIndex < s.processes.length := by
  have below := (List.getElem?_eq_some_iff.mp synced.current).1
  simpa using below

/-- At most one process is running. -/
theorem Synced.running_unique (synced : Synced s) {index other : Nat} {process otherProcess : Process}
    (found : s.processes[index]? = some process) (running : process.state = .running)
    (otherFound : s.processes[other]? = some otherProcess)
    (otherRunning : otherProcess.state = .running) : index = other :=
  (synced.onlyScheduledRuns found running).trans (synced.onlyScheduledRuns otherFound otherRunning).symm

/-- The current process is listed, and `schedule_index` is its position. -/
theorem Synced.findIdx_currentPid (synced : Synced s) :
    (s.processes.findIdx? fun process => process.id == s.currentPid) = some s.scheduleIndex := by
  have below := synced.scheduleIndex_lt
  have atIndex : s.processes[s.scheduleIndex].id = s.currentPid := by
    simpa [List.getElem?_eq_getElem below] using synced.current
  rw [List.findIdx?_eq_some_iff_getElem]
  refine ⟨below, by simp [atIndex], ?_⟩
  intro earlier before same
  -- an earlier process with the current pid would repeat a pid
  have sameIds : (s.processes.map Process.id)[earlier]? =
      (s.processes.map Process.id)[s.scheduleIndex]? := by
    rw [synced.current, List.getElem?_map, List.getElem?_eq_getElem (by omega)]
    simpa using same
  have repeated := (List.getElem?_inj (by simp; omega) synced.distinct).mp sameIds
  omega

/-! ## `schedule_next` from a synced state -/

/-- The round-robin scan stays inside the list. -/
theorem scan_lt {processes : List Process} {start : Nat} :
    ∀ {fuel next result : Nat}, next < processes.length →
      scan processes start fuel next = some result → result < processes.length := by
  intro fuel
  induction fuel with
  | zero =>
      intro next result below scanned
      rw [scan, Option.some.injEq] at scanned
      exact scanned ▸ below
  | succ fuel inductionHypothesis =>
      intro next result below scanned
      have wrapped : (next + 1) % processes.length < processes.length := Nat.mod_lt _ (by omega)
      simp only [scan, List.getElem?_eq_getElem wrapped] at scanned
      split_ifs at scanned with ready back
      · rw [Option.some.injEq] at scanned
        exact scanned ▸ wrapped
      · -- the fallback is the first `idle` process, or the position the scan is at
        rw [Option.some.injEq] at scanned
        cases idle : processes.findIdx? (fun listed => listed.name == "idle") with
        | none =>
            rw [idle, Option.getD_none] at scanned
            exact scanned ▸ wrapped
        | some index =>
            rw [idle, Option.getD_some] at scanned
            exact scanned ▸ (List.findIdx?_eq_some_iff_getElem.mp idle).1
      · exact inductionHypothesis wrapped scanned

theorem map_id_handOver (processes : List Process) (currentIdx nextIdx : Nat) :
    (handOver processes currentIdx nextIdx).map Process.id = processes.map Process.id := by
  have promote : ∀ process : Process, ({ process with state := .running } : Process).id = process.id :=
    fun _ => rfl
  have demote : ∀ process : Process,
      (if process.state = .running then { process with state := .ready } else process).id =
        process.id := by
    intro process
    split_ifs <;> rfl
  unfold handOver
  split_ifs
  · rw [map_id_modify promote, map_id_modify demote]
  · rfl

/-- Blocking the current process only demotes. -/
theorem blocking_demotes (s : SchedulerContext) :
    Demotes s (s.withProcess s.currentPid fun process => { process with state := .blocked }) := by
  apply withProcess_demotes
  · intro process
    rfl
  · intro process blocked
    simp at blocked

/-- `schedule_next` changes states only: every pid stays listed, in place. -/
theorem scheduleNext_ids {switch : Option Nat × Nat} {next : SchedulerContext}
    (stepped : s.scheduleNext = some (switch, next)) :
    next.processes.map Process.id = s.processes.map Process.id := by
  unfold scheduleNext at stepped
  split_ifs at stepped
  · rw [Option.some.injEq, Prod.mk.injEq] at stepped
    rw [← stepped.2]
  · obtain ⟨nextIdx, -, chosenStep⟩ := Option.bind_eq_some_iff.mp stepped
    obtain ⟨chosen, -, chosenEq⟩ := Option.map_eq_some_iff.mp chosenStep
    rw [Prod.mk.injEq] at chosenEq
    rw [← chosenEq.2]
    exact map_id_handOver _ _ _

/-- `block_current` changes states only. -/
theorem blockCurrent_ids {switch : Option (Option Nat × Nat)} {next : SchedulerContext}
    (stepped : s.blockCurrent = some (switch, next)) :
    next.processes.map Process.id = s.processes.map Process.id := by
  unfold blockCurrent at stepped
  split_ifs at stepped
  · rw [Option.some.injEq, Prod.mk.injEq] at stepped
    rw [← stepped.2]
  · obtain ⟨⟨scheduled, blocked⟩, scheduledEq, stepped⟩ := Option.map_eq_some_iff.mp stepped
    rw [Prod.mk.injEq] at stepped
    rw [← stepped.2, scheduleNext_ids scheduledEq]
    exact (blocking_demotes s).ids

/-- After the hand-over only the chosen process may be running, if before it
only the process at the old position could. -/
theorem handOver_running {processes : List Process} {currentIdx nextIdx index : Nat}
    {process : Process}
    (onlyCurrent : ∀ {index : Nat} {process : Process}, processes[index]? = some process →
      process.state = .running → index = currentIdx)
    (found : (handOver processes currentIdx nextIdx)[index]? = some process)
    (running : process.state = .running) : index = nextIdx := by
  unfold handOver at found
  split_ifs at found with moved
  · by_contra other
    obtain ⟨demotedProcess, foundDemoted, promoted⟩ := getElem?_modify_eq_some found
    rw [if_neg (Ne.symm other)] at promoted
    subst promoted
    obtain ⟨before, foundBefore, demoted⟩ := getElem?_modify_eq_some foundDemoted
    by_cases atCurrent : currentIdx = index
    · -- the process at the old position was demoted, so it does not run
      rw [if_pos atCurrent] at demoted
      subst demoted
      by_cases wasRunning : before.state = .running
      · rw [if_pos wasRunning] at running
        simp at running
      · rw [if_neg wasRunning] at running
        exact wasRunning running
    · rw [if_neg atCurrent] at demoted
      subst demoted
      exact atCurrent (onlyCurrent foundBefore running).symm
  · rw [not_not] at moved
    exact (onlyCurrent found running).trans moved

/-- From a synced state, `schedule_next` returns the current pid as the old
one and hands over from the scheduled position. -/
theorem Synced.scheduleNext_eq (synced : Synced s) {old : Option Nat} {new : Nat}
    {next : SchedulerContext} (stepped : s.scheduleNext = some ((old, new), next)) :
    ∃ nextIdx chosen, nextIdx < s.processes.length ∧ s.processes[nextIdx]? = some chosen ∧
      old = some s.currentPid ∧ new = chosen.id ∧
      next = { s with processes := handOver s.processes s.scheduleIndex nextIdx,
                      scheduleIndex := nextIdx, currentPid := chosen.id } := by
  have below := synced.scheduleIndex_lt
  have nonempty : s.processes.isEmpty = false := by
    rw [List.isEmpty_eq_false_iff]
    intro empty
    rw [empty] at below
    cases below
  have clamped : min s.scheduleIndex (s.processes.length - 1) = s.scheduleIndex := by omega
  simp only [scheduleNext, nonempty, Bool.false_eq_true, if_false, clamped] at stepped
  obtain ⟨nextIdx, scanned, mapped⟩ := Option.bind_eq_some_iff.mp stepped
  obtain ⟨chosen, found, result⟩ := Option.map_eq_some_iff.mp mapped
  simp only [Prod.mk.injEq] at result
  obtain ⟨⟨rfl, rfl⟩, rfl⟩ := result
  refine ⟨nextIdx, chosen, scan_lt below scanned, found, ?_, rfl, rfl⟩
  rw [← List.getElem?_map]
  exact synced.current

theorem Synced.scheduleNext (synced : Synced s) {old : Option Nat} {new : Nat}
    {next : SchedulerContext} (stepped : s.scheduleNext = some ((old, new), next)) :
    Synced next := by
  obtain ⟨nextIdx, chosen, below, found, -, -, rfl⟩ := synced.scheduleNext_eq stepped
  have ids := map_id_handOver s.processes s.scheduleIndex nextIdx
  refine ⟨?current, ?onlyScheduledRuns, ?fresh, ?distinct⟩
  case current =>
    show (List.map Process.id (handOver s.processes s.scheduleIndex nextIdx))[nextIdx]? = _
    rw [ids, List.getElem?_map, found]
    rfl
  case onlyScheduledRuns =>
    intro index process handedOver running
    exact handOver_running synced.onlyScheduledRuns handedOver running
  case fresh =>
    intro pid listed
    rw [show List.map Process.id (handOver s.processes s.scheduleIndex nextIdx) = _ from ids] at listed
    exact synced.fresh pid listed
  case distinct =>
    show (List.map Process.id (handOver s.processes s.scheduleIndex nextIdx)).Nodup
    rw [ids]
    exact synced.distinct

/-! ## Every call but a removal keeps the views in step -/

theorem markTerminated_demotes (pid : Nat) (waiters : List Nat) :
    Demotes s (s.markTerminated pid waiters).2 := by
  unfold markTerminated
  split
  · split_ifs
    · exact Demotes.refl s
    · apply withProcess_demotes
      · intro process
        rfl
      · intro process terminated
        simp at terminated
  · exact Demotes.refl s

/-- Changing states and then scheduling keeps the views in step, and the
context is saved into the process that was current. -/
theorem Synced.scheduleAfter {released next : SchedulerContext}
    {switch : Option (Option Nat × Nat)} (synced : Synced s) (demoted : Demotes s released)
    (stepped : released.scheduleNext.map (fun (pair, next) => (some pair, next)) =
      some (switch, next)) :
    Synced next ∧ ∀ pair, switch = some pair → pair.1 = some s.currentPid := by
  obtain ⟨⟨⟨old, new⟩, scheduled⟩, ran, result⟩ := Option.map_eq_some_iff.mp stepped
  simp only [Prod.mk.injEq] at result
  obtain ⟨rfl, rfl⟩ := result
  have releasedSynced := synced.demotes demoted
  obtain ⟨-, -, -, -, savesCurrent, -, -⟩ := releasedSynced.scheduleNext_eq ran
  refine ⟨releasedSynced.scheduleNext ran, ?_⟩
  intro pair same
  rw [Option.some.injEq] at same
  rw [← same, savesCurrent, demoted.currentPid]

theorem Synced.blockCurrent {next : SchedulerContext} {switch : Option (Option Nat × Nat)}
    (synced : Synced s) (stepped : s.blockCurrent = some (switch, next)) :
    Synced next ∧ ∀ pair, switch = some pair → pair.1 = some s.currentPid := by
  unfold SchedulerContext.blockCurrent at stepped
  split_ifs at stepped
  · rw [Option.some.injEq, Prod.mk.injEq] at stepped
    obtain ⟨rfl, rfl⟩ := stepped
    exact ⟨synced, fun _ absent => by cases absent⟩
  · exact synced.scheduleAfter (blocking_demotes s) stepped

theorem Synced.yieldCurrent {next : SchedulerContext} {switch : Option (Option Nat × Nat)}
    (synced : Synced s) (stepped : s.yieldCurrent = some (switch, next)) :
    Synced next ∧ ∀ pair, switch = some pair → pair.1 = some s.currentPid := by
  unfold SchedulerContext.yieldCurrent at stepped
  split_ifs at stepped
  · rw [Option.some.injEq, Prod.mk.injEq] at stepped
    obtain ⟨rfl, rfl⟩ := stepped
    exact ⟨synced, fun _ absent => by cases absent⟩
  · exact synced.scheduleAfter (Demotes.refl s) stepped

theorem Synced.terminateProcess {pid : Nat} {waiters : List Nat} {next : SchedulerContext}
    {switch : Option (Option Nat × Nat)} (synced : Synced s)
    (stepped : s.terminateProcess pid waiters = some (switch, next)) :
    Synced next ∧ ∀ pair, switch = some pair → pair.1 = some s.currentPid := by
  -- marking, the released waiters and the parent change states only
  have demoted : Demotes s (((s.markTerminated pid waiters).1.foldl
      (fun state waiter => state.unblockProcess waiter) (s.markTerminated pid waiters).2)
        |>.unblockWaitingParents pid) :=
    (markTerminated_demotes pid waiters).trans
      ((foldl_unblockProcess_demotes _).trans (unblockWaitingParents_demotes pid))
  unfold SchedulerContext.terminateProcess at stepped
  dsimp only at stepped
  split_ifs at stepped
  · exact synced.scheduleAfter demoted stepped
  · rw [Option.some.injEq, Prod.mk.injEq] at stepped
    obtain ⟨rfl, rfl⟩ := stepped
    exact ⟨synced.demotes demoted, fun _ absent => by cases absent⟩

/-- A new process gets a pid that no listed process has, so `add` appends it
behind the scheduled position. -/
theorem Synced.createProcess (synced : Synced s) (name : String) (parentId : Option Nat) :
    Synced (s.createProcess name parentId).2 := by
  have absent : (s.processes.findIdx? fun listed => listed.id == s.nextPid) = none := by
    rw [List.findIdx?_eq_none_iff]
    intro process listed
    have below := synced.fresh process.id (List.mem_map_of_mem listed)
    rw [beq_eq_false_iff_ne]
    omega
  have below := synced.scheduleIndex_lt
  unfold SchedulerContext.createProcess allocatePid add
  dsimp only
  split_ifs with full
  · -- a full list is kept, only the pid counter moves
    refine ⟨synced.current, synced.onlyScheduledRuns, fun pid listed => ?_, synced.distinct⟩
    have fresh := synced.fresh pid listed
    dsimp only
    omega
  · rw [absent]
    refine ⟨?current, ?onlyScheduledRuns, ?fresh, ?distinct⟩
    case current =>
      dsimp only
      rw [List.map_append, List.getElem?_append_left (by simpa using below)]
      exact synced.current
    case onlyScheduledRuns =>
      intro index process found running
      dsimp only at found ⊢
      rw [List.getElem?_append] at found
      split_ifs at found with before
      · exact synced.onlyScheduledRuns found running
      · -- the appended process is ready
        obtain ⟨inRange, rfl⟩ := List.getElem?_eq_some_iff.mp found
        simp at running
    case fresh =>
      intro pid listed
      dsimp only at listed ⊢
      rw [List.map_append, List.mem_append] at listed
      rcases listed with old | new
      · have fresh := synced.fresh pid old
        omega
      · simp only [List.map_singleton, List.mem_singleton] at new
        omega
    case distinct =>
      dsimp only
      rw [List.map_append, List.nodup_append]
      refine ⟨synced.distinct, List.nodup_singleton _, ?_⟩
      intro pid listed newPid added same
      simp only [List.map_singleton, List.mem_singleton] at added
      have fresh := synced.fresh pid listed
      omega

theorem Reply.ofSwitch_eq_scheduled {switch : Option (Option Nat × Nat)} {old : Option Nat}
    {new : Nat} (same : Reply.ofSwitch switch = .scheduled old new) : switch = some (old, new) := by
  cases switch with
  | none => cases same
  | some pair =>
      cases same
      rfl

/-- Every call other than a removal keeps the views in step, and a call that
schedules saves the context of the process that was current. -/
theorem Synced.step (synced : Synced s) {call : Call} (keeps : call.removes = false)
    {reply : Reply} {next : SchedulerContext} (stepped : s.step call = some (reply, next)) :
    Synced next ∧ ∀ old new, reply = .scheduled old new → old = some s.currentPid := by
  -- the calls that may schedule reply with the pair `schedule_next` returned
  have scheduling : ∀ {result : Option (Option (Option Nat × Nat) × SchedulerContext)},
      (Synced s → ∀ switch next, result = some (switch, next) →
        Synced next ∧ ∀ pair, switch = some pair → pair.1 = some s.currentPid) →
      result.map (fun (switch, next) => (Reply.ofSwitch switch, next)) = some (reply, next) →
        Synced next ∧ ∀ old new, reply = .scheduled old new → old = some s.currentPid := by
    intro result holds mapped
    obtain ⟨⟨switch, after⟩, ran, result⟩ := Option.map_eq_some_iff.mp mapped
    simp only [Prod.mk.injEq] at result
    obtain ⟨rfl, rfl⟩ := result
    obtain ⟨syncedAfter, saves⟩ := holds synced _ _ ran
    exact ⟨syncedAfter, fun old new same => saves (old, new) (Reply.ofSwitch_eq_scheduled same)⟩
  cases call with
  | create name parentId =>
      simp only [SchedulerContext.step, Option.some.injEq, Prod.mk.injEq] at stepped
      obtain ⟨rfl, rfl⟩ := stepped
      exact ⟨synced.createProcess name parentId, fun _ _ created => by cases created⟩
  | scheduleNext =>
      obtain ⟨⟨⟨old, new⟩, after⟩, ran, result⟩ := Option.map_eq_some_iff.mp stepped
      simp only [Prod.mk.injEq] at result
      obtain ⟨rfl, rfl⟩ := result
      obtain ⟨-, -, -, -, savesCurrent, -, -⟩ := synced.scheduleNext_eq ran
      refine ⟨synced.scheduleNext ran, ?_⟩
      intro old' new' same
      cases same
      exact savesCurrent
  | blockCurrent => exact scheduling (fun synced _ _ ran => synced.blockCurrent ran) stepped
  | yieldCurrent => exact scheduling (fun synced _ _ ran => synced.yieldCurrent ran) stepped
  | unblock pid =>
      simp only [SchedulerContext.step, Option.some.injEq, Prod.mk.injEq] at stepped
      obtain ⟨rfl, rfl⟩ := stepped
      exact ⟨synced.demotes (unblockProcess_demotes pid), fun _ _ done => by cases done⟩
  | terminate pid waiters =>
      exact scheduling (fun synced _ _ ran => synced.terminateProcess ran) stepped
  | cleanup => cases keeps
  | reap pid => cases keeps

/-- Along a run without removals every state is synced. -/
theorem Synced.run (synced : Synced s) {calls : List Call}
    (keeps : ∀ call ∈ calls, call.removes = false) {replies : List Reply}
    {final : SchedulerContext} (ran : machine.run s calls = some (replies, final)) :
    Synced final :=
  machine.run_invariant (fun keepsCall synced stepped => (synced.step keepsCall stepped).1)
    keeps synced ran

theorem processInit_synced : Synced processInit where
  current := rfl
  onlyScheduledRuns := fun {index} _ found _ => by
    cases index with
    | zero => rfl
    | succ index => cases found
  fresh := by decide
  distinct := by decide

/-! ## A removal before the current position -/

/-- Three processes are created and scheduled twice, so that the second of
them runs; the first is terminated and cleaned up.  The current process then
sits one position before `schedule_index`, and the next `schedule_next`
saves into the process after it and leaves two processes running. -/
theorem cleanup_desynchronizes_schedule :
    ∃ replies middle final,
      machine.run processInit
          [.create "a" none, .create "b" none, .create "c" none, .scheduleNext, .scheduleNext,
            .terminate 2 [], .cleanup] = some (replies, middle) ∧
        middle.currentPid = 3 ∧
        (middle.processes.findIdx? fun process => process.id == 3) = some 1 ∧
        middle.scheduleIndex = 2 ∧
        machine.step middle .scheduleNext = some (.scheduled (some 4) 1, final) ∧
        (final.processes.filter fun process => process.state = .running).map Process.id = [1, 3] :=
  ⟨_, _, _, rfl, rfl, rfl, rfl, rfl, rfl⟩

end SchedulerContext

end Fullerene.Kernel
