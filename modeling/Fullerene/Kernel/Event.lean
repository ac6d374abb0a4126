import Fullerene.Kernel.Scheduler
import Mathlib.Logic.Function.Basic

/-!
# Blocking on events, threads and child processes

The kernel objects a process can wait for: an event (`syscall_wait_event`,
`syscall_signal_event`), a thread (`syscall_join_thread`,
`syscall_exit_thread`) and a child process (`syscall_wait`,
`terminate_process`).  Each wait takes the object's lock to check it and to
register the caller, releases it, and only then calls `block_current`; a
process can be preempted between any two of these steps.  A process's
position inside its current system call is its `Phase`, and one action is
one step of one process (or a termination by the kernel).  A step of a
blocked process is not enabled (the step is `none`).

`unblock_process` changes a process only if it is already `Blocked`, so a
signal or an exit that lands between the registration and `block_current`
consumes the waiter entry and wakes nobody (`signal_before_block_is_lost`).
After waking, `syscall_wait_event` treats "no longer registered" as success,
so a consumed auto-reset signal can be reported to two callers
(`wait_event_succeeds_twice_per_signal`).  Nothing in the kernel acts on
`timeout_us`: steps that signal, exit or terminate nothing never wake a
blocked process (`quiet_run_keeps_blocked`).

The event and the thread object are one each: the properties are per object.
`eventHolders` and `threadHolders` are the processes whose handle tables hold
them; terminating such a process releases the object's waiters
(`ProcessResources::cleanup`).  The scheduler's choice of the next process is
the choice of the next action.
-/

namespace Fullerene.Kernel

open Function

/-- The `SyscallError` variants the modelled system calls return. -/
inductive SyscallError
  | wouldBlock
  | timedOut
  | noSuchProcess
  | outOfMemory
  | invalidArgument
  | permissionDenied
  | addressFault
  deriving DecidableEq, Repr

/-- `struct EventInner`. -/
structure EventInner where
  signaled : Bool
  manualReset : Bool
  waiters : List Nat
  deriving DecidableEq, Repr

/-- Taking an auto-reset signal clears it. -/
def EventInner.consume (event : EventInner) : EventInner :=
  if event.manualReset then event else { event with signaled := false }

@[simp]
theorem EventInner.waiters_consume (event : EventInner) : event.consume.waiters = event.waiters := by
  unfold EventInner.consume
  split_ifs <;> rfl

/-- The waiters \`syscall_signal_event\` takes: all of a manual-reset event's,
the last of an auto-reset one's. -/
def EventInner.released (event : EventInner) : List Nat :=
  if event.manualReset then event.waiters else event.waiters.getLast?.toList

/-- The event once \`syscall_signal_event\` has set it and taken its waiters. -/
def EventInner.signal (event : EventInner) : EventInner :=
  { event with signaled := true, waiters := if event.manualReset then [] else event.waiters.dropLast }

theorem EventInner.mem_waiters_of_mem_released {event : EventInner} {pid : Nat}
    (member : pid ∈ event.released) : pid ∈ event.waiters := by
  unfold EventInner.released at member
  split_ifs at member
  · exact member
  · obtain ⟨nonempty, last⟩ := List.mem_getLast?_eq_getLast (Option.mem_toList.mp member)
    exact last ▸ List.getLast_mem nonempty

theorem EventInner.mem_waiters_of_mem_signal {event : EventInner} {pid : Nat}
    (member : pid ∈ event.signal.waiters) : pid ∈ event.waiters := by
  unfold EventInner.signal at member
  split_ifs at member
  · exact absurd member List.not_mem_nil
  · exact List.dropLast_subset _ member

/-- The part of `struct ThreadInner` that joins read: the thread's pid, its
exit code once it has exited, and the joiners. -/
structure ThreadInner where
  pid : Nat
  exitCode : Option Int
  waiters : List Nat
  deriving DecidableEq, Repr

/-- Where a process is inside a blocking system call. -/
inductive Phase
  | outside
  /-- `syscall_wait_event` after the fast path found no signal. -/
  | waitEnqueue
  /-- Registered on the event, before `block_current`. -/
  | waitBlock
  /-- The check after `block_current` (or after finding the event signalled
  at registration). -/
  | waitRecheck
  /-- Registered on the thread, before `block_current`. -/
  | joinBlock
  | joinRecheck
  /-- `syscall_wait` found the child alive, before `block_current`. -/
  | childBlock (child : Nat)
  /-- `syscall_wait` back at the head of its loop. -/
  | childCheck (child : Nat)
  deriving DecidableEq, Repr

/-- The objects and the processes as the blocking calls see them; `states`
is `none` for a pid that is not in the process list. -/
structure WaitState where
  event : EventInner
  thread : ThreadInner
  states : Nat → Option ProcessState
  parents : Nat → Option Nat
  exitCodes : Nat → Option Int
  phases : Nat → Phase
  eventHolders : List Nat
  threadHolders : List Nat

/-- One step of one process, or a termination by the kernel. -/
inductive Action
  | waitEvent (pid timeoutUs : Nat)
  | signalEvent (pid : Nat)
  | joinThread (pid : Nat)
  | exitThread (pid : Nat) (exitCode : Int)
  | waitProcess (pid child : Nat)
  | terminate (pid : Nat) (exitCode : Int)
  /-- The next step of the process inside its current system call. -/
  | advance (pid : Nat)
  deriving DecidableEq, Repr

/-- What a step returns: the result of a system call that ends with it, or
nothing yet. -/
inductive Reply
  | waited (result : Except SyscallError Int)
  | signalled
  | joined (result : Except SyscallError Int)
  | exited
  | reaped (result : Except SyscallError Int)
  | terminated
  | stepped

/-- A `syscall_wait_event` that returned `Ok(0)`. -/
def Reply.waitSucceeded : Reply → Bool
  | .waited (.ok 0) => true
  | _ => false

def Reply.isSignal : Reply → Bool
  | .signalled => true
  | _ => false

/-- The actions that signal no event, end no thread and end no process. -/
def Action.quiet : Action → Bool
  | .signalEvent _ | .exitThread _ _ | .terminate _ _ => false
  | _ => true

namespace WaitState

variable (k : WaitState)

/-- A process the scheduler may run. -/
def runnable (pid : Nat) : Bool :=
  match k.states pid with
  | some .ready | some .running => true
  | _ => false

def setPhase (pid : Nat) (phase : Phase) : WaitState :=
  { k with phases := update k.phases pid phase }

/-- `block_current`, run by `pid`. -/
def block (pid : Nat) (phase : Phase) : WaitState :=
  { k with states := update k.states pid (some .blocked), phases := update k.phases pid phase }

/-- `unblock_process` on the process states: only a blocked process becomes
ready. -/
def unblocked (states : Nat → Option ProcessState) (pid : Nat) : Nat → Option ProcessState :=
  update states pid (if states pid = some .blocked then some .ready else states pid)

/-- `unblock_process`. -/
def unblockProcess (pid : Nat) : WaitState :=
  { k with states := unblocked k.states pid }

/-- `unblock_process` for each pid in turn. -/
def unblockAll (pids : List Nat) : WaitState :=
  { k with states := pids.foldl unblocked k.states }

/-- `terminate_process`: the process ends, the waiters of the objects its
handle table holds are released, and a blocked parent is unblocked. -/
def terminateProcess (pid : Nat) (exitCode : Int) : WaitState :=
  match k.states pid with
  | none => k
  | some _ =>
      let eventWaiters := if pid ∈ k.eventHolders then k.event.waiters else []
      let threadWaiters := if pid ∈ k.threadHolders then k.thread.waiters else []
      let ended : WaitState :=
        { k with
          states := update k.states pid (some .terminated)
          exitCodes := update k.exitCodes pid (some exitCode)
          event := if pid ∈ k.eventHolders then { k.event with waiters := [] } else k.event
          thread := if pid ∈ k.threadHolders then { k.thread with waiters := [] } else k.thread
          eventHolders := k.eventHolders.erase pid
          threadHolders := k.threadHolders.erase pid }
      let released := ended.unblockAll (eventWaiters ++ threadWaiters)
      match k.parents pid with
      | some parent => released.unblockProcess parent
      | none => released

/-- The loop head of `syscall_wait`: a terminated child ends the call, a live
one makes the caller block. -/
def checkChild (pid child : Nat) : Reply × WaitState :=
  match k.states child with
  | some .terminated => (.reaped (.ok ((k.exitCodes child).getD 0)), k.setPhase pid .outside)
  | some _ => (.stepped, k.setPhase pid (.childBlock child))
  | none => (.reaped (.error .noSuchProcess), k.setPhase pid .outside)

/-- \`syscall_wait\`, up to the first block; \`syscall_wait(0)\` only yields. -/
def waitProcess (pid child : Nat) : Reply × WaitState :=
  if child = 0 then (.reaped (.ok 0), k) else k.checkChild pid child

/-- The next step of a process inside its system call. -/
def advance (pid : Nat) : Option (Reply × WaitState) :=
  match k.phases pid with
  | .outside => none
  | .waitEnqueue =>
      -- recheck under the lock before registering
      if k.event.signaled then
        some (.stepped, { k.setPhase pid .waitRecheck with event := EventInner.consume k.event })
      else
        some (.stepped, { k.setPhase pid .waitBlock with
          event := { k.event with waiters := k.event.waiters ++ [pid] } })
  | .waitBlock => some (.stepped, k.block pid .waitRecheck)
  | .waitRecheck =>
      if k.event.signaled then
        some (.waited (.ok 0), { k.setPhase pid .outside with event := EventInner.consume k.event })
      else if pid ∉ k.event.waiters then
        -- "PID was consumed by signaler - treat as success"
        some (.waited (.ok 0), k.setPhase pid .outside)
      else
        some (.waited (.error .timedOut), { k.setPhase pid .outside with
          event := { k.event with waiters := k.event.waiters.filter fun waiter => waiter != pid } })
  | .joinBlock => some (.stepped, k.block pid .joinRecheck)
  | .joinRecheck =>
      match k.thread.exitCode with
      | some exitCode => some (.joined (.ok exitCode), k.setPhase pid .outside)
      | none => some (.joined (.error .noSuchProcess), k.setPhase pid .outside)
  | .childBlock child => some (.stepped, k.block pid (.childCheck child))
  | .childCheck child => some (k.checkChild pid child)

/-- `syscall_wait_event`, up to the registration: the fast path takes a
pending signal, a zero timeout does not block. -/
def waitEvent (pid timeoutUs : Nat) : Reply × WaitState :=
  if k.event.signaled then (.waited (.ok 0), { k with event := EventInner.consume k.event })
  else if timeoutUs = 0 then (.waited (.error .wouldBlock), k)
  else (.stepped, k.setPhase pid .waitEnqueue)

/-- `syscall_signal_event`: set the event, take all waiters of a manual-reset
event or the last waiter of an auto-reset one, and unblock them. -/
def signalEvent : WaitState :=
  { k with event := k.event.signal }.unblockAll k.event.released

/-- `syscall_join_thread`, up to the registration. -/
def joinThread (pid : Nat) : Reply × WaitState :=
  match k.thread.exitCode with
  | some exitCode => (.joined (.ok exitCode), k)
  | none =>
      (.stepped, { k.setPhase pid .joinBlock with
        thread := { k.thread with waiters := k.thread.waiters ++ [pid] } })

/-- `syscall_exit_thread`: record the exit code on the thread object of the
caller, unblock its joiners, and terminate the caller. -/
def exitThread (pid : Nat) (exitCode : Int) : WaitState :=
  let released := if k.thread.pid = pid then k.thread.waiters else []
  let recorded : WaitState :=
    if k.thread.pid = pid then
      { k with thread := { k.thread with exitCode := some exitCode, waiters := [] } }
    else k
  (recorded.unblockAll released).terminateProcess pid exitCode

/-- One action; `none` when it is not enabled. -/
def step : Action → Option (Reply × WaitState)
  | .waitEvent pid timeoutUs =>
      if k.runnable pid ∧ k.phases pid = .outside then some (k.waitEvent pid timeoutUs) else none
  | .signalEvent pid =>
      if k.runnable pid ∧ k.phases pid = .outside then some (.signalled, k.signalEvent) else none
  | .joinThread pid =>
      if k.runnable pid ∧ k.phases pid = .outside then some (k.joinThread pid) else none
  | .exitThread pid exitCode =>
      if k.runnable pid ∧ k.phases pid = .outside then some (.exited, k.exitThread pid exitCode)
      else none
  | .waitProcess pid child =>
      if k.runnable pid ∧ k.phases pid = .outside then some (k.waitProcess pid child) else none
  | .terminate pid exitCode => some (.terminated, k.terminateProcess pid exitCode)
  | .advance pid => if k.runnable pid then k.advance pid else none

/-- The kernel from a given start. -/
def machine (start : WaitState) : Machine WaitState Action Reply :=
  ⟨start, fun k => k.step⟩

/-! ## Unblocking -/

theorem unblocked_of_ne {states : Nat → Option ProcessState} {pid other : Nat}
    (different : pid ≠ other) : unblocked states pid other = states other := by
  unfold unblocked
  exact update_of_ne (Ne.symm different) _ _

/-- Unblocking a list of pids leaves every other process as it was. -/
theorem foldl_unblocked_of_not_mem {states : Nat → Option ProcessState} {pids : List Nat}
    {other : Nat} (absent : other ∉ pids) : pids.foldl unblocked states other = states other := by
  induction pids generalizing states with
  | nil => rfl
  | cons pid rest inductionHypothesis =>
      have notFirst : pid ≠ other := by
        rintro rfl
        exact absent List.mem_cons_self
      rw [List.foldl_cons, inductionHypothesis (fun member => absent (List.mem_cons_of_mem _ member)),
        unblocked_of_ne notFirst]

/-- Unblocking leaves a process that is not blocked as it is. -/
theorem foldl_unblocked_of_not_blocked {states : Nat → Option ProcessState} {pids : List Nat}
    {other : Nat} (awake : states other ≠ some .blocked) :
    pids.foldl unblocked states other = states other := by
  induction pids generalizing states with
  | nil => rfl
  | cons pid rest inductionHypothesis =>
      have unchanged : unblocked states pid other = states other := by
        by_cases same : pid = other
        · subst same
          simp [unblocked, awake]
        · exact unblocked_of_ne same
      rw [List.foldl_cons, inductionHypothesis (unchanged ▸ awake), unchanged]

/-- Unblocking a list of pids makes each blocked one of them ready. -/
theorem foldl_unblocked_of_mem {states : Nat → Option ProcessState} {pids : List Nat}
    {pid : Nat} (member : pid ∈ pids) (blocked : states pid = some .blocked) :
    pids.foldl unblocked states pid = some .ready := by
  induction pids generalizing states with
  | nil => cases member
  | cons first rest inductionHypothesis =>
      rw [List.foldl_cons]
      by_cases same : first = pid
      · -- the first unblock wakes it, the later ones leave it ready
        subst same
        have woken : unblocked states first first = some .ready := by
          simp [unblocked, blocked]
        rw [foldl_unblocked_of_not_blocked (by rw [woken]; simp), woken]
      · have later : pid ∈ rest := (List.mem_cons.mp member).resolve_left (Ne.symm same)
        exact inductionHypothesis later (by rw [unblocked_of_ne same, blocked])

/-! ## What each step does to the process states -/

@[simp]
theorem states_setPhase (pid : Nat) (phase : Phase) : (k.setPhase pid phase).states = k.states :=
  rfl

/-- \`syscall_wait\`'s loop head only moves the caller's phase. -/
theorem checkChild_snd (pid child : Nat) : ∃ phase, (k.checkChild pid child).2 = k.setPhase pid phase := by
  unfold checkChild
  split <;> exact ⟨_, rfl⟩

/-- The inversion of \`advance\`: a step inside a system call either blocks
the caller, or moves the caller's phase and rewrites the event, adding at most
the caller to its waiters. -/
theorem advance_inv {pid : Nat} {reply : Reply} {next : WaitState}
    (stepped : k.advance pid = some (reply, next)) :
    (∃ phase, next = k.block pid phase) ∨
      ∃ phase event, next = { k.setPhase pid phase with event } ∧
        ∀ waiter ∈ event.waiters, waiter ∈ k.event.waiters ∨ waiter = pid := by
  -- the event is consumed, appended to, filtered or kept
  have consumed : ∀ waiter ∈ k.event.consume.waiters, waiter ∈ k.event.waiters ∨ waiter = pid :=
    fun _ member => .inl (by simpa using member)
  have kept : ∀ waiter ∈ k.event.waiters, waiter ∈ k.event.waiters ∨ waiter = pid :=
    fun _ member => .inl member
  unfold advance at stepped
  split at stepped
  · cases stepped
  · split_ifs at stepped <;> rw [Option.some.injEq, Prod.mk.injEq] at stepped <;>
      obtain ⟨-, rfl⟩ := stepped
    · exact .inr ⟨_, _, rfl, consumed⟩
    · refine .inr ⟨_, _, rfl, fun waiter member => ?_⟩
      simpa using member
  · rw [Option.some.injEq, Prod.mk.injEq] at stepped
    obtain ⟨-, rfl⟩ := stepped
    exact .inl ⟨_, rfl⟩
  · split_ifs at stepped <;> rw [Option.some.injEq, Prod.mk.injEq] at stepped <;>
      obtain ⟨-, rfl⟩ := stepped
    · exact .inr ⟨_, _, rfl, consumed⟩
    · exact .inr ⟨_, _, rfl, fun waiter member => .inl (List.mem_filter.mp member).1⟩
    · exact .inr ⟨_, k.event, rfl, kept⟩
  · rw [Option.some.injEq, Prod.mk.injEq] at stepped
    obtain ⟨-, rfl⟩ := stepped
    exact .inl ⟨_, rfl⟩
  · split at stepped <;> rw [Option.some.injEq, Prod.mk.injEq] at stepped <;>
      obtain ⟨-, rfl⟩ := stepped <;> exact .inr ⟨_, k.event, rfl, kept⟩
  · rw [Option.some.injEq, Prod.mk.injEq] at stepped
    obtain ⟨-, rfl⟩ := stepped
    exact .inl ⟨_, rfl⟩
  · obtain ⟨phase, moved⟩ := k.checkChild_snd pid _
    rw [Option.some.injEq] at stepped
    rw [show next = (k.checkChild pid _).2 by rw [stepped], moved]
    exact .inr ⟨phase, k.event, rfl, kept⟩

theorem states_checkChild (pid child : Nat) : (k.checkChild pid child).2.states = k.states := by
  obtain ⟨phase, moved⟩ := k.checkChild_snd pid child
  rw [moved]
  rfl

theorem states_waitProcess (pid child : Nat) : (k.waitProcess pid child).2.states = k.states := by
  unfold waitProcess
  split_ifs
  · rfl
  · exact k.states_checkChild pid child

theorem states_waitEvent (pid timeoutUs : Nat) : (k.waitEvent pid timeoutUs).2.states = k.states := by
  unfold waitEvent
  split_ifs <;> rfl

theorem states_joinThread (pid : Nat) : (k.joinThread pid).2.states = k.states := by
  unfold joinThread
  split <;> rfl

/-- A step inside a system call changes no other process's state. -/
theorem states_advance_of_ne {pid other : Nat} (different : other ≠ pid) {reply : Reply}
    {next : WaitState} (stepped : k.advance pid = some (reply, next)) :
    next.states other = k.states other := by
  rcases k.advance_inv stepped with ⟨phase, rfl⟩ | ⟨phase, event, rfl, -⟩
  · exact update_of_ne different _ _
  · rfl

/-! ## A process that nothing wakes -/

/-- A process no wake-up reaches: it is blocked (or has been terminated
since), it is on no waiter list, and no process has it as parent. -/
structure Forgotten (k : WaitState) (waiter : Nat) : Prop where
  asleep : k.states waiter = some .blocked ∨ k.states waiter = some .terminated
  notWaiting : waiter ∉ k.event.waiters
  notJoining : waiter ∉ k.thread.waiters
  childless : ∀ pid, k.parents pid ≠ some waiter

variable {k} {waiter : Nat}

/-- A forgotten process is kept forgotten by a change that leaves its state
(or terminates it), adds it to no waiter list and keeps the parents. -/
theorem Forgotten.of_frame (forgotten : Forgotten k waiter) {next : WaitState}
    (state : next.states waiter = k.states waiter ∨ next.states waiter = some .terminated)
    (waiting : waiter ∈ next.event.waiters → waiter ∈ k.event.waiters)
    (joining : waiter ∈ next.thread.waiters → waiter ∈ k.thread.waiters)
    (parents : next.parents = k.parents) : Forgotten next waiter where
  asleep := by
    rcases state with same | ended
    · rw [same]
      exact forgotten.asleep
    · exact .inr ended
  notWaiting := fun member => forgotten.notWaiting (waiting member)
  notJoining := fun member => forgotten.notJoining (joining member)
  childless := parents ▸ forgotten.childless

/-- A forgotten process is not runnable. -/
theorem Forgotten.runnable_eq_false (forgotten : Forgotten k waiter) : k.runnable waiter = false := by
  unfold runnable
  rcases forgotten.asleep with blocked | ended
  · rw [blocked]
  · rw [ended]

theorem Forgotten.ne_of_runnable (forgotten : Forgotten k waiter) {pid : Nat}
    (runs : k.runnable pid = true) : pid ≠ waiter := by
  rintro rfl
  rw [forgotten.runnable_eq_false] at runs
  cases runs

theorem Forgotten.unblockAll (forgotten : Forgotten k waiter) {pids : List Nat}
    (absent : waiter ∉ pids) : Forgotten (k.unblockAll pids) waiter :=
  forgotten.of_frame (.inl (foldl_unblocked_of_not_mem absent)) id id rfl

theorem Forgotten.terminateProcess (forgotten : Forgotten k waiter) (pid : Nat) (exitCode : Int) :
    Forgotten (k.terminateProcess pid exitCode) waiter := by
  unfold WaitState.terminateProcess
  split
  · exact forgotten
  · dsimp only
    -- the released waiters are taken from lists the forgotten process is not on
    have absent : waiter ∉ (if pid ∈ k.eventHolders then k.event.waiters else []) ++
        (if pid ∈ k.threadHolders then k.thread.waiters else []) := by
      rw [List.mem_append, not_or]
      constructor <;> split_ifs
      · exact forgotten.notWaiting
      · exact List.not_mem_nil
      · exact forgotten.notJoining
      · exact List.not_mem_nil
    have ended : Forgotten { k with
        states := update k.states pid (some .terminated)
        exitCodes := update k.exitCodes pid (some exitCode)
        event := if pid ∈ k.eventHolders then { k.event with waiters := [] } else k.event
        thread := if pid ∈ k.threadHolders then { k.thread with waiters := [] } else k.thread
        eventHolders := k.eventHolders.erase pid
        threadHolders := k.threadHolders.erase pid } waiter := by
      apply forgotten.of_frame
      · by_cases same : pid = waiter
        · exact .inr (same ▸ update_self _ _ _)
        · exact .inl (update_of_ne (Ne.symm same) _ _)
      · dsimp only
        split_ifs
        · exact fun member => absurd member List.not_mem_nil
        · exact id
      · dsimp only
        split_ifs
        · exact fun member => absurd member List.not_mem_nil
        · exact id
      · rfl
    have released := ended.unblockAll absent
    split
    · rename_i parent isParent
      have notParent : parent ≠ waiter := fun same => forgotten.childless pid (same ▸ isParent)
      exact released.of_frame (.inl (unblocked_of_ne notParent)) id id rfl
    · exact released

theorem Forgotten.setPhase (forgotten : Forgotten k waiter) (pid : Nat) (phase : Phase) :
    Forgotten (k.setPhase pid phase) waiter :=
  forgotten.of_frame (.inl rfl) id id rfl

/-- A step that changes the event and one process's phase, and puts the
forgotten process on no list. -/
theorem Forgotten.withEvent (forgotten : Forgotten k waiter) (pid : Nat) (phase : Phase)
    (event : EventInner) (waiting : waiter ∈ event.waiters → waiter ∈ k.event.waiters) :
    Forgotten { k.setPhase pid phase with event } waiter :=
  forgotten.of_frame (.inl rfl) waiting id rfl

theorem Forgotten.waitEvent (forgotten : Forgotten k waiter) (pid timeoutUs : Nat) :
    Forgotten (k.waitEvent pid timeoutUs).2 waiter := by
  unfold WaitState.waitEvent
  split_ifs
  · exact forgotten.of_frame (.inl rfl) (by simp) id rfl
  · exact forgotten
  · exact forgotten.setPhase pid _

/-- A signal releases waiters from the list, which the forgotten process is
not on. -/
theorem Forgotten.signalEvent (forgotten : Forgotten k waiter) :
    Forgotten k.signalEvent waiter := by
  apply Forgotten.unblockAll _ (fun member => forgotten.notWaiting
    (EventInner.mem_waiters_of_mem_released member))
  exact forgotten.of_frame (.inl rfl) EventInner.mem_waiters_of_mem_signal id rfl

theorem Forgotten.joinThread (forgotten : Forgotten k waiter) {pid : Nat} (other : pid ≠ waiter) :
    Forgotten (k.joinThread pid).2 waiter := by
  unfold WaitState.joinThread
  split
  · exact forgotten
  · dsimp only
    apply forgotten.of_frame
    · exact .inl rfl
    · exact id
    · intro member
      rcases List.mem_append.mp member with old | new
      · exact old
      · exact absurd (List.mem_singleton.mp new).symm other
    · rfl

theorem Forgotten.exitThread (forgotten : Forgotten k waiter) (pid : Nat) (exitCode : Int) :
    Forgotten (k.exitThread pid exitCode) waiter := by
  unfold WaitState.exitThread
  dsimp only
  apply Forgotten.terminateProcess
  -- the joiners released are the thread's, which the forgotten process is not among
  have recorded : Forgotten (if k.thread.pid = pid then
      { k with thread := { k.thread with exitCode := some exitCode, waiters := [] } } else k)
      waiter := by
    split_ifs
    · exact forgotten.of_frame (.inl rfl) id (fun member => absurd member List.not_mem_nil) rfl
    · exact forgotten
  apply recorded.unblockAll
  split_ifs
  · exact forgotten.notJoining
  · exact List.not_mem_nil

theorem Forgotten.checkChild (forgotten : Forgotten k waiter) (pid child : Nat) :
    Forgotten (k.checkChild pid child).2 waiter := by
  obtain ⟨phase, moved⟩ := k.checkChild_snd pid child
  rw [moved]
  exact forgotten.setPhase pid phase

theorem Forgotten.waitProcess (forgotten : Forgotten k waiter) (pid child : Nat) :
    Forgotten (k.waitProcess pid child).2 waiter := by
  unfold WaitState.waitProcess
  split_ifs
  · exact forgotten
  · exact forgotten.checkChild pid child

theorem Forgotten.block (forgotten : Forgotten k waiter) {pid : Nat} (other : pid ≠ waiter)
    (phase : Phase) : Forgotten (k.block pid phase) waiter :=
  forgotten.of_frame (.inl (update_of_ne (Ne.symm other) _ _)) id id rfl

/-- Another process's step inside its system call never adds the forgotten
process to a list nor wakes it. -/
theorem Forgotten.advance (forgotten : Forgotten k waiter) {pid : Nat} (other : pid ≠ waiter)
    {reply : Reply} {next : WaitState} (stepped : k.advance pid = some (reply, next)) :
    Forgotten next waiter := by
  rcases k.advance_inv stepped with ⟨phase, rfl⟩ | ⟨phase, event, rfl, added⟩
  · exact forgotten.block other phase
  · exact forgotten.withEvent pid phase event
      fun member => (added waiter member).resolve_right (Ne.symm other)

/-- No step wakes a forgotten process. -/
theorem Forgotten.step (forgotten : Forgotten k waiter) {action : Action} {reply : Reply}
    {next : WaitState} (stepped : k.step action = some (reply, next)) : Forgotten next waiter := by
  -- the processes that act are runnable, so they are not the forgotten one
  have enabled : ∀ {pid : Nat} {result : Reply × WaitState},
      (if k.runnable pid ∧ k.phases pid = .outside then some result else none) =
        some (reply, next) → pid ≠ waiter ∧ result.2 = next := by
    intro pid result guarded
    split_ifs at guarded with runs
    exact ⟨forgotten.ne_of_runnable runs.1, by rw [Option.some.inj guarded]⟩
  cases action with
  | waitEvent pid timeoutUs =>
      obtain ⟨-, result⟩ := enabled stepped
      rw [← result]
      exact forgotten.waitEvent pid timeoutUs
  | signalEvent pid =>
      obtain ⟨-, result⟩ := enabled stepped
      rw [← result]
      exact forgotten.signalEvent
  | joinThread pid =>
      obtain ⟨other, result⟩ := enabled stepped
      rw [← result]
      exact forgotten.joinThread other
  | exitThread pid exitCode =>
      obtain ⟨-, result⟩ := enabled stepped
      rw [← result]
      exact forgotten.exitThread pid exitCode
  | waitProcess pid child =>
      obtain ⟨-, result⟩ := enabled stepped
      rw [← result]
      exact forgotten.waitProcess pid child
  | terminate pid exitCode =>
      simp only [WaitState.step, Option.some.injEq, Prod.mk.injEq] at stepped
      obtain ⟨-, rfl⟩ := stepped
      exact forgotten.terminateProcess pid exitCode
  | advance pid =>
      simp only [WaitState.step] at stepped
      split_ifs at stepped with runs
      exact forgotten.advance (forgotten.ne_of_runnable runs) stepped

/-- Along every run a forgotten process stays forgotten, so it never runs
again. -/
theorem Forgotten.run (forgotten : Forgotten k waiter) {start : WaitState} {actions : List Action}
    {replies : List Reply} {final : WaitState}
    (ran : (machine start).run k actions = some (replies, final)) : Forgotten final waiter :=
  (machine start).run_invariant
    (fun _ (forgottenState : Forgotten _ waiter) stepped => forgottenState.step stepped)
    (fun _ _ => True.intro) forgotten ran

/-- A forgotten process is not runnable at the end of any run. -/
theorem Forgotten.never_runnable (forgotten : Forgotten k waiter) {start : WaitState}
    {actions : List Action} {replies : List Reply} {final : WaitState}
    (ran : (machine start).run k actions = some (replies, final)) : final.runnable waiter = false :=
  (forgotten.run ran).runnable_eq_false

/-! ## Waits that nothing ends

Nothing arms a timer for \`timeout_us\`: a blocked process stays blocked until
a signal, an exit or a termination unblocks it. -/

/-- A quiet step leaves a blocked process blocked. -/
theorem quiet_step_keeps_blocked {pid : Nat} (blocked : k.states pid = some .blocked)
    {action : Action} (quiet : action.quiet) {reply : Reply} {next : WaitState}
    (stepped : k.step action = some (reply, next)) : next.states pid = some .blocked := by
  -- the processes that act are runnable, so they are not the blocked one
  have enabled : ∀ {actor : Nat} {result : Reply × WaitState},
      (if k.runnable actor ∧ k.phases actor = .outside then some result else none) =
        some (reply, next) → result.2 = next := by
    intro actor result guarded
    split_ifs at guarded
    rw [Option.some.inj guarded]
  cases action with
  | waitEvent actor timeoutUs =>
      rw [← enabled stepped, states_waitEvent, blocked]
  | joinThread actor =>
      rw [← enabled stepped, states_joinThread, blocked]
  | waitProcess actor child =>
      rw [← enabled stepped, states_waitProcess, blocked]
  | advance actor =>
      simp only [WaitState.step] at stepped
      split_ifs at stepped with runs
      have different : pid ≠ actor := by
        rintro rfl
        simp [runnable, blocked] at runs
      rw [k.states_advance_of_ne different stepped, blocked]
  | signalEvent _ | exitThread _ _ | terminate _ _ => cases quiet

/-- Along a run of quiet steps a blocked process stays blocked: no wait
times out. -/
theorem quiet_run_keeps_blocked {start : WaitState} {pid : Nat}
    (blocked : k.states pid = some .blocked) {actions : List Action}
    (quiet : ∀ action ∈ actions, action.quiet) {replies : List Reply} {final : WaitState}
    (ran : (machine start).run k actions = some (replies, final)) :
    final.states pid = some .blocked :=
  (machine start).run_invariant
    (fun quietAction (blockedState : WaitState.states _ pid = some .blocked) stepped =>
      quiet_step_keeps_blocked blockedState quietAction stepped)
    quiet blocked ran

/-! ## Runs from three ready processes -/

/-- Processes 1, 2 and 3, ready, each holding one unsignalled auto-reset
event; the thread object is process 2's, nobody joins it and nobody has a
parent. -/
def threeProcesses : WaitState where
  event := ⟨false, false, []⟩
  thread := ⟨2, none, []⟩
  states pid := if 1 ≤ pid ∧ pid ≤ 3 then some .ready else none
  parents _ := none
  exitCodes _ := none
  phases _ := .outside
  eventHolders := [1, 2, 3]
  threadHolders := []

/-- Process 1 blocks on the event, process 2 signals it once and process 3
waits on it with a zero timeout: both waits return \`Ok(0)\`. -/
theorem wait_event_succeeds_twice_per_signal :
    ∃ replies final,
      (machine threeProcesses).run threeProcesses
          [.waitEvent 1 1000, .advance 1, .advance 1, .signalEvent 2, .waitEvent 3 0,
            .advance 1] = some (replies, final) ∧
        (replies.filter Reply.waitSucceeded).length = 2 ∧
        (replies.filter Reply.isSignal).length = 1 :=
  ⟨_, _, rfl, rfl, rfl⟩

/-- Process 2 signals after process 1 registered and before it blocked: the
signal takes the waiter entry, and process 1 never runs again, whatever
follows. -/
theorem signal_before_block_is_lost :
    ∃ replies middle,
      (machine threeProcesses).run threeProcesses
          [.waitEvent 1 1000, .advance 1, .signalEvent 2, .advance 1] = some (replies, middle) ∧
        middle.states 1 = some .blocked ∧ middle.event.waiters = [] ∧
        ∀ actions later final, (machine threeProcesses).run middle actions = some (later, final) →
          final.runnable 1 = false := by
  refine ⟨_, _, rfl, rfl, rfl, ?_⟩
  intro actions later final ran
  refine Forgotten.never_runnable ?_ ran
  exact
    { asleep := .inl rfl
      notWaiting := List.not_mem_nil
      notJoining := List.not_mem_nil
      childless := fun _ orphan => Option.some_ne_none 1 orphan.symm }

/-- The same for a join: process 2 exits after process 1 registered on its
thread and before it blocked. -/
theorem exit_before_block_is_lost :
    ∃ replies middle,
      (machine threeProcesses).run threeProcesses [.joinThread 1, .exitThread 2 7, .advance 1] =
          some (replies, middle) ∧
        middle.states 1 = some .blocked ∧ middle.thread.exitCode = some 7 ∧
        ∀ actions later final, (machine threeProcesses).run middle actions = some (later, final) →
          final.runnable 1 = false := by
  refine ⟨_, _, rfl, rfl, rfl, ?_⟩
  intro actions later final ran
  refine Forgotten.never_runnable ?_ ran
  exact
    { asleep := .inl rfl
      notWaiting := List.not_mem_nil
      notJoining := List.not_mem_nil
      childless := fun _ orphan => Option.some_ne_none 1 orphan.symm }

/-- Process 1 blocks on the event with a timeout; as long as nothing signals
it, nothing returns it \`Err(TimedOut)\`. -/
theorem wait_event_never_times_out :
    ∃ replies middle,
      (machine threeProcesses).run threeProcesses [.waitEvent 1 1000, .advance 1, .advance 1] =
          some (replies, middle) ∧
        ∀ actions later final, (∀ action ∈ actions, action.quiet) →
          (machine threeProcesses).run middle actions = some (later, final) →
          final.states 1 = some .blocked :=
  ⟨_, _, rfl, fun _ _ _ quiet ran => quiet_run_keeps_blocked rfl quiet ran⟩

end WaitState

end Fullerene.Kernel
