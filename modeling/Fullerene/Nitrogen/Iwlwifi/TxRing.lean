import Fullerene.Lib.Machine
import Fullerene.Lib.Word

/-!
# The iwlwifi transmit ring

The driver hands commands (`send_hcmd`) and frames (`process_tx_queue`) to the
device through a ring of `TX_QUEUE_SIZE` descriptors.  `tx_head` counts the
descriptors written and `tx_tail` those the host knows the device has
consumed, both as `usize` counters that wrap; a descriptor goes to slot
`tx_head % TX_QUEUE_SIZE`, and a submission is refused while
`tx_head - tx_tail` is `TX_QUEUE_SIZE`.  On an interrupt, `tick` reads the
device's write pointer, the number of descriptors consumed modulo
`TX_QUEUE_SIZE`, and `update_tx_tail` moves `tx_tail` on by the distance
from its own index.

`TxSystem` runs the driver with a device that consumes descriptors in order.
Along every run the host's count lags the device's by less than a ring
(`Accounted`), so the ring never holds more than `TX_QUEUE_SIZE` descriptors,
no slot is written while it holds one the device has not consumed
(`submit_leaves_consumed_slot`), and `tx_tail_reached` never answers early
(`consumed_of_txTailReached`).  But a ring of `TX_QUEUE_SIZE` outstanding
descriptors that the device has all consumed reads as one where it has
consumed none, so the driver never sees that progress and the ring stays full
for ever (`full_ring_never_drains`).
-/

namespace Fullerene.Nitrogen.Iwlwifi

open Word

/-! ## The driver -/

/-- `TX_QUEUE_SIZE`. -/
def txQueueSize : Nat := 256

/-- `MAX_FRAME_SIZE`. -/
def maxFrameSize : Nat := 2346

/-- `size_of::<HcmdHeader>()`. -/
def hcmdHeaderSize : Nat := 8

/-- The `DriverError` variants the ring returns. -/
inductive DriverError
  | invalidArgument
  | busy
  deriving DecidableEq, Repr

/-- The ring counters of `IwlWifiDevice`. -/
structure TxRing where
  txHead : Nat
  txTail : Nat
  deriving DecidableEq, Repr

namespace TxRing

/-- Whether `tx_head.wrapping_sub(tx_tail) >= TX_QUEUE_SIZE`. -/
def full (ring : TxRing) : Prop := txQueueSize ≤ wrappingSub 64 ring.txHead ring.txTail

instance (ring : TxRing) : Decidable ring.full := inferInstanceAs (Decidable (_ ≤ _))

/-- Writing the descriptor at `tx_head % TX_QUEUE_SIZE` and moving `tx_head` on. -/
def push (ring : TxRing) : TxRing := { ring with txHead := wrappingAdd 64 ring.txHead 1 }

/-- `send_hcmd` with `length` bytes of command data. -/
def sendHcmd (ring : TxRing) (length : Nat) : Except DriverError Unit × TxRing :=
  if hcmdHeaderSize + length > maxFrameSize then (.error .invalidArgument, ring)
  else if ring.full then (.error .busy, ring)
  else (.ok (), ring.push)

/-- `process_tx_queue` over the queued frames, given by their lengths: an
oversized frame is dropped, and the loop stops at a full ring. -/
def processTxQueue (ring : TxRing) : List Nat → TxRing × List Nat
  | [] => (ring, [])
  | frame :: rest =>
      if frame > maxFrameSize then processTxQueue ring rest
      else if ring.full then (ring, frame :: rest)
      else processTxQueue ring.push rest

/-- `tx_tail_reached`. -/
def txTailReached (ring : TxRing) (target : Nat) : Bool :=
  decide (0 ≤ toSigned 64 (wrappingSub 64 ring.txTail target))

/-- `update_tx_tail`: a step back is ignored. -/
def updateTxTail (ring : TxRing) (hardwareTail : Nat) : TxRing :=
  let hardwareTail := hardwareTail % txQueueSize
  let currentTail := ring.txTail % txQueueSize
  let advance := (hardwareTail + txQueueSize - currentTail) % txQueueSize
  let outstanding := wrappingSub 64 ring.txHead ring.txTail
  if advance > outstanding then ring
  else { ring with txTail := wrappingAdd 64 ring.txTail advance }

theorem sendHcmd_snd (ring : TxRing) (length : Nat) :
    (ring.sendHcmd length).2 = ring ∨ (¬ ring.full ∧ (ring.sendHcmd length).2 = ring.push) := by
  unfold sendHcmd
  split
  · exact .inl rfl
  split
  · exact .inl rfl
  · rename_i room
    exact .inr ⟨room, rfl⟩

@[simp]
theorem txHead_updateTxTail (ring : TxRing) (hardwareTail : Nat) :
    (ring.updateTxTail hardwareTail).txHead = ring.txHead := by
  unfold updateTxTail
  dsimp only
  split <;> rfl

end TxRing

/-! ## The driver and the device -/

/-- The driver's ring and frame queue, with the device: `submitted` counts the
descriptors written, `consumed` those the device has taken. -/
structure TxSystem where
  ring : TxRing
  txQueue : List Nat
  submitted : Nat
  consumed : Nat
  deriving DecidableEq, Repr

inductive TxCall
  | sendHcmd (length : Nat)
  | sendFrame (length : Nat)
  | consume
  | tick
  | tailReached (target : Nat)
  deriving DecidableEq, Repr

inductive TxReply
  | sent (result : Except DriverError Unit)
  | queued
  | consumed
  | ticked
  | reached (answer : Bool)
  deriving DecidableEq, Repr

namespace TxSystem

/-- How many descriptors the driver wrote between two rings. -/
def pushed (before after : TxRing) : Nat := wrappingSub 64 after.txHead before.txHead

/-- The queued frames handed to the ring. -/
def process (system : TxSystem) (ring : TxRing) (queue : List Nat) : TxSystem :=
  let processed := ring.processTxQueue queue
  ⟨processed.1, processed.2, system.submitted + pushed system.ring processed.1, system.consumed⟩

/-- One call of the driver or one descriptor consumed by the device, which
takes only what has been written. -/
def step (system : TxSystem) : TxCall → Option (TxReply × TxSystem)
  | .sendHcmd length =>
      let (result, ring) := system.ring.sendHcmd length
      some (.sent result, { system with ring, submitted := system.submitted + pushed system.ring ring })
  | .sendFrame length => some (.queued, system.process system.ring (system.txQueue ++ [length]))
  | .consume =>
      if system.consumed < system.submitted then some (.consumed, { system with consumed := system.consumed + 1 })
      else none
  | .tick => some (.ticked, system.process (system.ring.updateTxTail (system.consumed % txQueueSize)) system.txQueue)
  | .tailReached target => some (.reached (system.ring.txTailReached target), system)

def machine : Machine TxSystem TxCall TxReply :=
  ⟨⟨⟨0, 0⟩, [], 0, 0⟩, step⟩

end TxSystem

/-! ## The counters of the ring -/

namespace TxRing

/-- The ring's counters are `written` and `seen` modulo `2 ^ 64`, at most a
ring apart. -/
structure Counts (ring : TxRing) (written seen : Nat) : Prop where
  head_eq : ring.txHead = written % 2 ^ 64
  tail_eq : ring.txTail = seen % 2 ^ 64
  seen_le : seen ≤ written
  window : written ≤ seen + txQueueSize

variable {ring : TxRing} {written seen : Nat}

theorem Counts.outstanding (counts : Counts ring written seen) :
    wrappingSub 64 ring.txHead ring.txTail = written - seen := by
  have window := counts.window
  rw [counts.head_eq, counts.tail_eq, wrappingSub_mod_mod 64 counts.seen_le]
  unfold txQueueSize at window
  omega

theorem Counts.full_iff (counts : Counts ring written seen) : ring.full ↔ written = seen + txQueueSize := by
  have window := counts.window
  have seenLe := counts.seen_le
  rw [full, counts.outstanding]
  omega

theorem Counts.push (counts : Counts ring written seen) (room : ¬ ring.full) :
    Counts ring.push (written + 1) seen := by
  have below := mt counts.full_iff.mpr room
  have window := counts.window
  have seenLe := counts.seen_le
  refine ⟨?_, counts.tail_eq, by omega, by omega⟩
  rw [TxRing.push, wrappingAdd, counts.head_eq, Nat.mod_add_mod]

/-- `process_tx_queue` writes some number of descriptors and keeps the ring
within its window. -/
theorem Counts.processTxQueue (queue : List Nat) (counts : Counts ring written seen) :
    ∃ added, Counts (ring.processTxQueue queue).1 (written + added) seen := by
  induction queue generalizing ring written with
  | nil => exact ⟨0, counts⟩
  | cons frame rest inductionHypothesis =>
      unfold TxRing.processTxQueue
      split
      · exact inductionHypothesis counts
      split
      · exact ⟨0, counts⟩
      rename_i room
      obtain ⟨added, pushed⟩ := inductionHypothesis (counts.push room)
      exact ⟨added + 1, by rw [← Nat.add_assoc, Nat.add_right_comm]; exact pushed⟩

/-- The descriptors written between two rings whose heads are known. -/
theorem pushed_eq {before later : TxRing} {added : Nat} (beforeHead : before.txHead = written % 2 ^ 64)
    (laterHead : later.txHead = (written + added) % 2 ^ 64) (small : added < 2 ^ 64) :
    TxSystem.pushed before later = added := by
  rw [TxSystem.pushed, laterHead, beforeHead, wrappingSub_mod_mod 64 (Nat.le_add_right _ _)]
  omega

/-- `update_tx_tail` at the device's index of `consumed` moves the host's
count on by the distance modulo a ring. -/
theorem Counts.updateTxTail {consumed : Nat} (counts : Counts ring written seen) (seenLe : seen ≤ consumed)
    (consumedLe : consumed ≤ written) :
    Counts (ring.updateTxTail (consumed % txQueueSize)) written (seen + (consumed - seen) % txQueueSize) := by
  have window := counts.window
  have advance : (consumed % txQueueSize % txQueueSize + txQueueSize - ring.txTail % txQueueSize) % txQueueSize =
      (consumed - seen) % txQueueSize := by
    rw [counts.tail_eq]
    unfold txQueueSize
    omega
  unfold TxRing.updateTxTail
  dsimp only
  rw [advance, counts.outstanding, if_neg (by unfold txQueueSize at window ⊢; omega)]
  refine ⟨counts.head_eq, ?_, by unfold txQueueSize at window ⊢; omega, by unfold txQueueSize at window ⊢; omega⟩
  rw [wrappingAdd, counts.tail_eq, Nat.mod_add_mod]

/-- `tx_tail_reached` at a position the driver has written answers only once
the host's count has passed it. -/
theorem Counts.le_of_txTailReached {target : Nat} (counts : Counts ring written seen) (written_ : target ≤ written)
    (reached : ring.txTailReached (target % 2 ^ 64) = true) : target ≤ seen := by
  have window := counts.window
  unfold txQueueSize at window
  by_contra behind
  -- the host's count is behind `target` by at most a ring, which `as isize` reads as negative
  have wrapped : wrappingSub 64 ring.txTail (target % 2 ^ 64) = seen + 2 ^ 64 - target := by
    rw [counts.tail_eq, ← Nat.add_mod_right seen, wrappingSub_mod_mod 64 (by omega)]
    omega
  rw [txTailReached, decide_eq_true_iff, wrapped, toSigned_nonneg_iff (by omega)] at reached
  omega

end TxRing

/-! ## Every run -/

namespace TxSystem

open TxRing

/-- The host has accounted for `seen` of the descriptors the device consumed,
and the device consumes only what was written. -/
structure Accounted (system : TxSystem) (seen : Nat) : Prop where
  counts : system.ring.Counts system.submitted seen
  seen_le : seen ≤ system.consumed
  consumed_le : system.consumed ≤ system.submitted

def Sound (system : TxSystem) : Prop := ∃ seen, system.Accounted seen

variable {system next : TxSystem} {seen : Nat}

/-- Handing the queue to a ring the host has accounted for keeps the account. -/
theorem Accounted.process {ring : TxRing} (head : ring.txHead = system.ring.txHead)
    (counts : ring.Counts system.submitted seen) (seenLe : seen ≤ system.consumed)
    (consumedLe : system.consumed ≤ system.submitted) (queue : List Nat) :
    (system.process ring queue).Accounted seen := by
  obtain ⟨added, pushedCounts⟩ := counts.processTxQueue queue
  have window := pushedCounts.window
  unfold txQueueSize at window
  have pushedAdded : pushed system.ring (ring.processTxQueue queue).1 = added :=
    pushed_eq (head ▸ counts.head_eq) pushedCounts.head_eq (by omega)
  unfold TxSystem.process
  dsimp only
  rw [pushedAdded]
  exact ⟨pushedCounts, seenLe, Nat.le_add_right_of_le consumedLe⟩

theorem Accounted.step (accounted : system.Accounted seen) {call : TxCall} {reply : TxReply}
    (stepped : system.step call = some (reply, next)) : next.Sound := by
  obtain ⟨counts, seenLe, consumedLe⟩ := accounted
  cases call with
  | sendHcmd length =>
      simp only [TxSystem.step, Option.some.injEq, Prod.mk.injEq] at stepped
      obtain ⟨-, rfl⟩ := stepped
      rcases system.ring.sendHcmd_snd length with same | ⟨room, pushedRing⟩
      · -- a refused command leaves the ring
        rw [same, pushed, wrappingSub_self, Nat.add_zero]
        exact ⟨seen, counts, seenLe, consumedLe⟩
      · have pushedOne : pushed system.ring system.ring.push = 1 :=
          pushed_eq counts.head_eq (counts.push room).head_eq (by decide)
        rw [pushedRing, pushedOne]
        exact ⟨seen, counts.push room, seenLe, Nat.le_succ_of_le consumedLe⟩
  | sendFrame length =>
      simp only [TxSystem.step, Option.some.injEq, Prod.mk.injEq] at stepped
      obtain ⟨-, rfl⟩ := stepped
      exact ⟨seen, Accounted.process rfl counts seenLe consumedLe _⟩
  | consume =>
      simp only [TxSystem.step] at stepped
      split at stepped
      · rename_i more
        simp only [Option.some.injEq, Prod.mk.injEq] at stepped
        obtain ⟨-, rfl⟩ := stepped
        exact ⟨seen, counts, Nat.le_succ_of_le seenLe, more⟩
      · cases stepped
  | tick =>
      simp only [TxSystem.step, Option.some.injEq, Prod.mk.injEq] at stepped
      obtain ⟨-, rfl⟩ := stepped
      have seenLe' : seen + (system.consumed - seen) % txQueueSize ≤ system.consumed := by
        unfold txQueueSize
        omega
      exact ⟨_, Accounted.process (txHead_updateTxTail _ _) (counts.updateTxTail seenLe consumedLe) seenLe'
        consumedLe _⟩
  | tailReached target =>
      simp only [TxSystem.step, Option.some.injEq, Prod.mk.injEq] at stepped
      obtain ⟨-, rfl⟩ := stepped
      exact ⟨seen, counts, seenLe, consumedLe⟩

theorem sound_inductive : machine.Inductive Sound where
  init := ⟨0, ⟨rfl, rfl, Nat.le_refl 0, Nat.zero_le _⟩, Nat.le_refl 0, Nat.le_refl 0⟩
  step := fun ⟨_, accounted⟩ stepped => accounted.step stepped

/-- Along every run the ring holds at most `TX_QUEUE_SIZE` descriptors, and
what is written is at most a ring ahead of what the device consumed, so the
slot `tx_head % TX_QUEUE_SIZE` that a submission writes holds no descriptor
the device has still to take. -/
theorem reachable_within_ring (reached : machine.Reachable system) :
    wrappingSub 64 system.ring.txHead system.ring.txTail ≤ txQueueSize ∧
      system.submitted ≤ system.consumed + txQueueSize := by
  obtain ⟨seen, counts, seenLe, _⟩ := sound_inductive.reachable reached
  have window := counts.window
  rw [counts.outstanding]
  omega

/-- `tx_tail_reached` never answers before the device has consumed every
descriptor written before the position asked about. -/
theorem consumed_of_txTailReached (reached : machine.Reachable system) {target : Nat}
    (written : target ≤ system.submitted) (answered : system.ring.txTailReached (target % 2 ^ 64) = true) :
    target ≤ system.consumed := by
  obtain ⟨seen, counts, seenLe, _⟩ := sound_inductive.reachable reached
  exact Nat.le_trans (counts.le_of_txTailReached written answered) seenLe

/-! ## A full ring that the device has emptied -/

/-- Commands are accepted while the ring has room. -/
theorem run_sendHcmd (length : Nat) (valid : hcmdHeaderSize + length ≤ maxFrameSize) :
    ∀ (count : Nat) (system : TxSystem), system.Accounted seen → system.submitted + count ≤ seen + txQueueSize →
      ∃ final, machine.run system (List.replicate count (.sendHcmd length)) =
          some (List.replicate count (.sent (.ok ())), final) ∧
        final.Accounted seen ∧ final.submitted = system.submitted + count ∧ final.consumed = system.consumed
  | 0, system, accounted, _ => ⟨system, rfl, accounted, rfl, rfl⟩
  | count + 1, system, ⟨counts, seenLe, consumedLe⟩, room => by
      have notFull : ¬ system.ring.full := by
        rw [counts.full_iff]
        omega
      have pushedOne : pushed system.ring system.ring.push = 1 :=
        pushed_eq counts.head_eq (counts.push notFull).head_eq (by decide)
      have stepped : system.step (.sendHcmd length) =
          some (.sent (.ok ()), { system with ring := system.ring.push, submitted := system.submitted + 1 }) := by
        simp only [step, TxRing.sendHcmd, if_neg (show ¬ hcmdHeaderSize + length > maxFrameSize by omega),
          if_neg notFull, pushedOne]
      obtain ⟨final, ran, accounted, submitted, consumed⟩ :=
        run_sendHcmd length valid count { system with ring := system.ring.push, submitted := system.submitted + 1 }
          ⟨counts.push notFull, seenLe, Nat.le_succ_of_le consumedLe⟩ (by dsimp only; omega)
      refine ⟨final, ?_, accounted, by rw [submitted]; dsimp only; omega, consumed⟩
      rw [List.replicate_succ, List.replicate_succ]
      exact machine.run_cons_eq_some.mpr ⟨_, _, _, stepped, ran, rfl⟩

/-- The device consumes what has been written, one descriptor at a time. -/
theorem run_consume : ∀ (count : Nat) (system : TxSystem), system.consumed + count ≤ system.submitted →
    machine.run system (List.replicate count .consume) =
      some (List.replicate count .consumed, { system with consumed := system.consumed + count })
  | 0, system, _ => rfl
  | count + 1, system, room => by
      have stepped : system.step .consume = some (.consumed, { system with consumed := system.consumed + 1 }) := by
        simp only [step, if_pos (show system.consumed < system.submitted by omega)]
      rw [List.replicate_succ, List.replicate_succ]
      refine machine.run_cons_eq_some.mpr ⟨_, _, _, stepped, ?_, rfl⟩
      rw [run_consume count _ (by dsimp only; omega), Nat.add_assoc, Nat.add_comm 1 count]

/-- The device has consumed all of a full ring and the host has seen none
of it. -/
def Drained (system : TxSystem) : Prop :=
  system.ring = ⟨256, 0⟩ ∧ system.submitted = 256 ∧ system.consumed = 256

theorem full_drained : (⟨256, 0⟩ : TxRing).full := by
  decide

/-- `process_tx_queue` writes nothing into a full ring. -/
theorem processTxQueue_of_full {ring : TxRing} (full : ring.full) :
    ∀ queue, (ring.processTxQueue queue).1 = ring
  | [] => rfl
  | frame :: rest => by
      unfold TxRing.processTxQueue
      split
      · exact processTxQueue_of_full full rest
      · rfl

/-- Nothing the driver does, and nothing the device can do, takes a drained
ring out of that state: its index reads as none consumed. -/
theorem Drained.step (drained : system.Drained) {call : TxCall} {reply : TxReply}
    (stepped : system.step call = some (reply, next)) : next.Drained := by
  obtain ⟨ring, submitted, consumed⟩ := drained
  have unchanged : ∀ queue, (system.process system.ring queue).Drained := by
    intro queue
    unfold TxSystem.process
    dsimp only
    rw [processTxQueue_of_full (ring ▸ full_drained), pushed, wrappingSub_self]
    exact ⟨ring, submitted, consumed⟩
  cases call with
  | sendHcmd length =>
      simp only [TxSystem.step, Option.some.injEq, Prod.mk.injEq] at stepped
      obtain ⟨-, rfl⟩ := stepped
      rcases system.ring.sendHcmd_snd length with same | ⟨room, -⟩
      · rw [same]
        exact ⟨ring, by rw [pushed, wrappingSub_self, submitted], consumed⟩
      · exact absurd (ring ▸ full_drained) room
  | sendFrame length =>
      simp only [TxSystem.step, Option.some.injEq, Prod.mk.injEq] at stepped
      obtain ⟨-, rfl⟩ := stepped
      exact unchanged _
  | consume =>
      simp only [TxSystem.step, submitted, consumed, Nat.lt_irrefl, if_false] at stepped
      cases stepped
  | tick =>
      simp only [TxSystem.step, Option.some.injEq, Prod.mk.injEq] at stepped
      obtain ⟨-, rfl⟩ := stepped
      have stale : system.ring.updateTxTail (system.consumed % txQueueSize) = system.ring := by
        rw [ring, consumed]
        decide
      rw [stale]
      exact unchanged _
  | tailReached target =>
      simp only [TxSystem.step, Option.some.injEq, Prod.mk.injEq] at stepped
      obtain ⟨-, rfl⟩ := stepped
      exact ⟨ring, submitted, consumed⟩

theorem full_ring_never_drains :
    ∃ replies drained, machine.run machine.init
        (List.replicate 256 (.sendHcmd 0) ++ List.replicate 256 .consume ++ [.tick]) = some (replies, drained) ∧
      drained.consumed = drained.submitted ∧
      ∀ calls replies final, machine.run drained calls = some (replies, final) →
        final.consumed = final.submitted ∧ final.ring.txTail ≠ final.consumed % 2 ^ 64 ∧ final.ring.full ∧
          final.ring.txTailReached (final.submitted % 2 ^ 64) = false := by
  obtain ⟨written, sent, ⟨counts, -, -⟩, submitted, consumed⟩ :=
    run_sendHcmd 0 (by decide) 256 machine.init ⟨⟨rfl, rfl, Nat.le_refl 0, Nat.zero_le _⟩, Nat.le_refl 0, Nat.le_refl 0⟩
      (by decide)
  have ring : written.ring = ⟨256, 0⟩ := by
    rw [← show (⟨written.ring.txHead, written.ring.txTail⟩ : TxRing) = written.ring from rfl, counts.head_eq,
      counts.tail_eq, submitted]
    rfl
  have emptied := run_consume 256 written (by rw [submitted, consumed]; rfl)
  have drained : Drained { written with consumed := written.consumed + 256 } :=
    ⟨ring, submitted, by dsimp only; rw [consumed]; rfl⟩
  obtain ⟨reply, ticked, tickedEq⟩ : ∃ reply ticked,
      step { written with consumed := written.consumed + 256 } .tick = some (reply, ticked) := ⟨_, _, rfl⟩
  have stuck := drained.step tickedEq
  refine ⟨List.replicate 256 (.sent (.ok ())) ++ (List.replicate 256 .consumed ++ [reply]), ticked, ?_,
    stuck.2.2.trans stuck.2.1.symm, ?_⟩
  · rw [List.append_assoc]
    exact machine.run_append sent (machine.run_append emptied (machine.run_cons_eq_some.mpr
      ⟨reply, ticked, [], tickedEq, rfl, rfl⟩))
  · intro calls replies final ran
    obtain ⟨ring, submitted, consumed⟩ :=
      machine.run_invariant (fun _ drainedState stepped => drainedState.step stepped) (fun _ _ => True.intro)
        stuck ran
    rw [ring, submitted, consumed]
    exact ⟨rfl, by decide, full_drained, by decide⟩

end TxSystem

end Fullerene.Nitrogen.Iwlwifi
