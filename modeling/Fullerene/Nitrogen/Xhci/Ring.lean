import Mathlib.Data.List.Basic
import Fullerene.Lib.Machine
import Fullerene.Lib.Queue

/-!
# The xHCI transfer ring

A `Ring` is the driver's side of a transfer or command ring: `len` TRBs in
zeroed DMA memory, the last of them a Link TRB back to the base with its
toggle-cycle flag set.  `Ring.enqueue` writes a TRB at the enqueue index with
the ring's cycle bit, and when it reaches the Link TRB gives that the same
bit, returns to the base and toggles the cycle.

The controller consumes the ring as the xHCI specification prescribes
(`Controller.fetch`): it takes the TRB at its dequeue index only when that
TRB's cycle bit is its consumer cycle state, follows a Link TRB to the base
and toggles its state there.  `Transfer` runs the two in any interleaving,
with at most `bound` TRBs enqueued and not yet fetched, and with no Link TRB
enqueued.  For `bound + 2 ≤ len` the ring is a queue: `Transfer.Sound` holds
along every run, and every step is a step of the queue of pending TRBs read
from the ring, up to the cycle bit that the ring rewrites
(`Transfer.simulates`).

The `len - 1` usable slots are not all usable: when the controller has
fetched the slot before the Link TRB but not yet the Link TRB itself, and the
driver fills the ring once more, the wrap rewrites the Link TRB's cycle bit
before the controller has read it, and the controller waits there for good
(`transfer_ring_strands_controller`).
-/

namespace Fullerene.Nitrogen

open Queue

/-- `trb_type::NORMAL`. -/
def TrbType.normal : UInt8 := 1

/-- `trb_type::LINK`. -/
def TrbType.link : UInt8 := 6

namespace TrbFlag

/-- `trb_flag::CYCLE`. -/
def cycle : UInt32 := (1 : UInt32) <<< 0

/-- `trb_flag::TC`, toggle cycle. -/
def tc : UInt32 := (1 : UInt32) <<< 1

/-- `trb_flag::TRB_TYPE_SHIFT`. -/
def trbTypeShift : UInt32 := 10

/-- `trb_flag::TRB_TYPE_MASK`. -/
def trbTypeMask : UInt32 := (0x3F : UInt32) <<< trbTypeShift

end TrbFlag

/-- `Trb`: eight parameter bytes, the status word and the flags word. -/
structure Trb where
  params : List UInt8
  status : UInt32
  flags : UInt32
deriving DecidableEq, Repr

/-- `u64::to_le_bytes`. -/
def toLeBytes (value : UInt64) : List UInt8 :=
  (List.range 8).map fun index => (value >>> (8 * index).toUInt64).toUInt8

namespace Trb

/-- A TRB of zeroed DMA memory. -/
def zero : Trb := ⟨List.replicate 8 0, 0, 0⟩

/-- `Trb::new`. -/
def new (trbType : UInt8) (cycle : UInt32) : Trb :=
  ⟨List.replicate 8 0, 0, cycle ||| (trbType.toUInt32 <<< TrbFlag.trbTypeShift)⟩

/-- `Trb::trb_type`. -/
def trbType (trb : Trb) : UInt8 :=
  ((trb.flags &&& TrbFlag.trbTypeMask) >>> TrbFlag.trbTypeShift).toUInt8

/-- The cycle bit, `flags & trb_flag::CYCLE`. -/
def cycleBit (trb : Trb) : UInt32 := trb.flags &&& TrbFlag.cycle

/-- The TRB with its cycle bit replaced, `(flags & !trb_flag::CYCLE) | cycle`. -/
def withCycle (trb : Trb) (cycle : UInt32) : Trb :=
  { trb with flags := (trb.flags &&& ~~~TrbFlag.cycle) ||| cycle }

/-- The TRB with its cycle bit cleared: the fields a ring does not rewrite. -/
def clearCycle (trb : Trb) : Trb := trb.withCycle 0

/-! ### The cycle bit against the other flags -/

section Bits

variable {cycle : UInt32}

/-- A mask that leaves out the cycle bit reads the same flags after the cycle
bit is replaced by a bit. -/
theorem flags_withCycle_and (trb : Trb) (low : cycle = 0 ∨ cycle = 1) {mask : UInt32}
    (apart : mask &&& TrbFlag.cycle = 0) :
    (trb.withCycle cycle).flags &&& mask = trb.flags &&& mask := by
  have bottom : mask.toBitVec[0] = false := by
    simpa [TrbFlag.cycle] using congrArg (fun word : UInt32 => word.toBitVec[0]) apart
  apply UInt32.toBitVec_inj.mp
  simp only [withCycle, TrbFlag.cycle, UInt32.toBitVec_and, UInt32.toBitVec_or, UInt32.toBitVec_not]
  ext index within
  simp only [BitVec.getElem_and, BitVec.getElem_or, BitVec.getElem_not]
  -- bit 0 is masked away; above it a cycle value has no bits
  by_cases zero : index = 0
  · subst zero
    simp [bottom]
  · rcases low with rfl | rfl <;> simp [BitVec.getElem_one, zero]

@[simp]
theorem cycleBit_withCycle (trb : Trb) (low : cycle = 0 ∨ cycle = 1) :
    (trb.withCycle cycle).cycleBit = cycle := by
  apply UInt32.toBitVec_inj.mp
  simp only [cycleBit, withCycle, TrbFlag.cycle, UInt32.toBitVec_and, UInt32.toBitVec_or,
    UInt32.toBitVec_not]
  ext index within
  simp only [BitVec.getElem_and, BitVec.getElem_or, BitVec.getElem_not]
  by_cases zero : index = 0
  · subst zero
    rcases low with rfl | rfl <;> simp
  · rcases low with rfl | rfl <;> simp [BitVec.getElem_one, zero]

theorem withCycle_withCycle (trb : Trb) (low : cycle = 0 ∨ cycle = 1) (other : UInt32) :
    (trb.withCycle cycle).withCycle other = trb.withCycle other := by
  simp only [withCycle, Trb.mk.injEq, true_and]
  apply UInt32.toBitVec_inj.mp
  simp only [TrbFlag.cycle, UInt32.toBitVec_and, UInt32.toBitVec_or, UInt32.toBitVec_not]
  ext index within
  simp only [BitVec.getElem_and, BitVec.getElem_or, BitVec.getElem_not]
  by_cases zero : index = 0
  · subst zero
    simp
  · rcases low with rfl | rfl <;> simp [BitVec.getElem_one, zero]

@[simp]
theorem trbType_withCycle (trb : Trb) (low : cycle = 0 ∨ cycle = 1) :
    (trb.withCycle cycle).trbType = trb.trbType := by
  simp only [trbType, flags_withCycle_and trb low (by decide : TrbFlag.trbTypeMask &&& TrbFlag.cycle = 0)]

theorem tc_withCycle (trb : Trb) (low : cycle = 0 ∨ cycle = 1) :
    (trb.withCycle cycle).flags &&& TrbFlag.tc = trb.flags &&& TrbFlag.tc :=
  flags_withCycle_and trb low (by decide)

@[simp]
theorem clearCycle_withCycle (trb : Trb) (low : cycle = 0 ∨ cycle = 1) :
    (trb.withCycle cycle).clearCycle = trb.clearCycle :=
  withCycle_withCycle trb low 0

end Bits

end Trb

/-- A cycle state is a bit, and toggling it gives the other bit. -/
theorem xor_one_low {cycle : UInt32} (low : cycle = 0 ∨ cycle = 1) :
    cycle ^^^ 1 = 0 ∨ cycle ^^^ 1 = 1 := by
  rcases low with rfl | rfl <;> decide

theorem xor_one_xor_one (cycle : UInt32) : cycle ^^^ 1 ^^^ 1 = cycle := by
  rw [UInt32.xor_assoc, UInt32.xor_self, UInt32.xor_zero]

theorem xor_one_ne {cycle : UInt32} (low : cycle = 0 ∨ cycle = 1) : cycle ^^^ 1 ≠ cycle := by
  rcases low with rfl | rfl <;> decide

/-! ## The driver's ring -/

/-- `Ring`: the TRBs of its DMA slice, its physical base, the enqueue index
and the producer cycle state.  The source's `len` is the slice's length. -/
structure Ring where
  entries : List Trb
  phys : UInt64
  enq : Nat
  cycle : UInt32
deriving DecidableEq, Repr

namespace Ring

/-- `Ring.len`. -/
def len (ring : Ring) : Nat := ring.entries.length

/-- The Link TRB that `Ring::alloc` writes into the last slot: type `LINK`,
`TC` and `CYCLE` set, and the ring base as its pointer. -/
def linkTrb (phys : UInt64) : Trb :=
  ⟨toLeBytes phys, 0,
    (TrbType.link.toUInt32 <<< TrbFlag.trbTypeShift) ||| TrbFlag.tc ||| TrbFlag.cycle⟩

/-- `Ring::alloc` over the zeroed slice that `alloc_dma` returns at `phys`;
`none` where `alloc_dma` refuses a slice of no TRBs. -/
def alloc (n : Nat) (phys : UInt64) : Option Ring :=
  if n = 0 then none
  else
    let entries := List.replicate n Trb.zero
    some ⟨if n > 1 then entries.set (n - 1) (linkTrb phys) else entries, phys, 0, 1⟩

/-- `Ring::enqueue`; `none` is the panic of an index past the slice. -/
def enqueue (ring : Ring) (trb : Trb) : Option Ring :=
  let trb := trb.withCycle ring.cycle
  if ring.enq < ring.len then
    let entries := ring.entries.set ring.enq trb
    let enq := ring.enq + 1
    if ring.len - 1 ≤ enq then
      let link := ring.len - 1
      -- the Link TRB takes the cycle bit of the lap that ends here
      entries[link]?.map fun linkTrb =>
        { ring with entries := entries.set link (linkTrb.withCycle ring.cycle), enq := 0,
                    cycle := ring.cycle ^^^ 1 }
    else some { ring with entries, enq }
  else none

/-- The ring after `enqueue` wrote a slot before the last usable one. -/
def advanced (ring : Ring) (trb : Trb) : Ring :=
  { ring with entries := ring.entries.set ring.enq (trb.withCycle ring.cycle), enq := ring.enq + 1 }

/-- The ring after `enqueue` wrote the last usable slot, gave the Link TRB
`link` the cycle bit of the lap, and wrapped. -/
def wrapped (ring : Ring) (trb link : Trb) : Ring :=
  { ring with
    entries := (ring.entries.set ring.enq (trb.withCycle ring.cycle)).set (ring.len - 1)
      (link.withCycle ring.cycle),
    enq := 0, cycle := ring.cycle ^^^ 1 }

variable {ring : Ring} {trb : Trb}

@[simp]
theorem length_entries (ring : Ring) : ring.entries.length = ring.len := rfl

@[simp]
theorem len_advanced : (ring.advanced trb).len = ring.len := by
  simp only [advanced, len, List.length_set]

@[simp]
theorem len_wrapped (link : Trb) : (ring.wrapped trb link).len = ring.len := by
  simp only [wrapped, len, List.length_set]

@[simp]
theorem enq_advanced : (ring.advanced trb).enq = ring.enq + 1 := rfl

@[simp]
theorem cycle_advanced : (ring.advanced trb).cycle = ring.cycle := rfl

@[simp]
theorem entries_advanced : (ring.advanced trb).entries = ring.entries.set ring.enq (trb.withCycle ring.cycle) :=
  rfl

@[simp]
theorem enq_wrapped (link : Trb) : (ring.wrapped trb link).enq = 0 := rfl

@[simp]
theorem cycle_wrapped (link : Trb) : (ring.wrapped trb link).cycle = ring.cycle ^^^ 1 := rfl

@[simp]
theorem entries_wrapped (link : Trb) :
    (ring.wrapped trb link).entries =
      (ring.entries.set ring.enq (trb.withCycle ring.cycle)).set (ring.len - 1) (link.withCycle ring.cycle) :=
  rfl

theorem alloc_of_lt {n : Nat} (many : 1 < n) (phys : UInt64) :
    alloc n phys = some ⟨(List.replicate n Trb.zero).set (n - 1) (linkTrb phys), phys, 0, 1⟩ := by
  simp [alloc, show n ≠ 0 by omega, many]

theorem len_alloc {n : Nat} {phys : UInt64} (allocated : alloc n phys = some ring) : ring.len = n := by
  simp only [alloc] at allocated
  split_ifs at allocated <;> cases allocated <;> simp only [len, List.length_set, List.length_replicate]

theorem enqueue_of_lt (room : ring.enq + 2 < ring.len) : ring.enqueue trb = some (ring.advanced trb) := by
  simp only [enqueue, if_pos (show ring.enq < ring.len by omega),
    if_neg (show ¬ring.len - 1 ≤ ring.enq + 1 by omega)]
  rfl

theorem enqueue_of_last (last : ring.enq + 2 = ring.len) {link : Trb}
    (linked : ring.entries[ring.len - 1]? = some link) : ring.enqueue trb = some (ring.wrapped trb link) := by
  simp only [enqueue, if_pos (show ring.enq < ring.len by omega),
    if_pos (show ring.len - 1 ≤ ring.enq + 1 by omega),
    List.getElem?_set_ne (show ring.enq ≠ ring.len - 1 by omega), linked, Option.map_some]
  rfl

end Ring

/-! ## The controller consuming the ring -/

/-- What the controller does at its dequeue index: consume a TRB, follow the
Link TRB, or wait for a TRB that is not yet its own. -/
inductive Fetch where
  | trb (trb : Trb)
  | link
  | idle
deriving DecidableEq, Repr

/-- The controller's dequeue index and consumer cycle state. -/
structure Controller where
  deq : Nat
  ccs : UInt32
deriving DecidableEq, Repr

namespace Controller

/-- The consumer cycle state starts at 1 at the ring base. -/
def start : Controller := ⟨0, 1⟩

/-- One fetch of the xHCI specification: a TRB whose cycle bit is not the
consumer cycle state is not yet written for this lap; a Link TRB sends the
controller to the base and toggles its state when `TC` is set. -/
def fetch (controller : Controller) (entries : List Trb) : Fetch × Controller :=
  match entries[controller.deq]? with
  | none => (.idle, controller)
  | some trb =>
      if trb.cycleBit ≠ controller.ccs then (.idle, controller)
      else if trb.trbType = TrbType.link then
        (.link, ⟨0, if trb.flags &&& TrbFlag.tc ≠ 0 then controller.ccs ^^^ 1 else controller.ccs⟩)
      else (.trb trb, ⟨controller.deq + 1, controller.ccs⟩)

variable {controller : Controller} {entries : List Trb} {trb : Trb}

theorem fetch_of_mismatch (read : entries[controller.deq]? = some trb)
    (differs : trb.cycleBit ≠ controller.ccs) : controller.fetch entries = (.idle, controller) := by
  simp [fetch, read, differs]

theorem fetch_of_normal (read : entries[controller.deq]? = some trb)
    (matched : trb.cycleBit = controller.ccs) (normal : trb.trbType ≠ TrbType.link) :
    controller.fetch entries = (.trb trb, ⟨controller.deq + 1, controller.ccs⟩) := by
  simp [fetch, read, matched, normal]

theorem fetch_of_link (read : entries[controller.deq]? = some trb)
    (matched : trb.cycleBit = controller.ccs) (linked : trb.trbType = TrbType.link)
    (toggles : trb.flags &&& TrbFlag.tc ≠ 0) :
    controller.fetch entries = (.link, ⟨0, controller.ccs ^^^ 1⟩) := by
  simp [fetch, read, matched, linked, toggles]

end Controller

/-! ## The driver and the controller on one ring -/

/-- The ring, the controller, and how many enqueued TRBs the controller has
not yet consumed. -/
structure Transfer where
  ring : Ring
  controller : Controller
  unconsumed : Nat
deriving DecidableEq, Repr

/-- The driver enqueues a TRB, or the controller fetches. -/
inductive TransferCall where
  | enqueue (trb : Trb)
  | fetch
deriving DecidableEq, Repr

inductive TransferReply where
  | enqueued
  | fetched (result : Fetch)
deriving DecidableEq, Repr

namespace Transfer

/-- One step of either side.  The driver enqueues only while fewer than
`bound` TRBs are unconsumed, and never a Link TRB. -/
def step (bound : Nat) (state : Transfer) : TransferCall → Option (TransferReply × Transfer)
  | .enqueue trb =>
      if state.unconsumed < bound ∧ trb.trbType ≠ TrbType.link then
        (state.ring.enqueue trb).map fun ring =>
          (.enqueued, { state with ring, unconsumed := state.unconsumed + 1 })
      else none
  | .fetch =>
      let (result, controller) := state.controller.fetch state.ring.entries
      some (.fetched result,
        { state with
          controller,
          unconsumed := match result with
            | .trb _ => state.unconsumed - 1
            | _ => state.unconsumed })

/-- Every interleaving from a freshly allocated ring. -/
def machine (bound : Nat) (ring : Ring) : Machine Transfer TransferCall TransferReply :=
  ⟨⟨ring, Controller.start, 0⟩, step bound⟩

/-- Whether the controller is a lap behind the driver. -/
def behind (state : Transfer) : Bool := state.controller.ccs != state.ring.cycle

/-- The TRBs enqueued and not yet fetched, read off the ring between the
controller's dequeue index and the enqueue index. -/
def pending (state : Transfer) : List Trb :=
  window state.ring.entries (state.ring.len - 1) state.ring.enq state.controller.deq state.behind

/-- What the queue sees of a call and its reply. -/
def transferEvent : TransferCall → TransferReply → Option (QueueEvent Trb)
  | .enqueue trb, .enqueued => some (.push trb.clearCycle)
  | .fetch, .fetched (.trb trb) => some (.pop trb.clearCycle)
  | .fetch, .fetched .link => some .skip
  | .fetch, .fetched .idle => some .empty
  | _, _ => none

/-- The invariant of the ring: the indices in their ranges, the controller in
the driver's lap and behind its enqueue index, or a lap behind and ahead of
it with the Link TRB carrying its state; the cycle bits striped by the
enqueue index; no Link TRB before the last slot; and the count of
unconsumed TRBs the length of the pending window, at most `bound`. -/
structure Sound (bound : Nat) (state : Transfer) : Prop where
  roomy : bound + 2 ≤ state.ring.len
  enq_lt : state.ring.enq + 2 ≤ state.ring.len
  deq_le : state.controller.deq + 1 ≤ state.ring.len
  cycle : state.ring.cycle = 0 ∨ state.ring.cycle = 1
  lap : state.controller.ccs = state.ring.cycle ∧ state.controller.deq ≤ state.ring.enq ∨
    state.controller.ccs = state.ring.cycle ^^^ 1 ∧ state.ring.enq ≤ state.controller.deq
  striped : Striped Trb.cycleBit state.ring.entries (state.ring.len - 1) state.ring.enq
    state.ring.cycle (state.ring.cycle ^^^ 1)
  normal : ∀ index (within : index < state.ring.entries.length), index + 1 < state.ring.len →
    state.ring.entries[index].trbType ≠ TrbType.link
  link : ∃ link, state.ring.entries[state.ring.len - 1]? = some link ∧
    link.trbType = TrbType.link ∧ link.flags &&& TrbFlag.tc ≠ 0 ∧
    (state.controller.ccs = state.ring.cycle ^^^ 1 → link.cycleBit = state.controller.ccs)
  counted : state.unconsumed = state.pending.length
  bounded : state.unconsumed ≤ bound

/-- The pending TRBs without the cycle bits that the ring rewrites. -/
def view (state : Transfer) : List Trb := state.pending.map Trb.clearCycle

section Invariant

variable {bound : Nat} {state : Transfer} {trb : Trb}

theorem behind_of_same (same : state.controller.ccs = state.ring.cycle) : state.behind = false := by
  simp [behind, same]

theorem behind_of_flipped (low : state.ring.cycle = 0 ∨ state.ring.cycle = 1)
    (flipped : state.controller.ccs = state.ring.cycle ^^^ 1) : state.behind = true := by
  simp [behind, flipped, xor_one_ne low]

/-- In one lap the unconsumed TRBs are those between the two indices. -/
theorem Sound.unconsumed_of_same (sound : Sound bound state)
    (same : state.controller.ccs = state.ring.cycle) :
    state.unconsumed + state.controller.deq = state.ring.enq := by
  have before := sound.lap.resolve_right fun ⟨flipped, _⟩ =>
    xor_one_ne sound.cycle (flipped.symm.trans same)
  rw [sound.counted, pending, behind_of_same same,
    length_window_of_same (by simp; have := sound.enq_lt; omega)]
  omega

/-- A lap behind, the unconsumed TRBs run from the dequeue index to the Link
TRB and on from the base to the enqueue index. -/
theorem Sound.unconsumed_of_flipped (sound : Sound bound state)
    (flipped : state.controller.ccs = state.ring.cycle ^^^ 1) :
    state.unconsumed + state.controller.deq = state.ring.len - 1 + state.ring.enq := by
  have deqWithin := sound.deq_le
  rw [sound.counted, pending, behind_of_flipped sound.cycle flipped,
    length_window_of_behind (by simp; have := sound.enq_lt; omega) (by simp)]
  omega

/-- A ring with room for another TRB has its controller at least two slots
past the enqueue index when it is a lap behind. -/
theorem Sound.enq_add_two_le (sound : Sound bound state) (fewer : state.unconsumed < bound)
    (flipped : state.controller.ccs = state.ring.cycle ^^^ 1) :
    state.ring.enq + 2 ≤ state.controller.deq := by
  have counted := sound.unconsumed_of_flipped flipped
  have := sound.roomy
  have := sound.deq_le
  omega

theorem Sound.pending_advanced (sound : Sound bound state) (room : state.ring.enq + 2 < state.ring.len)
    (fewer : state.unconsumed < bound) :
    ({ state with ring := state.ring.advanced trb, unconsumed := state.unconsumed + 1 } : Transfer).pending =
      state.pending ++ [trb.withCycle state.ring.cycle] := by
  have within : state.ring.enq < state.ring.entries.length := by simp; omega
  have unmoved : ({ state with ring := state.ring.advanced trb, unconsumed := state.unconsumed + 1 } :
      Transfer).behind = state.behind := rfl
  simp only [pending, unmoved, Ring.len_advanced, Ring.enq_advanced, Ring.entries_advanced]
  rcases sound.lap with ⟨same, before⟩ | ⟨flipped, _⟩
  · rw [behind_of_same same]
    exact window_set_of_same before within _
  · have ahead := sound.enq_add_two_le fewer flipped
    rw [behind_of_flipped sound.cycle flipped]
    exact window_set_of_behind (by omega) within _

/-- Writing a slot before the last usable one keeps the invariant. -/
theorem Sound.advanced (sound : Sound bound state) (room : state.ring.enq + 2 < state.ring.len)
    (fewer : state.unconsumed < bound) (normalTrb : trb.trbType ≠ TrbType.link) :
    Sound bound { state with ring := state.ring.advanced trb, unconsumed := state.unconsumed + 1 } where
  roomy := by simpa using sound.roomy
  enq_lt := by simp; omega
  deq_le := by simpa using sound.deq_le
  cycle := sound.cycle
  lap := by
    rcases sound.lap with ⟨same, before⟩ | ⟨flipped, _⟩
    · exact .inl ⟨same, by simp; omega⟩
    · have ahead := sound.enq_add_two_le fewer flipped
      exact .inr ⟨flipped, by simp; omega⟩
  striped := by simpa using sound.striped.set (Trb.cycleBit_withCycle trb sound.cycle)
  normal := by
    intro index within inside
    simp only [Ring.entries_advanced, List.getElem_set]
    split_ifs with here
    · simpa [sound.cycle] using normalTrb
    · exact sound.normal index (by simpa using within) (by simpa using inside)
  link := by
    obtain ⟨link, read, linked⟩ := sound.link
    exact ⟨link, by simpa [List.getElem?_set_ne (show state.ring.enq ≠ state.ring.len - 1 by omega)]
      using read, linked⟩
  counted := by
    rw [sound.pending_advanced room fewer, List.length_append, ← sound.counted]
    rfl
  bounded := fewer

/-- The controller is in the driver's lap when the driver writes the last
usable slot with room for another TRB. -/
theorem Sound.same_of_last (sound : Sound bound state) (last : state.ring.enq + 2 = state.ring.len)
    (fewer : state.unconsumed < bound) :
    state.controller.ccs = state.ring.cycle ∧ state.controller.deq ≤ state.ring.enq := by
  refine sound.lap.resolve_right fun ⟨flipped, _⟩ => ?_
  have ahead := sound.enq_add_two_le fewer flipped
  have := sound.deq_le
  omega

theorem Sound.pending_wrapped (sound : Sound bound state) (last : state.ring.enq + 2 = state.ring.len)
    (fewer : state.unconsumed < bound) (link : Trb) :
    ({ state with ring := state.ring.wrapped trb link, unconsumed := state.unconsumed + 1 } : Transfer).pending =
      state.pending ++ [trb.withCycle state.ring.cycle] := by
  obtain ⟨same, before⟩ := sound.same_of_last last fewer
  have flips : ({ state with ring := state.ring.wrapped trb link, unconsumed := state.unconsumed + 1 } :
      Transfer).behind = true := by
    simp only [behind, Ring.cycle_wrapped, same, bne_iff_ne]
    exact (xor_one_ne sound.cycle).symm
  simp only [pending, flips, Ring.len_wrapped, Ring.enq_wrapped, Ring.entries_wrapped,
    behind_of_same same]
  -- the Link TRB lies past the window; the write fills the last usable slot
  rw [window_set_of_le (Nat.le_refl _) (Nat.zero_le _)]
  exact window_set_wrap before (by omega) (by simp) _

/-- Writing the last usable slot, marking the Link TRB and wrapping keeps the
invariant. -/
theorem Sound.wrapped (sound : Sound bound state) (last : state.ring.enq + 2 = state.ring.len)
    (fewer : state.unconsumed < bound) (normalTrb : trb.trbType ≠ TrbType.link) {linkSlot : Trb}
    (read : state.ring.entries[state.ring.len - 1]? = some linkSlot) :
    Sound bound { state with ring := state.ring.wrapped trb linkSlot, unconsumed := state.unconsumed + 1 } where
  roomy := by simpa using sound.roomy
  enq_lt := by have := sound.roomy; simp; omega
  deq_le := by simpa using sound.deq_le
  cycle := xor_one_low sound.cycle
  lap := by
    obtain ⟨same, _⟩ := sound.same_of_last last fewer
    exact .inr ⟨by simp [same, xor_one_xor_one], by simp⟩
  striped := by
    have filled := sound.striped.set (Trb.cycleBit_withCycle trb sound.cycle)
    rw [show state.ring.enq + 1 = state.ring.len - 1 by omega] at filled
    have marked := (filled.set_of_le (Nat.le_refl _) (linkSlot.withCycle state.ring.cycle)).wrap
      (state.ring.cycle ^^^ 1)
    simpa [xor_one_xor_one] using marked
  normal := by
    intro index within inside
    simp only [Ring.entries_wrapped, Ring.len_wrapped] at within inside ⊢
    rw [List.getElem_set_ne (by omega), List.getElem_set]
    split_ifs with here
    · simpa [sound.cycle] using normalTrb
    · exact sound.normal index (by simpa using within) inside
  link := by
    obtain ⟨same, _⟩ := sound.same_of_last last fewer
    obtain ⟨found, found_read, linked, toggles, _⟩ := sound.link
    obtain rfl : found = linkSlot := Option.some.inj (found_read.symm.trans read)
    refine ⟨found.withCycle state.ring.cycle, ?_, by simpa [sound.cycle] using linked,
      by rwa [Trb.tc_withCycle found sound.cycle], fun _ => ?_⟩
    · simp only [Ring.entries_wrapped, Ring.len_wrapped]
      exact List.getElem?_set_self (by simp; omega)
    · simp [Trb.cycleBit_withCycle found sound.cycle, same]
  counted := by
    rw [sound.pending_wrapped last fewer, List.length_append, ← sound.counted]
    rfl
  bounded := fewer

/-- The state after the controller consumed the TRB at its dequeue index. -/
def consumed (state : Transfer) : Transfer :=
  { state with controller := ⟨state.controller.deq + 1, state.controller.ccs⟩,
               unconsumed := state.unconsumed - 1 }

/-- The state after the controller followed the Link TRB to the base. -/
def followed (state : Transfer) : Transfer :=
  { state with controller := ⟨0, state.controller.ccs ^^^ 1⟩ }

theorem step_fetch_of_normal (read : state.ring.entries[state.controller.deq]? = some trb)
    (matched : trb.cycleBit = state.controller.ccs) (normal : trb.trbType ≠ TrbType.link) :
    state.step bound .fetch = some (.fetched (.trb trb), state.consumed) := by
  simp only [step, Controller.fetch_of_normal read matched normal]
  rfl

theorem step_fetch_of_mismatch (read : state.ring.entries[state.controller.deq]? = some trb)
    (differs : trb.cycleBit ≠ state.controller.ccs) :
    state.step bound .fetch = some (.fetched .idle, state) := by
  simp only [step, Controller.fetch_of_mismatch read differs]

theorem step_fetch_of_link (read : state.ring.entries[state.controller.deq]? = some trb)
    (matched : trb.cycleBit = state.controller.ccs) (linked : trb.trbType = TrbType.link)
    (toggles : trb.flags &&& TrbFlag.tc ≠ 0) :
    state.step bound .fetch = some (.fetched .link, state.followed) := by
  simp only [step, Controller.fetch_of_link read matched linked toggles]
  rfl

/-- Consuming the front TRB keeps the invariant when the controller stays in
its lap. -/
theorem Sound.consumed (sound : Sound bound state) (inside : state.controller.deq + 2 ≤ state.ring.len)
    (shorter : state.pending.length = state.consumed.pending.length + 1)
    (stays : state.controller.ccs = state.ring.cycle ∧ state.controller.deq + 1 ≤ state.ring.enq ∨
      state.controller.ccs = state.ring.cycle ^^^ 1 ∧ state.ring.enq ≤ state.controller.deq + 1) :
    Sound bound state.consumed where
  roomy := sound.roomy
  enq_lt := sound.enq_lt
  deq_le := inside
  cycle := sound.cycle
  lap := stays
  striped := sound.striped
  normal := sound.normal
  link := sound.link
  counted := by
    rw [← sound.counted] at shorter
    show state.unconsumed - 1 = _
    omega
  bounded := by
    have := sound.bounded
    show state.unconsumed - 1 ≤ bound
    omega

theorem Sound.pending_followed (sound : Sound bound state)
    (flipped : state.controller.ccs = state.ring.cycle ^^^ 1)
    (atLink : state.controller.deq + 1 = state.ring.len) : state.followed.pending = state.pending := by
  have returned : state.followed.behind = false := by
    simp [followed, behind, flipped, xor_one_xor_one]
  simp only [pending, returned, behind_of_flipped sound.cycle flipped,
    show state.controller.deq = state.ring.len - 1 by omega]
  exact (window_size_of_behind _ _ _).symm

theorem ccs_followed (flipped : state.controller.ccs = state.ring.cycle ^^^ 1) :
    state.followed.controller.ccs = state.ring.cycle := by
  show state.controller.ccs ^^^ 1 = _
  rw [flipped, xor_one_xor_one]

/-- Following the Link TRB puts the controller in the driver's lap at the base. -/
theorem Sound.followed (sound : Sound bound state)
    (flipped : state.controller.ccs = state.ring.cycle ^^^ 1)
    (atLink : state.controller.deq + 1 = state.ring.len) : Sound bound state.followed where
  roomy := sound.roomy
  enq_lt := sound.enq_lt
  deq_le := by show 0 + 1 ≤ state.ring.len; omega
  cycle := sound.cycle
  lap := .inl ⟨ccs_followed flipped, Nat.zero_le _⟩
  striped := sound.striped
  normal := sound.normal
  link := by
    obtain ⟨link, read, linked, toggles, _⟩ := sound.link
    exact ⟨link, read, linked, toggles, fun again =>
      absurd (again.symm.trans (ccs_followed flipped)) (xor_one_ne sound.cycle)⟩
  counted := by rw [sound.pending_followed flipped atLink, ← sound.counted]; rfl
  bounded := sound.bounded

/-- A fetch of the controller is a step of the queue of pending TRBs. -/
theorem Sound.fetch (sound : Sound bound state) :
    ∃ reply next, state.step bound .fetch = some (reply, next) ∧ Sound bound next ∧
      Observed transferEvent state.view .fetch reply next.view := by
  have enqWithin := sound.enq_lt
  have deqWithin := sound.deq_le
  have within : state.controller.deq < state.ring.entries.length := by simp; omega
  have read := List.getElem?_eq_getElem within
  have unmoved : state.consumed.behind = state.behind := rfl
  rcases sound.lap with ⟨same, before⟩ | ⟨flipped, after⟩
  · rcases Nat.lt_or_eq_of_le before with before | caught
    · -- the slot at the dequeue index was written in this lap
      have matched : state.ring.entries[state.controller.deq].cycleBit = state.controller.ccs := by
        rw [sound.striped state.controller.deq within (by omega), if_pos before, same]
      have front : state.pending = state.ring.entries[state.controller.deq] :: state.consumed.pending := by
        simp only [pending, unmoved, behind_of_same same]
        exact window_of_lt before (by simp; omega)
      refine ⟨_, _, step_fetch_of_normal read matched (sound.normal _ within (by omega)),
        sound.consumed (by omega) (by rw [front, List.length_cons]) (.inl ⟨same, before⟩), _, rfl, ?_⟩
      rw [view, view, front, List.map_cons]
      exact .pop _ _
    · -- caught up with the driver: the slot still carries the bit of the lap before
      have differs : state.ring.entries[state.controller.deq].cycleBit ≠ state.controller.ccs := by
        rw [sound.striped state.controller.deq within (by omega), if_neg (by omega), same]
        exact xor_one_ne sound.cycle
      have empty : state.pending = [] := by
        simp only [pending, behind_of_same same, caught]
        exact window_self _ _ _
      refine ⟨_, _, step_fetch_of_mismatch read differs, sound, _, rfl, ?_⟩
      rw [view, empty]
      exact .empty
  · rcases Nat.lt_or_eq_of_le deqWithin with inside | atLink
    · -- a lap behind, before the Link TRB: the slot was written in the lap before
      have matched : state.ring.entries[state.controller.deq].cycleBit = state.controller.ccs := by
        rw [sound.striped state.controller.deq within (by omega), if_neg (by omega), flipped]
      have front : state.pending = state.ring.entries[state.controller.deq] :: state.consumed.pending := by
        simp only [pending, unmoved, behind_of_flipped sound.cycle flipped]
        exact window_of_behind (by omega) (by simp)
      refine ⟨_, _, step_fetch_of_normal read matched (sound.normal _ within (by omega)),
        sound.consumed (by omega) (by rw [front, List.length_cons]) (.inr ⟨flipped, by omega⟩),
        _, rfl, ?_⟩
      rw [view, view, front, List.map_cons]
      exact .pop _ _
    · -- at the Link TRB, which carries the controller's state
      obtain ⟨link, read, linked, toggles, carries⟩ := sound.link
      rw [show state.ring.len - 1 = state.controller.deq by omega] at read
      refine ⟨_, _, step_fetch_of_link read (carries flipped) linked toggles,
        sound.followed flipped atLink, _, rfl, ?_⟩
      rw [view, view, sound.pending_followed flipped atLink]
      exact .skip _

/-- An enqueue the bound allows succeeds and is a push of the queue. -/
theorem Sound.enqueue (sound : Sound bound state) (fewer : state.unconsumed < bound)
    (normalTrb : trb.trbType ≠ TrbType.link) :
    ∃ next, state.step bound (.enqueue trb) = some (.enqueued, next) ∧ Sound bound next ∧
      next.view = state.view ++ [trb.clearCycle] := by
  have rewritten : (trb.withCycle state.ring.cycle).clearCycle = trb.clearCycle :=
    Trb.clearCycle_withCycle trb sound.cycle
  rcases Nat.lt_or_eq_of_le sound.enq_lt with room | last
  · refine ⟨_, ?_, sound.advanced room fewer normalTrb, ?_⟩
    · simp only [step, if_pos (And.intro fewer normalTrb), Ring.enqueue_of_lt room, Option.map_some]
    · rw [view, view, sound.pending_advanced room fewer, List.map_append, List.map_singleton,
        rewritten]
  · obtain ⟨linkSlot, read, -⟩ := sound.link
    refine ⟨_, ?_, sound.wrapped last fewer normalTrb read, ?_⟩
    · simp only [step, if_pos (And.intro fewer normalTrb), Ring.enqueue_of_last last read,
        Option.map_some]
    · rw [view, view, sound.pending_wrapped last fewer, List.map_append, List.map_singleton,
        rewritten]

/-- Every step from a sound state keeps the invariant and is a step of the
queue of pending TRBs. -/
theorem Sound.step {call : TransferCall} {reply : TransferReply} {next : Transfer}
    (sound : Sound bound state) (stepped : state.step bound call = some (reply, next)) :
    Sound bound next ∧ Observed transferEvent state.view call reply next.view := by
  cases call with
  | enqueue trb =>
      by_cases allowed : state.unconsumed < bound ∧ trb.trbType ≠ TrbType.link
      · obtain ⟨after, computed, soundAfter, viewed⟩ := sound.enqueue allowed.1 allowed.2
        rw [computed, Option.some.injEq, Prod.mk.injEq] at stepped
        obtain ⟨rfl, rfl⟩ := stepped
        refine ⟨soundAfter, _, rfl, ?_⟩
        rw [viewed]
        exact .push _ _
      · simp [Transfer.step, allowed] at stepped
  | fetch =>
      obtain ⟨reply', after, computed, soundAfter, observed⟩ := sound.fetch
      rw [computed, Option.some.injEq, Prod.mk.injEq] at stepped
      obtain ⟨rfl, rfl⟩ := stepped
      exact ⟨soundAfter, observed⟩

end Invariant

section Runs

variable {bound n : Nat} {phys : UInt64} {ring : Ring}

theorem sound_start (allocated : Ring.alloc n phys = some ring) (roomy : bound + 2 ≤ n) :
    Sound bound ⟨ring, Controller.start, 0⟩ := by
  rw [Ring.alloc_of_lt (by omega)] at allocated
  cases allocated
  -- every slot before the last is zeroed memory
  have zeroed : ∀ index (within : index < ((List.replicate n Trb.zero).set (n - 1)
      (Ring.linkTrb phys)).length), index + 1 < n →
      ((List.replicate n Trb.zero).set (n - 1) (Ring.linkTrb phys))[index] = Trb.zero :=
    fun index within before => by rw [List.getElem_set_ne (by omega), List.getElem_replicate]
  have sized : (⟨(List.replicate n Trb.zero).set (n - 1) (Ring.linkTrb phys), phys, 0, 1⟩ :
      Ring).len = n := by
    simp only [Ring.len, List.length_set, List.length_replicate]
  refine
    { roomy := by simp only [sized]; exact roomy
      enq_lt := by simp only [sized]; omega
      deq_le := by simp only [sized, Controller.start]; omega
      cycle := .inr rfl
      lap := .inl ⟨rfl, Nat.le_refl 0⟩
      striped := ?striped
      normal := ?normal
      link := ?link
      counted := by simp [pending, behind, Controller.start, window]
      bounded := Nat.zero_le bound }
  case striped =>
    refine Striped.start (fun index within inside => ?_) _
    simp only [sized] at inside
    rw [zeroed index within (by omega)]
    exact (by decide : Trb.zero.cycleBit = 1 ^^^ 1)
  case normal =>
    intro index within inside
    simp only [sized] at inside
    rw [zeroed index within inside]
    decide
  case link =>
    refine ⟨Ring.linkTrb phys, ?_, by simp only [Ring.linkTrb, Trb.trbType]; decide,
      by simp only [Ring.linkTrb]; decide, fun flipped => absurd flipped (by decide : ¬(1 : UInt32) = 1 ^^^ 1)⟩
    simp only [sized]
    exact List.getElem?_set_self (by simp; omega)

/-- The ring and the controller keep the invariant along every run. -/
theorem sound_inductive (allocated : Ring.alloc n phys = some ring) (roomy : bound + 2 ≤ n) :
    (machine bound ring).Inductive (Sound bound) :=
  ⟨sound_start allocated roomy, fun sound stepped => (sound.step stepped).1⟩

/-- Every step is a step of the queue of pending TRBs. -/
theorem simulates : (machine bound ring).Simulates (Observed transferEvent) view (Sound bound) :=
  fun sound stepped => (sound.step stepped).2

theorem view_start (allocated : Ring.alloc n phys = some ring) (roomy : bound + 2 ≤ n) :
    (⟨ring, Controller.start, 0⟩ : Transfer).view = [] := by
  have counted := (sound_start allocated roomy).counted
  simp [view, List.eq_nil_of_length_eq_zero counted.symm]

/-- Along every run from a freshly allocated ring the replies are those of the
queue of pending TRBs: the controller receives the enqueued TRBs in order, up
to the cycle bit, and waits only when none is pending. -/
theorem trace_of_run (allocated : Ring.alloc n phys = some ring) (roomy : bound + 2 ≤ n)
    {calls : List TransferCall} {replies : List TransferReply} {final : Transfer}
    (ran : (machine bound ring).run (machine bound ring).init calls = some (replies, final)) :
    Machine.Trace (Observed transferEvent) [] calls replies final.view := by
  have trace := simulates.trace (sound_inductive allocated roomy) (sound_start allocated roomy) ran
  rwa [view_start allocated roomy] at trace

theorem step_fetch_of_idle {state : Transfer}
    (idle : state.controller.fetch state.ring.entries = (.idle, state.controller)) :
    state.step bound .fetch = some (.fetched .idle, state) := by
  simp only [step, idle]

/-- A state with as many unconsumed TRBs as the bound allows, whose controller
waits, is stuck: every later call is a fetch that waits. -/
theorem run_of_stuck {state later : Transfer} (full : bound ≤ state.unconsumed)
    (idle : state.controller.fetch state.ring.entries = (.idle, state.controller))
    {calls : List TransferCall} {replies : List TransferReply}
    (ran : (machine bound ring).run state calls = some (replies, later)) :
    ∀ reply ∈ replies, reply = .fetched .idle := by
  induction calls generalizing replies with
  | nil =>
      simp only [Machine.run_nil, Option.some.injEq, Prod.mk.injEq] at ran
      simp [← ran.1]
  | cons call calls inductionHypothesis =>
      obtain ⟨reply, next, rest, stepped, tail, rfl⟩ := (machine bound ring).run_cons_eq_some.mp ran
      cases call with
      | enqueue trb =>
          -- the bound refuses the enqueue
          simp [machine, step, Nat.not_lt.mpr full] at stepped
      | fetch =>
          change state.step bound .fetch = some (reply, next) at stepped
          rw [step_fetch_of_idle idle, Option.some.injEq, Prod.mk.injEq] at stepped
          obtain ⟨rfl, rfl⟩ := stepped
          intro answered member
          rcases List.mem_cons.mp member with here | later
          · exact here
          · exact inductionHypothesis tail answered later

end Runs

/-- With `len - 1` unconsumed TRBs allowed, a ring of two TRBs strands the
controller: it consumes the first TRB, stops at the Link TRB, the driver
enqueues a second TRB and wraps, which gives the Link TRB the next lap's cycle
bit, and from then on the controller only waits while the second TRB stays
unconsumed. -/
theorem transfer_ring_strands_controller :
    ∃ ring stranded, Ring.alloc 2 0 = some ring ∧
      (machine 1 ring).run (machine 1 ring).init
          [.enqueue (Trb.new TrbType.normal 0), .fetch, .enqueue (Trb.new TrbType.normal 0)] =
        some ([.enqueued, .fetched (.trb ((Trb.new TrbType.normal 0).withCycle 1)), .enqueued],
          stranded) ∧
      stranded.unconsumed = 1 ∧
      ∀ calls replies later, (machine 1 ring).run stranded calls = some (replies, later) →
        ∀ reply ∈ replies, reply = .fetched .idle := by
  refine ⟨⟨[Trb.zero, Ring.linkTrb 0], 0, 0, 1⟩,
    ⟨⟨[(Trb.new TrbType.normal 0).withCycle 0, ((Ring.linkTrb 0).withCycle 1).withCycle 0], 0, 0, 1⟩,
      ⟨1, 1⟩, 1⟩, by decide, by decide, rfl, ?_⟩
  intro calls replies later ran
  exact run_of_stuck (Nat.le_refl 1) (by decide) ran


end Transfer

end Fullerene.Nitrogen
