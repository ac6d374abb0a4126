import Mathlib.Data.List.Basic
import Fullerene.Lib.Machine

/-!
# Queues and their circular layouts

A first-in first-out queue is the specification of a ring shared by a
producer and a consumer.  `QueueStep` is one step of a queue: an item joins
at the back, the front item leaves, nothing moves, or the queue is found
empty.  A client's calls and replies are read as queue events through
`Observed`, and along a trace every item popped is one pushed earlier, in the
order of the pushes (`Observed.trace_append`).

A ring of `size` slots stores the queue between a consumer index `deq` and a
producer index `enq`.  While both are in the same lap the items are the slots
from `deq` to `enq`; once the producer has wrapped and the consumer has not,
they are the slots from `deq` to the end and then those before `enq`.  This
is `window`, with its lemmas for a write at `enq`, a read at `deq` and a wrap.
`Striped` is the lap parity of the slots: those before `enq` carry the
producer's current bit and the others the bit of the lap before.
-/

universe u v w

namespace Queue

variable {α : Type u}

/-- One event of a queue as its client sees it. -/
inductive QueueEvent (α : Type u) where
  | push (item : α)
  | pop (item : α)
  | skip
  | empty
deriving DecidableEq, Repr

/-- One step of a first-in first-out queue; a pop takes the front item, and
the queue is found empty only when it is. -/
inductive QueueStep : List α → QueueEvent α → List α → Prop
  | push (queue : List α) (item : α) : QueueStep queue (.push item) (queue ++ [item])
  | pop (item : α) (rest : List α) : QueueStep (item :: rest) (.pop item) rest
  | skip (queue : List α) : QueueStep queue .skip queue
  | empty : QueueStep [] .empty []

section Observed

variable {ι : Type v} {ρ : Type w} (event : ι → ρ → Option (QueueEvent α))

/-- A call and its reply are a step of the queue when they read as a queue
event; a reply that answers no event of its call is no step. -/
def Observed (queue : List α) (call : ι) (reply : ρ) (queue' : List α) : Prop :=
  ∃ happened, event call reply = some happened ∧ QueueStep queue happened queue'

/-- The items a run of calls and replies pushes, in order. -/
def pushes : List ι → List ρ → List α
  | call :: calls, reply :: replies =>
      (match event call reply with
        | some (.push item) => [item]
        | _ => []) ++ pushes calls replies
  | _, _ => []

/-- The items a run of calls and replies pops, in order. -/
def pops : List ι → List ρ → List α
  | call :: calls, reply :: replies =>
      (match event call reply with
        | some (.pop item) => [item]
        | _ => []) ++ pops calls replies
  | _, _ => []

/-- Along a trace of the queue the popped items, followed by what is left,
are the items that were queued, followed by those pushed. -/
theorem Observed.trace_append {queue queue' : List α} {calls : List ι} {replies : List ρ}
    (trace : Machine.Trace (Observed event) queue calls replies queue') :
    queue ++ pushes event calls replies = pops event calls replies ++ queue' := by
  induction trace with
  | nil => simp [pushes, pops]
  | @cons state next final call reply calls replies stepped _ inductionHypothesis =>
      obtain ⟨happened, read, step⟩ := stepped
      -- the queue event of the first call decides what it adds to each side
      cases step with
      | push queue item =>
          simp only [pushes, pops, read]
          simpa using inductionHypothesis
      | pop item rest =>
          simp only [pushes, pops, read]
          simpa using inductionHypothesis
      | skip queue =>
          simpa [pushes, pops, read] using inductionHypothesis
      | empty =>
          simpa [pushes, pops, read] using inductionHypothesis

end Observed

/-! ## The circular layout of a queue -/

/-- The queued slots of a ring of `size` slots: from `deq` to `enq` while
consumer and producer are in one lap, and from `deq` to the end and then up
to `enq` when the consumer is one lap `behind`. -/
def window (slots : List α) (size enq deq : Nat) (behind : Bool) : List α :=
  if behind then (slots.take size).drop deq ++ slots.take enq else (slots.take enq).drop deq

section Window

variable {slots : List α} {size enq deq : Nat}

theorem take_succ_set (within : enq < slots.length) (item : α) :
    (slots.set enq item).take (enq + 1) = slots.take enq ++ [item] := by
  rw [List.take_add_one, List.getElem?_set_self within, List.take_set_of_le (Nat.le_refl enq)]
  rfl

theorem length_window_of_same (within : enq ≤ slots.length) :
    (window slots size enq deq false).length = enq - deq := by
  simp [window, Nat.min_eq_left within]

theorem length_window_of_behind (enqWithin : enq ≤ slots.length) (sized : size ≤ slots.length) :
    (window slots size enq deq true).length = size - deq + enq := by
  simp [window, Nat.min_eq_left enqWithin, Nat.min_eq_left sized]

theorem window_self (slots : List α) (size enq : Nat) : window slots size enq enq false = [] := by
  simp [window]

/-- The consumer in the producer's lap reads the front item at `deq`. -/
theorem window_of_lt (before : deq < enq) (within : enq ≤ slots.length) :
    window slots size enq deq false =
      slots[deq] :: window slots size enq (deq + 1) false := by
  simp only [window, Bool.false_eq_true, ↓reduceIte]
  rw [List.drop_eq_getElem_cons (by simp; omega)]
  simp

/-- The consumer a lap behind reads the front item at `deq`. -/
theorem window_of_behind (before : deq < size) (sized : size ≤ slots.length) :
    window slots size enq deq true =
      slots[deq] :: window slots size enq (deq + 1) true := by
  simp only [window, ↓reduceIte]
  rw [List.drop_eq_getElem_cons (by simp; omega)]
  simp

/-- A consumer at the end of its lap is at the start of the producer's. -/
theorem window_size_of_behind (slots : List α) (size enq : Nat) :
    window slots size enq size true = window slots size enq 0 false := by
  simp [window]

/-- A write at `enq` in the consumer's lap appends the written item. -/
theorem window_set_of_same (after : deq ≤ enq) (within : enq < slots.length) (item : α) :
    window (slots.set enq item) size (enq + 1) deq false = window slots size enq deq false ++ [item] := by
  simp only [window, Bool.false_eq_true, ↓reduceIte, take_succ_set within]
  rw [List.drop_append_of_le_length (by simp; omega)]

/-- A write at `enq` a lap ahead of the consumer appends the written item;
the slot is one the consumer has read. -/
theorem window_set_of_behind (before : enq < deq) (within : enq < slots.length) (item : α) :
    window (slots.set enq item) size (enq + 1) deq true = window slots size enq deq true ++ [item] := by
  have read : ((slots.set enq item).take size).drop deq = (slots.take size).drop deq := by
    rw [List.take_set, List.drop_set_of_lt before]
  simp only [window, ↓reduceIte, take_succ_set within, read, List.append_assoc]

/-- A write into the last slot of the consumer's lap, after which the producer
wraps, appends the written item to a window that now reaches the end. -/
theorem window_set_wrap (after : deq ≤ enq) (last : enq + 1 = size) (sized : size ≤ slots.length)
    (item : α) :
    window (slots.set enq item) size 0 deq true = window slots size enq deq false ++ [item] := by
  simp only [window, ↓reduceIte, ← last, take_succ_set (show enq < slots.length by omega),
    List.take_zero, List.append_nil, Bool.false_eq_true]
  rw [List.drop_append_of_le_length (by simp; omega)]

/-- A write past the ring's slots leaves the window as it was. -/
theorem window_set_of_le {index : Nat} (outside : size ≤ index) (enqWithin : enq ≤ size) (item : α)
    (behind : Bool) :
    window (slots.set index item) size enq deq behind = window slots size enq deq behind := by
  have taken : ∀ count ≤ size, (slots.set index item).take count = slots.take count := fun count small => by
    rw [List.take_set, List.set_eq_of_length_le (by simp; omega)]
  cases behind <;> simp [window, taken enq enqWithin, taken size (Nat.le_refl size)]

end Window

/-! ## Lap parity of the slots -/

section Striped

variable {β : Type v} (bit : α → β)

/-- Of the first `size` slots, those before `enq` carry `current` and the
others `previous`. -/
def Striped (slots : List α) (size enq : Nat) (current previous : β) : Prop :=
  ∀ index (within : index < slots.length), index < size →
    bit slots[index] = if index < enq then current else previous

variable {bit} {slots : List α} {size enq : Nat} {current previous : β}

/-- Before the first lap every slot carries the bit of the lap before. -/
theorem Striped.start (all : ∀ index (within : index < slots.length), index < size → bit slots[index] = previous)
    (current : β) : Striped bit slots size 0 current previous := by
  intro index within inside
  simpa using all index within inside

/-- Writing the producer's bit at `enq` moves the stripe by one slot. -/
theorem Striped.set (striped : Striped bit slots size enq current previous) {item : α}
    (marked : bit item = current) : Striped bit (slots.set enq item) size (enq + 1) current previous := by
  intro index within inside
  rw [List.getElem_set]
  by_cases here : enq = index
  · subst here
    simp [marked]
  · have old := striped index (by simpa using within) inside
    simp only [here, ↓reduceIte, old]
    by_cases earlier : index < enq
    · simp [earlier, show index < enq + 1 by omega]
    · simp [earlier, show ¬index < enq + 1 by omega]

/-- A write past the first `size` slots keeps the stripes. -/
theorem Striped.set_of_le (striped : Striped bit slots size enq current previous) {index : Nat}
    (outside : size ≤ index) (item : α) : Striped bit (slots.set index item) size enq current previous := by
  intro other within inside
  rw [List.getElem_set, if_neg (by omega)]
  exact striped other (by simpa using within) inside

/-- After a full lap every slot carries the current bit, which becomes the
bit of the lap before. -/
theorem Striped.wrap (striped : Striped bit slots size size current previous) (next : β) :
    Striped bit slots size 0 next current := by
  intro index within inside
  simpa [inside] using striped index within inside

end Striped

end Queue
