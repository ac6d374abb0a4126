import Fullerene.Kernel.Handle
import Fullerene.Lib.Machine

/-!
# The per-process handle table

A table of slots, each with a generation byte that survives a free and an
optional entry.  `alloc` takes the first free slot (or pushes a new one),
bumps its generation with wrapping `u8` arithmetic and hands out
`Handle::new(slot_idx as u8, generation, perms)`; `get`, `get_mut`, `remove`
and `check_perm` validate the MAC, then read the slot named by the handle's
slot byte and accept the entry only if its generation equals the handle's.

The slot index is a `u16` that the handle truncates to a byte, and the
generation wraps after 256 allocations in one slot.  While the table has at
most 256 slots, the handles of its entries are pairwise different and each
resolves to its own entry (`entries_resolve`, `entries_handles_nodup`).  The
257th simultaneously live allocation gets the handle of the first
(`alloc_handle_collides`), and a removed handle resolves again after 256
reuses of its slot (`stale_handle_resolves`).
-/

namespace Fullerene.Kernel

/-- `struct HandleEntry`. -/
structure HandleEntry (O : Type) where
  generation : UInt8
  permissions : UInt8
  object : O

/-- `struct HandleSlot`. -/
structure HandleSlot (O : Type) where
  generation : UInt8
  entry : Option (HandleEntry O)

/-- `struct HandleTable`, over the type `O` of kernel objects. -/
structure HandleTable (O : Type) where
  slots : List (HandleSlot O)

namespace HandleTable

variable {O : Type} (secret : UInt64) (table : HandleTable O)

/-- `HandleTable::new`. -/
def new : HandleTable O := ⟨[]⟩

/-- The permissions `alloc` grants: every `HandlePerms` bit. -/
def ownerPerms : UInt8 :=
  HandlePerms.read ||| HandlePerms.write ||| HandlePerms.signal ||| HandlePerms.duplicate |||
    HandlePerms.transfer

/-- `find_free_slot`: the first slot without an entry, cast to `u16`, or a new
slot of generation `0` pushed at the end. -/
def findFreeSlot : UInt16 × HandleTable O :=
  match table.slots.findIdx? fun slot => slot.entry.isNone with
  | some index => (UInt16.ofNat index, table)
  | none => (UInt16.ofNat table.slots.length, ⟨table.slots ++ [⟨0, none⟩]⟩)

/-- `alloc`: bump the slot's generation and store the entry.  `none` when
`self.slots[slot_idx as usize]` panics. -/
def alloc (object : O) : Option (Handle × HandleTable O) :=
  let (slotIdx, grown) := table.findFreeSlot
  grown.slots[slotIdx.toNat]?.map fun slot =>
    let generation := slot.generation + 1
    (Handle.new secret slotIdx.toUInt8 generation ownerPerms,
      ⟨grown.slots.set slotIdx.toNat ⟨generation, some ⟨generation, ownerPerms, object⟩⟩⟩)

/-- The lookup that `get`, `get_mut` and `check_perm` share: the entry in the
slot the handle names, if the MAC checks and the generations agree. -/
def findEntry (handle : Handle) : Option (HandleEntry O) :=
  if !handle.isValid secret then none
  else
    (table.slots[handle.slot.toNat]?.bind HandleSlot.entry).filter fun entry =>
      entry.generation == handle.generation

/-- `get`. -/
def get (handle : Handle) : Option O :=
  (table.findEntry secret handle).map HandleEntry.object

/-- `get_mut`; the model returns the object the reference points to. -/
def getMut (handle : Handle) : Option O :=
  (table.findEntry secret handle).map HandleEntry.object

/-- `check_perm`: every required bit is granted. -/
def checkPerm (handle : Handle) (required : UInt8) : Bool :=
  ((table.findEntry secret handle).map fun entry =>
    entry.permissions &&& required == required).getD false

/-- `remove`: take the entry out of its slot, keeping the slot's generation. -/
def remove (handle : Handle) : Option O × HandleTable O :=
  if !handle.isValid secret then (none, table)
  else
    match table.slots[handle.slot.toNat]? with
    | none => (none, table)
    | some slot =>
        match slot.entry with
        | some entry =>
            if entry.generation = handle.generation then
              (some entry.object, ⟨table.slots.set handle.slot.toNat { slot with entry := none }⟩)
            else (none, table)
        | none => (none, table)

/-- `iter_objects_mut`: the objects the table holds, in slot order. -/
def iterObjects : List O :=
  table.slots.filterMap fun slot => slot.entry.map HandleEntry.object

/-- `entries`: every entry with the handle made from its slot index (cast to
`u8`), generation and permissions. -/
def entries : List (Handle × O) :=
  table.slots.zipIdx.filterMap fun (slot, index) =>
    slot.entry.map fun entry =>
      (Handle.new secret (UInt8.ofNat index) entry.generation entry.permissions, entry.object)

/-! ## The table as a machine -/

/-- A call on the table. -/
inductive Call (O : Type)
  | alloc (object : O)
  | remove (handle : Handle)
  | get (handle : Handle)
  | getMut (handle : Handle)
  | checkPerm (handle : Handle) (required : UInt8)

/-- The value a call returns. -/
inductive Reply (O : Type)
  | handle (handle : Handle)
  | object (result : Option O)
  | allowed (result : Bool)

/-- One call; `none` when it panics. -/
def step : Call O → Option (Reply O × HandleTable O)
  | .alloc object => (table.alloc secret object).map fun (handle, next) => (.handle handle, next)
  | .remove handle => some (.object (table.remove secret handle).1, (table.remove secret handle).2)
  | .get handle => some (.object (table.get secret handle), table)
  | .getMut handle => some (.object (table.getMut secret handle), table)
  | .checkPerm handle required => some (.allowed (table.checkPerm secret handle required), table)

/-- The handle table from `HandleTable::new()`, under one secret. -/
def machine : Machine (HandleTable O) (Call O) (Reply O) :=
  ⟨new, fun table => table.step secret⟩

/-! ## Allocation -/

/-- The slot `alloc` leaves behind at a generation. -/
def filledSlot (generation : UInt8) (object : O) : HandleSlot O :=
  ⟨generation, some ⟨generation, ownerPerms, object⟩⟩

variable {secret table}

theorem findFreeSlot_of_full (full : ∀ slot ∈ table.slots, slot.entry.isSome) :
    table.findFreeSlot = (UInt16.ofNat table.slots.length, ⟨table.slots ++ [⟨0, none⟩]⟩) := by
  have none : table.slots.findIdx? (fun slot => slot.entry.isNone) = none := by
    rw [List.findIdx?_eq_none_iff]
    intro slot member
    simpa [Option.isSome_iff_ne_none] using full slot member
  simp only [findFreeSlot, none]

/-- On a table without a free slot, `alloc` appends a slot of generation `1`. -/
theorem alloc_of_full (object : O) (full : ∀ slot ∈ table.slots, slot.entry.isSome)
    (room : table.slots.length < 65536) :
    table.alloc secret object =
      some (Handle.new secret (UInt16.ofNat table.slots.length).toUInt8 1 ownerPerms,
        ⟨table.slots ++ [filledSlot 1 object]⟩) := by
  have index : (UInt16.ofNat table.slots.length).toNat = table.slots.length :=
    UInt16.toNat_ofNat_of_lt' room
  simp only [alloc, findFreeSlot_of_full full, index, List.getElem?_concat_length,
    Option.map_some, List.set_append_right _ _ (Nat.le_refl _), Nat.sub_self, List.set_cons_zero]
  rfl

@[simp]
theorem iterObjects_append (table : HandleTable O) (slots : List (HandleSlot O)) :
    (⟨table.slots ++ slots⟩ : HandleTable O).iterObjects =
      table.iterObjects ++ (⟨slots⟩ : HandleTable O).iterObjects := by
  simp [iterObjects]

/-- Allocating objects one after another into a table without a free slot
appends a slot of generation `1` for each, and the handles carry the slot
indices truncated to a byte. -/
theorem run_allocs (objects : List O) (full : ∀ slot ∈ table.slots, slot.entry.isSome)
    (room : table.slots.length + objects.length ≤ 65536) :
    (machine secret).run table (objects.map .alloc) =
      some ((List.range' table.slots.length objects.length).map fun index =>
          .handle (Handle.new secret (UInt16.ofNat index).toUInt8 1 ownerPerms),
        ⟨table.slots ++ objects.map (filledSlot 1)⟩) := by
  induction objects generalizing table with
  | nil => simp
  | cons object rest inductionHypothesis =>
      have stepped : table.alloc secret object = _ := alloc_of_full object full (by simp at room; omega)
      have fullAfter : ∀ slot ∈ table.slots ++ [filledSlot 1 object], slot.entry.isSome := by
        intro slot member
        rcases List.mem_append.mp member with old | new
        · exact full slot old
        · rw [List.mem_singleton.mp new]
          rfl
      have ranRest := @inductionHypothesis ⟨table.slots ++ [filledSlot 1 object]⟩ fullAfter
        (by simp at room ⊢; omega)
      simp only [List.map_cons, Machine.run, machine, step, stepped, Option.map_some] at ranRest ⊢
      rw [ranRest]
      simp [List.range'_succ]

/-! ## Lookups -/

/-- A handle made from a slot byte and that slot's entry's generation finds
the entry. -/
theorem findEntry_new {slot : UInt8} {perms : UInt8} {held : HandleSlot O} {entry : HandleEntry O}
    (found : table.slots[slot.toNat]? = some held) (filled : held.entry = some entry) :
    table.findEntry secret (Handle.new secret slot entry.generation perms) = some entry := by
  simp [findEntry, found, filled]

theorem get_new {slot : UInt8} {perms : UInt8} {held : HandleSlot O} {entry : HandleEntry O}
    (found : table.slots[slot.toNat]? = some held) (filled : held.entry = some entry) :
    table.get secret (Handle.new secret slot entry.generation perms) = some entry.object := by
  simp [get, findEntry_new found filled]

/-! ## The byte-sized slot index -/

/-- A slot index of a table with at most 256 slots survives the cast to a
byte. -/
theorem toNat_ofNat_index (small : table.slots.length ≤ 256) {held : HandleSlot O} {index : Nat}
    (listed : (held, index) ∈ table.slots.zipIdx) : (UInt8.ofNat index).toNat = index := by
  have below := (List.mem_zipIdx' listed).1
  exact UInt8.toNat_ofNat_of_lt' (by simp only [UInt8.size]; omega)

/-- Every entry of a table with at most 256 slots is found by its handle,
which grants exactly the permissions it carries. -/
theorem entries_resolve (small : table.slots.length ≤ 256) {handle : Handle} {object : O}
    (member : (handle, object) ∈ table.entries secret) :
    table.get secret handle = some object ∧ table.getMut secret handle = some object ∧
      ∀ required, table.checkPerm secret handle required =
        (handle.permissions &&& required == required) := by
  obtain ⟨⟨held, index⟩, listed, made⟩ := List.mem_filterMap.mp member
  obtain ⟨entry, filled, same⟩ := Option.map_eq_some_iff.mp made
  obtain ⟨rfl, rfl⟩ := Prod.mk.inj same
  have found : table.slots[(UInt8.ofNat index).toNat]? = some held := by
    rw [toNat_ofNat_index small listed]
    exact List.mem_zipIdx_iff_getElem?.mp listed
  have entryFound : table.findEntry secret
      (Handle.new secret (UInt8.ofNat index) entry.generation entry.permissions) = some entry :=
    findEntry_new found filled
  refine ⟨?get, ?getMut, ?checkPerm⟩
  case get => simp [get, entryFound]
  case getMut => simp [getMut, entryFound]
  case checkPerm =>
    intro required
    simp [checkPerm, entryFound]

/-- The handles of the entries of a table with at most 256 slots are pairwise
different. -/
theorem entries_handles_nodup (small : table.slots.length ≤ 256) :
    ((table.entries secret).map Prod.fst).Nodup := by
  rw [entries, List.map_filterMap, List.Nodup, List.pairwise_filterMap]
  have distinct : table.slots.zipIdx.Pairwise fun first second => first.2 ≠ second.2 := by
    apply List.pairwise_map.mp
    rw [List.zipIdx_map_snd]
    exact List.nodup_range' ..
  apply distinct.imp_of_mem
  rintro ⟨held, index⟩ ⟨other, otherIndex⟩ listed otherListed different handle made otherHandle
    otherMade
  simp only [Option.map_map, Option.map_eq_some_iff, Function.comp_apply] at made otherMade
  obtain ⟨entry, -, rfl⟩ := made
  obtain ⟨otherEntry, -, rfl⟩ := otherMade
  -- the handles carry the two indices as their slot bytes
  apply Handle.new_ne_of_slot_ne
  intro sameByte
  apply different
  rw [← toNat_ofNat_index small listed, ← toNat_ofNat_index small otherListed, sameByte]

/-! ## Collisions -/

/-- Two slot indices 256 apart are cast to the same byte. -/
theorem toUInt8_ofNat_add_256 (index : Nat) :
    (UInt16.ofNat (index + 256)).toUInt8 = (UInt16.ofNat index).toUInt8 := by
  apply UInt8.toNat_inj.mp
  simp only [UInt16.toNat_toUInt8, UInt16.toNat_ofNat']
  omega

/-- In a run of allocations into a new table, the allocation `256` places
after an early one returns the same handle while both objects are held, and
that handle resolves to the earlier object. -/
theorem run_allocs_collide (objects : List O) (room : objects.length ≤ 65536) {index : Nat}
    (early : index < 256) (later : index + 256 < objects.length) :
    ∃ replies table handle,
      (machine secret).run new (objects.map .alloc) = some (replies, table) ∧
        replies[index]? = some (.handle handle) ∧ replies[index + 256]? = some (.handle handle) ∧
        table.iterObjects = objects ∧ table.get secret handle = objects[index]? := by
  have ran : (machine secret).run new (objects.map .alloc) = _ :=
    run_allocs objects (by simp [new]) (by simpa [new] using room)
  refine ⟨_, _, Handle.new secret (UInt16.ofNat index).toUInt8 1 ownerPerms, ran, ?first, ?second,
    ?held, ?resolved⟩
  case first =>
    simp only [List.getElem?_map, List.getElem?_range' (by omega : index < objects.length),
      new, List.length_nil, Nat.zero_add, Nat.one_mul, Option.map_some]
  case second =>
    simp only [List.getElem?_map, List.getElem?_range' later, new, List.length_nil,
      Nat.zero_add, Nat.one_mul, Option.map_some, toUInt8_ofNat_add_256]
  case held => simp [iterObjects, new, filledSlot, List.filterMap_map, Function.comp_def]
  case resolved =>
    have byte : ((UInt16.ofNat index).toUInt8).toNat = index := by
      simp only [UInt16.toNat_toUInt8, UInt16.toNat_ofNat']
      omega
    have present : index < objects.length := by omega
    have found : (⟨new.slots ++ objects.map (filledSlot 1)⟩ : HandleTable O).slots[
        ((UInt16.ofNat index).toUInt8).toNat]? = some (filledSlot 1 objects[index]) := by
      rw [byte]
      simp [new, present]
    rw [get_new found rfl, List.getElem?_eq_getElem present]

/-- The 257th allocation into a new table, with all 257 objects still held,
returns the handle that the first returned, and that handle resolves to the
first object. -/
theorem alloc_handle_collides (secret : UInt64) (objects : Fin 257 → O) :
    ∃ replies table handle,
      (machine secret).run new ((List.ofFn objects).map .alloc) = some (replies, table) ∧
        replies[0]? = some (.handle handle) ∧ replies[256]? = some (.handle handle) ∧
        table.iterObjects = List.ofFn objects ∧ table.get secret handle = some (objects 0) := by
  have count : (List.ofFn objects).length = 257 := List.length_ofFn
  obtain ⟨replies, table, handle, ran, first, second, held, resolved⟩ :=
    @run_allocs_collide O secret (List.ofFn objects) (by omega) 0 (by omega) (by omega)
  refine ⟨replies, table, handle, ran, first, second, held, ?_⟩
  rw [resolved, List.getElem?_ofFn]
  rfl

/-- Allocate each object in slot `0` and remove it again, at the generations
that follow `generation`. -/
def reuseCalls (secret : UInt64) : UInt8 → List O → List (Call O)
  | _, [] => []
  | generation, object :: rest =>
      .alloc object :: .remove (Handle.new secret 0 (generation + 1) ownerPerms) ::
        reuseCalls secret (generation + 1) rest

theorem alloc_single_free (object : O) (generation : UInt8) :
    (⟨[⟨generation, none⟩]⟩ : HandleTable O).alloc secret object =
      some (Handle.new secret 0 (generation + 1) ownerPerms,
        ⟨[filledSlot (generation + 1) object]⟩) :=
  rfl

theorem remove_filled (object : O) (generation : UInt8) :
    (⟨[filledSlot generation object]⟩ : HandleTable O).remove secret
        (Handle.new secret 0 generation ownerPerms) =
      (some object, ⟨[⟨generation, none⟩]⟩) := by
  simp [remove, filledSlot]

theorem add_one_add_ofNat (generation : UInt8) (count : Nat) :
    generation + 1 + UInt8.ofNat count = generation + UInt8.ofNat (count + 1) := by
  apply UInt8.toNat_inj.mp
  simp only [UInt8.toNat_add, UInt8.toNat_ofNat', UInt8.toNat_one]
  omega

/-- Allocating in the only slot and removing the handle it returns. -/
theorem run_alloc_remove (object : O) (generation : UInt8) (calls : List (Call O))
    {replies : List (Reply O)} {final : HandleTable O}
    (ranRest : (machine secret).run ⟨[⟨generation + 1, none⟩]⟩ calls = some (replies, final)) :
    (machine secret).run ⟨[⟨generation, none⟩]⟩
        (.alloc object :: .remove (Handle.new secret 0 (generation + 1) ownerPerms) :: calls) =
      some (.handle (Handle.new secret 0 (generation + 1) ownerPerms) :: .object (some object) ::
        replies, final) := by
  have allocated : (machine secret).step ⟨[⟨generation, none⟩]⟩ (.alloc object) =
      some (.handle (Handle.new secret 0 (generation + 1) ownerPerms),
        ⟨[filledSlot (generation + 1) object]⟩) := by
    simp only [machine, step, alloc_single_free, Option.map_some]
  have removed : (machine secret).step ⟨[filledSlot (generation + 1) object]⟩
      (.remove (Handle.new secret 0 (generation + 1) ownerPerms)) =
        some (.object (some object), ⟨[⟨generation + 1, none⟩]⟩) := by
    simp only [machine, step, remove_filled]
  exact ((machine secret).run_cons_eq_some).mpr ⟨_, _, _, allocated,
    ((machine secret).run_cons_eq_some).mpr ⟨_, _, _, removed, ranRest, rfl⟩, rfl⟩

/-- Each reuse of the only slot advances its generation by one. -/
theorem run_reuseCalls (objects : List O) (generation : UInt8) :
    ∃ replies, (machine secret).run ⟨[⟨generation, none⟩]⟩ (reuseCalls secret generation objects) =
      some (replies, ⟨[⟨generation + UInt8.ofNat objects.length, none⟩]⟩) := by
  induction objects generalizing generation with
  | nil =>
      refine ⟨[], ?_⟩
      simp [reuseCalls]
  | cons object rest inductionHypothesis =>
      obtain ⟨replies, ranRest⟩ := inductionHypothesis (generation + 1)
      rw [add_one_add_ofNat] at ranRest
      exact ⟨_, run_alloc_remove object generation _ ranRest⟩

/-- A handle that was removed resolves again, to a later object, once its
slot has been reused 256 times. -/
theorem stale_handle_resolves (secret : UInt64) (first last : O) (fillers : Fin 255 → O) :
    ∃ replies table,
      (machine secret).run new
          ([.alloc first, .remove (Handle.new secret 0 1 ownerPerms)] ++
            reuseCalls secret 1 (List.ofFn fillers) ++
              [.alloc last, .get (Handle.new secret 0 1 ownerPerms)]) = some (replies, table) ∧
        replies.take 2 = [.handle (Handle.new secret 0 1 ownerPerms), .object (some first)] ∧
        replies.getLast? = some (.object (some last)) := by
  -- the first allocation pushes slot `0` at generation `1`
  have opened : (machine secret).run new
      [.alloc first, .remove (Handle.new secret 0 1 ownerPerms)] =
        some ([.handle (Handle.new secret 0 1 ownerPerms), .object (some first)],
          ⟨[⟨1, none⟩]⟩) := by
    have allocated : (machine secret).step new (.alloc first) =
        some (.handle (Handle.new secret 0 1 ownerPerms), ⟨[filledSlot 1 first]⟩) :=
      rfl
    have removed : (machine secret).step ⟨[filledSlot 1 first]⟩
        (.remove (Handle.new secret 0 1 ownerPerms)) = some (.object (some first), ⟨[⟨1, none⟩]⟩) := by
      simp only [machine, step, remove_filled]
    exact ((machine secret).run_cons_eq_some).mpr ⟨_, _, _, allocated,
      ((machine secret).run_cons_eq_some).mpr ⟨_, _, _, removed, rfl, rfl⟩, rfl⟩
  -- 255 more uses of slot `0` wrap its generation round to `0`
  obtain ⟨replies, reused⟩ : ∃ replies, (machine secret).run ⟨[⟨1, none⟩]⟩
      (reuseCalls secret 1 (List.ofFn fillers)) =
        some (replies, ⟨[⟨1 + UInt8.ofNat (List.ofFn fillers).length, none⟩]⟩) :=
    run_reuseCalls (List.ofFn fillers) 1
  have wrapped : (1 : UInt8) + UInt8.ofNat (List.ofFn fillers).length = 0 := by
    rw [List.length_ofFn]
    rfl
  rw [wrapped] at reused
  have reopened : (machine secret).run ⟨[⟨0, none⟩]⟩
      [.alloc last, .get (Handle.new secret 0 1 ownerPerms)] =
        some ([.handle (Handle.new secret 0 1 ownerPerms), .object (some last)],
          ⟨[filledSlot 1 last]⟩) := by
    have allocated : (machine secret).step ⟨[⟨0, none⟩]⟩ (.alloc last) =
        some (.handle (Handle.new secret 0 1 ownerPerms), ⟨[filledSlot 1 last]⟩) := by
      simp only [machine, step, alloc_single_free, Option.map_some]
      rfl
    have resolved : (⟨[filledSlot 1 last]⟩ : HandleTable O).get secret
        (Handle.new secret 0 1 ownerPerms) = some last :=
      @get_new _ secret _ 0 ownerPerms _ ⟨1, ownerPerms, last⟩ rfl rfl
    have looked : (machine secret).step ⟨[filledSlot 1 last]⟩
        (.get (Handle.new secret 0 1 ownerPerms)) =
          some (.object (some last), ⟨[filledSlot 1 last]⟩) := by
      simp only [machine, step, resolved]
    exact ((machine secret).run_cons_eq_some).mpr ⟨_, _, _, allocated,
      ((machine secret).run_cons_eq_some).mpr ⟨_, _, _, looked, rfl, rfl⟩, rfl⟩
  refine ⟨_, _, Machine.run_append _ (Machine.run_append _ opened reused) reopened, rfl, ?_⟩
  rw [List.getLast?_append]
  rfl

end HandleTable

end Fullerene.Kernel
