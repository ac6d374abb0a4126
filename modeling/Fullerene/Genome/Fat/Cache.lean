import Mathlib.Data.List.Basic
import Fullerene.Genome.Block
import Fullerene.Lib.Machine
import Fullerene.Lib.Word

/-!
# The sector cache of the FAT driver

`BlockCache` keeps copies of a few sectors of its inner device in slots, each
tagged with the sector it holds, evicts the first untagged slot or else a
round-robin victim, reads single sectors and miss runs through the device,
and drops the tags of written sectors before it writes them through.

`Coherent` says that the tags are distinct and that a tagged slot holds the
device's current content of its sector.  Every call keeps it, and every call
does to the device's disk what `DiskStep` allows, as long as a failed read of
the device leaves its buffer as it was (`coherent_simulates`).  A failed read
may instead leave other bytes: `read_sector` and `get_sector` read into the
evicted slot before they retag it, so the slot keeps its old tag over the new
bytes, and a later read of that sector returns them
(`read_sector_serves_failed_fill`).
-/

namespace Fullerene.Genome

open BlockDevice

/-- `BlockCache`: the inner device, its sector size, the slots (a tag and the
bytes of a sector) and the next round-robin victim. -/
structure BlockCache (D : Type) where
  inner : D
  bytesPerSector : Nat
  entries : List (Option Nat × List UInt8)
  nextVictim : Nat

namespace BlockCache

variable {D : Type} [BlockDevice D]

/-- `BlockCache::new`; `none` is the panic of its `assert!`. -/
def new (inner : D) (capacity : Nat) : Option (BlockCache D) :=
  if 0 < capacity then
    some ⟨inner, sectorSize inner, List.replicate capacity (none, List.replicate (sectorSize inner) 0), 0⟩
  else none

/-- `lookup`: the first slot tagged `lba`. -/
def lookup (cache : BlockCache D) (lba : Nat) : Option Nat :=
  cache.entries.findIdx? fun entry => entry.1 == some lba

/-- `evict_slot`: the first untagged slot, or else the round-robin victim;
`none` is the division by zero of a cache without slots. -/
def evictSlot (cache : BlockCache D) : Option (Nat × BlockCache D) :=
  match cache.entries.findIdx? fun entry => entry.1.isNone with
  | some index => some (index, cache)
  | none =>
      if cache.entries.length = 0 then none
      else some (cache.nextVictim, { cache with nextVictim := (cache.nextVictim + 1) % cache.entries.length })

/-- The miss path that `read_sector` and `get_sector` share: read the sector
into the bytes of an evicted slot, and tag the slot once the read succeeded. -/
def fillSlot (cache : BlockCache D) (lba : Nat) :
    Option (Except BlockError (List UInt8) × BlockCache D) := do
  let (index, cache) ← cache.evictSlot
  let entry ← cache.entries[index]?
  match BlockDevice.readSectors cache.inner lba 1 entry.2 with
  | (.error error, inner, bytes) =>
      pure (.error error, { cache with inner, entries := cache.entries.set index (entry.1, bytes) })
  | (.ok (), inner, bytes) =>
      pure (.ok bytes, { cache with inner, entries := cache.entries.set index (some lba, bytes) })

/-- `read_sector`. -/
def readSector (cache : BlockCache D) (lba : Nat) (buf : List UInt8) :
    Option (Except BlockError Unit × BlockCache D × List UInt8) :=
  if buf.length < cache.bytesPerSector then
    some (.error (.bufferTooSmall cache.bytesPerSector buf.length), cache, buf)
  else if totalSectors cache.inner ≤ lba then some (.error .lbaOverflow, cache, buf)
  else
    match cache.lookup lba with
    | some index => do
        let entry ← cache.entries[index]?
        let buf ← buf.copyChecked 0 cache.bytesPerSector entry.2
        pure (.ok (), cache, buf)
    | none => do
        let (filled, cache) ← cache.fillSlot lba
        match filled with
        | .error error => pure (.error error, cache, buf)
        | .ok bytes =>
            let buf ← buf.copyChecked 0 cache.bytesPerSector bytes
            pure (.ok (), cache, buf)

/-- `get_sector`: the bytes of the slot that holds the sector. -/
def getSector (cache : BlockCache D) (lba : Nat) :
    Option (Except BlockError (List UInt8) × BlockCache D) :=
  if totalSectors cache.inner ≤ lba then some (.error .lbaOverflow, cache)
  else
    match cache.lookup lba with
    | some index => (cache.entries[index]?).map fun entry => (.ok entry.2, cache)
    | none => cache.fillSlot lba

/-- `if let Some(index) = self.lookup(lba) { self.entries[index].0 = None }`. -/
def invalidate (cache : BlockCache D) (lba : Nat) : BlockCache D :=
  match cache.lookup lba with
  | some index => { cache with entries := cache.entries.modify index fun entry => (none, entry.2) }
  | none => cache

/-- `write_sector`: drop the tag of the sector, then write through. -/
def writeSector (cache : BlockCache D) (lba : Nat) (buf : List UInt8) :
    Except BlockError Unit × BlockCache D :=
  if totalSectors cache.inner ≤ lba then (.error .lbaOverflow, cache)
  else if buf.length < cache.bytesPerSector then
    (.error (.bufferTooSmall cache.bytesPerSector buf.length), cache)
  else
    let cache := cache.invalidate lba
    let (result, inner) := BlockDevice.writeSectors cache.inner lba 1 buf
    (result, { cache with inner })

/-- The checks that `read_sectors` and `write_sectors` make first: the bytes
`count` sectors take, in a buffer that holds them, of sectors on the device. -/
def checkRange (cache : BlockCache D) (lba count bufLength : Nat) : Except BlockError Nat :=
  match Word.checkedMul 64 count cache.bytesPerSector with
  | none => .error .lbaOverflow
  | some needed =>
      if bufLength < needed then .error (.bufferTooSmall needed bufLength)
      else
        match Word.checkedAdd 64 lba count with
        | none => .error .lbaOverflow
        | some endLba => if totalSectors cache.inner < endLba then .error .lbaOverflow else .ok needed

/-- `while index < count && self.lookup(lba + index).is_none() { index += 1 }`
in `fuel` rounds. -/
def missRunEnd (cache : BlockCache D) (lba count : Nat) : Nat → Nat → Nat
  | 0, index => index
  | fuel + 1, index =>
      if index < count && (cache.lookup (lba + index)).isNone then cache.missRunEnd lba count fuel (index + 1)
      else index

/-- `for sector in first..index`: each sector of a miss run, read into `buf`,
goes into an evicted slot. -/
def insertRun (lba : Nat) (buf : List UInt8) : List Nat → BlockCache D → Option (BlockCache D)
  | [], cache => some cache
  | sector :: sectors, cache => do
      let (slot, cache) ← cache.evictSlot
      let entry ← cache.entries[slot]?
      let bytes ← entry.2.copyChecked 0 cache.bytesPerSector (buf.chunkAt cache.bytesPerSector sector)
      insertRun lba buf sectors { cache with entries := cache.entries.set slot (some (lba + sector), bytes) }

/-- The loop of `read_sectors` from sector `index` on, in `fuel` rounds: a
cached sector is copied from its slot, and a run of missing sectors is read
from the device in one call into its part of `buf` and then cached. -/
def readLoop (lba count : Nat) : Nat → BlockCache D → Nat → List UInt8 →
    Option (Except BlockError Unit × BlockCache D × List UInt8)
  | 0, _, _, _ => none
  | fuel + 1, cache, index, buf =>
      if index < count then
        match cache.lookup (lba + index) with
        | some slot => do
            let entry ← cache.entries[slot]?
            let buf ← buf.copyChecked (index * cache.bytesPerSector) cache.bytesPerSector entry.2
            readLoop lba count fuel cache (index + 1) buf
        | none =>
            let first := index
            let index := cache.missRunEnd lba count (count - first) first
            let size := cache.bytesPerSector
            -- the device reads into `buf[first * size .. index * size]`
            let (result, inner, bytes) := BlockDevice.readSectors cache.inner (lba + first) (index - first)
              ((buf.drop (first * size)).take ((index - first) * size))
            let buf := buf.copyFromSlice (first * size) bytes
            let cache := { cache with inner }
            match result with
            | .error error => some (.error error, cache, buf)
            | .ok () => do
                let cache ← insertRun lba buf (List.range' first (index - first)) cache
                readLoop lba count fuel cache index buf
      else some (.ok (), cache, buf)

/-- `read_sectors`; each round of the loop moves past at least one sector, so
`count + 1` rounds are enough. -/
def readSectors (cache : BlockCache D) (lba count : Nat) (buf : List UInt8) :
    Option (Except BlockError Unit × BlockCache D × List UInt8) :=
  match cache.checkRange lba count buf.length with
  | .error error => some (.error error, cache, buf)
  | .ok _ => readLoop lba count (count + 1) cache 0 buf

/-- `write_sectors`: drop the tags of the sectors, then write through. -/
def writeSectors (cache : BlockCache D) (lba count : Nat) (buf : List UInt8) :
    Except BlockError Unit × BlockCache D :=
  match cache.checkRange lba count buf.length with
  | .error error => (.error error, cache)
  | .ok needed =>
      let cache := (List.range count).foldl (fun cache index => cache.invalidate (lba + index)) cache
      let (result, inner) := BlockDevice.writeSectors cache.inner lba count (buf.take needed)
      (result, { cache with inner })

/-- One call; `none` when it panics. -/
def step (cache : BlockCache D) : SectorCall → Option (SectorReply × BlockCache D)
  | .readSector lba buf =>
      (cache.readSector lba buf).map fun (result, cache, buf) => (.read result buf, cache)
  | .getSector lba => (cache.getSector lba).map fun (result, cache) => (.sector result, cache)
  | .writeSector lba buf => some (.written (cache.writeSector lba buf).1, (cache.writeSector lba buf).2)
  | .readSectors lba count buf =>
      (cache.readSectors lba count buf).map fun (result, cache, buf) => (.read result buf, cache)
  | .writeSectors lba count buf =>
      some (.written (cache.writeSectors lba count buf).1, (cache.writeSectors lba count buf).2)

/-- The cache as a machine started from `cache`. -/
def machine (cache : BlockCache D) : Machine (BlockCache D) SectorCall SectorReply :=
  ⟨cache, step⟩

/-! ## Coherence -/

/-- The slots of a cache of `image`'s device: each holds a sector's worth of
bytes, a tagged slot holds the device's current content of a sector on it, and
no two slots carry one tag. -/
structure Coherent (image : D → Nat → List UInt8) (cache : BlockCache D) : Prop where
  bytesPerSector : cache.bytesPerSector = sectorSize cache.inner
  victim : cache.nextVictim < cache.entries.length
  sized : ∀ {index : Nat} {entry : Option Nat × List UInt8}, cache.entries[index]? = some entry →
    entry.2.length = cache.bytesPerSector
  tagged : ∀ {index : Nat} {entry : Option Nat × List UInt8} {lba : Nat}, cache.entries[index]? = some entry →
    entry.1 = some lba → lba < totalSectors cache.inner ∧ entry.2 = image cache.inner lba
  unique : ∀ {index index' : Nat} {entry entry' : Option Nat × List UInt8} {lba : Nat},
    cache.entries[index]? = some entry → cache.entries[index']? = some entry' → entry.1 = some lba →
      entry'.1 = some lba → index = index'

variable {image : D → Nat → List UInt8} {cache : BlockCache D}

omit [BlockDevice D] in
theorem lookup_eq_some {lba index : Nat} (found : cache.lookup lba = some index) :
    ∃ entry, cache.entries[index]? = some entry ∧ entry.1 = some lba := by
  obtain ⟨bound, matched, -⟩ := List.findIdx?_eq_some_iff_getElem.mp found
  exact ⟨_, List.getElem?_eq_getElem bound, by simpa using matched⟩

omit [BlockDevice D] in
theorem lookup_eq_none {lba : Nat} :
    cache.lookup lba = none ↔
      ∀ {index : Nat} {entry : Option Nat × List UInt8}, cache.entries[index]? = some entry → entry.1 ≠ some lba := by
  rw [lookup, List.findIdx?_eq_none_iff]
  constructor
  · intro untagged index entry found tag
    have differs := untagged entry (List.mem_of_getElem? found)
    simp [tag] at differs
  · intro untagged entry member
    obtain ⟨index, found⟩ := List.mem_iff_getElem?.mp member
    simpa using untagged found

/-- In a coherent cache the slot `lookup` finds is the only one with its tag. -/
theorem Coherent.lookup_of_tagged (coherent : Coherent image cache) {index lba : Nat}
    {entry : Option Nat × List UInt8} (found : cache.entries[index]? = some entry) (tag : entry.1 = some lba) :
    cache.lookup lba = some index := by
  cases looked : cache.lookup lba with
  | none => exact absurd tag (lookup_eq_none.mp looked found)
  | some index' =>
      obtain ⟨entry', found', tag'⟩ := BlockCache.lookup_eq_some looked
      rw [coherent.unique found' found tag' tag]

theorem Coherent.withVictim (coherent : Coherent image cache) {victim : Nat}
    (bound : victim < cache.entries.length) : Coherent image { cache with nextVictim := victim } where
  bytesPerSector := coherent.bytesPerSector
  victim := bound
  sized := coherent.sized
  tagged := coherent.tagged
  unique := coherent.unique

/-- A slot may be given bytes of a sector's length and a tag of a sector on the
device whose content they are, if no other slot carries that tag. -/
theorem Coherent.set (coherent : Coherent image cache) {index : Nat} (bound : index < cache.entries.length)
    {tag : Option Nat} {bytes : List UInt8} (sized : bytes.length = cache.bytesPerSector)
    (current : ∀ {lba}, tag = some lba → lba < totalSectors cache.inner ∧ bytes = image cache.inner lba)
    (alone : ∀ {lba index'} {entry : Option Nat × List UInt8}, tag = some lba → index' ≠ index →
      cache.entries[index']? = some entry → entry.1 ≠ some lba) :
    Coherent image { cache with entries := cache.entries.set index (tag, bytes) } where
  bytesPerSector := coherent.bytesPerSector
  victim := by simpa using coherent.victim
  sized := by
    intro index' entry found
    rw [List.getElem?_set] at found
    split_ifs at found with same
    · cases found
      exact sized
    · exact coherent.sized found
  tagged := by
    intro index' entry lba found tagged
    rw [List.getElem?_set] at found
    split_ifs at found with same
    · cases found
      exact current tagged
    · exact coherent.tagged found tagged
  unique := by
    intro first second entry entry' lba found found' tagged tagged'
    rw [List.getElem?_set] at found found'
    -- the new tag meets no old one, and old tags stay distinct
    by_cases firstNew : index = first <;> by_cases secondNew : index = second
    · exact firstNew.symm.trans secondNew
    · rw [if_pos firstNew, if_pos (firstNew ▸ bound)] at found
      rw [if_neg secondNew] at found'
      cases found
      exact absurd tagged' (alone tagged (Ne.symm secondNew) found')
    · rw [if_neg firstNew] at found
      rw [if_pos secondNew, if_pos (secondNew ▸ bound)] at found'
      cases found'
      exact absurd tagged (alone tagged' (Ne.symm firstNew) found)
    · rw [if_neg firstNew] at found
      rw [if_neg secondNew] at found'
      exact coherent.unique found found' tagged tagged'

/-- The device may change under the slots if it keeps its geometry and the
sectors that slots hold. -/
theorem Coherent.withInner (coherent : Coherent image cache) {inner : D}
    (sameSize : sectorSize inner = sectorSize cache.inner)
    (sameTotal : totalSectors inner = totalSectors cache.inner)
    (kept : ∀ {index : Nat} {entry : Option Nat × List UInt8} {lba : Nat}, cache.entries[index]? = some entry →
      entry.1 = some lba → image inner lba = image cache.inner lba) :
    Coherent image { cache with inner } where
  bytesPerSector := coherent.bytesPerSector.trans sameSize.symm
  victim := coherent.victim
  sized := coherent.sized
  tagged := by
    intro index entry lba found tagged
    obtain ⟨onDisk, content⟩ := coherent.tagged found tagged
    exact ⟨sameTotal ▸ onDisk, content.trans (kept found tagged).symm⟩
  unique := coherent.unique

/-! ## Filling a slot -/

/-- In a coherent cache `evict_slot` picks a slot and moves only the victim. -/
theorem evictSlot_spec (coherent : Coherent image cache) :
    ∃ index victim, cache.evictSlot = some (index, { cache with nextVictim := victim }) ∧
      index < cache.entries.length ∧ victim < cache.entries.length := by
  unfold evictSlot
  split
  · rename_i index free
    obtain ⟨bound, -, -⟩ := List.findIdx?_eq_some_iff_getElem.mp free
    exact ⟨index, cache.nextVictim, rfl, bound, coherent.victim⟩
  · have nonempty : cache.entries.length ≠ 0 := Nat.ne_zero_of_lt coherent.victim
    rw [if_neg nonempty]
    exact ⟨cache.nextVictim, _, rfl, coherent.victim, Nat.mod_lt _ (Nat.pos_of_ne_zero nonempty)⟩

/-- `fillSlot` reads into the bytes of the evicted slot; a successful read
retags the slot, a failed one leaves its tag. -/
theorem fillSlot_eq (coherent : Coherent image cache) (lba : Nat) :
    ∃ index victim entry, victim < cache.entries.length ∧ cache.entries[index]? = some entry ∧
      cache.fillSlot lba = some
        (match BlockDevice.readSectors cache.inner lba 1 entry.2 with
          | (.error error, inner, bytes) =>
              (.error error,
                { cache with nextVictim := victim, inner, entries := cache.entries.set index (entry.1, bytes) })
          | (.ok (), inner, bytes) =>
              (.ok bytes,
                { cache with nextVictim := victim, inner, entries := cache.entries.set index (some lba, bytes) })) := by
  obtain ⟨index, victim, evicted, bound, victimBound⟩ := evictSlot_spec coherent
  refine ⟨index, victim, cache.entries[index], victimBound, List.getElem?_eq_getElem bound, ?_⟩
  simp only [fillSlot, evicted, Option.bind_eq_bind, Option.bind_some, List.getElem?_eq_getElem bound]
  split <;> rfl

/-- A read that leaves the disk as it is keeps the slots coherent. -/
theorem Coherent.withRead (coherent : Coherent image cache) {inner : D}
    (sameDisk : disk image inner = disk image cache.inner) : Coherent image { cache with inner } :=
  coherent.withInner (congrArg Disk.sectorSize sameDisk) (congrArg Disk.totalSectors sameDisk)
    (fun _ _ => congrFun (congrArg Disk.sectors sameDisk) _)

/-- The one sector a successful single-sector read puts in a sector-sized
buffer is the whole buffer. -/
theorem eq_image_of_holds {disk : Disk} {lba : Nat} {before bytes : List UInt8}
    (sized : bytes.length = disk.sectorSize) (holds : disk.Holds lba 1 before bytes) :
    bytes = disk.sectors lba := by
  have first := holds.1 0 Nat.one_pos
  rwa [List.chunkAt, Nat.zero_mul, List.drop_zero, List.take_of_length_le (Nat.le_of_eq sized),
    Nat.add_zero] at first

section Fill

variable (device : ArrayDevice image) (keeps : KeepsBuffer D)
include device keeps

/-- When failed reads keep their buffer, a fill keeps the cache coherent and
the disk as it is, and a successful one returns the sector's content. -/
theorem fillSlot_coherent (coherent : Coherent image cache) {lba : Nat} (missing : cache.lookup lba = none)
    (onDisk : lba < totalSectors cache.inner) :
    ∃ result next, cache.fillSlot lba = some (result, next) ∧ Coherent image next ∧
      disk image next.inner = disk image cache.inner ∧ ∀ bytes, result = .ok bytes → bytes = image cache.inner lba := by
  obtain ⟨index, victim, entry, victimBound, found, filled⟩ := fillSlot_eq coherent lba
  have bound : index < cache.entries.length := (List.getElem?_eq_some_iff.mp found).1
  have sized := coherent.sized found
  rcases read : BlockDevice.readSectors cache.inner lba 1 entry.2 with ⟨result, inner, bytes⟩
  have sameDisk : disk image inner = disk image cache.inner := by
    simpa [read] using device.read_disk cache.inner lba 1 entry.2
  have bytesLength : bytes.length = entry.2.length := by
    simpa [read] using length_readSectors cache.inner lba 1 entry.2
  rw [read] at filled
  have moved : Coherent image { cache with nextVictim := victim, inner := inner } :=
    (coherent.withVictim victimBound).withRead sameDisk
  cases result with
  | error error =>
      -- the failed read left the slot's bytes as they were
      have kept : bytes = entry.2 := keeps read
      have unchanged : cache.entries.set index (entry.1, bytes) = cache.entries := by
        rw [kept, ← (List.getElem?_eq_some_iff.mp found).2, List.set_getElem_self]
      refine ⟨_, _, filled, ?_, sameDisk, fun _ failed => by cases failed⟩
      rw [unchanged]
      exact moved
  | ok =>
      have holds := device.read_ok read (by omega) (by rw [sized, coherent.bytesPerSector, Nat.one_mul])
      have content : bytes = image cache.inner lba :=
        eq_image_of_holds (by rw [bytesLength, sized, coherent.bytesPerSector]; rfl) holds
      refine ⟨_, _, filled, ?_, sameDisk, fun _ returned => ?_⟩
      · apply moved.set bound (by rw [bytesLength, sized])
        · rintro lba' ⟨⟩
          have sameTotal : totalSectors inner = totalSectors cache.inner := congrArg Disk.totalSectors sameDisk
          have sameImage : image inner = image cache.inner := congrArg Disk.sectors sameDisk
          exact ⟨sameTotal ▸ onDisk, by rw [content]; exact congrFun sameImage.symm lba⟩
        · rintro lba' index' entry' ⟨⟩ - found'
          exact lookup_eq_none.mp missing found'
      · cases returned
        exact content

/-- `read_sector` in a coherent cache returns the sector, keeps the cache
coherent and leaves the disk as it is. -/
theorem readSector_spec (coherent : Coherent image cache) (lba : Nat) (buf : List UInt8) :
    ∃ result next buf', cache.readSector lba buf = some (result, next, buf') ∧ Coherent image next ∧
      disk image next.inner = disk image cache.inner ∧
      (result = .ok () → lba < totalSectors cache.inner ∧ (disk image cache.inner).Holds lba 1 buf buf') := by
  unfold readSector
  split_ifs with small beyond
  · exact ⟨_, _, _, rfl, coherent, rfl, fun failed => by cases failed⟩
  · exact ⟨_, _, _, rfl, coherent, rfl, fun failed => by cases failed⟩
  have onDisk : lba < totalSectors cache.inner := by omega
  have sectorSized : ∀ {bytes : List UInt8}, bytes = image cache.inner lba →
      bytes.length = cache.bytesPerSector := by
    rintro _ rfl
    rw [device.sized onDisk, coherent.bytesPerSector]
  cases looked : cache.lookup lba with
  | some index =>
      -- a hit copies the slot, which holds the sector
      obtain ⟨entry, found, tag⟩ := lookup_eq_some looked
      have content := (coherent.tagged found tag).2
      refine ⟨.ok (), cache, buf.copyFromSlice 0 entry.2, ?_, coherent, rfl, fun _ =>
        ⟨onDisk, Disk.holds_copyFromSlice_zero content ((sectorSized content).trans coherent.bytesPerSector)⟩⟩
      have copied : buf.copyChecked 0 cache.bytesPerSector entry.2 = some (buf.copyFromSlice 0 entry.2) :=
        List.copyChecked_eq_some (by omega) (sectorSized content)
      simp only [found, copied, Option.bind_eq_bind, Option.bind_some]
      rfl
  | none =>
      obtain ⟨result, next, filled, coherentNext, sameDisk, returned⟩ :=
        fillSlot_coherent device keeps coherent looked onDisk
      simp only [filled, Option.bind_eq_bind, Option.bind_some]
      cases result with
      | error error => exact ⟨_, _, _, rfl, coherentNext, sameDisk, fun failed => by cases failed⟩
      | ok bytes =>
          have content := returned bytes rfl
          refine ⟨.ok (), next, buf.copyFromSlice 0 bytes, ?_, coherentNext, sameDisk, fun _ =>
            ⟨onDisk, Disk.holds_copyFromSlice_zero content ((sectorSized content).trans coherent.bytesPerSector)⟩⟩
          -- the fill keeps the sector size
          have nextSize : next.bytesPerSector = cache.bytesPerSector := by
            rw [coherentNext.bytesPerSector, coherent.bytesPerSector]
            exact congrArg Disk.sectorSize sameDisk
          have copied : buf.copyChecked 0 next.bytesPerSector bytes = some (buf.copyFromSlice 0 bytes) :=
            List.copyChecked_eq_some (by omega) (nextSize ▸ sectorSized content)
          simp only [copied]
          rfl

/-- `get_sector` in a coherent cache returns the sector's content, keeps the
cache coherent and leaves the disk as it is. -/
theorem getSector_spec (coherent : Coherent image cache) (lba : Nat) :
    ∃ result next, cache.getSector lba = some (result, next) ∧ Coherent image next ∧
      disk image next.inner = disk image cache.inner ∧
      ∀ bytes, result = .ok bytes → lba < totalSectors cache.inner ∧ bytes = image cache.inner lba := by
  unfold getSector
  split_ifs with beyond
  · exact ⟨_, _, rfl, coherent, rfl, fun _ failed => by cases failed⟩
  have onDisk : lba < totalSectors cache.inner := by omega
  cases looked : cache.lookup lba with
  | some index =>
      obtain ⟨entry, found, tag⟩ := lookup_eq_some looked
      have content := (coherent.tagged found tag).2
      refine ⟨.ok entry.2, cache, by simp only [found, Option.map_some], coherent, rfl, fun bytes returned => ?_⟩
      cases returned
      exact ⟨onDisk, content⟩
  | none =>
      obtain ⟨result, next, filled, coherentNext, sameDisk, returned⟩ :=
        fillSlot_coherent device keeps coherent looked onDisk
      exact ⟨result, next, filled, coherentNext, sameDisk, fun bytes ok => ⟨onDisk, returned bytes ok⟩⟩

end Fill

/-! ## Writing through -/

/-- `invalidate` untags the one slot of the sector: the cache stays coherent,
and each tag left is an old tag of another sector. -/
theorem Coherent.invalidate (coherent : Coherent image cache) (lba : Nat) :
    Coherent image (cache.invalidate lba) ∧ (cache.invalidate lba).inner = cache.inner ∧
      ∀ {index : Nat} {entry : Option Nat × List UInt8} {tag : Nat},
        (cache.invalidate lba).entries[index]? = some entry → entry.1 = some tag →
          tag ≠ lba ∧ ∃ old, cache.entries[index]? = some old ∧ old.1 = some tag := by
  unfold BlockCache.invalidate
  cases looked : cache.lookup lba with
  | none =>
      refine ⟨coherent, rfl, fun found tagged => ⟨?_, _, found, tagged⟩⟩
      rintro rfl
      exact lookup_eq_none.mp looked found tagged
  | some index =>
      obtain ⟨entry, found, tag⟩ := lookup_eq_some looked
      have bound : index < cache.entries.length := (List.getElem?_eq_some_iff.mp found).1
      have entryEq : cache.entries[index] = entry := (List.getElem?_eq_some_iff.mp found).2
      dsimp only
      rw [List.modify_eq_set_get _ bound, List.get_eq_getElem, entryEq]
      refine ⟨coherent.set bound (coherent.sized found) (fun untagged => by cases untagged)
        (fun untagged => by cases untagged), rfl, fun found' tagged' => ?_⟩
      rw [List.getElem?_set] at found'
      split_ifs at found' with same
      · cases found'
        cases tagged'
      · refine ⟨?_, _, found', tagged'⟩
        rintro rfl
        exact same (coherent.unique found found' tag tagged')

/-- Invalidating the sectors `lba + i` for the `i` in a list leaves a coherent
cache whose tags are old tags of other sectors. -/
theorem Coherent.invalidateAll (coherent : Coherent image cache) (lba : Nat) (offsets : List Nat) :
    Coherent image (offsets.foldl (fun cache i => cache.invalidate (lba + i)) cache) ∧
      (offsets.foldl (fun cache i => cache.invalidate (lba + i)) cache).inner = cache.inner ∧
      ∀ {index : Nat} {entry : Option Nat × List UInt8} {tag : Nat},
        (offsets.foldl (fun cache i => cache.invalidate (lba + i)) cache).entries[index]? = some entry →
          entry.1 = some tag → (∀ i ∈ offsets, tag ≠ lba + i) ∧
            ∃ old, cache.entries[index]? = some old ∧ old.1 = some tag := by
  induction offsets generalizing cache with
  | nil => exact ⟨coherent, rfl, fun found tagged => ⟨(fun _ member => by cases member), _, found, tagged⟩⟩
  | cons offset offsets inductionHypothesis =>
      obtain ⟨coherentFirst, sameFirst, tagsFirst⟩ := coherent.invalidate (lba + offset)
      obtain ⟨coherentRest, sameRest, tagsRest⟩ := inductionHypothesis coherentFirst
      refine ⟨coherentRest, sameRest.trans sameFirst, fun found tagged => ?_⟩
      obtain ⟨notRest, old, foundOld, taggedOld⟩ := tagsRest found tagged
      obtain ⟨notFirst, older, foundOlder, taggedOlder⟩ := tagsFirst foundOld taggedOld
      refine ⟨fun i member => ?_, older, foundOlder, taggedOlder⟩
      rcases List.mem_cons.mp member with rfl | later
      · exact notFirst
      · exact notRest i later

/-- A write keeps a coherent cache coherent, and does to the disk what a write
may do. -/
theorem Coherent.writeThrough (device : ArrayDevice image) {before : BlockCache D}
    (coherent : Coherent image cache) (sameInner : cache.inner = before.inner) (lba count : Nat)
    (untagged : ∀ {index : Nat} {entry : Option Nat × List UInt8} {tag : Nat}, cache.entries[index]? = some entry →
      entry.1 = some tag → ¬ (lba ≤ tag ∧ tag < lba + count)) (buf : List UInt8) :
    Coherent image { cache with inner := (BlockDevice.writeSectors cache.inner lba count buf).2 } ∧
      (disk image before.inner).AgreesOutside (disk image (BlockDevice.writeSectors cache.inner lba count buf).2)
        lba count := by
  have outside := device.write_outside cache.inner lba count buf
  refine ⟨coherent.withInner outside.1 outside.2.1 fun found tagged => outside.2.2 _ (untagged found tagged), ?_⟩
  rw [← sameInner]
  exact outside

/-- `write_sector` keeps a coherent cache coherent and writes one sector
through. -/
theorem writeSector_spec (device : ArrayDevice image) (coherent : Coherent image cache) (lba : Nat)
    (buf : List UInt8) :
    Coherent image (cache.writeSector lba buf).2 ∧
      DiskStep (disk image cache.inner) (.writeSector lba buf) (.written (cache.writeSector lba buf).1)
        (disk image (cache.writeSector lba buf).2.inner) := by
  unfold writeSector
  split_ifs with beyond small
  · exact ⟨coherent, (fun failed => by cases failed), rfl, rfl, fun _ _ => rfl⟩
  · exact ⟨coherent, (fun failed => by cases failed), rfl, rfl, fun _ _ => rfl⟩
  obtain ⟨coherentInv, sameInner, tags⟩ := coherent.invalidate lba
  obtain ⟨coherentNext, outside⟩ := coherentInv.writeThrough device sameInner lba 1
    (fun found tagged within => (tags found tagged).1 (by omega)) buf
  dsimp only
  rcases written : BlockDevice.writeSectors (cache.invalidate lba).inner lba 1 buf with ⟨result, inner⟩
  rw [written] at coherentNext outside
  refine ⟨coherentNext, fun ok => ?_, outside⟩
  cases ok
  rw [← sameInner]
  refine device.write_ok written (by rw [sameInner]; omega) ?_
  rw [sameInner, ← coherent.bytesPerSector, Nat.one_mul]
  omega

/-- The checks of `read_sectors` and `write_sectors` pass for a buffer that
holds the sectors, of sectors on the device. -/
theorem checkRange_eq_ok {lba count length needed : Nat}
    (checked : cache.checkRange lba count length = .ok needed) :
    needed = count * cache.bytesPerSector ∧ needed ≤ length ∧ lba + count ≤ totalSectors cache.inner := by
  unfold checkRange at checked
  split at checked
  · cases checked
  rename_i product multiplied
  obtain ⟨-, rfl⟩ := Word.checkedMul_eq_some_iff.mp multiplied
  split_ifs at checked with small
  split at checked
  · cases checked
  rename_i endLba added
  obtain ⟨-, rfl⟩ := Word.checkedAdd_eq_some_iff.mp added
  split_ifs at checked with beyond
  cases checked
  exact ⟨rfl, by omega, by omega⟩

/-- `write_sectors` keeps a coherent cache coherent and writes its sectors
through. -/
theorem writeSectors_spec (device : ArrayDevice image) (coherent : Coherent image cache) (lba count : Nat)
    (buf : List UInt8) :
    Coherent image (cache.writeSectors lba count buf).2 ∧
      DiskStep (disk image cache.inner) (.writeSectors lba count buf)
        (.written (cache.writeSectors lba count buf).1) (disk image (cache.writeSectors lba count buf).2.inner) := by
  unfold writeSectors
  split
  · exact ⟨coherent, (fun failed => by cases failed), rfl, rfl, fun _ _ => rfl⟩
  rename_i needed checked
  obtain ⟨rfl, fits, onDisk⟩ := checkRange_eq_ok checked
  obtain ⟨coherentInv, sameInner, tags⟩ := coherent.invalidateAll lba (List.range count)
  obtain ⟨coherentNext, outside⟩ := coherentInv.writeThrough device sameInner lba count
    (fun {_ _ tag} found tagged within =>
      (tags found tagged).1 (tag - lba) (List.mem_range.mpr (by omega)) (by omega))
    (buf.take (count * cache.bytesPerSector))
  dsimp only
  rcases written : BlockDevice.writeSectors
    ((List.range count).foldl (fun cache i => cache.invalidate (lba + i)) cache).inner lba count
      (buf.take (count * cache.bytesPerSector)) with ⟨result, inner⟩
  rw [written] at coherentNext outside
  refine ⟨coherentNext, fun ok => ?_, outside⟩
  cases ok
  have overwritten := device.write_ok written (by rw [sameInner]; omega)
    (by rw [List.length_take, sameInner, ← coherent.bytesPerSector]; omega)
  have taken := Disk.overwrite_take (disk image cache.inner) lba count buf
  rw [BlockDevice.disk_sectorSize, ← coherent.bytesPerSector] at taken
  rw [overwritten, sameInner, taken]

/-! ## Reading runs of sectors -/

omit [BlockDevice D] in
theorem le_missRunEnd {lba count : Nat} : ∀ {fuel index : Nat}, index ≤ cache.missRunEnd lba count fuel index
  | 0, _ => le_refl _
  | fuel + 1, index => by
      unfold missRunEnd
      split_ifs
      · exact Nat.le_of_succ_le le_missRunEnd
      · exact le_refl _

omit [BlockDevice D] in
/-- The miss run ends at `count` or earlier, and every sector before its end
is missing. -/
theorem missRunEnd_spec (lba : Nat) {count : Nat} :
    ∀ {fuel index : Nat}, count - index ≤ fuel → index ≤ count →
      cache.missRunEnd lba count fuel index ≤ count ∧
        ∀ k, index ≤ k → k < cache.missRunEnd lba count fuel index → cache.lookup (lba + k) = none
  | 0, index, enough, within => by
      simp only [missRunEnd]
      exact ⟨within, fun k low high => absurd high (by omega)⟩
  | fuel + 1, index, enough, within => by
      unfold missRunEnd
      split_ifs with continues
      · -- the sector at `index` is missing, and the run goes on from the next one
        simp only [Bool.and_eq_true, decide_eq_true_eq, Option.isNone_iff_eq_none] at continues
        obtain ⟨atMost, missing⟩ :=
          missRunEnd_spec lba (by omega : count - (index + 1) ≤ fuel) (by omega : index + 1 ≤ count)
        refine ⟨atMost, fun k low high => ?_⟩
        rcases Nat.eq_or_lt_of_le low with rfl | later
        · exact continues.2
        · exact missing k later high
      · exact ⟨within, fun k low high => absurd high (by omega)⟩

omit [BlockDevice D] in
/-- A run that starts at a missing sector takes at least that sector. -/
theorem lt_missRunEnd {lba count fuel index : Nat} (inRange : index < count)
    (missing : cache.lookup (lba + index) = none) :
    index < cache.missRunEnd lba count (fuel + 1) index := by
  have continues : (index < count && (cache.lookup (lba + index)).isNone) = true := by
    simp [inRange, missing]
  rw [missRunEnd, if_pos continues]
  exact le_missRunEnd

section Runs

variable (device : ArrayDevice image)
include device

/-- Caching the sectors of a miss run, all missing and held by `buf`, keeps
the cache coherent. -/
theorem insertRun_spec {lba : Nat} {buf : List UInt8} :
    ∀ {sectors : List Nat} {cache : BlockCache D}, Coherent image cache → sectors.Nodup →
      (∀ sector ∈ sectors, cache.lookup (lba + sector) = none) →
      (∀ sector ∈ sectors, lba + sector < totalSectors cache.inner ∧
        buf.chunkAt cache.bytesPerSector sector = image cache.inner (lba + sector)) →
      ∃ next, insertRun lba buf sectors cache = some next ∧ Coherent image next ∧ next.inner = cache.inner ∧
        next.bytesPerSector = cache.bytesPerSector
  | [], cache, coherent, _, _, _ => ⟨cache, rfl, coherent, rfl, rfl⟩
  | sector :: sectors, cache, coherent, nodup, missing, content => by
      obtain ⟨index, victim, evicted, bound, victimBound⟩ := evictSlot_spec coherent
      obtain ⟨onDisk, chunk⟩ := content sector List.mem_cons_self
      generalize chunkNamed : buf.chunkAt cache.bytesPerSector sector = chunk' at chunk
      have found : cache.entries[index]? = some cache.entries[index] := List.getElem?_eq_getElem bound
      have chunkSized : chunk'.length = cache.bytesPerSector := by
        rw [chunk, device.sized onDisk, coherent.bytesPerSector]
      have copied : cache.entries[index].2.copyChecked 0 cache.bytesPerSector chunk' = some chunk' := by
        rw [List.copyChecked_eq_some (by rw [coherent.sized found]; omega) chunkSized,
          List.copyFromSlice_zero_of_length (by rw [chunkSized, coherent.sized found])]
      -- the evicted slot now holds the sector
      have coherentSet : Coherent image
          { cache with nextVictim := victim, entries := cache.entries.set index (some (lba + sector), chunk') } :=
        (coherent.withVictim victimBound).set bound chunkSized
          (fun tagged => by cases tagged; exact ⟨onDisk, chunk⟩)
          (fun tagged _ found' => by cases tagged; exact lookup_eq_none.mp (missing sector List.mem_cons_self) found')
      -- the rest of the run is still missing: the new tag is the first sector's
      have missingRest : ∀ sector' ∈ sectors,
          ({ cache with nextVictim := victim, entries := cache.entries.set index (some (lba + sector), chunk') } :
            BlockCache D).lookup (lba + sector') = none := by
        intro sector' member
        refine lookup_eq_none.mpr fun {index' entry} found' tagged => ?_
        rw [List.getElem?_set] at found'
        split_ifs at found' with same
        · cases found'
          have : sector = sector' := by simpa using tagged
          exact (List.nodup_cons.mp nodup).1 (this ▸ member)
        · exact lookup_eq_none.mp (missing sector' (List.mem_cons_of_mem _ member)) found' tagged
      obtain ⟨next, inserted, coherentNext, sameInner, sameSize⟩ := insertRun_spec coherentSet
        (List.nodup_cons.mp nodup).2 missingRest (fun sector' member => content sector' (List.mem_cons_of_mem _ member))
      refine ⟨next, ?_, coherentNext, sameInner, sameSize⟩
      simp only [insertRun, evicted, Option.bind_eq_bind, Option.bind_some, found, chunkNamed, copied]
      exact inserted

omit device in
/-- A round of the loop on a cached sector copies the slot, which holds the
sector, to its place in the buffer. -/
theorem readLoop_hit (coherent : Coherent image cache) (fuel : Nat) {lba count index slot : Nat} {buf : List UInt8}
    (inRange : index < count) (room : count * cache.bytesPerSector ≤ buf.length)
    (looked : cache.lookup (lba + index) = some slot) :
    ∃ bytes, bytes = image cache.inner (lba + index) ∧ bytes.length = cache.bytesPerSector ∧
      readLoop lba count (fuel + 1) cache index buf =
        readLoop lba count fuel cache (index + 1) (buf.copyFromSlice (index * cache.bytesPerSector) bytes) := by
  obtain ⟨entry, found, tag⟩ := lookup_eq_some looked
  have sized := coherent.sized found
  have sectorRoom : index * cache.bytesPerSector + cache.bytesPerSector ≤ buf.length := by
    rw [← Nat.succ_mul]
    exact (Nat.mul_le_mul_right _ inRange).trans room
  have copied : buf.copyChecked (index * cache.bytesPerSector) cache.bytesPerSector entry.2 =
      some (buf.copyFromSlice (index * cache.bytesPerSector) entry.2) :=
    List.copyChecked_eq_some sectorRoom sized
  refine ⟨entry.2, (coherent.tagged found tag).2, sized, ?_⟩
  simp only [readLoop, if_pos inRange, looked, found, copied, Option.bind_eq_bind, Option.bind_some]

/-- A round of the loop on a missing sector reads the run of missing sectors
from the device into their place in the buffer; if that read succeeds, it
caches them and goes on after the run. -/
theorem readLoop_miss (coherent : Coherent image cache) (fuel : Nat) {lba count index : Nat} {buf : List UInt8}
    (inRange : index < count) (onDisk : lba + count ≤ totalSectors cache.inner)
    (room : count * cache.bytesPerSector ≤ buf.length) (looked : cache.lookup (lba + index) = none) :
    ∃ stop inner bytes, index < stop ∧ stop ≤ count ∧ disk image inner = disk image cache.inner ∧
      bytes.length = (stop - index) * cache.bytesPerSector ∧
      ((∃ error, readLoop lba count (fuel + 1) cache index buf =
          some (.error error, { cache with inner }, buf.copyFromSlice (index * cache.bytesPerSector) bytes)) ∨
        ((∀ j, index ≤ j → j < stop →
            bytes.chunkAt cache.bytesPerSector (j - index) = image cache.inner (lba + j)) ∧
          ∃ next, Coherent image next ∧ next.inner = inner ∧ next.bytesPerSector = cache.bytesPerSector ∧
            readLoop lba count (fuel + 1) cache index buf =
              readLoop lba count fuel next stop (buf.copyFromSlice (index * cache.bytesPerSector) bytes))) := by
  have longer : index < cache.missRunEnd lba count (count - index) index := by
    rw [show count - index = (count - index - 1) + 1 by omega]
    exact lt_missRunEnd inRange looked
  obtain ⟨atMost, missing⟩ := missRunEnd_spec lba (le_refl (count - index)) inRange.le
  generalize stopped : cache.missRunEnd lba count (count - index) index = stop at longer atMost missing
  have stopRoom : stop * cache.bytesPerSector ≤ buf.length := (Nat.mul_le_mul_right _ atMost).trans room
  have runSplit : index * cache.bytesPerSector + (stop - index) * cache.bytesPerSector =
      stop * cache.bytesPerSector := by
    rw [← Nat.add_mul, Nat.add_sub_cancel' longer.le]
  generalize sliced : (buf.drop (index * cache.bytesPerSector)).take ((stop - index) * cache.bytesPerSector) = slice
  have sliceLength : slice.length = (stop - index) * cache.bytesPerSector := by
    rw [← sliced, List.length_take, List.length_drop]
    omega
  rcases read : BlockDevice.readSectors cache.inner (lba + index) (stop - index) slice with ⟨result, inner, bytes⟩
  have sameDisk : disk image inner = disk image cache.inner := by
    simpa [read] using device.read_disk cache.inner (lba + index) (stop - index) slice
  have bytesLength : bytes.length = (stop - index) * cache.bytesPerSector := by
    rw [← sliceLength]
    simpa [read] using length_readSectors cache.inner (lba + index) (stop - index) slice
  refine ⟨stop, inner, bytes, longer, atMost, sameDisk, bytesLength, ?_⟩
  simp only [readLoop, if_pos inRange, looked, stopped, sliced, read]
  cases result with
  | error error => exact .inl ⟨error, rfl⟩
  | ok =>
      -- the device put the run's sectors into the buffer's slice
      have holds := device.read_ok read (by omega) (by rw [sliceLength, ← coherent.bytesPerSector])
      have runChunks : ∀ j, index ≤ j → j < stop →
          bytes.chunkAt cache.bytesPerSector (j - index) = image cache.inner (lba + j) := by
        intro j low high
        have chunk := holds.1 (j - index) (by omega)
        rw [BlockDevice.disk_sectorSize, ← coherent.bytesPerSector, BlockDevice.disk_sectors,
          show lba + index + (j - index) = lba + j by omega] at chunk
        exact chunk
      refine .inr ⟨runChunks, ?_⟩
      have sameImage : image inner = image cache.inner := congrArg Disk.sectors sameDisk
      have sameTotal : totalSectors inner = totalSectors cache.inner := congrArg Disk.totalSectors sameDisk
      obtain ⟨next, inserted, coherentNext, sameInner, sameSize⟩ := insertRun_spec device
        (coherent.withRead sameDisk) (show (List.range' index (stop - index)).Nodup from List.nodup_range')
        (fun sector member => missing sector (List.mem_range'_1.mp member).1 (by
          have := (List.mem_range'_1.mp member).2
          omega))
        (fun sector member => by
          obtain ⟨low, high⟩ := List.mem_range'_1.mp member
          refine ⟨by rw [sameTotal]; omega, ?_⟩
          show (buf.copyFromSlice (index * cache.bytesPerSector) bytes).chunkAt cache.bytesPerSector sector =
            image inner (lba + sector)
          rw [List.chunkAt_copyFromSlice_of_le (by omega) low
              (by rw [bytesLength, runSplit]; exact Nat.mul_le_mul_right _ (by omega)),
            runChunks sector low (by omega), sameImage])
      exact ⟨next, coherentNext, sameInner, sameSize, by rw [inserted]; rfl⟩

/-- With enough rounds, the loop over a coherent cache puts the sectors from
`index` on into the buffer, keeps the cache coherent and the disk as it is,
and changes no byte past the requested sectors. -/
theorem readLoop_spec {lba count : Nat} :
    ∀ {fuel : Nat} {cache : BlockCache D} {index : Nat} {buf : List UInt8}, Coherent image cache →
      lba + count ≤ totalSectors cache.inner → count * cache.bytesPerSector ≤ buf.length → count - index < fuel →
      (∀ i < index, buf.chunkAt cache.bytesPerSector i = image cache.inner (lba + i)) →
      ∃ result next buf', readLoop lba count fuel cache index buf = some (result, next, buf') ∧
        Coherent image next ∧ disk image next.inner = disk image cache.inner ∧
        next.bytesPerSector = cache.bytesPerSector ∧ buf'.length = buf.length ∧
        buf'.drop (count * cache.bytesPerSector) = buf.drop (count * cache.bytesPerSector) ∧
        (result = .ok () → ∀ i < count, buf'.chunkAt cache.bytesPerSector i = image cache.inner (lba + i))
  | 0, _, _, _, _, _, _, enough, _ => absurd enough (Nat.not_lt_zero _)
  | fuel + 1, cache, index, buf, coherent, onDisk, room, enough, done => by
      by_cases inRange : index < count
      swap
      · -- every requested sector is in place
        exact ⟨.ok (), cache, buf, by rw [readLoop, if_neg inRange], coherent, rfl, rfl, rfl, rfl,
          fun _ i below => done i (by omega)⟩
      have indexRoom : index * cache.bytesPerSector + cache.bytesPerSector ≤ count * cache.bytesPerSector := by
        rw [← Nat.succ_mul]
        exact Nat.mul_le_mul_right _ inRange
      cases looked : cache.lookup (lba + index) with
      | some slot =>
          -- the slot is copied to its place, and the loop goes on with the next sector
          obtain ⟨bytes, content, sized, stepped⟩ := readLoop_hit coherent fuel inRange room looked
          have copyLength : (buf.copyFromSlice (index * cache.bytesPerSector) bytes).length = buf.length :=
            List.length_copyFromSlice (by omega)
          have doneNext : ∀ i < index + 1, (buf.copyFromSlice (index * cache.bytesPerSector) bytes).chunkAt
              cache.bytesPerSector i = image cache.inner (lba + i) := by
            intro i below
            rcases Nat.lt_succ_iff_lt_or_eq.mp below with before | rfl
            · rw [List.chunkAt_copyFromSlice_of_lt (by omega) before]
              exact done i before
            · rw [List.chunkAt_copyFromSlice_of_le (by omega) (le_refl _) (by rw [Nat.succ_mul]; omega),
                Nat.sub_self, List.chunkAt_zero_of_length sized, content]
          obtain ⟨result, next, buf', looped, coherentNext, sameDisk, sameSize, sameLength, sameRest, filled⟩ :=
            readLoop_spec coherent onDisk (copyLength ▸ room) (show count - (index + 1) < fuel by omega) doneNext
          refine ⟨result, next, buf', by rw [stepped]; exact looped, coherentNext, sameDisk, sameSize,
            sameLength.trans copyLength, ?_, filled⟩
          rw [sameRest, List.drop_copyFromSlice_of_le (by omega) (by omega)]
      | none =>
          obtain ⟨stop, inner, bytes, longer, atMost, sameDisk, bytesLength, outcome⟩ :=
            readLoop_miss device coherent fuel inRange onDisk room looked
          have runEnd : index * cache.bytesPerSector + bytes.length = stop * cache.bytesPerSector := by
            rw [bytesLength, ← Nat.add_mul, Nat.add_sub_cancel' longer.le]
          have stopRoom : stop * cache.bytesPerSector ≤ count * cache.bytesPerSector :=
            Nat.mul_le_mul_right _ atMost
          have copyLength : (buf.copyFromSlice (index * cache.bytesPerSector) bytes).length = buf.length :=
            List.length_copyFromSlice (by omega)
          have copyRest : (buf.copyFromSlice (index * cache.bytesPerSector) bytes).drop
              (count * cache.bytesPerSector) = buf.drop (count * cache.bytesPerSector) :=
            List.drop_copyFromSlice_of_le (by omega) (by omega)
          rcases outcome with ⟨error, stepped⟩ | ⟨runChunks, next, coherentNext, sameInner, sameSize, stepped⟩
          · exact ⟨_, _, _, stepped, coherent.withRead sameDisk, sameDisk, rfl, copyLength, copyRest,
              fun failed => by cases failed⟩
          -- the run is in place and cached, and the loop goes on after it
          have sameImage : image next.inner = image cache.inner := by
            rw [sameInner]
            exact congrArg Disk.sectors sameDisk
          have sameTotal : totalSectors next.inner = totalSectors cache.inner := by
            rw [sameInner]
            exact congrArg Disk.totalSectors sameDisk
          have doneNext : ∀ i < stop, (buf.copyFromSlice (index * cache.bytesPerSector) bytes).chunkAt
              next.bytesPerSector i = image next.inner (lba + i) := by
            intro i below
            rw [sameSize, sameImage]
            by_cases before : i < index
            · rw [List.chunkAt_copyFromSlice_of_lt (by omega) before]
              exact done i before
            · have within : (i + 1) * cache.bytesPerSector ≤ stop * cache.bytesPerSector :=
                Nat.mul_le_mul_right _ below
              rw [List.chunkAt_copyFromSlice_of_le (by omega) (by omega) (by omega)]
              exact runChunks i (by omega) below
          obtain ⟨result, final, buf', looped, coherentFinal, sameDiskFinal, sameSizeFinal, sameLength, sameRest,
              filled⟩ := readLoop_spec coherentNext (by rw [sameTotal]; exact onDisk)
            (by rw [sameSize, copyLength]; exact room) (show count - stop < fuel by omega) doneNext
          refine ⟨result, final, buf', by rw [stepped]; exact looped, coherentFinal,
            sameDiskFinal.trans (by rw [sameInner]; exact sameDisk), sameSizeFinal.trans sameSize,
            sameLength.trans copyLength, by rw [← sameSize, sameRest, sameSize, copyRest], fun ok i below => ?_⟩
          rw [← sameSize, filled ok i below, sameImage]

/-- `read_sectors` in a coherent cache keeps it coherent and, when it
succeeds, puts the device's sectors in the buffer. -/
theorem readSectors_spec (coherent : Coherent image cache) (lba count : Nat) (buf : List UInt8) :
    ∃ result next buf', cache.readSectors lba count buf = some (result, next, buf') ∧ Coherent image next ∧
      DiskStep (disk image cache.inner) (.readSectors lba count buf) (.read result buf') (disk image next.inner) := by
  unfold readSectors
  split
  · exact ⟨_, _, _, rfl, coherent, rfl, fun failed => by cases failed⟩
  rename_i needed checked
  obtain ⟨rfl, fits, onDisk⟩ := checkRange_eq_ok checked
  obtain ⟨result, next, buf', looped, coherentNext, sameDisk, -, -, sameRest, filled⟩ :=
    readLoop_spec device coherent onDisk fits (show count - 0 < count + 1 by omega)
      (fun _ below => absurd below (Nat.not_lt_zero _))
  refine ⟨result, next, buf', looped, coherentNext, sameDisk, fun ok => ⟨onDisk, fun i below => ?_, ?_⟩⟩
  · rw [disk_sectorSize, disk_sectors, ← coherent.bytesPerSector]
    exact filled ok i below
  · rw [disk_sectorSize, ← coherent.bytesPerSector]
    exact sameRest

end Runs

/-! ## The cache refines the disk -/

section Simulation

variable (device : ArrayDevice image) (keeps : KeepsBuffer D)

include device keeps in
/-- Every call of a coherent cache returns, keeps the cache coherent, and does
to the disk what `DiskStep` allows. -/
theorem step_spec (coherent : Coherent image cache) (call : SectorCall) :
    ∃ reply next, cache.step call = some (reply, next) ∧ Coherent image next ∧
      DiskStep (disk image cache.inner) call reply (disk image next.inner) := by
  cases call with
  | readSector lba buf =>
      obtain ⟨result, next, buf', read, coherentNext, sameDisk, returned⟩ :=
        readSector_spec device keeps coherent lba buf
      exact ⟨.read result buf', next, by rw [step, read, Option.map_some], coherentNext, sameDisk, returned⟩
  | getSector lba =>
      obtain ⟨result, next, got, coherentNext, sameDisk, returned⟩ := getSector_spec device keeps coherent lba
      exact ⟨.sector result, next, by rw [step, got, Option.map_some], coherentNext, sameDisk, returned⟩
  | writeSector lba buf =>
      obtain ⟨coherentNext, stepped⟩ := writeSector_spec device coherent lba buf
      exact ⟨_, _, rfl, coherentNext, stepped⟩
  | readSectors lba count buf =>
      obtain ⟨result, next, buf', read, coherentNext, stepped⟩ := readSectors_spec device coherent lba count buf
      exact ⟨.read result buf', next, by rw [step, read, Option.map_some], coherentNext, stepped⟩
  | writeSectors lba count buf =>
      obtain ⟨coherentNext, stepped⟩ := writeSectors_spec device coherent lba count buf
      exact ⟨_, _, rfl, coherentNext, stepped⟩

include device keeps in
/-- Coherence is an invariant of every run from a coherent cache. -/
theorem coherent_inductive (coherent : Coherent image cache) : (machine cache).Inductive (Coherent image) where
  init := coherent
  step := fun {state _ call _} holds stepped => by
    obtain ⟨reply, next, returned, coherentNext, -⟩ := step_spec device keeps holds call
    change state.step call = _ at stepped
    rw [returned, Option.some.injEq, Prod.mk.injEq] at stepped
    exact stepped.2 ▸ coherentNext

include device keeps in
/-- Seen through the disk of its device, a coherent cache is the disk itself:
every call it answers is a step of `DiskStep`. -/
theorem coherent_simulates :
    (machine cache).Simulates DiskStep (fun cache => disk image cache.inner) (Coherent image) :=
  fun {state _ call _} holds stepped => by
    obtain ⟨reply, next, returned, -, allowed⟩ := step_spec device keeps holds call
    change state.step call = _ at stepped
    rw [returned, Option.some.injEq, Prod.mk.injEq] at stepped
    obtain ⟨rfl, rfl⟩ := stepped
    exact allowed

include device keeps in
/-- No call of a coherent cache panics, so every list of calls runs to its
end. -/
theorem run_returns : ∀ {state : BlockCache D}, Coherent image state → ∀ calls : List SectorCall,
    ∃ replies final, (machine cache).run state calls = some (replies, final) ∧ Coherent image final
  | state, coherent, [] => ⟨[], state, rfl, coherent⟩
  | state, coherent, call :: calls => by
      obtain ⟨reply, next, returned, coherentNext, -⟩ := step_spec device keeps coherent call
      obtain ⟨replies, final, ran, coherentFinal⟩ := run_returns coherentNext calls
      exact ⟨reply :: replies, final, (machine cache).run_cons_eq_some.mpr ⟨reply, next, replies, returned, ran, rfl⟩,
        coherentFinal⟩

end Simulation

/-- A new cache has no tagged slot. -/
theorem new_untagged {inner : D} {capacity index : Nat} {cache : BlockCache D} {entry : Option Nat × List UInt8}
    (created : new inner capacity = some cache) (found : cache.entries[index]? = some entry) :
    entry = (none, List.replicate (sectorSize inner) 0) := by
  unfold new at created
  split_ifs at created
  cases created
  exact List.eq_of_mem_replicate (List.mem_of_getElem? found)

/-- A new cache is coherent. -/
theorem new_coherent {inner : D} {capacity : Nat} {cache : BlockCache D}
    (created : new inner capacity = some cache) : Coherent image cache := by
  have blank : ∀ {index : Nat} {entry : Option Nat × List UInt8}, cache.entries[index]? = some entry →
      entry = (none, List.replicate (sectorSize inner) 0) := fun found => new_untagged created found
  unfold new at created
  split_ifs at created with positive
  cases created
  refine ⟨rfl, by rw [List.length_replicate]; exact positive, fun found => ?_, fun found tagged => ?_,
    fun found _ tagged => ?_⟩
  · rw [blank found, List.length_replicate]
  · rw [blank found] at tagged
    cases tagged
  · rw [blank found] at tagged
    cases tagged

end BlockCache

/-! ## A device whose failed reads clobber the buffer -/

/-- A write-protected disk of one-byte sectors whose reads fail as soon as
they cover sector `bad`, after they filled the buffer with `0xFF`.  It is an
array of sectors in the sense of `ArrayDevice`, which leaves the buffer of a
failed read open. -/
structure FaultyDisk where
  bytes : List UInt8
  bad : Nat

namespace FaultyDisk

/-- Sector `sector` of the disk. -/
def image (device : FaultyDisk) (sector : Nat) : List UInt8 :=
  device.bytes.chunkAt 1 sector

instance : BlockDevice FaultyDisk where
  readSectors device lba count buf :=
    if lba ≤ device.bad ∧ device.bad < lba + count then (.error .device, device, List.replicate buf.length 0xFF)
    else if device.bytes.length < lba + count then (.error .lbaOverflow, device, buf)
    else if buf.length < count then (.error (.bufferTooSmall count buf.length), device, buf)
    else (.ok (), device, buf.copyFromSlice 0 ((device.bytes.drop lba).take count))
  writeSectors device _ _ _ := (.error .device, device)
  sectorSize _ := 1
  totalSectors device := device.bytes.length
  length_readSectors device lba count buf := by
    split_ifs with covers beyond small
    · exact List.length_replicate
    · rfl
    · rfl
    · refine List.length_copyFromSlice ?_
      rw [List.length_take, List.length_drop]
      omega

/-- The disk is an array of sectors. -/
theorem arrayDevice : ArrayDevice image where
  sized {device lba} onDisk := by
    change lba < device.bytes.length at onDisk
    change (device.bytes.chunkAt 1 lba).length = 1
    rw [List.chunkAt, List.length_take, List.length_drop]
    omega
  read_disk device lba count buf := by
    simp only [BlockDevice.readSectors]
    split_ifs <;> rfl
  read_ok {device device' lba count buf buf'} read onDisk room := by
    change lba + count ≤ device.bytes.length at onDisk
    change count * 1 ≤ buf.length at room
    simp only [BlockDevice.readSectors] at read
    -- only the last branch succeeds
    split_ifs at read with covers beyond small <;>
      simp only [Prod.mk.injEq, reduceCtorEq, false_and, true_and] at read
    obtain ⟨rfl, rfl⟩ := read
    have length : ((device.bytes.drop lba).take count).length = count := by
      rw [List.length_take, List.length_drop]
      omega
    refine ⟨fun i below => ?_, ?_⟩
    · change (buf.copyFromSlice 0 ((device.bytes.drop lba).take count)).chunkAt 1 i =
        device.bytes.chunkAt 1 (lba + i)
      have copied := @List.chunkAt_copyFromSlice_of_le _ buf ((device.bytes.drop lba).take count) 1 0 i
        (Nat.zero_le _) (Nat.zero_le i) (by omega)
      rw [Nat.zero_mul] at copied
      rw [copied, Nat.sub_zero, List.chunkAt_take (by omega)]
      simp only [List.chunkAt, List.drop_drop, Nat.mul_one]
    · change List.drop (count * 1) _ = List.drop (count * 1) _
      exact List.drop_copyFromSlice_of_le (Nat.zero_le _) (by omega)
  write_ok {device device' lba count buf} written := by
    simp only [BlockDevice.writeSectors, Prod.mk.injEq] at written
    cases written.1
  write_outside device lba count buf := ⟨rfl, rfl, fun _ _ => rfl⟩

end FaultyDisk

/-- A failed fill leaves the evicted slot's old tag over the bytes the device
put in it: with one slot, a read of sector `0`, a failed read of the bad
sector `1` and a second read of sector `0` return `0xFF` for a sector that
holds `0`, so the run is no run of `DiskStep`. -/
theorem read_sector_serves_failed_fill :
    ArrayDevice FaultyDisk.image ∧
      ∃ cache final, BlockCache.new (⟨[0, 1], 1⟩ : FaultyDisk) 1 = some cache ∧
        (BlockCache.machine cache).run cache [.readSector 0 [0], .readSector 1 [0], .readSector 0 [0]] =
          some ([.read (.ok ()) [0], .read (.error .device) [0], .read (.ok ()) [0xFF]], final) ∧
        FaultyDisk.image final.inner 0 = [0] ∧
        ¬ Machine.Trace DiskStep (disk FaultyDisk.image cache.inner)
          [.readSector 0 [0], .readSector 1 [0], .readSector 0 [0]]
          [.read (.ok ()) [0], .read (.error .device) [0], .read (.ok ()) [0xFF]]
          (disk FaultyDisk.image final.inner) := by
  refine ⟨FaultyDisk.arrayDevice, _, _, rfl, rfl, rfl, fun trace => ?_⟩
  cases trace with
  | cons first rest =>
      cases rest with
      | cons second rest =>
          cases rest with
          | cons third _ =>
              -- neither read moves the disk, and the last one claims sector `0` holds `0xFF`
              obtain ⟨rfl, -⟩ := first
              obtain ⟨rfl, -⟩ := second
              have served := (third.2 rfl).2.1 0 Nat.zero_lt_one
              revert served
              decide

end Fullerene.Genome
