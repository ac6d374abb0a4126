import Fullerene.Genome.Block
import Fullerene.Genome.Fs
import Fullerene.Lib.Machine
import Fullerene.Lib.Word

/-!
# The byte adapter of the exFAT driver

`ExFatDevice` presents a device of `512`-byte sectors to the exFAT library as
a byte stream with a position.  Reads and writes at a sector boundary move up
to eight whole sectors at a time; a head or a tail inside a sector goes
through one sector buffer, read and, for a write, written back.  Single-sector
reads are served from a `MetadataCache` shared by every adapter of a volume,
which a read fills and a write refreshes.

`FlatDevice bytes` says that a device is the byte array `bytes` cut into
sectors.  For such a device of at most `2 ^ 32` sectors, the adapters of a
mounted volume are the byte array itself (`FlatStep`): reads return the
array's bytes, writes replace them, and the cache holds the device's current
sectors after every call (`shared_simulates`, `adapters_refine_flat`).  On a
larger device a position past `2 ^ 32` sectors has no `u32` sector number, and
reading there fails (`read_past_u32_lba_fails`).
-/

namespace Fullerene.Genome

namespace ExFat

/-- `SECTOR_SIZE`. -/
def sectorSize : Nat := 512

/-- `ROOT_SCAN_SECTORS`. -/
def rootScanSectors : Nat := 256

/-- `METADATA_CACHE_SECTORS`. -/
def metadataCacheSectors : Nat := rootScanSectors + 16

/-- `MAX_CONTIGUOUS_IO_SECTORS`. -/
def maxContiguousIoSectors : Nat := 8

/-- The kinds of `hadris_fat::sync::ErrorKind` the adapter uses. -/
inductive ErrorKind
  | invalidInput
  | notFound
  | other
  deriving DecidableEq, Repr

/-- `hadris_fat::sync::Error` with a static message. -/
structure IoError where
  kind : ErrorKind
  message : String
  deriving DecidableEq, Repr

/-- `hadris_fat::sync::SeekFrom`. -/
inductive SeekFrom
  | start (offset : UInt64)
  | «end» (offset : Int)
  | current (offset : Int)
  deriving DecidableEq, Repr

/-- `type MetadataCache = BTreeMap<u32, [u8; SECTOR_SIZE]>`, as the list of
its entries. -/
structure MetadataCache where
  entries : List (Nat × List UInt8)

namespace MetadataCache

/-- `BTreeMap::get`. -/
def get (cache : MetadataCache) (lba : Nat) : Option (List UInt8) :=
  (cache.entries.find? fun entry => entry.1 == lba).map Prod.snd

/-- `BTreeMap::insert`: the entry of `lba` replaced, or a new one. -/
def insert (cache : MetadataCache) (lba : Nat) (sector : List UInt8) : MetadataCache :=
  ⟨(lba, sector) :: cache.entries.filter fun entry => entry.1 != lba⟩

/-- `get_mut` and `copy_from_slice`: the entry of `lba`, if there is one,
takes the new bytes. -/
def update (cache : MetadataCache) (lba : Nat) (sector : List UInt8) : MetadataCache :=
  ⟨cache.entries.map fun entry => if entry.1 = lba then (lba, sector) else entry⟩

end MetadataCache

end ExFat

open ExFat

/-- `struct ExFatDevice`: the shared device and metadata cache, the position
and the size in bytes. -/
structure ExFatDevice (D : Type) where
  inner : D
  cache : MetadataCache
  position : Nat
  size : Nat

namespace ExFatDevice

variable {D : Type} [BlockDevice D]

/-- `ExFatDevice::block_error`. -/
def blockError : BlockError → IoError
  | .bufferTooSmall _ _ | .lbaOverflow => ⟨.invalidInput, "invalid block I/O request"⟩
  | .sectorNotFound => ⟨.notFound, "block sector not found"⟩
  | .device => ⟨.other, "block device I/O failed"⟩

/-- `ExFatDevice::lba`: the sector of a byte position, as a `u32`. -/
def lba (position : Nat) : Except IoError Nat :=
  if position / sectorSize < 2 ^ 32 then .ok (position / sectorSize)
  else .error ⟨.invalidInput, "exFAT LBA overflow"⟩

/-- `read_cached`: `count` sectors from `lba` into the front of `buf`.  A
single sector comes from the cache when it is there, and goes into the cache
after a device read while the cache has room. -/
def readCached (device : D) (cache : MetadataCache) (lba count : Nat) (buf : List UInt8) :
    Except IoError Unit × D × MetadataCache × List UInt8 :=
  let expectedLen := count * sectorSize
  if buf.length < expectedLen then
    (.error ⟨.invalidInput, "exFAT read buffer too small"⟩, device, cache, buf)
  else
    match if count = 1 then cache.get lba else none with
    | some sector => (.ok (), device, cache, buf.copyFromSlice 0 sector)
    | none =>
        -- the device reads into `buf[..expected_len]`
        match BlockDevice.readSectors device lba count (buf.take expectedLen) with
        | (.error error, device, front) => (.error (blockError error), device, cache, buf.copyFromSlice 0 front)
        | (.ok (), device, front) =>
            let buf := buf.copyFromSlice 0 front
            let cache :=
              if count = 1 ∧ cache.entries.length < metadataCacheSectors then
                cache.insert lba (buf.take sectorSize)
              else cache
            (.ok (), device, cache, buf)

/-- `write_cached`: `count` sectors from the front of `buf` to the device at
`lba`; each cached copy of a written sector takes its new bytes. -/
def writeCached (device : D) (cache : MetadataCache) (lba count : Nat) (buf : List UInt8) :
    Except IoError Unit × D × MetadataCache :=
  let expectedLen := count * sectorSize
  if buf.length < expectedLen then
    (.error ⟨.invalidInput, "exFAT write buffer too small"⟩, device, cache)
  else
    let buf := buf.take expectedLen
    match BlockDevice.writeSectors device lba count buf with
    | (.error error, device) => (.error (blockError error), device, cache)
    | (.ok (), device) =>
        -- `lba.checked_add(index as u32)` names no cached sector past `u32::MAX`
        let cache := (List.range count).foldl (fun cache index =>
          if lba + index < 2 ^ 32 then cache.update (lba + index) (buf.chunkAt sectorSize index) else cache) cache
        (.ok (), device, cache)

/-- The number of sectors a transfer at a sector boundary moves at once. -/
def contiguousCount (remaining : Nat) : Nat :=
  min (min (remaining / sectorSize) maxContiguousIoSectors) 65535

theorem contiguousCount_spec {remaining : Nat} (enough : sectorSize ≤ remaining) :
    0 < contiguousCount remaining ∧ contiguousCount remaining * sectorSize ≤ remaining := by
  have whole : remaining / sectorSize * sectorSize ≤ remaining := Nat.div_mul_le_self remaining sectorSize
  have positive : 0 < remaining / sectorSize := Nat.div_pos enough (by decide)
  have below : contiguousCount remaining ≤ remaining / sectorSize := by
    unfold contiguousCount
    omega
  refine ⟨by unfold contiguousCount maxContiguousIoSectors; omega, (Nat.mul_le_mul_right _ below).trans whole⟩

/-- The loop of `Read::read` from `done` bytes on, in `fuel` rounds, reading
`len` bytes at `position` into `buf` through the sector buffer `sector`. -/
def readLoop (position len : Nat) : Nat → D → MetadataCache → Nat → List UInt8 → List UInt8 →
    Option (Except IoError Nat × D × MetadataCache × List UInt8)
  | 0, _, _, _, _, _ => none
  | fuel + 1, device, cache, done, sector, buf =>
      if done < len then
        let offset := (position + done) % sectorSize
        let remaining := len - done
        match lba (position + done) with
        | .error error => some (.error error, device, cache, buf)
        | .ok sectorLba =>
            if offset = 0 ∧ sectorSize ≤ remaining then
              -- whole sectors straight into `buf[done..done + bytes]`
              let bytes := contiguousCount remaining * sectorSize
              match readCached device cache sectorLba (contiguousCount remaining) ((buf.drop done).take bytes) with
              | (.error error, device, cache, chunk) => some (.error error, device, cache, buf.copyFromSlice done chunk)
              | (.ok (), device, cache, chunk) =>
                  readLoop position len fuel device cache (done + bytes) sector (buf.copyFromSlice done chunk)
            else
              match readCached device cache sectorLba 1 sector with
              | (.error error, device, cache, _) => some (.error error, device, cache, buf)
              | (.ok (), device, cache, sector) =>
                  let bytes := min (sectorSize - offset) remaining
                  readLoop position len fuel device cache (done + bytes) sector
                    (buf.copyFromSlice done ((sector.drop offset).take bytes))
      else some (.ok done, device, cache, buf)

/-- `Read::read`; each round moves past at least one byte, so `len + 1`
rounds are enough. -/
def read (adapter : ExFatDevice D) (buf : List UInt8) : Option (Except IoError Nat × ExFatDevice D × List UInt8) :=
  let len := min (adapter.size - adapter.position) buf.length
  (readLoop adapter.position len (len + 1) adapter.inner adapter.cache 0 (List.replicate sectorSize 0) buf).map
    fun (result, inner, cache, buf) =>
      match result with
      | .error error => (.error error, { adapter with inner, cache }, buf)
      | .ok done => (.ok done, { adapter with inner, cache, position := adapter.position + done }, buf)

/-- The loop of `Write::write` from `done` bytes on, in `fuel` rounds, writing
`len` bytes of `buf` at `position` through the sector buffer `sector`. -/
def writeLoop (position len : Nat) (buf : List UInt8) : Nat → D → MetadataCache → Nat → List UInt8 →
    Option (Except IoError Nat × D × MetadataCache)
  | 0, _, _, _, _ => none
  | fuel + 1, device, cache, done, sector =>
      if done < len then
        let offset := (position + done) % sectorSize
        let remaining := len - done
        match lba (position + done) with
        | .error error => some (.error error, device, cache)
        | .ok sectorLba =>
            if offset = 0 ∧ sectorSize ≤ remaining then
              let bytes := contiguousCount remaining * sectorSize
              match writeCached device cache sectorLba (contiguousCount remaining) ((buf.drop done).take bytes) with
              | (.error error, device, cache) => some (.error error, device, cache)
              | (.ok (), device, cache) => writeLoop position len buf fuel device cache (done + bytes) sector
            else
              -- read, modify and write back the sector
              match readCached device cache sectorLba 1 sector with
              | (.error error, device, cache, _) => some (.error error, device, cache)
              | (.ok (), device, cache, sector) =>
                  let bytes := min (sectorSize - offset) remaining
                  let sector := sector.copyFromSlice offset ((buf.drop done).take bytes)
                  match writeCached device cache sectorLba 1 sector with
                  | (.error error, device, cache) => some (.error error, device, cache)
                  | (.ok (), device, cache) => writeLoop position len buf fuel device cache (done + bytes) sector
      else some (.ok done, device, cache)

/-- `Write::write`. -/
def write (adapter : ExFatDevice D) (buf : List UInt8) : Option (Except IoError Nat × ExFatDevice D) :=
  let len := min (adapter.size - adapter.position) buf.length
  (writeLoop adapter.position len buf (len + 1) adapter.inner adapter.cache 0 (List.replicate sectorSize 0)).map
    fun (result, inner, cache) =>
      match result with
      | .error error => (.error error, { adapter with inner, cache })
      | .ok done => (.ok done, { adapter with inner, cache, position := adapter.position + done })

/-- The target of a seek, in `i128`. -/
def seekTarget (adapter : ExFatDevice D) : SeekFrom → Int
  | .start offset => offset.toNat
  | .«end» offset => adapter.size + offset
  | .current offset => adapter.position + offset

/-- `Seek::seek`. -/
def seek (adapter : ExFatDevice D) (position : SeekFrom) : Except IoError Nat × ExFatDevice D :=
  let target := adapter.seekTarget position
  if 0 ≤ target ∧ target ≤ adapter.size then (.ok target.toNat, { adapter with position := target.toNat })
  else (.error ⟨.invalidInput, "exFAT seek outside device"⟩, adapter)

/-- A read at a position inside the device whose sector has no `u32` number
fails before it moves a byte. -/
theorem read_of_lba_overflow (adapter : ExFatDevice D) (buf : List UInt8) (inside : adapter.position < adapter.size)
    (nonempty : buf ≠ []) (beyond : 2 ^ 32 ≤ adapter.position / sectorSize) :
    adapter.read buf = some (.error ⟨.invalidInput, "exFAT LBA overflow"⟩, adapter, buf) := by
  have some : 0 < min (adapter.size - adapter.position) buf.length :=
    Nat.lt_min.mpr ⟨by omega, List.length_pos_iff.mpr nonempty⟩
  rw [read, readLoop, if_pos (by simpa using some), lba, if_neg (by simpa using Nat.not_lt.mpr beyond)]
  rfl

omit [BlockDevice D] in
/-- A seek from the start to a place on the device moves there. -/
theorem seek_start {adapter : ExFatDevice D} {offset : UInt64} (inside : offset.toNat ≤ adapter.size) :
    adapter.seek (.start offset) = (.ok offset.toNat, { adapter with position := offset.toNat }) := by
  rw [seek, seekTarget, if_pos ⟨Int.natCast_nonneg _, Int.ofNat_le.mpr inside⟩, Int.toNat_natCast]

end ExFatDevice

/-! ## Adapters sharing a device -/

/-- The adapters of one volume: the device and metadata cache they share, the
size of the device in bytes, and the position of each adapter. -/
structure SharedDevice (D : Type) where
  inner : D
  cache : MetadataCache
  size : Nat
  positions : List Nat

/-- A call of an adapter, or a new adapter as `root_entries` makes one. -/
inductive AdapterCall
  | attach
  | read (adapter : Nat) (buf : List UInt8)
  | write (adapter : Nat) (buf : List UInt8)
  | seek (adapter : Nat) (position : SeekFrom)

/-- What an adapter call returns. -/
inductive AdapterReply
  | attached (adapter : Nat)
  | read (result : Except IoError Nat) (buf : List UInt8)
  | written (result : Except IoError Nat)
  | sought (result : Except IoError Nat)

namespace SharedDevice

variable {D : Type} [BlockDevice D]

/-- The part of `ExFatFileSystem::new` that sets up the shared device: the
device must have `512`-byte sectors, and its size in bytes must fit a `u64`. -/
def mount (inner : D) : Except FsError (SharedDevice D) :=
  if BlockDevice.sectorSize inner ≠ sectorSize then .error .notSupported
  else
    match Word.checkedMul 64 (BlockDevice.totalSectors inner) sectorSize with
    | none => .error .invalidInput
    | some size => .ok ⟨inner, ⟨[]⟩, size, []⟩

/-- Adapter `index` over the shared device. -/
def adapter (shared : SharedDevice D) (index : Nat) : Option (ExFatDevice D) :=
  shared.positions[index]?.map fun position => ⟨shared.inner, shared.cache, position, shared.size⟩

/-- The shared device after a call of adapter `index`. -/
def store (shared : SharedDevice D) (index : Nat) (adapter : ExFatDevice D) : SharedDevice D :=
  { shared with inner := adapter.inner, cache := adapter.cache,
                positions := shared.positions.set index adapter.position }

/-- One call; `none` when the adapter does not exist. -/
def step (shared : SharedDevice D) : AdapterCall → Option (AdapterReply × SharedDevice D)
  | .attach => some (.attached shared.positions.length, { shared with positions := shared.positions ++ [0] })
  | .read index buf => do
      let adapter ← shared.adapter index
      let (result, adapter, buf) ← adapter.read buf
      pure (.read result buf, shared.store index adapter)
  | .write index buf => do
      let adapter ← shared.adapter index
      let (result, adapter) ← adapter.write buf
      pure (.written result, shared.store index adapter)
  | .seek index position => do
      let adapter ← shared.adapter index
      let (result, adapter) := adapter.seek position
      pure (.sought result, shared.store index adapter)

/-- Mounting a device of `512`-byte sectors whose size fits a `u64`. -/
theorem mount_eq_ok {inner : D} (sized : BlockDevice.sectorSize inner = sectorSize)
    (fits : BlockDevice.totalSectors inner * sectorSize < 2 ^ 64) :
    mount inner = .ok ⟨inner, ⟨[]⟩, BlockDevice.totalSectors inner * sectorSize, []⟩ := by
  rw [mount, if_neg (not_not.mpr sized), (Word.checkedMul_eq_some_iff.mpr ⟨fits, rfl⟩)]

/-- The adapters as a machine started from a mounted device. -/
def machine (shared : SharedDevice D) : Machine (SharedDevice D) AdapterCall AdapterReply :=
  ⟨shared, step⟩

end SharedDevice

/-! ## The byte array the adapters stand for -/

/-- The bytes of a volume and the position of each of its adapters. -/
structure FlatView where
  image : List UInt8
  positions : List Nat

/-- Where a seek lands in `size` bytes from `position`. -/
def seekTo (size position : Nat) : SeekFrom → Int
  | .start offset => offset.toNat
  | .«end» offset => size + offset
  | .current offset => position + offset

/-- What each call does to a byte array: a read returns the bytes from the
position up to the end or the buffer's end, and a write replaces them, each
moving the position past them; a seek to a place in the array moves there,
and one outside fails and changes nothing. -/
def FlatStep : FlatView → AdapterCall → AdapterReply → FlatView → Prop
  | view, .attach, .attached adapter, view' =>
      adapter = view.positions.length ∧ view' = ⟨view.image, view.positions ++ [0]⟩
  | view, .read adapter buf, .read result buf', view' =>
      ∃ position, view.positions[adapter]? = some position ∧
        let count := min (view.image.length - position) buf.length
        result = .ok count ∧ buf' = buf.copyFromSlice 0 ((view.image.drop position).take count) ∧
          view' = ⟨view.image, view.positions.set adapter (position + count)⟩
  | view, .write adapter buf, .written result, view' =>
      ∃ position, view.positions[adapter]? = some position ∧
        let count := min (view.image.length - position) buf.length
        result = .ok count ∧
          view' = ⟨view.image.copyFromSlice position (buf.take count), view.positions.set adapter (position + count)⟩
  | view, .seek adapter target, .sought result, view' =>
      ∃ position, view.positions[adapter]? = some position ∧
        let landing := seekTo view.image.length position target
        if 0 ≤ landing ∧ landing ≤ view.image.length then
          result = .ok landing.toNat ∧ view' = ⟨view.image, view.positions.set adapter landing.toNat⟩
        else (∃ error, result = .error error) ∧ view' = view
  | _, _, _, _ => False

/-- The call is `attach` or names one of the first `count` adapters. -/
def AdapterCall.NamesAdapter (count : Nat) : AdapterCall → Prop
  | .attach => True
  | .read adapter _ | .write adapter _ | .seek adapter _ => adapter < count

/-- The byte array and positions a shared device stands for, its bytes read
through `bytes`. -/
def SharedDevice.view {D : Type} (bytes : D → List UInt8) (shared : SharedDevice D) : FlatView :=
  ⟨bytes shared.inner, shared.positions⟩

/-! ## Devices that are byte arrays -/

section Flat

variable {D : Type} [BlockDevice D]

/-- The contract of a device that is the byte array `bytes` cut into
`512`-byte sectors: a transfer of sectors on the device with a buffer of
their size succeeds, a read returns their bytes and a write replaces them. -/
structure FlatDevice (bytes : D → List UInt8) : Prop where
  length : ∀ device, (bytes device).length = BlockDevice.totalSectors device * sectorSize
  read : ∀ {device : D} {lba count : Nat} {buf : List UInt8}, lba + count ≤ BlockDevice.totalSectors device →
    buf.length = count * sectorSize → ∃ device', BlockDevice.readSectors device lba count buf =
      (Except.ok (), device', ((bytes device).drop (lba * sectorSize)).take (count * sectorSize)) ∧
      bytes device' = bytes device
  write : ∀ {device : D} {lba count : Nat} {buf : List UInt8}, lba + count ≤ BlockDevice.totalSectors device →
    buf.length = count * sectorSize → ∃ device', BlockDevice.writeSectors device lba count buf = (Except.ok (), device') ∧
      bytes device' = (bytes device).copyFromSlice (lba * sectorSize) buf

/-- Every cached sector is a sector of the device with its current bytes. -/
def Coherent (bytes : D → List UInt8) (device : D) (cache : MetadataCache) : Prop :=
  ∀ entry ∈ cache.entries,
    entry.1 < BlockDevice.totalSectors device ∧ entry.2 = (bytes device).chunkAt sectorSize entry.1

variable {bytes : D → List UInt8}

/-- Devices with bytes of one length have the same number of sectors. -/
theorem FlatDevice.totalSectors_eq (flat : FlatDevice bytes) {device device' : D}
    (same : (bytes device').length = (bytes device).length) :
    BlockDevice.totalSectors device' = BlockDevice.totalSectors device := by
  rw [flat.length, flat.length] at same
  exact Nat.eq_of_mul_eq_mul_right (show 0 < sectorSize by decide) same

theorem Coherent.of_bytes (flat : FlatDevice bytes) {device device' : D} {cache : MetadataCache}
    (coherent : Coherent bytes device cache) (same : bytes device' = bytes device) : Coherent bytes device' cache := by
  intro entry member
  have sameTotal : BlockDevice.totalSectors device' = BlockDevice.totalSectors device :=
    flat.totalSectors_eq (by rw [same])
  rw [sameTotal, same]
  exact coherent entry member

omit [BlockDevice D] in
theorem MetadataCache.mem_of_get {cache : MetadataCache} {lba : Nat} {sector : List UInt8}
    (found : cache.get lba = some sector) : (lba, sector) ∈ cache.entries := by
  obtain ⟨entry, first, rfl⟩ := Option.map_eq_some_iff.mp found
  have matched := List.find?_some first
  rw [← beq_iff_eq.mp matched]
  exact List.mem_of_find?_eq_some first

theorem Coherent.insert {device : D} {cache : MetadataCache} (coherent : Coherent bytes device cache)
    {lba : Nat} (onDisk : lba < BlockDevice.totalSectors device) :
    Coherent bytes device (cache.insert lba ((bytes device).chunkAt sectorSize lba)) := by
  intro entry member
  rcases List.mem_cons.mp member with rfl | kept
  · exact ⟨onDisk, rfl⟩
  · exact coherent entry (List.mem_filter.mp kept).1

omit [BlockDevice D] in
/-- The refresh of `write_cached` gives each cached sector of the written
range its bytes from the buffer. -/
theorem MetadataCache.foldl_update (cache : MetadataCache) (lba : Nat) (buf : List UInt8) :
    ∀ {count : Nat}, lba + count ≤ 2 ^ 32 →
      (List.range count).foldl (fun cache index =>
          if lba + index < 2 ^ 32 then cache.update (lba + index) (buf.chunkAt sectorSize index) else cache) cache =
        ⟨cache.entries.map fun entry =>
          if lba ≤ entry.1 ∧ entry.1 < lba + count then (entry.1, buf.chunkAt sectorSize (entry.1 - lba)) else entry⟩
  | 0, _ => by
      obtain ⟨entries⟩ := cache
      simp only [List.range_zero, List.foldl_nil, MetadataCache.mk.injEq]
      conv_lhs => rw [← List.map_id entries]
      apply List.map_congr_left
      intro entry _
      rw [if_neg (by omega)]
      rfl
  | count + 1, small => by
      rw [List.range_succ, List.foldl_append, MetadataCache.foldl_update cache lba buf (by omega)]
      simp only [List.foldl_cons, List.foldl_nil, if_pos (show lba + count < 2 ^ 32 by omega), MetadataCache.update,
        List.map_map, MetadataCache.mk.injEq]
      apply List.map_congr_left
      intro entry _
      -- the sector `lba + count` is the one the last round refreshes
      simp only [Function.comp_apply]
      split_ifs <;> first | rfl | omega | skip
      rename_i last _
      rw [last, Nat.add_sub_cancel_left]

/-- After a write of the sectors `lba .. lba + count`, the cache with those
sectors refreshed from the written buffer holds the device's new sectors. -/
theorem Coherent.refresh (flat : FlatDevice bytes) {device device' : D} {cache : MetadataCache}
    (coherent : Coherent bytes device cache) {lba count : Nat} {buf : List UInt8}
    (onDisk : lba + count ≤ BlockDevice.totalSectors device) (sized : buf.length = count * sectorSize)
    (written : bytes device' = (bytes device).copyFromSlice (lba * sectorSize) buf) :
    Coherent bytes device' ⟨cache.entries.map fun entry =>
      if lba ≤ entry.1 ∧ entry.1 < lba + count then (entry.1, buf.chunkAt sectorSize (entry.1 - lba)) else entry⟩ := by
  have fits : lba * sectorSize + buf.length ≤ (bytes device).length := by
    rw [sized, flat.length, ← Nat.add_mul]
    exact Nat.mul_le_mul_right _ onDisk
  have sameTotal : BlockDevice.totalSectors device' = BlockDevice.totalSectors device :=
    flat.totalSectors_eq (by rw [written, List.length_copyFromSlice fits])
  intro entry member
  obtain ⟨old, oldMember, rfl⟩ := List.mem_map.mp member
  obtain ⟨onDiskOld, content⟩ := coherent old oldMember
  rw [sameTotal, written]
  split_ifs with within
  · -- a written sector takes its bytes from the buffer
    have inside : (old.1 + 1) * sectorSize ≤ lba * sectorSize + buf.length := by
      rw [sized, ← Nat.add_mul]
      exact Nat.mul_le_mul_right _ (by omega)
    exact ⟨onDiskOld, (List.chunkAt_copyFromSlice_of_le (by omega) within.1 inside).symm⟩
  · refine ⟨onDiskOld, ?_⟩
    rw [content]
    rcases Nat.lt_or_ge old.1 lba with before | after
    · exact (List.chunkAt_copyFromSlice_of_lt (by omega) before).symm
    · have beyond : lba * sectorSize + buf.length ≤ old.1 * sectorSize := by
        rw [sized, ← Nat.add_mul]
        exact Nat.mul_le_mul_right _ (by omega)
      exact (List.chunkAt_copyFromSlice_of_ge fits beyond).symm

/-- `read_cached` of sectors on a flat device returns their bytes and keeps
the cache coherent. -/
theorem readCached_spec (flat : FlatDevice bytes) {device : D} {cache : MetadataCache}
    (coherent : Coherent bytes device cache) {lba count : Nat} {buf : List UInt8}
    (onDisk : lba + count ≤ BlockDevice.totalSectors device) (room : count * sectorSize ≤ buf.length) :
    ∃ device' cache', ExFatDevice.readCached device cache lba count buf =
        (.ok (), device', cache',
          buf.copyFromSlice 0 (((bytes device).drop (lba * sectorSize)).take (count * sectorSize))) ∧
      bytes device' = bytes device ∧ Coherent bytes device' cache' := by
  unfold ExFatDevice.readCached
  rw [if_neg (Nat.not_lt.mpr room)]
  split
  · -- a single sector the cache holds
    rename_i sector hit
    have one : count = 1 := by
      by_contra other
      rw [if_neg other] at hit
      cases hit
    rw [if_pos one] at hit
    obtain ⟨-, content⟩ : lba < _ ∧ sector = (bytes device).chunkAt sectorSize lba :=
      coherent _ (MetadataCache.mem_of_get hit)
    subst one
    refine ⟨device, cache, ?_, rfl, coherent⟩
    rw [content, Nat.one_mul]
    rfl
  · -- the device reads the sectors into the front of the buffer
    have sized : (buf.take (count * sectorSize)).length = count * sectorSize := by
      rw [List.length_take]
      omega
    obtain ⟨device', read, same⟩ := flat.read onDisk sized
    have sameTotal : BlockDevice.totalSectors device' = BlockDevice.totalSectors device :=
      flat.totalSectors_eq (by rw [same])
    rw [read]
    refine ⟨device', _, rfl, same, ?_⟩
    split_ifs with single
    · -- a single sector goes into the cache
      obtain ⟨rfl, -⟩ := single
      have regionLength : (((bytes device).drop (lba * sectorSize)).take sectorSize).length = sectorSize := by
        have onImage := Nat.mul_le_mul_right sectorSize onDisk
        rw [Nat.add_mul, Nat.one_mul, ← flat.length] at onImage
        rw [List.length_take, List.length_drop]
        omega
      have taken := List.take_copyFromSlice_zero buf (((bytes device).drop (lba * sectorSize)).take sectorSize)
      rw [regionLength] at taken
      rw [Nat.one_mul, taken]
      have inserted := (coherent.of_bytes flat same).insert (show lba < BlockDevice.totalSectors device' by omega)
      rw [same] at inserted
      exact inserted
    · exact coherent.of_bytes flat same

/-- `write_cached` of sectors on a flat device writes them and keeps the
cache coherent. -/
theorem writeCached_spec (flat : FlatDevice bytes) {device : D} {cache : MetadataCache}
    (coherent : Coherent bytes device cache) {lba count : Nat} {buf : List UInt8}
    (onDisk : lba + count ≤ BlockDevice.totalSectors device) (small : lba + count ≤ 2 ^ 32)
    (room : count * sectorSize ≤ buf.length) :
    ∃ device' cache', ExFatDevice.writeCached device cache lba count buf = (.ok (), device', cache') ∧
      bytes device' = (bytes device).copyFromSlice (lba * sectorSize) (buf.take (count * sectorSize)) ∧
      Coherent bytes device' cache' := by
  unfold ExFatDevice.writeCached
  rw [if_neg (Nat.not_lt.mpr room)]
  have sized : (buf.take (count * sectorSize)).length = count * sectorSize := by
    rw [List.length_take]
    omega
  obtain ⟨device', written, image⟩ := flat.write onDisk sized
  dsimp only
  rw [written]
  refine ⟨device', _, rfl, image, ?_⟩
  rw [MetadataCache.foldl_update cache lba _ small]
  exact coherent.refresh flat onDisk sized image

omit [BlockDevice D] in
/-- The bytes of the sector of `position` from its offset in the sector on
are the image's bytes from `position` on. -/
theorem take_drop_sector (image : List UInt8) {position bytes : Nat}
    (within : position % sectorSize + bytes ≤ sectorSize) :
    (((image.drop (position / sectorSize * sectorSize)).take sectorSize).drop (position % sectorSize)).take bytes =
      (image.drop position).take bytes := by
  rw [List.drop_take, List.take_take, Nat.min_eq_left (by omega), List.drop_drop, Nat.div_add_mod']

/-- With enough rounds, the read loop reads the bytes from `position + done`
up to `position + len` into `buf` from `done` on, as long as every sector it
reads has a `u32` number, and keeps the cache coherent. -/
theorem readLoop_spec (flat : FlatDevice bytes) {position len : Nat} (small : position + len ≤ 2 ^ 32 * sectorSize) :
    ∀ {fuel : Nat} {device : D} {cache : MetadataCache} {done : Nat} {sector buf : List UInt8},
      Coherent bytes device cache → position + len ≤ (bytes device).length → done ≤ len → len - done < fuel →
      sector.length = sectorSize → len ≤ buf.length →
      ∃ device' cache', ExFatDevice.readLoop position len fuel device cache done sector buf =
          some (.ok len, device', cache', buf.copyFromSlice done ((((bytes device).drop position).drop done).take (len - done))) ∧
        bytes device' = bytes device ∧ Coherent bytes device' cache'
  | 0, _, _, _, _, _, _, _, _, enough, _, _ => absurd enough (Nat.not_lt_zero _)
  | fuel + 1, device, cache, done, sector, buf, coherent, onImage, upTo, enough, sized, room => by
      rw [ExFatDevice.readLoop]
      by_cases more : done < len
      swap
      · -- all `len` bytes are read
        obtain rfl : done = len := by omega
        refine ⟨device, cache, ?_, rfl, coherent⟩
        rw [if_neg more, Nat.sub_self, List.take_zero, List.copyFromSlice_nil]
      rw [if_pos more]
      have sectorNumber : (position + done) / sectorSize < 2 ^ 32 := Nat.div_lt_of_lt_mul (by omega)
      have onSectors : (position + done) / sectorSize < BlockDevice.totalSectors device := by
        rw [flat.length] at onImage
        exact Nat.div_lt_of_lt_mul (by rw [Nat.mul_comm]; omega)
      simp only [ExFatDevice.lba, if_pos sectorNumber]
      have imageLength : len ≤ ((bytes device).drop position).length := by
        rw [List.length_drop]
        omega
      split_ifs with aligned
      · -- whole sectors go straight into the buffer
        obtain ⟨positive, fitsRemaining⟩ := ExFatDevice.contiguousCount_spec aligned.2
        generalize ExFatDevice.contiguousCount (len - done) = count at positive fitsRemaining ⊢
        have start : (position + done) / sectorSize * sectorSize = position + done :=
          Nat.div_mul_cancel (Nat.dvd_of_mod_eq_zero aligned.1)
        have onDisk : (position + done) / sectorSize + count ≤ BlockDevice.totalSectors device := by
          apply Nat.le_of_mul_le_mul_right _ (show 0 < sectorSize by decide)
          rw [Nat.add_mul, start, ← flat.length]
          omega
        have chunkLength : ((buf.drop done).take (count * sectorSize)).length = count * sectorSize := by
          rw [List.length_take, List.length_drop]
          omega
        obtain ⟨device', cache', read, same, coherent'⟩ := readCached_spec flat coherent onDisk chunkLength.ge
        have regionLength : (((bytes device).drop ((position + done) / sectorSize * sectorSize)).take
            (count * sectorSize)).length = count * sectorSize := by
          rw [List.length_take, List.length_drop]
          omega
        rw [read, List.copyFromSlice_zero_of_length (regionLength.trans chunkLength.symm), start, ← List.drop_drop]
        dsimp only
        have moves : 0 < count * sectorSize := Nat.mul_pos positive (by decide)
        have roomNext : len ≤ (buf.copyFromSlice done
            ((((bytes device).drop position).drop done).take (count * sectorSize))).length := by
          rw [List.length_copyFromSlice (by rw [List.length_take]; omega)]
          exact room
        obtain ⟨device'', cache'', looped, same', coherent''⟩ := readLoop_spec flat small coherent'
          (by rw [same]; exact onImage) (show done + count * sectorSize ≤ len by omega)
          (show len - (done + count * sectorSize) < fuel by omega) sized roomNext
        refine ⟨device'', cache'', ?_, same'.trans same, coherent''⟩
        rw [looped, same, List.copyFromSlice_drop_take (by omega) imageLength (by omega)]
      · -- a head or tail goes through the sector buffer
        obtain ⟨device', cache', read, same, coherent'⟩ :=
          readCached_spec flat coherent (show (position + done) / sectorSize + 1 ≤ _ by omega)
            (by rw [Nat.one_mul, sized])
        have regionLength : (((bytes device).drop ((position + done) / sectorSize * sectorSize)).take
            (1 * sectorSize)).length = sectorSize := by
          have onImage' := Nat.mul_le_mul_right sectorSize onSectors
          rw [← flat.length, Nat.succ_mul] at onImage'
          rw [List.length_take, List.length_drop]
          omega
        rw [read, List.copyFromSlice_zero_of_length (regionLength.trans sized.symm), Nat.one_mul]
        dsimp only
        have offsetBound : (position + done) % sectorSize < sectorSize := Nat.mod_lt _ (by decide)
        rw [take_drop_sector _ (by omega), ← List.drop_drop]
        generalize moved : min (sectorSize - (position + done) % sectorSize) (len - done) = bytesMoved
        have roomNext : len ≤ (buf.copyFromSlice done
            ((((bytes device).drop position).drop done).take bytesMoved)).length := by
          rw [List.length_copyFromSlice (by rw [List.length_take]; omega)]
          exact room
        obtain ⟨device'', cache'', looped, same', coherent''⟩ := readLoop_spec flat small coherent'
          (by rw [same]; exact onImage) (show done + bytesMoved ≤ len by omega)
          (show len - (done + bytesMoved) < fuel by omega) (by rw [Nat.one_mul] at regionLength; exact regionLength)
          roomNext
        refine ⟨device'', cache'', ?_, same'.trans same, coherent''⟩
        rw [looped, same, List.copyFromSlice_drop_take (by omega) imageLength (by omega)]

/-- With enough rounds, the write loop writes the bytes of `buf` from `done`
up to `len` at `position + done`, as long as every sector it writes has a
`u32` number, and keeps the cache coherent. -/
theorem writeLoop_spec (flat : FlatDevice bytes) {position len : Nat} {buf : List UInt8}
    (small : position + len ≤ 2 ^ 32 * sectorSize) (room : len ≤ buf.length) :
    ∀ {fuel : Nat} {device : D} {cache : MetadataCache} {done : Nat} {sector : List UInt8},
      Coherent bytes device cache → position + len ≤ (bytes device).length → done ≤ len → len - done < fuel →
      sector.length = sectorSize →
      ∃ device' cache', ExFatDevice.writeLoop position len buf fuel device cache done sector =
          some (.ok len, device', cache') ∧
        bytes device' = (bytes device).copyFromSlice (position + done) ((buf.drop done).take (len - done)) ∧
        Coherent bytes device' cache'
  | 0, _, _, _, _, _, _, _, enough, _ => absurd enough (Nat.not_lt_zero _)
  | fuel + 1, device, cache, done, sector, coherent, onImage, upTo, enough, sized => by
      rw [ExFatDevice.writeLoop]
      by_cases more : done < len
      swap
      · -- all `len` bytes are written
        obtain rfl : done = len := by omega
        exact ⟨device, cache, by rw [if_neg more], by rw [Nat.sub_self, List.take_zero, List.copyFromSlice_nil],
          coherent⟩
      rw [if_pos more]
      have sectorNumber : (position + done) / sectorSize < 2 ^ 32 := Nat.div_lt_of_lt_mul (by omega)
      have onSectors : (position + done) / sectorSize < BlockDevice.totalSectors device := by
        rw [flat.length] at onImage
        exact Nat.div_lt_of_lt_mul (by rw [Nat.mul_comm]; omega)
      simp only [ExFatDevice.lba, if_pos sectorNumber]
      split_ifs with aligned
      · -- whole sectors go straight to the device
        obtain ⟨positive, fitsRemaining⟩ := ExFatDevice.contiguousCount_spec aligned.2
        generalize ExFatDevice.contiguousCount (len - done) = count at positive fitsRemaining ⊢
        have start : (position + done) / sectorSize * sectorSize = position + done :=
          Nat.div_mul_cancel (Nat.dvd_of_mod_eq_zero aligned.1)
        have endSector : ((position + done) / sectorSize + count) * sectorSize ≤ position + len := by
          rw [Nat.add_mul, start]
          omega
        have onDisk : (position + done) / sectorSize + count ≤ BlockDevice.totalSectors device := by
          apply Nat.le_of_mul_le_mul_right _ (show 0 < sectorSize by decide)
          rw [← flat.length]
          omega
        have lbaSmall : (position + done) / sectorSize + count ≤ 2 ^ 32 :=
          Nat.le_of_mul_le_mul_right (endSector.trans small) (show 0 < sectorSize by decide)
        have chunkLength : ((buf.drop done).take (count * sectorSize)).length = count * sectorSize := by
          rw [List.length_take, List.length_drop]
          omega
        obtain ⟨device', cache', written, image, coherent'⟩ :=
          writeCached_spec flat coherent onDisk lbaSmall chunkLength.ge
        rw [written]
        dsimp only
        rw [List.take_take, Nat.min_self, start] at image
        have moves : 0 < count * sectorSize := Nat.mul_pos positive (by decide)
        have fits : position + done + count * sectorSize ≤ (bytes device).length := by omega
        obtain ⟨deviceEnd, cacheEnd, looped, imageEnd, coherentEnd⟩ := writeLoop_spec flat small room coherent'
          (by rw [image, List.length_copyFromSlice (by rw [chunkLength]; exact fits)]; exact onImage)
          (show done + count * sectorSize ≤ len by omega) (show len - (done + count * sectorSize) < fuel by omega) sized
        refine ⟨deviceEnd, cacheEnd, looped, ?_, coherentEnd⟩
        rw [imageEnd, image, ← Nat.add_assoc, List.copyFromSlice_drop_take (by omega) room (by omega)]
      · -- a head or tail is read, patched and written back
        obtain ⟨device', cache', read, same, coherent'⟩ :=
          readCached_spec flat coherent (show (position + done) / sectorSize + 1 ≤ _ by omega)
            (by rw [Nat.one_mul, sized])
        have sectorEnd : (position + done) / sectorSize * sectorSize + sectorSize ≤ (bytes device).length := by
          have onImage' := Nat.mul_le_mul_right sectorSize onSectors
          rw [← flat.length, Nat.succ_mul] at onImage'
          exact onImage'
        have regionLength : (((bytes device).drop ((position + done) / sectorSize * sectorSize)).take
            sectorSize).length = sectorSize := by
          rw [List.length_take, List.length_drop]
          omega
        rw [read, Nat.one_mul, List.copyFromSlice_zero_of_length (regionLength.trans sized.symm)]
        dsimp only
        have offsetBound : (position + done) % sectorSize < sectorSize := Nat.mod_lt _ (by decide)
        generalize moved : min (sectorSize - (position + done) % sectorSize) (len - done) = bytesMoved
        have pieceLength : ((buf.drop done).take bytesMoved).length = bytesMoved := by
          rw [List.length_take, List.length_drop]
          omega
        have patchedLength : ((((bytes device).drop ((position + done) / sectorSize * sectorSize)).take
            sectorSize).copyFromSlice ((position + done) % sectorSize) ((buf.drop done).take bytesMoved)).length =
              sectorSize := by
          rw [List.length_copyFromSlice (by omega), regionLength]
        have sameTotal : BlockDevice.totalSectors device' = BlockDevice.totalSectors device :=
          flat.totalSectors_eq (by rw [same])
        obtain ⟨deviceWritten, cacheWritten, written, image, coherentWritten⟩ :=
          writeCached_spec flat coherent' (show (position + done) / sectorSize + 1 ≤ BlockDevice.totalSectors device' by
              omega)
            (show (position + done) / sectorSize + 1 ≤ 2 ^ 32 by omega) (by rw [Nat.one_mul, patchedLength])
        rw [written]
        dsimp only
        rw [Nat.one_mul, List.take_of_length_le patchedLength.le, same,
          List.copyFromSlice_patch sectorEnd (by omega), Nat.div_add_mod'] at image
        obtain ⟨deviceEnd, cacheEnd, looped, imageEnd, coherentEnd⟩ := writeLoop_spec flat small room
          coherentWritten (by rw [image, List.length_copyFromSlice (by omega)]; exact onImage)
          (show done + bytesMoved ≤ len by omega) (show len - (done + bytesMoved) < fuel by omega) patchedLength
        refine ⟨deviceEnd, cacheEnd, looped, ?_, coherentEnd⟩
        rw [imageEnd, image, ← Nat.add_assoc, List.copyFromSlice_drop_take (by omega) room (by omega)]

/-- `Read::read` on a flat device reads the bytes from the position on, up
to the size or the buffer's end, moves past them and keeps the cache
coherent, as long as the size is at most `2 ^ 32` sectors. -/
theorem read_spec (flat : FlatDevice bytes) (adapter : ExFatDevice D)
    (coherent : Coherent bytes adapter.inner adapter.cache) (sized : adapter.size = (bytes adapter.inner).length)
    (small : adapter.size ≤ 2 ^ 32 * sectorSize) (within : adapter.position ≤ adapter.size) (buf : List UInt8) :
    ∃ inner cache, adapter.read buf =
        some (.ok (min (adapter.size - adapter.position) buf.length),
          { adapter with inner, cache, position := adapter.position + min (adapter.size - adapter.position) buf.length },
          buf.copyFromSlice 0
            (((bytes adapter.inner).drop adapter.position).take (min (adapter.size - adapter.position) buf.length))) ∧
      bytes inner = bytes adapter.inner ∧ Coherent bytes inner cache := by
  obtain ⟨inner, cache, looped, same, coherent'⟩ := readLoop_spec flat
    (show adapter.position + min (adapter.size - adapter.position) buf.length ≤ 2 ^ 32 * sectorSize by omega)
    coherent (by omega) (Nat.zero_le _)
    (show min (adapter.size - adapter.position) buf.length - 0 < min (adapter.size - adapter.position) buf.length + 1 by
      omega)
    (show (List.replicate sectorSize (0 : UInt8)).length = sectorSize from List.length_replicate) (Nat.min_le_right _ _)
  refine ⟨inner, cache, ?_, same, coherent'⟩
  rw [ExFatDevice.read, looped, Option.map_some, List.drop_zero, Nat.sub_zero]

/-- `Write::write` on a flat device writes the bytes of the buffer at the
position, up to the size or the buffer's end, moves past them and keeps the
cache coherent, as long as the size is at most `2 ^ 32` sectors. -/
theorem write_spec (flat : FlatDevice bytes) (adapter : ExFatDevice D)
    (coherent : Coherent bytes adapter.inner adapter.cache) (sized : adapter.size = (bytes adapter.inner).length)
    (small : adapter.size ≤ 2 ^ 32 * sectorSize) (within : adapter.position ≤ adapter.size) (buf : List UInt8) :
    ∃ inner cache, adapter.write buf =
        some (.ok (min (adapter.size - adapter.position) buf.length),
          { adapter with inner, cache, position := adapter.position + min (adapter.size - adapter.position) buf.length }) ∧
      bytes inner = (bytes adapter.inner).copyFromSlice adapter.position
        (buf.take (min (adapter.size - adapter.position) buf.length)) ∧ Coherent bytes inner cache := by
  obtain ⟨inner, cache, looped, image, coherent'⟩ := writeLoop_spec flat
    (show adapter.position + min (adapter.size - adapter.position) buf.length ≤ 2 ^ 32 * sectorSize by omega)
    (Nat.min_le_right _ _) coherent (by omega) (Nat.zero_le _)
    (show min (adapter.size - adapter.position) buf.length - 0 < min (adapter.size - adapter.position) buf.length + 1 by
      omega)
    (show (List.replicate sectorSize (0 : UInt8)).length = sectorSize from List.length_replicate)
  refine ⟨inner, cache, ?_, ?_, coherent'⟩
  · rw [ExFatDevice.write, looped, Option.map_some]
  · rw [image, Nat.add_zero, List.drop_zero, Nat.sub_zero]

/-- What holds of the adapters of a volume throughout: the cache is
coherent, the size is the device's, at most `2 ^ 32` sectors, and no adapter
is past the end. -/
structure Sound (bytes : D → List UInt8) (shared : SharedDevice D) : Prop where
  coherent : Coherent bytes shared.inner shared.cache
  sized : shared.size = (bytes shared.inner).length
  small : shared.size ≤ 2 ^ 32 * sectorSize
  within : ∀ position ∈ shared.positions, position ≤ shared.size

omit [BlockDevice D] in
theorem SharedDevice.adapter_of_lt {shared : SharedDevice D} {index : Nat} (bound : index < shared.positions.length) :
    shared.adapter index = some ⟨shared.inner, shared.cache, shared.positions[index], shared.size⟩ := by
  rw [SharedDevice.adapter, List.getElem?_eq_getElem bound, Option.map_some]

/-- A call that leaves a coherent cache, bytes of the same length and the
adapter inside the device keeps the shared device sound. -/
theorem Sound.store {shared : SharedDevice D} (sound : Sound bytes shared) (index : Nat) {adapter : ExFatDevice D}
    (coherent : Coherent bytes adapter.inner adapter.cache)
    (sameLength : (bytes adapter.inner).length = (bytes shared.inner).length)
    (within : adapter.position ≤ shared.size) : Sound bytes (shared.store index adapter) where
  coherent := coherent
  sized := sound.sized.trans sameLength.symm
  small := sound.small
  within := fun position member =>
    (List.mem_or_eq_of_mem_set member).elim (sound.within position) (fun moved => moved ▸ within)

/-- Every call of an attached adapter of a sound shared device returns, is
a step of the byte array, and keeps the shared device sound. -/
theorem step_spec (flat : FlatDevice bytes) {shared : SharedDevice D} (sound : Sound bytes shared)
    {call : AdapterCall} (names : call.NamesAdapter shared.positions.length) :
    ∃ reply next, shared.step call = some (reply, next) ∧
      FlatStep (shared.view bytes) call reply (next.view bytes) ∧ Sound bytes next := by
  cases call with
  | attach =>
      refine ⟨_, _, rfl, ⟨rfl, rfl⟩, ⟨sound.coherent, sound.sized, sound.small, fun position member => ?_⟩⟩
      rcases List.mem_append.mp member with old | fresh
      · exact sound.within position old
      · rw [List.mem_singleton.mp fresh]
        exact Nat.zero_le _
  | read index buf =>
      have within := sound.within _ (List.getElem_mem names)
      obtain ⟨inner, cache, read, same, coherent⟩ := read_spec flat
        ⟨shared.inner, shared.cache, shared.positions[index], shared.size⟩ sound.coherent sound.sized sound.small
        within buf
      generalize moved : min (shared.size - shared.positions[index]) buf.length = count at read
      refine ⟨.read (.ok count) (buf.copyFromSlice 0 (((bytes shared.inner).drop shared.positions[index]).take count)),
        shared.store index ⟨inner, cache, shared.positions[index] + count, shared.size⟩, ?_,
        ⟨shared.positions[index], List.getElem?_eq_getElem names, ?_⟩,
        sound.store index coherent (by rw [same]) (by dsimp only; omega)⟩
      · simp only [SharedDevice.step, SharedDevice.adapter_of_lt names, Option.bind_eq_bind, Option.bind_some, read]
        rfl
      · simp only [SharedDevice.view, SharedDevice.store, same, ← sound.sized, moved, and_self]
  | write index buf =>
      have within := sound.within _ (List.getElem_mem names)
      obtain ⟨inner, cache, written, image, coherent⟩ := write_spec flat
        ⟨shared.inner, shared.cache, shared.positions[index], shared.size⟩ sound.coherent sound.sized sound.small
        within buf
      generalize moved : min (shared.size - shared.positions[index]) buf.length = count at written image
      dsimp only at image
      have sameLength : (bytes inner).length = (bytes shared.inner).length := by
        have sized := sound.sized
        rw [image]
        exact List.length_copyFromSlice (by rw [List.length_take]; omega)
      refine ⟨.written (.ok count), shared.store index ⟨inner, cache, shared.positions[index] + count, shared.size⟩, ?_,
        ⟨shared.positions[index], List.getElem?_eq_getElem names, ?_⟩,
        sound.store index coherent sameLength (by dsimp only; omega)⟩
      · simp only [SharedDevice.step, SharedDevice.adapter_of_lt names, Option.bind_eq_bind, Option.bind_some,
          written]
        rfl
      · simp only [SharedDevice.view, SharedDevice.store, image, ← sound.sized, moved, and_self]
  | seek index target =>
      have within := sound.within _ (List.getElem_mem names)
      have seeks : ExFatDevice.seek ⟨shared.inner, shared.cache, shared.positions[index], shared.size⟩ target =
          if 0 ≤ seekTo shared.size shared.positions[index] target ∧
              seekTo shared.size shared.positions[index] target ≤ shared.size then
            (.ok (seekTo shared.size shared.positions[index] target).toNat,
              ⟨shared.inner, shared.cache, (seekTo shared.size shared.positions[index] target).toNat, shared.size⟩)
          else (.error ⟨.invalidInput, "exFAT seek outside device"⟩,
            ⟨shared.inner, shared.cache, shared.positions[index], shared.size⟩) := by
        cases target <;> rfl
      by_cases inside : 0 ≤ seekTo shared.size shared.positions[index] target ∧
          seekTo shared.size shared.positions[index] target ≤ shared.size
      · -- the target is on the device: the adapter moves there
        rw [if_pos inside] at seeks
        refine ⟨.sought (.ok (seekTo shared.size shared.positions[index] target).toNat),
          shared.store index ⟨shared.inner, shared.cache, (seekTo shared.size shared.positions[index] target).toNat,
            shared.size⟩, ?_, ⟨shared.positions[index], List.getElem?_eq_getElem names, ?_⟩,
          sound.store index sound.coherent rfl (by dsimp only; omega)⟩
        · simp only [SharedDevice.step, SharedDevice.adapter_of_lt names, Option.bind_eq_bind, Option.bind_some, seeks]
          rfl
        · simp only [SharedDevice.view, SharedDevice.store, ← sound.sized, if_pos inside, and_self]
      · -- the seek fails and the adapter stays
        rw [if_neg inside] at seeks
        refine ⟨.sought (.error ⟨.invalidInput, "exFAT seek outside device"⟩),
          shared.store index ⟨shared.inner, shared.cache, shared.positions[index], shared.size⟩, ?_,
          ⟨shared.positions[index], List.getElem?_eq_getElem names, ?_⟩, sound.store index sound.coherent rfl within⟩
        · simp only [SharedDevice.step, SharedDevice.adapter_of_lt names, Option.bind_eq_bind, Option.bind_some, seeks]
          rfl
        · simp only [SharedDevice.view, SharedDevice.store, ← sound.sized, if_neg inside]
          exact ⟨⟨_, rfl⟩, congrArg (FlatView.mk _) (List.set_getElem_self names)⟩

/-- A call of an adapter that is not attached does not return. -/
theorem step_eq_none {shared : SharedDevice D} {call : AdapterCall}
    (unnamed : ¬ call.NamesAdapter shared.positions.length) : shared.step call = none := by
  have missing : ∀ {index : Nat}, ¬ index < shared.positions.length → shared.adapter index = none :=
    fun beyond => by rw [SharedDevice.adapter, List.getElem?_eq_none (Nat.le_of_not_lt beyond), Option.map_none]
  cases call with
  | attach => exact absurd trivial unnamed
  | read index buf => simp only [SharedDevice.step, missing unnamed, Option.bind_eq_bind, Option.bind_none]
  | write index buf => simp only [SharedDevice.step, missing unnamed, Option.bind_eq_bind, Option.bind_none]
  | seek index target => simp only [SharedDevice.step, missing unnamed, Option.bind_eq_bind, Option.bind_none]

/-- The call that returned named an attached adapter, so it is the step of
`step_spec`. -/
theorem step_eq_some (flat : FlatDevice bytes) {shared next : SharedDevice D} (sound : Sound bytes shared)
    {call : AdapterCall} {reply : AdapterReply} (stepped : shared.step call = some (reply, next)) :
    FlatStep (shared.view bytes) call reply (next.view bytes) ∧ Sound bytes next := by
  by_cases names : call.NamesAdapter shared.positions.length
  · obtain ⟨reply', next', returned, allowed, soundNext⟩ := step_spec flat sound names
    rw [returned, Option.some.injEq, Prod.mk.injEq] at stepped
    obtain ⟨rfl, rfl⟩ := stepped
    exact ⟨allowed, soundNext⟩
  · rw [step_eq_none names] at stepped
    cases stepped

/-- A mounted device of at most `2 ^ 32` sectors is sound. -/
theorem mount_sound (flat : FlatDevice bytes) {inner : D} {shared : SharedDevice D}
    (mounted : SharedDevice.mount inner = .ok shared) (small : BlockDevice.totalSectors inner ≤ 2 ^ 32) :
    Sound bytes shared := by
  unfold SharedDevice.mount at mounted
  split_ifs at mounted
  split at mounted
  · cases mounted
  rename_i size multiplied
  obtain ⟨-, rfl⟩ := Word.checkedMul_eq_some_iff.mp multiplied
  cases mounted
  exact ⟨fun _ member => absurd member List.not_mem_nil, (flat.length inner).symm, Nat.mul_le_mul_right _ small,
    fun _ member => absurd member List.not_mem_nil⟩

/-- Soundness holds along every run from a sound shared device. -/
theorem sound_inductive (flat : FlatDevice bytes) {shared : SharedDevice D} (sound : Sound bytes shared) :
    (SharedDevice.machine shared).Inductive (Sound bytes) where
  init := sound
  step := fun holds stepped => (step_eq_some flat holds stepped).2

/-- Seen through the bytes of the device and the positions, the adapters are
the byte array: every call they answer is a step of `FlatStep`. -/
theorem shared_simulates (flat : FlatDevice bytes) (shared : SharedDevice D) :
    (SharedDevice.machine shared).Simulates FlatStep (SharedDevice.view bytes) (Sound bytes) :=
  fun holds stepped => (step_eq_some flat holds stepped).1

/-- On a device that is a byte array of at most `2 ^ 32` sectors, in every
state the adapters of a mounted volume reach, the metadata cache holds the
device's current sectors, and every call of an attached adapter returns and
does to the byte array what `FlatStep` says. -/
theorem adapters_refine_flat (flat : FlatDevice bytes) {inner : D} {shared : SharedDevice D}
    (mounted : SharedDevice.mount inner = .ok shared) (small : BlockDevice.totalSectors inner ≤ 2 ^ 32)
    {state : SharedDevice D} (reached : (SharedDevice.machine shared).Reachable state) :
    Coherent bytes state.inner state.cache ∧
      ∀ call : AdapterCall, call.NamesAdapter state.positions.length →
        ∃ reply next, state.step call = some (reply, next) ∧
          FlatStep (state.view bytes) call reply (next.view bytes) := by
  have sound := (sound_inductive flat (mount_sound flat mounted small)).reachable reached
  refine ⟨sound.coherent, fun call names => ?_⟩
  obtain ⟨reply, next, returned, allowed, -⟩ := step_spec flat sound names
  exact ⟨reply, next, returned, allowed⟩

end Flat

/-! ## The memory device of the tests -/

/-- The `MemoryDevice` of the exFAT tests: an image of `sectors` sectors of
`512` bytes. -/
structure MemoryDevice where
  image : List UInt8
  sectors : Nat
  sized : image.length = sectors * sectorSize

namespace MemoryDevice

/-- `MemoryDevice::range` fails past the image; a transfer then checks the
buffer and copies. -/
instance : BlockDevice MemoryDevice where
  readSectors device lba count buf :=
    if device.sectors * sectorSize < lba * sectorSize + count * sectorSize then (.error .lbaOverflow, device, buf)
    else if buf.length < count * sectorSize then
      (.error (.bufferTooSmall (count * sectorSize) buf.length), device, buf)
    else (.ok (), device, buf.copyFromSlice 0 ((device.image.drop (lba * sectorSize)).take (count * sectorSize)))
  writeSectors device lba count buf :=
    if onImage : device.sectors * sectorSize < lba * sectorSize + count * sectorSize then (.error .lbaOverflow, device)
    else if buf.length < count * sectorSize then (.error (.bufferTooSmall (count * sectorSize) buf.length), device)
    else
      (.ok (), ⟨device.image.copyFromSlice (lba * sectorSize) (buf.take (count * sectorSize)), device.sectors, by
        rw [List.length_copyFromSlice (by rw [List.length_take, device.sized]; omega), device.sized]⟩)
  sectorSize _ := sectorSize
  totalSectors device := device.sectors
  length_readSectors device lba count buf := by
    split_ifs with beyond short
    · rfl
    · rfl
    · refine List.length_copyFromSlice ?_
      rw [List.length_take]
      omega

/-- The memory device is the byte array of its image. -/
theorem flat : FlatDevice image where
  length device := device.sized
  read {device lba count buf} onDisk sized := by
    have onImage : lba * sectorSize + count * sectorSize ≤ device.sectors * sectorSize := by
      rw [← Nat.add_mul]
      exact Nat.mul_le_mul_right _ onDisk
    have regionLength : ((device.image.drop (lba * sectorSize)).take (count * sectorSize)).length = buf.length := by
      rw [List.length_take, List.length_drop, device.sized, sized]
      omega
    refine ⟨device, ?_, rfl⟩
    simp only [BlockDevice.readSectors, if_neg (Nat.not_lt.mpr onImage), if_neg (Nat.not_lt.mpr sized.ge),
      List.copyFromSlice_zero_of_length regionLength]
  write {device lba count buf} onDisk sized := by
    have onImage : lba * sectorSize + count * sectorSize ≤ device.sectors * sectorSize := by
      rw [← Nat.add_mul]
      exact Nat.mul_le_mul_right _ onDisk
    have fits : lba * sectorSize + (buf.take (count * sectorSize)).length ≤ device.image.length := by
      rw [List.length_take, device.sized]
      omega
    refine ⟨⟨device.image.copyFromSlice (lba * sectorSize) (buf.take (count * sectorSize)), device.sectors,
      by rw [List.length_copyFromSlice fits, device.sized]⟩, ?_, ?_⟩
    · simp only [BlockDevice.writeSectors, dif_neg (Nat.not_lt.mpr onImage), if_neg (Nat.not_lt.mpr sized.ge)]
    · change device.image.copyFromSlice _ (buf.take (count * sectorSize)) = _
      rw [List.take_of_length_le sized.le]

/-- A memory device of `sectors` zeroed sectors. -/
def zeroed (sectors : Nat) : MemoryDevice :=
  ⟨List.replicate (sectors * sectorSize) 0, sectors, List.length_replicate⟩

end MemoryDevice

set_option maxRecDepth 8000 in
/-- Two adapters attached to a one-sector device: three bytes written through the first are read
back through the second after it seeks to the start, and the state the run ends in is coherent and
answers every call as the byte array does. -/
theorem adapters_refine_flat_shared_write :
    ∃ replies state, (SharedDevice.machine (⟨MemoryDevice.zeroed 1, ⟨[]⟩,
          BlockDevice.totalSectors (MemoryDevice.zeroed 1) * sectorSize, []⟩ : SharedDevice MemoryDevice)).run
        ⟨MemoryDevice.zeroed 1, ⟨[]⟩, BlockDevice.totalSectors (MemoryDevice.zeroed 1) * sectorSize, []⟩
        [.attach, .attach, .write 0 [7, 8, 9], .seek 1 (.start 0), .read 1 [0, 0, 0]] = some (replies, state) ∧
      replies[4]? = some (.read (.ok 3) [7, 8, 9]) ∧
      (Coherent MemoryDevice.image state.inner state.cache ∧
        ∀ call : AdapterCall, call.NamesAdapter state.positions.length →
          ∃ reply next, state.step call = some (reply, next) ∧
            FlatStep (state.view MemoryDevice.image) call reply (next.view MemoryDevice.image)) :=
  ⟨_, _, rfl, rfl, @adapters_refine_flat MemoryDevice _ MemoryDevice.image MemoryDevice.flat (MemoryDevice.zeroed 1) _
    (SharedDevice.mount_eq_ok rfl (by decide)) (by decide) _
    (Machine.Reachable.run _ .init (rfl : (SharedDevice.machine (⟨MemoryDevice.zeroed 1, ⟨[]⟩,
          BlockDevice.totalSectors (MemoryDevice.zeroed 1) * sectorSize, []⟩ : SharedDevice MemoryDevice)).run
        ⟨MemoryDevice.zeroed 1, ⟨[]⟩, BlockDevice.totalSectors (MemoryDevice.zeroed 1) * sectorSize, []⟩
        [.attach, .attach, .write 0 [7, 8, 9], .seek 1 (.start 0), .read 1 [0, 0, 0]] = some (_, _)))⟩

/-- On a device of `2 ^ 32 + 1` sectors the last sector has no `u32` number:
after a seek to it, a read of one byte fails where the byte array returns the
byte. -/
theorem read_past_u32_lba_fails :
    FlatDevice MemoryDevice.image ∧
      ∃ shared final, SharedDevice.mount (MemoryDevice.zeroed (2 ^ 32 + 1)) = .ok shared ∧
        (SharedDevice.machine shared).run shared [.attach, .seek 0 (.start (UInt64.ofNat (2 ^ 41))), .read 0 [0]] =
          some ([.attached 0, .sought (.ok (2 ^ 41)), .read (.error ⟨.invalidInput, "exFAT LBA overflow"⟩) [0]],
            final) ∧
        ¬ Machine.Trace FlatStep (shared.view MemoryDevice.image)
          [.attach, .seek 0 (.start (UInt64.ofNat (2 ^ 41))), .read 0 [0]]
          [.attached 0, .sought (.ok (2 ^ 41)), .read (.error ⟨.invalidInput, "exFAT LBA overflow"⟩) [0]]
          (final.view MemoryDevice.image) := by
  have mounted := @SharedDevice.mount_eq_ok _ _ (MemoryDevice.zeroed (2 ^ 32 + 1)) rfl (by decide)
  have inside : 2 ^ 41 < BlockDevice.totalSectors (MemoryDevice.zeroed (2 ^ 32 + 1)) * sectorSize := by decide
  have offset : (UInt64.ofNat (2 ^ 41)).toNat = 2 ^ 41 := rfl
  -- the size stays a name, so that no step below multiplies it out
  generalize BlockDevice.totalSectors (MemoryDevice.zeroed (2 ^ 32 + 1)) * sectorSize = size at mounted inside
  have sought := @ExFatDevice.seek_start MemoryDevice ⟨MemoryDevice.zeroed (2 ^ 32 + 1), ⟨[]⟩, 0, size⟩
    (UInt64.ofNat (2 ^ 41)) (by rw [offset]; exact inside.le)
  have failed := ExFatDevice.read_of_lba_overflow ⟨MemoryDevice.zeroed (2 ^ 32 + 1), ⟨[]⟩, 2 ^ 41, size⟩ [0]
    inside (List.cons_ne_nil _ _) (show 2 ^ 32 ≤ 2 ^ 41 / sectorSize by decide)
  have seekStep : SharedDevice.step (⟨MemoryDevice.zeroed (2 ^ 32 + 1), ⟨[]⟩, size, [0]⟩ : SharedDevice MemoryDevice)
      (.seek 0 (.start (UInt64.ofNat (2 ^ 41)))) =
        some (.sought (.ok (2 ^ 41)), ⟨MemoryDevice.zeroed (2 ^ 32 + 1), ⟨[]⟩, size, [2 ^ 41]⟩) := by
    rw [SharedDevice.step, SharedDevice.adapter_of_lt (show 0 < [0].length by decide)]
    simp only [List.getElem_cons_zero, Option.bind_eq_bind, Option.bind_some, sought, offset, SharedDevice.store,
      List.set_cons_zero]
    rfl
  have readStep : SharedDevice.step
      (⟨MemoryDevice.zeroed (2 ^ 32 + 1), ⟨[]⟩, size, [2 ^ 41]⟩ : SharedDevice MemoryDevice) (.read 0 [0]) =
        some (.read (.error ⟨.invalidInput, "exFAT LBA overflow"⟩) [0],
          ⟨MemoryDevice.zeroed (2 ^ 32 + 1), ⟨[]⟩, size, [2 ^ 41]⟩) := by
    rw [SharedDevice.step, SharedDevice.adapter_of_lt (show 0 < [2 ^ 41].length by decide)]
    simp only [List.getElem_cons_zero, Option.bind_eq_bind, Option.bind_some, failed, SharedDevice.store,
      List.set_cons_zero]
    rfl
  refine ⟨MemoryDevice.flat, _, ⟨MemoryDevice.zeroed (2 ^ 32 + 1), ⟨[]⟩, size, [2 ^ 41]⟩, mounted, ?_,
    fun trace => ?_⟩
  · -- attach, seek and read, one step at a time
    exact (SharedDevice.machine _).run_cons_eq_some.mpr ⟨_, ⟨MemoryDevice.zeroed (2 ^ 32 + 1), ⟨[]⟩, size, [0]⟩, _,
      rfl, (SharedDevice.machine _).run_cons_eq_some.mpr ⟨_, _, _, seekStep,
        (SharedDevice.machine _).run_cons_eq_some.mpr ⟨_, _, _, readStep, rfl, rfl⟩, rfl⟩, rfl⟩
  · cases trace with
    | cons _ rest =>
        cases rest with
        | cons _ rest =>
            cases rest with
            | cons third _ =>
                -- the byte array answers the read with a count, not an error
                obtain ⟨_, _, answered, _⟩ := third
                cases answered

end Fullerene.Genome
