import Fullerene.Genome.Fat.Cache
import Fullerene.Genome.Fat.ExFatDevice

/-!
# The byte adapter of the FAT driver

`FatDevice` (`fat/block_device.rs`) presents a block device to the `fatfs`
library as bytes with a cursor.  A read copies sector after sector through a
sector buffer, up to the end of the device; a write changes at most the rest
of the cursor's sector, reading the sector first unless it overwrites all of
it; a seek holds the cursor between zero and the end.  The size in bytes is
`total_sectors * sector_size`, saturated at `u64::MAX`.

For a device that is an array of sectors (`ArrayDevice`) of fewer than
`2 ^ 64` bytes, every call is a step of the byte array with a cursor
(`CursorStep`): a read returns the bytes at the cursor, a write replaces
them, a failed call leaves the cursor where it was, and no call panics
(`fat_device_refines_flat_bytes`).  On a larger device the saturated size
cuts off the last bytes: the end of the device is at `u64::MAX` and the byte
there cannot be read (`fat_device_saturated_size_hides_last_byte`).
-/

namespace Fullerene.Genome

namespace Fat

/-- `enum FatBlockError`. -/
inductive FatBlockError
  | device (error : BlockError)
  | unexpectedEof
  | writeZero
  deriving DecidableEq, Repr

/-- `fatfs::SeekFrom`. -/
inductive SeekFrom
  | start (offset : UInt64)
  | «end» (offset : Int)
  | current (offset : Int)
  deriving DecidableEq, Repr

end Fat

open Fat

/-! ## The bytes of an array of sectors -/

namespace Disk

/-- The sectors of a disk, joined. -/
def bytes (disk : Disk) : List UInt8 :=
  ((List.range disk.totalSectors).map disk.sectors).flatten

/-- Every sector on the disk holds `sector_size` bytes. -/
def Sized (disk : Disk) : Prop :=
  ∀ lba < disk.totalSectors, (disk.sectors lba).length = disk.sectorSize

variable {disk : Disk}

theorem Sized.length_of_mem (sized : disk.Sized) {sector : List UInt8}
    (member : sector ∈ (List.range disk.totalSectors).map disk.sectors) : sector.length = disk.sectorSize := by
  obtain ⟨lba, inRange, rfl⟩ := List.mem_map.mp member
  exact sized lba (List.mem_range.mp inRange)

theorem length_bytes (sized : disk.Sized) : disk.bytes.length = disk.totalSectors * disk.sectorSize := by
  rw [bytes, List.length_flatten_of_forall_length fun _ => sized.length_of_mem, List.length_map,
    List.length_range]

/-- Byte `i` of the disk is byte `i % sector_size` of sector `i / sector_size`. -/
theorem getElem?_bytes (sized : disk.Sized) (i : Nat) :
    disk.bytes[i]? = if i < disk.totalSectors * disk.sectorSize then
      (disk.sectors (i / disk.sectorSize))[i % disk.sectorSize]? else none := by
  rw [bytes, List.getElem?_flatten_of_forall_length fun _ => sized.length_of_mem, List.length_map,
    List.length_range]
  split_ifs with inside
  · have onDisk : i / disk.sectorSize < disk.totalSectors := Nat.div_lt_of_lt_mul (by rwa [Nat.mul_comm])
    simp [onDisk]
  · rfl

/-- A sector of the disk's bytes is the sector. -/
theorem chunkAt_bytes (sized : disk.Sized) {lba : Nat} (onDisk : lba < disk.totalSectors) :
    disk.bytes.chunkAt disk.sectorSize lba = disk.sectors lba := by
  apply List.ext_getElem?
  intro k
  rw [List.chunkAt, List.getElem?_take, List.getElem?_drop, getElem?_bytes sized]
  by_cases inSector : k < disk.sectorSize
  · have past : lba * disk.sectorSize + k < disk.totalSectors * disk.sectorSize := by
      have := Nat.mul_le_mul_right disk.sectorSize (Nat.succ_le_of_lt onDisk)
      rw [Nat.succ_mul] at this
      omega
    have positive : 0 < disk.sectorSize := by omega
    rw [if_pos inSector, if_pos past, Nat.add_comm, Nat.add_mul_div_right _ _ positive,
      Nat.div_eq_of_lt inSector, Nat.zero_add, Nat.add_mul_mod_self_right, Nat.mod_eq_of_lt inSector]
  · rw [if_neg inSector, eq_comm, List.getElem?_eq_none_iff, sized lba onDisk]
    omega

@[simp]
theorem overwrite_sectorSize (lba count : Nat) (buf : List UInt8) :
    (disk.overwrite lba count buf).sectorSize = disk.sectorSize := rfl

@[simp]
theorem overwrite_totalSectors (lba count : Nat) (buf : List UInt8) :
    (disk.overwrite lba count buf).totalSectors = disk.totalSectors := rfl

theorem overwrite_sectors (lba count : Nat) (buf : List UInt8) (sector : Nat) :
    (disk.overwrite lba count buf).sectors sector =
      if lba ≤ sector ∧ sector < lba + count then buf.chunkAt disk.sectorSize (sector - lba)
      else disk.sectors sector := rfl

theorem Sized.overwrite (sized : disk.Sized) {lba : Nat} {sector : List UInt8}
    (sectorLength : sector.length = disk.sectorSize) : (disk.overwrite lba 1 sector).Sized := by
  intro other onDisk
  rw [overwrite_sectors, overwrite_sectorSize]
  split_ifs with within
  · obtain rfl : other = lba := by omega
    rw [Nat.sub_self, List.chunkAt_zero_of_length sectorLength, sectorLength]
  · exact sized other onDisk

/-- Writing one sector of the disk writes its bytes at the sector's place. -/
theorem bytes_overwrite (sized : disk.Sized) {lba : Nat} (onDisk : lba < disk.totalSectors)
    {sector : List UInt8} (sectorLength : sector.length = disk.sectorSize) :
    (disk.overwrite lba 1 sector).bytes = disk.bytes.copyFromSlice (lba * disk.sectorSize) sector := by
  have endOnDisk : lba * disk.sectorSize + disk.sectorSize ≤ disk.totalSectors * disk.sectorSize := by
    rw [← Nat.succ_mul]
    exact Nat.mul_le_mul_right _ onDisk
  apply List.ext_getElem?
  intro i
  rw [getElem?_bytes (sized.overwrite sectorLength),
    List.getElem?_copyFromSlice (by rw [length_bytes sized, sectorLength]; exact endOnDisk),
    getElem?_bytes sized, sectorLength]
  simp only [overwrite_sectorSize, overwrite_totalSectors, overwrite_sectors]
  by_cases inside : i < disk.totalSectors * disk.sectorSize
  swap
  · simp only [inside, if_false]
    rw [if_neg (by omega)]
  have positive : 0 < disk.sectorSize := Nat.pos_of_ne_zero fun zero => by simp [zero] at inside
  simp only [inside, if_true]
  by_cases within : lba * disk.sectorSize ≤ i ∧ i < lba * disk.sectorSize + disk.sectorSize
  · -- the byte lies in the written sector
    have row : i / disk.sectorSize = lba := Nat.div_eq_of_lt_le within.1 (by rw [Nat.succ_mul]; exact within.2)
    have column : i % disk.sectorSize = i - lba * disk.sectorSize := by
      rw [Nat.mod_def, row, Nat.mul_comm]
    rw [if_pos within, if_pos (by omega), row, Nat.sub_self, List.chunkAt_zero_of_length sectorLength, column]
  · have row : i / disk.sectorSize ≠ lba := fun row =>
      within ⟨by rw [← row]; exact Nat.div_mul_le_self i _, by
        rw [← row]; have := Nat.lt_div_mul_add (a := i) positive; omega⟩
    rw [if_neg within, if_neg (by omega)]

/-- A write of one sector, failed or not, keeps every byte outside it. -/
theorem getElem?_bytes_of_agreesOutside {disk' : Disk} (sized : disk.Sized) (sized' : disk'.Sized) {lba : Nat}
    (agrees : disk.AgreesOutside disk' lba 1) {i : Nat} (other : i / disk.sectorSize ≠ lba) :
    disk'.bytes[i]? = disk.bytes[i]? := by
  obtain ⟨sameSize, sameTotal, kept⟩ := agrees
  rw [getElem?_bytes sized', getElem?_bytes sized, sameSize, sameTotal, kept _ (by omega)]

end Disk

/-- `struct FatDevice`: the device, the cursor, the sector size, the size in
bytes and the sector buffer. -/
structure FatDevice (D : Type) where
  device : D
  pos : Nat
  bytesPerSector : Nat
  totalBytes : Nat
  scratch : List UInt8

namespace FatDevice

variable {D : Type} [BlockDevice D]

/-- `FatDevice::new`. -/
def new (device : D) : FatDevice D :=
  let bytesPerSector := BlockDevice.sectorSize device
  ⟨device, 0, bytesPerSector, Word.saturatingMul 64 (BlockDevice.totalSectors device) bytesPerSector,
    List.replicate bytesPerSector 0⟩

/-- The loop of `read` from `written` bytes on, in `fuel` rounds: the sector
under the cursor goes into the sector buffer, and as much of it as the
request still needs into `buf`.  `none` is a panic: a division by a zero
sector size, or a slice out of range. -/
def readLoop (bytesPerSector pos len : Nat) :
    Nat → D → List UInt8 → Nat → List UInt8 → Option (Except FatBlockError Nat × D × List UInt8 × List UInt8)
  | 0, _, _, _, _ => none
  | fuel + 1, device, scratch, written, buf =>
      if written < len then
        if bytesPerSector = 0 then none
        else
          let currentPos := pos + written
          let sector := currentPos / bytesPerSector
          let offset := currentPos % bytesPerSector
          match BlockDevice.readSectors device sector 1 scratch with
          | (.error error, device, scratch) => some (.error (.device error), device, scratch, buf)
          | (.ok (), device, scratch) =>
              let available := min (bytesPerSector - offset) (len - written)
              match buf.copyChecked written available ((scratch.drop offset).take available) with
              | none => none
              | some buf => readLoop bytesPerSector pos len fuel device scratch (written + available) buf
      else some (.ok written, device, scratch, buf)

/-- `Read::read`; each round moves past at least one byte, so `len + 1`
rounds are enough.  The cursor moves only when the whole read succeeds. -/
def read (dev : FatDevice D) (buf : List UInt8) : Option (Except FatBlockError Nat × FatDevice D × List UInt8) :=
  if dev.totalBytes ≤ dev.pos then some (.ok 0, dev, buf)
  else
    let endPos := min (Word.saturatingAdd 64 dev.pos buf.length) dev.totalBytes
    let len := endPos - dev.pos
    (readLoop dev.bytesPerSector dev.pos len (len + 1) dev.device dev.scratch 0 buf).map
      fun (result, device, scratch, buf) =>
        match result with
        | .error error => (.error error, { dev with device, scratch }, buf)
        | .ok written => (.ok written, { dev with device, scratch, pos := dev.pos + written }, buf)

/-- `Write::write`: the rest of the cursor's sector at most; the sector is
read first unless the write covers all of it. -/
def write (dev : FatDevice D) (buf : List UInt8) : Option (Except FatBlockError Nat × FatDevice D) :=
  if buf.isEmpty ∨ dev.totalBytes ≤ dev.pos then some (.ok 0, dev)
  else if dev.bytesPerSector = 0 then none
  else
    let sector := dev.pos / dev.bytesPerSector
    let offset := dev.pos % dev.bytesPerSector
    let remaining := dev.totalBytes - dev.pos
    let writeLen := min (min buf.length remaining) (dev.bytesPerSector - offset)
    if writeLen = 0 then some (.ok 0, dev)
    else
      let fetched :=
        if 0 < offset ∨ writeLen < dev.bytesPerSector then BlockDevice.readSectors dev.device sector 1 dev.scratch
        else (.ok (), dev.device, dev.scratch)
      match fetched with
      | (.error error, device, scratch) => some (.error (.device error), { dev with device, scratch })
      | (.ok (), device, scratch) =>
          match scratch.copyChecked offset writeLen (buf.take writeLen) with
          | none => none
          | some scratch =>
              match BlockDevice.writeSectors device sector 1 scratch with
              | (.error error, device) => some (.error (.device error), { dev with device, scratch })
              | (.ok (), device) => some (.ok writeLen, { dev with device, scratch, pos := dev.pos + writeLen })

/-- `Seek::seek`: the target, saturated to a `u64`, then held at the end. -/
def seek (dev : FatDevice D) (pos : SeekFrom) : Except FatBlockError Nat × FatDevice D :=
  let newPos :=
    match pos with
    | .start offset => offset.toNat
    | .«end» offset => Word.saturatingAddSigned 64 dev.totalBytes offset
    | .current offset => Word.saturatingAddSigned 64 dev.pos offset
  let pos := min newPos dev.totalBytes
  (.ok pos, { dev with pos })

/-- A call of the `fatfs` I/O traits. -/
inductive Call
  | read (buf : List UInt8)
  | write (buf : List UInt8)
  | seek (pos : SeekFrom)

/-- The value such a call returns; a read also gives back its buffer. -/
inductive Reply
  | read (result : Except FatBlockError Nat) (buf : List UInt8)
  | written (result : Except FatBlockError Nat)
  | sought (result : Except FatBlockError Nat)

/-- One call; `none` when it panics. -/
def step (dev : FatDevice D) : Call → Option (Reply × FatDevice D)
  | .read buf => (dev.read buf).map fun (result, dev, buf) => (.read result buf, dev)
  | .write buf => (dev.write buf).map fun (result, dev) => (.written result, dev)
  | .seek pos => some (.sought (dev.seek pos).1, (dev.seek pos).2)

/-- The adapter from `FatDevice::new(device)`. -/
def machine (device : D) : Machine (FatDevice D) Call Reply :=
  ⟨new device, step⟩

/-! ## The byte array with a cursor -/

/-- Bytes with a cursor and the sector size of the device under them: what
`FatDevice` presents. -/
structure Cursor where
  bytes : List UInt8
  pos : Nat
  sectorSize : Nat

/-- Where a seek aims, before it is held within the bytes. -/
def Cursor.target (cursor : Cursor) : SeekFrom → Int
  | .start offset => offset.toNat
  | .«end» offset => cursor.bytes.length + offset
  | .current offset => cursor.pos + offset

/-- What a call may do to bytes with a cursor.  A read returns the bytes at the
cursor, up to the end, and moves past them; a write replaces the bytes at the
cursor, up to the end and to the end of the cursor's sector, and moves past
them; a seek moves the cursor to its target held between zero and the end.  A
failed read changes nothing; a failed write keeps the cursor and every byte
outside the cursor's sector. -/
def CursorStep (cursor : Cursor) : Call → Reply → Cursor → Prop
  | .read buf, .read (.ok n) buf', cursor' =>
      n = min buf.length (cursor.bytes.length - cursor.pos) ∧
        buf' = buf.copyFromSlice 0 ((cursor.bytes.drop cursor.pos).take n) ∧
        cursor' = { cursor with pos := cursor.pos + n }
  | .read _, .read (.error _) _, cursor' => cursor' = cursor
  | .write buf, .written (.ok n), cursor' =>
      n = min (min buf.length (cursor.bytes.length - cursor.pos)) (cursor.sectorSize - cursor.pos % cursor.sectorSize) ∧
        cursor' = { cursor with bytes := cursor.bytes.copyFromSlice cursor.pos (buf.take n), pos := cursor.pos + n }
  | .write _, .written (.error _), cursor' =>
      cursor'.pos = cursor.pos ∧ cursor'.sectorSize = cursor.sectorSize ∧
        cursor'.bytes.length = cursor.bytes.length ∧
        ∀ i, i / cursor.sectorSize ≠ cursor.pos / cursor.sectorSize → cursor'.bytes[i]? = cursor.bytes[i]?
  | .seek target, .sought result, cursor' =>
      result = .ok (min (cursor.target target).toNat cursor.bytes.length) ∧
        cursor' = { cursor with pos := min (cursor.target target).toNat cursor.bytes.length }
  | _, _, _ => False

/-- What `new` establishes on a device of fewer than `2 ^ 64` bytes and every
call keeps: the adapter's sector size and size are the device's, the sector
buffer holds one sector, and the cursor is on the device. -/
structure Sound (dev : FatDevice D) : Prop where
  bytesPerSector_eq : dev.bytesPerSector = BlockDevice.sectorSize dev.device
  totalBytes_eq : dev.totalBytes = BlockDevice.totalSectors dev.device * BlockDevice.sectorSize dev.device
  fits : dev.totalBytes < 2 ^ 64
  scratch_length : dev.scratch.length = dev.bytesPerSector
  pos_le : dev.pos ≤ dev.totalBytes

theorem sound_new {device : D}
    (fits : BlockDevice.totalSectors device * BlockDevice.sectorSize device < 2 ^ 64) : Sound (new device) where
  bytesPerSector_eq := rfl
  totalBytes_eq := Word.saturatingMul_of_lt fits
  fits := by
    show Word.saturatingMul 64 _ _ < 2 ^ 64
    rw [Word.saturatingMul_of_lt fits]
    exact fits
  scratch_length := List.length_replicate
  pos_le := Nat.zero_le _

/-- The cursor an adapter presents, on a device read through `image`. -/
def view (image : D → Nat → List UInt8) (dev : FatDevice D) : Cursor :=
  ⟨(BlockDevice.disk image dev.device).bytes, dev.pos, dev.bytesPerSector⟩

/-! ## Reads on an array of sectors -/

section Array

variable {image : D → Nat → List UInt8}

theorem sized_disk (array : BlockDevice.ArrayDevice image) (device : D) :
    (BlockDevice.disk image device).Sized :=
  fun _ onDisk => array.sized onDisk

/-- The bytes of sector `lba` from `offset` on, read into a buffer, are the
disk's bytes at `lba * sector_size + offset`. -/
theorem take_drop_of_holds {disk : Disk} (sized : disk.Sized) {lba offset count : Nat}
    (onDisk : lba < disk.totalSectors) (inside : offset + count ≤ disk.sectorSize) {before scratch : List UInt8}
    (holds : disk.Holds lba 1 before scratch) :
    (scratch.drop offset).take count = (disk.bytes.drop (lba * disk.sectorSize + offset)).take count := by
  have sector := holds.1 0 Nat.zero_lt_one
  rw [Nat.add_zero] at sector
  calc (scratch.drop offset).take count
      = ((scratch.chunkAt disk.sectorSize 0).drop offset).take count := by
        rw [List.take_drop_chunkAt inside, Nat.zero_mul, Nat.zero_add]
    _ = ((disk.bytes.chunkAt disk.sectorSize lba).drop offset).take count := by
        rw [sector, Disk.chunkAt_bytes sized onDisk]
    _ = (disk.bytes.drop (lba * disk.sectorSize + offset)).take count := List.take_drop_chunkAt inside

/-- With enough rounds, the read loop either fails or fills `buf` from
`written` up to `len` with the disk's bytes from `pos + written` on; the disk
stays as it is. -/
theorem readLoop_spec (array : BlockDevice.ArrayDevice image) {disk : Disk} {pos len : Nat}
    (onDisk : pos + len ≤ disk.totalSectors * disk.sectorSize) (positive : 0 < disk.sectorSize) :
    ∀ {fuel : Nat} {device : D} {scratch : List UInt8} {written : Nat} {buf : List UInt8},
      BlockDevice.disk image device = disk → scratch.length = disk.sectorSize → written ≤ len →
      len - written < fuel → len ≤ buf.length →
      ∃ result device' scratch' buf',
        readLoop disk.sectorSize pos len fuel device scratch written buf = some (result, device', scratch', buf') ∧
          BlockDevice.disk image device' = disk ∧ scratch'.length = disk.sectorSize ∧
          ∀ n, result = .ok n →
            n = len ∧ buf' = buf.copyFromSlice written (((disk.bytes.drop pos).drop written).take (len - written)) := by
  intro fuel
  induction fuel with
  | zero =>
      intro device scratch written buf _ _ _ enough _
      exact absurd enough (Nat.not_lt_zero _)
  | succ fuel inductionHypothesis =>
      intro device scratch written buf onImage sized upTo enough room
      rw [readLoop]
      by_cases more : written < len
      swap
      · -- all `len` bytes are read
        obtain rfl : written = len := by omega
        refine ⟨_, device, scratch, buf, by rw [if_neg more], onImage, sized, fun n finished => ?_⟩
        rw [Except.ok.injEq] at finished
        subst finished
        simp
      rw [if_pos more, if_neg positive.ne']
      dsimp only
      have diskSized : disk.Sized := onImage ▸ sized_disk array device
      have lbaOnDisk : (pos + written) / disk.sectorSize < disk.totalSectors :=
        Nat.div_lt_of_lt_mul (by rw [Nat.mul_comm]; omega)
      have readDisk := array.read_disk device ((pos + written) / disk.sectorSize) 1 scratch
      have scratchLength := BlockDevice.length_readSectors device ((pos + written) / disk.sectorSize) 1 scratch
      rcases readResult : BlockDevice.readSectors device ((pos + written) / disk.sectorSize) 1 scratch with
        ⟨result, device', scratch'⟩
      rw [readResult] at readDisk scratchLength
      cases result with
      | error error =>
          exact ⟨.error (.device error), device', scratch', buf, rfl, readDisk.trans onImage,
            scratchLength.trans sized, fun _ failed => by cases failed⟩
      | ok nothing =>
          -- the sector is in the sector buffer; its needed part goes into `buf`
          have holds := array.read_ok readResult
            (show _ ≤ (BlockDevice.disk image device).totalSectors by rw [onImage]; exact lbaOnDisk)
            (show _ * (BlockDevice.disk image device).sectorSize ≤ _ by rw [Nat.one_mul, sized, onImage])
          rw [onImage] at holds
          have offsetBound : (pos + written) % disk.sectorSize < disk.sectorSize := Nat.mod_lt _ positive
          generalize moved : min (disk.sectorSize - (pos + written) % disk.sectorSize) (len - written) = available
          have piece : (scratch'.drop ((pos + written) % disk.sectorSize)).take available =
              ((disk.bytes.drop pos).drop written).take available := by
            rw [take_drop_of_holds diskSized lbaOnDisk (by omega) holds, Nat.div_add_mod', List.drop_drop]
          have pieceLength : (((disk.bytes.drop pos).drop written).take available).length = available := by
            rw [List.length_take, List.length_drop, List.length_drop, Disk.length_bytes diskSized]
            omega
          simp only [piece, List.copyChecked_eq_some (show written + available ≤ buf.length by omega) pieceLength]
          have roomNext : len ≤ (buf.copyFromSlice written (((disk.bytes.drop pos).drop written).take available)).length := by
            rw [List.length_copyFromSlice (by omega)]
            exact room
          obtain ⟨result'', device'', scratch'', buf'', looped, same, sized'', filled⟩ :=
            inductionHypothesis (readDisk.trans onImage) (scratchLength.trans sized)
              (show written + available ≤ len by omega) (show len - (written + available) < fuel by omega) roomNext
          refine ⟨result'', device'', scratch'', buf'', looped, same, sized'', fun n finished => ?_⟩
          obtain ⟨rfl, rest⟩ := filled n finished
          refine ⟨rfl, ?_⟩
          rw [rest]
          exact List.copyFromSlice_drop_take (by omega)
            (by rw [List.length_drop, Disk.length_bytes diskSized]; omega) (by omega)

/-- Every call keeps the invariant as long as it keeps the device's geometry,
the sector buffer's length and the cursor on the device. -/
theorem Sound.moved {dev : FatDevice D} (sound : Sound dev) {device' : D} {scratch' : List UInt8} {pos' : Nat}
    (sameSize : BlockDevice.sectorSize device' = BlockDevice.sectorSize dev.device)
    (sameTotal : BlockDevice.totalSectors device' = BlockDevice.totalSectors dev.device)
    (sized : scratch'.length = dev.bytesPerSector) (onDevice : pos' ≤ dev.totalBytes) :
    Sound { dev with device := device', scratch := scratch', pos := pos' } where
  bytesPerSector_eq := sound.bytesPerSector_eq.trans sameSize.symm
  totalBytes_eq := by
    rw [sameSize, sameTotal]
    exact sound.totalBytes_eq
  fits := sound.fits
  scratch_length := sized
  pos_le := onDevice

theorem Sound.length_bytes (array : BlockDevice.ArrayDevice image) {dev : FatDevice D} (sound : Sound dev) :
    (BlockDevice.disk image dev.device).bytes.length = dev.totalBytes := by
  rw [Disk.length_bytes (sized_disk array dev.device), sound.totalBytes_eq]
  rfl

/-- A read returns the bytes at the cursor and moves past them, or fails and
moves nothing; it never panics. -/
theorem read_step (array : BlockDevice.ArrayDevice image) {dev : FatDevice D} (sound : Sound dev)
    (buf : List UInt8) :
    ∃ result dev' buf', dev.read buf = some (result, dev', buf') ∧ Sound dev' ∧
      CursorStep (view image dev) (.read buf) (.read result buf') (view image dev') := by
  have length := sound.length_bytes array
  unfold read
  by_cases atEnd : dev.totalBytes ≤ dev.pos
  · -- nothing is left to read
    refine ⟨.ok 0, dev, buf, by rw [if_pos atEnd], sound, ?_, ?_, ?_⟩
    · show 0 = min buf.length ((BlockDevice.disk image dev.device).bytes.length - dev.pos)
      omega
    · simp
    · rfl
  rw [if_neg atEnd]
  -- the request, cut at the end of the device
  have cut : min (Word.saturatingAdd 64 dev.pos buf.length) dev.totalBytes - dev.pos =
      min buf.length (dev.totalBytes - dev.pos) := by
    have := sound.fits
    unfold Word.saturatingAdd Word.max
    omega
  dsimp only
  rw [cut]
  have geometry : dev.totalBytes = (BlockDevice.disk image dev.device).totalSectors *
      (BlockDevice.disk image dev.device).sectorSize := sound.totalBytes_eq
  have positive : 0 < (BlockDevice.disk image dev.device).sectorSize :=
    Nat.pos_of_ne_zero fun zero => by rw [zero, Nat.mul_zero] at geometry; omega
  obtain ⟨result, device', scratch', buf', looped, same, sized', filled⟩ :=
    @readLoop_spec D _ image array (BlockDevice.disk image dev.device) dev.pos (min buf.length (dev.totalBytes - dev.pos))
      (by omega) positive (min buf.length (dev.totalBytes - dev.pos) + 1) dev.device dev.scratch 0 buf rfl
      (sound.scratch_length.trans sound.bytesPerSector_eq) (Nat.zero_le _) (by omega) (Nat.min_le_left _ _)
  have sameSize : BlockDevice.sectorSize device' = BlockDevice.sectorSize dev.device :=
    congrArg Disk.sectorSize same
  have sameTotal : BlockDevice.totalSectors device' = BlockDevice.totalSectors dev.device :=
    congrArg Disk.totalSectors same
  have scratchLength : scratch'.length = dev.bytesPerSector := sized'.trans sound.bytesPerSector_eq.symm
  have looped' : readLoop dev.bytesPerSector dev.pos (min buf.length (dev.totalBytes - dev.pos))
      (min buf.length (dev.totalBytes - dev.pos) + 1) dev.device dev.scratch 0 buf =
        some (result, device', scratch', buf') := by
    rw [sound.bytesPerSector_eq]
    exact looped
  rw [looped']
  cases result with
  | error error =>
      refine ⟨.error error, _, buf', rfl, sound.moved sameSize sameTotal scratchLength sound.pos_le, ?_⟩
      show (⟨(BlockDevice.disk image device').bytes, dev.pos, dev.bytesPerSector⟩ : Cursor) = view image dev
      rw [same]
      rfl
  | ok n =>
      obtain ⟨rfl, rfl⟩ := filled n rfl
      refine ⟨.ok _, _, _, rfl, sound.moved sameSize sameTotal scratchLength (by omega), ?_, ?_, ?_⟩
      · show _ = min buf.length ((BlockDevice.disk image dev.device).bytes.length - dev.pos)
        rw [length]
      · simp only [view, List.drop_zero, Nat.sub_zero]
      · show (⟨(BlockDevice.disk image device').bytes, _, _⟩ : Cursor) = _
        rw [same]
        rfl

/-- The last step of a write: the cursor's sector, patched with the written
bytes, goes back to the device.  Either the device takes it and the bytes at
the cursor are replaced, or it fails and no byte outside the sector changes. -/
theorem writeBack_spec (array : BlockDevice.ArrayDevice image) {dev : FatDevice D} (sound : Sound dev)
    {device' : D} (same : BlockDevice.disk image device' = BlockDevice.disk image dev.device)
    {buf : List UInt8} {writeLen : Nat} (positive : 0 < dev.bytesPerSector) (atCursor : dev.pos < dev.totalBytes)
    (amount : writeLen = min (min buf.length (dev.totalBytes - dev.pos)) (dev.bytesPerSector - dev.pos % dev.bytesPerSector))
    {patched : List UInt8}
    (patchedEq : patched = ((BlockDevice.disk image dev.device).bytes.chunkAt dev.bytesPerSector
      (dev.pos / dev.bytesPerSector)).copyFromSlice (dev.pos % dev.bytesPerSector) (buf.take writeLen)) :
    ∃ result dev',
      (match BlockDevice.writeSectors device' (dev.pos / dev.bytesPerSector) 1 patched with
        | (.error error, device) => some (.error (.device error), { dev with device, scratch := patched })
        | (.ok (), device) => some (.ok writeLen, { dev with device, scratch := patched, pos := dev.pos + writeLen })) =
          some (result, dev') ∧
        Sound dev' ∧ CursorStep (view image dev) (.write buf) (.written result) (view image dev') := by
  have length := sound.length_bytes array
  have sized := sized_disk array dev.device
  have geometry : dev.totalBytes = (BlockDevice.disk image dev.device).totalSectors * dev.bytesPerSector := by
    rw [sound.totalBytes_eq, sound.bytesPerSector_eq]
    rfl
  have sectorSize : (BlockDevice.disk image dev.device).sectorSize = dev.bytesPerSector :=
    sound.bytesPerSector_eq.symm
  have onDisk : dev.pos / dev.bytesPerSector < (BlockDevice.disk image dev.device).totalSectors :=
    Nat.div_lt_of_lt_mul (by rw [Nat.mul_comm]; omega)
  have start : dev.pos / dev.bytesPerSector * dev.bytesPerSector + dev.pos % dev.bytesPerSector = dev.pos :=
    Nat.div_add_mod' _ _
  have offsetBound : dev.pos % dev.bytesPerSector < dev.bytesPerSector := Nat.mod_lt _ positive
  have sectorEnd : dev.pos / dev.bytesPerSector * dev.bytesPerSector + dev.bytesPerSector ≤
      (BlockDevice.disk image dev.device).bytes.length := by
    rw [length, geometry, ← Nat.succ_mul]
    exact Nat.mul_le_mul_right _ onDisk
  have patchLength : (buf.take writeLen).length = writeLen := by
    rw [List.length_take]
    omega
  have regionLength : ((BlockDevice.disk image dev.device).bytes.chunkAt dev.bytesPerSector
      (dev.pos / dev.bytesPerSector)).length = dev.bytesPerSector := by
    rw [← sectorSize] at sectorEnd ⊢
    exact List.length_chunkAt_of_le (by rw [Nat.succ_mul]; exact sectorEnd)
  have patchedLength : patched.length = dev.bytesPerSector := by
    rw [patchedEq, List.length_copyFromSlice (by omega), regionLength]
  have outside := array.write_outside device' (dev.pos / dev.bytesPerSector) 1 patched
  rcases written : BlockDevice.writeSectors device' (dev.pos / dev.bytesPerSector) 1 patched with ⟨result, device''⟩
  rw [written, same] at outside
  obtain ⟨sameSize, sameTotal, kept⟩ := outside
  have sized'' := sized_disk array device''
  cases result with
  | error error =>
      -- the device refused the sector: only that sector may have changed
      refine ⟨_, _, rfl, sound.moved sameSize sameTotal patchedLength sound.pos_le, rfl, rfl, ?_, ?_⟩
      · show (BlockDevice.disk image device'').bytes.length = (BlockDevice.disk image dev.device).bytes.length
        rw [Disk.length_bytes sized'', Disk.length_bytes sized, sameSize, sameTotal]
      · intro i other
        exact Disk.getElem?_bytes_of_agreesOutside sized sized'' ⟨sameSize, sameTotal, kept⟩
          (by rw [sectorSize]; exact other)
  | ok nothing =>
      have overwritten := array.write_ok written
        (show _ + 1 ≤ (BlockDevice.disk image device').totalSectors by rw [same]; omega)
        (show 1 * (BlockDevice.disk image device').sectorSize ≤ patched.length by
          rw [same, Nat.one_mul, patchedLength, sectorSize])
      rw [same] at overwritten
      refine ⟨_, _, rfl, sound.moved sameSize sameTotal patchedLength (by omega), ?_, ?_⟩
      · show writeLen = min (min buf.length ((BlockDevice.disk image dev.device).bytes.length - dev.pos))
          (dev.bytesPerSector - dev.pos % dev.bytesPerSector)
        rw [length]
        exact amount
      · -- the sector written back is the old one with the bytes at the cursor replaced
        show (⟨(BlockDevice.disk image device'').bytes, dev.pos + writeLen, dev.bytesPerSector⟩ : Cursor) =
          ⟨(BlockDevice.disk image dev.device).bytes.copyFromSlice dev.pos (buf.take writeLen), dev.pos + writeLen,
            dev.bytesPerSector⟩
        rw [overwritten, Disk.bytes_overwrite sized onDisk (patchedLength.trans sectorSize.symm), patchedEq, sectorSize,
          List.chunkAt, List.copyFromSlice_patch sectorEnd (by rw [patchLength]; omega), start]

/-- A write replaces the bytes at the cursor up to the end of its sector and
moves past them, or fails and keeps the cursor and every byte outside the
cursor's sector; it never panics. -/
theorem write_step (array : BlockDevice.ArrayDevice image) {dev : FatDevice D} (sound : Sound dev)
    (buf : List UInt8) :
    ∃ result dev', dev.write buf = some (result, dev') ∧ Sound dev' ∧
      CursorStep (view image dev) (.write buf) (.written result) (view image dev') := by
  have length := sound.length_bytes array
  have sized := sized_disk array dev.device
  unfold write
  by_cases nothing : buf.isEmpty ∨ dev.totalBytes ≤ dev.pos
  · -- an empty buffer, or no room left
    refine ⟨.ok 0, dev, by rw [if_pos nothing], sound, ?_, ?_⟩
    · show 0 = min (min buf.length ((BlockDevice.disk image dev.device).bytes.length - dev.pos))
        (dev.bytesPerSector - dev.pos % dev.bytesPerSector)
      rw [length]
      rcases nothing with empty | atEnd
      · rw [List.isEmpty_iff.mp empty, List.length_nil, Nat.zero_min, Nat.zero_min]
      · omega
    · simp [view]
  rw [if_neg nothing]
  obtain ⟨nonempty, atCursor⟩ : buf ≠ [] ∧ dev.pos < dev.totalBytes := by
    simp only [not_or, List.isEmpty_iff, Nat.not_le] at nothing
    exact nothing
  have geometry : dev.totalBytes = (BlockDevice.disk image dev.device).totalSectors * dev.bytesPerSector := by
    rw [sound.totalBytes_eq, sound.bytesPerSector_eq]
    rfl
  have positive : 0 < dev.bytesPerSector :=
    Nat.pos_of_ne_zero fun zero => by rw [zero, Nat.mul_zero] at geometry; omega
  have sectorSize : (BlockDevice.disk image dev.device).sectorSize = dev.bytesPerSector :=
    sound.bytesPerSector_eq.symm
  have onDisk : dev.pos / dev.bytesPerSector < (BlockDevice.disk image dev.device).totalSectors :=
    Nat.div_lt_of_lt_mul (by rw [Nat.mul_comm]; omega)
  have offsetBound : dev.pos % dev.bytesPerSector < dev.bytesPerSector := Nat.mod_lt _ positive
  have moves : 0 < min (min buf.length (dev.totalBytes - dev.pos)) (dev.bytesPerSector - dev.pos % dev.bytesPerSector) := by
    have := List.length_pos_iff.mpr nonempty
    omega
  rw [if_neg positive.ne']
  dsimp only
  rw [if_neg moves.ne']
  generalize amount : min (min buf.length (dev.totalBytes - dev.pos))
    (dev.bytesPerSector - dev.pos % dev.bytesPerSector) = writeLen at moves ⊢
  have patchLength : (buf.take writeLen).length = writeLen := by
    rw [List.length_take]
    omega
  by_cases patchOnly : 0 < dev.pos % dev.bytesPerSector ∨ writeLen < dev.bytesPerSector
  · -- read, patch and write back the sector
    rw [if_pos patchOnly]
    have readDisk := array.read_disk dev.device (dev.pos / dev.bytesPerSector) 1 dev.scratch
    have scratchLength := BlockDevice.length_readSectors dev.device (dev.pos / dev.bytesPerSector) 1 dev.scratch
    rcases fetched : BlockDevice.readSectors dev.device (dev.pos / dev.bytesPerSector) 1 dev.scratch with
      ⟨result, device', scratch'⟩
    rw [fetched] at readDisk scratchLength
    have sameSize : BlockDevice.sectorSize device' = BlockDevice.sectorSize dev.device :=
      congrArg Disk.sectorSize readDisk
    have sameTotal : BlockDevice.totalSectors device' = BlockDevice.totalSectors dev.device :=
      congrArg Disk.totalSectors readDisk
    cases result with
    | error error =>
        refine ⟨_, _, rfl, sound.moved sameSize sameTotal (scratchLength.trans sound.scratch_length) sound.pos_le,
          rfl, rfl, ?_, fun i _ => ?_⟩
        · show (BlockDevice.disk image device').bytes.length = _
          rw [readDisk]
          rfl
        · show (BlockDevice.disk image device').bytes[i]? = _
          rw [readDisk]
          rfl
    | ok done =>
        have holds := array.read_ok fetched (show _ + 1 ≤ (BlockDevice.disk image dev.device).totalSectors by omega)
          (show 1 * (BlockDevice.disk image dev.device).sectorSize ≤ dev.scratch.length by
            rw [Nat.one_mul, sectorSize, sound.scratch_length])
        -- one sector read into a one-sector buffer is that sector
        have region : scratch' = (BlockDevice.disk image dev.device).bytes.chunkAt dev.bytesPerSector
            (dev.pos / dev.bytesPerSector) := by
          have sector := holds.1 0 Nat.zero_lt_one
          rw [List.chunkAt_zero_of_length (by rw [scratchLength, sound.scratch_length, sectorSize]), Nat.add_zero]
            at sector
          rw [sector, ← Disk.chunkAt_bytes sized onDisk, sectorSize]
        simp only [List.copyChecked_eq_some
          (show dev.pos % dev.bytesPerSector + writeLen ≤ scratch'.length by
            rw [scratchLength, sound.scratch_length]; omega) patchLength]
        exact writeBack_spec array sound readDisk positive atCursor amount.symm (by rw [region])
  · -- the write covers the whole sector, which is not read first
    rw [if_neg patchOnly]
    have whole : dev.pos % dev.bytesPerSector = 0 ∧ writeLen = dev.bytesPerSector := by omega
    have regionLength : ((BlockDevice.disk image dev.device).bytes.chunkAt dev.bytesPerSector
        (dev.pos / dev.bytesPerSector)).length = dev.bytesPerSector := by
      have sector := Disk.chunkAt_bytes sized onDisk
      rw [sectorSize] at sector
      rw [sector]
      exact (array.sized onDisk).trans sound.bytesPerSector_eq.symm
    simp only [List.copyChecked_eq_some
      (show dev.pos % dev.bytesPerSector + writeLen ≤ dev.scratch.length by
        rw [sound.scratch_length]; omega) patchLength]
    refine writeBack_spec array sound rfl positive atCursor amount.symm ?_
    rw [whole.1, List.copyFromSlice_zero_of_length (by rw [patchLength, whole.2, sound.scratch_length]),
      List.copyFromSlice_zero_of_length (by rw [patchLength, whole.2, regionLength])]

/-- A seek moves the cursor to its target held between zero and the end. -/
theorem seek_step (array : BlockDevice.ArrayDevice image) {dev : FatDevice D} (sound : Sound dev)
    (target : SeekFrom) :
    Sound (dev.seek target).2 ∧
      CursorStep (view image dev) (.seek target) (.sought (dev.seek target).1) (view image (dev.seek target).2) := by
  have length := sound.length_bytes array
  have small := sound.fits
  -- the saturation at `u64::MAX` never matters below the end of the device
  have held : ∀ base : Int, min (min base.toNat (2 ^ 64 - 1)) dev.totalBytes = min base.toNat dev.totalBytes := by
    intro base
    omega
  refine ⟨sound.moved rfl rfl sound.scratch_length (Nat.min_le_right _ _), ?_, ?_⟩ <;>
    cases target <;>
    simp only [seek, Cursor.target, view, length, Word.saturatingAddSigned, Word.max, held, Int.toNat_natCast]

/-- Every call returns, keeps the invariant, and is a step of the byte array
with a cursor. -/
theorem step_spec (array : BlockDevice.ArrayDevice image) {dev : FatDevice D} (sound : Sound dev) (call : Call) :
    ∃ reply dev', dev.step call = some (reply, dev') ∧ Sound dev' ∧
      CursorStep (view image dev) call reply (view image dev') := by
  cases call with
  | read buf =>
      obtain ⟨result, dev', buf', read, sound', spec⟩ := read_step array sound buf
      exact ⟨.read result buf', dev', by simp [step, read], sound', spec⟩
  | write buf =>
      obtain ⟨result, dev', written, sound', spec⟩ := write_step array sound buf
      exact ⟨.written result, dev', by simp [step, written], sound', spec⟩
  | seek target =>
      obtain ⟨sound', spec⟩ := seek_step array sound target
      exact ⟨_, _, rfl, sound', spec⟩

theorem sound_inductive (array : BlockDevice.ArrayDevice image) {device : D}
    (fits : BlockDevice.totalSectors device * BlockDevice.sectorSize device < 2 ^ 64) :
    (machine device).Inductive Sound where
  init := sound_new fits
  step := by
    intro dev next call reply sound stepped
    obtain ⟨reply', next', stepped', sound', -⟩ := step_spec array sound call
    rw [show (machine device).step dev call = dev.step call from rfl, stepped'] at stepped
    cases stepped
    exact sound'

theorem simulates (array : BlockDevice.ArrayDevice image) (device : D) :
    (machine device).Simulates CursorStep (view image) Sound := by
  intro dev next call reply sound stepped
  obtain ⟨reply', next', stepped', -, spec⟩ := step_spec array sound call
  rw [show (machine device).step dev call = dev.step call from rfl, stepped'] at stepped
  cases stepped
  exact spec

end Array

/-- `FatDevice` is the device's bytes with a cursor.  On a device that is an
array of sectors, every call from a sound adapter returns (no panic) and is a
step of the byte array: a read returns `min(|buf|, total - pos)` bytes from
the cursor and moves past them, a write replaces
`min(|buf|, total - pos, sector_size - pos % sector_size)` bytes at the cursor
and moves past them, a seek holds its target between zero and the end, and a
failed call leaves the cursor (and, for a write, every byte outside the
cursor's sector).  From `new` on a device of fewer than `2 ^ 64` bytes every
run returns and is a run of the byte array from its first byte. -/
theorem fat_device_refines_flat_bytes {image : D → Nat → List UInt8} (array : BlockDevice.ArrayDevice image) :
    (∀ (dev : FatDevice D) (call : Call), Sound dev →
      ∃ reply dev', dev.step call = some (reply, dev') ∧ Sound dev' ∧
        CursorStep (view image dev) call reply (view image dev')) ∧
    ∀ device : D, BlockDevice.totalSectors device * BlockDevice.sectorSize device < 2 ^ 64 →
      Sound (new device) ∧
        view image (new device) = ⟨(BlockDevice.disk image device).bytes, 0, BlockDevice.sectorSize device⟩ ∧
        ∀ calls, ∃ replies final, (machine device).run (new device) calls = some (replies, final) ∧
          Machine.Trace CursorStep (view image (new device)) calls replies (view image final) := by
  refine ⟨fun dev call sound => step_spec array sound call, fun device fits => ⟨sound_new fits, rfl, ?_⟩⟩
  intro calls
  obtain ⟨replies, final, ran, -⟩ := (machine device).run_total
    (fun call sound => by
      obtain ⟨reply, next, stepped, sound', -⟩ := step_spec array sound call
      exact ⟨reply, next, stepped, sound'⟩)
    (sound_new fits) calls
  exact ⟨replies, final, ran,
    Machine.Simulates.trace (simulates array device) (sound_inductive array fits) (sound_new fits) ran⟩

/-- On a one-sector-per-byte disk of three bytes, `new` gives a sound adapter. -/
theorem fat_device_refines_flat_bytes_faulty : Sound (new (⟨[1, 2, 3], 7⟩ : FaultyDisk)) :=
  ((fat_device_refines_flat_bytes FaultyDisk.arrayDevice).2 _ (by decide)).1


/-- On a memory device of `2 ^ 55` sectors of `512` bytes, `2 ^ 64` bytes in
all, the size saturates at `u64::MAX`: a seek to the end stops one byte short
of it, and a read of the byte there returns nothing. -/
theorem fat_device_saturated_size_hides_last_byte :
    BlockDevice.totalSectors (MemoryDevice.zeroed (2 ^ 55)) *
        BlockDevice.sectorSize (MemoryDevice.zeroed (2 ^ 55)) = 2 ^ 64 ∧
      (new (MemoryDevice.zeroed (2 ^ 55))).seek (.«end» 0) =
        (.ok (2 ^ 64 - 1), { new (MemoryDevice.zeroed (2 ^ 55)) with pos := 2 ^ 64 - 1 }) ∧
      ({ new (MemoryDevice.zeroed (2 ^ 55)) with pos := 2 ^ 64 - 1 } : FatDevice MemoryDevice).read [0] =
        some (.ok 0, { new (MemoryDevice.zeroed (2 ^ 55)) with pos := 2 ^ 64 - 1 }, [0]) := by
  have size : BlockDevice.totalSectors (MemoryDevice.zeroed (2 ^ 55)) *
      BlockDevice.sectorSize (MemoryDevice.zeroed (2 ^ 55)) = 2 ^ 64 := rfl
  -- the image stays unevaluated: only the geometry enters the adapter
  have created : new (MemoryDevice.zeroed (2 ^ 55)) =
      ⟨MemoryDevice.zeroed (2 ^ 55), 0, 512, 2 ^ 64 - 1, List.replicate 512 0⟩ := by
    simp only [new, Word.saturatingMul, Word.max, size]
    rfl
  refine ⟨size, ?_, ?_⟩
  · rw [created]
    simp only [seek, Word.saturatingAddSigned, Word.max]
    norm_num
    rfl
  · rw [created]
    simp only [FatDevice.read, le_refl, if_true]

end FatDevice

end Fullerene.Genome
