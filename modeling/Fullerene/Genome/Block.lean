import Fullerene.Lib.Buffer

/-!
# Block devices

`BlockError` and the `BlockDevice` trait of `genome::block`.  A device is a
state type with the four methods of the trait: a transfer returns its result,
the device after it and, for a read, the buffer after it.  The buffer is a
mutable slice, so a read leaves it its length (`length_readSectors`).

`ArrayDevice image` is what a device that is an array of sectors promises:
`image device lba` holds the bytes of sector `lba`; a read changes neither the
sectors nor the geometry, and a successful read of sectors on the device into
a buffer that holds them copies them to the front of the buffer; a successful
write replaces exactly the written sectors, and a failed one changes no other
sector.  A failed read may leave any bytes in the buffer.

`Disk` is the array itself, and `DiskStep` what each call of a sector cache
may do to it: the specification that `BlockCache` is checked against.
-/

namespace Fullerene.Genome

/-- `enum BlockError`. -/
inductive BlockError
  | device
  | bufferTooSmall (required provided : Nat)
  | lbaOverflow
  | sectorNotFound
  deriving DecidableEq, Repr

/-- `trait BlockDevice`. -/
class BlockDevice (D : Type) where
  /-- `read_sectors(lba, count, buf)` -/
  readSectors : D → Nat → Nat → List UInt8 → Except BlockError Unit × D × List UInt8
  /-- `write_sectors(lba, count, buf)` -/
  writeSectors : D → Nat → Nat → List UInt8 → Except BlockError Unit × D
  sectorSize : D → Nat
  totalSectors : D → Nat
  /-- a read fills the slice it is given -/
  length_readSectors (device : D) (lba count : Nat) (buf : List UInt8) :
    (readSectors device lba count buf).2.2.length = buf.length

/-- An array of `totalSectors` sectors of `sectorSize` bytes. -/
structure Disk where
  sectorSize : Nat
  totalSectors : Nat
  sectors : Nat → List UInt8

namespace Disk

/-- The disk with the sectors `lba .. lba + count` taken from `buf`. -/
def overwrite (disk : Disk) (lba count : Nat) (buf : List UInt8) : Disk :=
  { disk with
    sectors := fun sector =>
      if lba ≤ sector ∧ sector < lba + count then buf.chunkAt disk.sectorSize (sector - lba)
      else disk.sectors sector }

/-- A write takes its sectors from the first `count` sectors of the buffer. -/
theorem overwrite_take (disk : Disk) (lba count : Nat) (buf : List UInt8) :
    disk.overwrite lba count (buf.take (count * disk.sectorSize)) = disk.overwrite lba count buf := by
  unfold overwrite
  congr 1
  funext sector
  split_ifs with within
  · exact List.chunkAt_take (Nat.mul_le_mul_right _ (by omega))
  · rfl

/-- `buf` holds the sectors `lba .. lba + count` in its first sectors and is
`before` from there on. -/
def Holds (disk : Disk) (lba count : Nat) (before buf : List UInt8) : Prop :=
  (∀ i < count, buf.chunkAt disk.sectorSize i = disk.sectors (lba + i)) ∧
    buf.drop (count * disk.sectorSize) = before.drop (count * disk.sectorSize)

/-- Copying the content of a sector to the front of a buffer makes the buffer
hold it. -/
theorem holds_copyFromSlice_zero {disk : Disk} {lba : Nat} {buf bytes : List UInt8}
    (content : bytes = disk.sectors lba) (sized : bytes.length = disk.sectorSize) :
    disk.Holds lba 1 buf (buf.copyFromSlice 0 bytes) := by
  refine ⟨fun i first => ?_, ?_⟩
  · obtain rfl : i = 0 := Nat.lt_one_iff.mp first
    rw [List.chunkAt, Nat.zero_mul, List.drop_zero, ← sized, List.take_copyFromSlice_zero, Nat.add_zero, content]
  · exact List.drop_copyFromSlice_of_le (Nat.zero_le _) (by rw [sized]; omega)

/-- `disk'` has the sectors of `disk` outside `lba .. lba + count`. -/
def AgreesOutside (disk disk' : Disk) (lba count : Nat) : Prop :=
  disk'.sectorSize = disk.sectorSize ∧ disk'.totalSectors = disk.totalSectors ∧
    ∀ sector, ¬ (lba ≤ sector ∧ sector < lba + count) → disk'.sectors sector = disk.sectors sector

end Disk

/-- A call of a sector cache. -/
inductive SectorCall
  | readSector (lba : Nat) (buf : List UInt8)
  | getSector (lba : Nat)
  | writeSector (lba : Nat) (buf : List UInt8)
  | readSectors (lba count : Nat) (buf : List UInt8)
  | writeSectors (lba count : Nat) (buf : List UInt8)

/-- What a call of a sector cache returns. -/
inductive SectorReply
  | read (result : Except BlockError Unit) (buf : List UInt8)
  | sector (result : Except BlockError (List UInt8))
  | written (result : Except BlockError Unit)

/-- What each call may do to the disk: reads leave it as it is and return its
sectors when they succeed; a write that succeeds replaces exactly its
sectors, and one that fails changes no other sector. -/
def DiskStep (disk : Disk) : SectorCall → SectorReply → Disk → Prop
  | .readSector lba before, .read result buf, disk' =>
      disk' = disk ∧ (result = .ok () → lba < disk.totalSectors ∧ disk.Holds lba 1 before buf)
  | .getSector lba, .sector result, disk' =>
      disk' = disk ∧ ∀ bytes, result = .ok bytes → lba < disk.totalSectors ∧ bytes = disk.sectors lba
  | .writeSector lba buf, .written result, disk' =>
      (result = .ok () → disk' = disk.overwrite lba 1 buf) ∧ disk.AgreesOutside disk' lba 1
  | .readSectors lba count before, .read result buf, disk' =>
      disk' = disk ∧
        (result = .ok () → lba + count ≤ disk.totalSectors ∧ disk.Holds lba count before buf)
  | .writeSectors lba count buf, .written result, disk' =>
      (result = .ok () → disk' = disk.overwrite lba count buf) ∧ disk.AgreesOutside disk' lba count
  | _, _, _ => False

namespace BlockDevice

variable {D : Type} [BlockDevice D]

/-- The disk a device state stands for. -/
def disk (image : D → Nat → List UInt8) (device : D) : Disk :=
  ⟨sectorSize device, totalSectors device, image device⟩

@[simp]
theorem disk_sectorSize (image : D → Nat → List UInt8) (device : D) :
    (disk image device).sectorSize = sectorSize device := rfl

@[simp]
theorem disk_totalSectors (image : D → Nat → List UInt8) (device : D) :
    (disk image device).totalSectors = totalSectors device := rfl

@[simp]
theorem disk_sectors (image : D → Nat → List UInt8) (device : D) :
    (disk image device).sectors = image device := rfl

/-- The contract of a device that is an array of sectors, read through
`image`. -/
structure ArrayDevice (image : D → Nat → List UInt8) : Prop where
  /-- every sector holds `sector_size` bytes -/
  sized : ∀ {device : D} {lba : Nat}, lba < totalSectors device → (image device lba).length = sectorSize device
  /-- a read leaves the disk as it is -/
  read_disk : ∀ (device : D) lba count buf, disk image (readSectors device lba count buf).2.1 = disk image device
  /-- a successful read copies the sectors to the front of the buffer -/
  read_ok : ∀ {device device' : D} {lba count : Nat} {buf buf' : List UInt8},
    readSectors device lba count buf = (.ok (), device', buf') → lba + count ≤ totalSectors device →
      count * sectorSize device ≤ buf.length → (disk image device).Holds lba count buf buf'
  /-- a successful write replaces exactly its sectors -/
  write_ok : ∀ {device device' : D} {lba count : Nat} {buf : List UInt8},
    writeSectors device lba count buf = (.ok (), device') → lba + count ≤ totalSectors device →
      count * sectorSize device ≤ buf.length → disk image device' = (disk image device).overwrite lba count buf
  /-- any write changes no sector outside its own -/
  write_outside : ∀ (device : D) lba count buf,
    (disk image device).AgreesOutside (disk image (writeSectors device lba count buf).2) lba count

variable (D) in
/-- A failed read leaves the buffer as it was. -/
def KeepsBuffer : Prop :=
  ∀ {device device' : D} {lba count : Nat} {buf buf' : List UInt8} {error : BlockError},
    readSectors device lba count buf = (.error error, device', buf') → buf' = buf

end BlockDevice

end Fullerene.Genome
