import Mathlib.Tactic.Ring

/-!
# Integers stored in bytes

`leValue` reads a byte string as a little-endian unsigned integer
(`uN::from_le_bytes`) and `beValue` as a big-endian one (`uN::from_be_bytes`);
`readLe` and `readBe` read `width` bytes at an offset.  A field of a
fixed-size record is read at an index that is always inside it, so `byteAt`
reads with a default that is never used there.  Where an index may fall past
the end of a slice, where the source would panic, `checkedSlice`,
`checkedRange`, `checkedReadLe`, `checkedReadBe` and `checkedFill` answer
`none`.

`bigEndian` writes an integer big-endian (`uN::to_be_bytes`), and
`writeBytes` copies bytes over a range (`copy_from_slice` into
`bytes[offset..offset + len]`, always inside the bytes where it is used).

A `Tlv` is a type-length-value record as network formats lay them out: a tag
byte, a length byte and that many bytes.
-/

namespace Bytes

/-- `uN::from_le_bytes`: the first byte is the least significant. -/
def leValue : List UInt8 → Nat
  | [] => 0
  | byte :: rest => byte.toNat + 256 * leValue rest

/-- `uN::from_be_bytes`: the first byte is the most significant. -/
def beValue (bytes : List UInt8) : Nat :=
  bytes.foldl (fun value byte => value * 256 + byte.toNat) 0

/-- The little-endian integer in the `width` bytes at `offset`. -/
def readLe (bytes : List UInt8) (offset width : Nat) : Nat :=
  leValue ((bytes.drop offset).take width)

/-- The big-endian integer in the `width` bytes at `offset`. -/
def readBe (bytes : List UInt8) (offset width : Nat) : Nat :=
  beValue ((bytes.drop offset).take width)

/-- `uN::to_be_bytes` of a `width`-byte integer: the most significant byte first. -/
def bigEndian (width value : Nat) : List UInt8 :=
  (List.range width).reverse.map fun k => (value >>> (8 * k)).toUInt8

/-- `bytes[offset..offset + values.len()].copy_from_slice(values)`. -/
def writeBytes (bytes : List UInt8) (offset : Nat) (values : List UInt8) : List UInt8 :=
  bytes.take offset ++ values ++ bytes.drop (offset + values.length)

/-- Byte `index` of a fixed-size record. -/
def byteAt (bytes : List UInt8) (index : Nat) : UInt8 :=
  bytes.getD index 0

/-- `bytes[offset..offset + len]`, which panics past the end. -/
def checkedSlice (bytes : List UInt8) (offset len : Nat) : Option (List UInt8) :=
  if offset + len ≤ bytes.length then some ((bytes.drop offset).take len) else none

/-- `uN::from_le_bytes` of `width` indexed bytes. -/
def checkedReadLe (bytes : List UInt8) (offset width : Nat) : Option Nat :=
  (checkedSlice bytes offset width).map leValue

/-- `uN::from_be_bytes` of `width` indexed bytes. -/
def checkedReadBe (bytes : List UInt8) (offset width : Nat) : Option Nat :=
  (checkedSlice bytes offset width).map beValue

/-- `bytes[start..stop]`, which panics when the range is reversed or ends past the end. -/
def checkedRange (bytes : List UInt8) (start stop : Nat) : Option (List UInt8) :=
  if start ≤ stop ∧ stop ≤ bytes.length then some ((bytes.drop start).take (stop - start)) else none

/-- `bytes[start..stop].fill(value)`, which panics as `bytes[start..stop]` does. -/
def checkedFill (bytes : List UInt8) (start stop : Nat) (value : UInt8) : Option (List UInt8) :=
  if start ≤ stop ∧ stop ≤ bytes.length then
    some (bytes.mapIdx fun index byte => if start ≤ index ∧ index < stop then value else byte)
  else none

@[simp]
theorem leValue_nil : leValue [] = 0 := rfl

@[simp]
theorem leValue_cons (byte : UInt8) (rest : List UInt8) :
    leValue (byte :: rest) = byte.toNat + 256 * leValue rest := rfl

theorem leValue_lt (bytes : List UInt8) : leValue bytes < 256 ^ bytes.length := by
  induction bytes with
  | nil => simp
  | cons byte rest inductionHypothesis =>
      have small := byte.toNat_lt
      rw [leValue_cons, List.length_cons, Nat.pow_succ]
      omega

theorem checkedSlice_of_le {bytes : List UInt8} {offset len : Nat} (inside : offset + len ≤ bytes.length) :
    checkedSlice bytes offset len = some ((bytes.drop offset).take len) := by
  rw [checkedSlice, if_pos inside]

theorem checkedReadLe_of_le {bytes : List UInt8} {offset width : Nat} (inside : offset + width ≤ bytes.length) :
    checkedReadLe bytes offset width = some (readLe bytes offset width) := by
  rw [checkedReadLe, checkedSlice_of_le inside, Option.map_some, readLe]

theorem checkedReadBe_of_le {bytes : List UInt8} {offset width : Nat} (inside : offset + width ≤ bytes.length) :
    checkedReadBe bytes offset width = some (readBe bytes offset width) := by
  rw [checkedReadBe, checkedSlice_of_le inside, Option.map_some, readBe]

theorem checkedRange_of_le {bytes : List UInt8} {start stop : Nat} (ordered : start ≤ stop)
    (inside : stop ≤ bytes.length) : checkedRange bytes start stop = some ((bytes.drop start).take (stop - start)) := by
  rw [checkedRange, if_pos ⟨ordered, inside⟩]

theorem length_of_checkedRange {bytes part : List UInt8} {start stop : Nat}
    (ranged : checkedRange bytes start stop = some part) : part.length = stop - start := by
  unfold checkedRange at ranged
  split at ranged
  · rename_i inside
    rw [← Option.some.inj ranged, List.length_take, List.length_drop]
    omega
  · cases ranged

theorem checkedFill_of_le {bytes : List UInt8} {start stop : Nat} (value : UInt8) (ordered : start ≤ stop)
    (inside : stop ≤ bytes.length) : ∃ filled, checkedFill bytes start stop value = some filled ∧
      filled.length = bytes.length := by
  rw [checkedFill, if_pos ⟨ordered, inside⟩]
  exact ⟨_, rfl, List.length_mapIdx⟩

/-- A slice of a slice is a slice of the whole. -/
theorem drop_take_drop_take (bytes : List UInt8) {offset len start width : Nat} (inside : start + width ≤ len) :
    (((bytes.drop offset).take len).drop start).take width = (bytes.drop (offset + start)).take width := by
  rw [List.drop_take, List.drop_drop, List.take_take, Nat.min_eq_left (by omega : width ≤ len - start)]

/-- Reading inside a slice is reading the whole at the shifted index. -/
theorem checkedSlice_drop_take {bytes : List UInt8} {offset len start width : Nat}
    (slice : offset + len ≤ bytes.length) (inside : start + width ≤ len) :
    checkedSlice ((bytes.drop offset).take len) start width = checkedSlice bytes (offset + start) width := by
  have sliceLength : ((bytes.drop offset).take len).length = len := by
    rw [List.length_take, List.length_drop]
    omega
  rw [checkedSlice_of_le (by omega), checkedSlice_of_le (by omega), drop_take_drop_take bytes inside]

theorem checkedReadLe_drop_take {bytes : List UInt8} {offset len start width : Nat}
    (slice : offset + len ≤ bytes.length) (inside : start + width ≤ len) :
    checkedReadLe ((bytes.drop offset).take len) start width = checkedReadLe bytes (offset + start) width := by
  rw [checkedReadLe, checkedReadLe, checkedSlice_drop_take slice inside]

section WriteBytes

variable {bytes : List UInt8} {offset : Nat}

@[simp]
theorem length_bigEndian (width value : Nat) : (bigEndian width value).length = width := by
  simp [bigEndian]

theorem length_writeBytes (values : List UInt8) (inside : offset + values.length ≤ bytes.length) :
    (writeBytes bytes offset values).length = bytes.length := by
  simp only [writeBytes, List.length_append, List.length_take, List.length_drop]
  omega

/-- The copied bytes are read back from the range. -/
theorem getD_writeBytes (values : List UInt8) (inside : offset ≤ bytes.length) {index : Nat}
    (within : index < values.length) : (writeBytes bytes offset values).getD (offset + index) 0 = values.getD index 0 := by
  have front : (bytes.take offset).length = offset := by
    rw [List.length_take]
    omega
  rw [writeBytes, List.append_assoc, List.getD_eq_getElem?_getD, List.getElem?_append_right (by omega), front,
    Nat.add_sub_cancel_left, List.getElem?_append_left within, ← List.getD_eq_getElem?_getD]

/-- A copy leaves a field that ends before it as it was. -/
theorem readBe_writeBytes_of_le {values : List UInt8} {start width : Nat} (inside : offset ≤ bytes.length)
    (before : start + width ≤ offset) :
    readBe (writeBytes bytes offset values) start width = readBe bytes start width := by
  have front : (writeBytes bytes offset values).take (start + width) = bytes.take (start + width) := by
    rw [writeBytes, List.append_assoc, List.take_append_of_le_length (by rw [List.length_take]; omega), List.take_take,
      Nat.min_eq_left before]
  rw [readBe, readBe, List.take_drop, front, ← List.take_drop]

/-- A second copy over the same range replaces the first. -/
theorem writeBytes_writeBytes {values values' : List UInt8} (same : values.length = values'.length)
    (inside : offset + values.length ≤ bytes.length) :
    writeBytes (writeBytes bytes offset values) offset values' = writeBytes bytes offset values' := by
  have front : (bytes.take offset).length = offset := by
    rw [List.length_take]
    omega
  have kept : (writeBytes bytes offset values).take offset = bytes.take offset := by
    rw [writeBytes, List.append_assoc, List.take_left' front]
  have rest : (writeBytes bytes offset values).drop (offset + values'.length) =
      bytes.drop (offset + values'.length) := by
    have written : (bytes.take offset ++ values).length = offset + values'.length := by
      rw [List.length_append, front, same]
    rw [writeBytes, List.drop_left' written, same]
  rw [writeBytes, kept, rest, writeBytes]

theorem writeBytes_cons (byte : UInt8) (bytes : List UInt8) (offset : Nat) (values : List UInt8) :
    writeBytes (byte :: bytes) (offset + 1) values = byte :: writeBytes bytes offset values := by
  simp only [writeBytes, List.take_succ_cons, Nat.add_right_comm offset 1, List.drop_succ_cons, List.cons_append]

/-- Copying the bytes already in a range changes nothing. -/
theorem writeBytes_self {width : Nat} (inside : offset + width ≤ bytes.length) :
    writeBytes bytes offset ((bytes.drop offset).take width) = bytes := by
  have width_eq : ((bytes.drop offset).take width).length = width := by
    rw [List.length_take, List.length_drop]
    omega
  rw [writeBytes, width_eq, List.append_assoc, ← List.drop_drop, List.take_append_drop,
    List.take_append_drop]

end WriteBytes

/-- A type-length-value record whose body fits its length byte. -/
structure Tlv where
  tag : UInt8
  body : List UInt8
  fits : body.length < 256

def Tlv.bytes (record : Tlv) : List UInt8 :=
  record.tag :: UInt8.ofNat record.body.length :: record.body

theorem Tlv.toNat_length (record : Tlv) : (UInt8.ofNat record.body.length).toNat = record.body.length :=
  UInt8.toNat_ofNat_of_lt record.fits

/-- What `drop` says of the byte at an offset and of the rest. -/
theorem drop_eq_cons {bytes more : List UInt8} {offset : Nat} {first : UInt8}
    (dropped : bytes.drop offset = first :: more) :
    bytes[offset]? = some first ∧ bytes.drop (offset + 1) = more ∧ bytes.length = offset + 1 + more.length := by
  have length := congrArg List.length dropped
  rw [List.length_drop, List.length_cons] at length
  refine ⟨?_, ?_, by omega⟩
  · rw [← Nat.add_zero offset, ← List.getElem?_drop, dropped]
    rfl
  · rw [← List.drop_drop, dropped]
    rfl

/-- What `drop` says of the two bytes at an offset and of the rest. -/
theorem drop_eq_cons_cons {bytes more : List UInt8} {offset : Nat} {first second : UInt8}
    (dropped : bytes.drop offset = first :: second :: more) :
    bytes[offset]? = some first ∧ bytes[offset + 1]? = some second ∧ bytes.drop (offset + 2) = more ∧
      bytes.length = offset + 2 + more.length := by
  have length := congrArg List.length dropped
  rw [List.length_drop, List.length_cons, List.length_cons] at length
  refine ⟨?_, ?_, ?_, by omega⟩
  · rw [← Nat.add_zero offset, ← List.getElem?_drop, dropped]
    rfl
  · rw [← List.getElem?_drop, dropped]
    rfl
  · rw [← List.drop_drop, dropped]
    rfl

end Bytes
