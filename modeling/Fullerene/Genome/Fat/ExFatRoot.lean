import Fullerene.Genome.Fs
import Fullerene.Lib.Bytes

/-!
# The exFAT root listing

`ExFatFileSystem::root_entries` lists the root directory without the exFAT
library: `scan_root` hands it the root's sectors in order, each sector is cut
into 32-byte entries, and `consume_entry` collects them.  A file entry
(`0x85`) with a secondary count of `2 ..= 18` opens an entry set; the set is
closed after that many more entries and parsed by `parse_entry`, which wants
a stream extension (`0xC0`) and then file-name entries (`0xC1`) only.  An
entry whose type is `0` ends the scan.

The pending set survives the end of a sector, so the listing depends only on
the entries in order (`visitSectors_eq_feed`), and an entry set is parsed as a
whole wherever it falls (`feed_layout`).  A parsed set names the file with
the first `NameLength` UTF-16 units of its name entries, is a directory when
bit 4 of the attributes is set, and takes its size from bytes `8 .. 16` of the
stream extension, its `ValidDataLength` (`parseEntry_of_names`).  The exFAT
format puts the size of the data, `DataLength`, at bytes `24 .. 32`, and lets
a set end with vendor secondary entries, which make `parse_entry` drop the
file (`root_entries_misreport_sets`).

How `scan_root` follows the root's cluster chain is not modelled: the model
starts from the sectors it reads.
-/

namespace Fullerene.Genome

namespace ExFat

open Bytes

/-- A 32-byte directory entry. -/
abbrev RawEntry := List UInt8

/-- `String::from_utf16_lossy`: UTF-16 code units to characters, a surrogate
without its partner read as `U+FFFD`. -/
def fromUtf16Lossy : List Nat → List Char
  | [] => []
  | [unit] => [if 0xD800 ≤ unit ∧ unit ≤ 0xDFFF then Char.ofNat 0xFFFD else Char.ofNat unit]
  | unit :: next :: rest =>
      if 0xD800 ≤ unit ∧ unit ≤ 0xDBFF ∧ 0xDC00 ≤ next ∧ next ≤ 0xDFFF then
        Char.ofNat (0x10000 + (unit - 0xD800) * 0x400 + (next - 0xDC00)) :: fromUtf16Lossy rest
      else
        (if 0xD800 ≤ unit ∧ unit ≤ 0xDFFF then Char.ofNat 0xFFFD else Char.ofNat unit) ::
          fromUtf16Lossy (next :: rest)

/-- The fifteen UTF-16 units of a file-name entry, bytes `2 .. 32`. -/
def nameUnits (entry : RawEntry) : List Nat :=
  (List.range 15).map fun i => readLe entry (2 + 2 * i) 2

/-- The name loop of `parse_entry` over the entries after the stream
extension: each must be a file-name entry, and each gives units until there
are `nameLen`. -/
def collectName (nameLen : Nat) (name : List Nat) : List RawEntry → Option (List Nat)
  | [] => some name
  | entry :: rest =>
      if byteAt entry 0 ≠ 0xC1 then none
      else collectName nameLen (name ++ (nameUnits entry).take (nameLen - name.length)) rest

/-- `parse_entry`: a file entry, its stream extension and its file-name
entries as one `VNode`. -/
def parseEntry (raw : List RawEntry) : Option VNode :=
  match raw with
  | primary :: stream :: names =>
      if byteAt stream 0 ≠ 0xC0 then none
      else
        let nameLen := byteAt stream 3
        if nameLen = 0 then none
        else
          match collectName nameLen.toNat [] names with
          | none => none
          | some name =>
              if name.length = nameLen.toNat then
                some ⟨fromUtf16Lossy name, readLe stream 8 8, readLe primary 4 2 &&& 0x10 ≠ 0⟩
              else none
  | _ => none

/-- `consume_entry`: `true` ends the scan.  A file entry with a secondary
count of `2 ..= 18` opens a set; a set that has all its entries is parsed and
cleared. -/
def consumeEntry (raw : RawEntry) (pending : List RawEntry) (entries : List VNode) :
    Bool × List RawEntry × List VNode :=
  if byteAt raw 0 = 0 then (true, pending, entries)
  else if pending.isEmpty then
    if byteAt raw 0 = 0x85 ∧ 2 ≤ byteAt raw 1 ∧ byteAt raw 1 ≤ 18 then (false, [raw], entries)
    else (false, pending, entries)
  else
    let pending := pending ++ [raw]
    let expected := (byteAt (pending.headD []) 1).toNat + 1
    if pending.length < expected then (false, pending, entries)
    else
      match parseEntry pending with
      | some entry => (false, [], entries ++ [entry])
      | none => (false, [], entries)

/-- `chunks.any(consume_entry)`: feed entries in order until one ends the scan. -/
def feed : List RawEntry → List RawEntry → List VNode → Bool × List RawEntry × List VNode
  | [], pending, entries => (false, pending, entries)
  | raw :: rest, pending, entries =>
      match consumeEntry raw pending entries with
      | (true, pending, entries) => (true, pending, entries)
      | (false, pending, entries) => feed rest pending entries

/-- `sector.chunks_exact(32)`: the sixteen entries of a 512-byte sector. -/
def sectorEntries (sector : List UInt8) : List RawEntry :=
  (List.range (sector.length / 32)).map fun i => (sector.drop (32 * i)).take 32

/-- The visits of `scan_root` over the sectors it reads, with the pending set
and the listing carried from sector to sector; the scan stops at the first
sector whose visit returns `true`. -/
def visitSectors : List (List UInt8) → List RawEntry → List VNode → Bool × List RawEntry × List VNode
  | [], pending, entries => (false, pending, entries)
  | sector :: rest, pending, entries =>
      match feed (sectorEntries sector) pending entries with
      | (true, pending, entries) => (true, pending, entries)
      | (false, pending, entries) => visitSectors rest pending entries

/-- `root_entries` on the sectors `scan_root` reads. -/
def rootEntries (sectors : List (List UInt8)) : List VNode :=
  (visitSectors sectors [] []).2.2

/-! ## Sectors do not matter -/

/-- Feeding two runs of entries is feeding the first and, unless it ended the
scan, the second. -/
theorem feed_append (first second : List RawEntry) (pending : List RawEntry) (entries : List VNode) :
    feed (first ++ second) pending entries =
      match feed first pending entries with
      | (true, pending, entries) => (true, pending, entries)
      | (false, pending, entries) => feed second pending entries := by
  induction first generalizing pending entries with
  | nil => rfl
  | cons raw rest inductionHypothesis =>
      rw [List.cons_append, feed, feed]
      rcases consumeEntry raw pending entries with ⟨stop, pending', entries'⟩
      cases stop with
      | true => rfl
      | false => exact inductionHypothesis pending' entries'

/-- Cutting a sector into 32-byte entries undoes laying them out. -/
theorem sectorEntries_flatten :
    ∀ entries : List RawEntry, (∀ entry ∈ entries, entry.length = 32) → sectorEntries entries.flatten = entries
  | [], _ => rfl
  | entry :: rest, sized => by
      have entryLength := sized entry List.mem_cons_self
      have tail := sectorEntries_flatten rest fun other member => sized other (List.mem_cons_of_mem _ member)
      have count : (entry :: rest).flatten.length / 32 = rest.flatten.length / 32 + 1 := by
        rw [List.flatten_cons, List.length_append, entryLength]
        omega
      unfold sectorEntries at tail ⊢
      rw [count, List.range_succ_eq_map, List.map_cons, List.map_map, List.flatten_cons]
      -- every later entry starts 32 bytes further into the sector
      have later : (fun i => ((entry ++ rest.flatten).drop (32 * i)).take 32) ∘ Nat.succ =
          fun i => (rest.flatten.drop (32 * i)).take 32 := by
        funext i
        rw [Function.comp_apply, show 32 * i.succ = entry.length + 32 * i by omega, List.drop_length_add_append]
      rw [later, tail, Nat.mul_zero, List.drop_zero, List.take_append_of_le_length (by omega),
        List.take_of_length_le (by omega)]

/-- The visits of the sectors are one feed of all their entries. -/
theorem visitSectors_eq_feed (sectors : List (List UInt8)) (pending : List RawEntry) (entries : List VNode) :
    visitSectors sectors pending entries = feed (sectors.flatMap sectorEntries) pending entries := by
  induction sectors generalizing pending entries with
  | nil => rfl
  | cons sector rest inductionHypothesis =>
      rw [visitSectors, List.flatMap_cons, feed_append]
      rcases feed (sectorEntries sector) pending entries with ⟨stop, pending', entries'⟩
      cases stop with
      | true => rfl
      | false => exact inductionHypothesis pending' entries'

/-! ## Parsing one entry set -/

@[simp]
theorem length_nameUnits (entry : RawEntry) : (nameUnits entry).length = 15 := by
  simp [nameUnits]

theorem length_flatMap_nameUnits (names : List RawEntry) :
    (names.flatMap nameUnits).length = 15 * names.length := by
  induction names with
  | nil => rfl
  | cons entry rest inductionHypothesis =>
      rw [List.flatMap_cons, List.length_append, inductionHypothesis, length_nameUnits, List.length_cons]
      ring

/-- File-name entries give their units in order, up to `nameLen` in all. -/
theorem collectName_of_names {nameLen : Nat} :
    ∀ {names : List RawEntry} {name : List Nat}, (∀ entry ∈ names, byteAt entry 0 = 0xC1) → name.length ≤ nameLen →
      collectName nameLen name names = some (name ++ (names.flatMap nameUnits).take (nameLen - name.length))
  | [], name, _, _ => by simp [collectName]
  | entry :: rest, name, named, short => by
      have isName := named entry List.mem_cons_self
      have grown : (name ++ (nameUnits entry).take (nameLen - name.length)).length =
          name.length + min 15 (nameLen - name.length) := by
        simp [Nat.min_comm]
      rw [collectName, if_neg (by rw [isName]; decide),
        collectName_of_names (fun other member => named other (List.mem_cons_of_mem _ member))
          (by rw [grown]; omega),
        List.flatMap_cons, List.take_append, List.append_assoc, grown, length_nameUnits,
        show nameLen - (name.length + min 15 (nameLen - name.length)) = nameLen - name.length - 15 by omega]

/-- An entry after the stream extension that is not a file-name entry makes
the name loop, and so the whole set, fail. -/
theorem collectName_of_other {nameLen : Nat} :
    ∀ {names : List RawEntry} {name : List Nat}, (∃ entry ∈ names, byteAt entry 0 ≠ 0xC1) →
      collectName nameLen name names = none
  | [], _, ⟨_, member, _⟩ => absurd member List.not_mem_nil
  | entry :: rest, name, ⟨other, member, notName⟩ => by
      rw [collectName]
      by_cases isName : byteAt entry 0 = 0xC1
      · rw [if_neg (not_not.mpr isName)]
        rcases List.mem_cons.mp member with rfl | later
        · exact absurd isName notName
        · exact collectName_of_other ⟨other, later, notName⟩
      · rw [if_pos isName]

/-- A file entry, a stream extension with a name of `1 ..` units and enough
file-name entries after it parse to a node named by the first `NameLength`
units, sized by bytes `8 .. 16` of the stream extension and a directory when
bit 4 of the attributes is set. -/
theorem parseEntry_of_names {primary stream : RawEntry} {names : List RawEntry}
    (isStream : byteAt stream 0 = 0xC0) (named : ∀ entry ∈ names, byteAt entry 0 = 0xC1)
    (positive : byteAt stream 3 ≠ 0) (enough : (byteAt stream 3).toNat ≤ 15 * names.length) :
    parseEntry (primary :: stream :: names) =
      some ⟨fromUtf16Lossy ((names.flatMap nameUnits).take (byteAt stream 3).toNat), readLe stream 8 8,
        readLe primary 4 2 &&& 0x10 ≠ 0⟩ := by
  have unitsLength := length_flatMap_nameUnits names
  unfold parseEntry
  dsimp only
  rw [if_neg (by rw [isStream]; decide), if_neg positive, collectName_of_names named (Nat.zero_le _),
    List.nil_append, List.length_nil, Nat.sub_zero]
  dsimp only
  rw [if_pos (by rw [List.length_take, unitsLength]; omega)]

/-- A set whose secondaries after the stream extension include any entry but
a file-name entry, such as a vendor extension, is not parsed. -/
theorem parseEntry_of_other {primary stream : RawEntry} {names : List RawEntry}
    (other : ∃ entry ∈ names, byteAt entry 0 ≠ 0xC1) : parseEntry (primary :: stream :: names) = none := by
  unfold parseEntry
  dsimp only
  split
  · rfl
  · split
    · rfl
    · rw [collectName_of_other other]

/-! ## Entry sets wherever they fall -/

/-- One piece of a directory: an entry set, or an entry that opens none (a
deleted entry or another primary). -/
inductive Item
  | set (primary : RawEntry) (secondaries : List RawEntry)
  | other (entry : RawEntry)

/-- The entries of a piece, in order. -/
def Item.entries : Item → List RawEntry
  | .set primary secondaries => primary :: secondaries
  | .other entry => [entry]

/-- What the format allows: an entry set is a file entry whose secondary
count, `2 ..= 18`, is the number of entries that follow it, none of them the
end of the directory; another entry is neither the end nor a file entry. -/
def Item.WellFormed : Item → Prop
  | .set primary secondaries =>
      byteAt primary 0 = 0x85 ∧ (byteAt primary 1).toNat = secondaries.length ∧ 2 ≤ secondaries.length ∧
        secondaries.length ≤ 18 ∧ ∀ entry ∈ secondaries, byteAt entry 0 ≠ 0
  | .other entry => byteAt entry 0 ≠ 0 ∧ byteAt entry 0 ≠ 0x85

instance Item.decidableWellFormed : DecidablePred Item.WellFormed := fun item => by
  cases item <;> unfold Item.WellFormed <;> infer_instance

/-- What `parse_entry` makes of a piece. -/
def Item.parsed : Item → Option VNode
  | .set primary secondaries => parseEntry (primary :: secondaries)
  | .other _ => none

/-- Once a set is open, its remaining secondaries fill it up, and the last one
has it parsed and cleared. -/
theorem feed_pending {primary : RawEntry} (more : List RawEntry) :
    ∀ (todo done : List RawEntry) (entries : List VNode),
      (byteAt primary 1).toNat = done.length + todo.length → todo ≠ [] → (∀ entry ∈ todo, byteAt entry 0 ≠ 0) →
      feed (todo ++ more) (primary :: done) entries =
        feed more [] (entries ++ (parseEntry (primary :: (done ++ todo))).toList)
  | [], _, _, _, nonempty, _ => absurd rfl nonempty
  | raw :: todo, done, entries, count, _, inUse => by
      have rawInUse := inUse raw List.mem_cons_self
      rw [List.cons_append, feed]
      cases todo with
      | nil =>
          -- the last secondary closes the set
          have closing : consumeEntry raw (primary :: done) entries =
              (false, [], entries ++ (parseEntry (primary :: (done ++ [raw]))).toList) := by
            unfold consumeEntry
            rw [if_neg rawInUse]
            have full : ¬ (primary :: (done ++ [raw])).length < (byteAt primary 1).toNat + 1 := by
              rw [count]
              simp
            simp only [List.isEmpty_cons, Bool.false_eq_true, if_false, List.cons_append, List.headD_cons, full]
            cases parseEntry (primary :: (done ++ [raw])) <;> simp
          rw [closing, List.nil_append]
      | cons next todo =>
          have waiting : consumeEntry raw (primary :: done) entries = (false, primary :: (done ++ [raw]), entries) := by
            unfold consumeEntry
            rw [if_neg rawInUse]
            have short : (primary :: (done ++ [raw])).length < (byteAt primary 1).toNat + 1 := by
              rw [count]
              simp
            simp only [List.isEmpty_cons, Bool.false_eq_true, if_false, List.cons_append, List.headD_cons, short,
              if_true]
          have later := feed_pending more (next :: todo) (done ++ [raw]) entries
            (by rw [count]; simp; omega) (List.cons_ne_nil _ _)
            (fun entry member => inUse entry (List.mem_cons_of_mem _ member))
          rw [waiting]
          dsimp only
          rw [later, List.append_assoc, List.singleton_append]

/-- A directory laid out as the format allows, up to its end entry, is listed
as the parsed entry sets, in order: sets may span sectors, and entries that
open no set are passed over. -/
theorem feed_layout {end_ : RawEntry} (isEnd : byteAt end_ 0 = 0) (rest : List RawEntry) :
    ∀ (items : List Item) (entries : List VNode), (∀ item ∈ items, item.WellFormed) →
      feed (items.flatMap Item.entries ++ end_ :: rest) [] entries =
        (true, [], entries ++ items.filterMap Item.parsed)
  | [], entries, _ => by
      simp [feed, consumeEntry, isEnd]
  | item :: items, entries, wellFormed => by
      have later := feed_layout isEnd rest items
      rw [List.flatMap_cons, List.append_assoc, List.filterMap_cons]
      cases item with
      | other entry =>
          obtain ⟨inUse, notFile⟩ := wellFormed (.other entry) List.mem_cons_self
          have skipped : consumeEntry entry [] entries = (false, [], entries) := by
            simp [consumeEntry, inUse, notFile]
          simp only [Item.entries, List.singleton_append, feed, skipped, Item.parsed]
          exact later entries fun other member => wellFormed other (List.mem_cons_of_mem _ member)
      | set primary secondaries =>
          obtain ⟨file, count, atLeast, atMost, inUse⟩ := wellFormed (.set primary secondaries) List.mem_cons_self
          have opened : consumeEntry primary [] entries = (false, [primary], entries) := by
            have fileInUse : byteAt primary 0 ≠ 0 := by rw [file]; decide
            unfold consumeEntry
            rw [if_neg fileInUse]
            simp only [List.isEmpty_nil, if_true]
            have lower : (2 : UInt8) ≤ byteAt primary 1 := by
              rw [UInt8.le_iff_toNat_le, count]
              simpa using atLeast
            have upper : byteAt primary 1 ≤ 18 := by
              rw [UInt8.le_iff_toNat_le, count]
              simpa using atMost
            rw [if_pos ⟨file, lower, upper⟩]
          simp only [Item.entries, List.cons_append, feed, opened]
          rw [feed_pending _ secondaries [] entries (by rw [count, List.length_nil, Nat.zero_add])
            (List.ne_nil_of_length_pos (by omega)) inUse, List.nil_append,
            later _ fun other member => wellFormed other (List.mem_cons_of_mem _ member)]
          simp only [Item.parsed, List.append_assoc]
          cases parseEntry (primary :: secondaries) <;> rfl

/-- Two entry sets and then the end of the directory: `A`, 4096 bytes of which
none is written yet (`ValidDataLength` 0, `DataLength` 4096), and `B`, 5
bytes, whose set ends with a vendor secondary entry (`0xE0`). -/
def twoSetEntries : List RawEntry :=
  [[0x85, 2, 0, 0, 0x20] ++ List.replicate 27 0,
    [0xC0, 3, 0, 1] ++ List.replicate 21 0 ++ [0x10] ++ List.replicate 6 0,
    [0xC1, 0, 0x41] ++ List.replicate 29 0,
    [0x85, 3, 0, 0, 0x20] ++ List.replicate 27 0,
    [0xC0, 3, 0, 1, 0, 0, 0, 0, 5] ++ List.replicate 15 0 ++ [5] ++ List.replicate 7 0,
    [0xC1, 0, 0x42] ++ List.replicate 29 0,
    [0xE0] ++ List.replicate 31 0] ++ List.replicate 9 (List.replicate 32 0)

theorem root_entries_misreport_sets :
    readLe (twoSetEntries.getD 1 []) 24 8 = 4096 ∧ byteAt (twoSetEntries.getD 6 []) 0 = 0xE0 ∧
      rootEntries [twoSetEntries.flatten] = [⟨['A'], 0, false⟩] := by
  refine ⟨by decide, by decide, ?_⟩
  have sized : ∀ entry ∈ twoSetEntries, entry.length = 32 := by decide
  have layout : twoSetEntries =
      [Item.set _ [_, _], Item.set _ [_, _, _]].flatMap Item.entries ++ _ :: _ := rfl
  unfold rootEntries
  rw [visitSectors_eq_feed, List.flatMap_cons, List.flatMap_nil, List.append_nil, sectorEntries_flatten _ sized,
    layout, feed_layout (by decide) _ _ _ (by decide)]
  simp only [List.nil_append, List.filterMap_cons, List.filterMap_nil, Item.parsed]
  rw [parseEntry_of_names (by decide) (by decide) (by decide) (by decide), parseEntry_of_other ⟨_, List.mem_cons_of_mem _ List.mem_cons_self, by decide⟩]
  decide

end ExFat

end Fullerene.Genome
