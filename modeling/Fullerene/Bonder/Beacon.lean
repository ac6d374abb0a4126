import Fullerene.Lib.Bytes

/-!
# Beacons and the security of a scanned network

`parse_beacon` reads an 802.11 beacon or probe response: the 24-byte MAC
header, twelve bytes of fixed parameters, then tagged elements (tag, length,
body) until fewer than two bytes remain or an element runs past the end of the
frame.  It keeps the SSID, the supported rates, the DS channel and the RSN
element, whose cipher and AKM suite selectors are read with
`u32::from_le_bytes`.  `security_from_beacon` classifies the network by the
first AKM selector it recognises, and by the privacy capability bit when none.

Every index the parser reads is inside the frame (`parseBeacon_isSome`), and
the elements before a truncated one are all applied, in order
(`tagLoop_elements`), each read from its own bytes only (`applyTag_slice`).
A suite selector is four octets, OUI then type, and the constants it is
compared with are written as `OUI << 8 | type`: read little-endian, a selector
of the IEEE OUI `00-0F-AC` is never one of them (`akmSecurity_ieee`), so every
RSN network is classified by its privacy bit alone
(`securityFromBeacon_of_ieee`).
-/

namespace Fullerene.Bonder

namespace Wifi

open Bytes

/-! ## The parser -/

/-- `SSID_MAX_LEN`. -/
def ssidMaxLen : Nat := 32

inductive Security
  | open'
  | wep
  | wpaPsk
  | wpa2Psk
  | wpa3Sae
  deriving DecidableEq, Repr

inductive FrameType
  | management
  | control
  | data
  deriving DecidableEq, Repr

def FrameType.fromU8 : Nat → Option FrameType
  | 0 => some .management
  | 1 => some .control
  | 2 => some .data
  | _ => none

inductive MgmtSubtype
  | associationRequest
  | associationResponse
  | reassociationRequest
  | reassociationResponse
  | probeRequest
  | probeResponse
  | beacon
  | disassociation
  | authentication
  | deauthentication
  | action
  deriving DecidableEq, Repr

def MgmtSubtype.fromU8 : Nat → Option MgmtSubtype
  | 0 => some .associationRequest
  | 1 => some .associationResponse
  | 2 => some .reassociationRequest
  | 3 => some .reassociationResponse
  | 4 => some .probeRequest
  | 5 => some .probeResponse
  | 8 => some .beacon
  | 10 => some .disassociation
  | 11 => some .authentication
  | 12 => some .deauthentication
  | 13 => some .action
  | _ => none

/-- `WifiFrameHeader`, read unaligned from the first 24 bytes of a frame. -/
structure WifiFrameHeader where
  frameControl : List UInt8
  durationId : List UInt8
  addr1 : List UInt8
  addr2 : List UInt8
  addr3 : List UInt8
  sequenceControl : List UInt8
  deriving DecidableEq, Repr

def WifiFrameHeader.size : Nat := 24

def WifiFrameHeader.ofBytes (frame : List UInt8) : WifiFrameHeader :=
  ⟨(frame.drop 0).take 2, (frame.drop 2).take 2, (frame.drop 4).take 6, (frame.drop 10).take 6,
    (frame.drop 16).take 6, (frame.drop 22).take 2⟩

def WifiFrameHeader.frameType (header : WifiFrameHeader) : Option FrameType :=
  FrameType.fromU8 (byteAt header.frameControl 0 &&& 0x03).toNat

def WifiFrameHeader.mgmtSubtype (header : WifiFrameHeader) : Option MgmtSubtype :=
  if header.frameType ≠ some .management then none
  else MgmtSubtype.fromU8 ((byteAt header.frameControl 0 >>> 4) &&& 0x0F).toNat

/-- `Ssid(buf, len)`. -/
structure Ssid where
  buf : List UInt8
  len : Nat
  deriving DecidableEq, Repr

structure RsnInfo where
  version : Nat
  groupCipher : Nat
  pairCipherCount : Nat
  pairCiphers : List Nat
  akmCount : Nat
  akms : List Nat
  deriving DecidableEq, Repr

/-- What the tagged elements have set so far. -/
structure Elements where
  ssid : Option Ssid
  rates : List UInt8
  dsChannel : Option UInt8
  rsn : Option RsnInfo
  deriving DecidableEq, Repr

structure BeaconFrame where
  header : WifiFrameHeader
  timestamp : Nat
  beaconInterval : Nat
  capability : Nat
  ssid : Option Ssid
  rates : List UInt8
  dsChannel : Option UInt8
  rsn : Option RsnInfo
  deriving DecidableEq, Repr

/-- The loop `for _ in 0..count` over four-byte suite selectors: a selector
that would pass `tagEnd` is skipped without moving `pos`. -/
def selectorLoop (frame : List UInt8) (tagEnd : Nat) : Nat → Nat → Option (List Nat × Nat)
  | 0, pos => some ([], pos)
  | count + 1, pos =>
      if pos + 4 ≤ tagEnd then do
        let selector ← checkedReadLe frame pos 4
        let (rest, last) ← selectorLoop frame tagEnd count (pos + 4)
        pure (selector :: rest, last)
      else selectorLoop frame tagEnd count pos

/-- `if pos + width <= tag_end { uN::from_le_bytes(..) } else { 0 }`. -/
def guardedReadLe (frame : List UInt8) (tagEnd pos width : Nat) : Option Nat :=
  if pos + width ≤ tagEnd then checkedReadLe frame pos width else pure 0

/-- The RSN arm of `parse_beacon`, on the element of `tagLen` bytes at `offset`. -/
def parseRsn (frame : List UInt8) (offset tagLen : Nat) : Option RsnInfo := do
  let version ← checkedReadLe frame offset 2
  let tagEnd := offset + tagLen
  let groupCipher ← guardedReadLe frame tagEnd (offset + 2) 4
  let pairCipherCount ← guardedReadLe frame tagEnd (offset + 6) 2
  let (pairCiphers, pos) ← selectorLoop frame tagEnd pairCipherCount (offset + 8)
  let akmCount ← guardedReadLe frame tagEnd pos 2
  let (akms, _) ← selectorLoop frame tagEnd akmCount (pos + 2)
  pure ⟨version, groupCipher, pairCipherCount, pairCiphers, akmCount, akms⟩

/-- The `match tag_num` of `parse_beacon`, on the element of `tagLen` bytes at
`offset`. -/
def applyTag (frame : List UInt8) (offset : Nat) (tagNum : UInt8) (tagLen : Nat) (fields : Elements) :
    Option Elements :=
  match tagNum.toNat with
  | 0 => do
      let len := min tagLen ssidMaxLen
      let name ← checkedSlice frame offset len
      pure { fields with ssid := some ⟨name ++ List.replicate (ssidMaxLen - len) 0, len⟩ }
  | 1 => do
      let rates ← checkedSlice frame offset tagLen
      pure { fields with rates }
  | 3 =>
      if 1 ≤ tagLen then do
        let channel ← frame[offset]?
        pure { fields with dsChannel := some channel }
      else pure fields
  | 48 =>
      if 2 ≤ tagLen then do
        let rsn ← parseRsn frame offset tagLen
        pure { fields with rsn := some rsn }
      else pure fields
  | _ => pure fields

/-- The loop over the tagged elements from `offset`.  Every round moves on by
at least two bytes, so `fuel` of the frame's length never runs out; running out
where the loop would go on is `none`. -/
def tagLoop (frame : List UInt8) : Nat → Nat → Elements → Option Elements
  | 0, offset, fields => if offset + 2 ≤ frame.length then none else some fields
  | fuel + 1, offset, fields =>
      if offset + 2 ≤ frame.length then do
        let tagNum ← frame[offset]?
        let tagLen ← frame[offset + 1]?
        if offset + 2 + tagLen.toNat > frame.length then pure fields
        else
          let fields ← applyTag frame (offset + 2) tagNum tagLen.toNat fields
          tagLoop frame fuel (offset + 2 + tagLen.toNat) fields
      else pure fields

/-- `parse_beacon`: the outer `none` is an index past the end of the frame. -/
def parseBeacon (frame : List UInt8) : Option (Option BeaconFrame) :=
  if frame.length < WifiFrameHeader.size + 12 then some none
  else
    let header := WifiFrameHeader.ofBytes frame
    if header.mgmtSubtype = some .beacon ∨ header.mgmtSubtype = some .probeResponse then do
      let offset := WifiFrameHeader.size
      let timestamp ← checkedReadLe frame offset 8
      let beaconInterval ← checkedReadLe frame (offset + 8) 2
      let capability ← checkedReadLe frame (offset + 10) 2
      let fields ← tagLoop frame frame.length (offset + 12) ⟨none, [], none, none⟩
      pure (some ⟨header, timestamp, beaconInterval, capability, fields.ssid, fields.rates, fields.dsChannel,
        fields.rsn⟩)
    else some none

/-- The `match akm` of `security_from_beacon`. -/
def akmSecurity (akm : Nat) : Option Security :=
  if akm = 0x000FAC01 ∨ akm = 0x000FAC05 then some .wpa2Psk
  else if akm = 0x000FAC02 then some .wpaPsk
  else if akm = 0x000FAC08 then some .wpa3Sae
  else none

/-- `security_from_beacon`: the first AKM it recognises decides. -/
def securityFromBeacon (capability : Nat) (rsn : Option RsnInfo) : Security :=
  match ((rsn.map RsnInfo.akms).getD []).findSome? akmSecurity with
  | some security => security
  | none => if (capability >>> 4) &&& 1 ≠ 0 then .wpaPsk else .open'

/-! ## Every read is inside the frame -/

section Reads

variable {frame : List UInt8}

theorem guardedReadLe_of_le {tagEnd : Nat} (inside : tagEnd ≤ frame.length) (pos width : Nat) :
    guardedReadLe frame tagEnd pos width = some (if pos + width ≤ tagEnd then readLe frame pos width else 0) := by
  unfold guardedReadLe
  split
  · exact checkedReadLe_of_le (by omega)
  · rfl

theorem selectorLoop_eq_some {tagEnd : Nat} (inside : tagEnd ≤ frame.length) :
    ∀ count pos, ∃ selectors last, selectorLoop frame tagEnd count pos = some (selectors, last)
  | 0, pos => ⟨[], pos, rfl⟩
  | count + 1, pos => by
      unfold selectorLoop
      split
      · obtain ⟨selectors, last, looped⟩ := selectorLoop_eq_some inside count (pos + 4)
        rw [checkedReadLe_of_le (by omega)]
        exact ⟨_, last, by simp only [Option.bind_eq_bind, Option.bind_some, looped]; rfl⟩
      · exact selectorLoop_eq_some inside count pos

theorem parseRsn_eq_some {offset tagLen : Nat} (inside : offset + tagLen ≤ frame.length) (long : 2 ≤ tagLen) :
    ∃ rsn, parseRsn frame offset tagLen = some rsn := by
  unfold parseRsn
  obtain ⟨pairCiphers, pos, pairs⟩ := selectorLoop_eq_some inside
    (if offset + 6 + 2 ≤ offset + tagLen then readLe frame (offset + 6) 2 else 0) (offset + 8)
  obtain ⟨akms, last, suites⟩ := selectorLoop_eq_some inside
    (if pos + 2 ≤ offset + tagLen then readLe frame pos 2 else 0) (pos + 2)
  simp only [checkedReadLe_of_le (show offset + 2 ≤ frame.length by omega), guardedReadLe_of_le inside,
    Option.bind_eq_bind, Option.bind_some, pairs, suites]
  exact ⟨_, rfl⟩

theorem applyTag_eq_some {offset tagLen : Nat} (inside : offset + tagLen ≤ frame.length) (tagNum : UInt8)
    (fields : Elements) : ∃ fields', applyTag frame offset tagNum tagLen fields = some fields' := by
  unfold applyTag
  split
  · -- the SSID is cut to `SSID_MAX_LEN` bytes
    have cut := Nat.min_le_left tagLen ssidMaxLen
    dsimp only
    rw [checkedSlice_of_le (by omega)]
    exact ⟨_, rfl⟩
  · rw [checkedSlice_of_le inside]
    exact ⟨_, rfl⟩
  · split
    · rw [List.getElem?_eq_getElem (by omega)]
      exact ⟨_, rfl⟩
    · exact ⟨fields, rfl⟩
  · split
    · obtain ⟨rsn, parsed⟩ := parseRsn_eq_some inside (by omega)
      rw [parsed]
      exact ⟨_, rfl⟩
    · exact ⟨fields, rfl⟩
  · exact ⟨fields, rfl⟩

/-- Each round of the loop moves on by at least two bytes, so fuel that
outlasts the frame is enough. -/
theorem tagLoop_eq_some :
    ∀ fuel offset (fields : Elements), frame.length < offset + 2 + fuel →
      ∃ fields', tagLoop frame fuel offset fields = some fields'
  | 0, offset, fields, enough => by
      rw [tagLoop, if_neg (by omega)]
      exact ⟨fields, rfl⟩
  | fuel + 1, offset, fields, enough => by
      unfold tagLoop
      split
      · rw [List.getElem?_eq_getElem (by omega), List.getElem?_eq_getElem (by omega)]
        dsimp only [Option.bind_eq_bind, Option.bind_some]
        split
        · exact ⟨fields, rfl⟩
        · obtain ⟨applied, tagged⟩ :=
            applyTag_eq_some (show offset + 2 + frame[offset + 1].toNat ≤ frame.length by omega) frame[offset] fields
          rw [tagged]
          exact tagLoop_eq_some fuel _ applied (by omega)
      · exact ⟨fields, rfl⟩

/-- `parse_beacon` never indexes past the end of the frame. -/
theorem parseBeacon_ne_none (frame : List UInt8) : parseBeacon frame ≠ none := by
  unfold parseBeacon
  split
  · exact Option.some_ne_none _
  · dsimp only
    split
    · rename_i long _
      rw [WifiFrameHeader.size] at long
      obtain ⟨fields, looped⟩ : ∃ fields, tagLoop frame frame.length (24 + 12) ⟨none, [], none, none⟩ = some fields :=
        tagLoop_eq_some _ _ _ (by omega)
      simp only [WifiFrameHeader.size, checkedReadLe_of_le (show 24 + 8 ≤ frame.length by omega),
        checkedReadLe_of_le (show 24 + 8 + 2 ≤ frame.length by omega),
        checkedReadLe_of_le (show 24 + 10 + 2 ≤ frame.length by omega), Option.bind_eq_bind, Option.bind_some, looped]
      exact Option.some_ne_none _
    · exact Option.some_ne_none _

end Reads

/-! ## Each element is read from its own bytes -/

section Slice

variable {frame : List UInt8} {offset tagLen : Nat}

theorem guardedReadLe_drop_take (slice : offset + tagLen ≤ frame.length) (pos width : Nat) :
    guardedReadLe ((frame.drop offset).take tagLen) tagLen pos width =
      guardedReadLe frame (offset + tagLen) (offset + pos) width := by
  unfold guardedReadLe
  by_cases fits : pos + width ≤ tagLen
  · rw [if_pos fits, if_pos (by omega), checkedReadLe_drop_take slice fits]
  · rw [if_neg fits, if_neg (by omega)]

theorem selectorLoop_drop_take (slice : offset + tagLen ≤ frame.length) :
    ∀ count pos, selectorLoop frame (offset + tagLen) count (offset + pos) =
      (selectorLoop ((frame.drop offset).take tagLen) tagLen count pos).map fun looped => (looped.1, offset + looped.2)
  | 0, pos => rfl
  | count + 1, pos => by
      unfold selectorLoop
      by_cases fits : pos + 4 ≤ tagLen
      · rw [if_pos fits, if_pos (by omega), checkedReadLe_drop_take slice fits, checkedReadLe_of_le (by omega),
          Nat.add_assoc, selectorLoop_drop_take slice count (pos + 4)]
        obtain ⟨rest, last, looped⟩ := selectorLoop_eq_some
          (show tagLen ≤ ((frame.drop offset).take tagLen).length by simp; omega) count (pos + 4)
        simp only [looped, Option.bind_eq_bind, Option.bind_some, Option.map_some]
        rfl
      · rw [if_neg fits, if_neg (by omega)]
        exact selectorLoop_drop_take slice count pos

theorem parseRsn_drop_take (slice : offset + tagLen ≤ frame.length) (long : 2 ≤ tagLen) :
    parseRsn frame offset tagLen = parseRsn ((frame.drop offset).take tagLen) 0 tagLen := by
  have version : checkedReadLe ((frame.drop offset).take tagLen) 0 2 = checkedReadLe frame offset 2 := by
    rw [checkedReadLe_drop_take slice long, Nat.add_zero]
  unfold parseRsn
  dsimp only
  simp only [Nat.zero_add, ← version, ← guardedReadLe_drop_take slice, selectorLoop_drop_take slice,
    Option.bind_eq_bind, Option.bind_map, Function.comp_def, Nat.add_assoc]

theorem applyTag_drop_take (slice : offset + tagLen ≤ frame.length) (tagNum : UInt8) (fields : Elements) :
    applyTag frame offset tagNum tagLen fields = applyTag ((frame.drop offset).take tagLen) 0 tagNum tagLen fields := by
  have sliced : ∀ width, width ≤ tagLen →
      checkedSlice frame offset width = checkedSlice ((frame.drop offset).take tagLen) 0 width := by
    intro width fits
    rw [checkedSlice_drop_take slice (by omega : 0 + width ≤ tagLen), Nat.add_zero]
  unfold applyTag
  split
  · dsimp only
    rw [sliced _ (Nat.min_le_left tagLen ssidMaxLen)]
  · rw [sliced _ (Nat.le_refl tagLen)]
  · split
    · rename_i present
      rw [List.getElem?_take_of_lt (by omega), List.getElem?_drop, Nat.add_zero]
    · rfl
  · split
    · rename_i long
      rw [parseRsn_drop_take slice long]
    · rfl
  · rfl

end Slice

/-! ## The elements of a frame -/

/-- What `parse_beacon` makes of an element, read on its own. -/
def applyElement (fields : Elements) (element : Tlv) : Option Elements :=
  applyTag element.body 0 element.tag element.body.length fields

/-- What follows the last complete element: fewer than two bytes, or an
element whose length runs past the end of the frame. -/
def Truncated : List UInt8 → Prop
  | _ :: length :: rest => rest.length < length.toNat
  | _ => True

/-- The loop applies every complete element before the truncated rest, in
order, each read from its own bytes. -/
theorem tagLoop_elements {frame tail : List UInt8} (truncated : Truncated tail) :
    ∀ (elements : List Tlv) (fuel offset : Nat) (fields : Elements),
      frame.drop offset = elements.flatMap Tlv.bytes ++ tail → frame.length < offset + 2 + fuel →
        tagLoop frame fuel offset fields = elements.foldlM applyElement fields
  | [], fuel, offset, fields, dropped, enough => by
      rw [List.flatMap_nil, List.nil_append] at dropped
      match tail, truncated with
      | first :: length :: rest, runsPast =>
          change rest.length < length.toNat at runsPast
          obtain ⟨tagNum, tagLen, _, total⟩ := drop_eq_cons_cons dropped
          obtain ⟨fuel, rfl⟩ : ∃ rounds, fuel = rounds + 1 := ⟨fuel - 1, by omega⟩
          rw [tagLoop, if_pos (by omega), tagNum, tagLen]
          dsimp only [Option.bind_eq_bind, Option.bind_some]
          rw [if_pos (by omega)]
          rfl
      | [], _ | [_], _ =>
          -- fewer than two bytes are left
          have short : ¬ offset + 2 ≤ frame.length := by
            have length := congrArg List.length dropped
            rw [List.length_drop] at length
            simp only [List.length_nil, List.length_singleton] at length
            omega
          cases fuel <;> (rw [tagLoop, if_neg short]; rfl)
  | element :: elements, fuel, offset, fields, dropped, enough => by
      rw [List.flatMap_cons, Tlv.bytes, List.cons_append, List.cons_append, List.append_assoc] at dropped
      obtain ⟨tagNum, tagLen, rest, total⟩ := drop_eq_cons_cons dropped
      simp only [List.append_eq, List.length_append] at rest total
      obtain ⟨fuel, rfl⟩ : ∃ rounds, fuel = rounds + 1 := ⟨fuel - 1, by omega⟩
      have body : (frame.drop (offset + 2)).take element.body.length = element.body := by
        rw [rest, List.take_left']
        rfl
      rw [tagLoop, if_pos (by omega), tagNum, tagLen]
      dsimp only [Option.bind_eq_bind, Option.bind_some]
      rw [Tlv.toNat_length, if_neg (by omega), applyTag_drop_take (by omega), body, List.foldlM_cons]
      change (applyElement fields element).bind _ = (applyElement fields element).bind _
      cases applyElement fields element with
      | none => rfl
      | some applied =>
          refine tagLoop_elements truncated elements fuel _ applied ?_ (by omega)
          rw [← List.drop_drop, rest, List.drop_left]

/-- A beacon whose elements after the fixed parameters are laid out as the
format says, up to a truncated rest, is parsed as those elements applied in
order. -/
theorem parseBeacon_elements {frame tail : List UInt8} (long : 36 ≤ frame.length)
    (subtype : (WifiFrameHeader.ofBytes frame).mgmtSubtype = some .beacon ∨
      (WifiFrameHeader.ofBytes frame).mgmtSubtype = some .probeResponse)
    (elements : List Tlv) (dropped : frame.drop 36 = elements.flatMap Tlv.bytes ++ tail)
    (truncated : Truncated tail) :
    parseBeacon frame = (elements.foldlM applyElement ⟨none, [], none, none⟩).map fun fields =>
      some ⟨WifiFrameHeader.ofBytes frame, readLe frame 24 8, readLe frame 32 2, readLe frame 34 2, fields.ssid,
        fields.rates, fields.dsChannel, fields.rsn⟩ := by
  unfold parseBeacon
  rw [if_neg (by rw [WifiFrameHeader.size]; omega)]
  dsimp only
  rw [if_pos subtype]
  simp only [WifiFrameHeader.size, checkedReadLe_of_le (show 24 + 8 ≤ frame.length by omega),
    checkedReadLe_of_le (show 24 + 8 + 2 ≤ frame.length by omega),
    checkedReadLe_of_le (show 24 + 10 + 2 ≤ frame.length by omega), Option.bind_eq_bind, Option.bind_some,
    tagLoop_elements truncated elements frame.length (24 + 12) _ dropped (by omega)]
  cases elements.foldlM applyElement ⟨none, [], none, none⟩ <;> rfl

/-! ## Suite selectors -/

/-- Suite selectors laid out in a row are read in order, each little-endian. -/
theorem selectorLoop_layout {frame more : List UInt8} {tagEnd : Nat} (inside : tagEnd ≤ frame.length) :
    ∀ (selectors : List (List UInt8)) (pos : Nat), (∀ selector ∈ selectors, selector.length = 4) →
      frame.drop pos = selectors.flatten ++ more → pos + 4 * selectors.length ≤ tagEnd →
        selectorLoop frame tagEnd selectors.length pos = some (selectors.map leValue, pos + 4 * selectors.length)
  | [], pos, _, _, _ => rfl
  | selector :: selectors, pos, sized, dropped, fits => by
      have four := sized selector List.mem_cons_self
      rw [List.flatten_cons, List.append_assoc] at dropped
      have read : readLe frame pos 4 = leValue selector := by
        rw [readLe, dropped, List.take_left' four]
      have rest : frame.drop (pos + 4) = selectors.flatten ++ more := by
        rw [← List.drop_drop, dropped, ← four, List.drop_left]
      rw [List.length_cons] at fits ⊢
      rw [selectorLoop, if_pos (by omega), checkedReadLe_of_le (by omega), read,
        selectorLoop_layout inside selectors (pos + 4) (fun other member => sized other (List.mem_cons_of_mem _ member))
          rest (by omega)]
      simp only [Option.bind_eq_bind, Option.bind_some, List.map_cons]
      rw [show pos + 4 + 4 * selectors.length = pos + 4 * (selectors.length + 1) by omega]
      rfl

/-- A selector `00-0F-AC:type` read little-endian puts the OUI in the low
three bytes, where every constant of `security_from_beacon` has its type. -/
theorem leValue_ieee (suiteType : UInt8) :
    leValue [0x00, 0x0F, 0xAC, suiteType] = 0xAC0F00 + 0x1000000 * suiteType.toNat := by
  simp only [leValue_cons, leValue_nil]
  have zero : (0x00 : UInt8).toNat = 0 := rfl
  have oui1 : (0x0F : UInt8).toNat = 0x0F := rfl
  have oui2 : (0xAC : UInt8).toNat = 0xAC := rfl
  rw [zero, oui1, oui2]
  omega

theorem akmSecurity_ieee (suiteType : UInt8) : akmSecurity (leValue [0x00, 0x0F, 0xAC, suiteType]) = none := by
  rw [akmSecurity, leValue_ieee, if_neg (by omega), if_neg (by omega), if_neg (by omega)]

/-- An RSN element whose AKM suites all carry the IEEE OUI changes nothing:
the network is classified by its privacy bit alone. -/
theorem securityFromBeacon_of_ieee (capability : Nat) (rsn : RsnInfo)
    (ieee : ∀ akm ∈ rsn.akms, ∃ suiteType : UInt8, akm = leValue [0x00, 0x0F, 0xAC, suiteType]) :
    securityFromBeacon capability (some rsn) = securityFromBeacon capability none := by
  have unmatched : rsn.akms.findSome? akmSecurity = none := by
    rw [List.findSome?_eq_none_iff]
    intro akm member
    obtain ⟨suiteType, rfl⟩ := ieee akm member
    exact akmSecurity_ieee suiteType
  simp only [securityFromBeacon, Option.map_some, Option.getD_some, unmatched, Option.map_none, Option.getD_none,
    List.findSome?_nil]

/-- A beacon of a WPA2-PSK network: privacy set, the SSID `home`, and the RSN
element `build_assoc_request_with_security` itself sends, CCMP with the PSK
AKM `00-0F-AC:2`. -/
def wpa2Beacon : List UInt8 :=
  [0x80, 0x00, 0x00, 0x00] ++ List.replicate 6 0xFF ++ [0x02, 0, 0, 0, 0, 0x01] ++ [0x02, 0, 0, 0, 0, 0x01] ++
    [0x00, 0x00] ++ List.replicate 8 0 ++ [0x64, 0x00, 0x11, 0x00] ++
    [0x00, 0x04, 0x68, 0x6F, 0x6D, 0x65] ++
    [0x30, 20, 0x01, 0x00, 0x00, 0x0F, 0xAC, 0x04, 0x01, 0x00, 0x00, 0x0F, 0xAC, 0x04, 0x01, 0x00,
      0x00, 0x0F, 0xAC, 0x02, 0x00, 0x00]

theorem wpa2_beacon_classified_wpa :
    ∃ beacon, parseBeacon wpa2Beacon = some (some beacon) ∧
      beacon.rsn.map RsnInfo.akms = some [leValue [0x00, 0x0F, 0xAC, 0x02]] ∧
      securityFromBeacon beacon.capability beacon.rsn = .wpaPsk :=
  ⟨_, rfl, rfl, rfl⟩

end Wifi

end Fullerene.Bonder
