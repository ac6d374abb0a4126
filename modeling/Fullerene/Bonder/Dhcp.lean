import Fullerene.Lib.Bytes

/-!
# Parsing a DHCP reply

`DhcpClient::parse_response` checks the fixed 240-byte header of a reply (its
length, the magic cookie, `op` and the transaction id), then walks the options:
a pad byte is skipped, `END` stops the walk, and so does an option that runs
past the end of the data.  The subnet mask, router, DNS server, server id and
lease time are written into the client's lease as their options are met; the
message type is known only when the walk is over, and a reply without one is
refused.

The walk never reads past the data (`parseResponse_ne_none`) and is a fold of
the options before its stop (`optionLoop_options`), so a reply is the header
checks and that fold (`parseResponse_options`).  A refused header leaves the
client as it was (`parseResponse_of_header`); a reply refused for its message
type does not (`parse_response_error_keeps_options`).
-/

namespace Fullerene.Bonder

namespace Dhcp

open Bytes

/-! ## The client -/

def dhcpMagicCookie : List UInt8 := [0x63, 0x82, 0x53, 0x63]

inductive DhcpMessageType
  | discover
  | offer
  | request
  | decline
  | ack
  | nak
  | release
  deriving DecidableEq, Repr

def DhcpMessageType.fromU8 : Nat → Option DhcpMessageType
  | 1 => some .discover
  | 2 => some .offer
  | 3 => some .request
  | 4 => some .decline
  | 5 => some .ack
  | 6 => some .nak
  | 7 => some .release
  | _ => none

def optionSubnetMask : UInt8 := 1
def optionRouter : UInt8 := 3
def optionDnsServer : UInt8 := 6
def optionIpLeaseTime : UInt8 := 51
def optionMessageType : UInt8 := 53
def optionServerId : UInt8 := 54
def optionEnd : UInt8 := 255

inductive DhcpState
  | initial
  | selecting
  | requesting
  | bound
  | renewing
  | released
  deriving DecidableEq, Repr

structure DhcpLease where
  ipAddress : List UInt8
  subnetMask : List UInt8
  router : List UInt8
  dnsServer : List UInt8
  serverId : List UInt8
  leaseTime : Nat
  deriving DecidableEq, Repr

/-- `DhcpLease::new`, the derived default. -/
def DhcpLease.new : DhcpLease :=
  ⟨[0, 0, 0, 0], [0, 0, 0, 0], [0, 0, 0, 0], [0, 0, 0, 0], [0, 0, 0, 0], 0⟩

structure DhcpClient where
  state : DhcpState
  xid : Nat
  lease : DhcpLease
  deriving DecidableEq, Repr

inductive NetError
  | protocol
  deriving DecidableEq, Repr

/-- The fields of `DhcpHeader` that `parse_response` reads. -/
structure DhcpHeader where
  op : UInt8
  xid : List UInt8
  yiaddr : List UInt8
  magic : List UInt8
  deriving DecidableEq, Repr

def DhcpHeader.size : Nat := 240

/-- `read_unaligned` of the header at the start of the data. -/
def DhcpHeader.ofBytes (data : List UInt8) : DhcpHeader :=
  ⟨byteAt data 0, (data.drop 4).take 4, (data.drop 16).take 4, (data.drop 236).take 4⟩

/-- `u32::to_be_bytes`. -/
def toBeBytes32 (value : Nat) : List UInt8 :=
  [UInt8.ofNat (value >>> 24), UInt8.ofNat (value >>> 16), UInt8.ofNat (value >>> 8), UInt8.ofNat value]

/-- `if opt_len >= 4 { self.lease.<field>.copy_from_slice(&opt_data[..4]) }`, the
arm of the subnet mask, the router, the DNS server and the server id. -/
def copyAddress (optData : List UInt8) (lease : DhcpLease) (set : DhcpLease → List UInt8 → DhcpLease) :
    Option DhcpLease :=
  if 4 ≤ optData.length then (checkedSlice optData 0 4).map (set lease) else pure lease

/-- The `match opt` of `parse_response`, on the option's data. -/
def applyOption (opt : UInt8) (optData : List UInt8) (msgType : Option DhcpMessageType) (lease : DhcpLease) :
    Option (Option DhcpMessageType × DhcpLease) :=
  if opt = optionMessageType then
    if 1 ≤ optData.length then do
      let code ← optData[0]?
      pure (DhcpMessageType.fromU8 code.toNat, lease)
    else pure (msgType, lease)
  else if opt = optionSubnetMask then
    (copyAddress optData lease fun lease address => { lease with subnetMask := address }).map (msgType, ·)
  else if opt = optionRouter then
    (copyAddress optData lease fun lease address => { lease with router := address }).map (msgType, ·)
  else if opt = optionDnsServer then
    (copyAddress optData lease fun lease address => { lease with dnsServer := address }).map (msgType, ·)
  else if opt = optionServerId then
    (copyAddress optData lease fun lease address => { lease with serverId := address }).map (msgType, ·)
  else if opt = optionIpLeaseTime ∧ 4 ≤ optData.length then do
    let time ← checkedSlice optData 0 4
    pure (msgType, { lease with leaseTime := beValue time })
  else pure (msgType, lease)

/-- The option walk of `parse_response` from `offset`.  Every round moves on
by at least one byte, so `fuel` of the data's length never runs out; running
out where the walk would go on is `none`. -/
def optionLoop (data : List UInt8) :
    Nat → Nat → Option DhcpMessageType → DhcpLease → Option (Option DhcpMessageType × DhcpLease)
  | 0, offset, msgType, lease => if offset < data.length then none else some (msgType, lease)
  | fuel + 1, offset, msgType, lease =>
      if offset < data.length then do
        let opt ← data[offset]?
        if opt = optionEnd then pure (msgType, lease)
        else if opt = 0 then optionLoop data fuel (offset + 1) msgType lease
        else if offset + 1 ≥ data.length then pure (msgType, lease)
        else do
          let optLen ← data[offset + 1]?
          if offset + 2 + optLen.toNat > data.length then pure (msgType, lease)
          else do
            let optData ← checkedSlice data (offset + 2) optLen.toNat
            let (msgType, lease) ← applyOption opt optData msgType lease
            optionLoop data fuel (offset + 2 + optLen.toNat) msgType lease
      else pure (msgType, lease)

/-- What `parse_response` does once the walk is over. -/
def finish (client : DhcpClient) (header : DhcpHeader) :
    Option DhcpMessageType → Except NetError DhcpMessageType × DhcpClient
  | none => (.error .protocol, client)
  | some msgType =>
      if msgType = .offer ∨ msgType = .ack then
        let client := { client with lease := { client.lease with ipAddress := header.yiaddr } }
        (.ok msgType, if msgType = .ack then { client with state := .bound } else client)
      else (.ok msgType, client)

/-- `DhcpClient::parse_response`: the outer `none` is an index past the end
of the data. -/
def parseResponse (client : DhcpClient) (data : List UInt8) : Option (Except NetError DhcpMessageType × DhcpClient) :=
  if data.length < DhcpHeader.size + 4 then some (.error .protocol, client)
  else
    let header := DhcpHeader.ofBytes data
    if header.magic ≠ dhcpMagicCookie then some (.error .protocol, client)
    else if header.op ≠ 2 then some (.error .protocol, client)
    else if header.xid ≠ toBeBytes32 client.xid then some (.error .protocol, client)
    else do
      let (msgType, lease) ← optionLoop data data.length DhcpHeader.size none client.lease
      pure (finish { client with lease } header msgType)

/-! ## Every read is inside the data -/

theorem copyAddress_eq (optData : List UInt8) (lease : DhcpLease) (set : DhcpLease → List UInt8 → DhcpLease) :
    copyAddress optData lease set = some (if 4 ≤ optData.length then set lease (optData.take 4) else lease) := by
  unfold copyAddress
  split
  · rename_i long
    rw [checkedSlice_of_le (by omega), List.drop_zero, Option.map_some]
  · rfl

theorem applyOption_eq_some (opt : UInt8) (optData : List UInt8) (msgType : Option DhcpMessageType)
    (lease : DhcpLease) : ∃ walked, applyOption opt optData msgType lease = some walked := by
  unfold applyOption
  split
  · split
    · rename_i present
      rw [List.getElem?_eq_getElem (by omega)]
      exact ⟨_, rfl⟩
    · exact ⟨_, rfl⟩
  -- the four address options
  iterate 4
    split
    · rw [copyAddress_eq]
      exact ⟨_, rfl⟩
  split
  · rename_i timed
    rw [checkedSlice_of_le (by omega)]
    exact ⟨_, rfl⟩
  · exact ⟨_, rfl⟩

/-- Each round of the walk moves on by at least one byte, so fuel that
outlasts the data is enough. -/
theorem optionLoop_eq_some {data : List UInt8} :
    ∀ fuel offset msgType lease, data.length ≤ offset + fuel →
      ∃ walked, optionLoop data fuel offset msgType lease = some walked
  | 0, offset, msgType, lease, enough => by
      rw [optionLoop, if_neg (by omega)]
      exact ⟨_, rfl⟩
  | fuel + 1, offset, msgType, lease, enough => by
      unfold optionLoop
      split
      · rename_i inside
        rw [List.getElem?_eq_getElem inside]
        dsimp only [Option.bind_eq_bind, Option.bind_some]
        split
        · exact ⟨_, rfl⟩
        split
        · exact optionLoop_eq_some fuel (offset + 1) msgType lease (by omega)
        split
        · exact ⟨_, rfl⟩
        rename_i second
        rw [List.getElem?_eq_getElem (by omega)]
        dsimp only [Option.bind_eq_bind, Option.bind_some]
        split
        · exact ⟨_, rfl⟩
        rename_i fits
        obtain ⟨⟨walkedType, walkedLease⟩, applied⟩ := applyOption_eq_some data[offset]
          ((data.drop (offset + 2)).take data[offset + 1].toNat) msgType lease
        rw [checkedSlice_of_le (by omega)]
        simp only [Option.bind_some, applied]
        exact optionLoop_eq_some fuel _ walkedType walkedLease (by omega)
      · exact ⟨_, rfl⟩

/-- `parse_response` never indexes past the end of the data. -/
theorem parseResponse_ne_none (client : DhcpClient) (data : List UInt8) : parseResponse client data ≠ none := by
  unfold parseResponse
  split
  · exact Option.some_ne_none _
  dsimp only
  repeat' (split; · exact Option.some_ne_none _)
  obtain ⟨⟨msgType, lease⟩, walked⟩ : ∃ walked, optionLoop data data.length DhcpHeader.size none client.lease = some walked :=
    optionLoop_eq_some _ _ _ _ (by omega)
  rw [walked]
  exact Option.some_ne_none _

/-! ## The options of a reply -/

/-- An option as the format lays it out: a pad byte, or a code other than pad
and `END` with its length and data. -/
inductive DhcpOption
  | pad
  | tagged (record : Tlv) (notPad : record.tag ≠ 0) (notEnd : record.tag ≠ optionEnd)

def DhcpOption.bytes : DhcpOption → List UInt8
  | .pad => [0]
  | .tagged record _ _ => record.bytes

/-- What the walk makes of an option, read on its own. -/
def DhcpOption.apply (walked : Option DhcpMessageType × DhcpLease) :
    DhcpOption → Option (Option DhcpMessageType × DhcpLease)
  | .pad => some walked
  | .tagged record _ _ => applyOption record.tag record.body walked.1 walked.2

/-- Where the walk stops: at the end of the data, at `END`, or at an option
whose length byte or data runs past the end. -/
def Stop : List UInt8 → Prop
  | [] => True
  | [opt] => opt ≠ 0
  | opt :: length :: rest => opt = optionEnd ∨ (opt ≠ 0 ∧ rest.length < length.toNat)

instance : DecidablePred Stop
  | [] => inferInstanceAs (Decidable True)
  | [opt] => inferInstanceAs (Decidable (opt ≠ 0))
  | opt :: length :: rest => inferInstanceAs (Decidable (opt = optionEnd ∨ (opt ≠ 0 ∧ rest.length < length.toNat)))

/-- The walk applies the options before its stop, in order, each read from
its own bytes. -/
theorem optionLoop_options {data tail : List UInt8} (stop : Stop tail) :
    ∀ (options : List DhcpOption) (fuel offset : Nat) (walked : Option DhcpMessageType × DhcpLease),
      data.drop offset = options.flatMap DhcpOption.bytes ++ tail → data.length ≤ offset + fuel →
        optionLoop data fuel offset walked.1 walked.2 = options.foldlM DhcpOption.apply walked
  | [], fuel, offset, walked, dropped, enough => by
      rw [List.flatMap_nil, List.nil_append] at dropped
      match tail, stop with
      | [], _ =>
          -- the data ends here
          have past : ¬ offset < data.length := by
            have length := congrArg List.length dropped
            rw [List.length_drop, List.length_nil] at length
            omega
          cases fuel <;> (rw [optionLoop, if_neg past]; rfl)
      | [opt], notPad =>
          -- a last byte that opens an option has no room for its length
          obtain ⟨read, _, total⟩ := drop_eq_cons dropped
          obtain ⟨fuel, rfl⟩ : ∃ rounds, fuel = rounds + 1 := ⟨fuel - 1, by simp at total; omega⟩
          rw [optionLoop, if_pos (by simp at total; omega), read]
          dsimp only [Option.bind_eq_bind, Option.bind_some]
          by_cases atEnd : opt = optionEnd
          · rw [if_pos atEnd]
            rfl
          · rw [if_neg atEnd, if_neg notPad, if_pos (by simp at total; omega)]
            rfl
      | opt :: length :: rest, stops =>
          obtain ⟨read, readLength, _, total⟩ := drop_eq_cons_cons dropped
          obtain ⟨fuel, rfl⟩ : ∃ rounds, fuel = rounds + 1 := ⟨fuel - 1, by omega⟩
          rw [optionLoop, if_pos (by omega), read]
          dsimp only [Option.bind_eq_bind, Option.bind_some]
          rcases stops with atEnd | ⟨notPad, runsPast⟩
          · rw [if_pos atEnd]
            rfl
          · by_cases atEnd : opt = optionEnd
            · rw [if_pos atEnd]
              rfl
            rw [if_neg atEnd, if_neg notPad, if_neg (by omega), readLength]
            dsimp only [Option.bind_eq_bind, Option.bind_some]
            rw [if_pos (by omega)]
            rfl
  | .pad :: options, fuel, offset, walked, dropped, enough => by
      rw [List.flatMap_cons, DhcpOption.bytes, List.singleton_append] at dropped
      obtain ⟨read, rest, total⟩ := drop_eq_cons dropped
      obtain ⟨fuel, rfl⟩ : ∃ rounds, fuel = rounds + 1 := ⟨fuel - 1, by omega⟩
      rw [optionLoop, if_pos (by omega), read]
      dsimp only [Option.bind_eq_bind, Option.bind_some]
      rw [if_neg (by decide), if_pos rfl, List.foldlM_cons]
      exact optionLoop_options stop options fuel (offset + 1) walked rest (by omega)
  | .tagged record notPad notEnd :: options, fuel, offset, walked, dropped, enough => by
      rw [List.flatMap_cons, DhcpOption.bytes, Tlv.bytes, List.cons_append, List.cons_append, List.append_assoc]
        at dropped
      obtain ⟨read, readLength, rest, total⟩ := drop_eq_cons_cons dropped
      simp only [List.append_eq, List.length_append] at rest total
      obtain ⟨fuel, rfl⟩ : ∃ rounds, fuel = rounds + 1 := ⟨fuel - 1, by omega⟩
      have body : (data.drop (offset + 2)).take record.body.length = record.body := by
        rw [rest, List.take_left']
        rfl
      rw [optionLoop, if_pos (by omega), read]
      dsimp only [Option.bind_eq_bind, Option.bind_some]
      rw [if_neg notEnd, if_neg notPad, if_neg (by omega), readLength]
      dsimp only [Option.bind_eq_bind, Option.bind_some]
      rw [Tlv.toNat_length, if_neg (by omega), checkedSlice_of_le (by omega), body, List.foldlM_cons]
      change (applyOption record.tag record.body walked.1 walked.2).bind _ =
        (applyOption record.tag record.body walked.1 walked.2).bind _
      cases applyOption record.tag record.body walked.1 walked.2 with
      | none => rfl
      | some applied =>
          refine optionLoop_options stop options fuel _ applied ?_ (by omega)
          rw [← List.drop_drop, rest, List.drop_left]

/-! ## What a reply does to the client -/

section Reply

variable (client : DhcpClient) (data : List UInt8)

/-- The header checks: long enough, the magic cookie, a reply, and our
transaction. -/
def HeaderAccepted : Prop :=
  DhcpHeader.size + 4 ≤ data.length ∧ (DhcpHeader.ofBytes data).magic = dhcpMagicCookie ∧
    (DhcpHeader.ofBytes data).op = 2 ∧ (DhcpHeader.ofBytes data).xid = toBeBytes32 client.xid

instance : Decidable (HeaderAccepted client data) := by
  unfold HeaderAccepted
  infer_instance

/-- A reply refused by its header leaves the client as it was. -/
theorem parseResponse_of_header (refused : ¬ HeaderAccepted client data) :
    parseResponse client data = some (.error .protocol, client) := by
  unfold parseResponse HeaderAccepted at *
  split
  · rfl
  dsimp only
  split
  · rfl
  split
  · rfl
  split
  · rfl
  rename_i long wrongMagic wrongOp wrongXid
  exact absurd ⟨by omega, not_not.mp wrongMagic, not_not.mp wrongOp, not_not.mp wrongXid⟩ refused

/-- A reply whose header is accepted is the walk over its options, then the
message type. -/
theorem parseResponse_options (accepted : HeaderAccepted client data) {tail : List UInt8} (stop : Stop tail)
    (options : List DhcpOption) (dropped : data.drop DhcpHeader.size = options.flatMap DhcpOption.bytes ++ tail) :
    parseResponse client data = (options.foldlM DhcpOption.apply (none, client.lease)).map fun walked =>
      finish { client with lease := walked.2 } (DhcpHeader.ofBytes data) walked.1 := by
  obtain ⟨long, magic, op, xid⟩ := accepted
  unfold parseResponse
  rw [if_neg (by omega)]
  dsimp only
  rw [if_neg (not_not.mpr magic), if_neg (not_not.mpr op), if_neg (not_not.mpr xid),
    optionLoop_options stop options data.length DhcpHeader.size (none, client.lease) dropped (by omega)]
  cases options.foldlM DhcpOption.apply (none, client.lease) <;> rfl

end Reply

/-- A reply to transaction `0x12345678` that carries a subnet mask and no
message type. -/
def maskOnlyReply : List UInt8 :=
  [2, 1, 6, 0] ++ toBeBytes32 0x12345678 ++ List.replicate 228 0 ++ dhcpMagicCookie ++ [1, 4, 255, 255, 255, 0, 255]

theorem parse_response_error_keeps_options :
    parseResponse ⟨.selecting, 0x12345678, DhcpLease.new⟩ maskOnlyReply =
      some (.error .protocol, ⟨.selecting, 0x12345678, { DhcpLease.new with subnetMask := [255, 255, 255, 0] }⟩) := by
  have accepted : HeaderAccepted ⟨.selecting, 0x12345678, DhcpLease.new⟩ maskOnlyReply :=
    ⟨by simp only [maskOnlyReply, DhcpHeader.size, toBeBytes32, dhcpMagicCookie, List.length_append,
      List.length_replicate, List.length_cons, List.length_nil]; omega, rfl, rfl, rfl⟩
  have dropped : maskOnlyReply.drop DhcpHeader.size =
      [DhcpOption.tagged ⟨optionSubnetMask, [255, 255, 255, 0], by decide⟩ (by decide) (by decide)].flatMap
        DhcpOption.bytes ++ [optionEnd] := rfl
  rw [parseResponse_options _ _ accepted (by decide) _ dropped]
  rfl

end Dhcp

end Fullerene.Bonder
