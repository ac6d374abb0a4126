import Mathlib.Data.Vector.Basic
import Fullerene.Lib.Buffer
import Fullerene.Lib.Checksum

/-!
# The send path of the Bonder UDP logger

`UdpLogger::emit` builds a UDP datagram (`udp::build_datagram`) in its frame
buffer, wraps it in an IPv4 packet (`ipv4::build_packet`) and that in an
Ethernet II frame (`ethernet::build_frame`), and sends the frame.  Each
builder writes its header field by field in network byte order and copies its
payload behind it.

The IPv4 header checksum is computed on the header bytes, then passed through
`to_be()` before `write_to` stores it with `to_be_bytes()`: on the
little-endian target the two conversions compose to the little-endian bytes,
so the checksum word reaches the wire with its bytes swapped.  A receiver's
check then succeeds only when the two bytes are equal, and every other field
a receiver checks is right (`emit_conforms_iff`).  The UDP checksum is stored
once in network order and always verifies (`datagram_verifies`).
-/

namespace Fullerene.Bonder

open OnesComplement

/-! ## Fields -/

/-- `u16::to_be_bytes`. -/
def toBeBytes (word : UInt16) : List UInt8 :=
  [(word >>> 8).toUInt8, word.toUInt8]

/-- `u16::to_be` on the little-endian target the kernel is built for: the two
bytes change places. -/
def toBe (word : UInt16) : UInt16 :=
  word % 256 * 256 + word / 256

/-- `Ipv4Addr`. -/
structure Ipv4Addr where
  octets : List.Vector UInt8 4

/-- `MacAddress`. -/
abbrev MacAddress := List.Vector UInt8 6

/-- `IpProtocol`. -/
inductive IpProtocol
  | icmp
  | tcp
  | udp
  deriving DecidableEq, Repr

/-- `IpProtocol::to_u8`. -/
def IpProtocol.toU8 : IpProtocol → UInt8
  | .icmp => 1
  | .tcp => 6
  | .udp => 17

/-- `EtherType`. -/
inductive EtherType
  | ipv4
  | arp
  deriving DecidableEq, Repr

/-- `EtherType::to_u16`. -/
def EtherType.toU16 : EtherType → UInt16
  | .ipv4 => 0x0800
  | .arp => 0x0806

/-! ## IPv4 -/

/-- `Ipv4Header`. -/
structure Ipv4Header where
  verIhl : UInt8
  dscpEcn : UInt8
  totalLength : UInt16
  identification : UInt16
  flagsFrag : UInt16
  ttl : UInt8
  protocol : UInt8
  headerChecksum : UInt16
  srcAddr : Ipv4Addr
  dstAddr : Ipv4Addr

/-- `Ipv4Header::new`: version 4, IHL 5, no fragmentation, checksum zero. -/
def Ipv4Header.new (totalLength identification : UInt16) (ttl : UInt8) (protocol : IpProtocol)
    (src dst : Ipv4Addr) : Ipv4Header :=
  ⟨0x45, 0, totalLength, identification, 0, ttl, protocol.toU8, 0, src, dst⟩

/-- The twenty bytes `write_to` stores at positions `0` to `19`. -/
def Ipv4Header.toBytes (hdr : Ipv4Header) : List UInt8 :=
  [hdr.verIhl, hdr.dscpEcn] ++ toBeBytes hdr.totalLength ++ toBeBytes hdr.identification ++
    toBeBytes hdr.flagsFrag ++ [hdr.ttl, hdr.protocol] ++ toBeBytes hdr.headerChecksum ++
    hdr.srcAddr.octets.toList ++ hdr.dstAddr.octets.toList

/-- `Ipv4Header::write_to`. -/
def Ipv4Header.writeTo (hdr : Ipv4Header) (buf : List UInt8) : List UInt8 :=
  buf.copyFromSlice 0 hdr.toBytes

/-- `ipv4::checksum`: the complement of the folded sum of the big-endian
words (`sum as u16` keeps the low 16 bits of the folded sum). -/
def checksum (data : List UInt8) : UInt16 :=
  ~~~ (foldCarries (wordSum data)).toUInt16

/-- `ipv4::build_packet` into `dst`: the number of bytes written, or `none`
when `dst` is too small or the packet too long. -/
def buildPacket (src dstAddr : Ipv4Addr) (protocol : IpProtocol) (identification : UInt16)
    (ttl : UInt8) (payload dst : List UInt8) : Option Nat × List UInt8 :=
  let total := 20 + payload.length
  if dst.length < total ∨ 65535 < total then (none, dst)
  else
    let hdr := Ipv4Header.new total.toUInt16 identification ttl protocol src dstAddr
    let hdrBuf := hdr.writeTo (List.replicate 20 0)
    let cs := checksum hdrBuf
    let hdr := { hdr with headerChecksum := toBe cs }
    (some total, (hdr.writeTo dst).copyFromSlice 20 payload)

/-! ## UDP -/

/-- `UdpHeader`. -/
structure UdpHeader where
  srcPort : UInt16
  dstPort : UInt16
  length : UInt16
  checksum : UInt16

/-- `UdpHeader::new`, with the checksum zero. -/
def UdpHeader.new (srcPort dstPort : UInt16) (payloadLen : Nat) : UdpHeader :=
  ⟨srcPort, dstPort, (8 + payloadLen).toUInt16, 0⟩

/-- The eight bytes `write_to` stores. -/
def UdpHeader.toBytes (hdr : UdpHeader) : List UInt8 :=
  toBeBytes hdr.srcPort ++ toBeBytes hdr.dstPort ++ toBeBytes hdr.length ++ toBeBytes hdr.checksum

/-- `UdpHeader::write_to`. -/
def UdpHeader.writeTo (hdr : UdpHeader) (buf : List UInt8) : List UInt8 :=
  buf.copyFromSlice 0 hdr.toBytes

/-- The twelve bytes of the RFC 768 pseudo-header `PseudoHeader::write_to`
stores. -/
def pseudoHeader (src dst : Ipv4Addr) (udpLength : UInt16) : List UInt8 :=
  src.octets.toList ++ dst.octets.toList ++ [0, IpProtocol.udp.toU8] ++ toBeBytes udpLength

/-- `udp_checksum`: the three summing loops over the pseudo-header, the header
with a zero checksum and the payload, then the fold and the complement; a
zero result is sent as `0xFFFF`. -/
def udpChecksum (src dst : Ipv4Addr) (srcPort dstPort : UInt16) (payload : List UInt8) : UInt16 :=
  let totalLen := 8 + payload.length
  let pseudoBuf := (List.replicate 12 0).copyFromSlice 0 (pseudoHeader src dst totalLen.toUInt16)
  let hdrBuf := (UdpHeader.new srcPort dstPort payload.length).writeTo (List.replicate 8 0)
  let sum := wordSum pseudoBuf + wordSum hdrBuf + wordSum payload
  let cs := ~~~ (foldCarries sum).toUInt16
  if cs = 0 then 0xFFFF else cs

/-- `udp::build_datagram` into `dst`. -/
def buildDatagram (src dstAddr : Ipv4Addr) (srcPort dstPort : UInt16) (payload dst : List UInt8) :
    Option Nat × List UInt8 :=
  let total := 8 + payload.length
  if 65535 < total then (none, dst)
  else if dst.length < total then (none, dst)
  else
    let cs := udpChecksum src dstAddr srcPort dstPort payload
    let hdr := { UdpHeader.new srcPort dstPort payload.length with checksum := cs }
    (some total, (hdr.writeTo dst).copyFromSlice 8 payload)

/-! ## Ethernet -/

/-- `ethernet::build_frame` into `dst`. -/
def buildFrame (dstMac srcMac : MacAddress) (ethertype : EtherType) (payload dst : List UInt8) :
    Option Nat × List UInt8 :=
  let total := 14 + payload.length
  if dst.length < total then (none, dst)
  else
    let et := ethertype.toU16
    let dst := ((dst.copyFromSlice 0 dstMac.toList).copyFromSlice 6 srcMac.toList).copyFromSlice 12
      [(et >>> 8).toUInt8, et.toUInt8]
    (some total, dst.copyFromSlice 14 payload)

/-! ## The logger -/

/-- `UdpLogger`: the addresses, the next IPv4 identification and the frame
buffer of 1500 bytes. -/
structure UdpLogger where
  dstIp : Ipv4Addr
  dstPort : UInt16
  srcIp : Ipv4Addr
  srcPort : UInt16
  ipId : UInt16
  frameBuf : List UInt8

/-- `UdpLogger::new`. -/
def UdpLogger.new (dstIp : Ipv4Addr) (dstPort : UInt16) (srcIp : Ipv4Addr) (srcPort : UInt16) :
    UdpLogger :=
  ⟨dstIp, dstPort, srcIp, srcPort, 1, List.replicate 1500 0⟩

@[simp]
theorem UdpLogger.length_frameBuf_new (dstIp : Ipv4Addr) (dstPort : UInt16) (srcIp : Ipv4Addr)
    (srcPort : UInt16) : (UdpLogger.new dstIp dstPort srcIp srcPort).frameBuf.length = 1500 :=
  List.length_replicate ..

/-- The broadcast destination `emit` sends to. -/
def broadcastMac : MacAddress :=
  ⟨[0xFF, 0xFF, 0xFF, 0xFF, 0xFF, 0xFF], rfl⟩

/-- `UdpLogger::emit` from the formatted message bytes on: the frame it hands
to the device, if it sends one, and the logger after. -/
def UdpLogger.emit (logger : UdpLogger) (srcMac : MacAddress) (payload : List UInt8) :
    Option (List UInt8) × UdpLogger :=
  match buildDatagram logger.srcIp logger.dstIp logger.srcPort logger.dstPort payload
      logger.frameBuf with
  | (none, frame) => (none, { logger with frameBuf := frame })
  | (some udpLen, frame) =>
      let udpSlice := frame.take udpLen
      -- `fetch_add(1)` hands out the identification and wraps
      let identification := logger.ipId
      let logger := { logger with ipId := logger.ipId + 1 }
      match buildPacket logger.srcIp logger.dstIp .udp identification 64 udpSlice
          (List.replicate 1500 0) with
      | (none, _) => (none, { logger with frameBuf := frame })
      | (some ipLen, ipBuf) =>
          let ipSlice := ipBuf.take ipLen
          let frame := List.replicate frame.length 0
          match buildFrame broadcastMac srcMac .ipv4 ipSlice frame with
          | (none, frame) => (none, { logger with frameBuf := frame })
          | (some frameLen, frame) => (some (frame.take frameLen), { logger with frameBuf := frame })

/-! ## What a receiver checks -/

/-- What a receiver checks of an Ethernet II frame carrying one IPv4 packet
with one UDP datagram, against the addresses, ports and payload that were
sent; a 16-bit field is read as its big-endian word. -/
structure Conforms (frame : List UInt8) (src dst : Ipv4Addr) (srcPort dstPort : UInt16)
    (payload : List UInt8) : Prop where
  /-- EtherType `0x0800` -/
  etherType : (frame.drop 12).take 2 = [0x08, 0x00]
  /-- version 4 and IHL 5 -/
  versionIhl : (frame.drop 14).take 1 = [0x45]
  /-- the total length is the length of the IPv4 packet -/
  totalLength : wordSum ((frame.drop 16).take 2) = frame.length - 14
  /-- protocol 17 -/
  protocol : (frame.drop 23).take 1 = [17]
  /-- the given addresses -/
  addresses : (frame.drop 26).take 8 = src.octets.toList ++ dst.octets.toList
  /-- the header checksum verifies -/
  headerVerifies : Verifies ((frame.drop 14).take 20)
  /-- the given ports -/
  ports : (frame.drop 34).take 4 = toBeBytes srcPort ++ toBeBytes dstPort
  /-- the UDP length is `8 + |payload|` -/
  udpLength : wordSum ((frame.drop 38).take 2) = 8 + payload.length
  /-- the UDP checksum verifies over the pseudo-header, the header and the payload -/
  udpVerifies : Verifies (pseudoHeader src dst (8 + payload.length).toUInt16 ++ frame.drop 34)
  /-- the UDP checksum is not zero -/
  udpChecksumNonzero : (frame.drop 40).take 2 ≠ [0, 0]
  /-- the payload -/
  payload : frame.drop 42 = payload

/-- The checksum `build_packet` computes for a payload of `length` bytes: on
the header with a zero checksum. -/
def packetChecksum (src dst : Ipv4Addr) (protocol : IpProtocol) (identification : UInt16)
    (ttl : UInt8) (length : Nat) : UInt16 :=
  checksum (Ipv4Header.new (20 + length).toUInt16 identification ttl protocol src dst).toBytes

/-- The IPv4 header `build_packet` stores for a payload of `length` bytes: its
checksum passed through `to_be`. -/
def packetHeader (src dst : Ipv4Addr) (protocol : IpProtocol) (identification : UInt16) (ttl : UInt8)
    (length : Nat) : Ipv4Header :=
  { Ipv4Header.new (20 + length).toUInt16 identification ttl protocol src dst with
    headerChecksum := toBe (packetChecksum src dst protocol identification ttl length) }

/-- The UDP header `build_datagram` stores. -/
def datagramHeader (src dst : Ipv4Addr) (srcPort dstPort : UInt16) (payload : List UInt8) : UdpHeader :=
  { UdpHeader.new srcPort dstPort payload.length with
    checksum := udpChecksum src dst srcPort dstPort payload }

/-! ## Byte order and lengths -/

theorem toBeBytes_eq_beBytes (word : UInt16) : toBeBytes word = beBytes word.toNat := by
  have small := word.toNat_lt
  simp only [toBeBytes, beBytes, List.cons.injEq, and_true]
  constructor <;> apply UInt8.toNat_inj.mp <;> simp
  omega

theorem toNat_toBe (word : UInt16) : (toBe word).toNat = word.toNat % 256 * 256 + word.toNat / 256 := by
  have small := word.toNat_lt
  simp only [toBe, UInt16.toNat_add, UInt16.toNat_mul, UInt16.toNat_mod, UInt16.toNat_div,
    UInt16.reduceToNat]
  omega

/-- `!(sum as u16)` of a folded sum. -/
theorem toNat_complement {folded : Nat} (small : folded < 65536) :
    (~~~ folded.toUInt16).toNat = 0xFFFF - folded := by
  simp
  omega

theorem toNat_checksum (data : List UInt8) :
    (checksum data).toNat = 0xFFFF - foldCarries (wordSum data) :=
  toNat_complement (foldCarries_lt _)

@[simp]
theorem length_toBeBytes (word : UInt16) : (toBeBytes word).length = 2 := rfl

@[simp]
theorem take_toBeBytes (word : UInt16) {n : Nat} (enough : 2 ≤ n) :
    (toBeBytes word).take n = toBeBytes word :=
  List.take_of_length_le (by simpa using enough)

@[simp]
theorem drop_toBeBytes (word : UInt16) {n : Nat} (enough : 2 ≤ n) : (toBeBytes word).drop n = [] :=
  List.drop_eq_nil_of_le (by simpa using enough)

@[simp]
theorem wordSum_toBeBytes (word : UInt16) : wordSum (toBeBytes word) = word.toNat := by
  rw [toBeBytes_eq_beBytes, wordSum_beBytes word.toNat_lt]

@[simp]
theorem Ipv4Header.length_toBytes (hdr : Ipv4Header) : hdr.toBytes.length = 20 := by
  simp [toBytes]

@[simp]
theorem UdpHeader.length_toBytes (hdr : UdpHeader) : hdr.toBytes.length = 8 := by
  simp [toBytes]

theorem Ipv4Header.length_writeTo (hdr : Ipv4Header) {buf : List UInt8} (fits : 20 ≤ buf.length) :
    (hdr.writeTo buf).length = buf.length :=
  List.length_copyFromSlice (by simpa using fits)

theorem UdpHeader.length_writeTo (hdr : UdpHeader) {buf : List UInt8} (fits : 8 ≤ buf.length) :
    (hdr.writeTo buf).length = buf.length :=
  List.length_copyFromSlice (by simpa using fits)

@[simp]
theorem length_pseudoHeader (src dst : Ipv4Addr) (udpLength : UInt16) :
    (pseudoHeader src dst udpLength).length = 12 := by
  simp [pseudoHeader]

/-! ## What each builder stores -/

section Builders

variable {src dstAddr : Ipv4Addr} {payload dst buf : List UInt8} {total : Nat}

theorem buildDatagram_eq_some {srcPort dstPort : UInt16}
    (built : buildDatagram src dstAddr srcPort dstPort payload dst = (some total, buf)) :
    total = 8 + payload.length ∧ total ≤ 65535 ∧
      buf.take total = (datagramHeader src dstAddr srcPort dstPort payload).toBytes ++ payload := by
  unfold buildDatagram at built
  dsimp only at built
  split_ifs at built with tooLong tooSmall
  · cases (Prod.mk.inj built).1
  · cases (Prod.mk.inj built).1
  obtain ⟨stored, rfl⟩ := Prod.mk.inj built
  rw [Option.some.injEq] at stored
  subst stored
  refine ⟨rfl, by omega, ?_⟩
  -- the header fills the first eight bytes, the payload follows
  have header := List.take_copyFromSlice_zero dst (datagramHeader src dstAddr srcPort dstPort payload).toBytes
  rw [UdpHeader.length_toBytes] at header
  exact List.take_copyFromSlice (UdpHeader.length_toBytes _) header

theorem buildPacket_eq_some {protocol : IpProtocol} {identification : UInt16} {ttl : UInt8}
    (built : buildPacket src dstAddr protocol identification ttl payload dst = (some total, buf)) :
    total = 20 + payload.length ∧ total ≤ 65535 ∧
      buf.take total =
        (packetHeader src dstAddr protocol identification ttl payload.length).toBytes ++ payload := by
  unfold buildPacket at built
  dsimp only at built
  split_ifs at built with refused
  · cases (Prod.mk.inj built).1
  obtain ⟨stored, rfl⟩ := Prod.mk.inj built
  rw [Option.some.injEq] at stored
  subst stored
  refine ⟨rfl, by omega, ?_⟩
  -- the checksum is computed on the header written into twenty zero bytes
  have written : ∀ hdr : Ipv4Header, hdr.writeTo (List.replicate 20 0) = hdr.toBytes :=
    fun hdr => List.copyFromSlice_zero_of_length (by simp)
  simp only [written]
  have header := List.take_copyFromSlice_zero dst
    (packetHeader src dstAddr protocol identification ttl payload.length).toBytes
  rw [Ipv4Header.length_toBytes] at header
  exact List.take_copyFromSlice (Ipv4Header.length_toBytes _) header

theorem buildFrame_eq_some {dstMac srcMac : MacAddress} {ethertype : EtherType}
    (built : buildFrame dstMac srcMac ethertype payload dst = (some total, buf)) :
    total = 14 + payload.length ∧
      buf.take total = dstMac.toList ++ srcMac.toList ++
        [(ethertype.toU16 >>> 8).toUInt8, ethertype.toU16.toUInt8] ++ payload := by
  unfold buildFrame at built
  dsimp only at built
  split_ifs at built with tooSmall
  · cases (Prod.mk.inj built).1
  obtain ⟨stored, rfl⟩ := Prod.mk.inj built
  rw [Option.some.injEq] at stored
  subst stored
  refine ⟨rfl, ?_⟩
  -- four copies, each right behind the ones before
  have first := List.take_copyFromSlice_zero dst dstMac.toList
  rw [List.Vector.toList_length] at first
  have second := @List.take_copyFromSlice _ _ _ srcMac.toList _ (List.Vector.toList_length _) first
  simp only [List.Vector.toList_length, Nat.reduceAdd] at second
  have third := @List.take_copyFromSlice _ _ _
    [(ethertype.toU16 >>> 8).toUInt8, ethertype.toU16.toUInt8] _ (by simp) second
  simp only [List.length_cons, List.length_nil, Nat.reduceAdd] at third
  exact List.take_copyFromSlice (by simp) third

/-- `build_datagram` succeeds on a buffer that holds the datagram, and keeps
the buffer's length. -/
theorem buildDatagram_of_fits {srcPort dstPort : UInt16} (fits : 8 + payload.length ≤ dst.length)
    (short : 8 + payload.length ≤ 65535) :
    ∃ buf, buildDatagram src dstAddr srcPort dstPort payload dst = (some (8 + payload.length), buf) ∧
      buf.length = dst.length := by
  unfold buildDatagram
  dsimp only
  rw [if_neg (by omega), if_neg (by omega)]
  refine ⟨_, rfl, ?_⟩
  rw [List.length_copyFromSlice (by rw [UdpHeader.length_writeTo _ (by omega)]; omega),
    UdpHeader.length_writeTo _ (by omega)]

theorem buildPacket_of_fits {protocol : IpProtocol} {identification : UInt16} {ttl : UInt8}
    (fits : 20 + payload.length ≤ dst.length) (short : 20 + payload.length ≤ 65535) :
    ∃ buf, buildPacket src dstAddr protocol identification ttl payload dst =
      (some (20 + payload.length), buf) ∧ buf.length = dst.length := by
  unfold buildPacket
  dsimp only
  rw [if_neg (by omega)]
  refine ⟨_, rfl, ?_⟩
  rw [List.length_copyFromSlice (by rw [Ipv4Header.length_writeTo _ (by omega)]; omega),
    Ipv4Header.length_writeTo _ (by omega)]

theorem buildFrame_of_fits {dstMac srcMac : MacAddress} {ethertype : EtherType}
    (fits : 14 + payload.length ≤ dst.length) :
    ∃ buf, buildFrame dstMac srcMac ethertype payload dst = (some (14 + payload.length), buf) := by
  unfold buildFrame
  dsimp only
  rw [if_neg (by omega)]
  exact ⟨_, rfl⟩

end Builders

/-! ## The two checksums -/

theorem toNat_udpChecksum (src dst : Ipv4Addr) (srcPort dstPort : UInt16) (payload : List UInt8) :
    (udpChecksum src dst srcPort dstPort payload).toNat =
      let sum := wordSum (pseudoHeader src dst (8 + payload.length).toUInt16) +
        wordSum (UdpHeader.new srcPort dstPort payload.length).toBytes + wordSum payload
      if 0xFFFF - foldCarries sum = 0 then 0xFFFF else 0xFFFF - foldCarries sum := by
  have pseudoBuf : (List.replicate 12 0).copyFromSlice 0
      (pseudoHeader src dst (8 + payload.length).toUInt16) =
        pseudoHeader src dst (8 + payload.length).toUInt16 :=
    List.copyFromSlice_zero_of_length (by simp)
  have hdrBuf : (UdpHeader.new srcPort dstPort payload.length).writeTo (List.replicate 8 0) =
      (UdpHeader.new srcPort dstPort payload.length).toBytes :=
    List.copyFromSlice_zero_of_length (by simp)
  simp only [udpChecksum, pseudoBuf, hdrBuf]
  generalize summed : foldCarries (wordSum (pseudoHeader src dst (8 + payload.length).toUInt16) +
    wordSum (UdpHeader.new srcPort dstPort payload.length).toBytes + wordSum payload) = folded
  have small : folded < 65536 := by
    rw [← summed]
    exact foldCarries_lt _
  have value := toNat_complement small
  -- the complement is zero exactly when its value is
  split_ifs with zero valueZero valueZero
  · rfl
  · rw [zero] at value
    cases valueZero value.symm
  · exact absurd (UInt16.toNat_inj.mp (show (~~~ folded.toUInt16).toNat = (0 : UInt16).toNat from
      value.trans valueZero)) zero
  · exact value

/-- The UDP checksum is never zero. -/
theorem udpChecksum_ne_zero (src dst : Ipv4Addr) (srcPort dstPort : UInt16) (payload : List UInt8) :
    udpChecksum src dst srcPort dstPort payload ≠ 0 := by
  unfold udpChecksum
  dsimp only
  split_ifs with zero
  · decide
  · exact zero

/-- The UDP checksum verifies over the pseudo-header, the header and the
payload. -/
theorem datagram_verifies (src dst : Ipv4Addr) (srcPort dstPort : UInt16) (payload : List UInt8) :
    Verifies (pseudoHeader src dst (8 + payload.length).toUInt16 ++
      (datagramHeader src dst srcPort dstPort payload).toBytes ++ payload) := by
  -- the checksum word sits after eighteen bytes of pseudo-header and header
  have split : pseudoHeader src dst (8 + payload.length).toUInt16 ++
      (datagramHeader src dst srcPort dstPort payload).toBytes ++ payload =
        (pseudoHeader src dst (8 + payload.length).toUInt16 ++ toBeBytes srcPort ++ toBeBytes dstPort ++
          toBeBytes (8 + payload.length).toUInt16) ++
        beBytes (udpChecksum src dst srcPort dstPort payload).toNat ++ payload := by
    simp [datagramHeader, UdpHeader.new, UdpHeader.toBytes, toBeBytes_eq_beBytes]
  have zeroed : wordSum (pseudoHeader src dst (8 + payload.length).toUInt16) +
      wordSum (UdpHeader.new srcPort dstPort payload.length).toBytes + wordSum payload =
        wordSum ((pseudoHeader src dst (8 + payload.length).toUInt16 ++ toBeBytes srcPort ++
          toBeBytes dstPort ++ toBeBytes (8 + payload.length).toUInt16) ++ [0, 0] ++ payload) := by
    rw [wordSum_append (by simp), wordSum_append (by simp), wordSum_append (by simp)]
    simp [UdpHeader.new, UdpHeader.toBytes, wordSum_append, wordSum]
    omega
  rw [split, toNat_udpChecksum]
  dsimp only
  rw [zeroed]
  exact verifies_of_complement_or_max (by simp)

/-- The stored IPv4 header has the bytes of the header with a zero checksum
around a checksum word whose two bytes are swapped. -/
theorem packetHeader_toBytes (src dst : Ipv4Addr) (protocol : IpProtocol) (identification : UInt16)
    (ttl : UInt8) (length : Nat) :
    ∃ before after, before.length = 10 ∧ 0 < wordSum (before ++ [0, 0] ++ after) ∧
      (Ipv4Header.new (20 + length).toUInt16 identification ttl protocol src dst).toBytes =
        before ++ [0, 0] ++ after ∧
      (packetHeader src dst protocol identification ttl length).toBytes =
        before ++ beBytes ((packetChecksum src dst protocol identification ttl length).toNat % 256 * 256 +
          (packetChecksum src dst protocol identification ttl length).toNat / 256) ++ after := by
  refine ⟨[0x45, 0] ++ toBeBytes (20 + length).toUInt16 ++ toBeBytes identification ++ toBeBytes 0 ++
    [ttl, protocol.toU8], src.octets.toList ++ dst.octets.toList, rfl, ?_, ?_, ?_⟩
  · -- the first byte is `0x45`
    simp only [List.append_assoc, List.cons_append, List.nil_append, wordSum, UInt8.reduceToNat]
    omega
  · simp [Ipv4Header.new, Ipv4Header.toBytes, toBeBytes]
  · simp [packetHeader, Ipv4Header.new, Ipv4Header.toBytes, toBeBytes_eq_beBytes, toNat_toBe]

/-- The IPv4 header `build_packet` stores verifies exactly when the two bytes
of its checksum are equal. -/
theorem packetHeader_verifies_iff (src dst : Ipv4Addr) (protocol : IpProtocol) (identification : UInt16)
    (ttl : UInt8) (length : Nat) :
    Verifies (packetHeader src dst protocol identification ttl length).toBytes ↔
      (packetChecksum src dst protocol identification ttl length).toNat / 256 =
        (packetChecksum src dst protocol identification ttl length).toNat % 256 := by
  obtain ⟨before, after, even, positive, zeroed, stored⟩ :=
    packetHeader_toBytes src dst protocol identification ttl length
  have small := (packetChecksum src dst protocol identification ttl length).toNat_lt
  have complement : (packetChecksum src dst protocol identification ttl length).toNat / 256 * 256 +
      (packetChecksum src dst protocol identification ttl length).toNat % 256 =
        0xFFFF - foldCarries (wordSum (before ++ [0, 0] ++ after)) := by
    rw [← zeroed, ← toNat_checksum]
    unfold packetChecksum
    omega
  rw [stored]
  exact verifies_swapped_iff (by omega) positive complement (by omega) (by omega)

/-! ## The frames `emit` sends -/

section Emit

variable {logger after : UdpLogger} {srcMac : MacAddress} {payload frame : List UInt8}

/-- A frame `emit` sends is the broadcast and source addresses, the IPv4
EtherType, the stored IPv4 header, the stored UDP header and the payload. -/
theorem emit_eq_some (sent : logger.emit srcMac payload = (some frame, after)) :
    20 + (8 + payload.length) ≤ 65535 ∧
      frame = broadcastMac.toList ++ srcMac.toList ++ [0x08, 0x00] ++
        (packetHeader logger.srcIp logger.dstIp .udp logger.ipId 64 (8 + payload.length)).toBytes ++
        (datagramHeader logger.srcIp logger.dstIp logger.srcPort logger.dstPort payload).toBytes ++
        payload := by
  unfold UdpLogger.emit at sent
  split at sent
  · cases (Prod.mk.inj sent).1
  rename_i udpLen udpBuf datagram
  obtain ⟨rfl, -, udpBytes⟩ := buildDatagram_eq_some datagram
  dsimp only at sent
  split at sent
  · cases (Prod.mk.inj sent).1
  rename_i ipLen ipBuf packet
  rw [udpBytes] at packet
  obtain ⟨rfl, ipFits, ipBytes⟩ := buildPacket_eq_some packet
  split at sent
  · cases (Prod.mk.inj sent).1
  rename_i frameLen frameBuf framed
  rw [ipBytes] at framed
  obtain ⟨rfl, frameBytes⟩ := buildFrame_eq_some framed
  obtain ⟨sentFrame, -⟩ := Prod.mk.inj sent
  rw [Option.some.injEq] at sentFrame
  subst sentFrame
  -- the datagram is eight bytes of header and the payload
  have udpLength : ((datagramHeader logger.srcIp logger.dstIp logger.srcPort logger.dstPort
      payload).toBytes ++ payload).length = 8 + payload.length := by simp
  refine ⟨by simpa using ipFits, ?_⟩
  rw [frameBytes, udpLength]
  simp only [List.append_assoc]
  rfl

section Layout

variable {dstMac srcMac : MacAddress} {ip : Ipv4Header} {udp : UdpHeader} {payload : List UInt8}

theorem drop_ipHeader :
    (dstMac.toList ++ srcMac.toList ++ [0x08, 0x00] ++ ip.toBytes ++ udp.toBytes ++ payload).drop 14 =
      ip.toBytes ++ udp.toBytes ++ payload := by
  simp [List.drop_append, List.drop_eq_nil_of_le]

theorem drop_udpHeader :
    (dstMac.toList ++ srcMac.toList ++ [0x08, 0x00] ++ ip.toBytes ++ udp.toBytes ++ payload).drop 34 =
      udp.toBytes ++ payload := by
  simp [List.drop_append, List.drop_eq_nil_of_le]

/-- A frame laid out as `emit` lays it out has the fields a receiver checks
when its two headers carry them. -/
theorem conforms_of_layout {src dst : Ipv4Addr} {srcPort dstPort : UInt16}
    (verIhl : ip.verIhl = 0x45) (totalLength : ip.totalLength.toNat = 20 + (8 + payload.length))
    (protocol : ip.protocol = 17) (srcAddr : ip.srcAddr = src) (dstAddr : ip.dstAddr = dst)
    (headerVerifies : Verifies ip.toBytes) (srcPorted : udp.srcPort = srcPort)
    (dstPorted : udp.dstPort = dstPort) (length : udp.length = (8 + payload.length).toUInt16)
    (fits : 8 + payload.length < 65536)
    (udpVerifies : Verifies (pseudoHeader src dst udp.length ++ udp.toBytes ++ payload))
    (nonzero : udp.checksum ≠ 0) :
    Conforms (dstMac.toList ++ srcMac.toList ++ [0x08, 0x00] ++ ip.toBytes ++ udp.toBytes ++ payload)
      src dst srcPort dstPort payload := by
  -- a field at an offset within a header is read from that header
  have atIp : ∀ n, (dstMac.toList ++ srcMac.toList ++ [0x08, 0x00] ++ ip.toBytes ++ udp.toBytes ++
      payload).drop (14 + n) = (ip.toBytes ++ udp.toBytes ++ payload).drop n := by
    intro n
    rw [← List.drop_drop, drop_ipHeader]
  have atUdp : ∀ n, (dstMac.toList ++ srcMac.toList ++ [0x08, 0x00] ++ ip.toBytes ++ udp.toBytes ++
      payload).drop (34 + n) = (udp.toBytes ++ payload).drop n := by
    intro n
    rw [← List.drop_drop, drop_udpHeader]
  constructor
  case etherType => simp [List.drop_append, List.drop_eq_nil_of_le]
  case versionIhl =>
    rw [drop_ipHeader]
    simp [Ipv4Header.toBytes, verIhl]
  case totalLength =>
    rw [show 16 = 14 + 2 from rfl, atIp]
    simp [Ipv4Header.toBytes, List.take_append, totalLength]
    omega
  case protocol =>
    rw [show 23 = 14 + 9 from rfl, atIp]
    simp [Ipv4Header.toBytes, toBeBytes, protocol]
  case addresses =>
    rw [show 26 = 14 + 12 from rfl, atIp]
    simp [Ipv4Header.toBytes, toBeBytes, List.take_append, List.take_of_length_le, srcAddr, dstAddr]
  case headerVerifies =>
    rw [drop_ipHeader]
    simpa [List.take_append, List.take_of_length_le] using headerVerifies
  case ports =>
    rw [drop_udpHeader]
    simp [UdpHeader.toBytes, List.take_append, srcPorted, dstPorted]
  case udpLength =>
    rw [show 38 = 34 + 4 from rfl, atUdp]
    simp [UdpHeader.toBytes, List.drop_append, List.take_append, length]
    omega
  case udpVerifies =>
    rw [drop_udpHeader, ← length]
    simpa using udpVerifies
  case udpChecksumNonzero =>
    rw [show 40 = 34 + 6 from rfl, atUdp]
    simp [UdpHeader.toBytes, List.drop_append, List.take_append]
    -- a zero word would be a zero checksum
    intro zero
    have value := congrArg wordSum zero
    simp [wordSum] at value
    exact nonzero (UInt16.toNat_inj.mp (show udp.checksum.toNat = (0 : UInt16).toNat from value))
  case payload =>
    rw [show 42 = 34 + 8 from rfl, atUdp]
    simp

/-- The IPv4 header of a conforming frame laid out as `emit` lays it out
verifies. -/
theorem headerVerifies_of_conforms {src dst : Ipv4Addr} {srcPort dstPort : UInt16}
    (conforms : Conforms (dstMac.toList ++ srcMac.toList ++ [0x08, 0x00] ++ ip.toBytes ++ udp.toBytes ++
      payload) src dst srcPort dstPort payload) :
    Verifies ip.toBytes := by
  have header := conforms.headerVerifies
  rw [drop_ipHeader] at header
  simpa [List.take_append, List.take_of_length_le] using header

end Layout

/-- The frame `emit` sends has every field a receiver checks but the IPv4
header checksum; that verifies exactly when the two bytes of the checksum
`build_packet` computed are equal. -/
theorem emit_conforms_iff (sent : logger.emit srcMac payload = (some frame, after)) :
    Conforms frame logger.srcIp logger.dstIp logger.srcPort logger.dstPort payload ↔
      (packetChecksum logger.srcIp logger.dstIp .udp logger.ipId 64 (8 + payload.length)).toNat / 256 =
        (packetChecksum logger.srcIp logger.dstIp .udp logger.ipId 64 (8 + payload.length)).toNat %
          256 := by
  obtain ⟨fits, rfl⟩ := emit_eq_some sent
  rw [← packetHeader_verifies_iff]
  constructor
  · exact headerVerifies_of_conforms
  · intro verifies
    have totalLength :
        (packetHeader logger.srcIp logger.dstIp .udp logger.ipId 64 (8 + payload.length)).totalLength.toNat =
          20 + (8 + payload.length) := by
      simp only [packetHeader, Ipv4Header.new, Nat.toUInt16_eq, UInt16.toNat_ofNat']
      omega
    exact conforms_of_layout rfl totalLength rfl rfl rfl verifies rfl rfl rfl (by omega)
      (datagram_verifies _ _ _ _ _) (udpChecksum_ne_zero _ _ _ _ _)

/-- `emit` sends a frame for every payload whose frame fits the frame buffer:
`build_packet` then has room in its own 1500 bytes as well. -/
theorem emit_sends (fits : 42 + payload.length ≤ logger.frameBuf.length)
    (mtu : logger.frameBuf.length ≤ 1500) :
    ∃ frame after, logger.emit srcMac payload = (some frame, after) := by
  obtain ⟨udpBuf, datagram, udpBufLength⟩ : ∃ buf,
      buildDatagram logger.srcIp logger.dstIp logger.srcPort logger.dstPort payload logger.frameBuf =
        (some (8 + payload.length), buf) ∧ buf.length = logger.frameBuf.length :=
    buildDatagram_of_fits (by omega) (by omega)
  have udpLength : (udpBuf.take (8 + payload.length)).length = 8 + payload.length := by
    rw [List.length_take]
    omega
  obtain ⟨ipBuf, packet, ipBufLength⟩ := @buildPacket_of_fits logger.srcIp logger.dstIp
    (udpBuf.take (8 + payload.length)) (List.replicate 1500 0) .udp logger.ipId 64
    (by rw [udpLength, List.length_replicate]; omega) (by omega)
  rw [List.length_replicate] at ipBufLength
  obtain ⟨frame, framed⟩ := @buildFrame_of_fits (ipBuf.take (20 + (udpBuf.take (8 + payload.length)).length))
    (List.replicate udpBuf.length 0) broadcastMac srcMac .ipv4
    (by rw [List.length_take, List.length_replicate]; omega)
  unfold UdpLogger.emit
  rw [datagram]
  dsimp only
  rw [packet]
  dsimp only
  rw [framed]
  exact ⟨_, _, rfl⟩

end Emit

/-- The logger at `10.0.2.15:5140` sending to `10.0.2.2:5140` from the device
`52:54:00:12:34:56` emits the log line `[I] x` in a frame whose IPv4 header
checksum does not verify: the checksum `0x62BA` goes out as the bytes `BA 62`. -/
theorem emit_header_checksum_fails :
    ∃ frame after,
      (UdpLogger.new ⟨⟨[10, 0, 2, 2], rfl⟩⟩ 5140 ⟨⟨[10, 0, 2, 15], rfl⟩⟩ 5140).emit
          ⟨[0x52, 0x54, 0x00, 0x12, 0x34, 0x56], rfl⟩ [0x5B, 0x49, 0x5D, 0x20, 0x78, 0x0A] =
        (some frame, after) ∧
      ¬ Conforms frame ⟨⟨[10, 0, 2, 15], rfl⟩⟩ ⟨⟨[10, 0, 2, 2], rfl⟩⟩ 5140 5140
        [0x5B, 0x49, 0x5D, 0x20, 0x78, 0x0A] := by
  obtain ⟨frame, after, sent⟩ :=
    @emit_sends (UdpLogger.new ⟨⟨[10, 0, 2, 2], rfl⟩⟩ 5140 ⟨⟨[10, 0, 2, 15], rfl⟩⟩ 5140)
      ⟨[0x52, 0x54, 0x00, 0x12, 0x34, 0x56], rfl⟩ [0x5B, 0x49, 0x5D, 0x20, 0x78, 0x0A]
      (by rw [UdpLogger.length_frameBuf_new]; decide) (by rw [UdpLogger.length_frameBuf_new])
  refine ⟨frame, after, sent, fun conforms => ?_⟩
  have equalBytes := (emit_conforms_iff sent).mp conforms
  revert equalBytes
  decide

end Fullerene.Bonder
