import Mathlib
import Fullerene.Lib.Loop
import Fullerene.Lib.Machine
import Fullerene.Bonder.KeyUnwrap
import Fullerene.Bonder.Sha1

/-!
# The WPA2 supplicant

`WpaSupplicant` runs the supplicant's side of the WPA2-PSK 4-way handshake.
`init` derives the PMK from the passphrase and the SSID (PBKDF2 over
HMAC-SHA1), draws the SNonce and waits for message 1.  Message 1 brings the
ANonce, from which `derive_ptk` computes the PTK (PRF-384 over the ordered
pair of addresses and the ordered pair of nonces); the answer is message 2,
with the SNonce under a MIC.  Message 3 is taken only with a MIC that verifies
under the KCK and a replay counter above the last one; its key data, unwrapped
with the KEK under descriptor version 2, must hold a GTK KDE of at least 16
bytes; the answer is message 4.  `key_material` hands out the temporal and
group keys, and `complete_handshake` ends the handshake.

The model keeps each field those methods read or write; `mic_error` is read by
none of them.  The hardware samples of `generate_snonce` (RDRAND, or the TSC
where it fails) are inputs.  The loop over the key data descriptors runs on
fuel (`Loop`), and always leaves within it (`findGtkKde_run`).

`machine` takes every public method as a call, from `WpaSupplicant::new()`.
`Consistent` is what holds across all its runs: the PTK is the all-zero
sentinel before message 1 and the session's key from then on, derived from an
ANonce that is not zero; once message 3 is taken the GTK is 16 to 32 bytes
long.  Message 3 changes nothing unless its MIC verifies and its replay
counter is fresh, and the two replies the supplicant sends pass that same
check.
-/

namespace Fullerene.Bonder

namespace Wpa

open Bytes

/-- `WpaState`. -/
inductive WpaState
  | initial
  | havePmk
  | waitMsg1
  | waitMsg2
  | waitMsg3
  | waitMsg4
  | done
  | error
  deriving DecidableEq, Repr

/-- `KEY_INFO_PAIRWISE`. -/
def keyInfoPairwise : Nat := 0x0008
/-- `KEY_INFO_INSTALL`. -/
def keyInfoInstall : Nat := 0x0040
/-- `KEY_INFO_ACK`. -/
def keyInfoAck : Nat := 0x0080
/-- `KEY_INFO_MIC`. -/
def keyInfoMic : Nat := 0x0100
/-- `KEY_INFO_ERROR`. -/
def keyInfoError : Nat := 0x0200
/-- `KEY_INFO_SECURE`. -/
def keyInfoSecure : Nat := 0x0400
/-- `KEY_INFO_KEY_TYPE`. -/
def keyInfoKeyType : Nat := 0x2000

/-- The errors of `crate::NetError` that the handshake returns. -/
inductive NetError
  | protocol
  | authenticationFailed
  deriving DecidableEq, Repr

/-- `WpaSupplicant`: arrays `[u8; n]` are functions on `Fin n`, strings their UTF-8 bytes. -/
structure WpaSupplicant where
  state : WpaState
  ssid : List UInt8
  passphrase : List UInt8
  pmk : Fin 32 → UInt8
  ptk : Fin 48 → UInt8
  gtk : Fin 32 → UInt8
  anonce : Fin 32 → UInt8
  snonce : Fin 32 → UInt8
  apBssid : Fin 6 → UInt8
  clientMac : Fin 6 → UInt8
  replayCounter : Nat
  gtkLen : Nat
  gtkKeyIndex : UInt8

namespace WpaSupplicant

/-- `WpaSupplicant::new()`, the `Default` instance. -/
def new : WpaSupplicant where
  state := .initial
  ssid := []
  passphrase := []
  pmk := fun _ => 0
  ptk := fun _ => 0
  gtk := fun _ => 0
  anonce := fun _ => 0
  snonce := fun _ => 0
  apBssid := fun _ => 0
  clientMac := fun _ => 0
  replayCounter := 0
  gtkLen := 0
  gtkKeyIndex := 0

/-! ## Key derivation -/

/-- Block `block` of PBKDF2-HMAC-SHA1 over 4096 iterations: `U_1 = HMAC(P, S ‖ INT(block))`,
`U_j = HMAC(P, U_{j-1})`, and `T` the XOR of all of them. -/
def pbkdf2Block (pass ssid : List UInt8) (block : Nat) : Fin 20 → UInt8 :=
  let u := hmacSha1 pass (ssid ++ bigEndian 4 block)
  ((List.range' 1 4095).foldl (fun (ut : (Fin 20 → UInt8) × (Fin 20 → UInt8)) _ =>
    let u := hmacSha1 pass (List.ofFn ut.1)
    (u, fun j => ut.2 j ^^^ u j)) (u, u)).2

/-- `derive_pmk`: block `i` fills `output[start..start + len]`, so the PMK is the first 32 bytes of
`T_1 ‖ T_2`. -/
def derivePmk (s : WpaSupplicant) : WpaSupplicant :=
  let output := (List.range 2).flatMap fun i =>
    let start := i * 20
    let stop := min (start + 20) 32
    (List.ofFn (pbkdf2Block s.passphrase s.ssid (i + 1))).take (stop - start)
  { s with pmk := fun i => output.getD i 0 }

/-- The xorshift64* whitening of one sample of `generate_snonce`. -/
def whiten (val : UInt64) : UInt64 :=
  let state := val ^^^ val >>> 12
  let state := state ^^^ state <<< 25
  let state := state ^^^ state >>> 27
  state * 0x2545F4914F6CDD1D

/-- `generate_snonce`, from the sample `val` of each 8-byte chunk: the whitened sample, little-endian. -/
def generateSnonce (samples : Fin 4 → UInt64) : Fin 32 → UInt8 :=
  fun i => (whiten (samples ⟨i.val / 8, by have := i.isLt; omega⟩) >>> (8 * (i.val % 8)).toUInt64).toUInt8

/-- `init`: the PMK of the passphrase and the SSID, a fresh SNonce, and the handshake reset to
wait for message 1. -/
def init (s : WpaSupplicant) (passphrase ssid : List UInt8) (apBssid clientMac : Fin 6 → UInt8)
    (samples : Fin 4 → UInt64) : WpaSupplicant :=
  let s := { s with ssid := ssid, passphrase := passphrase, apBssid := apBssid, clientMac := clientMac }
  let s := s.derivePmk
  let s := { s with snonce := generateSnonce samples }
  { s with
    state := .waitMsg1, replayCounter := 0, anonce := (fun _ => 0), ptk := (fun _ => 0)
    gtk := (fun _ => 0), gtkLen := 0, gtkKeyIndex := 0 }

end WpaSupplicant

/-- Rust's `<` on byte arrays: the lexicographic order. -/
def bytesLt {n : Nat} (a b : Fin n → UInt8) : Bool := decide (List.ofFn a < List.ofFn b)

/-- `b"Pairwise key expansion"`. -/
def pairwiseLabel : List UInt8 := "Pairwise key expansion".toUTF8.toList

/-- `prf_384`: `HMAC-SHA1(K, A ‖ 0 ‖ B ‖ i)` for `i = 0, 1, 2`, whose offsets 0, 20, 40 and ends
20, 40, 48 keep the first 48 bytes of the three hashes. -/
def prf384 (key : Fin 32 → UInt8) (label data : List UInt8) : Fin 48 → UInt8 :=
  let output := (List.range 3).flatMap fun i =>
    List.ofFn (hmacSha1 (List.ofFn key) (label ++ [0x00] ++ data ++ [i.toUInt8]))
  fun j => output.getD j 0

/-- The PTK that `derive_ptk` computes from an ANonce that is not zero: PRF-384 under the PMK of the
smaller and the larger address, then the smaller and the larger nonce. -/
def pairwiseKey (pmk : Fin 32 → UInt8) (apBssid clientMac : Fin 6 → UInt8) (anonce snonce : Fin 32 → UInt8) :
    Fin 48 → UInt8 :=
  let a1 := if bytesLt apBssid clientMac then apBssid else clientMac
  let a2 := if bytesLt apBssid clientMac then clientMac else apBssid
  let n1 := if bytesLt anonce snonce then anonce else snonce
  let n2 := if bytesLt anonce snonce then snonce else anonce
  let data := List.ofFn a1 ++ List.ofFn a2 ++ List.ofFn n1 ++ List.ofFn n2
  prf384 pmk pairwiseLabel data

namespace WpaSupplicant

/-- `derive_ptk`: the all-zero ANonce, the sentinel before message 1, gives the all-zero PTK. -/
def derivePtk (s : WpaSupplicant) : WpaSupplicant :=
  if s.anonce = fun _ => 0 then { s with ptk := fun _ => 0 }
  else { s with ptk := pairwiseKey s.pmk s.apBssid s.clientMac s.anonce s.snonce }

/-- The PTK of the supplicant's session, from its PMK, addresses and nonces. -/
def sessionKey (s : WpaSupplicant) : Fin 48 → UInt8 :=
  pairwiseKey s.pmk s.apBssid s.clientMac s.anonce s.snonce

end WpaSupplicant

/-! ## EAPOL-Key frames -/

/-- The EAPOL-Key frame of `build_message_2` and `build_message_4`, which differ only in the key
information and the nonce: the header, whose length is set once the frame is built, the
descriptor, and the MIC under the KCK of the frame with a zero MIC field, copied into that field. -/
def buildKeyFrame (ptk : Fin 48 → UInt8) (keyInfo replayCounter : Nat) (nonce : Fin 32 → UInt8) : List UInt8 :=
  let beforeMic : List UInt8 := [0x03, 0x03, 0x00, 0x00] ++ [0x02] ++ bigEndian 2 keyInfo ++ [0x00, 0x10] ++
    bigEndian 8 replayCounter ++ List.ofFn nonce ++ List.replicate 16 0 ++ List.replicate 8 0 ++ List.replicate 8 0
  let micOffset := beforeMic.length
  let msg := beforeMic ++ List.replicate 16 0 ++ [0x00, 0x00]
  let len := (msg.length - 4) % 2 ^ 16
  let msg := (msg.set 2 (len >>> 8).toUInt8).set 3 len.toUInt8
  let mic := computeMic ptk msg
  writeBytes msg micOffset (List.ofFn mic)

namespace WpaSupplicant

/-- `build_message_2`: the SNonce, under the pairwise key flags with a MIC. -/
def buildMessage2 (s : WpaSupplicant) : List UInt8 :=
  buildKeyFrame s.ptk (keyInfoKeyType ||| keyInfoMic ||| keyInfoPairwise) s.replayCounter s.snonce

/-- `build_message_4`: a zero nonce, with the secure flag set as well. -/
def buildMessage4 (s : WpaSupplicant) : List UInt8 :=
  buildKeyFrame s.ptk (keyInfoKeyType ||| keyInfoMic ||| keyInfoSecure ||| keyInfoPairwise) s.replayCounter
    fun _ => 0

/-- `handle_message_1`.  The ANonce is copied in before it is checked, as in the source. -/
def handleMessage1 (s : WpaSupplicant) (frame : List UInt8) : Except NetError (List UInt8) × WpaSupplicant :=
  if s.state ≠ .waitMsg1 ∨ frame.length < 4 + 95 then (.error .protocol, s) else
  let eapolLength := readBe frame 2 2
  if eapolLength < 95 ∨ 4 + eapolLength > frame.length then (.error .protocol, s) else
  let body := (frame.drop 4).take eapolLength
  if byteAt body 0 ≠ 0x02 then (.error .protocol, s) else
  let keyInfo := readBe body 1 2
  -- message 1 is an un-MICed pairwise frame from the AP
  if keyInfo &&& (keyInfoKeyType ||| keyInfoPairwise ||| keyInfoAck) ≠ (keyInfoKeyType ||| keyInfoPairwise ||| keyInfoAck) ∨
      keyInfo &&& (keyInfoMic ||| keyInfoInstall ||| keyInfoError) ≠ 0 then (.error .protocol, s) else
  let anonceStart := 13
  if anonceStart + 32 > body.length then (.error .protocol, s) else
  let s := { s with anonce := fun i => byteAt body (anonceStart + i) }
  if s.anonce = (fun _ => 0) then (.error .protocol, s) else
  let s := s.derivePtk
  let s := if body.length ≥ 13 then { s with replayCounter := readBe body 5 8 } else s
  let s := { s with state := .waitMsg3 }
  (.ok s.buildMessage2, s)

end WpaSupplicant

/-! ## Message 3 -/

/-- The MIC check of `handle_message_3` over the first `pduEnd` bytes of the frame: the OR of the
bytewise XOR of the MIC field `frame[81..97]` with the MIC of the frame with that field zeroed. -/
def micMismatch (ptk : Fin 48 → UInt8) (frame : List UInt8) (pduEnd : Nat) : UInt8 :=
  let micField := (frame.drop 81).take 16
  let frameCopy := writeBytes (frame.take pduEnd) 81 (List.replicate 16 0)
  let computedMic := computeMic ptk frameCopy
  (List.finRange 16).foldl (fun mismatch i => mismatch ||| (computedMic i ^^^ micField.getD i 0)) 0

/-- The key data in the clear: unwrapped with the KEK, `ptk[16..32]`, under descriptor version 2. -/
def keyDataPlaintext (ptk : Fin 48 → UInt8) (descriptorVersion : Nat) (keyData : List UInt8) :
    Except Unit (List UInt8) :=
  if descriptorVersion = 2 then aesKeyUnwrap (fun i => ptk ⟨16 + i.val, by omega⟩) keyData else .ok keyData

/-- One round of the loop over the key data descriptors, at `pos`: it leaves with the data of a GTK
KDE (type `0xDD`, OUI `00-0F-AC`, data type 1), leaves with nothing at a KDE that overruns the key
data or past the last one, and otherwise goes on at the next KDE. -/
def kdeRound (keyData : List UInt8) (pos : Nat) : Option (Loop.Step Nat (Option (List UInt8))) :=
  if pos + 2 ≤ keyData.length then
    let kdeType := byteAt keyData pos
    let kdeLen := (byteAt keyData (pos + 1)).toNat
    let kdeEnd := pos + 2 + kdeLen
    if kdeEnd > keyData.length then some (.done none)
    else if kdeType = 0xDD ∧ kdeLen ≥ 6 ∧ byteAt keyData (pos + 2) = 0x00 ∧ byteAt keyData (pos + 3) = 0x0F ∧
        byteAt keyData (pos + 4) = 0xAC ∧ byteAt keyData (pos + 5) = 0x01 then
      some (.done (some ((keyData.drop (pos + 6)).take (kdeEnd - (pos + 6)))))
    else some (.next kdeEnd)
  else some (.done none)

/-- The data of the GTK KDE that the loop finds.  The loop leaves within its fuel
(`findGtkKde_run`), so the default is never taken. -/
def findGtkKde (keyData : List UInt8) : Option (List UInt8) :=
  (Loop.result (Loop.run (kdeRound keyData) (keyData.length + 1) 0)).getD none

namespace WpaSupplicant

/-- The GTK branch of the loop: its local `gtk_len`, and what it writes, `self.gtk[..gtk_len]`,
`self.gtk_len` and `self.gtk_key_index`, when the KDE holds a key id and a reserved byte. -/
def takeGtk (s : WpaSupplicant) (gtkData : List UInt8) : Nat × WpaSupplicant :=
  if gtkData.length ≥ 2 then
    let gtkLen := min (gtkData.length - 2) 32
    (gtkLen, { s with gtk := fun i => if i.val < gtkLen then byteAt gtkData (2 + i.val) else s.gtk i,
                      gtkLen := gtkLen, gtkKeyIndex := byteAt gtkData 0 &&& 0x03 })
  else (0, s)

/-- The loop over the key data descriptors with what its GTK branch writes: the loop's `gtk_len`,
zero where no GTK KDE was found, and the supplicant. -/
def scanGtk (s : WpaSupplicant) (keyData : List UInt8) : Nat × WpaSupplicant :=
  match findGtkKde keyData with
  | some gtkData => s.takeGtk gtkData
  | none => (0, s)

/-- The end of `handle_message_3`, once the replay counter is taken: the key data, its GTK, and
message 4. -/
def acceptKeyData (s : WpaSupplicant) (keyInfo : Nat) (body : List UInt8) :
    Except NetError (List UInt8) × WpaSupplicant :=
  let keyDataLen := readBe body 93 2
  let keyDataEnd := 95 + keyDataLen
  if body.length < keyDataEnd then (.error .protocol, s) else
  let descriptorVersion := keyInfo &&& 0x07
  match keyDataPlaintext s.ptk descriptorVersion ((body.drop 95).take keyDataLen) with
  | .error () => (.error .protocol, s)
  | .ok keyDataSlice =>
    let (gtkLen, s) := s.scanGtk keyDataSlice
    if gtkLen < 16 then (.error .protocol, s) else
    let s := { s with state := .waitMsg4 }
    (.ok s.buildMessage4, s)

/-- `handle_message_3`. -/
def handleMessage3 (s : WpaSupplicant) (frame : List UInt8) : Except NetError (List UInt8) × WpaSupplicant :=
  if s.state ≠ .waitMsg3 ∨ frame.length < 4 then (.error .protocol, s) else
  let eapolLength := readBe frame 2 2
  let pduEnd := 4 + eapolLength
  if eapolLength < 95 ∨ pduEnd > frame.length then (.error .protocol, s) else
  let body := (frame.drop 4).take eapolLength
  if byteAt body 0 ≠ 0x02 then (.error .protocol, s) else
  let keyInfo := readBe body 1 2
  if keyInfo &&& (keyInfoKeyType ||| keyInfoPairwise ||| keyInfoMic ||| keyInfoAck ||| keyInfoInstall) ≠
        (keyInfoKeyType ||| keyInfoPairwise ||| keyInfoMic ||| keyInfoAck ||| keyInfoInstall) ∨
      keyInfo &&& keyInfoError ≠ 0 then (.error .protocol, s) else
  if micMismatch s.ptk frame pduEnd ≠ 0 then (.error .authenticationFailed, s) else
  let message3Replay := readBe body 5 8
  if message3Replay ≤ s.replayCounter then (.error .protocol, s) else
  -- the counter is taken before the key data is looked at
  let s := { s with replayCounter := message3Replay }
  s.acceptKeyData keyInfo body

/-- `key_material`: the TK, `ptk[32..48]`, the GTK's first 16 bytes and its key index, once
message 3 was taken. -/
def keyMaterial (s : WpaSupplicant) : Option ((Fin 16 → UInt8) × (Fin 16 → UInt8) × UInt8) :=
  if ¬(s.state = .waitMsg4 ∨ s.state = .done) ∨ s.gtkLen < 16 then none
  else some (fun i => s.ptk ⟨32 + i.val, by omega⟩, fun i => s.gtk ⟨i.val, by omega⟩, s.gtkKeyIndex)

/-- `complete_handshake`. -/
def completeHandshake (s : WpaSupplicant) : Except NetError Unit × WpaSupplicant :=
  if s.state ≠ .waitMsg4 then (.error .protocol, s) else (.ok (), { s with state := .done })

end WpaSupplicant

/-! ## The supplicant as a machine -/

/-- The public methods of `WpaSupplicant`, as calls. -/
inductive WpaCall
  | init (passphrase ssid : List UInt8) (apBssid clientMac : Fin 6 → UInt8) (samples : Fin 4 → UInt64)
  | derivePtk
  | handleMessage1 (frame : List UInt8)
  | handleMessage3 (frame : List UInt8)
  | keyMaterial
  | completeHandshake

/-- What the methods return. -/
inductive WpaReply
  | unit
  | frame (result : Except NetError (List UInt8))
  | keys (material : Option ((Fin 16 → UInt8) × (Fin 16 → UInt8) × UInt8))
  | completed (result : Except NetError Unit)

namespace WpaSupplicant

/-- The supplicant from `WpaSupplicant::new()`, under any sequence of calls. -/
def machine : Machine WpaSupplicant WpaCall WpaReply where
  init := new
  step s
    | .init passphrase ssid apBssid clientMac samples =>
        some (.unit, s.init passphrase ssid apBssid clientMac samples)
    | .derivePtk => some (.unit, s.derivePtk)
    | .handleMessage1 frame => some (.frame (s.handleMessage1 frame).1, (s.handleMessage1 frame).2)
    | .handleMessage3 frame => some (.frame (s.handleMessage3 frame).1, (s.handleMessage3 frame).2)
    | .keyMaterial => some (.keys s.keyMaterial, s)
    | .completeHandshake => some (.completed s.completeHandshake.1, s.completeHandshake.2)

/-- The source's test of a message 3 whose declared length runs past the frame. -/
example : ({ new with state := .waitMsg3 }.handleMessage3 [0x03, 0x03, 0x00, 0x00]).1 = .error .protocol := by
  decide

end WpaSupplicant

/-! ## The loop over the key data descriptors -/

/-- Each round of the loop leaves, or goes on to a KDE further on inside the key data. -/
theorem kdeRound_advances (keyData : List UInt8) (pos : Nat) :
    Loop.Advances (fun pos : Nat => keyData.length - pos) (fun _ => True) pos (kdeRound keyData pos) := by
  unfold kdeRound
  split
  · dsimp only
    split
    · trivial
    · split
      · trivial
      · exact ⟨trivial, by dsimp only; omega⟩
  · trivial

/-- The loop leaves within its fuel, so `findGtkKde` is what the loop finds. -/
theorem findGtkKde_run (keyData : List UInt8) :
    ∃ found, Loop.run (kdeRound keyData) (keyData.length + 1) 0 = some (.done found) ∧ findGtkKde keyData = found := by
  obtain ⟨found, ran⟩ := Loop.run_done_of_variant (fun pos _ => kdeRound_advances keyData pos) trivial
    (Nat.lt_succ_of_le (Nat.sub_le keyData.length 0))
  exact ⟨found, ran, by rw [findGtkKde, ran, Loop.result_done, Option.getD_some]⟩

/-! ## What each method does -/

namespace WpaSupplicant

variable {s s' : WpaSupplicant} {frame : List UInt8} {result : Except NetError (List UInt8)}

theorem derivePtk_of_ne (nonzero : s.anonce ≠ fun _ => 0) : s.derivePtk = { s with ptk := s.sessionKey } := by
  rw [derivePtk, if_neg nonzero, sessionKey]

/-- What handling message 1 can do: refuse it, having at most copied a zero ANonce in, or take it
in `WaitMsg1` with an ANonce that is not zero, derive the session's PTK and wait for message 3. -/
theorem handleMessage1_cases (handled : s.handleMessage1 frame = (result, s')) :
    (result = .error .protocol ∧ (s' = s ∨ s.state = .waitMsg1 ∧ s' = { s with anonce := fun _ => 0 })) ∨
    (s.state = .waitMsg1 ∧ ∃ anonce counter, anonce ≠ (fun _ => 0) ∧
      s' = { s with anonce := anonce, ptk := pairwiseKey s.pmk s.apBssid s.clientMac anonce s.snonce,
                    replayCounter := counter, state := .waitMsg3 } ∧ result = .ok s'.buildMessage2) := by
  unfold handleMessage1 at handled
  dsimp only at handled
  split_ifs at handled with refused malformed descriptor flags short zero long
  all_goals obtain ⟨rfl, rfl⟩ := Prod.mk.inj handled
  -- the five early returns before the ANonce is read
  · exact .inl ⟨rfl, .inl rfl⟩
  · exact .inl ⟨rfl, .inl rfl⟩
  · exact .inl ⟨rfl, .inl rfl⟩
  · exact .inl ⟨rfl, .inl rfl⟩
  · exact .inl ⟨rfl, .inl rfl⟩
  · -- the ANonce was copied in before it was found to be zero
    refine .inl ⟨rfl, .inr ⟨not_not.mp (not_or.mp refused).1, ?_⟩⟩
    rw [← zero]
  · refine .inr ⟨not_not.mp (not_or.mp refused).1,
      fun i => byteAt ((frame.drop 4).take (readBe frame 2 2)) (13 + i.val),
      readBe ((frame.drop 4).take (readBe frame 2 2)) 5 8, zero, ?_, rfl⟩
    rw [derivePtk_of_ne zero]
    rfl
  · -- the body holds at least 45 bytes here, so the replay counter is always read
    exact absurd (by omega) long

/-- The GTK branch writes only the group key fields, and its `gtk_len` is zero or the one it
stores, at most 32. -/
theorem takeGtk_cases {gtkData : List UInt8} {gtkLen : Nat} (taken : s.takeGtk gtkData = (gtkLen, s')) :
    s' = { s with gtk := s'.gtk, gtkLen := s'.gtkLen, gtkKeyIndex := s'.gtkKeyIndex } ∧
      (gtkLen = 0 ∨ gtkLen = s'.gtkLen ∧ s'.gtkLen ≤ 32) := by
  unfold takeGtk at taken
  split_ifs at taken with holds
  · obtain ⟨rfl, rfl⟩ := Prod.mk.inj taken
    exact ⟨rfl, .inr ⟨rfl, Nat.min_le_right _ _⟩⟩
  · obtain ⟨rfl, rfl⟩ := Prod.mk.inj taken
    exact ⟨rfl, .inl rfl⟩

theorem scanGtk_cases {keyData : List UInt8} {gtkLen : Nat} (taken : s.scanGtk keyData = (gtkLen, s')) :
    s' = { s with gtk := s'.gtk, gtkLen := s'.gtkLen, gtkKeyIndex := s'.gtkKeyIndex } ∧
      (gtkLen = 0 ∨ gtkLen = s'.gtkLen ∧ s'.gtkLen ≤ 32) := by
  unfold scanGtk at taken
  split at taken
  · exact takeGtk_cases taken
  · obtain ⟨rfl, rfl⟩ := Prod.mk.inj taken
    exact ⟨rfl, .inl rfl⟩

/-- The key data writes only the group key fields and the state, which moves only to `WaitMsg4`,
with a GTK of 16 to 32 bytes. -/
theorem acceptKeyData_cases {keyInfo : Nat} {body : List UInt8} (accepted : s.acceptKeyData keyInfo body = (result, s')) :
    s' = { s with gtk := s'.gtk, gtkLen := s'.gtkLen, gtkKeyIndex := s'.gtkKeyIndex, state := s'.state } ∧
      (s'.state = s.state ∨ s'.state = .waitMsg4 ∧ 16 ≤ s'.gtkLen ∧ s'.gtkLen ≤ 32 ∧ result = .ok s'.buildMessage4) := by
  unfold acceptKeyData at accepted
  dsimp only at accepted
  split at accepted
  · obtain ⟨rfl, rfl⟩ := Prod.mk.inj accepted
    exact ⟨rfl, .inl rfl⟩
  split at accepted
  · obtain ⟨rfl, rfl⟩ := Prod.mk.inj accepted
    exact ⟨rfl, .inl rfl⟩
  rename_i keyData _
  -- the loop's `gtk_len` and the supplicant it leaves
  obtain ⟨gtkLen, s'', taken⟩ : ∃ gtkLen s'', s.scanGtk keyData = (gtkLen, s'') := ⟨_, _, rfl⟩
  obtain ⟨written, stored⟩ := scanGtk_cases taken
  rw [taken] at accepted
  dsimp only at accepted
  have state : s''.state = s.state := by rw [written]
  split_ifs at accepted with short
  · obtain ⟨rfl, rfl⟩ := Prod.mk.inj accepted
    exact ⟨by rw [state]; exact written, .inl state⟩
  · obtain ⟨rfl, rfl⟩ := Prod.mk.inj accepted
    -- a GTK of 16 bytes or more was stored
    have long : gtkLen = s''.gtkLen ∧ s''.gtkLen ≤ 32 := stored.resolve_left (by omega)
    exact ⟨by rw [written], .inr ⟨rfl, show 16 ≤ s''.gtkLen by omega, long.2, rfl⟩⟩

/-- What handling message 3 can do: nothing, or, in `WaitMsg3` with a MIC that verifies, take its
fresh replay counter and then the group key fields, moving to `WaitMsg4` only with a GTK of 16 to
32 bytes. -/
theorem handleMessage3_cases (handled : s.handleMessage3 frame = (result, s')) :
    s' = s ∨
    (s.state = .waitMsg3 ∧ micMismatch s.ptk frame (4 + readBe frame 2 2) = 0 ∧
      s.replayCounter < readBe ((frame.drop 4).take (readBe frame 2 2)) 5 8 ∧
      s'.replayCounter = readBe ((frame.drop 4).take (readBe frame 2 2)) 5 8 ∧
      s' = { s with replayCounter := s'.replayCounter, gtk := s'.gtk, gtkLen := s'.gtkLen,
                    gtkKeyIndex := s'.gtkKeyIndex, state := s'.state } ∧
      (s'.state = .waitMsg3 ∨ s'.state = .waitMsg4 ∧ 16 ≤ s'.gtkLen ∧ s'.gtkLen ≤ 32 ∧ result = .ok s'.buildMessage4)) := by
  unfold handleMessage3 at handled
  dsimp only at handled
  split_ifs at handled with refused malformed descriptor flags forged stale
  -- the six early returns before the key data is read
  · exact .inl (Prod.mk.inj handled).2.symm
  · exact .inl (Prod.mk.inj handled).2.symm
  · exact .inl (Prod.mk.inj handled).2.symm
  · exact .inl (Prod.mk.inj handled).2.symm
  · exact .inl (Prod.mk.inj handled).2.symm
  · exact .inl (Prod.mk.inj handled).2.symm
  -- the frame passed every check before its key data, and its replay counter was taken
  have waiting : s.state = .waitMsg3 := not_not.mp (not_or.mp refused).1
  obtain ⟨written, moved⟩ := acceptKeyData_cases handled
  have counter : s'.replayCounter = readBe ((frame.drop 4).take (readBe frame 2 2)) 5 8 := by
    rw [written]
  refine .inr ⟨waiting, not_not.mp forged, by omega, counter, by rw [written], ?_⟩
  rcases moved with same | installed
  · exact .inl (same.trans waiting)
  · exact .inr installed

/-- A message 3 that passes every check before its key data has its replay counter taken and its
key data handed to `acceptKeyData`. -/
theorem handleMessage3_eq_acceptKeyData (accepted : ¬(s.state ≠ .waitMsg3 ∨ frame.length < 4))
    (sized : ¬(readBe frame 2 2 < 95 ∨ 4 + readBe frame 2 2 > frame.length))
    (descriptor : ¬(byteAt ((frame.drop 4).take (readBe frame 2 2)) 0 ≠ 0x02))
    (flags : ¬(readBe ((frame.drop 4).take (readBe frame 2 2)) 1 2 &&&
          (keyInfoKeyType ||| keyInfoPairwise ||| keyInfoMic ||| keyInfoAck ||| keyInfoInstall) ≠
        (keyInfoKeyType ||| keyInfoPairwise ||| keyInfoMic ||| keyInfoAck ||| keyInfoInstall) ∨
      readBe ((frame.drop 4).take (readBe frame 2 2)) 1 2 &&& keyInfoError ≠ 0))
    (verified : micMismatch s.ptk frame (4 + readBe frame 2 2) = 0)
    (fresh : s.replayCounter < readBe ((frame.drop 4).take (readBe frame 2 2)) 5 8) :
    s.handleMessage3 frame =
      { s with replayCounter := readBe ((frame.drop 4).take (readBe frame 2 2)) 5 8 }.acceptKeyData
        (readBe ((frame.drop 4).take (readBe frame 2 2)) 1 2) ((frame.drop 4).take (readBe frame 2 2)) := by
  unfold handleMessage3
  dsimp only
  rw [if_neg accepted, if_neg sized, if_neg descriptor, if_neg flags, if_neg (not_not.mpr verified),
    if_neg (Nat.not_le.mpr fresh)]

end WpaSupplicant

/-! ## The MIC -/

/-- An OR over a list is zero exactly when each item is. -/
theorem foldl_or_eq_zero {α : Type} (f : α → UInt8) :
    ∀ (items : List α) (acc : UInt8), items.foldl (fun mismatch i => mismatch ||| f i) acc = 0 ↔ acc = 0 ∧ ∀ i ∈ items, f i = 0
  | [], acc => by simp
  | item :: rest, acc => by
      rw [List.foldl_cons, foldl_or_eq_zero f rest, UInt8.or_eq_zero_iff, List.forall_mem_cons, and_assoc]

/-- The MIC check passes exactly when the MIC field holds the MIC of the frame with that field
zeroed. -/
theorem micMismatch_eq_zero_iff {ptk : Fin 48 → UInt8} {frame : List UInt8} {pduEnd : Nat} :
    micMismatch ptk frame pduEnd = 0 ↔
      ∀ i : Fin 16, computeMic ptk (writeBytes (frame.take pduEnd) 81 (List.replicate 16 0)) i = byteAt frame (81 + i.val) := by
  have field : ∀ i : Fin 16, ((frame.drop 81).take 16).getD i 0 = byteAt frame (81 + i.val) := by
    intro i
    simp [byteAt, List.getD_eq_getElem?_getD, i.isLt]
  simp only [micMismatch, foldl_or_eq_zero, UInt8.xor_eq_zero_iff, field, List.mem_finRange, true_implies, true_and]

/-- A frame whose MIC field holds the MIC of the frame with that field zeroed passes the MIC check
over its whole length. -/
theorem micMismatch_writeBytes_computeMic (ptk : Fin 48 → UInt8) {base : List UInt8} (long : 97 ≤ base.length)
    (zeroField : (base.drop 81).take 16 = List.replicate 16 0) :
    micMismatch ptk (writeBytes base 81 (List.ofFn (computeMic ptk base))) base.length = 0 := by
  have micLength : (List.ofFn (computeMic ptk base)).length = 16 := List.length_ofFn
  have length : (writeBytes base 81 (List.ofFn (computeMic ptk base))).length = base.length :=
    length_writeBytes _ (by omega)
  -- zeroing the MIC field gives back the frame the MIC was computed over
  have zeroed : writeBytes ((writeBytes base 81 (List.ofFn (computeMic ptk base))).take base.length) 81
      (List.replicate 16 0) = base := by
    rw [List.take_of_length_le (by omega), writeBytes_writeBytes (by simp) (by omega), ← zeroField]
    exact writeBytes_self (by omega)
  refine micMismatch_eq_zero_iff.mpr fun i => ?_
  rw [zeroed, byteAt, getD_writeBytes _ (by omega) (by simp), List.getD_eq_getElem _ _ (by simp),
    List.getElem_ofFn]

/-- Before its MIC is copied in, a key frame is the header with length 95 and 95 more bytes, whose
MIC field, bytes 77 to 93 of them, is zero. -/
theorem buildKeyFrame_eq (ptk : Fin 48 → UInt8) (keyInfo replayCounter : Nat) (nonce : Fin 32 → UInt8) :
    ∃ rest : List UInt8, rest.length = 95 ∧ (rest.drop 77).take 16 = List.replicate 16 0 ∧
      buildKeyFrame ptk keyInfo replayCounter nonce =
        writeBytes (3 :: 3 :: 0 :: 95 :: rest) 81 (List.ofFn (computeMic ptk (3 :: 3 :: 0 :: 95 :: rest))) := by
  refine ⟨([0x02] ++ bigEndian 2 keyInfo ++ [0x00, 0x10] ++ bigEndian 8 replayCounter ++ List.ofFn nonce ++
    List.replicate 16 0 ++ List.replicate 8 0 ++ List.replicate 8 0) ++ (List.replicate 16 0 ++ [0x00, 0x00]),
    by simp, ?_, ?_⟩
  · rw [List.drop_left' (by simp)]
    rfl
  · simp only [buildKeyFrame, List.length_append, length_bigEndian, List.length_ofFn, List.length_replicate,
      List.length_cons, List.length_nil, List.append_assoc]
    rfl

/-- A key frame the supplicant builds is 99 bytes long, says so in its header, and passes the MIC
check of `handle_message_3` under the PTK it was built with. -/
theorem buildKeyFrame_verifies (ptk : Fin 48 → UInt8) (keyInfo replayCounter : Nat) (nonce : Fin 32 → UInt8) :
    (buildKeyFrame ptk keyInfo replayCounter nonce).length = 99 ∧
      readBe (buildKeyFrame ptk keyInfo replayCounter nonce) 2 2 = 95 ∧
      micMismatch ptk (buildKeyFrame ptk keyInfo replayCounter nonce) 99 = 0 := by
  obtain ⟨rest, restLength, zeroField, built⟩ := buildKeyFrame_eq ptk keyInfo replayCounter nonce
  set sized := 3 :: 3 :: 0 :: 95 :: rest with sizedEq
  set mic := computeMic ptk sized
  have sizedLength : sized.length = 99 := by simp [sized, restLength]
  have micLength : (List.ofFn mic).length = 16 := List.length_ofFn
  have length : (buildKeyFrame ptk keyInfo replayCounter nonce).length = 99 := by
    rw [built, length_writeBytes _ (by omega), sizedLength]
  refine ⟨length, ?_, ?_⟩
  · -- the MIC is copied in past the header
    rw [built, sizedEq, show 81 = 77 + 1 + 1 + 1 + 1 from rfl, writeBytes_cons, writeBytes_cons, writeBytes_cons,
      writeBytes_cons]
    rfl
  · -- the MIC field holds the MIC of the frame with that field zeroed
    have field : (sized.drop 81).take 16 = List.replicate 16 0 := zeroField
    rw [built, ← sizedLength]
    exact micMismatch_writeBytes_computeMic ptk (by omega) field

/-- Both replies of the supplicant, messages 2 and 4, are 99-byte frames whose header says 95 and
which pass the MIC check of `handle_message_3` under the supplicant's PTK. -/
theorem replies_verify (s : WpaSupplicant) :
    s.buildMessage2.length = 99 ∧ readBe s.buildMessage2 2 2 = 95 ∧
      micMismatch s.ptk s.buildMessage2 (4 + readBe s.buildMessage2 2 2) = 0 ∧
    s.buildMessage4.length = 99 ∧ readBe s.buildMessage4 2 2 = 95 ∧
      micMismatch s.ptk s.buildMessage4 (4 + readBe s.buildMessage4 2 2) = 0 := by
  obtain ⟨length2, header2, verified2⟩ := buildKeyFrame_verifies s.ptk
    (keyInfoKeyType ||| keyInfoMic ||| keyInfoPairwise) s.replayCounter s.snonce
  obtain ⟨length4, header4, verified4⟩ := buildKeyFrame_verifies s.ptk
    (keyInfoKeyType ||| keyInfoMic ||| keyInfoSecure ||| keyInfoPairwise) s.replayCounter fun _ => 0
  exact ⟨length2, header2, by rw [WpaSupplicant.buildMessage2, header2]; exact verified2,
    length4, header4, by rw [WpaSupplicant.buildMessage4, header4]; exact verified4⟩

/-! ## Both ends derive one PTK -/

section Order

variable {n : Nat}

theorem bytesLt_asymm {a b : Fin n → UInt8} (lt : bytesLt a b = true) : bytesLt b a = false := by
  rw [bytesLt, decide_eq_true_iff] at lt
  rw [bytesLt, decide_eq_false_iff_not]
  exact List.lt_asymm lt

/-- Arrays neither of which is below the other are equal: the order is total. -/
theorem eq_of_not_bytesLt {a b : Fin n → UInt8} (notAB : bytesLt a b = false) (notBA : bytesLt b a = false) :
    a = b := by
  rw [bytesLt, decide_eq_false_iff_not] at notAB notBA
  rcases Std.lt_trichotomy (List.ofFn a) (List.ofFn b) with lt | same | gt
  · exact absurd lt notAB
  · exact List.ofFn_injective same
  · exact absurd gt notBA

/-- Of two arrays, one is below the other and not the other way round, or they are equal. -/
theorem bytesLt_trichotomy (a b : Fin n → UInt8) :
    (bytesLt a b = true ∧ bytesLt b a = false) ∨ (bytesLt a b = false ∧ bytesLt b a = true) ∨ a = b := by
  cases ab : bytesLt a b with
  | true => exact .inl ⟨rfl, bytesLt_asymm ab⟩
  | false =>
      cases ba : bytesLt b a with
      | true => exact .inr (.inl ⟨rfl, rfl⟩)
      | false => exact .inr (.inr (eq_of_not_bytesLt ab ba))

/-- The smaller of two arrays does not depend on the order they are given in. -/
theorem smaller_comm (a b : Fin n → UInt8) : (if bytesLt a b then a else b) = if bytesLt b a then b else a := by
  rcases bytesLt_trichotomy a b with ⟨ab, ba⟩ | ⟨ab, ba⟩ | rfl
  · rw [ab, ba]; rfl
  · rw [ab, ba]; rfl
  · rfl

/-- The larger of two arrays does not depend on the order they are given in. -/
theorem larger_comm (a b : Fin n → UInt8) : (if bytesLt a b then b else a) = if bytesLt b a then a else b := by
  rcases bytesLt_trichotomy a b with ⟨ab, ba⟩ | ⟨ab, ba⟩ | rfl
  · rw [ab, ba]; rfl
  · rw [ab, ba]; rfl
  · rfl

end Order

/-- The PTK does not depend on which end computes it: swapping the two addresses and the two
nonces, as the authenticator sees them, gives the same key. -/
theorem pairwiseKey_comm (pmk : Fin 32 → UInt8) (apBssid clientMac : Fin 6 → UInt8) (anonce snonce : Fin 32 → UInt8) :
    pairwiseKey pmk apBssid clientMac anonce snonce = pairwiseKey pmk clientMac apBssid snonce anonce := by
  simp only [pairwiseKey]
  rw [smaller_comm apBssid clientMac, larger_comm apBssid clientMac, smaller_comm anonce snonce,
    larger_comm anonce snonce]

/-! ## Runs -/

namespace WpaState

/-- The states from message 1 on, in which the PTK is the session's. -/
def keyed : WpaState → Bool
  | .waitMsg3 | .waitMsg4 | .done => true
  | _ => false

/-- The states from message 3 on, in which the group key is stored. -/
def installed : WpaState → Bool
  | .waitMsg4 | .done => true
  | _ => false

theorem keyed_of_installed {state : WpaState} : state.installed = true → state.keyed = true := by
  cases state <;> decide

theorem installed_iff {state : WpaState} : state.installed = true ↔ state = .waitMsg4 ∨ state = .done := by
  cases state <;> decide

end WpaState

namespace WpaSupplicant

variable {s s' : WpaSupplicant} {frame : List UInt8} {result : Except NetError (List UInt8)}

/-- What holds in every reachable state of the supplicant. -/
structure Consistent (s : WpaSupplicant) : Prop where
  /-- Before message 1, the ANonce and the PTK are the all-zero sentinels. -/
  unkeyed : s.state.keyed = false → s.anonce = (fun _ => 0) ∧ s.ptk = fun _ => 0
  /-- From message 1 on, the ANonce is not zero and the PTK is the session's. -/
  keyed : s.state.keyed = true → s.anonce ≠ (fun _ => 0) ∧ s.ptk = s.sessionKey
  /-- From message 3 on, the stored GTK is 16 to 32 bytes long. -/
  installed : s.state.installed = true → 16 ≤ s.gtkLen ∧ s.gtkLen ≤ 32

theorem new_consistent : Consistent new where
  unkeyed _ := ⟨rfl, rfl⟩
  keyed keyed := absurd keyed Bool.false_ne_true
  installed installed := absurd installed Bool.false_ne_true

theorem init_consistent (s : WpaSupplicant) (passphrase ssid : List UInt8) (apBssid clientMac : Fin 6 → UInt8)
    (samples : Fin 4 → UInt64) : Consistent (s.init passphrase ssid apBssid clientMac samples) where
  unkeyed _ := ⟨rfl, rfl⟩
  keyed keyed := absurd keyed Bool.false_ne_true
  installed installed := absurd installed Bool.false_ne_true

/-- On a consistent supplicant `derive_ptk` finds the PTK it already has. -/
theorem Consistent.derivePtk_eq (consistent : Consistent s) : s.derivePtk = s := by
  cases keyed : s.state.keyed
  · obtain ⟨zero, ptkZero⟩ := consistent.unkeyed keyed
    rw [derivePtk, if_pos zero, ← ptkZero]
  · obtain ⟨nonzero, ptkSession⟩ := consistent.keyed keyed
    rw [derivePtk_of_ne nonzero, ← ptkSession]

/-- A consistent supplicant gives a refused message 1 no effect: the ANonce it may have copied in
was zero, and so was the one it held. -/
theorem Consistent.handleMessage1_rejected (consistent : Consistent s) (handled : s.handleMessage1 frame = (result, s'))
    {error : NetError} (refused : result = .error error) : s' = s := by
  rcases handleMessage1_cases handled with ⟨_, unchanged | ⟨waiting, rfl⟩⟩ | ⟨_, _, _, _, _, accepted⟩
  · exact unchanged
  · have zero := (consistent.unkeyed (by rw [waiting]; rfl)).1
    rw [← zero]
  · rw [accepted] at refused
    cases refused

/-- A keyed supplicant stays consistent when its handshake fields change, as long as it stays keyed
and stores a GTK of 16 to 32 bytes wherever it is installed. -/
theorem Consistent.update (consistent : Consistent s) (keyed : s.state.keyed = true) {state : WpaState}
    {counter gtkLen : Nat} {gtk : Fin 32 → UInt8} {index : UInt8} (keyed' : state.keyed = true)
    (installed : state.installed = true → 16 ≤ gtkLen ∧ gtkLen ≤ 32) :
    Consistent { s with replayCounter := counter, gtk := gtk, gtkLen := gtkLen, gtkKeyIndex := index, state := state } where
  unkeyed unkeyed := (Bool.false_ne_true (keyed'.symm.trans unkeyed).symm).elim
  keyed _ := consistent.keyed keyed
  installed := installed

theorem handleMessage1_consistent (consistent : Consistent s) (handled : s.handleMessage1 frame = (result, s')) :
    Consistent s' := by
  rcases handleMessage1_cases handled with ⟨refused, _⟩ | ⟨_, anonce, counter, nonzero, rfl, _⟩
  · rw [consistent.handleMessage1_rejected handled refused]
    exact consistent
  · exact ⟨fun unkeyed => (Bool.false_ne_true unkeyed.symm).elim, fun _ => ⟨nonzero, rfl⟩,
      fun installed => absurd installed Bool.false_ne_true⟩

theorem handleMessage3_consistent (consistent : Consistent s) (handled : s.handleMessage3 frame = (result, s')) :
    Consistent s' := by
  rcases handleMessage3_cases handled with rfl | ⟨waiting, _, _, _, written, moved⟩
  · exact consistent
  have keyed : s.state.keyed = true := by rw [waiting]; rfl
  rw [written]
  rcases moved with stays | ⟨installed, long⟩
  · refine consistent.update keyed (by rw [stays]; rfl) fun installed => ?_
    rw [stays] at installed
    exact absurd installed (by decide)
  · exact consistent.update keyed (by rw [installed]; rfl) fun _ => ⟨long.1, long.2.1⟩

theorem completeHandshake_consistent (consistent : Consistent s) : Consistent s.completeHandshake.2 := by
  unfold completeHandshake
  split_ifs with notWaiting
  · exact consistent
  · -- `WaitMsg4` is installed, so the GTK it stored is long enough for `Done`
    have waiting : s.state = .waitMsg4 := not_not.mp notWaiting
    have installed := consistent.installed (by rw [waiting]; rfl)
    show Consistent { s with
      replayCounter := s.replayCounter, gtk := s.gtk, gtkLen := s.gtkLen, gtkKeyIndex := s.gtkKeyIndex
      state := .done }
    exact consistent.update (by rw [waiting]; rfl) rfl fun _ => installed

/-- Every call keeps the supplicant consistent. -/
theorem consistent_step {call : WpaCall} {reply : WpaReply} (consistent : Consistent s)
    (stepped : machine.step s call = some (reply, s')) : Consistent s' := by
  cases call with
  | init passphrase ssid apBssid clientMac samples =>
      obtain ⟨-, rfl⟩ := Prod.mk.inj (Option.some.inj stepped)
      exact init_consistent s passphrase ssid apBssid clientMac samples
  | derivePtk =>
      obtain ⟨-, rfl⟩ := Prod.mk.inj (Option.some.inj stepped)
      rw [consistent.derivePtk_eq]
      exact consistent
  | handleMessage1 frame =>
      obtain ⟨-, rfl⟩ := Prod.mk.inj (Option.some.inj stepped)
      exact handleMessage1_consistent consistent rfl
  | handleMessage3 frame =>
      obtain ⟨-, rfl⟩ := Prod.mk.inj (Option.some.inj stepped)
      exact handleMessage3_consistent consistent rfl
  | keyMaterial =>
      obtain ⟨-, rfl⟩ := Prod.mk.inj (Option.some.inj stepped)
      exact consistent
  | completeHandshake =>
      obtain ⟨-, rfl⟩ := Prod.mk.inj (Option.some.inj stepped)
      exact completeHandshake_consistent consistent

theorem consistent_of_reachable (reached : machine.Reachable s) : Consistent s :=
  Machine.Inductive.reachable ⟨new_consistent, fun consistent stepped => consistent_step consistent stepped⟩ reached

/-- In every run the PTK is the all-zero sentinel until message 1 is taken, and from then on the
session's key, derived from an ANonce that is not zero; once message 3 is taken, the stored GTK is
16 to 32 bytes long. -/
theorem reachable_ptk (reached : machine.Reachable s) :
    (s.state.keyed = false → s.anonce = (fun _ => 0) ∧ s.ptk = fun _ => 0) ∧
    (s.state.keyed = true → s.anonce ≠ (fun _ => 0) ∧
      s.ptk = pairwiseKey s.pmk s.apBssid s.clientMac s.anonce s.snonce) ∧
    (s.state.installed = true → 16 ≤ s.gtkLen ∧ s.gtkLen ≤ 32) :=
  have consistent := consistent_of_reachable reached
  ⟨consistent.unkeyed, consistent.keyed, consistent.installed⟩

/-- A message 1 of the authenticator: descriptor type 2, key information `KeyType | Pairwise | Ack`
with descriptor version 2, replay counter 1, and an ANonce of 32 bytes `anonceByte`. -/
def message1Frame (anonceByte : UInt8) : List UInt8 :=
  [0x02, 0x03, 0x00, 0x5F, 0x02, 0x20, 0x8A, 0x00, 0x10, 0, 0, 0, 0, 0, 0, 0, 1] ++ List.replicate 32 anonceByte ++
    List.replicate 50 0

/-- After `init` and a message 1 with a non-zero ANonce, the supplicant waits for message 3, keyed
with the session's PTK. -/
theorem ptk_after_message1 :
    ∃ replies s, machine.run machine.init
        [.init [] [] (fun _ => 0) (fun _ => 0) (fun _ => 0), .handleMessage1 (message1Frame 0x11)] =
        some (replies, s) ∧ s.state = .waitMsg3 ∧
      ((s.state.keyed = false → s.anonce = (fun _ => 0) ∧ s.ptk = fun _ => 0) ∧
        (s.state.keyed = true → s.anonce ≠ (fun _ => 0) ∧
          s.ptk = pairwiseKey s.pmk s.apBssid s.clientMac s.anonce s.snonce) ∧
        (s.state.installed = true → 16 ≤ s.gtkLen ∧ s.gtkLen ≤ 32)) :=
  ⟨_, _, rfl, rfl, reachable_ptk (Machine.Reachable.run _ .init (rfl : machine.run machine.init
    [.init [] [] (fun _ => 0) (fun _ => 0) (fun _ => 0), .handleMessage1 (message1Frame 0x11)] = some (_, _)))⟩

/-- In every run `key_material` hands out keys exactly once message 3 was taken: the TK, bytes 32
to 48 of the session's PTK, the first 16 bytes of the stored GTK, and its index. -/
theorem reachable_keyMaterial (reached : machine.Reachable s) :
    s.keyMaterial = if s.state = .waitMsg4 ∨ s.state = .done then
      some (fun i => pairwiseKey s.pmk s.apBssid s.clientMac s.anonce s.snonce ⟨32 + i.val, by omega⟩,
        fun i => s.gtk ⟨i.val, by omega⟩, s.gtkKeyIndex)
    else none := by
  have consistent := consistent_of_reachable reached
  unfold keyMaterial
  by_cases taken : s.state = .waitMsg4 ∨ s.state = .done
  · have installed := WpaState.installed_iff.mpr taken
    have long := consistent.installed installed
    have session := (consistent.keyed (WpaState.keyed_of_installed installed)).2
    rw [if_neg (not_or.mpr ⟨not_not.mpr taken, by omega⟩), if_pos taken, session]
    rfl
  · rw [if_pos (.inl taken), if_neg taken]

/-- A message 3 of the authenticator with its MIC field zeroed: key information
`KeyType | Pairwise | Install | Ack | Mic` with descriptor version 1, replay counter 2, and key data
in the clear holding a GTK KDE with key id 1 and 16 key bytes `0x42`. -/
def message3Base : List UInt8 :=
  [0x02, 0x03, 0x00, 0x77, 0x02, 0x21, 0xC9, 0x00, 0x10, 0, 0, 0, 0, 0, 0, 0, 2] ++ List.replicate 80 0 ++
    [0x00, 0x18, 0xDD, 0x16, 0x00, 0x0F, 0xAC, 0x01, 0x01, 0x00] ++ List.replicate 16 0x42

/-- `message3Base` with the MIC under `ptk` in its MIC field. -/
def message3Frame (ptk : Fin 48 → UInt8) : List UInt8 :=
  writeBytes message3Base 81 (List.ofFn (computeMic ptk message3Base))

set_option maxRecDepth 8000 in
/-- Whatever the PTK, `message3Frame` passes the MIC check under it: the MIC covers the
`4 + eapol_length` bytes its header announces, which is the whole of `message3Base`. -/
theorem micMismatch_message3Frame (ptk : Fin 48 → UInt8) :
    micMismatch ptk (message3Frame ptk) (4 + readBe (message3Frame ptk) 2 2) = 0 := by
  rw [message3Frame, readBe_writeBytes_of_le (by decide) (by omega),
    show 4 + readBe message3Base 2 2 = message3Base.length by decide]
  exact micMismatch_writeBytes_computeMic ptk (by decide) (by decide)

set_option maxRecDepth 8000 in
/-- After `init`, message 1 and a message 3 that carries the MIC under the session's KCK, the
supplicant waits for message 4 with a GTK of 16 bytes, and `key_material` hands out the TK and the
GTK. -/
theorem keyMaterial_after_message3 :
    ∃ replies s, machine.run machine.init
        [.init [] [] (fun _ => 0) (fun _ => 0) (fun _ => 0), .handleMessage1 (message1Frame 0x11),
          .handleMessage3 (message3Frame
            ((new.init [] [] (fun _ => 0) (fun _ => 0) (fun _ => 0)).handleMessage1 (message1Frame 0x11)).2.ptk),
          .keyMaterial] = some (replies, s) ∧ s.state = .waitMsg4 ∧ s.gtkLen = 16 ∧
      s.keyMaterial = if s.state = .waitMsg4 ∨ s.state = .done then
        some (fun i => pairwiseKey s.pmk s.apBssid s.clientMac s.anonce s.snonce ⟨32 + i.val, by omega⟩,
          fun i => s.gtk ⟨i.val, by omega⟩, s.gtkKeyIndex)
      else none := by
  have taken := handleMessage3_eq_acceptKeyData (by decide) (by decide) (by decide) (by decide)
    (micMismatch_message3Frame
      ((new.init [] [] (fun _ => 0) (fun _ => 0) (fun _ => 0)).handleMessage1 (message1Frame 0x11)).2.ptk) (by decide)
  refine ⟨_, _, rfl, ?_, ?_, reachable_keyMaterial (Machine.Reachable.run _ .init (rfl : machine.run machine.init
    [.init [] [] (fun _ => 0) (fun _ => 0) (fun _ => 0), .handleMessage1 (message1Frame 0x11),
      .handleMessage3 (message3Frame
        ((new.init [] [] (fun _ => 0) (fun _ => 0) (fun _ => 0)).handleMessage1 (message1Frame 0x11)).2.ptk),
      .keyMaterial] = some (_, _)))⟩
  · rw [show machine.init = new from rfl, taken]
    decide
  · rw [show machine.init = new from rfl, taken]
    decide

/-- In every run, calling `derive_ptk` at any point changes nothing. -/
theorem reachable_derivePtk (reached : machine.Reachable s) : s.derivePtk = s :=
  (consistent_of_reachable reached).derivePtk_eq

/-- Once message 1 is taken, `derive_ptk` recomputes the PTK the supplicant already holds. -/
theorem derivePtk_after_message1 :
    ∃ replies s, machine.run machine.init
        [.init [] [] (fun _ => 0) (fun _ => 0) (fun _ => 0), .handleMessage1 (message1Frame 0x11), .derivePtk] =
        some (replies, s) ∧ s.state = .waitMsg3 ∧ s.derivePtk = s :=
  ⟨_, _, rfl, rfl, reachable_derivePtk (Machine.Reachable.run _ .init (rfl : machine.run machine.init
    [.init [] [] (fun _ => 0) (fun _ => 0) (fun _ => 0), .handleMessage1 (message1Frame 0x11), .derivePtk] =
      some (_, _)))⟩

/-- In every run, a message 1 that is refused leaves the supplicant as it was. -/
theorem reachable_handleMessage1_error (reached : machine.Reachable s) {error : NetError}
    (refused : (s.handleMessage1 frame).1 = .error error) : (s.handleMessage1 frame).2 = s :=
  (consistent_of_reachable reached).handleMessage1_rejected rfl refused

/-- After `init`, a message 1 that passes every check but carries a zero ANonce is refused, and the
zero ANonce it copied in leaves the supplicant as it was. -/
theorem handleMessage1_zero_anonce_after_init :
    ((new.init [] [] (fun _ => 0) (fun _ => 0) (fun _ => 0)).handleMessage1 (message1Frame 0)).1 = .error .protocol ∧
      ((new.init [] [] (fun _ => 0) (fun _ => 0) (fun _ => 0)).handleMessage1 (message1Frame 0)).2 =
        new.init [] [] (fun _ => 0) (fun _ => 0) (fun _ => 0) :=
  have refused : ((new.init [] [] (fun _ => 0) (fun _ => 0) (fun _ => 0)).handleMessage1 (message1Frame 0)).1 =
      .error .protocol := by
    decide
  ⟨refused, reachable_handleMessage1_error
    (Machine.Reachable.step Machine.Reachable.init
      (show machine.step new (.init [] [] (fun _ => 0) (fun _ => 0) (fun _ => 0)) =
        some (.unit, new.init [] [] (fun _ => 0) (fun _ => 0) (fun _ => 0)) from rfl))
    refused⟩

/-- Message 3 changes the supplicant only in `WaitMsg3`, when the frame's MIC field holds the MIC,
under the session's KCK, of the frame with that field zeroed, and when the replay counter the frame
carries, bytes 5 to 13 of its body, is above the last one; that counter is then the stored one. -/
theorem handleMessage3_authentic (s : WpaSupplicant) (frame : List UInt8) :
    (s.handleMessage3 frame).2 = s ∨
      (s.state = .waitMsg3 ∧
        (∀ i : Fin 16, computeMic s.ptk (writeBytes (frame.take (4 + readBe frame 2 2)) 81 (List.replicate 16 0)) i =
          byteAt frame (81 + i.val)) ∧
        s.replayCounter < readBe ((frame.drop 4).take (readBe frame 2 2)) 5 8 ∧
        (s.handleMessage3 frame).2.replayCounter = readBe ((frame.drop 4).take (readBe frame 2 2)) 5 8) := by
  obtain ⟨result, s', handled⟩ : ∃ result s', s.handleMessage3 frame = (result, s') := ⟨_, _, rfl⟩
  rw [handled]
  rcases handleMessage3_cases handled with unchanged | ⟨waiting, verified, fresh, counter, -⟩
  · exact .inl unchanged
  · exact .inr ⟨waiting, micMismatch_eq_zero_iff.mp verified, fresh, counter⟩

end WpaSupplicant

end Wpa

end Fullerene.Bonder
