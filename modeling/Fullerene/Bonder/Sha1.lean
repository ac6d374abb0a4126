import Mathlib
import Fullerene.Lib.Bytes

/-!
# SHA-1 and HMAC-SHA1 of the WPA supplicant

The supplicant carries its own hash functions: `sha1` after FIPS 180-4, with
the padding loop, the message schedule and the eighty rounds over wrapping
`u32` words; `hmac_sha1` over it with a 64-byte block; and `compute_mic`, the
first 16 bytes of the HMAC under the KCK, the first 16 bytes of the PTK.

Arrays of the source (`[u8; 20]`, `[u8; 48]`) are functions from `Fin n`, so
that their sizes are part of their types.  The padding loop runs on fuel, and
64 rounds always bring the length to 56 modulo 64 (`sha1Pad_length_mod`), so
that the message is cut into whole 64-byte chunks.
-/

namespace Fullerene.Bonder

namespace Wpa

open Bytes

/-- `u32::rotate_left` by an amount in `1 … 31`. -/
def rotateLeft (x n : UInt32) : UInt32 := x <<< n ||| x >>> (32 - n)

/-- `while padded.len() % 64 != 56 { padded.push(0x00) }`, on fuel. -/
def padZeros : Nat → List UInt8 → List UInt8
  | 0, padded => padded
  | fuel + 1, padded => if padded.length % 64 ≠ 56 then padZeros fuel (padded ++ [0]) else padded

/-- The padded message: the data, `0x80`, zeros up to 56 modulo 64, and the length in bits as a
big-endian `u64`. -/
def sha1Pad (data : List UInt8) : List UInt8 :=
  padZeros 64 (data ++ [0x80]) ++ bigEndian 8 (data.length * 8 % 2 ^ 64)

/-- `bytes.chunks(size)`: the last chunk may be shorter. -/
def chunks (size : Nat) (bytes : List UInt8) : List (List UInt8) :=
  (List.range ((bytes.length + size - 1) / size)).map fun i => (bytes.drop (i * size)).take size

/-- The message schedule `w[0..80]` of a chunk. -/
def schedule (chunk : List UInt8) : List UInt32 :=
  (List.range' 16 64).foldl (fun w t =>
      w ++ [rotateLeft (w.getD (t - 3) 0 ^^^ w.getD (t - 8) 0 ^^^ w.getD (t - 14) 0 ^^^ w.getD (t - 16) 0) 1])
    ((List.range 16).map fun t => (readBe chunk (t * 4) 4).toUInt32)

/-- The five working words `a … e`, and the five words of the state. -/
abbrev Sha1Words := UInt32 × UInt32 × UInt32 × UInt32 × UInt32

/-- The round function and constant of round `t`. -/
def roundFunction (t : Nat) (b c d : UInt32) : UInt32 × UInt32 :=
  if t < 20 then ((b &&& c) ||| (~~~b &&& d), 0x5A827999)
  else if t < 40 then (b ^^^ c ^^^ d, 0x6ED9EBA1)
  else if t < 60 then ((b &&& c) ||| (b &&& d) ||| (c &&& d), 0x8F1BBCDC)
  else (b ^^^ c ^^^ d, 0xCA62C1D6)

/-- One round on the working words, with the word `w[t]` and its index `t`. -/
def sha1Round : Sha1Words → UInt32 × Nat → Sha1Words
  | (a, b, c, d, e), (word, t) =>
    let (f, k) := roundFunction t b c d
    (rotateLeft a 5 + f + e + k + word, a, rotateLeft b 30, c, d)

/-- The eighty rounds over one chunk, added into the state. -/
def compress : Sha1Words → List UInt8 → Sha1Words
  | (h0, h1, h2, h3, h4), chunk =>
    let (a, b, c, d, e) := (schedule chunk).zipIdx.foldl sha1Round (h0, h1, h2, h3, h4)
    (h0 + a, h1 + b, h2 + c, h3 + d, h4 + e)

/-- `sha1`. -/
def sha1 (data : List UInt8) : Fin 20 → UInt8 :=
  let (h0, h1, h2, h3, h4) := (chunks 64 (sha1Pad data)).foldl compress
    (0x67452301, 0xEFCDAB89, 0x98BADCFE, 0x10325476, 0xC3D2E1F0)
  let output := [h0, h1, h2, h3, h4].flatMap fun word => bigEndian 4 word.toNat
  fun i => output.getD i 0

/-- Each round of the padding loop that goes on brings the length one closer to 56 modulo 64. -/
theorem padZeros_length_mod (padded : List UInt8) :
    ∀ fuel, (56 + 64 - padded.length % 64) % 64 ≤ fuel → (padZeros fuel padded).length % 64 = 56
  | 0, enough => by
      rw [padZeros]
      omega
  | fuel + 1, enough => by
      rw [padZeros]
      split
      · apply padZeros_length_mod
        rw [List.length_append, List.length_singleton]
        omega
      · omega

/-- The padded message is cut into whole chunks: the fuel of the padding loop is enough. -/
theorem sha1Pad_length_mod (data : List UInt8) : (sha1Pad data).length % 64 = 0 := by
  have padded := padZeros_length_mod (data ++ [0x80]) 64 (by omega)
  rw [sha1Pad, List.length_append, length_bigEndian]
  omega

/-- `hmac_sha1`, with a block of 64 bytes. -/
def hmacSha1 (key data : List UInt8) : Fin 20 → UInt8 :=
  let blockSize := 64
  let k : Fin 64 → UInt8 :=
    if key.length > blockSize then fun i => if inside : i.val < 20 then sha1 key ⟨i, inside⟩ else 0
    else fun i => key.getD i 0
  let ipad := List.ofFn fun i => k i ^^^ 0x36
  let opad := List.ofFn fun i => k i ^^^ 0x5C
  let innerHash := sha1 (ipad ++ data)
  sha1 (opad ++ List.ofFn innerHash)

/-- `compute_mic`: the first 16 bytes of the HMAC of the frame under the KCK, `ptk[..16]`. -/
def computeMic (ptk : Fin 48 → UInt8) (frame : List UInt8) : Fin 16 → UInt8 :=
  let kck := List.ofFn fun i : Fin 16 => ptk (i.castLE (by decide))
  let hash := hmacSha1 kck frame
  fun i => hash (i.castLE (by decide))

end Wpa

end Fullerene.Bonder
