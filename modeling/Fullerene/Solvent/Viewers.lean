import Fullerene.Lib.Loop
import Fullerene.Lib.Bytes
import Fullerene.Lib.Split
import Fullerene.Lib.Word
import Fullerene.Lib.Utf8

/-!
# The file viewers' container parsers

The viewers list tar and ZIP archives, summarise MP3 and MP4 files, read the
size of a JPEG image before decoding it, and play RLE animations.  Every
parser walks length fields it reads from the file.  Each `while` loop is a
round in the sense of `Loop` (`none` is a panic), run for one round more than
the data is long, and every slice or index of the source is a checked one, so
that `none` is exactly what panics in the source.

A function of the source that returns `Option` or `Result` returns it inside
the panic's `Option` here.  Sums of an index into the data and a length read
from it are taken on `Nat`: a slice holds at most `isize::MAX` bytes and the
lengths are at most `2 ^ 36`, so they never reach `2 ^ 64`; the source's own
`checked_*` calls are kept.  Texts are the bytes of their UTF-8 encoding, and
the `format!` lines of the listings are left to the records they print.
-/

namespace Fullerene.Solvent

open Bytes

/-- The text `from_utf8` makes of a name, or `"(invalid)"`. -/
def textOrInvalid (bytes : List UInt8) : List UInt8 :=
  if Utf8.valid (bytes.map UInt8.toNat) then bytes
  else [0x28, 0x69, 0x6E, 0x76, 0x61, 0x6C, 0x69, 0x64, 0x29]

/-! ## MP3 -/

/-- `mp3_audio_start`: the first byte past an ID3v2 tag and its footer, held to the data. -/
def mp3AudioStart (data : List UInt8) : Option Nat := do
  if data.length < 10 then return 0
  -- `b"ID3"`
  if (← checkedRange data 0 3) ≠ [0x49, 0x44, 0x33] then return 0
  let sizeBytes ← checkedRange data 6 10
  if sizeBytes.any (fun byte => byte &&& 0x80 != 0) then return 0
  -- seven bits a byte: the size stays below `2 ^ 28`, so the shifts lose nothing
  let tagSize := sizeBytes.foldl (fun size byte => size <<< 7 ||| byte.toNat) 0
  let flags ← data[5]?
  let footerSize := if flags &&& 0x10 ≠ 0 then 10 else 0
  return min (((Word.checkedAdd 64 10 tagSize).bind (Word.checkedAdd 64 · footerSize)).getD data.length)
    data.length

/-- The fields of an MPEG audio frame header that `parse_mp3` reads. -/
structure Mp3FrameHeader where
  frameLen : Nat
  sampleRate : Nat
  channels : Nat
  samples : Nat
  deriving DecidableEq, Repr

/-- `MPEG1_BITRATES`, in kbit/s. -/
def mpeg1Bitrates : List Nat := [0, 32, 40, 48, 56, 64, 80, 96, 112, 128, 160, 192, 224, 256, 320, 0]

/-- `MPEG2_BITRATES`, in kbit/s. -/
def mpeg2Bitrates : List Nat := [0, 8, 16, 24, 32, 40, 48, 56, 64, 80, 96, 112, 128, 144, 160, 0]

/-- `MPEG1_SAMPLE_RATES`, in Hz. -/
def mpeg1SampleRates : List Nat := [44100, 48000, 32000]

/-- The `match version` of `parse_mp3_frame_header`: the sample rate of MPEG 1, 2 and 2.5, and
`None` for the reserved version. -/
def mp3SampleRate (version sampleRateIndex : Nat) : Option (Option Nat) :=
  match version with
  | 3 => some <$> mpeg1SampleRates[sampleRateIndex]?
  | 2 => (fun rate => some (rate / 2)) <$> mpeg1SampleRates[sampleRateIndex]?
  | 0 => (fun rate => some (rate / 4)) <$> mpeg1SampleRates[sampleRateIndex]?
  | _ => some none

/-- `parse_mp3_frame_header`: the Layer III frame header at `offset`, if there is one. -/
def parseMp3FrameHeader (data : List UInt8) (offset : Nat) : Option (Option Mp3FrameHeader) := do
  let some stop := Word.checkedAdd 64 offset 4 | return none
  let some bytes := checkedRange data offset stop | return none
  let header := beValue [← bytes[0]?, ← bytes[1]?, ← bytes[2]?, ← bytes[3]?]
  if header &&& 0xffe00000 ≠ 0xffe00000 then return none
  let version := (header >>> 19) &&& 0x3
  let layer := (header >>> 17) &&& 0x3
  let bitrateIndex := (header >>> 12) &&& 0xf
  let sampleRateIndex := (header >>> 10) &&& 0x3
  if version = 1 ∨ layer ≠ 1 ∨ bitrateIndex = 0 ∨ bitrateIndex = 15 ∨ sampleRateIndex = 3 then
    return none
  let bitrateKbps ← (if version = 3 then mpeg1Bitrates[bitrateIndex]? else mpeg2Bitrates[bitrateIndex]?)
  let some sampleRate ← mp3SampleRate version sampleRateIndex | return none
  let padding := (header >>> 9) &&& 1
  let coefficient := if version = 3 then 144000 else 72000
  let samples := if version = 3 then 1152 else 576
  let some product := Word.checkedMul 32 coefficient bitrateKbps | return none
  -- `checked_div` fails only on a zero divisor
  let some quotient := (if sampleRate = 0 then none else some (product / sampleRate)) | return none
  let some frameLen := Word.checkedAdd 32 quotient padding | return none
  let channels := if (header >>> 6) &&& 0x3 = 3 then 1 else 2
  return some ⟨frameLen, sampleRate, channels, samples⟩

/-- What `parse_mp3` reports. -/
structure Mp3Info where
  frames : Nat
  sampleRate : Nat
  channels : Nat
  durationSeconds : Float

/-- The variables of the loop of `parse_mp3`. -/
structure Mp3Scan where
  offset : Nat
  frames : Nat
  sampleRate : Nat
  channels : Nat
  durationSeconds : Float

/-- `(frames > 0).then_some(Mp3Info { .. })`. -/
def Mp3Scan.info (scan : Mp3Scan) : Option Mp3Info :=
  if 0 < scan.frames then some ⟨scan.frames, scan.sampleRate, scan.channels, scan.durationSeconds⟩ else none

/-- `offset = offset.checked_add(1)?; continue`: the `?` leaves `parse_mp3` with `None`. -/
def Mp3Scan.skip (scan : Mp3Scan) : Loop.Step Mp3Scan (Option Mp3Info) :=
  match Word.checkedAdd 64 scan.offset 1 with
  | some offset => .next { scan with offset := offset }
  | none => .done none

/-- One round of the `while` loop of `parse_mp3`. -/
def mp3Round (data : List UInt8) (scan : Mp3Scan) : Option (Loop.Step Mp3Scan (Option Mp3Info)) := do
  let some stop := Word.checkedAdd 64 scan.offset 4 | return .done none
  if data.length < stop then return .done scan.info
  let some header ← parseMp3FrameHeader data scan.offset | return scan.skip
  let some frameEnd := Word.checkedAdd 64 scan.offset header.frameLen | return .done none
  if data.length < frameEnd then return scan.skip
  let first := scan.frames = 0
  return .next ⟨frameEnd, Word.saturatingAdd 32 scan.frames 1,
    if first then header.sampleRate else scan.sampleRate, if first then header.channels else scan.channels,
    scan.durationSeconds + header.samples.toFloat / header.sampleRate.toFloat⟩

/-- `parse_mp3`: the frames of the audio after the ID3 tag. -/
def parseMp3 (data : List UInt8) : Option (Option Mp3Info) := do
  let offset ← mp3AudioStart data
  Loop.result (Loop.run (mp3Round data) (data.length + 1) ⟨offset, 0, 0, 0, 0⟩)

/-! ## Tar -/

/-- The loop of `parse_tar_octal` from the bytes not read yet: leading NULs and spaces are
skipped, octal digits are read into a `u64` that sticks at `u64::MAX` on overflow, and any other
byte ends the field. -/
def parseTarOctalFrom (value : Nat) (sawDigit : Bool) : List UInt8 → Nat
  | [] => value
  | byte :: rest =>
      if 0x30 ≤ byte ∧ byte ≤ 0x37 then
        parseTarOctalFrom (((Word.checkedMul 64 value 8).bind fun shifted =>
          Word.checkedAdd 64 shifted (byte - 0x30).toNat).getD (Word.max 64)) true rest
      else if (byte = 0 ∨ byte = 0x20) ∧ sawDigit = false then parseTarOctalFrom value sawDigit rest
      else value

/-- `parse_tar_octal`. -/
def parseTarOctal (field : List UInt8) : Nat := parseTarOctalFrom 0 false field

/-- The kinds of tar entry the listing names. -/
inductive TarKind where
  | dir
  | link
  | file
  deriving DecidableEq, Repr

/-- What a line of the tar listing prints. -/
structure TarEntry where
  kind : TarKind
  size : Nat
  name : List UInt8
  deriving DecidableEq, Repr

/-- The variables of the loop of `tar_entries`. -/
structure TarScan where
  off : Nat
  entries : List TarEntry
  deriving DecidableEq, Repr

/-- One round of the `while` loop of `tar_entries`: one 512-byte header and the blocks of its data. -/
def tarRound (data : List UInt8) (scan : TarScan) : Option (Loop.Step TarScan (List TarEntry)) := do
  if data.length < scan.off + 512 then return .done scan.entries
  let block ← checkedRange data scan.off (scan.off + 512)
  if (← block[0]?) = 0 then return .done scan.entries
  let nameEnd := ((← checkedRange block 0 100).findIdx? (· == 0)).getD 100
  let name ← checkedRange block 0 nameEnd
  let size := parseTarOctal (← checkedRange block 124 136)
  let typeFlag ← block[156]?
  -- `b'5'` and `b'2'`
  let kind : TarKind := if typeFlag = 0x35 then .dir else if typeFlag = 0x32 then .link else .file
  let entries := scan.entries ++ [⟨kind, size, textOrInvalid name⟩]
  let some blocks := (Word.checkedAdd 64 size 511).map (fun rounded => rounded / 512 * 512)
    | return .done entries
  let some total := Word.checkedAdd 64 512 blocks | return .done entries
  let some off := Word.checkedAdd 64 scan.off total | return .done entries
  return .next ⟨off, entries⟩

/-- `tar_entries`. -/
def tarEntries (data : List UInt8) : Option (List TarEntry) :=
  Loop.result (Loop.run (tarRound data) (data.length + 1) ⟨0, []⟩)

/-! ## ZIP -/

/-- `CENTRAL_HEADER`, `b"PK\x01\x02"`. -/
def centralHeader : List UInt8 := [0x50, 0x4B, 0x01, 0x02]

/-- What a line of the ZIP listing prints. -/
structure ZipEntry where
  uncompressed : Nat
  compressed : Nat
  name : List UInt8
  deriving DecidableEq, Repr

/-- The variables of the loop of `zip_entries`. -/
structure ZipScan where
  offset : Nat
  entries : List ZipEntry
  deriving DecidableEq, Repr

/-- One round of the `while` loop of `zip_entries`: the next central directory header found by
its signature, and its name. -/
def zipRound (data : List UInt8) (scan : ZipScan) : Option (Loop.Step ZipScan (List ZipEntry)) := do
  if data.length < scan.offset + 46 then return .done scan.entries
  let some relative := List.windowPosition centralHeader (← checkedRange data scan.offset data.length)
    | return .done scan.entries
  let offset := scan.offset + relative
  let header ← checkedRange data offset (offset + 46)
  let compressed ← checkedReadLe header 20 4
  let uncompressed ← checkedReadLe header 24 4
  let nameLen ← checkedReadLe header 28 2
  let extraLen ← checkedReadLe header 30 2
  let commentLen ← checkedReadLe header 32 2
  let some stop := (Word.checkedAdd 64 offset 46).bind (Word.checkedAdd 64 · (nameLen + extraLen + commentLen))
    | return .done scan.entries
  if data.length < stop then return .done scan.entries
  let name ← checkedRange data (offset + 46) (offset + 46 + nameLen)
  return .next ⟨stop, scan.entries ++ [⟨uncompressed, compressed, textOrInvalid name⟩]⟩

/-- `zip_entries`. -/
def zipEntries (data : List UInt8) : Option (List ZipEntry) :=
  Loop.result (Loop.run (zipRound data) (data.length + 1) ⟨0, []⟩)

/-! ## MP4 -/

/-- `mp4_box_size`: a box's size, type and header length at `offset`; a size of `0` runs to the
end of the data and a size of `1` is followed by a 64-bit size. -/
def mp4BoxSize (data : List UInt8) (offset : Nat) : Option (Option (Nat × List UInt8 × Nat)) := do
  let some headerEnd := Word.checkedAdd 64 offset 8 | return none
  if data.length < headerEnd then return none
  let size32 ← checkedReadBe data offset 4
  let kind ← checkedRange data (offset + 4) (offset + 8)
  match size32 with
  | 0 => return some (data.length - offset, kind, 8)
  | 1 =>
      let some largeEnd := Word.checkedAdd 64 offset 16 | return none
      if data.length < largeEnd then return none
      return some (← checkedReadBe data (offset + 8) 8, kind, 16)
  | size => return some (size, kind, 8)

/-- What the MP4 viewer reports. -/
structure Mp4Summary where
  majorBrand : List UInt8
  compatibleBrands : List (List UInt8)
  hasMoov : Bool
  durationSeconds : Option Nat
  deriving DecidableEq, Repr

/-- `mp4_brand`: the text of a brand with NULs trimmed from both ends, or `"????"`.  A NUL byte
is never part of a longer UTF-8 character, so trimming bytes trims characters. -/
def mp4Brand (bytes : List UInt8) : List UInt8 :=
  if Utf8.valid (bytes.map UInt8.toNat) then ((bytes.dropWhile (· == 0)).reverse.dropWhile (· == 0)).reverse
  else [0x3F, 0x3F, 0x3F, 0x3F]

/-- `chunks_exact(size)`: the consecutive whole chunks, without the remainder. -/
def chunksExact (size : Nat) (bytes : List UInt8) : List (List UInt8) :=
  (List.range (bytes.length / size)).map fun index => (bytes.drop (index * size)).take size

/-- `parse_mvhd_duration`: the movie's duration in whole seconds, from a version 0 or 1 header. -/
def parseMvhdDuration (payload : List UInt8) : Option (Option Nat) := do
  let some version := payload.head? | return none
  if version = 0 ∧ 20 ≤ payload.length then
    let timescale ← checkedReadBe payload 12 4
    let duration ← checkedReadBe payload 16 4
    return if timescale ≠ 0 then some (duration / timescale) else none
  else if version = 1 ∧ 32 ≤ payload.length then
    let timescale ← checkedReadBe payload 20 4
    let duration ← checkedReadBe payload 24 8
    return if timescale ≠ 0 then some (duration / timescale) else none
  else return none

/-- The variables of the box loops of `parse_mp4_summary` and `parse_moov_summary`. -/
structure BoxScan where
  offset : Nat
  boxesSeen : Nat
  summary : Mp4Summary
  deriving DecidableEq, Repr

/-- One round of the box loop that `parse_mp4_summary` and `parse_moov_summary` both run, at most
128 boxes deep into the data: the box at `offset` is handed to `visit` with its type and
payload. -/
def boxRound (visit : List UInt8 → List UInt8 → Mp4Summary → Option Mp4Summary) (data : List UInt8)
    (scan : BoxScan) : Option (Loop.Step BoxScan Mp4Summary) := do
  if data.length < scan.offset + 8 ∨ 128 ≤ scan.boxesSeen then return .done scan.summary
  let some (size, kind, header) ← mp4BoxSize data scan.offset | return .done scan.summary
  if size < header then return .done scan.summary
  let some stop := Word.checkedAdd 64 scan.offset size | return .done scan.summary
  if data.length < stop then return .done scan.summary
  let payload ← checkedRange data (scan.offset + header) stop
  return .next ⟨stop, scan.boxesSeen + 1, ← visit kind payload scan.summary⟩

/-- The box loop run over the data from its start. -/
def walkBoxes (visit : List UInt8 → List UInt8 → Mp4Summary → Option Mp4Summary) (data : List UInt8)
    (summary : Mp4Summary) : Option Mp4Summary :=
  Loop.result (Loop.run (boxRound visit data) (data.length + 1) ⟨0, 0, summary⟩)

/-- What `parse_moov_summary` does with a box: an `mvhd` box sets the duration. -/
def moovBox (kind payload : List UInt8) (summary : Mp4Summary) : Option Mp4Summary := do
  -- `b"mvhd"`
  if kind = [0x6D, 0x76, 0x68, 0x64] then
    return { summary with durationSeconds := ← parseMvhdDuration payload }
  return summary

/-- `parse_moov_summary`. -/
def parseMoovSummary (data : List UInt8) (summary : Mp4Summary) : Option Mp4Summary :=
  walkBoxes moovBox data summary

/-- What `parse_mp4_summary` does with a box: an `ftyp` box of at least 8 bytes gives the major
brand and up to eight compatible brands, and a `moov` box is walked for its `mvhd`. -/
def summaryBox (kind payload : List UInt8) (summary : Mp4Summary) : Option Mp4Summary := do
  -- `b"ftyp"`
  if kind = [0x66, 0x74, 0x79, 0x70] ∧ 8 ≤ payload.length then
    let major ← checkedRange payload 0 4
    let rest ← checkedRange payload 8 payload.length
    return { summary with
      majorBrand := mp4Brand major
      compatibleBrands := ((chunksExact 4 rest).take 8).map mp4Brand }
  -- `b"moov"`
  if kind = [0x6D, 0x6F, 0x6F, 0x76] then
    return ← parseMoovSummary payload { summary with hasMoov := true }
  return summary

/-- The summary `parse_mp4_summary` starts from: brand `"unknown"`. -/
def unknownSummary : Mp4Summary :=
  ⟨[0x75, 0x6E, 0x6B, 0x6E, 0x6F, 0x77, 0x6E], [], false, none⟩

/-- `parse_mp4_summary`. -/
def parseMp4Summary (data : List UInt8) : Option Mp4Summary :=
  walkBoxes summaryBox data unknownSummary

/-! ## JPEG -/

/-- `MAX_IMG_W`. -/
def maxImgW : Nat := 1920

/-- `MAX_IMG_H`. -/
def maxImgH : Nat := 1080

/-- `is_jpeg_sof_marker`: the start-of-frame markers. -/
def isJpegSofMarker (marker : UInt8) : Bool :=
  marker ∈ [0xC0, 0xC1, 0xC2, 0xC3, 0xC5, 0xC6, 0xC7, 0xC9, 0xCA, 0xCB, 0xCD, 0xCE, 0xCF]

/-- `pos` moved past the bytes that `keep` holds of: the inner loops
`while pos < data.len() && keep(data[pos]) { pos += 1 }`, which test the bound before they index. -/
def skipWhile (keep : UInt8 → Bool) (data : List UInt8) (pos : Nat) : Nat :=
  pos + ((data.drop pos).takeWhile keep).length

/-- One round of the outer `while pos < data.len()` loop of `preflight_jpeg_header`: the next
marker, and the segment after it. -/
def jpegRound (data : List UInt8) (pos : Nat) :
    Option (Loop.Step Nat (Except String (Option (Nat × Nat)))) := do
  if data.length ≤ pos then return .done (.ok none)
  let pos := skipWhile (· != 0xFF) data pos
  if data.length ≤ pos + 1 then return .done (.ok none)
  let pos := skipWhile (· == 0xFF) data pos
  if data.length ≤ pos then return .done (.ok none)
  let marker ← data[pos]?
  let pos := pos + 1
  -- the markers without a segment: `TEM` and `RST0` to `EOI`
  if marker = 0x01 ∨ (0xD0 ≤ marker ∧ marker ≤ 0xD9) then
    return if marker = 0xD9 then .done (.error "JPEG ended before image dimensions") else .next pos
  if data.length < pos + 2 then return .done (.ok none)
  let segmentLen := beValue [← data[pos]?, ← data[pos + 1]?]
  if segmentLen < 2 then return .done (.error "Invalid JPEG segment length")
  let segmentStart := pos + 2
  let segmentEnd := pos + segmentLen
  if data.length < segmentEnd then return .done (.ok none)
  if isJpegSofMarker marker then
    if segmentLen < 7 then return .done (.error "Invalid JPEG SOF segment")
    let height := beValue [← data[segmentStart + 1]?, ← data[segmentStart + 2]?]
    let width := beValue [← data[segmentStart + 3]?, ← data[segmentStart + 4]?]
    if maxImgW < width ∨ maxImgH < height then
      return .done (.error ("Image too large: " ++ toString width ++ "x" ++ toString height))
    return .done (.ok (some (width, height)))
  -- `SOS`
  if marker = 0xDA then return .done (.error "JPEG scan started before image dimensions")
  return .next segmentEnd

/-- `preflight_jpeg_header`: the image's width and height once the start-of-frame segment is in
the data. -/
def preflightJpegHeader (data : List UInt8) : Option (Except String (Option (Nat × Nat))) := do
  if data.length < 2 then return .ok none
  if data.take 2 ≠ [0xFF, 0xD8] then return .error "Not a JPEG file"
  Loop.result (Loop.run (jpegRound data) (data.length + 1) 2)

/-! ## RLE animations -/

/-- `RLE_MAX_FRAMES`. -/
def rleMaxFrames : Nat := 10000

/-- `RLE_MAGIC`, `b"BARL"`. -/
def rleMagic : List UInt8 := [0x42, 0x41, 0x52, 0x4C]

/-- `RLE_HDR_SIZE`. -/
def rleHdrSize : Nat := 16

/-- `RleError`. -/
inductive RleError where
  | tooShort
  | badMagic
  | badVersion (version : Nat)
  | zeroFrames
  | truncated
  | frameOutOfRange
  deriving DecidableEq, Repr

/-- `RleFile`. -/
structure RleFile where
  frameCount : Nat
  frameWidth : Nat
  frameHeight : Nat
  frameOffsets : List Nat
  totalPixels : Nat
  deriving DecidableEq, Repr

/-- `RleFile::parse`: the header, and the offset of each frame from the table of chunk sizes. -/
def RleFile.parse (data : List UInt8) : Option (Except RleError RleFile) := do
  if data.length < rleHdrSize then return .error .tooShort
  if (← checkedRange data 0 4) ≠ rleMagic then return .error .badMagic
  let version := leValue [← data[4]?, ← data[5]?, ← data[6]?, ← data[7]?]
  if version ≠ 1 then return .error (.badVersion version)
  let frameCount := leValue [← data[8]?, ← data[9]?, ← data[10]?, ← data[11]?]
  if frameCount = 0 then return .error .zeroFrames
  if rleMaxFrames < frameCount then return .error .truncated
  let frameWidth := leValue [← data[12]?, ← data[13]?]
  let frameHeight := leValue [← data[14]?, ← data[15]?]
  let some dataStart := (Word.checkedMul 64 frameCount 2).bind (Word.checkedAdd 64 rleHdrSize)
    | return .error .truncated
  if data.length ≤ dataStart then return .error .truncated
  let (frameOffsets, _) ← (List.range frameCount).foldlM (fun (offsets, offset) index => do
      let sizeOffset := rleHdrSize + index * 2
      let chunkSize := leValue [← data[sizeOffset]?, ← data[sizeOffset + 1]?]
      return (offsets ++ [offset], Word.saturatingAdd 64 offset chunkSize)) ([], dataStart)
  return .ok ⟨frameCount, frameWidth, frameHeight, frameOffsets, frameWidth * frameHeight⟩

/-- The variables of the loop of `decode_rle_inner`. -/
structure RunScan where
  pixel : Nat
  cursor : Nat
  buffer : List UInt8
  deriving DecidableEq, Repr

/-- One round of the loop of `decode_rle_inner`: a fill byte and a 16-bit run length, written
over the run's pixels up to `total`. -/
def decodeRleRound (data : List UInt8) (total : Nat) (scan : RunScan) :
    Option (Loop.Step RunScan (List UInt8)) := do
  if data.length < scan.cursor + 3 ∨ total ≤ scan.pixel then return .done scan.buffer
  let fill ← data[scan.cursor]?
  let runLen := leValue [← data[scan.cursor + 1]?, ← data[scan.cursor + 2]?]
  let stop := min (Word.saturatingAdd 64 scan.pixel runLen) total
  return .next ⟨stop, scan.cursor + 3, ← checkedFill scan.buffer scan.pixel stop fill⟩

/-- `decode_rle_inner`: the buffer after the runs of a frame's data. -/
def decodeRleInner (data buffer : List UInt8) (total : Nat) : Option (List UInt8) :=
  Loop.result (Loop.run (decodeRleRound data total) (data.length + 1) ⟨0, 0, buffer⟩)

/-- `RleFile::decode_frame`: whether the frame's data lies in the file, with the buffer the frame
is decoded into. -/
def RleFile.decodeFrame (file : RleFile) (data : List UInt8) (frameIndex : Nat) (buffer : List UInt8) :
    Option (Except RleError (Bool × List UInt8)) := do
  if buffer.length < file.totalPixels then return .error .tooShort
  if file.frameOffsets.length ≤ frameIndex then return .error .frameOutOfRange
  let start ← file.frameOffsets[frameIndex]?
  let stop ← (if frameIndex + 1 < file.frameOffsets.length then file.frameOffsets[frameIndex + 1]?
    else some data.length)
  if data.length ≤ start ∨ data.length < stop ∨ stop < start then return .ok (false, buffer)
  let frame ← checkedRange data start stop
  return .ok (true, ← decodeRleInner frame buffer file.totalPixels)

end Fullerene.Solvent
