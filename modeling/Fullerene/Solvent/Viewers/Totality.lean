import Fullerene.Solvent.Viewers

/-!
# Which viewer parsers can panic

Every loop of the viewers moves its cursor forward in each round, so each one
stops within the fuel the model gives it (one round more than the data is
long).  The tar, MP3, MP4, JPEG and RLE parsers never index outside their data
or buffer, so they return for every input (`tarEntries_isSome`,
`parseMp3_isSome`, `parseMp4Summary_isSome`, `preflightJpegHeader_isSome`,
`decodeFrame_isSome`).  `zip_entries` does not: it finds a central directory
signature anywhere past the cursor and then reads a 46-byte header there
without checking that 46 bytes are left (`zipRound_eq_none_of_late_header`).

Each round has one spec lemma that walks its body once: it does not panic
(where it cannot), and when it goes on its cursor has moved forward inside the
data.  `Loop.run_done_of_variant` then gives the run.
-/

namespace Fullerene.Solvent

open Bytes

/-! ## MP3 -/

/-- `mp3_audio_start` never panics. -/
theorem mp3AudioStart_isSome (data : List UInt8) : ∃ offset, mp3AudioStart data = some offset := by
  unfold mp3AudioStart
  split
  · exact ⟨_, rfl⟩
  rw [checkedRange_of_le (by omega) (by omega)]
  simp only [Option.bind_eq_bind, Option.bind_some]
  split
  · exact ⟨_, rfl⟩
  rw [checkedRange_of_le (by omega) (by omega)]
  simp only [Option.bind_some]
  split
  · exact ⟨_, rfl⟩
  rw [List.getElem?_eq_getElem (by omega)]
  exact ⟨_, rfl⟩

/-- A valid bitrate index finds a bitrate of 8 to 320 kbit/s in either table. -/
theorem mpegBitrate_spec {index : Nat} (low : index ≠ 0) (high : index < 15) (version : Nat) :
    ∃ kbps, (if version = 3 then mpeg1Bitrates[index]? else mpeg2Bitrates[index]?) = some kbps ∧
      8 ≤ kbps ∧ kbps ≤ 320 := by
  have table : ∀ index < 15, index ≠ 0 →
      (mpeg1Bitrates[index]?.any fun kbps => 8 ≤ kbps && kbps ≤ 320) = true ∧
      (mpeg2Bitrates[index]?.any fun kbps => 8 ≤ kbps && kbps ≤ 320) = true := by
    decide
  obtain ⟨first, second⟩ := table index high low
  split
  · simpa [Option.any_eq_true] using first
  · simpa [Option.any_eq_true] using second

/-- A version other than the reserved one and a valid index give a sample rate of at most
48 kHz. -/
theorem mp3SampleRate_spec {version index : Nat} (versionLe : version ≤ 3) (reserved : version ≠ 1)
    (indexLt : index < 3) : ∃ rate, mp3SampleRate version index = some (some rate) ∧ 0 < rate ∧ rate ≤ 48000 := by
  have table : ∀ version < 4, version ≠ 1 → ∀ index < 3,
      ((mp3SampleRate version index).any fun rate => rate.any fun rate => 0 < rate && rate ≤ 48000) = true := by
    decide
  have known := table version (by omega) reserved index indexLt
  simp only [Option.any_eq_true, Bool.and_eq_true, decide_eq_true_eq] at known
  obtain ⟨found, isSome, rate, rfl, positive, bounded⟩ := known
  exact ⟨rate, isSome, positive, bounded⟩

/-- `parse_mp3_frame_header` never panics, and a frame it accepts is at least a byte long: the
least bitrate over the greatest sample rate still gives `72000 * 8 / 48000 = 12` bytes. -/
theorem parseMp3FrameHeader_spec (data : List UInt8) (offset : Nat) :
    ∃ parsed, parseMp3FrameHeader data offset = some parsed ∧ ∀ header, parsed = some header → 0 < header.frameLen := by
  unfold parseMp3FrameHeader
  cases added : Word.checkedAdd 64 offset 4 with
  | none => exact ⟨none, rfl, nofun⟩
  | some stop =>
  obtain ⟨-, rfl⟩ := Word.checkedAdd_eq_some_iff.mp added
  dsimp only
  cases ranged : checkedRange data offset (offset + 4) with
  | none => exact ⟨none, rfl, nofun⟩
  | some bytes =>
  obtain ⟨b0, b1, b2, b3, rfl⟩ :=
    List.length_eq_four.mp (show bytes.length = 4 by have := length_of_checkedRange ranged; omega)
  dsimp only [List.getElem?_cons_zero, List.getElem?_cons_succ, Option.bind_eq_bind, Option.bind_some]
  generalize beValue [b0, b1, b2, b3] = header
  split
  · exact ⟨none, rfl, nofun⟩
  split
  · exact ⟨none, rfl, nofun⟩
  rename_i guards
  simp only [not_or] at guards
  obtain ⟨reserved, -, noBitrate, badBitrate, badRate⟩ := guards
  obtain ⟨kbps, looked, kbpsLow, kbpsHigh⟩ :=
    mpegBitrate_spec noBitrate (by have : header >>> 12 &&& 15 ≤ 15 := Nat.and_le_right; omega) (header >>> 19 &&& 3)
  obtain ⟨rate, rated, ratePositive, rateHigh⟩ := mp3SampleRate_spec Nat.and_le_right reserved
    (show header >>> 10 &&& 3 < 3 by have : header >>> 10 &&& 3 ≤ 3 := Nat.and_le_right; omega)
  rw [looked, Option.bind_some, rated, Option.bind_some]
  dsimp only
  have coefficient : 72000 ≤ (if header >>> 19 &&& 3 = 3 then 144000 else 72000) ∧
      (if header >>> 19 &&& 3 = 3 then 144000 else 72000) ≤ 144000 := by
    split <;> omega
  generalize (if header >>> 19 &&& 3 = 3 then 144000 else 72000) = c at coefficient ⊢
  have productHigh : c * kbps ≤ 144000 * 320 := Nat.mul_le_mul coefficient.2 kbpsHigh
  have productLow : 72000 * 8 ≤ c * kbps := Nat.mul_le_mul coefficient.1 kbpsLow
  have long : 1 ≤ c * kbps / rate := (Nat.le_div_iff_mul_le ratePositive).mpr (by omega)
  have short : c * kbps / rate ≤ c * kbps := Nat.div_le_self _ _
  have padding : header >>> 9 &&& 1 ≤ 1 := Nat.and_le_right
  rw [Word.checkedMul_eq_some_iff.mpr ⟨by omega, rfl⟩]
  dsimp only
  rw [if_neg (by omega)]
  dsimp only
  rw [Word.checkedAdd_of_lt (by omega)]
  exact ⟨_, rfl, fun parsed found => by cases found; simp only; omega⟩

/-- Skipping a byte moves the cursor forward. -/
theorem Mp3Scan.lt_of_skip {scan scan' : Mp3Scan} (skipped : scan.skip = .next scan') : scan.offset < scan'.offset := by
  unfold Mp3Scan.skip at skipped
  split at skipped
  · rename_i offset added
    cases skipped
    obtain ⟨-, rfl⟩ := Word.checkedAdd_eq_some_iff.mp added
    simp only
    omega
  · cases skipped

/-- A round of `parse_mp3` never panics, and when it goes on it has moved its cursor forward from
a position four bytes before the end or earlier: past one byte, or past a whole frame. -/
theorem mp3Round_spec (data : List UInt8) (scan : Mp3Scan) :
    ∃ step, mp3Round data scan = some step ∧
      ∀ scan', step = .next scan' → scan.offset + 4 ≤ data.length ∧ scan.offset < scan'.offset := by
  unfold mp3Round
  cases added : Word.checkedAdd 64 scan.offset 4 with
  | none => exact ⟨_, rfl, nofun⟩
  | some stop =>
  obtain ⟨-, rfl⟩ := Word.checkedAdd_eq_some_iff.mp added
  dsimp only
  split
  · exact ⟨_, rfl, nofun⟩
  rename_i fits
  obtain ⟨parsed, parsedEq, positive⟩ := parseMp3FrameHeader_spec data scan.offset
  rw [parsedEq]
  simp only [Option.bind_eq_bind, Option.bind_some]
  cases parsed with
  | none => exact ⟨_, rfl, fun scan' skipped => ⟨by omega, Mp3Scan.lt_of_skip skipped⟩⟩
  | some header =>
      have long := positive header rfl
      dsimp only
      split
      · rename_i frameEnd ended
        obtain ⟨-, rfl⟩ := Word.checkedAdd_eq_some_iff.mp ended
        split
        · exact ⟨_, rfl, fun scan' skipped => ⟨by omega, Mp3Scan.lt_of_skip skipped⟩⟩
        · exact ⟨_, rfl, fun scan' stepped => by cases stepped; exact ⟨by omega, by simp only; omega⟩⟩
      · exact ⟨_, rfl, nofun⟩

/-- `parse_mp3` returns for every input. -/
theorem parseMp3_isSome (data : List UInt8) : ∃ info, parseMp3 data = some info := by
  have advances : ∀ scan : Mp3Scan, True →
      Loop.Advances (fun scan : Mp3Scan => data.length - scan.offset) (fun _ => True) scan (mp3Round data scan) := by
    intro scan _
    obtain ⟨step, stepped, next⟩ := mp3Round_spec data scan
    refine Loop.advances_of_exists ⟨step, stepped, fun scan' isNext => ?_⟩
    have moved := next scan' isNext
    exact ⟨trivial, by omega⟩
  obtain ⟨start, started⟩ := mp3AudioStart_isSome data
  obtain ⟨info, ran⟩ : ∃ info, Loop.run (mp3Round data) (data.length + 1) ⟨start, 0, 0, 0, 0⟩ = some (.done info) :=
    Loop.run_done_of_variant advances trivial (by omega)
  exact ⟨info, by simp only [parseMp3, started, Option.bind_eq_bind, Option.bind_some, ran, Loop.result_done]⟩

/-! ## MP4 -/

/-- `mp4_box_size` never panics, and a box header it reads is at least 8 bytes long. -/
theorem mp4BoxSize_spec (data : List UInt8) (offset : Nat) :
    ∃ box, mp4BoxSize data offset = some box ∧ ∀ size kind header, box = some (size, kind, header) → 8 ≤ header := by
  unfold mp4BoxSize
  cases added : Word.checkedAdd 64 offset 8 with
  | none => exact ⟨none, rfl, nofun⟩
  | some headerEnd =>
  obtain ⟨-, rfl⟩ := Word.checkedAdd_eq_some_iff.mp added
  dsimp only
  split
  · exact ⟨none, rfl, nofun⟩
  rw [checkedReadBe_of_le (by omega), checkedRange_of_le (by omega) (by omega)]
  simp only [Option.bind_eq_bind, Option.bind_some]
  split
  · exact ⟨_, rfl, fun _ _ _ found => by cases found; exact Nat.le_refl 8⟩
  · cases large : Word.checkedAdd 64 offset 16 with
    | none => exact ⟨none, rfl, nofun⟩
    | some largeEnd =>
        obtain ⟨-, rfl⟩ := Word.checkedAdd_eq_some_iff.mp large
        dsimp only
        split
        · exact ⟨none, rfl, nofun⟩
        · rw [checkedReadBe_of_le (by omega)]
          exact ⟨_, rfl, fun _ _ _ found => by cases found; omega⟩
  · exact ⟨_, rfl, fun _ _ _ found => by cases found; exact Nat.le_refl 8⟩
/-- `parse_mvhd_duration` never panics. -/
theorem parseMvhdDuration_isSome (payload : List UInt8) : ∃ duration, parseMvhdDuration payload = some duration := by
  unfold parseMvhdDuration
  cases payload with
  | nil => exact ⟨none, rfl⟩
  | cons version rest =>
  dsimp only [List.head?_cons]
  split
  · rename_i fits
    rw [checkedReadBe_of_le (by omega), checkedReadBe_of_le (by omega)]
    exact ⟨_, rfl⟩
  split
  · rename_i fits
    rw [checkedReadBe_of_le (by omega), checkedReadBe_of_le (by omega)]
    exact ⟨_, rfl⟩
  · exact ⟨_, rfl⟩

/-- A round of the box loop never panics when `visit` does not, and when it goes on it has moved
past a whole box of at least 8 bytes. -/
theorem boxRound_spec {visit : List UInt8 → List UInt8 → Mp4Summary → Option Mp4Summary}
    (total : ∀ kind payload summary, ∃ summary', visit kind payload summary = some summary')
    (data : List UInt8) (scan : BoxScan) :
    ∃ step, boxRound visit data scan = some step ∧
      ∀ scan', step = .next scan' → scan.offset + 8 ≤ data.length ∧ scan.offset + 8 ≤ scan'.offset := by
  unfold boxRound
  split
  · exact ⟨_, rfl, nofun⟩
  rename_i fits
  obtain ⟨box, boxEq, headerLong⟩ := mp4BoxSize_spec data scan.offset
  rw [boxEq]
  simp only [Option.bind_eq_bind, Option.bind_some]
  rcases box with _ | ⟨size, kind, header⟩
  · exact ⟨_, rfl, nofun⟩
  have long := headerLong size kind header rfl
  dsimp only
  split
  · exact ⟨_, rfl, nofun⟩
  rename_i covers
  cases added : Word.checkedAdd 64 scan.offset size with
  | none => exact ⟨_, rfl, nofun⟩
  | some stop =>
  obtain ⟨-, rfl⟩ := Word.checkedAdd_eq_some_iff.mp added
  dsimp only
  split
  · exact ⟨_, rfl, nofun⟩
  -- the payload starts after the header and ends with the box, inside the data
  rw [checkedRange_of_le (by omega) (by omega), Option.bind_some]
  obtain ⟨summary', visited⟩ := total kind ((data.drop (scan.offset + header)).take
    (scan.offset + size - (scan.offset + header))) scan.summary
  rw [visited, Option.bind_some]
  exact ⟨_, rfl, fun scan' stepped => by cases stepped; exact ⟨by omega, by simp only; omega⟩⟩

/-- The box loop returns whenever `visit` does. -/
theorem walkBoxes_isSome {visit : List UInt8 → List UInt8 → Mp4Summary → Option Mp4Summary}
    (total : ∀ kind payload summary, ∃ summary', visit kind payload summary = some summary')
    (data : List UInt8) (summary : Mp4Summary) : ∃ summary', walkBoxes visit data summary = some summary' := by
  have advances : ∀ scan : BoxScan, True →
      Loop.Advances (fun scan : BoxScan => data.length - scan.offset) (fun _ => True) scan
        (boxRound visit data scan) := by
    intro scan _
    obtain ⟨step, stepped, next⟩ := boxRound_spec total data scan
    refine Loop.advances_of_exists ⟨step, stepped, fun scan' isNext => ?_⟩
    have moved := next scan' isNext
    exact ⟨trivial, by omega⟩
  obtain ⟨summary', ran⟩ : ∃ summary', Loop.run (boxRound visit data) (data.length + 1) ⟨0, 0, summary⟩ =
      some (.done summary') :=
    Loop.run_done_of_variant advances trivial (by omega)
  exact ⟨summary', by rw [walkBoxes, ran, Loop.result_done]⟩

/-- `parse_moov_summary` returns for every payload. -/
theorem parseMoovSummary_isSome (data : List UInt8) (summary : Mp4Summary) :
    ∃ summary', parseMoovSummary data summary = some summary' := by
  refine walkBoxes_isSome (fun kind payload summary => ?_) data summary
  unfold moovBox
  split
  · obtain ⟨duration, parsed⟩ := parseMvhdDuration_isSome payload
    exact ⟨_, by rw [parsed]; rfl⟩
  · exact ⟨_, rfl⟩

/-- `parse_mp4_summary` returns for every input. -/
theorem parseMp4Summary_isSome (data : List UInt8) : ∃ summary, parseMp4Summary data = some summary := by
  refine walkBoxes_isSome (fun kind payload summary => ?_) data unknownSummary
  unfold summaryBox
  split
  · rename_i ftyp
    -- an `ftyp` payload of 8 bytes or more holds the major brand and the list after the version
    rw [checkedRange_of_le (by omega) (by omega), checkedRange_of_le (by omega) (Nat.le_refl _)]
    exact ⟨_, rfl⟩
  split
  · exact parseMoovSummary_isSome payload { summary with hasMoov := true }
  · exact ⟨_, rfl⟩

/-! ## JPEG -/

theorem le_skipWhile (keep : UInt8 → Bool) (data : List UInt8) (pos : Nat) : pos ≤ skipWhile keep data pos :=
  Nat.le_add_right _ _

/-- A round of `preflight_jpeg_header` never panics, and when it goes on it has moved its cursor
forward inside the data: past a marker without a segment, or past a whole segment. -/
theorem jpegRound_spec (data : List UInt8) (pos : Nat) :
    ∃ step, jpegRound data pos = some step ∧
      ∀ pos', step = .next pos' → pos < data.length ∧ pos < pos' ∧ pos' ≤ data.length := by
  unfold jpegRound
  by_cases ended : data.length ≤ pos
  · rw [if_pos ended]
    exact ⟨_, rfl, nofun⟩
  rw [if_neg ended]
  dsimp only
  have first := le_skipWhile (· != 0xFF) data pos
  generalize skipWhile (· != 0xFF) data pos = found at first ⊢
  by_cases lastByte : data.length ≤ found + 1
  · rw [if_pos lastByte]
    exact ⟨_, rfl, nofun⟩
  rw [if_neg lastByte]
  have second := le_skipWhile (· == 0xFF) data found
  generalize skipWhile (· == 0xFF) data found = markerAt at second ⊢
  by_cases past : data.length ≤ markerAt
  · rw [if_pos past]
    exact ⟨_, rfl, nofun⟩
  rw [if_neg past, List.getElem?_eq_getElem (by omega), Option.bind_eq_bind, Option.bind_some]
  generalize data[markerAt] = marker
  by_cases standalone : marker = 1 ∨ 208 ≤ marker ∧ marker ≤ 217
  · rw [if_pos standalone]
    refine ⟨_, rfl, fun pos' stepped => ?_⟩
    split at stepped
    · cases stepped
    · cases stepped
      omega
  rw [if_neg standalone]
  by_cases noLength : data.length < markerAt + 1 + 2
  · rw [if_pos noLength]
    exact ⟨_, rfl, nofun⟩
  rw [if_neg noLength, List.getElem?_eq_getElem (by omega), Option.bind_some, List.getElem?_eq_getElem (by omega),
    Option.bind_some]
  generalize beValue [_, _] = segmentLen
  by_cases tiny : segmentLen < 2
  · rw [if_pos tiny]
    exact ⟨_, rfl, nofun⟩
  rw [if_neg tiny]
  by_cases overrun : data.length < markerAt + 1 + segmentLen
  · rw [if_pos overrun]
    exact ⟨_, rfl, nofun⟩
  rw [if_neg overrun]
  by_cases sof : isJpegSofMarker marker = true
  · rw [if_pos sof]
    by_cases shortFrame : segmentLen < 7
    · rw [if_pos shortFrame]
      exact ⟨_, rfl, nofun⟩
    -- the height and width lie inside the segment
    rw [if_neg shortFrame, List.getElem?_eq_getElem (by omega), Option.bind_some, List.getElem?_eq_getElem (by omega),
      Option.bind_some, List.getElem?_eq_getElem (by omega), Option.bind_some, List.getElem?_eq_getElem (by omega),
      Option.bind_some]
    split
    · exact ⟨_, rfl, nofun⟩
    · exact ⟨_, rfl, nofun⟩
  rw [if_neg sof]
  split
  · exact ⟨_, rfl, nofun⟩
  · exact ⟨_, rfl, fun pos' stepped => by cases stepped; omega⟩

/-- `preflight_jpeg_header` returns for every input. -/
theorem preflightJpegHeader_isSome (data : List UInt8) : ∃ result, preflightJpegHeader data = some result := by
  have advances : ∀ pos : Nat, True →
      Loop.Advances (fun pos : Nat => data.length - pos) (fun _ => True) pos (jpegRound data pos) := by
    intro pos _
    obtain ⟨step, stepped, next⟩ := jpegRound_spec data pos
    refine Loop.advances_of_exists ⟨step, stepped, fun pos' isNext => ?_⟩
    have moved := next pos' isNext
    exact ⟨trivial, by omega⟩
  unfold preflightJpegHeader
  by_cases short : data.length < 2
  · rw [if_pos short]
    exact ⟨_, rfl⟩
  rw [if_neg short]
  by_cases magic : data.take 2 ≠ [0xFF, 0xD8]
  · rw [if_pos magic]
    exact ⟨_, rfl⟩
  rw [if_neg magic]
  obtain ⟨result, ran⟩ : ∃ result, Loop.run (jpegRound data) (data.length + 1) 2 = some (.done result) :=
    Loop.run_done_of_variant advances trivial (by omega)
  exact ⟨result, by rw [ran, Loop.result_done]⟩

/-- The prefix of the source's test: an `APP0` segment, then a start-of-frame segment of a 2 by 1
image. -/
example : preflightJpegHeader [0xFF, 0xD8, 0xFF, 0xE0, 0x00, 0x04, 0x12, 0x34, 0xFF, 0xC0, 0x00, 0x0B, 0x08, 0x00,
    0x01, 0x00, 0x02, 0x01, 0x01, 0x11, 0x00] = some (.ok (some (2, 1))) := by
  decide

/-! ## RLE animations -/

/-- `RleFile::parse` never panics, and a file it accepts has fewer than `2 ^ 32` pixels a frame. -/
theorem RleFile.parse_spec (data : List UInt8) :
    ∃ parsed, RleFile.parse data = some parsed ∧ ∀ file, parsed = .ok file → file.totalPixels < 2 ^ 32 := by
  unfold RleFile.parse
  by_cases short : data.length < rleHdrSize
  · rw [if_pos short]
    exact ⟨_, rfl, nofun⟩
  rw [if_neg short]
  unfold rleHdrSize at short
  rw [checkedRange_of_le (by omega) (by omega), Option.bind_eq_bind, Option.bind_some]
  by_cases magic : (data.drop 0).take (4 - 0) ≠ rleMagic
  · rw [if_pos magic]
    exact ⟨_, rfl, nofun⟩
  rw [if_neg magic]
  -- the header's twelve fixed bytes lie inside its 16
  simp only [List.getElem?_eq_getElem (show 4 < data.length by omega),
    List.getElem?_eq_getElem (show 5 < data.length by omega), List.getElem?_eq_getElem (show 6 < data.length by omega),
    List.getElem?_eq_getElem (show 7 < data.length by omega), List.getElem?_eq_getElem (show 8 < data.length by omega),
    List.getElem?_eq_getElem (show 9 < data.length by omega), List.getElem?_eq_getElem (show 10 < data.length by omega),
    List.getElem?_eq_getElem (show 11 < data.length by omega), List.getElem?_eq_getElem (show 12 < data.length by omega),
    List.getElem?_eq_getElem (show 13 < data.length by omega), List.getElem?_eq_getElem (show 14 < data.length by omega),
    List.getElem?_eq_getElem (show 15 < data.length by omega), Option.bind_eq_bind, Option.bind_some]
  have width : leValue [data[12], data[13]] < 256 ^ 2 := leValue_lt _
  have height : leValue [data[14], data[15]] < 256 ^ 2 := leValue_lt _
  generalize leValue [data[8], data[9], data[10], data[11]] = frameCount
  generalize leValue [data[12], data[13]] = frameWidth at width ⊢
  generalize leValue [data[14], data[15]] = frameHeight at height ⊢
  split
  · exact ⟨_, rfl, nofun⟩
  split
  · exact ⟨_, rfl, nofun⟩
  split
  · exact ⟨_, rfl, nofun⟩
  split
  · rename_i dataStart started
    obtain ⟨doubled, multiplied, added⟩ := Option.bind_eq_some_iff.mp started
    obtain ⟨-, rfl⟩ := Word.checkedMul_eq_some_iff.mp multiplied
    obtain ⟨-, rfl⟩ := Word.checkedAdd_eq_some_iff.mp added
    split
    · exact ⟨_, rfl, nofun⟩
    rename_i fits
    unfold rleHdrSize at fits ⊢
    -- every entry of the table of chunk sizes lies before the frames' data
    have table : ∀ acc : List Nat × Nat, ∀ index ∈ List.range frameCount, ∃ acc',
        (data[16 + index * 2]?.bind fun low => data[16 + index * 2 + 1]?.bind fun high =>
          pure (acc.1 ++ [acc.2], Word.saturatingAdd 64 acc.2 (leValue [low, high]))) = some acc' := by
      intro acc index member
      have below := List.mem_range.mp member
      rw [List.getElem?_eq_getElem (by omega), Option.bind_some, List.getElem?_eq_getElem (by omega),
        Option.bind_some]
      exact ⟨_, rfl⟩
    obtain ⟨offsets, folded⟩ := Loop.foldlM_isSome table ([], 16 + frameCount * 2)
    rw [folded, Option.bind_some]
    refine ⟨_, rfl, fun file parsed => ?_⟩
    cases parsed
    calc frameWidth * frameHeight < 256 ^ 2 * 256 ^ 2 := Nat.mul_lt_mul'' width height
      _ = 2 ^ 32 := by norm_num
  · exact ⟨_, rfl, nofun⟩

/-- A round of `decode_rle_inner` never panics while the buffer holds the `total` pixels: the run
it fills starts below `total` and ends at or after its start.  When it goes on it keeps the
buffer's length and has read a whole three-byte run. -/
theorem decodeRleRound_spec {data : List UInt8} {total : Nat} (fits : total < 2 ^ 64) (scan : RunScan)
    (holds : total ≤ scan.buffer.length) :
    ∃ step, decodeRleRound data total scan = some step ∧
      ∀ scan', step = .next scan' → total ≤ scan'.buffer.length ∧ scan.cursor + 3 ≤ data.length ∧
        scan'.cursor = scan.cursor + 3 := by
  unfold decodeRleRound
  by_cases finished : data.length < scan.cursor + 3 ∨ total ≤ scan.pixel
  · rw [if_pos finished]
    exact ⟨_, rfl, nofun⟩
  rw [if_neg finished]
  simp only [not_or, Nat.not_lt] at finished
  rw [List.getElem?_eq_getElem (by omega), Option.bind_eq_bind, Option.bind_some, List.getElem?_eq_getElem (by omega),
    Option.bind_some, List.getElem?_eq_getElem (by omega), Option.bind_some]
  -- the run starts below `total`, so its saturated end is not before its start
  have ordered : scan.pixel ≤ min (Word.saturatingAdd 64 scan.pixel (leValue [data[scan.cursor + 1], data[scan.cursor + 2]])) total := by
    unfold Word.saturatingAdd Word.max
    omega
  obtain ⟨filled, fillEq, fillLength⟩ :=
    checkedFill_of_le data[scan.cursor] ordered (Nat.le_trans (Nat.min_le_right _ _) holds)
  dsimp only
  rw [fillEq, Option.bind_eq_bind, Option.bind_some]
  exact ⟨_, rfl, fun scan' stepped => by cases stepped; exact ⟨by simp only; omega, by omega, rfl⟩⟩

/-- `decode_rle_inner` returns when the buffer holds the `total` pixels. -/
theorem decodeRleInner_isSome (data : List UInt8) {buffer : List UInt8} {total : Nat} (fits : total < 2 ^ 64)
    (holds : total ≤ buffer.length) : ∃ buffer', decodeRleInner data buffer total = some buffer' := by
  have advances : ∀ scan : RunScan, total ≤ scan.buffer.length →
      Loop.Advances (fun scan : RunScan => data.length - scan.cursor) (fun scan => total ≤ scan.buffer.length) scan
        (decodeRleRound data total scan) := by
    intro scan holds
    obtain ⟨step, stepped, next⟩ := decodeRleRound_spec fits scan holds
    refine Loop.advances_of_exists ⟨step, stepped, fun scan' isNext => ?_⟩
    obtain ⟨kept, inside, moved⟩ := next scan' isNext
    exact ⟨kept, by omega⟩
  obtain ⟨buffer', ran⟩ : ∃ buffer', Loop.run (decodeRleRound data total) (data.length + 1) ⟨0, 0, buffer⟩ =
      some (.done buffer') :=
    Loop.run_done_of_variant advances holds (by omega)
  exact ⟨buffer', by rw [decodeRleInner, ran, Loop.result_done]⟩

/-- `RleFile::decode_frame` returns for every frame index, buffer and data, whatever the file's
offsets: it checks the buffer's size and the frame's range itself. -/
theorem decodeFrame_isSome (file : RleFile) (data : List UInt8) (frameIndex : Nat) (buffer : List UInt8)
    (fits : file.totalPixels < 2 ^ 64) : ∃ result, file.decodeFrame data frameIndex buffer = some result := by
  unfold RleFile.decodeFrame
  by_cases small : buffer.length < file.totalPixels
  · rw [if_pos small]
    exact ⟨_, rfl⟩
  rw [if_neg small]
  by_cases outside : file.frameOffsets.length ≤ frameIndex
  · rw [if_pos outside]
    exact ⟨_, rfl⟩
  rw [if_neg outside, List.getElem?_eq_getElem (by omega), Option.bind_eq_bind, Option.bind_some]
  -- the frame ends where the next one starts, or with the data
  obtain ⟨stop, stopped⟩ : ∃ stop, (if frameIndex + 1 < file.frameOffsets.length then
      file.frameOffsets[frameIndex + 1]? else some data.length) = some stop := by
    split
    · exact ⟨_, List.getElem?_eq_getElem (by omega)⟩
    · exact ⟨_, rfl⟩
  rw [stopped, Option.bind_some]
  split
  · exact ⟨_, rfl⟩
  rename_i inside
  simp only [not_or, Nat.not_le, Nat.not_lt] at inside
  rw [checkedRange_of_le (by omega) (by omega), Option.bind_eq_bind, Option.bind_some]
  obtain ⟨buffer', decoded⟩ := decodeRleInner_isSome ((data.drop file.frameOffsets[frameIndex]).take
    (stop - file.frameOffsets[frameIndex])) fits (Nat.le_of_not_lt small)
  rw [decoded, Option.bind_some]
  exact ⟨_, rfl⟩

/-- The source's sample: two 2 by 2 frames of two runs each. -/
example : (RleFile.parse [0x42, 0x41, 0x52, 0x4C, 1, 0, 0, 0, 2, 0, 0, 0, 2, 0, 2, 0, 6, 0, 6, 0,
      0, 2, 0, 255, 2, 0, 255, 1, 0, 0, 3, 0]).map (fun parsed => parsed.map fun file =>
        (file.frameOffsets, file.decodeFrame [0x42, 0x41, 0x52, 0x4C, 1, 0, 0, 0, 2, 0, 0, 0, 2, 0, 2, 0, 6, 0, 6, 0,
          0, 2, 0, 255, 2, 0, 255, 1, 0, 0, 3, 0] 1 [0, 0, 0, 0])) =
    some (.ok ([20, 26], some (.ok (true, [255, 0, 0, 0])))) :=
  rfl

/-! ## Tar -/

/-- The end of a NUL-terminated field lies inside it. -/
theorem getD_findIdx?_le {field : List UInt8} {width : Nat} (within : field.length ≤ width) :
    (field.findIdx? (· == 0)).getD width ≤ width := by
  cases found : field.findIdx? (· == 0) with
  | none => exact Nat.le_refl width
  | some index =>
      have bound := (List.findIdx?_eq_some_iff_findIdx_eq.mp found).1
      simp only [Option.getD_some]
      omega

/-- A round of `tar_entries` never panics, and when it goes on it has read a whole header block
and moved past it. -/
theorem tarRound_spec (data : List UInt8) (scan : TarScan) :
    ∃ step, tarRound data scan = some step ∧
      ∀ scan', step = .next scan' → scan.off + 512 ≤ data.length ∧ scan.off + 512 ≤ scan'.off := by
  unfold tarRound
  split
  · exact ⟨_, rfl, nofun⟩
  rename_i fits
  obtain ⟨block, ranged⟩ : ∃ block, checkedRange data scan.off (scan.off + 512) = some block :=
    ⟨_, checkedRange_of_le (by omega) (by omega)⟩
  have blockLength := length_of_checkedRange ranged
  simp only [Option.bind_eq_bind, ranged, Option.bind_some]
  rw [List.getElem?_eq_getElem (show 0 < block.length by omega), Option.bind_some,
    List.getElem?_eq_getElem (show 156 < block.length by omega)]
  split
  · exact ⟨_, rfl, nofun⟩
  -- the name ends at its first NUL, inside the 100 bytes of its field
  have nameEnd : (((block.drop 0).take (100 - 0)).findIdx? (· == 0)).getD 100 ≤ 100 :=
    getD_findIdx?_le (by simp)
  rw [checkedRange_of_le (by omega) (by omega)]
  simp only [Option.bind_some]
  rw [checkedRange_of_le (by omega) (by omega)]
  simp only [Option.bind_some]
  rw [checkedRange_of_le (by omega) (by omega)]
  simp only [Option.bind_some, Option.pure_def]
  split
  · split
    · rename_i total added
      split
      · rename_i off advanced
        refine ⟨_, rfl, fun scan' stepped => ?_⟩
        cases stepped
        obtain ⟨-, rfl⟩ := Word.checkedAdd_eq_some_iff.mp added
        obtain ⟨-, rfl⟩ := Word.checkedAdd_eq_some_iff.mp advanced
        exact ⟨by omega, by simp only; omega⟩
      · exact ⟨_, rfl, nofun⟩
    · exact ⟨_, rfl, nofun⟩
  · exact ⟨_, rfl, nofun⟩

/-- `tar_entries` returns for every input. -/
theorem tarEntries_isSome (data : List UInt8) : ∃ entries, tarEntries data = some entries := by
  have advances : ∀ scan : TarScan, True →
      Loop.Advances (fun scan : TarScan => data.length - scan.off) (fun _ => True) scan (tarRound data scan) := by
    intro scan _
    obtain ⟨step, stepped, next⟩ := tarRound_spec data scan
    refine Loop.advances_of_exists ⟨step, stepped, fun scan' isNext => ?_⟩
    have moved := next scan' isNext
    exact ⟨trivial, by omega⟩
  obtain ⟨entries, ran⟩ : ∃ entries, Loop.run (tarRound data) (data.length + 1) ⟨0, []⟩ = some (.done entries) :=
    Loop.run_done_of_variant advances trivial (by omega)
  exact ⟨entries, by rw [tarEntries, ran, Loop.result_done]⟩

/-! ## ZIP -/

/-- When a round of `zip_entries` goes on, it has moved past a header that starts at or after the
cursor and lies inside the data. -/
theorem zipRound_next {data : List UInt8} {scan scan' : ZipScan} (stepped : zipRound data scan = some (.next scan')) :
    scan.offset + 46 ≤ data.length ∧ scan.offset + 46 ≤ scan'.offset := by
  unfold zipRound at stepped
  split at stepped
  · cases stepped
  rename_i fits
  simp only [Option.bind_eq_bind, Option.bind_eq_some_iff] at stepped
  obtain ⟨rest, -, stepped⟩ := stepped
  split at stepped
  · rename_i relative found
    simp only [Option.bind_eq_some_iff] at stepped
    obtain ⟨header, -, compressed, -, uncompressed, -, nameLen, -, extraLen, -, commentLen, -, stepped⟩ := stepped
    split at stepped
    · rename_i stop added
      split at stepped
      · cases stepped
      · simp only [Option.bind_eq_some_iff, Option.pure_def, Option.some.injEq] at stepped
        obtain ⟨name, -, stepped⟩ := stepped
        cases stepped
        obtain ⟨middle, first, second⟩ := Option.bind_eq_some_iff.mp added
        obtain ⟨-, rfl⟩ := Word.checkedAdd_eq_some_iff.mp first
        obtain ⟨-, rfl⟩ := Word.checkedAdd_eq_some_iff.mp second
        exact ⟨by omega, by simp only; omega⟩
    · cases stepped
  · cases stepped

/-- `zip_entries` stops: its loop never runs out of the fuel the model gives it, so where it does
not return, it panics. -/
theorem zipEntries_stops (data : List UInt8) (scan' : ZipScan) :
    Loop.run (zipRound data) (data.length + 1) ⟨0, []⟩ ≠ some (.next scan') := by
  have progress : ∀ scan : ZipScan,
      Loop.Progress (fun scan : ZipScan => data.length - scan.offset) scan (zipRound data scan) := by
    intro scan
    refine Loop.progress_of_next fun scan' stepped => ?_
    have moved := zipRound_next stepped
    omega
  exact Loop.run_ne_next_of_variant progress (by simp only; omega) scan'

/-- A round of `zip_entries` panics when the first central directory signature past the cursor
starts fewer than 46 bytes before the end of the data. -/
theorem zipRound_eq_none_of_late_header {data : List UInt8} {scan : ZipScan} {relative : Nat}
    (fits : scan.offset + 46 ≤ data.length)
    (found : List.windowPosition centralHeader (data.drop scan.offset) = some relative)
    (late : data.length < scan.offset + relative + 46) : zipRound data scan = none := by
  have rest : checkedRange data scan.offset data.length = some (data.drop scan.offset) := by
    rw [checkedRange_of_le (by omega) (Nat.le_refl _), List.take_of_length_le (by simp)]
  have header : checkedRange data (scan.offset + relative) (scan.offset + relative + 46) = none := by
    rw [checkedRange, if_neg (by omega)]
  unfold zipRound
  rw [if_neg (by omega)]
  simp only [Option.bind_eq_bind, rest, Option.bind_some, found, header, Option.bind_none]

/-- Forty-six bytes with the signature at byte 1: the loop's guard `offset + 46 <= data.len()`
admits them, the search finds the signature at 1, and `data[1..47]` panics. -/
theorem zip_entries_reads_header_past_end :
    ([0x00, 0x50, 0x4B, 0x01, 0x02] ++ List.replicate 41 0 : List UInt8).length = 46 ∧
      List.windowPosition centralHeader ([0x00, 0x50, 0x4B, 0x01, 0x02] ++ List.replicate 41 0) = some 1 ∧
      zipRound ([0x00, 0x50, 0x4B, 0x01, 0x02] ++ List.replicate 41 0) ⟨0, []⟩ = none ∧
      zipEntries ([0x00, 0x50, 0x4B, 0x01, 0x02] ++ List.replicate 41 0) = none :=
  ⟨rfl, rfl, rfl, rfl⟩

end Fullerene.Solvent
