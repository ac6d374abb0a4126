import Fullerene.Genome.Fs

/-!
# Bounded reads of a stream

`read_to_end_with_limit` reads a stream into memory in chunks of at most
4096 bytes, never asking for more than the room left under the limit; when
the output is full it reads one more byte, and any byte there means the
stream was longer than the limit (`DiskFull`).

The loop takes at most `limit + 1` passes when every read keeps to its
buffer, so the fuel the model gives it is enough (`readToEndWithLimit_isSome`).
Against a stream of bytes `s` cut into chunks of any sizes, the answer is
`Ok s` when `s` fits and `DiskFull` when it does not
(`readToEndWithLimit_chunked`): a short read is never taken for the end of the
stream before the limit, and the probe tells a full stream from a longer one.
-/

namespace Fullerene.Genome

/-- `trait Read`: `read r len` answers `read(buf)` with `buf.len() = len`, giving the bytes it
copied into `buf[..n]`. -/
class Read (R : Type) where
  read : R → Nat → Except FsError (List UInt8) × R

variable {R : Type} [Read R]

/-- The loop of `read_to_end_with_limit`, with `fuel` passes left (`none`: out of fuel). -/
def readLoop (limit : Nat) : Nat → R → List UInt8 → Option (Except FsError (List UInt8) × R)
  | 0, _, _ => none
  | fuel + 1, reader, output =>
    if output.length = limit then
      -- the one-byte probe
      match Read.read reader 1 with
      | (.error e, reader) => some (.error e, reader)
      | (.ok probe, reader) => if probe.length ≠ 0 then some (.error .diskFull, reader) else some (.ok output, reader)
    else
      let want := min 4096 (limit - output.length)
      match Read.read reader want with
      | (.error e, reader) => some (.error e, reader)
      | (.ok chunk, reader) =>
        if chunk.length = 0 then some (.ok output, reader) else readLoop limit fuel reader (output ++ chunk)

def readToEndWithLimit (reader : R) (limit : Nat) : Option (Except FsError (List UInt8) × R) :=
  readLoop limit (limit + 1) reader []

/-! ## Termination -/

/-- A reader keeps to its buffer when no read returns more bytes than asked for. -/
def KeepsToBuffer (R : Type) [Read R] : Prop :=
  ∀ (reader : R) (len : Nat) (bytes : List UInt8), (Read.read reader len).1 = .ok bytes → bytes.length ≤ len

/-- Each pass either stops or adds at least one byte, never passing the limit. -/
theorem readLoop_isSome (keeps : KeepsToBuffer R) (limit : Nat) :
    ∀ fuel (reader : R) (output : List UInt8), output.length ≤ limit → limit - output.length < fuel →
      (readLoop limit fuel reader output).isSome := by
  intro fuel
  induction fuel with
  | zero => intro _ _ _ room; omega
  | succ fuel ih =>
    intro reader output within room
    unfold readLoop
    split
    · split <;> (try split) <;> rfl
    · dsimp only
      split
      · rfl
      · rename_i chunk next answered
        split
        · rfl
        · have fits := keeps reader _ chunk (by rw [answered])
          apply ih next _ (by simp; omega) (by simp; omega)

theorem readToEndWithLimit_isSome (keeps : KeepsToBuffer R) (reader : R) (limit : Nat) :
    (readToEndWithLimit reader limit).isSome :=
  readLoop_isSome keeps limit _ reader [] (by simp) (by simp)

/-! ## Streams cut into chunks of any size -/

/-- A reader of the bytes `rest` whose `n`-th read returns `pick n` bytes, brought between one
and the buffer's length while bytes remain: every chunking of the stream is some `pick`. -/
structure ChunkedReader where
  rest : List UInt8
  pick : Nat → Nat
  reads : Nat

/-- The number of bytes the reader hands over for a buffer of `len` bytes. -/
def ChunkedReader.count (reader : ChunkedReader) (len : Nat) : Nat :=
  min (max 1 (reader.pick reader.reads)) (min len reader.rest.length)

instance : Read ChunkedReader where
  read reader len :=
    (.ok (reader.rest.take (reader.count len)),
      { reader with rest := reader.rest.drop (reader.count len), reads := reader.reads + 1 })

theorem ChunkedReader.count_le (reader : ChunkedReader) (len : Nat) :
    reader.count len ≤ len ∧ reader.count len ≤ reader.rest.length := by
  unfold count
  omega

theorem ChunkedReader.count_pos {reader : ChunkedReader} {len : Nat} (asked : 0 < len) (left : reader.rest ≠ []) :
    0 < reader.count len := by
  have : 0 < reader.rest.length := List.length_pos_iff.2 left
  unfold count
  omega

theorem ChunkedReader.keepsToBuffer : KeepsToBuffer ChunkedReader := by
  intro reader len bytes answered
  simp only [Read.read, Except.ok.injEq] at answered
  rw [← answered, List.length_take]
  have := reader.count_le len
  omega

/-- The answer for the whole stream `s`. -/
def boundedAnswer (s : List UInt8) (limit : Nat) : Except FsError (List UInt8) :=
  if s.length ≤ limit then .ok s else .error .diskFull

/-- The loop's invariant: what it has read followed by what the reader still holds is the
stream, and the output is within the limit. -/
theorem readLoop_chunked (limit : Nat) :
    ∀ fuel (reader : ChunkedReader) (output : List UInt8), output.length ≤ limit → limit - output.length < fuel →
      ∃ next, readLoop limit fuel reader output = some (boundedAnswer (output ++ reader.rest) limit, next) := by
  intro fuel
  induction fuel with
  | zero => intro _ _ within room; omega
  | succ fuel ih =>
    intro reader output within room
    unfold readLoop
    by_cases left : reader.rest = []
    · -- an exhausted reader answers 0 to every read
      have none : reader.count 1 = 0 ∧ reader.count (min 4096 (limit - output.length)) = 0 := by
        simp [ChunkedReader.count, left]
      refine ⟨{ reader with rest := [], reads := reader.reads + 1 }, ?_⟩
      simp only [Read.read, none, List.take_zero, List.drop_zero, left, List.length_nil, List.append_nil,
        boundedAnswer, within, if_true]
      split <;> simp
    · have probe := @ChunkedReader.count_pos reader 1 (by decide) left
      have probe_le := reader.count_le 1
      split
      · -- full output: the probe finds the byte past the limit
        rename_i full
        have longer : ¬(output ++ reader.rest).length ≤ limit := by
          have : 0 < reader.rest.length := List.length_pos_iff.2 left
          simp only [List.length_append]
          omega
        refine ⟨{ reader with rest := reader.rest.drop (reader.count 1), reads := reader.reads + 1 }, ?_⟩
        simp only [Read.read, List.length_take, boundedAnswer, longer, if_false]
        rw [if_pos (by omega)]
      · rename_i notFull
        have room_left : 0 < min 4096 (limit - output.length) := by omega
        have taken := reader.count_pos room_left left
        have taken_le := reader.count_le (min 4096 (limit - output.length))
        dsimp only
        simp only [Read.read, List.length_take]
        rw [if_neg (by omega)]
        obtain ⟨next, ran⟩ := ih { reader with rest := reader.rest.drop (reader.count _), reads := reader.reads + 1 }
          (output ++ reader.rest.take (reader.count (min 4096 (limit - output.length))))
          (by simp only [List.length_append, List.length_take]; omega)
          (by simp only [List.length_append, List.length_take]; omega)
        refine ⟨next, ?_⟩
        rw [ran, List.append_assoc, List.take_append_drop]

theorem read_to_end_with_limit_reads_exactly (s : List UInt8) (pick : Nat → Nat) (reads limit : Nat) :
    ∃ next, readToEndWithLimit (⟨s, pick, reads⟩ : ChunkedReader) limit =
      some (if s.length ≤ limit then .ok s else .error .diskFull, next) :=
  readLoop_chunked limit (limit + 1) _ [] (by simp) (by simp)

/-- The two tests of `io.rs`, read two bytes at a time. -/
example : ((readToEndWithLimit (⟨[104, 101, 108, 108, 111], fun _ => 2, 0⟩ : ChunkedReader) 5).map Prod.fst,
    (readToEndWithLimit (⟨[104, 101, 108, 108, 111, 33], fun _ => 2, 0⟩ : ChunkedReader) 5).map Prod.fst) =
      (some (.ok [104, 101, 108, 108, 111]), some (.error .diskFull)) := rfl

end Fullerene.Genome
