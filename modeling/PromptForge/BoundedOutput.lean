import Mathlib.Data.List.Infix

/-!
# Bounded process output

A process writes to two pipes, and each is read in chunks of any size up to 64 KB, to a limit.
-/
namespace PromptForge.BoundedOutput

def maxOutputBytes : Nat := 32 * 1024 * 1024
def chunkSize : Nat := 64 * 1024

def truncationMarker : List UInt8 :=
  "\n[PromptForge: OUTPUT TRUNCATED ".toList.map Char.toUInt8 ++ [0xe2, 0x80, 0x94] ++
    " exceeded MAX_OUTPUT_BYTES limit]\n".toList.map Char.toUInt8

/-- What one read gives before the end of the stream. -/
structure Chunk where
  bytes : List UInt8
  nonempty : bytes ≠ []
  small : bytes.length ≤ chunkSize

/-- What the reads of a pipe give. The reader is cancelled in a read, or while a presenter is
    given the chunk just read, which the code then drops. -/
inductive Reader where
  | eof
  | cancelled
  | read (chunk : Chunk) (rest : Reader)

def Reader.bytes : Reader → List UInt8
  | .read chunk rest => chunk.bytes ++ rest.bytes
  | _ => []

def Reader.last : Reader → Reader
  | .read _ rest => rest.last
  | reader => reader

/-- The inner loop, which lets the process run on and keeps nothing. -/
def drain : Reader → Reader
  | .read _ rest => drain rest
  | reader => reader

def readChunks (maxBytes : Nat) (chunks : List (List UInt8)) (total : Nat) : Reader → List UInt8 × Reader
  | .read chunk rest =>
    let size := chunk.bytes.length
    if maxBytes < total + size then
      let excess := total + size - maxBytes
      let kept := if excess < size then chunk.bytes.take (size - excess) else []
      ((chunks ++ [kept, truncationMarker]).flatten, drain rest)
    else readChunks maxBytes (chunks ++ [chunk.bytes]) (total + size) rest
  | reader => (chunks.flatten, reader)

def readBounded (maxBytes : Nat) : Option Reader → List UInt8 × Option Reader
  | none => ([], none)
  | some reader => ((readChunks maxBytes [] 0 reader).1, some (readChunks maxBytes [] 0 reader).2)

structure ProcessResult where
  stdout : List UInt8
  stderr : List UInt8
  timedOut : Bool
  outputTruncated : Bool

/-- The readers are cancelled when the process runs out of its time. -/
def drainConcurrent (stdout stderr : Option Reader) (timedOut : Bool) : ProcessResult :=
  let stdoutBytes := (readBounded maxOutputBytes stdout).1
  let stderrBytes := (readBounded maxOutputBytes stderr).1
  ⟨stdoutBytes, stderrBytes, timedOut,
    decide (truncationMarker <:+: stdoutBytes) || decide (truncationMarker <:+: stderrBytes)⟩

/-- The whole stream, or as much of it as the limit allows and a marker. -/
def bounded (maxBytes : Nat) (stream : List UInt8) : List UInt8 :=
  if stream.length ≤ maxBytes then stream else stream.take maxBytes ++ truncationMarker

def streamOf (reader : Option Reader) : List UInt8 := reader.elim [] Reader.bytes

def IsLong (reader : Option Reader) : Prop := maxOutputBytes < (streamOf reader).length

lemma drain_eq (reader : Reader) : drain reader = reader.last := by
  induction reader with
  | eof => rfl
  | cancelled => rfl
  | read chunk rest ih => exact ih

/-- What has been kept is within the limit, so the first chunk that passes it is cut at it. -/
lemma readChunks_eq {maxBytes : Nat} (reader : Reader) {chunks : List (List UInt8)}
    (hkept : chunks.flatten.length ≤ maxBytes) :
    readChunks maxBytes chunks chunks.flatten.length reader =
      (bounded maxBytes (chunks.flatten ++ reader.bytes), reader.last) := by
  induction reader generalizing chunks with
  | eof => rw [readChunks, bounded, Reader.bytes, List.append_nil, if_pos hkept, Reader.last] <;> simp
  | cancelled => rw [readChunks, bounded, Reader.bytes, List.append_nil, if_pos hkept, Reader.last] <;> simp
  | read chunk rest ih =>
    have hnext : (chunks ++ [chunk.bytes]).flatten = chunks.flatten ++ chunk.bytes := by simp
    rw [readChunks, Reader.bytes, Reader.last]
    split
    · rename_i hover
      have hlong : ¬ (chunks.flatten ++ (chunk.bytes ++ rest.bytes)).length ≤ maxBytes := by
        simp only [List.length_append]
        omega
      have hkeep : (if chunks.flatten.length + chunk.bytes.length - maxBytes < chunk.bytes.length then
          chunk.bytes.take (chunk.bytes.length - (chunks.flatten.length + chunk.bytes.length - maxBytes)) else []) =
          chunk.bytes.take (maxBytes - chunks.flatten.length) := by
        split
        · congr 1
          omega
        · have hfull : maxBytes - chunks.flatten.length = 0 := by omega
          rw [hfull, List.take_zero]
      have htake : (chunks.flatten ++ (chunk.bytes ++ rest.bytes)).take maxBytes =
          chunks.flatten ++ chunk.bytes.take (maxBytes - chunks.flatten.length) := by
        rw [List.take_append, List.take_of_length_le hkept, List.take_append_of_le_length (by omega)]
      dsimp only
      rw [bounded, if_neg hlong, htake, drain_eq, hkeep, List.flatten_append, List.append_assoc]
      simp
    · rename_i hroom
      have hsize : (chunks ++ [chunk.bytes]).flatten.length = chunks.flatten.length + chunk.bytes.length := by
        rw [hnext, List.length_append]
      have hrest := @ih (chunks ++ [chunk.bytes]) (by omega)
      rw [hsize, hnext, List.append_assoc] at hrest
      exact hrest

lemma readBounded_eq (maxBytes : Nat) (reader : Option Reader) :
    readBounded maxBytes reader = (bounded maxBytes (streamOf reader), reader.map Reader.last) := by
  cases reader with
  | none => simp [readBounded, bounded, streamOf]
  | some reader =>
    have hread := @readChunks_eq maxBytes reader [] (Nat.zero_le _)
    rw [List.flatten_nil, List.length_nil, List.nil_append] at hread
    rw [readBounded, hread]
    rfl

lemma marked_iff (maxBytes : Nat) (stream : List UInt8) : truncationMarker <:+: bounded maxBytes stream ↔
    maxBytes < stream.length ∨ truncationMarker <:+: stream := by
  rw [bounded]
  split
  · rename_i hshort
    exact ⟨.inr, fun h => h.resolve_left (by omega)⟩
  · rename_i hlong
    exact iff_of_true ⟨stream.take maxBytes, [], List.append_nil _⟩ (.inl (by omega))

/-- Each pipe is read to its end and cut at the limit, in whatever chunks its bytes come. -/
theorem output_exact_iff (maxBytes : Nat) (reader stdout stderr : Option Reader) (timedOut : Bool) :
    readBounded maxBytes reader = (bounded maxBytes (streamOf reader), reader.map Reader.last) ∧
      (((drainConcurrent stdout stderr timedOut).outputTruncated = true ↔ IsLong stdout ∨ IsLong stderr) ↔
        (IsLong stdout ∨ IsLong stderr) ∨
          ¬ truncationMarker <:+: streamOf stdout ∧ ¬ truncationMarker <:+: streamOf stderr) := by
  refine ⟨readBounded_eq maxBytes reader, ?_⟩
  have hflag : (drainConcurrent stdout stderr timedOut).outputTruncated = true ↔
      (IsLong stdout ∨ truncationMarker <:+: streamOf stdout) ∨
        (IsLong stderr ∨ truncationMarker <:+: streamOf stderr) := by
    simp only [drainConcurrent, Bool.or_eq_true, decide_eq_true_eq, readBounded_eq, marked_iff, IsLong]
  rw [hflag]
  tauto

/-- A process that prints the marker and nothing else. -/
theorem quoted_marker_flagged :
    let stdout := some (Reader.read ⟨truncationMarker, by decide, by decide⟩ .eof)
    (drainConcurrent stdout none false).outputTruncated = true ∧ ¬ IsLong stdout ∧ ¬ IsLong none := by
  refine ⟨by decide, ?_, ?_⟩ <;> unfold IsLong <;> decide

end PromptForge.BoundedOutput
