import Mathlib.Algebra.GroupWithZero.Nat
import Mathlib.Data.List.Chain
import PromptForge.Streams
import PromptForge.Utf8

/-!
# Lines of a serial port

What a device sends arrives in reads of at most the length of a line.
-/
namespace PromptForge.SerialLines
open Streams

abbrev Bytes := List UInt8

/-- The bounds that `SerialConfig` checks. -/
structure Config where
  maxLineLength : ℕ
  least : 64 ≤ maxLineLength

structure Metrics where
  bytesReceived : ℕ
  decodeErrors : ℕ
  linesTruncated : ℕ
  linesReceived : ℕ
  deriving DecidableEq

structure Runtime where
  lineBuffer : Bytes
  metrics : Metrics
  deriving DecidableEq

def start : Runtime := ⟨[], ⟨0, 0, 0, 0⟩⟩

/-- A line before it is decoded. -/
structure Line where
  bytes : Bytes
  truncated : Bool
  ended : Bool
  deriving DecidableEq

def Line.text (line : Line) : List Char :=
  Utf8.decode line.bytes ++ if line.truncated then " [TRUNCATED]".toList else []

def isEnd (b : UInt8) : Bool := b = 10 || b = 13

def endedLine (limit : ℕ) (run : Bytes) : Line :=
  if limit < run.length then ⟨run.take limit, true, true⟩ else ⟨run, false, true⟩

def splitBuffer (limit : ℕ) (buffer : Bytes) : List Line × Bytes :=
  match h : buffer.dropWhile fun b => !isEnd b with
  | [] => if limit ≤ buffer.length then ([⟨buffer.take limit, true, false⟩], buffer.drop limit) else ([], buffer)
  | _ :: rest =>
    (endedLine limit (buffer.takeWhile fun b => !isEnd b) :: (splitBuffer limit (rest.dropWhile isEnd)).1,
      (splitBuffer limit (rest.dropWhile isEnd)).2)
termination_by buffer.length
decreasing_by
  all_goals
    have hdrop := (List.dropWhile_sublist (l := buffer) fun b => !isEnd b).length_le
    have hrest := (List.dropWhile_sublist (l := rest) isEnd).length_le
    rw [h, List.length_cons] at hdrop
    omega

/-- The characters of a read that stand for bytes that could not be decoded. -/
def decodeErrorsOf (raw : Bytes) : ℕ := (Utf8.decode raw).count Utf8.replacement

def decodeAndSplit (config : Config) (s : Runtime) (raw : Bytes) : List Line × Runtime :=
  let (lines, buffer) := splitBuffer config.maxLineLength (s.lineBuffer ++ raw)
  (lines,
    { lineBuffer := buffer
      metrics := {
        bytesReceived := s.metrics.bytesReceived + raw.length
        decodeErrors := s.metrics.decodeErrors + decodeErrorsOf raw
        linesTruncated := s.metrics.linesTruncated + lines.countP Line.truncated
        linesReceived := s.metrics.linesReceived + lines.countP Line.ended } })

def flushLineBuffer (s : Runtime) : Option Line × Runtime :=
  if s.lineBuffer = [] then (none, s) else (some ⟨s.lineBuffer, false, false⟩, { s with lineBuffer := [] })

/-- One round of `_monitoring_loop`; a read may have timed out. -/
def round (config : Config) (s : Runtime) (raw : Bytes) : List Line × Runtime :=
  if raw = [] then ([], s) else decodeAndSplit config s raw

def session (config : Config) (reads : List Bytes) : List Line × Runtime :=
  let (lines, s) := feedAll (round config) start reads
  let (rest, s) := flushLineBuffer s
  (lines ++ rest.toList, s)

/-- The ways in which a stream may arrive. -/
structure Arrives (config : Config) (stream : Bytes) (reads : List Bytes) : Prop where
  whole : reads.flatten = stream
  short : ∀ raw ∈ reads, raw.length ≤ config.maxLineLength

def Valid (stream : Bytes) : Prop := ∃ text : String, text.toUTF8.data.toList = stream

/-- What is expected of the lines of a stream. -/
structure Independent (config : Config) (stream : Bytes) : Prop where
  same : ∀ reads others, Arrives config stream reads → Arrives config stream others →
    (session config reads).1.map Line.text = (session config others).1.map Line.text
  kept : ∀ reads, Arrives config stream reads →
    (session config reads).1.flatMap Line.bytes = stream.filter fun b => !isEnd b
  noErrors : Valid stream → ∀ reads, Arrives config stream reads → (session config reads).2.metrics.decodeErrors = 0
  bounded : ∀ reads, Arrives config stream reads → ∀ sofar, sofar <+: reads →
    (feedAll (round config) start sofar).2.lineBuffer.length < config.maxLineLength

/-- The lengths of the lines that end, after `run` bytes of a line. -/
def endedRuns : ℕ → Bytes → List ℕ
  | _, [] => []
  | run, b :: rest => if isEnd b then run :: endedRuns 0 rest else endedRuns (run + 1) rest

/-- The streams whose lines do not depend on the reads. -/
structure Steady (config : Config) (stream : Bytes) : Prop where
  apart : stream.IsChain fun a b => ¬ (isEnd a = true ∧ isEnd b = true)
  runs : ∀ n ∈ endedRuns 0 stream, n < config.maxLineLength ∨ n % config.maxLineLength = config.maxLineLength - 1
  ascii : Valid stream → ∀ b ∈ stream, b.toNat < 0x80

end PromptForge.SerialLines
