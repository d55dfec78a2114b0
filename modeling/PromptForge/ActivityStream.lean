import PromptForge.Json
import Mathlib.Data.List.DropRight
import Mathlib.Data.List.Sort

/-!
# The activity stream

The view folds the event packets of a session, from two sources and in any order,
into a list by sequence.
-/
namespace PromptForge.Activities
open Json

inductive ActivityStatus where
  | queued | running | completed | success | warning | failed | cancelled | awaitingApproval | interrupted
  deriving DecidableEq

def ActivityStatus.ofString : String → Option ActivityStatus
  | "running" => some .running
  | "queued" => some .queued
  | "completed" => some .completed
  | "success" => some .success
  | "warning" => some .warning
  | "failed" => some .failed
  | "cancelled" => some .cancelled
  | "awaiting_approval" => some .awaitingApproval
  | "interrupted" => some .interrupted
  | _ => none

/-- A valid activity: times are finite, and a duration is not negative. -/
structure ActivityRecord where
  id : String
  runId : String
  kind : String
  title : String
  state : Option Value
  eventType : Option Value
  displayStatus : Option String
  status : ActivityStatus
  startedAt : ℚ
  durationMs : Option NNRat
  details : Value

/-- What a packet says besides its activity. -/
structure Header where
  runId : String
  sequence : ℤ
  eventType : Option String
  status : Option String
  timestamp : Option String
  createdAt : Option String
  message : Option String
  content : Option String
  turn : Option ℤ
  attemptId : Option String
  frameIndex : Option ℤ

/-- A packet as it is delivered; its activity is any value. -/
structure Packet extends Header where
  activityRecord : Value

/-- A packet in the list. -/
structure Envelope extends Header where
  activityRecord : Option ActivityRecord

def number : Value → Option ℚ
  | .int n => some n
  | .float q => some q
  | _ => none

def isObject : Value → Bool
  | .obj _ | .arr _ => true
  | _ => false

def duration : Value → Option (Option NNRat)
  | .null => some none
  | v => (number v).bind fun q => if 0 ≤ q then some (some q.toNNRat) else none

def validActivity (value : Value) : Option ActivityRecord := do
  let a ← obj? value
  let id ← (Dict.get? a "id").bind str?
  let runId ← (Dict.get? a "runId").bind str?
  let kind ← (Dict.get? a "kind").bind str?
  let title ← (Dict.get? a "title").bind str?
  let startedAt ← (Dict.get? a "startedAt").bind number
  let durationMs ← (Dict.get? a "durationMs").bind duration
  let status ← ((Dict.get? a "status").bind str?).bind ActivityStatus.ofString
  let displayStatus ← match Dict.get? a "displayStatus" with
    | none => some none
    | some v => (str? v).bind fun s => if s ∈ ["queued", "running", "success", "warning", "failed"] then some (some s) else none
  let details ← (Dict.get? a "details").filter isObject
  return ⟨id, runId, kind, title, Dict.get? a "state", Dict.get? a "eventType", displayStatus, status, startedAt,
    durationMs, details⟩

def isFalse : Value → Bool
  | .null => true
  | .bool b => !b
  | .int n => n == 0
  | .float q => q == 0
  | .str s => s == ""
  | .arr _ | .obj _ => false

/-- The envelope of a packet that can be listed: one of a run, without an activity or with a
    valid one of the same run. -/
def Packet.envelope (event : Packet) : Option Envelope :=
  if event.runId = "" then none
  else if isFalse event.activityRecord then some ⟨event.toHeader, none⟩
  else (validActivity event.activityRecord).bind fun a =>
    if a.runId = event.runId then some ⟨event.toHeader, some a⟩ else none

def ActivityRecord.isActive (a : ActivityRecord) : Bool := a.status ∈ [.queued, .running, .awaitingApproval]

/-- `Math.max(0, (Number.isFinite(at) ? at : startedAt) - startedAt)` -/
def elapsed (at? : Option ℚ) (startedAt : ℚ) : NNRat := (at?.getD startedAt - startedAt).toNNRat

def settleActivity (activity : ActivityRecord) (outcome : String) (finishedAt : Option ℚ) : ActivityRecord :=
  let durationMs := activity.durationMs.or (some (elapsed finishedAt activity.startedAt))
  if !activity.isActive then { activity with durationMs := durationMs }
  else
    let failed := outcome ∈ ["failed", "timed_out", "runtime.failed", "runtime.timed_out"]
    let cancelled := outcome ∈ ["cancelled", "runtime.cancelled"] ∨ activity.kind = "approval"
    { activity with
      status := if cancelled then .cancelled else if failed then .failed else .interrupted
      displayStatus := some (if failed then "failed" else "warning")
      state := if failed then some (.str "error") else activity.state
      durationMs := durationMs }

def terminalTypes : List String :=
  ["runtime.completed", "runtime.completed_with_warning", "runtime.failed", "runtime.cancelled", "runtime.blocked",
    "runtime.interrupted", "runtime.timed_out", "runtime.paused_model_unavailable"]

def outcomeStatus : String → Option ActivityStatus
  | "completed" => some .completed
  | "completed_with_warning" => some .warning
  | "failed" | "timed_out" | "blocked" => some .failed
  | "cancelled" => some .cancelled
  | "interrupted" | "paused_model_unavailable" => some .interrupted
  | _ => none

section Merge
variable (parseDate : String → Option ℚ)

/-- `Date.parse(event.timestamp ?? event.created_at ?? "")`, none for `NaN`. -/
def Header.time (h : Header) : Option ℚ := parseDate ((h.timestamp.or h.createdAt).getD "")

def Header.rootStatus (h : Header) (a : ActivityRecord) : Option ActivityStatus :=
  if a.kind = "run" then
    h.eventType.bind fun t =>
      if "runtime.".toList.isPrefixOf t.toList then
        outcomeStatus (h.status.getD (String.ofList (t.toList.drop "runtime.".toList.length)))
      else none
  else none

/-- The root activity as its runtime outcome has it; `previous` is the duration that was listed. -/
def normalize (h : Header) (previous : Option NNRat) (a : ActivityRecord) : ActivityRecord :=
  match h.rootStatus a with
  | none => a
  | some status =>
    { a with
      status := status
      durationMs := (a.durationMs.or previous).or (some (elapsed (h.time parseDate) a.startedAt))
      displayStatus := some (if status = .completed then "success" else if status = .failed then "failed" else "warning")
      state := some (.str (if status = .failed then "error"
        else if status = .completed ∨ status = .warning then "completed" else "idle"))
      eventType := some (.str (if status = .failed then "agent.error"
        else if status = .interrupted then "agent.interrupted" else "agent.completed")) }

/-- When a terminal envelope has its run end: where its root activity does, or at its time. -/
def Envelope.finishedAt (e : Envelope) : Option ℚ :=
  match e.activityRecord with
  | some a => if a.kind = "run" then (a.durationMs.map fun d => a.startedAt + (d : ℚ)).or (e.time parseDate) else e.time parseDate
  | none => e.time parseDate

def Envelope.isTerminal (e : Envelope) : Bool := e.eventType.getD "" ∈ terminalTypes

/-- What the terminal envelope `e` makes of an envelope in the list. -/
def settle (e old : Envelope) : Envelope :=
  match old.activityRecord with
  | none => old
  | some a =>
    if old.runId ≠ e.runId ∨ (a.durationMs ≠ none ∧ !a.isActive) then old
    else { old with activityRecord := some (settleActivity a (e.eventType.getD "") (e.finishedAt parseDate)) }

def sameActivity (runId id : String) (old : Envelope) : Bool :=
  old.runId = runId && (old.activityRecord.map (·.id)) == some id

def previous (current : List Envelope) (e : Envelope) : Option Envelope :=
  e.activityRecord.bind fun a => current.find? (sameActivity e.runId a.id)

def withoutPrevious (current : List Envelope) (e : Envelope) : List Envelope :=
  match e.activityRecord with
  | none => current
  | some a => current.eraseP (sameActivity e.runId a.id)

def bySequence (x y : Envelope) : Prop := x.sequence ≤ y.sequence

instance : DecidableRel bySequence := fun x y => inferInstanceAs (Decidable (x.sequence ≤ y.sequence))

/-- The list with a new envelope, which is not older than the one it takes the place of. -/
def place (current : List Envelope) (e : Envelope) : List Envelope :=
  let listed := (previous current e).bind fun old => old.activityRecord.bind (·.durationMs)
  let event : Envelope := { e with activityRecord := e.activityRecord.map (normalize parseDate e.toHeader listed) }
  let next := withoutPrevious current e
  let next := if e.isTerminal then next.map (settle parseDate e) else next
  ((next ++ [event]).insertionSort bySequence).rtake 2000

def mergeActivityEvents (current : List Envelope) (event : Packet) : List Envelope :=
  if current.any fun old => old.runId = event.runId && old.sequence = event.sequence then current
  else match event.envelope with
    | none => current
    | some e =>
      if (previous current e).any fun old => e.sequence < old.sequence then current else place parseDate current e

end Merge

/-- `entries.set(key, f(entries.get(key)))`; a new key comes last. -/
def upsert {κ α : Type} [DecidableEq κ] (key : κ) (f : Option α → α) : List (κ × α) → List (κ × α)
  | [] => [(key, f none)]
  | (k, v) :: rest => if k = key then (k, f (some v)) :: rest else (k, v) :: upsert key f rest

def isBlank (c : Char) : Bool :=
  let n := c.toNat
  (9 ≤ n && n ≤ 13) || n == 32 || n == 0xA0 || n == 0x1680 || (0x2000 ≤ n && n ≤ 0x200A) || n == 0x2028 ||
    n == 0x2029 || n == 0x202F || n == 0x205F || n == 0x3000 || n == 0xFEFF

def trim (text : String) : String := String.ofList ((text.toList.dropWhile isBlank).rdropWhile isBlank)

def lowerCase (c : Char) : List Char :=
  if c = 'İ' then ['i', '\u0307'] else if c = '\u212A' then ['k'] else [c.toLower]

/-- `event_type?.replaceAll("_", ".").toLowerCase()` -/
def Header.normalizedType (h : Header) : Option (List Char) :=
  h.eventType.map fun t => (t.toList.map fun c => if c = '_' then '.' else c).flatMap lowerCase

structure Attempt where
  settledSequence : ℤ
  settled : Option String
  frames : List (ℤ × String)

def Attempt.frame (index : ℤ) (value : String) (old : Option Attempt) : Attempt :=
  let entry := old.getD ⟨-1, none, []⟩
  { entry with frames := upsert index (fun _ => value) entry.frames }

/-- The text with which the attempt is settled, unless an older one. -/
def Attempt.settle (sequence : ℤ) (content : String) (old : Option Attempt) : Attempt :=
  let entry := old.getD ⟨-1, none, []⟩
  if content ≠ "" ∧ entry.settledSequence ≤ sequence then
    { entry with settled := some content, settledSequence := sequence }
  else entry

structure Summary where
  sequence : ℤ
  text : String

def Summary.replace (new : Summary) (old : Option Summary) : Summary :=
  match old with
  | none => new
  | some last => if last.sequence ≤ new.sequence then new else last

structure Draft where
  attempts : List (String × Attempt)
  summaries : List (String × Summary)

def Envelope.summary (e : Envelope) : String :=
  trim (match e.message with
    | some message => message
    | none => (((e.activityRecord.bind fun a => obj? a.details).bind fun d => Dict.get? d "summary").bind str?).getD "")

def Envelope.isPublicSummary (e : Envelope) : Bool :=
  e.normalizedType.any fun t =>
    ["assistant.summary", "reasoning.summary", "thinking.summary"].any fun start => start.toList.isPrefixOf t

/-- `String(event.turn ?? activity?.id ?? event.sequence)` -/
def Envelope.summaryKey (e : Envelope) : String :=
  match e.turn, e.activityRecord with
  | some turn, _ => toString turn
  | none, some a => a.id
  | none, none => toString e.sequence

def Draft.readSummary (d : Draft) (e : Envelope) : Draft :=
  if e.isPublicSummary && e.summary ≠ "" then
    { d with summaries := upsert e.summaryKey (Summary.replace ⟨e.sequence, e.summary⟩) d.summaries }
  else d

def Draft.read (d : Draft) (e : Envelope) : Draft :=
  match e.attemptId.filter (· ≠ "") with
  | some attemptId =>
    if e.normalizedType = some "assistant.content.delta".toList then
      let value := e.message.getD ""
      if value = "" then d
      else { d with attempts := upsert attemptId (Attempt.frame (e.frameIndex.getD e.sequence) value) d.attempts }
    else if e.normalizedType = some "model.attempt.settled".toList then
      { d with attempts := upsert attemptId (Attempt.settle e.sequence (trim (e.content.getD ""))) d.attempts }
    else d.readSummary e
  | none => d.readSummary e

def joinFrames (frames : List (ℤ × String)) : String :=
  String.join ((frames.insertionSort fun a b => a.1 ≤ b.1).map Prod.snd)

/-- The texts of the summaries, the last replaced by one that continues it. -/
def mergeTexts : List String → List String → List String
  | result, [] => result
  | result, text :: rest =>
    match result.getLast? with
    | none => mergeTexts [text] rest
    | some previous =>
      if previous = text then mergeTexts result rest
      else if previous ≠ "" && previous.toList.isPrefixOf text.toList then mergeTexts (result.dropLast ++ [text]) rest
      else mergeTexts (result ++ [text]) rest

def streamedAgentText (events : List Envelope) (runId : String) : String :=
  if runId = "" then ""
  else
    let draft := (events.filter fun e => e.runId = runId).foldl Draft.read ⟨[], []⟩
    let attemptText := (draft.attempts.map fun entry => entry.2.settled.getD (joinFrames entry.2.frames)).filter (· ≠ "")
    if attemptText ≠ [] then "\n\n".intercalate attemptText
    else
      let summaries := (draft.summaries.map Prod.snd).insertionSort fun a b => a.sequence ≤ b.sequence
      "\n\n".intercalate (mergeTexts [] (summaries.map (·.text)))

end PromptForge.Activities
