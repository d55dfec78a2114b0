import Mathlib.Logic.Function.Basic
import PromptForge.Runs

/-!
# Harness requests

A keyed request reserves a file under its key, runs its operation and writes a receipt.
-/
namespace PromptForge.HarnessRequests
open Runs

/-- A parameter, a payload as the text that is written of it. -/
inductive Param where
  | text (s : String)
  | object (canonical : String)
  | other (canonical : String)
  deriving DecidableEq

abbrev Params := List (String × Param)

structure Request where
  key : String
  method : String
  params : Params
  deriving DecidableEq

inductive Failure where
  | keyInvalid | conflict | outcomeUnknown | recordInvalid
  | methodNotFound | paramsInvalid | sessionIdInvalid | eventTypeInvalid | logInvalidJson | operationConflict
  deriving DecidableEq

def Failure.code : Failure → String
  | .keyInvalid => "RPC_IDEMPOTENCY_KEY_INVALID"
  | .conflict => "RPC_IDEMPOTENCY_CONFLICT"
  | .outcomeUnknown => "RPC_OUTCOME_UNKNOWN"
  | .recordInvalid => "RPC_IDEMPOTENCY_RECORD_INVALID"
  | .methodNotFound => "RPC_METHOD_NOT_FOUND"
  | .paramsInvalid => "RPC_PARAMS_INVALID"
  | .sessionIdInvalid => "SESSION_ID_INVALID"
  | .eventTypeInvalid => "SESSION_EVENT_TYPE_INVALID"
  | .logInvalidJson => "SESSION_LOG_INVALID_JSON"
  | .operationConflict => "SESSION_OPERATION_CONFLICT"

/-- What a request is refused with before its operation was called. -/
def Failure.refuses : Failure → Bool
  | .outcomeUnknown | .recordInvalid => true
  | _ => false

structure Event where
  eventId : String
  sessionId : String
  runId : Option String
  sequence : ℕ
  timestamp : String
  type : String
  payload : String
  deriving DecidableEq

/-- How the last line of a log ends: with its line break, without it, or with a part of an event. -/
inductive Tail where
  | clean | unfinished | broken
  deriving DecidableEq

structure Log where
  events : List Event
  tail : Tail
  deriving DecidableEq

abbrev Logs := String → Log

/-- `sha256` of a key, the fingerprint of a method and its parameters, `JSON.stringify` of a text, and
    what the methods that change nothing answer. -/
structure Host where
  digest : String → String
  fingerprint : String → Params → String
  stringify : String → String
  view : String → Params → Logs → Except {failure : Failure // failure.refuses = false} String

def isBlank (c : Char) : Bool :=
  decide (c.toNat ∈ [9, 10, 11, 12, 13, 32, 0xA0, 0x1680, 0x2028, 0x2029, 0x202F, 0x205F, 0x3000, 0xFEFF] ∨
    0x2000 ≤ c.toNat ∧ c.toNat ≤ 0x200A)

def trim (s : String) : String := String.ofList (((s.toList.dropWhile isBlank).reverse.dropWhile isBlank).reverse)

def text (params : Params) (name : String) : Option String :=
  match params.find? fun e => decide (e.1 = name) with
  | some (_, .text s) => if trim s = "" then none else some (trim s)
  | _ => none

def requiredText (params : Params) (name : String) : Except Failure String :=
  match text params name with
  | some s => .ok s
  | none => .error .paramsInvalid

def isAlnum (c : Char) : Bool := c.isAlpha || c.isDigit

def isWord (first : Char → Bool) (rest : Char → Bool) (low high : ℕ) (s : String) : Bool :=
  match s.toList with
  | [] => false
  | c :: cs => first c && cs.all rest && decide (low ≤ cs.length ∧ cs.length ≤ high)

/-- `/^[a-zA-Z0-9][a-zA-Z0-9_-]{0,127}$/` -/
def isSessionId (s : String) : Bool := isWord isAlnum (fun c => isAlnum c || c == '_' || c == '-') 0 127 s

/-- `/^[a-z0-9][a-z0-9./_-]*$/i` of at most 160 characters -/
def isEventType (s : String) : Bool :=
  isWord isAlnum (fun c => isAlnum c || c == '.' || c == '/' || c == '_' || c == '-') 0 159 s

/-- `/^[A-Za-z0-9][A-Za-z0-9._:-]{7,255}$/` -/
def isKey (s : String) : Bool :=
  isWord isAlnum (fun c => isAlnum c || c == '.' || c == '_' || c == ':' || c == '-') 7 255 s

structure Entry where
  sessionId : String
  type : String
  payload : String
  runId : Option String
  deriving DecidableEq

def mutating (method : String) : Bool := method == "sessions.create" || method == "sessions.append"

section
variable (host : Host)

def quoted : Option String → String
  | some s => host.stringify s
  | none => "null"

def entryOf (r : Request) : Except Failure Entry :=
  if r.method = "sessions.create" then
    let sessionId := (text r.params "sessionId").getD
      ("session-" ++ String.ofList ((host.digest r.key).toList.take 40))
    let payload := "\x7b\"projectId\":" ++ quoted host (text r.params "projectId") ++
      ",\"title\":" ++ quoted host (text r.params "title") ++ "\x7d"
    .ok ⟨sessionId, "session/created", payload, none⟩
  else do
    let sessionId ← requiredText r.params "sessionId"
    let type ← requiredText r.params "type"
    match r.params.find? fun e => decide (e.1 = "payload") with
    | some (_, .object payload) => .ok ⟨sessionId, type, payload, text r.params "runId"⟩
    | _ => .error .paramsInvalid

def append (logs : Logs) (e : Entry) (key time : String) : Except Failure (Event × Logs) :=
  if isSessionId e.sessionId = false then .error .sessionIdInvalid
  else if isEventType e.type = false then .error .eventTypeInvalid
  else
    let log := logs e.sessionId
    if log.tail = .broken then .error .logInvalidJson
    else
      match log.events.find? fun saved => decide (saved.eventId = host.digest key) with
      | some saved =>
        if saved.type = e.type ∧ saved.runId = e.runId ∧ saved.payload = e.payload then .ok (saved, logs)
        else .error .operationConflict
      | none =>
        let event : Event := ⟨host.digest key, e.sessionId, e.runId, log.events.length + 1, time, e.type, e.payload⟩
        -- after a line without its break the event lands on the same line
        let tail := if log.tail = .clean then .clean else .broken
        .ok (event, Function.update logs e.sessionId ⟨log.events ++ [event], tail⟩)

inductive Result where
  | created (sessionId : String) (event : Event)
  | appended (event : Event)
  | view (answer : String)
  deriving DecidableEq

def invoke (logs : Logs) (r : Request) (time : String) : Except Failure (Result × Logs) :=
  if mutating r.method = true then
    match entryOf host r with
    | .error failure => .error failure
    | .ok e =>
      match append host logs e r.key time with
      | .error failure => .error failure
      | .ok (event, logs) =>
        .ok (if r.method = "sessions.create" then .created e.sessionId event else .appended event, logs)
  else
    match host.view r.method r.params logs with
    | .error failure => .error failure.1
    | .ok answer => .ok (.view answer, logs)

inductive Status where
  | started
  | completed (result : Result)
  deriving DecidableEq

/-- The file of a key; one that was created and not yet written is no record. -/
inductive File where
  | torn
  | record (fingerprint : String) (status : Status)
  deriving DecidableEq

inductive Stage where
  | reading | reserved | operating
  | recording (result : Result)
  deriving DecidableEq

structure Task where
  request : Request
  stage : Stage

structure State where
  files : String → Option File
  logs : Logs
  pending : String → Option Task

/-- What a crash leaves of a line that was being written: a part, all but the line break, or all of it. -/
inductive Tear where
  | part | line | whole
  deriving DecidableEq

/-- The write that a crash interrupts in a session. -/
structure Cut where
  key : String
  time : String
  tear : Tear

inductive Action where
  | request (r : Request)
  | advance (key time : String)
  | crash (cuts : String → Option Cut)

inductive Outcome where
  | refused (failure : Failure)
  | joined | begun | moved | idle | died
  | answered (key : String) (answer : Except Failure Result)

def Request.fingerprint (r : Request) : String := host.fingerprint r.method r.params

def State.setFile (s : State) (key : String) (file : File) : State :=
  { s with files := Function.update s.files key (some file) }

def State.setPending (s : State) (key : String) (task : Option Task) : State :=
  { s with pending := Function.update s.pending key task }

def arrive (s : State) (r : Request) : Outcome × State :=
  if isKey r.key = false then (.refused .keyInvalid, s)
  else
    match s.pending r.key with
    | some task =>
      if task.request.fingerprint host = r.fingerprint host then (.joined, s) else (.refused .conflict, s)
    | none => (.begun, s.setPending r.key (some ⟨r, .reading⟩))

def advance (s : State) (key time : String) : Outcome × State :=
  match s.pending key with
  | none => (.idle, s)
  | some ⟨r, .reading⟩ =>
    match s.files key with
    | none => (.moved, (s.setFile key .torn).setPending key (some ⟨r, .reserved⟩))
    | some .torn => (.answered key (.error .recordInvalid), s.setPending key none)
    | some (.record saved status) =>
      if saved ≠ r.fingerprint host then (.answered key (.error .conflict), s.setPending key none)
      else
        match status with
        | .completed result => (.answered key (.ok result), s.setPending key none)
        | .started =>
          if mutating r.method = true then (.moved, s.setPending key (some ⟨r, .operating⟩))
          else (.answered key (.error .outcomeUnknown), s.setPending key none)
  | some ⟨r, .reserved⟩ =>
    (.moved, (s.setFile key (.record (r.fingerprint host) .started)).setPending key (some ⟨r, .operating⟩))
  | some ⟨r, .operating⟩ =>
    match invoke host s.logs r time with
    | .error failure => (.answered key (.error failure), s.setPending key none)
    | .ok (result, logs) => (.moved, { s with logs := logs }.setPending key (some ⟨r, .recording result⟩))
  | some ⟨r, .recording result⟩ =>
    (.answered key (.ok result),
      (s.setFile key (.record (r.fingerprint host) (.completed result))).setPending key none)

/-- What a crash leaves of a log: the append that was under way may be there in part. -/
def cutLog (s : State) (sessionId : String) (cut : Cut) : Log :=
  match s.pending cut.key with
  | some ⟨r, .operating⟩ =>
    match invoke host s.logs r cut.time with
    | .ok (_, logs) =>
      if logs sessionId = s.logs sessionId then s.logs sessionId
      else
        match cut.tear with
        | .part => ⟨(s.logs sessionId).events, .broken⟩
        | .line => ⟨(logs sessionId).events, if (logs sessionId).tail = .clean then .unfinished else .broken⟩
        | .whole => logs sessionId
    | .error _ => s.logs sessionId
  | _ => s.logs sessionId

def crash (s : State) (cuts : String → Option Cut) : State where
  files := s.files
  logs := fun sessionId =>
    match cuts sessionId with
    | some cut => cutLog host s sessionId cut
    | none => s.logs sessionId
  pending := fun _ => none

def step (s : State) : Action → Outcome × State
  | .request r => arrive host s r
  | .advance key time => advance host s key time
  | .crash cuts => (.died, crash host s cuts)

end

def initial : State := ⟨fun _ => none, fun _ => ⟨[], .clean⟩, fun _ => none⟩

end PromptForge.HarnessRequests
