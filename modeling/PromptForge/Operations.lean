import PromptForge.Jobs
import PromptForge.Texts

/-!
# Operations

The durable record of what a run executes. An operation is named by the run and the
id of a call, which the model chose, or of a build.
-/
namespace PromptForge.Operations
open Runs Tables

inductive OperationStatus where
  | prepared | started | completed | failed | unknown
  deriving DecidableEq

def OperationStatus.settled (s : OperationStatus) : Bool := s ∈ [.completed, .failed, .unknown]

structure Payload where
  callId : String
  kind : String
  deriving DecidableEq

structure Operation where
  operationId : String
  runId : String
  kind : String
  fingerprint : String
  status : OperationStatus
  payload : Payload
  deriving DecidableEq

inductive OperationError where
  | conflict
  | alreadySettled
  | notPrepared
  deriving DecidableEq

def OperationError.text : OperationError → String
  | .conflict => "AGENT_OPERATION_CONFLICT"
  | .alreadySettled => "AGENT_OPERATION_ALREADY_SETTLED"
  | .notPrepared => "AGENT_OPERATION_NOT_PREPARED"

-- `sha256` over the JSON of a payload.
variable (fingerprint : Payload → String)

def operation (rows : List Operation) (operationId runId kind : String) (status : OperationStatus)
    (payload : Payload) : Except OperationError (List Operation) :=
  match lookup Operation.operationId rows operationId with
  | some row =>
    if row.fingerprint ≠ fingerprint payload then .error .conflict
    else if row.status.settled ∧ row.status ≠ status then .error .alreadySettled
    else .ok (updateRow Operation.operationId { row with status := status } rows)
  | none =>
    if status = .prepared ∨ status = .started then
      .ok (rows ++ [⟨operationId, runId, kind, fingerprint payload, status, payload⟩])
    else .error .notPrepared

def interruptOperations (runId : String) (rows : List Operation) : List Operation :=
  updateWhere (fun r => decide (r.runId = runId ∧ r.status = .started)) (fun r => { r with status := .unknown }) rows

/-- The fields that the bookkeeping reads; an absent one is empty. -/
structure Event where
  eventType : String
  tool : String
  name : String
  callId : String
  toolCallId : String
  buildId : String
  status : String
  deriving DecidableEq

def Event.bare (eventType : String) : Event := ⟨eventType, "", "", "", "", "", ""⟩

def orText (a b : String) : String := if a = "" then b else a

def Event.foldedType (e : Event) : String := Texts.casefold e.eventType

def Event.kind (e : Event) : String :=
  orText e.tool (orText e.name (if "build_".toList <+: e.foldedType.toList then "build" else "tool"))

def Event.call (e : Event) : String := orText e.callId (orText e.toolCallId e.buildId)

def startNames : List String := ["tool.execution.started", "tool_started", "build_started"]

def settledNames : List String :=
  ["tool.result.committed", "tool.execution.settled", "tool_completed", "tool_failed", "build_completed",
    "build_failed"]

def passingNames : List String :=
  ["runtime.cancelled", "cancellation.requested", "turn.settled", "tool.checkpoint", "tool.result.committed",
    "tool.execution.settled", "tool_completed", "tool_failed", "tool_outcome_unknown", "build_completed",
    "build_failed"]

structure Run where
  runId : String
  jobId : Option String

def operationId (run : Run) (callId : String) : String := run.runId ++ ":" ++ callId

inductive RunError where
  | operation (error : OperationError)
  | job (error : Jobs.JobError)

/-- Who executes a call: the autonomous loop, the overlay loop or a child agent. -/
inductive Source where
  | agent | overlay | child
  deriving DecidableEq

/-- A call of a tool, or a build. The builds of the autonomous loop have ids of their own;
    a call of `build_firmware` there is the builds it runs, each with the id of the call
    around it. -/
inductive Execution where
  | call (source : Source) (callId tool : String)
  | build (enclosing : Option String) (buildId : String)
  deriving DecidableEq

/-- A simulation of the autonomous loop, and a build of it that is answered without one,
    send no event with an id. -/
def Execution.silent : Execution → Bool
  | .call .agent _ tool => tool ∈ ["build_firmware", "run_simulation"]
  | _ => false

def Execution.startEvent : Execution → Event
  | .call .agent callId tool => { Event.bare "tool_started" with callId := callId, tool := tool }
  | .call .overlay callId tool =>
    { Event.bare "tool.execution.started" with callId := callId, tool := tool, status := "running" }
  | .call .child callId tool => { Event.bare "tool_started" with toolCallId := callId, tool := tool }
  | .build _ buildId => { Event.bare "build_started" with buildId := buildId }

def Execution.startEvents (x : Execution) : List Event := if x.silent then [] else [x.startEvent]

def writeTools : List String := ["write_file", "edit_file_simple", "apply_patch", "delete_file", "move_file"]

/-- The overlay settles a call when it ends, a write already before its checkpoint, and
    commits its result later. -/
def Execution.finishEvents (failed : Bool) (x : Execution) : List Event :=
  let ended := fun (name : String) => { x.startEvent with eventType := name, status := "" }
  let reported := fun (name : String) =>
    { x.startEvent with eventType := name, status := if failed then "failed" else "completed" }
  if x.silent then []
  else match x with
    | .call .overlay _ tool =>
      (if tool ∈ writeTools ∧ failed = false then [reported "tool.execution.settled"] else []) ++
        [reported "tool.execution.settled", reported "tool.result.committed"]
    | .call _ _ _ => [ended (if failed then "tool_failed" else "tool_completed")]
    | .build _ _ => [ended (if failed then "build_failed" else "build_completed")]

/-- A deadline passes: the autonomous loop reports the call that it had given the time. -/
def Execution.expireEvents (repeatable : Bool) : Execution → List Event
  | .call .agent callId tool =>
    [{ Event.bare (if repeatable then "tool_failed" else "tool_outcome_unknown") with
        callId := callId, tool := tool, status := "failed" }]
  | .build (some callId) _ =>
    [{ Event.bare "tool_failed" with callId := callId, tool := "build_firmware", status := "failed" }]
  | _ => []

/-- What was executed, with the status that its record is owed. -/
structure Entry where
  execution : Execution
  status : OperationStatus
  ended : Bool
  deriving DecidableEq

structure State where
  rows : List Operation
  db : Jobs.Db
  cancelled : Bool
  terminal : Bool
  ledger : List Entry

def State.start (rows : List Operation) (db : Jobs.Db) : State := ⟨rows, db, false, false, []⟩

def charge (run : Run) (operationId : String) (now : ℚ) (db : Jobs.Db) : Except Jobs.JobError Jobs.Db :=
  match run.jobId with
  | some jobId => if jobId = "" then .ok db else (Jobs.chargeTool jobId operationId now db).map Prod.snd
  | none => .ok db

def stored (s : State) (answer : Except OperationError (List Operation)) : Option RunError × State :=
  match answer with
  | .ok rows => (none, { s with rows := rows })
  | .error error => (some (.operation error), s)

def book (run : Run) (now : ℚ) (s : State) (e : Event) : Option RunError × State :=
  let name := e.foldedType
  let id := operationId run e.call
  let payload : Payload := ⟨e.call, e.kind⟩
  if e.call = "" then (none, s)
  else if name ∈ startNames then
    match charge run id now s.db with
    | .error error => (some (.job error), s)
    | .ok db => stored { s with db := db } (operation fingerprint s.rows id run.runId e.kind .started payload)
  else if name = "tool_outcome_unknown" then
    stored s (operation fingerprint s.rows id run.runId e.kind .unknown payload)
  else if name ∈ settledNames then
    match lookup Operation.operationId (s.rows.filter fun r => decide (r.runId = run.runId)) id with
    | some existing =>
      if existing.status.settled then (none, s)
      else
        let status := if e.status = "failed" ∨ name ∈ ["tool_failed", "build_failed"] then .failed else .completed
        stored s (operation fingerprint s.rows id run.runId existing.kind status existing.payload)
    | none => (none, s)
  else (none, s)

def runtimeEvent (run : Run) (now : ℚ) (s : State) (e : Event) : Option RunError × State :=
  if s.cancelled ∧ s.terminal then (none, s)
  else if s.cancelled ∧ e.foldedType ∉ passingNames then (none, s)
  else book fingerprint run now s e

def runtimeEvents (run : Run) (now : ℚ) : State → List Event → Option RunError × State
  | s, [] => (none, s)
  | s, e :: es =>
    match runtimeEvent fingerprint run now s e with
    | (none, s) => runtimeEvents run now s es
    | (some error, s) => (some error, s)

inductive Action where
  /-- A call of the plan with this number begins, or a build. -/
  | execute (plan : ℕ) (x : Execution) (now : ℚ)
  /-- The execution at this place of the ledger ends by itself. -/
  | finish (n : ℕ) (failed : Bool) (now : ℚ)
  /-- A deadline ends it, its own or one around it. -/
  | expire (n : ℕ) (repeatable : Bool) (now : ℚ)
  /-- Its task is cancelled. -/
  | abandon (n : ℕ)
  | cancel
  | interrupt
  /-- The end of a cancellation. -/
  | drained

inductive Outcome where
  | done
  /-- The job has no call left; nothing is executed. -/
  | refused
  /-- The run, or the child agent, fails. -/
  | raised (error : RunError)

def Entry.settle (status : OperationStatus) (b : Entry) : Entry :=
  { b with status := if b.status = .started then status else b.status, ended := true }

def interrupted (run : Run) (s : State) : State :=
  { s with
    rows := interruptOperations run.runId s.rows
    ledger := s.ledger.map fun b => if b.status = .started then { b with status := .unknown } else b }

/-- The answer to the events of one execution, whose entry changes with them. -/
def reported (n : ℕ) (status : OperationStatus) (answer : Option RunError × State) : Outcome × State :=
  match answer with
  | (none, s) => (.done, { s with ledger := s.ledger.modify n (Entry.settle status) })
  | (some error, s) => (.raised error, s)

def step (run : Run) (s : State) : Action → Outcome × State
  | .execute _ x now =>
    match runtimeEvents fingerprint run now s x.startEvents with
    | (none, s) => (.done, { s with ledger := s.ledger ++ [⟨x, .started, false⟩] })
    | (some (.job (.value "AGENT_JOB_BUDGET_EXHAUSTED")), s) => (.refused, s)
    | (some error, s) => (.raised error, s)
  | .finish n failed now =>
    match s.ledger[n]? with
    | some b =>
      if b.ended then (.done, s)
      else reported n (if failed then .failed else .completed)
        (runtimeEvents fingerprint run now s (b.execution.finishEvents failed))
    | none => (.done, s)
  | .expire n repeatable now =>
    match s.ledger[n]? with
    | some b =>
      reported n (if repeatable then .failed else .unknown)
        (runtimeEvents fingerprint run now s (b.execution.expireEvents repeatable))
    | none => (.done, s)
  | .abandon n => (.done, { s with ledger := s.ledger.modify n fun b => { b with ended := true } })
  | .cancel => (.done, if s.terminal then s else { s with cancelled := true })
  | .interrupt => (.done, interrupted run s)
  | .drained => (.done, if s.cancelled then { interrupted run s with terminal := true } else s)

end PromptForge.Operations
