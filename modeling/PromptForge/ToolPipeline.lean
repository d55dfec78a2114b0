import PromptForge.JsValues
import PromptForge.Runs

/-!
# The tool pipeline

A call passes the guards, one after the other, and then runs against its deadline. What it
settles to is handed to the callback `emit` as `tool/result`. The steps of a call are the
answers of the guards, of the tool and of the callback, and the deadline, in any order.
-/
namespace PromptForge.ToolPipeline
open Runs JsValues

structure ToolCall where
  callId : String
  name : String
  arguments : Value
  sessionId : String
  runId : String

inductive Status where
  | completed
  | denied
  | failed
  | cancelled
  | timedOut
  deriving DecidableEq

def Status.text : Status → String
  | .completed => "completed"
  | .denied => "denied"
  | .failed => "failed"
  | .cancelled => "cancelled"
  | .timedOut => "timed_out"

structure ToolResult where
  callId : String
  name : String
  status : Status
  content : Value
  errorCode : Option String
  startedAt : String
  completedAt : String

def ToolResult.payload (r : ToolResult) : Value :=
  .obj [("callId", .str r.callId), ("name", .str r.name), ("status", .str r.status.text), ("content", r.content),
    ("errorCode", r.errorCode.elim .undefined .str), ("startedAt", .str r.startedAt), ("completedAt", .str r.completedAt)]

/-- What a promise is rejected with: an `Error`, something else, or a `ToolTimeoutError`. -/
inductive Thrown where
  | error (message : String)
  | other
  | timeout

def Thrown.message : Thrown → String
  | .error message => message
  | .other => "Tool failed"
  | .timeout => "Tool timed out"

/-- A guard answers with a denial or `null`, or it throws. -/
abbrev Guard := ToolCall → Except Thrown (Option String)

def Denies (guard : Guard) (call : ToolCall) : Prop := ∃ message, guard call = .ok (some message) ∧ message ≠ ""

/-- A tool of which the pipeline sees how it ends; `finalize` is `.ok` where there is none. -/
structure ToolDefinition where
  finalize : Value → Except Thrown Value

/-- One call of `execute`: the tool that has the name, the guards, the clock at the start and
    `structuredClone`. -/
structure Setting where
  call : ToolCall
  definition : Option ToolDefinition
  guards : List Guard
  startedAt : String
  clone : Value → Except Thrown Value

structure Event where
  type : String
  payload : Value

def startedType : String := "tool/started"
def resultType : String := "tool/result"

/-- How the race ended. -/
inductive Raced where
  | returned (value : Value)
  | thrown (error : Thrown)

inductive Phase where
  | guarding (rest : List Guard)
  /-- `tool/started` was handed over. -/
  | starting
  /-- The tool was called; what settled the race first, once something has. -/
  | racing (raced : Option Raced)
  /-- The result of a tool that returned was handed over. -/
  | reporting (result : ToolResult)
  /-- The result of the handler was handed over. -/
  | failing (result : ToolResult)
  | returned (result : ToolResult)
  | raised

structure State where
  phase : Phase
  aborted : Bool
  settled : Bool
  ran : Bool
  handed : List Event

/-- An answer of the callback is none or what it is rejected with. -/
inductive Action where
  | guard (now : String)
  | started (answer : Option Thrown) (now : String)
  | returns (value : Value)
  | throws (error : Thrown)
  | deadline
  | timesOut
  | emits (type : String) (payload : Value)
  | resumes (now : String)
  | reported (answer : Option Thrown) (now : String)
  | failed (answer : Option Thrown)

variable (p : Setting)

def result (status : Status) (content : Value) (errorCode : Option String) (now : String) : ToolResult :=
  ⟨p.call.callId, p.call.name, status, content, errorCode, p.startedAt, now⟩

def message (text : String) : Value := .obj [("message", .str text)]

def start (now : String) : State where
  phase := if p.definition.isSome then .guarding p.guards
    else .returned (result p .failed .null (some "TOOL_NOT_FOUND") now)
  aborted := false
  settled := false
  ran := false
  handed := []

def hand (s : State) (type : String) (payload : Value) : State := { s with handed := s.handed ++ [⟨type, payload⟩] }

/-- `settled = true`, and the call of `emit` with the result. -/
def settle (s : State) (phase : ToolResult → Phase) (r : ToolResult) : State :=
  { hand s resultType r.payload with settled := true, phase := phase r }

def failure (s : State) (error : Thrown) (now : String) : ToolResult :=
  if s.aborted then result p .timedOut (message error.message) (some "TOOL_TIMEOUT") now
  else
    match error with
    | .timeout => result p .timedOut (message error.message) (some "TOOL_TIMEOUT") now
    | _ => result p .failed (message error.message) (some "TOOL_EXECUTION_FAILED") now

def fail (s : State) (error : Thrown) (now : String) : State := settle s .failing (failure p s error now)

def askGuard (s : State) (now : String) : List Guard → State
  | [] => { hand s startedType (.obj [("callId", .str p.call.callId), ("name", .str p.call.name)]) with phase := .starting }
  | guard :: rest =>
    match guard p.call with
    | .error _ => { s with phase := .raised }
    | .ok none => { s with phase := .guarding rest }
    | .ok (some denial) =>
      if denial = "" then { s with phase := .guarding rest }
      else { s with phase := .returned (result p .denied (message denial) (some "TOOL_POLICY_DENIED") now) }

def finalized (value : Value) : Except Thrown Value :=
  match p.definition with
  | some definition => definition.finalize value >>= p.clone
  | none => p.clone value

def resume (s : State) (now : String) : Raced → State
  | .thrown error => fail p s error now
  | .returned value =>
    match finalized p value with
    | .error error => fail p s error now
    | .ok content => settle s .reporting (result p .completed content none now)

/-- The timer is set before the call is started and cleared when it is over. -/
def armed : Phase → Bool
  | .guarding _ | .returned _ | .raised => false
  | _ => true

def next (s : State) : Action → State
  | .guard now =>
    match s.phase with
    | .guarding rest => askGuard p s now rest
    | _ => s
  | .started answer now =>
    match s.phase, answer with
    | .starting, none => { s with phase := .racing none, ran := true }
    | .starting, some error => fail p s error now
    | _, _ => s
  | .returns value =>
    match s.phase with
    | .racing none => { s with phase := .racing (some (.returned value)) }
    | _ => s
  | .throws error =>
    match s.phase with
    | .racing none => { s with phase := .racing (some (.thrown error)) }
    | _ => s
  | .deadline => if armed s.phase then { s with aborted := true } else s
  | .timesOut =>
    match s.phase with
    | .racing none => if s.aborted then { s with phase := .racing (some (.thrown .timeout)) } else s
    | _ => s
  | .emits type payload => if s.ran && !s.settled then hand s type payload else s
  | .resumes now =>
    match s.phase with
    | .racing (some raced) => resume p s now raced
    | _ => s
  | .reported answer now =>
    match s.phase, answer with
    | .reporting r, none => { s with phase := .returned r }
    | .reporting _, some error => fail p s error now
    | _, _ => s
  | .failed answer =>
    match s.phase, answer with
    | .failing r, none => { s with phase := .returned r }
    | .failing _, some _ => { s with phase := .raised }
    | _, _ => s

def step (s : State) (a : Action) : Unit × State := ((), next p s a)

def results (s : State) : List Event := s.handed.filter fun e => e.type = resultType

def isOver : Phase → Bool
  | .returned _ | .raised => true
  | _ => false

/-- What holds of a call at every moment. -/
structure SettledOnce (s : State) : Prop where
  guarded : ∀ guard ∈ p.guards, Denies guard p.call → s.ran = false
  once : (results s).length ≤ 1
  last : ∀ before e after, s.handed = before ++ e :: after → e.type = resultType → after = []
  ended : isOver s.phase = true → s.handed ≠ [] → (results s).length = 1
  agrees : ∀ r, s.phase = .returned r → s.handed ≠ [] → results s = [⟨resultType, r.payload⟩]

/-- The callback takes the result of a tool that returned, and the tool leaves `tool/result`
    to the pipeline. -/
def Clean (e : Entry State Action Unit) : Prop :=
  match e.action with
  | .reported (some _) _ => ∀ r, e.before.phase ≠ .reporting r
  | .emits type _ => type = resultType → e.before.ran = false ∨ e.before.settled = true
  | _ => True

end PromptForge.ToolPipeline
