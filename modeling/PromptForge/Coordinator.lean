import PromptForge.Texts
import PromptForge.Runs

/-!
# The coordinator

An execution plan is carried out step by step, through tools, handlers and a
debugger that the caller supplies.
-/
namespace PromptForge.Coordination
open Runs

inductive ExecutionStep where
  | generateCode | buildFirmware | detectBoard | flashFirmware | startMonitor | startSimulation | debugFailure
  deriving DecidableEq

def ExecutionStep.value : ExecutionStep → String
  | .generateCode => "GENERATE_CODE"
  | .buildFirmware => "BUILD_FIRMWARE"
  | .detectBoard => "DETECT_BOARD"
  | .flashFirmware => "FLASH_FIRMWARE"
  | .startMonitor => "START_MONITOR"
  | .startSimulation => "START_SIMULATION"
  | .debugFailure => "DEBUG_FAILURE"

/-- The steps of a plan do not repeat. -/
structure ExecutionPlan where
  executionSteps : List ExecutionStep
  nodup : executionSteps.Nodup

inductive ExecutionStatus where
  | pending | running | completed | completedWithPendingHardware | failed | cancelled
  deriving DecidableEq

def ExecutionStatus.terminal (s : ExecutionStatus) : Bool := s ∉ [.pending, .running]

def toolByStep : ExecutionStep → Option String
  | .buildFirmware => some "build_firmware"
  | .detectBoard => some "board_detector"
  | .flashFirmware => some "flash_firmware"
  | .startMonitor => some "serial_monitor"
  | .startSimulation => some "wokwi_simulator"
  | .generateCode | .debugFailure => none

/-- What `str`, `bool` and `hash` make of an object, none where they raise. -/
structure Traits where
  shown : Option String
  truthy : Option Bool
  hashable : Bool
  deriving DecidableEq

inductive Value where
  | none
  | bool (b : Bool)
  | text (s : String)
  | object (traits : Traits)
  /-- An object with an attribute `value`, as a member of an enumeration has. -/
  | member (traits : Traits) (value : Value)
  deriving DecidableEq

inductive Attribute where
  | absent
  | present (v : Value)
  /-- A property that raises. -/
  | raises
  deriving DecidableEq

/-- What leaves `execute` as an exception. -/
inductive Escape where
  | cancelledError
  /-- `KeyboardInterrupt`, `SystemExit` -/
  | stopped
  | valueError (text : String)
  /-- An exception of the object that was read. -/
  | unreadable
  deriving DecidableEq

def Attribute.get (a : Attribute) (default : Value) : Except Escape Value :=
  match a with
  | .absent => .ok default
  | .present v => .ok v
  | .raises => .error .unreadable

def readable {α : Type} (x : Option α) : Except Escape α := (x.map Except.ok).getD (.error .unreadable)

def Value.enumValue : Value → Value
  | .member _ value => value
  | v => v

def Value.str : Value → Except Escape String
  | .none => .ok "None"
  | .bool b => .ok (if b then "True" else "False")
  | .text s => .ok s
  | .object traits | .member traits _ => readable traits.shown

def Value.truth : Value → Except Escape Bool
  | .none => .ok false
  | .bool b => .ok b
  | .text s => .ok (s ≠ "")
  | .object traits | .member traits _ => readable traits.truthy

/-- `v in {…}`, the set being one of texts, perhaps with `None`. -/
def Value.isIn (v : Value) (orNone : Bool) (texts : List String) : Except Escape Bool :=
  match v with
  | .none => .ok orNone
  | .text s => .ok (s ∈ texts)
  | .bool _ => .ok false
  | .object traits | .member traits _ => if traits.hashable then .ok false else .error .unreadable

def orElse (a : Value) (b : Except Escape Value) : Except Escape Value := do
  if ← a.truth then return a else b

/-- The attribute `failure` of a result; `None` has no attributes and is false. -/
structure RawFailure where
  retryable : Attribute
  category : Attribute
  message : Attribute
  exceptionType : Attribute
  truthy : Option Bool
  deriving DecidableEq

def RawFailure.none : RawFailure := ⟨.absent, .absent, .absent, .absent, some false⟩

/-- An answer with the attributes that are read of it; for `failure`, none is a property that
    raises. -/
structure Answer where
  success : Attribute
  status : Attribute
  failure : Option RawFailure
  message : Attribute
  deriving DecidableEq

inductive Result where
  /-- The constant `False`. -/
  | isFalse
  | object (answer : Answer)
  deriving DecidableEq

structure Exception where
  name : String
  shown : Option String
  deriving DecidableEq

/-- How a call ended, or the await of what it returned. -/
inductive Reply (α : Type) where
  | returned (a : α)
  | raised (e : Exception)
  | cancelled
  | stopped

/-- A failure has a message and a category that are not blank. -/
structure ExecutionFailure where
  step : ExecutionStep
  message : String
  category : String
  recoverable : Bool
  toolName : Option String
  exceptionType : Value
  message_ne : Texts.strip message ≠ ""
  category_ne : Texts.strip category ≠ ""
  deriving DecidableEq

def executionFailure (step : ExecutionStep) (message category : String) (recoverable : Bool) (toolName : Option String)
    (exceptionType : Value) : Except Escape ExecutionFailure :=
  if hmessage : Texts.strip message ≠ "" then
    if hcategory : Texts.strip category ≠ "" then
      .ok ⟨step, message, category, recoverable, toolName, exceptionType, hmessage, hcategory⟩
    else .error (.valueError "category must be non-empty")
  else .error (.valueError "message must be non-empty")

/-- A failed step is one with a failure. -/
structure StepResult where
  step : ExecutionStep
  failure : Option ExecutionFailure
  toolName : Option String
  deriving DecidableEq

def StepResult.success (r : StepResult) : Bool := r.failure.isNone

def failureStatuses : List String := ["FAILED", "TIMEOUT", "CANCELLED", "PARTIAL", "SKIPPED"]

def Answer.failed (r : Answer) : Except Escape Bool := do
  let success ← r.success.get .none
  let status ← r.status.get .none
  if success = .bool false then return true
  if ← status.enumValue.isIn true ["SUCCESS"] then return false
  status.enumValue.isIn false failureStatuses

def Answer.failureRecord (step : ExecutionStep) (toolName : Option String) (r : Answer) :
    Except Escape ExecutionFailure := do
  let status ← r.status.get .none
  let raw ← readable r.failure
  let recoverable ← (← raw.retryable.get (.bool false)).truth
  let default ← orElse status.enumValue (.ok (.text "UNKNOWN"))
  let category ← (← raw.category.get default).enumValue.str
  let message ← (← orElse (← raw.message.get (.text ""))
    (do orElse (← r.message.get (.text "")) (.ok (.text (step.value ++ " failed"))))).str
  let exceptionType ← raw.exceptionType.get .none
  let _ ← readable raw.truthy
  executionFailure step message category recoverable toolName exceptionType

def failureFromResult (step : ExecutionStep) (toolName : Option String) :
    Result → Except Escape (Option ExecutionFailure)
  | .isFalse => return some (← executionFailure step (step.value ++ " returned False") "FAILED" false toolName .none)
  | .object r => do
    if ← r.failed then return some (← r.failureRecord step toolName)
    return none

def failureFromException (step : ExecutionStep) (toolName : Option String) (e : Exception) :
    Except Escape ExecutionFailure := do
  let shown ← readable e.shown
  let message := if Texts.strip shown = "" then e.name else Texts.strip shown
  executionFailure step message "COORDINATOR_ERROR" false toolName (.text e.name)

def cancelledFailure (step : ExecutionStep) (toolName : Option String) : ExecutionFailure :=
  ⟨step, "Execution was cancelled", "CANCELLED", false, toolName, .text "CancelledError", by decide, by decide⟩

structure ExecutionOutcome where
  status : ExecutionStatus
  stepResults : List StepResult
  failures : List ExecutionFailure

/-- `_outcome`, with the checks of `ExecutionOutcome`. -/
def outcome (status : ExecutionStatus) (stepResults : List StepResult) (failures : List ExecutionFailure) :
    Except Escape ExecutionOutcome := do
  require (status.terminal = true) (.valueError "ExecutionOutcome status must be terminal")
  require (stepResults.filterMap (·.failure) = failures) (.valueError "failures must match failed step_results")
  require (status ∉ [.completed, .completedWithPendingHardware] ∨ failures = [])
    (.valueError "completed outcome cannot contain failures")
  return ⟨status, stepResults, failures⟩

inductive Event where
  | stepStarted | stepCompleted
  deriving DecidableEq

/-- A coordinator and what its environment answers in one execution: a step is attempted once
    and the debugger called once for it. -/
structure Coordinator where
  tool : ExecutionStep → Reply Result
  /-- Whether the resolver of a tool's arguments answers a `ToolInvocation`; none for
      arguments that are given. -/
  resolver : ExecutionStep → Option (Reply Bool)
  handler : ExecutionStep → Option (Reply Result)
  debugger : Option (ExecutionStep → Reply Result)
  debugOnFailure : Bool
  progressCallback : Option (Event → ExecutionStep → Reply Unit)

/-- What the coordinator meets: an answer of the callback, a step it attempts, a call of the
    debugger about a failure. -/
inductive Occurrence where
  | progress (reply : Reply Unit)
  | attempted (step : ExecutionStep) (reply : Reply Result)
  | debugged (reply : Reply Result)

def configurationError (text : String) : Exception := ⟨"CoordinatorConfigurationError", some text⟩

variable (c : Coordinator)

def Coordinator.reply (step : ExecutionStep) : Reply Result :=
  if (toolByStep step).isSome then
    match c.resolver step with
    | none | some (.returned true) => c.tool step
    | some (.returned false) => .raised (configurationError "invocation resolver must return ToolInvocation")
    | some (.raised e) => .raised e
    | some .cancelled => .cancelled
    | some .stopped => .stopped
  else if step = .debugFailure then
    match c.debugger with
    | none => .raised (configurationError "DEBUG_FAILURE requires an injected debugger")
    | some debugger => debugger .debugFailure
  else
    match c.handler step with
    | none => .raised (configurationError (step.value ++ " requires an injected step handler"))
    | some reply => reply

/-- `_execute_step` and `_execute_debugger`, with the record that a cancellation leaves. -/
def stepResult (step : ExecutionStep) (toolName : Option String) : Reply Result → Except Escape StepResult
  | .returned result => do return ⟨step, ← failureFromResult step toolName result, toolName⟩
  | .raised e => do return ⟨step, some (← failureFromException step toolName e), toolName⟩
  | .cancelled => .ok ⟨step, some (cancelledFailure step toolName), toolName⟩
  | .stopped => .error .stopped

/-- `_emit_progress`: an exception of the callback is logged, a cancellation is not caught. -/
def Coordinator.emitProgress (event : Event) (step : ExecutionStep) : List Occurrence × Except Escape Unit :=
  match c.progressCallback with
  | none => ([], .ok ())
  | some callback =>
    ([.progress (callback event step)],
      match callback event step with
      | .returned _ | .raised _ => .ok ()
      | .cancelled => .error .cancelledError
      | .stopped => .error .stopped)

/-- The debugger's answer about a failed step, when there is a debugger to ask. -/
def Coordinator.debugReply (step : ExecutionStep) : Option (Reply Result) :=
  if c.debugOnFailure = true ∧ step ≠ .debugFailure then c.debugger.map fun debugger => debugger step else none

def Coordinator.fail (step : ExecutionStep) (results : List StepResult) (failure : ExecutionFailure) :
    List Occurrence × Except Escape ExecutionOutcome :=
  if failure.category = "CANCELLED" then ([], outcome .cancelled results [failure])
  else
    match c.debugReply step with
    | none => ([], outcome .failed results [failure])
    | some reply => ([.debugged reply], do
        let debugged ← stepResult .debugFailure none reply
        match debugged.failure with
        | none => outcome .failed (results ++ [debugged]) [failure]
        | some second =>
          outcome (if second.category = "CANCELLED" then .cancelled else .failed) (results ++ [debugged])
            [failure, second])

def Coordinator.executeFrom : List StepResult → List ExecutionStep → List Occurrence × Except Escape ExecutionOutcome
  | done, [] => ([], outcome .completed done [])
  | done, step :: rest =>
    match c.emitProgress .stepStarted step with
    | (told, .error escape) => (told, .error escape)
    | (told, .ok ()) =>
      let log := told ++ [.attempted step (c.reply step)]
      match stepResult step (toolByStep step) (c.reply step) with
      | .error escape => (log, .error escape)
      | .ok result =>
        match c.emitProgress .stepCompleted step with
        | (told', .error escape) => (log ++ told', .error escape)
        | (told', .ok ()) =>
          let (more, ended) := match result.failure with
            | none => executeFrom (done ++ [result]) rest
            | some failure => c.fail step (done ++ [result]) failure
          (log ++ told' ++ more, ended)

def Coordinator.execute (plan : ExecutionPlan) : List Occurrence × Except Escape ExecutionOutcome :=
  c.executeFrom [] plan.executionSteps

end PromptForge.Coordination
