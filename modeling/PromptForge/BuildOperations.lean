import PromptForge.Json
import PromptForge.Runs

/-!
# Build operations

A build is accepted under an id, as a row of `desktop_build_operations` and a task.
-/
namespace PromptForge.BuildOperations
open Runs Tables Json

inductive BuildState where
  | queued
  | running
  | passed
  | failed
  | stale
  | interrupted
  | unavailable
  deriving DecidableEq

def BuildState.terminal : BuildState → Bool
  | .queued | .running => false
  | _ => true

structure Operation where
  operationId : String
  projectId : String
  environment : Option String
  sourceRevision : String
  state : BuildState
  message : Option String
  errorCode : Option String
  result : Option Value
  createdAt : ℤ
  updatedAt : ℤ

variable {δ : Type} [DecidableEq δ]

structure Row (δ : Type) where
  operationId : String
  fingerprint : δ
  payload : Operation

/-- `ended` is a task that ended and is still listed: its last save failed, or it was cancelled
    before its first step. -/
inductive Phase where
  | waiting
  | executing
  | ended
  deriving DecidableEq

structure Task where
  value : Operation
  phase : Phase

def Task.id (t : Task) : String := t.value.operationId

/-- A build that returned: its operation, the response and the revision found after it. -/
structure Build where
  operationId : String
  response : Value
  revision : String

/-- `started` and `builds` keep which builds were started and what those that returned have
    returned. -/
structure State (δ : Type) where
  rows : List (Row δ)
  tasks : List Task
  started : List String
  builds : List Build

def State.initial : State δ := ⟨[], [], [], []⟩

/-- How `execute` ends. -/
inductive Outcome where
  | returned (response : Value) (revision : String)
  | raised (code : Option String)
  | cancelled

/-- `stored` says whether a save succeeds. -/
inductive Action where
  | accept (operationId projectId : String) (environment : Option String) (sourceRevision : String) (now : ℤ)
  /-- The task has the lock: it saves that it is running, and calls `execute`. -/
  | begin (operationId : String) (stored storedAfter : Bool) (now : ℤ)
  | finish (operationId : String) (outcome : Outcome) (stored : Bool) (now : ℤ)
  /-- A task that waits is cancelled, at the lock or before it takes its first step. -/
  | cancel (operationId : String) (atLock stored : Bool) (now : ℤ)
  | restart (now : ℤ)

inductive Reply where
  | operation (value : Operation)
  | conflict
  | done

def get (s : State δ) (operationId : String) : Option Operation := (lookup Row.operationId s.rows operationId).map Row.payload

abbrev Fingerprint (δ : Type) := String → Option String → δ

variable (fingerprint : Fingerprint δ)

def accepted (operationId projectId : String) (environment : Option String) (sourceRevision : String) (now : ℤ) : Operation :=
  ⟨operationId, projectId, environment, sourceRevision, .queued, none, none, none, now, now⟩

def accept (s : State δ) (value : Operation) : Reply × State δ :=
  match lookup Row.operationId s.rows value.operationId with
  | some prior =>
    if prior.fingerprint ≠ fingerprint value.projectId value.environment then (.conflict, s) else (.operation prior.payload, s)
  | none =>
    (.operation value,
      { s with
        rows := s.rows ++ [⟨value.operationId, fingerprint value.projectId value.environment, value⟩]
        tasks := s.tasks ++ [⟨value, .waiting⟩] })

def save (rows : List (Row δ)) (value : Operation) : List (Row δ) :=
  updateWhere (fun r => decide (r.operationId = value.operationId)) (fun r => { r with payload := value }) rows

def conclude (s : State δ) (value : Operation) (stored : Bool) : State δ :=
  if stored then { s with rows := save s.rows value, tasks := deleteRow Task.id value.operationId s.tasks }
  else { s with tasks := updateRow Task.id ⟨value, .ended⟩ s.tasks }

/-- `bool(response["result"]["success"])`, where this raises nothing. -/
def succeeded (response : Value) : Option Bool := do
  let fields ← obj? response
  let result ← Dict.get? fields "result"
  let details ← obj? result
  let success ← Dict.get? details "success"
  return truthy success

def unavailable (value : Operation) (code : Option String) : Operation :=
  { value with
    state := .unavailable
    message := some "Build result could not be collected."
    errorCode := some (code.getD "BUILD_OPERATION_FAILED") }

def interrupted (value : Operation) : Operation :=
  { value with state := .interrupted, message := some "Build interrupted; its result is unknown." }

def settled (value : Operation) : Outcome → Operation
  | .cancelled => interrupted value
  | .raised code => unavailable value code
  | .returned response revision =>
    if revision ≠ value.sourceRevision then { value with result := some response, state := .stale }
    else
      match succeeded response with
      | none => unavailable value none
      | some success => { value with result := some response, state := if success then .passed else .failed }

def returnedBuild (operationId : String) : Outcome → List Build
  | .returned response revision => [⟨operationId, response, revision⟩]
  | _ => []

def held (s : State δ) (projectId : String) : Bool :=
  s.tasks.any fun t => decide (t.phase = .executing ∧ t.value.projectId = projectId)

def begin (s : State δ) (value : Operation) (stored storedAfter : Bool) (now : ℤ) : State δ :=
  let running := { value with state := .running, updatedAt := now }
  if stored then
    { s with
      rows := save s.rows running
      tasks := updateRow Task.id ⟨running, .executing⟩ s.tasks
      started := s.started ++ [value.operationId] }
  else conclude s (unavailable running none) storedAfter

def lost (now : ℤ) (r : Row δ) : Row δ :=
  { r with
    payload :=
      { r.payload with
        state := .interrupted
        message := some "The backend restarted. Inspect this operation before starting another build."
        updatedAt := now } }

def reopen (rows : List (Row δ)) (now : ℤ) : List (Row δ) := updateWhere (fun r => !r.payload.state.terminal) (lost now) rows

def task? (s : State δ) (operationId : String) (phase : Phase) : Option Operation :=
  (lookup Task.id s.tasks operationId).bind fun t => if t.phase = phase then some t.value else none

def step (s : State δ) : Action → Reply × State δ
  | .accept operationId projectId environment sourceRevision now =>
    accept fingerprint s (accepted operationId projectId environment sourceRevision now)
  | .begin operationId stored storedAfter now =>
    match task? s operationId .waiting with
    | none => (.done, s)
    | some value => (.done, if held s value.projectId then s else begin s value stored storedAfter now)
  | .finish operationId outcome stored now =>
    match task? s operationId .executing with
    | none => (.done, s)
    | some value =>
      (.done, conclude { s with builds := s.builds ++ returnedBuild operationId outcome }
        { settled value outcome with updatedAt := now } stored)
  | .cancel operationId atLock stored now =>
    match task? s operationId .waiting with
    | none => (.done, s)
    | some value =>
      (.done, if atLock then conclude s { interrupted value with updatedAt := now } stored
        else { s with tasks := updateRow Task.id ⟨value, .ended⟩ s.tasks })
  | .restart now => (.done, { s with rows := reopen s.rows now, tasks := [] })

def asked : Action → Option (String × Option String)
  | .accept _ projectId environment _ _ => some (projectId, environment)
  | _ => none

def CollisionFree (actions : List Action) : Prop :=
  ∀ a ∈ actions, ∀ b ∈ actions, ∀ x y, asked a = some x → asked b = some y →
    fingerprint x.1 x.2 = fingerprint y.1 y.2 → x = y

/-- What a run from the empty table keeps to. The state between any two actions is the last
    one of a shorter run. -/
structure RunsOnce (actions : List Action) : Prop where
  once : (final (step fingerprint) .initial actions).started.Nodup
  terminal : ∀ first rest, actions = first ++ rest → ∀ operationId value,
    get (final (step fingerprint) .initial first) operationId = some value → value.state.terminal = true →
      get (final (step fingerprint) .initial actions) operationId = some value
  passed : ∀ operationId value, get (final (step fingerprint) .initial actions) operationId = some value →
    value.state = .passed → ∃ build ∈ (final (step fingerprint) .initial actions).builds,
      build.operationId = operationId ∧ build.revision = value.sourceRevision ∧ succeeded build.response = some true ∧
        ∃ now, .accept operationId value.projectId value.environment value.sourceRevision now ∈ actions
  exclusive : ∀ t ∈ (final (step fingerprint) .initial actions).tasks, ∀ u ∈ (final (step fingerprint) .initial actions).tasks,
    t.phase = .executing → u.phase = .executing → t.value.projectId = u.value.projectId → t.id = u.id
  refused : ∀ e ∈ trace (step fingerprint) .initial actions, ∀ operationId projectId environment sourceRevision now,
    e.action = .accept operationId projectId environment sourceRevision now → ∀ value,
      get e.before operationId = some value → (value.projectId, value.environment) ≠ (projectId, environment) →
        e.outcome = .conflict ∧ e.after = e.before

end PromptForge.BuildOperations
