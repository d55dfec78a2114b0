import PromptForge.JobsConservation
import PromptForge.JsonTextLaws

/-!
# Requests under a client's key

Extensions of a budget and resumes come with a key that the client chose, and a
charge of a tool call with the id of its operation.
-/
namespace PromptForge.JobRequests
open Json Jobs Runs Tables

/-- `sha256` in hexadecimal, and the two ways a JSON text is spaced. -/
structure Host where
  encode : Job → String
  sha256 : String → String
  length_sha256 : ∀ text, (sha256 text).length = 64
  spaced : JsonText.Style
  compact : JsonText.Style

variable (host : Host)

/-- What a client asks for under its key. -/
inductive Demand where
  | extend (extension : Dict)
  | resume (selection checkpointId : Value)

def Demand.text : Demand → String
  | .extend extension => JsonText.dumps host.spaced (.obj extension)
  | .resume selection checkpointId =>
    if truthy selection = false ∧ truthy checkpointId = false then "resume"
    else JsonText.dumps host.compact (.obj [("selection", selection), ("checkpoint_id", checkpointId)])

def Demand.fingerprint (d : Demand) : String := host.sha256 (d.text host)

def Host.jobs : Jobs.Host := ⟨host.encode, fun extension => (Demand.extend extension).fingerprint host⟩

/-- The payload that a resume leaves in its row; the rows of the other kinds have none. -/
structure Source where
  jobId : String
  requestKey : String
  sourceRunId : String

structure State where
  db : Db
  sources : List Source

def State.initial : State := ⟨.initial, []⟩

def source? (s : State) (identity requestKey : String) : Option Source :=
  s.sources.find? fun r => decide (r.jobId = identity ∧ r.requestKey = requestKey)

def reserveResume (identity requestKey : String) (selection checkpointId : Value) (s : State) :
    Except JobError (String × State) :=
  let fingerprint := (Demand.resume selection checkpointId).fingerprint host
  match request? s.db identity requestKey with
  | some row =>
    if row.fingerprint ≠ fingerprint then .error (.value "AGENT_JOB_REQUEST_CONFLICT")
    else match source? s identity requestKey with
      | none => .error (.unknown "source_run_id")
      | some source => .ok (source.sourceRunId, s)
  | none =>
    match job? s.db identity with
    | none => .error (.unknown identity)
    | some job =>
      .ok (job.currentRunId,
        { db := { s.db with requests := s.db.requests ++ [⟨identity, requestKey, fingerprint⟩] }
          sources := s.sources ++ [⟨identity, requestKey, job.currentRunId⟩] })

inductive Action where
  | job (r : Jobs.Request)
  | resume (identity requestKey : String) (selection checkpointId : Value)

inductive Answer where
  | job (reply : Jobs.Reply)
  | source (runId : String)

def step (s : State) : Action → Except JobError Answer × State
  | .job r =>
    ((perform host.jobs s.db r).1.map .job, { s with db := (perform host.jobs s.db r).2 })
  | .resume identity requestKey selection checkpointId =>
    atomic .source (reserveResume host identity requestKey selection checkpointId) s

abbrev Move := Entry State Action (Except JobError Answer)

def Action.asks : Action → Option (String × String × Demand)
  | .job (.extendBudget identity extension requestKey _) => some (identity, requestKey, .extend extension)
  | .resume identity requestKey selection checkpointId =>
    some (identity, requestKey, .resume selection checkpointId)
  | _ => none

def Action.charges : Action → Option (String × String)
  | .job (.chargeTool identity operationId _) => some (identity, operationId)
  | _ => none

def Asks (e : Move) (identity requestKey : String) (d : Demand) : Prop :=
  e.action.asks = some (identity, requestKey, d)

def Grants (e : Move) (identity requestKey : String) (d : Demand) : Prop :=
  Asks e identity requestKey d ∧ ∃ answer, e.outcome = .ok answer

def Charges (e : Move) (identity operationId : String) : Prop :=
  e.action.charges = some (identity, operationId) ∧ ∃ answer, e.outcome = .ok answer

def Demand.valid : Demand → Bool
  | .extend extension => (increments? extension).isSome
  | .resume _ _ => true

/-- The demand has its effect: the limits are raised, or the current run is reserved. -/
def Performed (e : Move) (identity : String) (d : Demand) : Prop :=
  match d with
  | .extend extension => ∃ increments value now, increments? extension = some increments ∧
      job? e.before.db identity = some value ∧
      job? e.after.db identity = some { value with
        limits := extendLimits value.limits increments, pausedBy := none, blockingReason := none,
        updatedAt := now }
  | .resume _ _ => ∃ value, job? e.before.db identity = some value ∧
      e.outcome = .ok (.source value.currentRunId) ∧ e.after.db.jobs = e.before.db.jobs

def ChargedOne (e : Move) (identity : String) : Prop :=
  ∃ value now, job? e.before.db identity = some value ∧
    job? e.after.db identity = some { value with
      consumed := fun d => if d = .toolCallsUsed then (value.consumed d).add (.int 1) else value.consumed d
      updatedAt := now }

structure Once (es : List Move) : Prop where
  repeated : es.Pairwise fun e e' => ∀ identity requestKey d d', Grants e identity requestKey d →
    Asks e' identity requestKey d' → d.text host = d'.text host → d'.valid = true →
    e'.after = e'.before ∧ (∃ answer, e'.outcome = .ok answer) ∧
      ∀ runId, e.outcome = .ok (.source runId) → e'.outcome = .ok (.source runId)
  reused : es.Pairwise fun e e' => ∀ identity requestKey d d', Grants e identity requestKey d →
    Asks e' identity requestKey d' → d.text host ≠ d'.text host → d'.valid = true →
    e'.outcome = .error (.value "AGENT_JOB_REQUEST_CONFLICT") ∧ e'.after = e'.before
  first : ∀ pre e post, es = pre ++ e :: post → ∀ identity requestKey d, Asks e identity requestKey d →
    (∀ e₀ ∈ pre, ∀ d₀, ¬ Grants e₀ identity requestKey d₀) → d.valid = true →
    (job? e.before.db identity).isSome → (∃ answer, e.outcome = .ok answer) ∧ Performed e identity d
  charged : ∀ pre e post, es = pre ++ e :: post → ∀ identity operationId, Charges e identity operationId →
    (∀ e₀ ∈ pre, ¬ Charges e₀ identity operationId) → ChargedOne e identity
  chargedOnce : es.Pairwise fun e e' => ∀ identity operationId, Charges e identity operationId →
    e'.action.charges = some (identity, operationId) →
    e'.after = e'.before ∧ ∃ answer, e'.outcome = .ok answer
  raised : ∀ e ∈ es, ∀ error, e.outcome = .error error → e.after = e.before

/-- No row of one kind stands under the key of a call of the other kind. -/
structure Unmixed (e : Move) : Prop where
  charge : ∀ identity operationId row, e.action.charges = some (identity, operationId) →
    request? e.before.db identity ("tool:" ++ operationId) = some row → row.fingerprint = "tool"
  ask : ∀ identity requestKey d row, Asks e identity requestKey d →
    request? e.before.db identity requestKey = some row → row.fingerprint ≠ "tool"

end PromptForge.JobRequests
