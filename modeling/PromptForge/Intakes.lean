import PromptForge.Jobs

/-!
# Intake of a request

Before a job exists, the calls to a provider are charged to an intake, which keeps
its own totals and attempts in one row.
-/
namespace PromptForge.Intakes
open Json Numbers Runs Tables Jobs

structure IntakeAttempt where
  attemptId : String
  charges : Charges
  /-- `actual_output` and `settled_at` -/
  status : AttemptStatus
  createdAt : ℚ

/-- `jobId` is `none` until the intake is attached; no job has an empty id. -/
structure Intake where
  intakeId : String
  sessionId : String
  projectId : String
  fingerprint : String
  status : String
  limits : Limits
  consumed : Totals
  createdAt : ℚ
  updatedAt : Option ℚ
  failure : Option Dict
  attempts : List IntakeAttempt
  jobId : Option String

structure Db where
  intakes : List Intake
  store : Jobs.Db

def Db.initial : Db := ⟨[], .initial⟩

inductive IntakeError where
  | value (code : String)
  | budgetExceeded (dimension : Dimension) (consumed : Number) (limit : ℤ) (attemptedCharge : Number)
  /-- `KeyError` -/
  | unknownProfile (profile : String)
  /-- `TypeError` on a row that is not there. -/
  | missing
  | integrity (key : String)
  /-- The call ended before its transaction was committed. -/
  | crashed
  | job (error : JobError)

structure Host where
  jobs : Jobs.Host
  sha256 : String → String

abbrev Tx (τ : Type) := Db → Except IntakeError (τ × Db)

abbrev intake? (db : Db) (identity : String) : Option Intake := lookup Intake.intakeId db.intakes identity

def put (value : Intake) (db : Db) : Db := { db with intakes := updateRow Intake.intakeId value db.intakes }

def found {α : Type} (row : Option α) (error : IntakeError) : Except IntakeError α := row.elim (.error error) .ok

def resumable (sessionId fingerprint : String) (prior : Intake) : Prop :=
  prior.sessionId = sessionId ∧ prior.fingerprint = fingerprint ∧ prior.status = "paused_model_unavailable" ∧
    prior.jobId = none

instance (sessionId fingerprint : String) (prior : Intake) : Decidable (resumable sessionId fingerprint prior) :=
  inferInstanceAs (Decidable (_ ∧ _))

/-- `hex` is what `uuid4` draws. -/
def newIntake (hex sessionId projectId fingerprint : String) (limits : Limits) (now : ℚ) : Intake where
  intakeId := "intake-" ++ hex
  sessionId := sessionId
  projectId := projectId
  fingerprint := fingerprint
  status := "running"
  limits := limits
  consumed := fun _ => .int 0
  createdAt := now
  updatedAt := none
  failure := none
  attempts := []
  jobId := none

def create (host : Host) (sessionId projectId request profile hex : String) (now : ℚ) : Tx Intake := fun db =>
  let fingerprint := host.sha256 request
  match db.intakes.find? fun prior => decide (resumable sessionId fingerprint prior) with
  | some prior => .ok ({ prior with status := "running" }, put { prior with status := "running" } db)
  | none => do
    let limits ← found (executionProfiles.lookup profile) (.unknownProfile profile)
    let value := newIntake hex sessionId projectId fingerprint limits now
    let intakes ← found (insertRow Intake.intakeId value db.intakes) (.integrity value.intakeId)
    return (value, { db with intakes := intakes })

abbrev attempt? (value : Intake) (attemptId : String) : Option IntakeAttempt :=
  lookup IntakeAttempt.attemptId value.attempts attemptId

def spend (value : Intake) (c : Charges) (d : Dimension) : Except IntakeError Number :=
  let used := value.consumed d
  let total := used.add (.int (c.of d))
  if Number.int (value.limits d) < total then .error (.budgetExceeded d used (value.limits d) (.int (c.of d)))
  else .ok total

def validCharges (charges : Dict) : Except IntakeError (Charges × Option String) :=
  match validateAttemptCharges charges with
  | .ok numeric => .ok numeric
  | .error error => .error (.job error)

def charge (value : Intake) (c : Charges) (attemptId : String) (now : ℚ) : Except IntakeError Intake := do
  let requests ← spend value c .requests
  let output ← spend value c .outputTokens
  let input ← spend value c .inputBytes
  return { value with
    consumed := (Reserved.mk requests output input).over value.consumed
    attempts := value.attempts ++ [⟨attemptId, c, .unresolved, now⟩] }

def sameCharges (a b : Charges) : Prop :=
  a.requests = b.requests ∧ a.outputTokens = b.outputTokens ∧ a.inputBytes = b.inputBytes

instance (a b : Charges) : Decidable (sameCharges a b) := inferInstanceAs (Decidable (_ ∧ _))

def reserve (identity : String) (charges : Dict) (freshId : String) (now : ℚ) : Tx Totals := fun db => do
  let (c, name) ← validCharges charges
  let value ← found (intake? db identity) (.value "AGENT_INTAKE_NOT_FOUND")
  require (value.status = "running" ∧ value.jobId = none) (.value "AGENT_INTAKE_NOT_RUNNING")
  match attempt? value (name.getD freshId) with
  | some previous =>
    require (sameCharges previous.charges c) (.value "AGENT_ATTEMPT_CONFLICT")
    return (value.consumed, db)
  | none =>
    let charged ← charge value c (name.getD freshId) now
    return (charged.consumed, put charged db)

def Intake.released (release : ℤ) (value : Intake) : Intake :=
  { value with
    consumed := fun d => if d = .outputTokens then (value.consumed d).sub (.int release) else value.consumed d }

def IntakeAttempt.settledWith (actual : ℕ) (now : ℚ) (attempt : IntakeAttempt) : IntakeAttempt :=
  { attempt with status := .completed actual now }

def Intake.settled (attempt : IntakeAttempt) (actual : ℕ) (now : ℚ) (value : Intake) : Intake :=
  { value.released (attempt.charges.outputTokens - actual) with
    attempts := updateWhere (fun a => decide (a.attemptId = attempt.attemptId)) (.settledWith actual now)
      value.attempts }

def settle (identity attemptId : String) (actualOutput : Value) (now : ℚ) : Tx Totals := fun db => do
  let value ← found (intake? db identity) (.value "AGENT_INTAKE_NOT_FOUND")
  let attempt ← found (attempt? value attemptId) (.value "AGENT_ATTEMPT_USAGE_INVALID")
  require (value.jobId = none) (.value "AGENT_ATTEMPT_USAGE_INVALID")
  let actual ← found (actual? actualOutput) (.value "AGENT_ATTEMPT_USAGE_INVALID")
  require (actual ≤ attempt.charges.outputTokens) (.value "AGENT_ATTEMPT_USAGE_INVALID")
  match attempt.status with
  | .completed settled _ =>
    require (settled = actual) (.value "AGENT_ATTEMPT_CONFLICT")
    return (value.consumed, db)
  | .unresolved => return ((value.settled attempt actual now).consumed, put (value.settled attempt actual now) db)

def Intake.finished (status : String) (elapsed : Number) (failure : Option Dict) (now : ℚ) (value : Intake) : Intake :=
  { value with
    status := status
    failure := failure
    updatedAt := some now
    consumed := fun d => if d = .elapsedSeconds then (value.consumed d).add elapsed else value.consumed d }

def finish (identity status : String) (elapsed : Number) (failure : Option Dict) (now : ℚ) : Tx Intake := fun db => do
  let value ← found (intake? db identity) .missing
  return (value.finished status elapsed failure now, put (value.finished status elapsed failure now) db)

def move (value : Intake) (job : Job) (d : Dimension) : Except IntakeError Unit :=
  require (¬ Number.int (job.limits d) < (job.consumed d).add (value.consumed d))
    (.budgetExceeded d (job.consumed d) (job.limits d) (value.consumed d))

def attemptRow (job : Job) (attempt : IntakeAttempt) : Attempt where
  attemptId := attempt.attemptId
  jobId := job.jobId
  runId := job.currentRunId
  reservedOutput := attempt.charges.outputTokens
  status := attempt.status
  createdAt := attempt.createdAt

def insertAttempt (rows : List Attempt) (row : Attempt) : Except IntakeError (List Attempt) :=
  found (insertRow Attempt.attemptId row rows) (.integrity row.attemptId)

def joined (value : Intake) (job : Job) : Job :=
  { job with
    consumed := fun d => (job.consumed d).add (value.consumed d)
    attemptLedger := !value.attempts.isEmpty || job.attemptLedger }

def transfer (value : Intake) (job : Job) (db : Db) : Except IntakeError (Job × Db) := do
  let _ ← Dimension.all.mapM (move value job)
  let attempts ← (value.attempts.map (attemptRow job)).foldlM insertAttempt db.store.attempts
  return (joined value job,
    put { value with jobId := some job.jobId }
      { db with store := Jobs.put (joined value job) { db.store with attempts := attempts } })

def attach (identity jobId : String) : Tx Job := fun db => do
  let value ← found (intake? db identity) (.value "AGENT_INTAKE_NOT_FOUND")
  require (∀ other ∈ value.jobId, other = jobId) (.value "AGENT_INTAKE_ALREADY_ATTACHED")
  let job ← found (job? db.store jobId) .missing
  require (job.sessionId = value.sessionId ∧ job.projectId = value.projectId) (.value "AGENT_INTAKE_BINDING_MISMATCH")
  if value.jobId = none then transfer value job db else return (job, db)

inductive Request where
  | create (sessionId projectId request profile hex : String) (now : ℚ)
  | reserve (identity : String) (charges : Dict) (freshId : String) (now : ℚ)
  | settle (identity attemptId : String) (actualOutput : Value) (now : ℚ)
  | finish (identity status : String) (elapsed : Number) (failure : Option Dict) (now : ℚ)
  | attach (identity jobId : String)
  /-- Any call of the job store. -/
  | job (request : Jobs.Request)
  /-- Any call that fails before it is committed. -/
  | crash

inductive Reply where
  | intake (value : Intake)
  | consumed (totals : Totals)
  | attached (value : Job)
  | job (reply : Jobs.Reply)

def performJob (host : Host) (request : Jobs.Request) (db : Db) : Except IntakeError Reply × Db :=
  match Jobs.perform host.jobs db.store request with
  | (.ok reply, store) => (.ok (.job reply), { db with store := store })
  | (.error error, store) => (.error (.job error), { db with store := store })

def perform (host : Host) (db : Db) : Request → Except IntakeError Reply × Db
  | .create sessionId projectId request profile hex now =>
    atomic .intake (create host sessionId projectId request profile hex now) db
  | .reserve identity charges freshId now => atomic .consumed (reserve identity charges freshId now) db
  | .settle identity attemptId actualOutput now => atomic .consumed (settle identity attemptId actualOutput now) db
  | .finish identity status elapsed failure now => atomic .intake (finish identity status elapsed failure now) db
  | .attach identity jobId => atomic .attached (attach identity jobId) db
  | .job request => performJob host request db
  | .crash => (.error .crashed, db)

end PromptForge.Intakes
