import PromptForge.Json
import PromptForge.Numbers
import PromptForge.Runs

/-!
# Jobs and their budgets

A job outlives the runs that work on it.
-/
namespace PromptForge.Jobs
open Json Numbers Tables

inductive Dimension where
  | elapsedSeconds
  | toolCallsUsed
  | requests
  | outputTokens
  | inputBytes
deriving DecidableEq

namespace Dimension

def text : Dimension → String
  | elapsedSeconds => "elapsed_seconds"
  | toolCallsUsed => "tool_calls_used"
  | requests => "requests"
  | outputTokens => "output_tokens"
  | inputBytes => "input_bytes"

def all : List Dimension := [elapsedSeconds, toolCallsUsed, requests, outputTokens, inputBytes]

end Dimension

abbrev Totals := Dimension → Number
abbrev Limits := Dimension → ℤ

def defaultLimits : Limits
  | .elapsedSeconds => 900
  | .toolCallsUsed => 100
  | .requests => 120
  | .outputTokens => 245760
  | .inputBytes => 8000000

def advancedLimits : Limits
  | .elapsedSeconds => 2700
  | .toolCallsUsed => 300
  | .requests => 360
  | .outputTokens => 737280
  | .inputBytes => 24000000

def executionProfiles : List (String × Limits) := [("standard", defaultLimits), ("advanced", advancedLimits)]

def transientProviderErrors : List String :=
  ["API_RATE_LIMITED", "PROVIDER_RATE_LIMITED", "API_NETWORK_ERROR", "PROVIDER_TIMEOUT", "PROVIDER_BUSY",
    "PROVIDER_UNAVAILABLE"]

def outageWindowSeconds : ℚ := 600
def maxRecoveryCycles : ℕ := 3

structure Outage where
  startedAt : ℚ
  deadlineAt : ℚ
  cycles : ℕ
  providerId : Option String
  modelId : Option String
  errorCode : Option String
  httpStatus : Option ℤ
  origin : String
  requestReachedProvider : Bool

structure RecoveryClaim where
  owner : String
  expiresAt : ℚ

structure Job where
  jobId : String
  projectId : String
  sessionId : String
  workspaceRoot : String
  currentRunId : String
  runIds : List String
  status : String
  recoveryPolicy : String
  pausedBy : Option String
  executionProfile : String
  limits : Limits
  consumed : Totals
  milestones : List Value
  blockingReason : Option String
  autoRecoveryCount : ℕ
  retryDueAt : Option ℚ
  createdAt : ℚ
  updatedAt : ℚ
  pinned : Bool
  outage : Option Outage
  durableWaitSeconds : Number
  durableWaitStartedAt : Option ℚ
  requestRecovery : Option Dict
  recoveryClaim : Option RecoveryClaim
  attemptLedger : Bool
  outputTokensReserved : ℤ

/-- What an attempt is charged with: its reservation while it is unresolved, then what
    it used. -/
inductive AttemptStatus where
  | unresolved
  | completed (actualOutput : ℕ) (settledAt : ℚ)
deriving DecidableEq

structure Attempt where
  attemptId : String
  jobId : String
  runId : String
  reservedOutput : ℕ
  status : AttemptStatus
  createdAt : ℚ
deriving DecidableEq

structure JobRequest where
  jobId : String
  requestKey : String
  fingerprint : String
deriving DecidableEq

structure Db where
  jobs : List Job
  attempts : List Attempt
  requests : List JobRequest

def Db.initial : Db := ⟨[], [], []⟩

inductive JobError where
  /-- `KeyError` -/
  | unknown (jobId : String)
  | value (code : String)
  | budgetExceeded (dimension : Dimension) (consumed : Number) (limit attemptedCharge : ℤ)
  /-- A checkpoint that has not the shape the call reads. -/
  | malformed

/-- `_encode` on a job, and `sha256` over the sorted JSON of a budget extension. -/
structure Host where
  encode : Job → String
  fingerprint : Dict → String

abbrev Tx (τ : Type) := Db → Except JobError (τ × Db)

abbrev job? (db : Db) (identity : String) : Option Job := lookup Job.jobId db.jobs identity

abbrev attempt? (db : Db) (attemptId : String) : Option Attempt :=
  lookup Attempt.attemptId db.attempts attemptId

def request? (db : Db) (identity requestKey : String) : Option JobRequest :=
  db.requests.find? fun r => decide (r.jobId = identity ∧ r.requestKey = requestKey)

def put (job : Job) (db : Db) : Db := { db with jobs := replaceRow Job.jobId job db.jobs }

def given (text : Option String) : Bool := text.getD "" != ""

def save (value : Job) (now : ℚ) : Tx Job := fun db =>
  let value := { value with updatedAt := now }
  let value := match job? db value.jobId with
    | none => value
    | some previous =>
      { value with
        consumed := fun d => if d = .outputTokens ∧ previous.attemptLedger = true then previous.consumed d
          else (value.consumed d).max (previous.consumed d)
        limits := fun d => max (value.limits d) (previous.limits d)
        attemptLedger := previous.attemptLedger || value.attemptLedger
        outputTokensReserved := if previous.attemptLedger then previous.outputTokensReserved
          else value.outputTokensReserved }
  .ok (value, put value db)

/-- `manual` tells that the job is a legacy one or the shared engine is off. -/
def create (identity projectId sessionId workspaceRoot runId : String) (manual : Bool)
    (executionProfile : String) (now : ℚ) : Tx Job := fun db =>
  match executionProfiles.lookup executionProfile with
  | none => .error (.value "AGENT_EXECUTION_PROFILE_INVALID")
  | some limits =>
    let value : Job :=
      { jobId := identity
        projectId := projectId
        sessionId := sessionId
        workspaceRoot := workspaceRoot
        currentRunId := runId
        runIds := [runId]
        status := "running"
        recoveryPolicy := if manual then "manual" else "safe_auto"
        pausedBy := none
        executionProfile := executionProfile
        limits := limits
        consumed := fun _ => .int 0
        milestones := []
        blockingReason := none
        autoRecoveryCount := 0
        retryDueAt := none
        createdAt := now
        updatedAt := now
        pinned := false
        outage := none
        durableWaitSeconds := .float (Double.ofRat 0)
        durableWaitStartedAt := none
        requestRecovery := none
        recoveryClaim := none
        attemptLedger := false
        outputTokensReserved := 0 }
    (save value now db).map fun result => (value, result.2)

def mutate (host : Host) (identity : String) (now : ℚ) (change : Job → Except JobError Job) : Tx Job := fun db =>
  match job? db identity with
  | none => .error (.unknown identity)
  | some job =>
    match change job with
    | .error error => .error error
    | .ok value =>
      if host.encode value = host.encode job then .ok (value, db)
      else .ok ({ value with updatedAt := now }, put { value with updatedAt := now } db)

def finishWait (now : ℚ) (value : Job) : Job :=
  match value.durableWaitStartedAt with
  | none => value
  | some started =>
    let waited := Number.max (.int 0) (.float (Double.ofRat (now - started)))
    { value with
      durableWaitStartedAt := none
      durableWaitSeconds := value.durableWaitSeconds.add waited }

def attach (host : Host) (identity runId : String) (now : ℚ) : Tx Job :=
  mutate host identity now fun value =>
    let value := finishWait now value
    .ok { value with
      recoveryClaim := none
      runIds := if runId ∈ value.runIds then value.runIds else value.runIds ++ [runId]
      currentRunId := runId
      status := "running"
      pausedBy := none
      retryDueAt := none
      blockingReason := none
      requestRecovery := none }

structure RunView where
  runId : String
  agentPlan : List Value
  status : String
  classification : String
  providerId : Option String
  modelId : Option String
  httpStatus : Option ℤ
  lastFailureOrigin : Option String
  requestReachedProvider : Bool
  retryAfterMs : ℚ

def savedState (checkpoint : Option Dict) : Except JobError Dict :=
  let checkpoint := checkpoint.getD []
  let resume := checkpoint.get "resume"
  if truthy resume then (obj? resume).elim (.error .malformed) .ok else .ok checkpoint

def providerBudget (saved : Dict) : Except JobError Dict :=
  let provider := saved.get "provider_budget"
  if truthy provider then (obj? provider).elim (.error .malformed) .ok else .ok []

def listOf : Value → Except JobError (List Value)
  | .arr items => .ok items
  | .str text => .ok (text.toList.map fun c => .str (String.singleton c))
  | .obj entries => .ok (entries.map fun entry => .str entry.1)
  | _ => .error .malformed

def planOf (run : RunView) (saved : Dict) : Except JobError (List Value) :=
  if run.agentPlan.isEmpty then (saved.get? "plan").elim (.ok []) listOf else .ok run.agentPlan

/-- A number in the checkpoint; the text of a fraction is read as the nearest double. -/
def usage? : Value → Option Number
  | .int n => some (.int n)
  | .float q => some (.float (Double.ofRat q))
  | _ => none

def reported (saved provider : Dict) (d : Dimension) : Option Number :=
  usage? (((saved.get? d.text).orElse fun _ => provider.get? d.text).getD (.int 0))

def recordUsage (saved provider : Dict) (value : Job) : Job :=
  { value with
    consumed := fun d =>
      if d = .outputTokens ∧ value.attemptLedger = true then value.consumed d
      else match reported saved provider d with
        | none => value.consumed d
        | some used => (value.consumed d).max (Number.max (.int 0) used) }

def finished (run : RunView) : Prop :=
  run.status = "completed" ∨ run.status = "completed_with_warning" ∨ run.status = "cancelled"

instance (run : RunView) : Decidable (finished run) := inferInstanceAs (Decidable (_ ∨ _))

def recordStatus (run : RunView) (milestones : List Value) (now : ℚ) (value : Job) : Job :=
  let value := { value with
    milestones := milestones
    status := if given value.pausedBy then "paused"
      else if run.classification = "AGENT_RUNTIME_INTERRUPTED" then "interrupted" else run.status
    requestRecovery := if run.status = "running" then value.requestRecovery else none }
  if finished run then
    let value := finishWait now value
    { value with outage := none, retryDueAt := none }
  else value

def recordUnavailable (run : RunView) (now : ℚ) (value : Job) : Job :=
  let value := finishWait now value
  { value with retryDueAt := none, status := if finished run then value.status else "blocked" }

/-- `trusted` is what `is_trusted` answers for the job's project. -/
def recordTrust (run : RunView) (trusted : Bool) (now : ℚ) (value : Job) : Job :=
  if run.status = "blocked" ∧ run.classification = "AGENT_PROJECT_TRUST_REQUIRED" ∧ trusted = false then
    let value := finishWait now value
    { value with blockingReason := some "AGENT_PROJECT_TRUST_REQUIRED", retryDueAt := none }
  else value

def unavailable (run : RunView) : Prop :=
  run.status = "paused_model_unavailable" ∧ run.classification ∈ transientProviderErrors

instance (run : RunView) : Decidable (unavailable run) := inferInstanceAs (Decidable (_ ∧ _))

def outageBlock (value : Job) (now : ℚ) : Option String :=
  match value.outage with
  | none => none
  | some outage =>
    if maxRecoveryCycles ≤ outage.cycles then some "AGENT_AUTO_RECOVERY_LIMIT"
    else if outage.deadlineAt ≤ now ∨ (∃ due ∈ value.retryDueAt, outage.deadlineAt ≤ due) then
      some "AGENT_OUTAGE_WINDOW_EXHAUSTED"
    else none

def retryDelay (run : RunView) (autoRecoveryCount : ℕ) (jitter : ℚ) : ℚ :=
  let base : ℚ := if run.classification ∈ ["PROVIDER_UNAVAILABLE", "PROVIDER_TIMEOUT", "API_NETWORK_ERROR"]
    then 30 else 5
  max (min 120 (base * 2 ^ min autoRecoveryCount 3) * jitter) (run.retryAfterMs / 1000)

/-- `jitter` is drawn between 1 and 1.25. -/
def recordOutage (run : RunView) (jitter now : ℚ) (value : Job) : Job :=
  if unavailable run ∧ value.retryDueAt = none then
    let started : Outage := value.outage.getD
      { startedAt := now
        deadlineAt := now + outageWindowSeconds
        cycles := value.autoRecoveryCount
        providerId := run.providerId
        modelId := run.modelId
        errorCode := none
        httpStatus := none
        origin := ""
        requestReachedProvider := false }
    let outage := { started with
      errorCode := some run.classification
      httpStatus := run.httpStatus
      origin := if given run.lastFailureOrigin then run.lastFailureOrigin.getD "" else "provider"
      requestReachedProvider := run.requestReachedProvider }
    let value := { value with
      outage := some outage
      retryDueAt := some (now + retryDelay run value.autoRecoveryCount jitter)
      durableWaitStartedAt := some now }
    match outageBlock value now with
    | none => value
    | some reason => { value with status := "paused_model_unavailable", blockingReason := some reason }
  else value

def recoveryTimeReserve (limits : Limits) : ℚ :=
  min 120 (max 30 (nearest (nearest (limits .elapsedSeconds) * nearest (1 / 5))))

def recordTimeReserve (run : RunView) (value : Job) : Job :=
  if unavailable run ∧ (Number.sub (.int (value.limits .elapsedSeconds)) (value.consumed .elapsedSeconds)).toRat <
      recoveryTimeReserve value.limits then
    { value with
      status := "paused"
      pausedBy := some "budget"
      blockingReason := some "AGENT_JOB_TIME_RESERVE_REQUIRED"
      retryDueAt := none }
  else value

def exhausted (value : Job) : Bool :=
  Dimension.all.any fun d => decide (Number.int (value.limits d) ≤ value.consumed d)

def budgetClassifications : List String :=
  ["AGENT_PROVIDER_BUDGET_EXCEEDED", "AGENT_JOB_BUDGET_EXHAUSTED", "AGENT_RUNTIME_TOOL_BUDGET_EXCEEDED",
    "AGENT_RUNTIME_LIMIT_EXCEEDED", "AGENT_VERIFICATION_RESERVE_REACHED"]

def recordBudget (run : RunView) (value : Job) : Job :=
  if ¬ (run.status = "completed" ∨ run.status = "completed_with_warning") ∧
      (run.classification ∈ budgetClassifications ∨ exhausted value = true) then
    { value with
      status := "paused"
      pausedBy := some "budget"
      blockingReason :=
        if run.classification = "AGENT_VERIFICATION_RESERVE_REACHED" ∧ exhausted value = false then
          some "AGENT_VERIFICATION_RESERVE_REACHED"
        else some "AGENT_JOB_BUDGET_EXHAUSTED" }
  else value

def reportRun (run : RunView) (trusted : Bool) (jitter now : ℚ) (value : Job) : Job :=
  if value.blockingReason = some "AGENT_RESUME_WORKSPACE_UNAVAILABLE" then recordUnavailable run now value
  else recordBudget run (recordTimeReserve run (recordOutage run jitter now (recordTrust run trusted now value)))

def updateRun (host : Host) (identity : String) (run : RunView) (checkpoint : Option Dict) (trusted : Bool)
    (jitter now : ℚ) : Tx Job :=
  mutate host identity now fun value =>
    if value.currentRunId ≠ run.runId then .ok value
    else do
      let saved ← savedState checkpoint
      let provider ← providerBudget saved
      let milestones ← planOf run saved
      .ok (reportRun run trusted jitter now
        (recordStatus run milestones now (recordUsage saved provider value)))

def recordElapsed (identity : String) (elapsed : Number) (now : ℚ) : Tx Unit := fun db =>
  match job? db identity with
  | none => .error (.unknown identity)
  | some value =>
    .ok ((), put { value with
      consumed := fun d => if d = .elapsedSeconds then (value.consumed d).max elapsed else value.consumed d
      updatedAt := now } db)

def extensible : List Dimension := [.elapsedSeconds, .toolCallsUsed, .requests]

/-- The increment for a key that may be extended, a whole number in its range. -/
def increment? (entry : String × Value) : Option (Dimension × ℤ) :=
  match extensible.find? fun d => decide (d.text = entry.1), entry.2 with
  | some d, .int n => if 1 ≤ n ∧ n ≤ defaultLimits d then some (d, n) else none
  | _, _ => none

def increments? (extension : Dict) : Option (List (Dimension × ℤ)) := extension.mapM increment?

def raiseLimit (limits : Limits) (d : Dimension) (n : ℤ) : Limits :=
  fun d' => if d' = d then min (defaultLimits d * 10) (limits d + n) else limits d'

def extendLimits (limits : Limits) (increments : List (Dimension × ℤ)) : Limits :=
  let extended := increments.foldl (fun limits entry => raiseLimit limits entry.1 entry.2) limits
  match increments.lookup .requests with
  | none => extended
  | some requests => [Dimension.outputTokens, .inputBytes].foldl (fun limits d =>
      raiseLimit limits d (defaultLimits d * requests / defaultLimits .requests)) extended

def extendBudget (host : Host) (identity : String) (extension : Dict) (requestKey : String) (now : ℚ) :
    Tx Job := fun db =>
  match increments? extension with
  | none => .error (.value "AGENT_JOB_BUDGET_EXTENSION_INVALID")
  | some increments =>
    let fingerprint := host.fingerprint extension
    match job? db identity with
    | none => .error (.unknown identity)
    | some value =>
      match request? db identity requestKey with
      | some row =>
        if row.fingerprint ≠ fingerprint then .error (.value "AGENT_JOB_REQUEST_CONFLICT")
        else .ok (value, db)
      | none =>
        let value := { value with
          limits := extendLimits value.limits increments
          pausedBy := none
          blockingReason := none
          updatedAt := now }
        .ok (value, put value { db with requests := db.requests ++ [⟨identity, requestKey, fingerprint⟩] })

structure Charges where
  requests : ℕ
  outputTokens : ℕ
  inputBytes : ℕ

def charged : List Dimension := [.requests, .outputTokens, .inputBytes]

def Charges.of (c : Charges) : Dimension → ℕ
  | .requests => c.requests
  | .outputTokens => c.outputTokens
  | .inputBytes => c.inputBytes
  | _ => 0

def charge? (charges : Dict) (d : Dimension) : Option ℕ :=
  match charges.get? d.text with
  | some (.int n) => if 0 ≤ n then some n.toNat else none
  | _ => none

/-- `None`, or a text of 1 to 128 characters. -/
def attemptId? : Value → Option (Option String)
  | .null => some none
  | .str text => if 1 ≤ text.length ∧ text.length ≤ 128 then some (some text) else none
  | _ => none

def validateAttemptCharges (charges : Dict) : Except JobError (Charges × Option String) :=
  let known := charges.all fun entry =>
    decide (entry.1 = "_attempt_id" ∨ entry.1 ∈ charged.map Dimension.text)
  match known, charge? charges .requests, charge? charges .outputTokens, charge? charges .inputBytes,
      attemptId? (charges.get "_attempt_id") with
  | true, some requests, some output, some input, some attemptId =>
    .ok (⟨requests, output, input⟩, attemptId)
  | _, _, _, _, _ => .error (.value "AGENT_BUDGET_CHARGE_INVALID")

def spend (value : Job) (c : Charges) (d : Dimension) : Except JobError Number :=
  let used := value.consumed d
  let total := used.add (.int (c.of d))
  if Number.int (value.limits d) < total then .error (.budgetExceeded d used (value.limits d) (c.of d))
  else .ok total

/-- The three dimensions that a provider attempt is charged in. -/
structure Reserved where
  requests : Number
  outputTokens : Number
  inputBytes : Number

def Reserved.over (r : Reserved) (totals : Totals) : Totals
  | .requests => r.requests
  | .outputTokens => r.outputTokens
  | .inputBytes => r.inputBytes
  | d => totals d

def reservedOf (value : Job) : Reserved :=
  ⟨value.consumed .requests, value.consumed .outputTokens, value.consumed .inputBytes⟩

def Job.charged (reserved : Reserved) (c : Charges) (now : ℚ) (value : Job) : Job :=
  { value with
    consumed := reserved.over value.consumed
    attemptLedger := true
    outputTokensReserved := value.outputTokensReserved + c.outputTokens
    updatedAt := now }

def running (value : Job) (runId : String) : Prop :=
  value.currentRunId = runId ∧ (value.status = "running" ∨ value.status = "queued") ∧
    given value.pausedBy = false

instance (value : Job) (runId : String) : Decidable (running value runId) :=
  inferInstanceAs (Decidable (_ ∧ _))

/-- `freshId` is what `uuid4` draws for an attempt without a name. -/
def reserveProviderAttempt (identity runId : String) (charges : Dict) (freshId : String) (now : ℚ) :
    Tx Reserved := fun db => do
  let (c, attemptId) ← validateAttemptCharges charges
  match job? db identity with
  | none => .error (.unknown identity)
  | some value =>
    if ¬ running value runId then .error (.value "AGENT_JOB_NOT_RUNNING")
    else
      let attemptId := attemptId.getD freshId
      match attempt? db attemptId with
      | some previous =>
        if previous.jobId ≠ identity ∨ previous.runId ≠ runId ∨ previous.reservedOutput ≠ c.outputTokens then
          .error (.value "AGENT_ATTEMPT_CONFLICT")
        else .ok (reservedOf value, db)
      | none =>
        let requests ← spend value c .requests
        let output ← spend value c .outputTokens
        let input ← spend value c .inputBytes
        let reserved : Reserved := ⟨requests, output, input⟩
        let row : Attempt := ⟨attemptId, identity, runId, c.outputTokens, .unresolved, now⟩
        .ok (reserved, put (value.charged reserved c now) { db with attempts := db.attempts ++ [row] })

def actual? : Value → Option ℕ
  | .int n => if 0 ≤ n then some n.toNat else none
  | _ => none

def Job.released (release : ℤ) (now : ℚ) (value : Job) : Job :=
  { value with
    consumed := fun d => if d = .outputTokens then (value.consumed d).sub (.int release) else value.consumed d
    updatedAt := now }

def settleProviderAttempt (identity attemptId : String) (actualOutput : Value) (now : ℚ) : Tx Totals := fun db =>
  match actual? actualOutput, (attempt? db attemptId).filter fun r => decide (r.jobId = identity) with
  | some actual, some row =>
    if row.reservedOutput < actual then .error (.value "AGENT_ATTEMPT_USAGE_INVALID")
    else
      match job? db identity with
      | none => .error .malformed
      | some value =>
        match row.status with
        | .completed settled _ =>
          if settled ≠ actual then .error (.value "AGENT_ATTEMPT_USAGE_CONFLICT")
          else .ok (value.consumed, db)
        | .unresolved =>
          let value := value.released (row.reservedOutput - actual) now
          .ok (value.consumed, put value { db with
            attempts := updateWhere (fun r => decide (r.attemptId = attemptId))
              (fun r => { r with status := .completed actual now }) db.attempts })
  | _, _ => .error (.value "AGENT_ATTEMPT_USAGE_INVALID")

/-- What a completed attempt used, and what an unresolved one still holds. -/
def Attempt.actual (r : Attempt) : ℕ :=
  match r.status with
  | .completed actualOutput _ => actualOutput
  | .unresolved => 0

def Attempt.held (r : Attempt) : ℕ :=
  match r.status with
  | .completed _ _ => 0
  | .unresolved => r.reservedOutput

structure Accounting where
  reservedOutputTokens : ℕ
  actualCompletedOutputTokens : ℕ
  unresolvedOutputTokens : ℕ
  physicalAttempts : ℕ

def attemptAccounting (db : Db) (identity : String) : Accounting :=
  let rows := db.attempts.filter fun r => decide (r.jobId = identity)
  { reservedOutputTokens := (rows.map Attempt.reservedOutput).sum
    actualCompletedOutputTokens := (rows.map Attempt.actual).sum
    unresolvedOutputTokens := (rows.map Attempt.held).sum
    physicalAttempts := rows.length }

def chargeTool (identity operationId : String) (now : ℚ) : Tx Unit := fun db =>
  let key := "tool:" ++ operationId
  match request? db identity key with
  | some _ => .ok ((), db)
  | none =>
    match job? db identity with
    | none => .error (.unknown identity)
    | some value =>
      if Number.int (value.limits .toolCallsUsed) ≤ value.consumed .toolCallsUsed then
        .error (.value "AGENT_JOB_BUDGET_EXHAUSTED")
      else
        .ok ((), put
          { value with
            consumed := fun d => if d = .toolCallsUsed then (value.consumed d).add (.int 1) else value.consumed d
            updatedAt := now }
          { db with requests := db.requests ++ [⟨identity, key, "tool"⟩] })

inductive Request where
  | create (identity projectId sessionId workspaceRoot runId : String) (manual : Bool)
      (executionProfile : String) (now : ℚ)
  | save (value : Job) (now : ℚ)
  | attach (identity runId : String) (now : ℚ)
  | updateRun (identity : String) (run : RunView) (checkpoint : Option Dict) (trusted : Bool) (jitter now : ℚ)
  | recordElapsed (identity : String) (elapsed : Number) (now : ℚ)
  | extendBudget (identity : String) (extension : Dict) (requestKey : String) (now : ℚ)
  | reserve (identity runId : String) (charges : Dict) (freshId : String) (now : ℚ)
  | settle (identity attemptId : String) (actualOutput : Value) (now : ℚ)
  | chargeTool (identity operationId : String) (now : ℚ)

inductive Reply where
  | job (value : Job)
  | reserved (totals : Reserved)
  | consumed (totals : Totals)
  | done

def commit {τ : Type} (f : τ → Reply) (tx : Tx τ) (db : Db) : Except JobError Reply × Db :=
  match tx db with
  | .error error => (.error error, db)
  | .ok (a, db) => (.ok (f a), db)

def perform (host : Host) (db : Db) : Request → Except JobError Reply × Db
  | .create identity projectId sessionId workspaceRoot runId manual executionProfile now => commit .job
      (create identity projectId sessionId workspaceRoot runId manual executionProfile now) db
  | .save value now => commit .job (save value now) db
  | .attach identity runId now => commit .job (attach host identity runId now) db
  | .updateRun identity run checkpoint trusted jitter now =>
    commit .job (updateRun host identity run checkpoint trusted jitter now) db
  | .recordElapsed identity elapsed now => commit (fun _ => .done) (recordElapsed identity elapsed now) db
  | .extendBudget identity extension requestKey now =>
    commit .job (extendBudget host identity extension requestKey now) db
  | .reserve identity runId charges freshId now =>
    commit .reserved (reserveProviderAttempt identity runId charges freshId now) db
  | .settle identity attemptId actualOutput now =>
    commit .consumed (settleProviderAttempt identity attemptId actualOutput now) db
  | .chargeTool identity operationId now => commit (fun _ => .done) (chargeTool identity operationId now) db

end PromptForge.Jobs
