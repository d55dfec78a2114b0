import PromptForge.Jobs

/-!
# Automatic recovery of a job

A run that stops leaves its job to the schedulers. One of them claims the job for
ninety seconds, starts another run and attaches it.
-/
namespace PromptForge.Recovery
open Json Numbers Runs Tables Jobs

def claimSeconds : ℚ := 90

def lastPart (text : String) : String :=
  String.ofList ((text.toList.reverse.takeWhile fun c => decide (c ≠ '.')).reverse)

def retryFields : List String :=
  ["attempt", "max_attempts", "error_code", "retry_due_at", "http_status", "provider_id", "model_id", "origin",
    "request_reached_provider"]

def retryPhase (phase : String) : String :=
  if phase = "scheduled" then "retrying" else if phase = "started" then "running" else "cancelled"

def settledRetry (now : ℚ) (value : Job) : Job :=
  { finishWait now { value with requestRecovery := none } with
    outage := none
    autoRecoveryCount := 0
    retryDueAt := none }

def recordPhase (phase : String) (event : Dict) (now : ℚ) (value : Job) : Job :=
  if phase = "settled" then settledRetry now value
  else { value with
    requestRecovery := some (("phase", .str (retryPhase phase)) :: retryFields.map fun key => (key, event.get key)) }

def eventType? (event : Dict) : Except JobError String :=
  ((event.get? "event_type").bind str?).elim (.error .malformed) .ok

def recordRetry (host : Host) (identity runId : String) (event : Dict) (now : ℚ) : Tx Job :=
  mutate host identity now fun value =>
    if value.currentRunId ≠ runId then .ok value
    else do
      let text ← eventType? event
      return recordPhase (lastPart text) event now value

def clearedReason (reason : Option String) : Option String :=
  if reason = some "AGENT_AUTO_RECOVERY_LIMIT" ∨ reason = some "AGENT_OUTAGE_WINDOW_EXHAUSTED" then none else reason

def beginManualRecovery (host : Host) (identity : String) (now : ℚ) : Tx Job :=
  mutate host identity now fun value =>
    .ok { finishWait now value with
      outage := none
      autoRecoveryCount := 0
      recoveryClaim := none
      blockingReason := clearedReason value.blockingReason }

def recoverable (value : Job) : Prop :=
  value.recoveryPolicy = "safe_auto" ∧ given value.pausedBy = false ∧
    (value.status = "paused_model_unavailable" ∨ value.status = "interrupted" ∨ value.status = "failed")

instance (value : Job) : Decidable (recoverable value) := inferInstanceAs (Decidable (_ ∧ _))

def due (value : Job) (now : ℚ) : Prop :=
  (∀ time ∈ value.retryDueAt, time ≤ now) ∧ ∀ claim ∈ value.recoveryClaim, claim.expiresAt ≤ now

instance (value : Job) (now : ℚ) : Decidable (due value now) := inferInstanceAs (Decidable (_ ∧ _))

def Job.claimed (owner : String) (now : ℚ) (value : Job) : Job :=
  { value with
    recoveryClaim := some ⟨owner, now + claimSeconds⟩
    autoRecoveryCount := value.autoRecoveryCount + 1
    outage := value.outage.map fun outage => { outage with cycles := outage.cycles + 1 } }

/-- `claimed` and what `change` makes of the job. -/
def claimChange (owner : String) (now : ℚ) (value : Job) : Bool × Job :=
  if recoverable value then
    match outageBlock value now with
    | some reason => (false, { value with blockingReason := some reason })
    | none => if due value now then (true, Job.claimed owner now value) else (false, value)
  else (false, value)

def claimRecovery (host : Host) (identity owner : String) (now : ℚ) : Tx Bool := fun db => do
  let value ← (job? db identity).elim (.error (.unknown identity)) .ok
  let (_, db') ← mutate host identity now (fun value => .ok (claimChange owner now value).2) db
  return ((claimChange owner now value).1, db')

inductive Request where
  | updateRun (identity : String) (run : RunView) (checkpoint : Option Dict) (trusted : Bool) (jitter now : ℚ)
  | recordRetry (identity runId : String) (event : Dict) (now : ℚ)
  | claimRecovery (identity owner : String) (now : ℚ)
  | attach (identity runId : String) (now : ℚ)
  | extendBudget (identity : String) (extension : Dict) (requestKey : String) (now : ℚ)
  | beginManualRecovery (identity : String) (now : ℚ)

inductive Reply where
  | job (value : Job)
  | claimed (answer : Bool)

def Request.now : Request → ℚ
  | .updateRun _ _ _ _ _ now => now
  | .recordRetry _ _ _ now => now
  | .claimRecovery _ _ now => now
  | .attach _ _ now => now
  | .extendBudget _ _ _ now => now
  | .beginManualRecovery _ now => now

def perform (host : Host) (db : Db) : Request → Except JobError Reply × Db
  | .updateRun identity run checkpoint trusted jitter now =>
    atomic .job (updateRun host identity run checkpoint trusted jitter now) db
  | .recordRetry identity runId event now => atomic .job (recordRetry host identity runId event now) db
  | .claimRecovery identity owner now => atomic .claimed (claimRecovery host identity owner now) db
  | .attach identity runId now => atomic .job (attach host identity runId now) db
  | .extendBudget identity extension requestKey now =>
    atomic .job (extendBudget host identity extension requestKey now) db
  | .beginManualRecovery identity now => atomic .job (beginManualRecovery host identity now) db

end PromptForge.Recovery
