import PromptForge.Intakes

/-!
# The budget of a run

An agent and its children share one budget, which every request to a provider is
charged to before it is sent.
-/
namespace PromptForge.RunBudget
open Json Numbers Jobs

/-- The keys of `LIMITS`. -/
inductive Key where
  | requests
  | outputTokens
  | inputBytes
deriving DecidableEq

def Key.dimension : Key → Dimension
  | .requests => .requests
  | .outputTokens => .outputTokens
  | .inputBytes => .inputBytes

def keys : List Key := [.requests, .outputTokens, .inputBytes]

abbrev KeyLimits := Key → ℤ

def LIMITS : KeyLimits
  | .requests => 120
  | .outputTokens => 245760
  | .inputBytes => 8000000

/-- `int` of a number cuts off what is behind the point. -/
def whole : Number → ℤ
  | .int n => n
  | .float x => if 0 ≤ x.val then ⌊x.val⌋ else ⌈x.val⌉

/-- `limits` is `_limits`, and `phaseReserve` is `_phase_reserve`, empty where it is not set. -/
structure Budget where
  consumed : Key → Number
  limits : Option KeyLimits
  phaseReserve : List (Key × ℤ)

def Budget.limit (budget : Budget) : KeyLimits := budget.limits.getD LIMITS
def Budget.used (budget : Budget) (key : Key) : ℤ := whole (budget.consumed key)

def newBudget (consumed : Key → Number) (limits : Option KeyLimits) : Budget where
  consumed key := .int (max 0 (whole (consumed key)))
  limits := limits.map fun limits key => max 1 (min (limits key) (LIMITS key * 10))
  phaseReserve := []

def generationVerifyRequests : ℤ := 2
def generationVerifyOutputTokens : ℤ := 2048

def bindJobBudget (consumed : Totals) (limits : Limits) : Budget :=
  { newBudget (fun key => consumed key.dimension) none with
    limits := some fun key => limits key.dimension
    phaseReserve := [(.requests, generationVerifyRequests), (.outputTokens, generationVerifyOutputTokens),
      (.inputBytes, min 512000 (limits .inputBytes / 8))] }

def bindReviewBudget (requirementCount reviewCount : ℤ) (budget : Budget) : Budget :=
  let attempts := 2 * max 1 reviewCount
  { budget with
    phaseReserve := [(.requests, max generationVerifyRequests attempts),
      (.outputTokens, max generationVerifyOutputTokens (3 * max 1 reviewCount * max 2048 (requirementCount * 200))),
      (.inputBytes, attempts * 128000)] }

/-- `budget[key] = totals[key]` for every key. -/
def Budget.adopt (totals : Totals) (budget : Budget) : Budget :=
  { budget with consumed := fun key => totals key.dimension }

def Budget.spend (charge : Key → ℤ) (budget : Budget) : Budget :=
  { budget with consumed := fun key => .int (budget.used key + charge key) }

inductive Raised where
  /-- `AgentBudgetExceeded`, with its details -/
  | exceeded (code : String) (dimension : Key) (consumed : Number) (limit : ℤ) (attemptedCharge : Number)
      (origin : String)
  /-- `AgentBudgetPersistenceError`, with the code of its cause -/
  | persistence (causeCode : String)

def causes : List String :=
  ["AGENT_BUDGET_CHARGE_INVALID", "AGENT_ATTEMPT_CONFLICT", "AGENT_JOB_NOT_RUNNING", "AGENT_INTAKE_NOT_RUNNING",
    "AGENT_INTAKE_NOT_FOUND", "AGENT_ATTEMPT_USAGE_INVALID"]

def persistenceError (cause : String) : Raised :=
  .persistence (if cause ∈ causes then cause else "AGENT_BUDGET_STORAGE_FAILED")

/-- Which of `_reserve`, `_settle` and `_persist` a budget has, and whose they are. -/
inductive Binding where
  | alone
  | persisted (jobId : String)
  | job (jobId runId : String)
  | intake (intakeId : String)

/-- What `uuid4` draws, and the clock. -/
structure Draw where
  freshId : String
  now : ℚ

def inStore {τ : Type} (raise : JobError → Raised) (tx : Jobs.Tx τ) (db : Intakes.Db) :
    Except Raised τ × Intakes.Db :=
  match tx db.store with
  | .error error => (.error (raise error), db)
  | .ok (a, store) => (.ok a, { db with store := store })

def inIntakes {τ : Type} (raise : Intakes.IntakeError → Raised) (tx : Intakes.Tx τ) (db : Intakes.Db) :
    Except Raised τ × Intakes.Db :=
  match tx db with
  | .error error => (.error (raise error), db)
  | .ok (a, db) => (.ok a, db)

/-- `str` of a `KeyError` has quotes around it and is no code. -/
def jobCause : JobError → String
  | .value code => code
  | .budgetExceeded _ _ _ _ => "AGENT_JOB_BUDGET_EXHAUSTED"
  | .unknown _ | .malformed => ""

def intakeCause : Intakes.IntakeError → String
  | .value code => code
  | .job error => jobCause error
  | .budgetExceeded _ _ _ _ => "AGENT_PROVIDER_BUDGET_EXCEEDED"
  | .unknownProfile _ | .missing | .integrity _ | .crashed => ""

def keyOf (d : Dimension) : Key :=
  match d with
  | .outputTokens => .outputTokens
  | .inputBytes => .inputBytes
  | _ => .requests

/-- `AgentBudgetExceeded` goes through, everything else is wrapped. -/
def jobRaised : JobError → Raised
  | .budgetExceeded d consumed limit charge =>
    .exceeded "AGENT_JOB_BUDGET_EXHAUSTED" (keyOf d) consumed limit (.int charge) "job_budget"
  | error => persistenceError (jobCause error)

def intakeRaised : Intakes.IntakeError → Raised
  | .budgetExceeded d consumed limit charge =>
    .exceeded "AGENT_PROVIDER_BUDGET_EXCEEDED" (keyOf d) consumed limit charge "job_budget"
  | error => persistenceError (intakeCause error)

def persistProviderBudget (identity : String) (consumed : Key → ℤ) (now : ℚ) : Jobs.Tx Unit := fun db =>
  match job? db identity with
  | none => .error (.unknown identity)
  | some value => do
    let value ← keys.foldlM (fun value key =>
      if value.limits key.dimension < consumed key then
        .error (JobError.budgetExceeded key.dimension (value.consumed key.dimension) (value.limits key.dimension)
          (max 0 (consumed key - whole (value.consumed key.dimension))))
      else .ok { value with consumed := fun d =>
        if d = key.dimension then (value.consumed d).max (.int (consumed key)) else value.consumed d }) value
    return ((), put { value with updatedAt := now } db)

namespace Binding

def reserve (charges : Dict) (draw : Draw) : Binding → Option (Intakes.Db → Except Raised Totals × Intakes.Db)
  | .alone | .persisted _ => none
  | .job jobId runId => some (inStore jobRaised fun db => do
      let (reserved, db) ← reserveProviderAttempt jobId runId charges draw.freshId draw.now db
      return (reserved.over fun _ => .int 0, db))
  | .intake intakeId => some (inIntakes intakeRaised (Intakes.reserve intakeId charges draw.freshId draw.now))

def settle (attemptId : String) (actualOutput : Value) (now : ℚ) :
    Binding → Option (Intakes.Db → Except Raised Totals × Intakes.Db)
  | .alone | .persisted _ => none
  | .job jobId _ => some (inStore (fun error => persistenceError (jobCause error))
      (settleProviderAttempt jobId attemptId actualOutput now))
  | .intake intakeId => some (inIntakes (fun error => persistenceError (intakeCause error))
      (Intakes.settle intakeId attemptId actualOutput now))

def persist (consumed : Key → ℤ) (now : ℚ) : Binding → Option (Intakes.Db → Except Raised Unit × Intakes.Db)
  | .persisted jobId => some (inStore jobRaised (persistProviderBudget jobId consumed now))
  | _ => none

end Binding

/-- What the two calls read of a request. -/
structure ProviderRequest where
  phase : Option String
  maxTokens : Option ℤ
  messages : Option (List Value)
  prompt : String
  systemPrompt : Option String
  nativeTools : Value
  structuredOutput : Value
  physicalAttemptId : Option String

/-- `json.dumps` with every letter as it is and no blanks. -/
structure Host where
  dumps : Value → String

def truthyList (messages : Option (List Value)) : Option (List Value) := messages.filter fun items => !items.isEmpty

def contextOf (host : Host) (request : ProviderRequest) : String :=
  let context := match truthyList request.messages with
    | some messages => host.dumps (.arr messages)
    | none => request.prompt
  [request.nativeTools, request.structuredOutput].foldl (fun context value =>
    if truthy value then context ++ host.dumps value else context) (context ++ request.systemPrompt.getD "")

def outputCharge (maxTokens : Option ℤ) : ℤ :=
  match maxTokens with
  | none | some 0 => 4096
  | some n => n

def chargesOf (host : Host) (request : ProviderRequest) : Key → ℤ
  | .requests => 1
  | .outputTokens => outputCharge request.maxTokens
  | .inputBytes => (contextOf host request).utf8ByteSize

/-- `attempt_id or diagnostics.get("physical_attempt_id")` -/
def attemptName (request : ProviderRequest) (attemptId : Option String) : Option String :=
  if given attemptId then attemptId else request.physicalAttemptId.filter (· != "")

def chargeDict (charge : Key → ℤ) (name : Option String) : Dict :=
  [("requests", .int (charge .requests)), ("output_tokens", .int (charge .outputTokens)),
    ("input_bytes", .int (charge .inputBytes))] ++ name.toList.map fun name => ("_attempt_id", .str name)

def checkLimits (budget : Budget) (charge : Key → ℤ) : Except Raised Unit :=
  keys.forM fun key => Runs.require (budget.used key + charge key ≤ budget.limit key)
    (.exceeded "AGENT_PROVIDER_BUDGET_EXCEEDED" key (.int (budget.used key)) (budget.limit key)
      (.int (charge key)) "job_budget")

def checkReserve (phase : Option String) (budget : Budget) (charge : Key → ℤ) : Except Raised Unit :=
  if phase = some "generation" then
    budget.phaseReserve.forM fun (key, reserve) =>
      Runs.require (budget.used key + charge key ≤ budget.limit key - reserve)
        (.exceeded "AGENT_VERIFICATION_RESERVE_REACHED" key (.int (budget.used key)) (budget.limit key)
          (.int (charge key)) "verification_reserve")
  else .ok ()

structure World where
  budget : Budget
  db : Intakes.Db

def chargeAttempt (host : Host) (binding : Binding) (request : ProviderRequest) (attemptId : Option String)
    (draw : Draw) (w : World) : Except Raised Unit × World :=
  let charge := chargesOf host request
  match checkLimits w.budget charge with
  | .error raised => (.error raised, w)
  | .ok () =>
    match checkReserve request.phase w.budget charge with
    | .error raised => (.error raised, w)
    | .ok () =>
      match binding.reserve (chargeDict charge (attemptName request attemptId)) draw with
      | some reserve =>
        match reserve w.db with
        | (.error raised, db) => (.error raised, { w with db := db })
        | (.ok reserved, db) => (.ok (), ⟨w.budget.adopt reserved, db⟩)
      | none =>
        match binding.persist (fun key => w.budget.used key + charge key) draw.now with
        | some persist =>
          match persist w.db with
          | (.error raised, db) => (.error raised, { w with db := db })
          | (.ok (), db) => (.ok (), ⟨w.budget.spend charge, db⟩)
        | none => (.ok (), { w with budget := w.budget.spend charge })

/-- Nothing is settled for an answer that is cut off or has no count of its own. -/
def settleAttempt (binding : Binding) (request : ProviderRequest) (actualOutput : Value) (complete : Bool) (now : ℚ)
    (w : World) : Except Raised Unit × World :=
  if complete = false ∨ actual? actualOutput = none then (.ok (), w)
  else
    match request.physicalAttemptId.filter (· != "") with
    | none => (.ok (), w)
    | some attemptId =>
      match binding.settle attemptId actualOutput now with
      | none => (.ok (), w)
      | some settle =>
        match settle w.db with
        | (.error raised, db) => (.error raised, { w with db := db })
        | (.ok consumed, db) => (.ok (), ⟨w.budget.adopt consumed, db⟩)

inductive Call where
  | charge (request : ProviderRequest) (attemptId : Option String) (draw : Draw)
  | settle (request : ProviderRequest) (actualOutput : Value) (complete : Bool) (now : ℚ)

def step (host : Host) (binding : Binding) (w : World) : Call → Except Raised Unit × World
  | .charge request attemptId draw => chargeAttempt host binding request attemptId draw w
  | .settle request actualOutput complete now => settleAttempt binding request actualOutput complete now w

end PromptForge.RunBudget
