import PromptForge.HarnessRequests
import PromptForge.JsValues

/-!
# Delegated children

A start of a child appends to the logs of the parent and of the child, lets the provider run
against its deadline and settles. A workflow starts children, in batches or one by one, and
waits for them. The steps are the answers of the log, of the providers and of the timers, in
any order.
-/
namespace PromptForge.Subagents
open Runs Tables JsValues

inductive Mode where
  | spawn
  | fork
  | continue
  deriving DecidableEq

structure SubagentRequest where
  parentSessionId : String
  parentRunId : String
  provider : String
  task : String
  mode : Mode
  depth : ℚ
  maxDepth : Option ℚ
  context : Value
  childSessionId : Option String

inductive Status where
  | completed
  | failed
  | cancelled
  | timedOut
  deriving DecidableEq

structure SubagentResult where
  childSessionId : String
  activationId : String
  status : Status
  output : Value
  startedAt : String
  completedAt : String

/-- What a promise is rejected with: an `Error`, something else, or a `SubagentTimeoutError`. -/
inductive Thrown where
  | error (message : String)
  | other
  | timeout

def Thrown.message : Thrown → String
  | .error message => message
  | .other => "Subagent failed"
  | .timeout => "Subagent timed out"

inductive Event where
  | start (activationId childSessionId provider : String) (mode : Mode) (depth : ℚ) (task : String)
  | created (parentSessionId activationId : String) (delegationDepth : ℚ)
  | result (activationId : String) (status : Status) (output : Value)
  | ended (activationId childSessionId : String) (status : Status)

def Event.type : Event → String
  | .start .. => "subagent/start"
  | .created .. => "session/created"
  | .result .. => "subagent/result"
  | .ended .. => "subagent/end"

def Event.activationId : Event → String
  | .start a .. | .created _ a _ | .result a .. | .ended a .. => a

structure Logged where
  sessionId : String
  runId : Option String
  event : Event

inductive Raced where
  | returned (value : Value)
  | thrown (error : Thrown)

/-- Where a start stands; `handler` tells whether it settles in the handler. -/
inductive Phase where
  /-- `subagent/start` was handed to the log. -/
  | starting
  /-- `session/created` was handed to the log. -/
  | creating
  | racing (raced : Option Raced)
  /-- `subagent/result` was handed to the log. -/
  | reporting (handler : Bool) (result : SubagentResult) (output : Value)
  /-- `subagent/end` was handed to the log. -/
  | ending (handler : Bool) (result : SubagentResult)
  | returned (result : SubagentResult)
  | raised

/-- A start that was not refused. -/
structure Child where
  activationId : String
  childSessionId : String
  request : SubagentRequest
  startedAt : String
  workflow : Option String
  phase : Phase
  aborted : Bool
  failed : Bool

inductive Strategy where
  | parallel
  | pipeline
  deriving DecidableEq

structure WorkflowRequest where
  parentSessionId : String
  parentRunId : String
  provider : String
  strategy : Strategy
  tasks : List String
  depth : ℚ

inductive WorkflowStatus where
  | completed
  | partly
  | failed
  deriving DecidableEq

structure WorkflowResult where
  workflowId : String
  status : WorkflowStatus
  children : List SubagentResult
  output : List Value

inductive WorkflowPhase where
  | waiting
  | returned (result : WorkflowResult)
  | raised

/-- `batch` are the starts that are awaited, `none` for one that was refused. -/
structure Workflow where
  workflowId : String
  request : WorkflowRequest
  tasks : List String
  batch : List (Option String)
  children : List SubagentResult
  phase : WorkflowPhase

structure State where
  active : ℕ
  children : List Child
  workflows : List Workflow
  log : List Logged
  drawn : ℕ

def State.initial : State := ⟨0, [], [], [], 0⟩

/-- The runtime with its providers, the workflow engine, and the draws of `randomUUID`. -/
structure Setting where
  providers : List String
  maxConcurrent : ℕ
  absoluteMaxDepth : ℚ
  maxTasks : ℕ
  maxParallel : ℕ
  clone : Value → Except Thrown Value
  randomUUID : ℕ → String

inductive Refusal where
  | depthExceeded
  | taskInvalid
  | providerUnavailable
  | concurrencyExceeded
  | childRequired
  | tasksInvalid
  deriving DecidableEq

def Refusal.text : Refusal → String
  | .depthExceeded => "SUBAGENT_DEPTH_EXCEEDED"
  | .taskInvalid => "SUBAGENT_TASK_INVALID"
  | .providerUnavailable => "SUBAGENT_PROVIDER_UNAVAILABLE"
  | .concurrencyExceeded => "SUBAGENT_CONCURRENCY_EXCEEDED"
  | .childRequired => "SUBAGENT_CHILD_REQUIRED"
  | .tasksInvalid => "WORKFLOW_TASKS_INVALID"

/-- An append that is rejected may have written its event. -/
inductive Answer where
  | appended
  | rejected (wrote : Bool) (error : Thrown)

def Answer.wrote : Answer → Bool
  | .appended => true
  | .rejected wrote _ => wrote

def Answer.isRejected : Answer → Bool
  | .appended => false
  | .rejected _ _ => true

inductive Turn where
  | answered (answer : Answer) (now : String)
  | returns (value : Value)
  | throws (error : Thrown)
  | deadline
  | timesOut
  | resumes (now : String)

inductive Action where
  | start (request : SubagentRequest) (now : String)
  | child (activationId : String) (turn : Turn)
  | run (request : WorkflowRequest) (now : String)
  | joins (workflowId : String) (now : String)

variable (p : Setting)

def isSafeInteger (n : ℚ) : Bool := decide (n.den = 1 ∧ n.num.natAbs ≤ 2 ^ 53 - 1)

/-- `length`, in units of UTF-16. -/
def length (text : String) : ℕ := (text.toList.map fun c => if c.toNat < 0x10000 then 1 else 2).sum

def maxDepth (request : SubagentRequest) : ℚ := min (request.maxDepth.getD p.absoluteMaxDepth) p.absoluteMaxDepth

/-- The checks of `start`, when so many children are active. -/
def refusal (active : ℕ) (request : SubagentRequest) : Option Refusal :=
  if !isSafeInteger request.depth || decide (request.depth < 0) || decide (maxDepth p request ≤ request.depth) then
    some .depthExceeded
  else if HarnessRequests.trim request.task = "" ∨ 16384 < length request.task then some .taskInvalid
  else if request.provider ∉ p.providers then some .providerUnavailable
  else if p.maxConcurrent ≤ active then some .concurrencyExceeded
  else if request.mode = .continue ∧ request.childSessionId.getD "" = "" then some .childRequired
  else none

def newChild (drawn : ℕ) (request : SubagentRequest) (workflow : Option String) (now : String) : Child where
  activationId := "activation-" ++ p.randomUUID drawn
  childSessionId := request.childSessionId.getD ("subagent-" ++ p.randomUUID (drawn + 1))
  request := request
  startedAt := now
  workflow := workflow
  phase := .starting
  aborted := false
  failed := false

def start (s : State) (request : SubagentRequest) (workflow : Option String) (now : String) : Except Refusal String × State :=
  match refusal p s.active request with
  | some error => (.error error, s)
  | none =>
    let child := newChild p s.drawn request workflow now
    (.ok child.activationId, { s with
      active := s.active + 1, children := s.children ++ [child], drawn := s.drawn + 2 })

def Child.pending (c : Child) : Option Logged :=
  match c.phase with
  | .starting => some ⟨c.request.parentSessionId, some c.request.parentRunId, .start c.activationId c.childSessionId
      c.request.provider c.request.mode (c.request.depth + 1) c.request.task⟩
  | .creating => some ⟨c.childSessionId, none, .created c.request.parentSessionId c.activationId (c.request.depth + 1)⟩
  | .reporting _ r output => some ⟨c.childSessionId, some c.request.parentRunId, .result c.activationId r.status output⟩
  | .ending _ r => some ⟨c.request.parentSessionId, some c.request.parentRunId, .ended c.activationId c.childSessionId r.status⟩
  | _ => none

def Child.result (c : Child) (status : Status) (output : Value) (now : String) : SubagentResult :=
  ⟨c.childSessionId, c.activationId, status, output, c.startedAt, now⟩

def Child.fail (c : Child) (error : Thrown) (now : String) : Child :=
  let output := Value.obj [("message", .str error.message)]
  { c with phase := .reporting true (c.result (if c.aborted then .timedOut else .failed) output now) output }

def Child.resume (c : Child) (now : String) : Raced → Child
  | .thrown error => c.fail error now
  | .returned value =>
    match p.clone value with
    | .error error => c.fail error now
    | .ok output => { c with phase := .reporting false (c.result .completed output now) value }

def Child.appended (c : Child) : Child :=
  match c.phase with
  | .starting => { c with phase := if c.request.mode = .continue then .racing none else .creating }
  | .creating => { c with phase := .racing none }
  | .reporting handler r _ => { c with phase := .ending handler r }
  | .ending _ r => { c with phase := .returned r }
  | _ => c

/-- Only the appends of a start that settles in its block have a handler. -/
def Child.rejected (c : Child) (error : Thrown) (now : String) : Child :=
  match c.phase with
  | .reporting false _ _ | .ending false _ => { c.fail error now with failed := true }
  | _ => { c with phase := .raised, failed := true }

def isOver : Phase → Bool
  | .returned _ | .raised => true
  | _ => false

def Child.next (c : Child) : Turn → Child
  | .answered answer now =>
    if c.pending.isNone then c
    else
      match answer with
      | .appended => c.appended
      | .rejected _ error => c.rejected error now
  | .returns value =>
    match c.phase with
    | .racing none => { c with phase := .racing (some (.returned value)) }
    | _ => c
  | .throws error =>
    match c.phase with
    | .racing none => { c with phase := .racing (some (.thrown error)) }
    | _ => c
  | .deadline => if isOver c.phase then c else { c with aborted := true }
  | .timesOut =>
    match c.phase with
    | .racing none => if c.aborted then { c with phase := .racing (some (.thrown .timeout)) } else c
    | _ => c
  | .resumes now =>
    match c.phase with
    | .racing (some raced) => c.resume p now raced
    | _ => c

def Child.writes (c : Child) : Turn → List Logged
  | .answered answer _ => if answer.wrote then c.pending.toList else []
  | _ => []

def childNext (s : State) (c : Child) (turn : Turn) : State :=
  { s with
    children := updateRow Child.activationId (c.next p turn) s.children
    log := s.log ++ c.writes turn
    active := if !isOver c.phase && isOver (c.next p turn).phase then s.active - 1 else s.active }

def Workflow.base (w : Workflow) (task : String) : SubagentRequest where
  parentSessionId := w.request.parentSessionId
  parentRunId := w.request.parentRunId
  provider := w.request.provider
  task := task
  mode := .spawn
  depth := w.request.depth
  maxDepth := none
  context := match w.request.strategy with
    | .parallel => .obj [("workflowId", .str w.workflowId)]
    | .pipeline => .obj [("workflowId", .str w.workflowId),
        ("prior", (w.children.getLast?.map SubagentResult.output).getD .null)]
  childSessionId := none

def startAll (s : State) (workflowId now : String) : List SubagentRequest → List (Option String) × State
  | [] => ([], s)
  | request :: requests =>
    let (answer, s) := start p s request (some workflowId) now
    let (answers, s) := startAll s workflowId now requests
    (answer.toOption :: answers, s)

def Workflow.width (w : Workflow) : ℕ :=
  match w.request.strategy with
  | .parallel => p.maxParallel
  | .pipeline => 1

def Workflow.nextRequests (w : Workflow) : List SubagentRequest := (w.tasks.take (w.width p)).map w.base

def startBatch (s : State) (w : Workflow) (now : String) : State × Workflow :=
  let (batch, s) := startAll p s w.workflowId now (w.nextRequests p)
  (s, { w with tasks := w.tasks.drop (w.width p), batch, phase := .waiting })

def Workflow.finish (w : Workflow) : Workflow :=
  let completed := w.children.countP fun r => r.status = .completed
  let status := if completed = w.children.length ∧ w.children.length = w.request.tasks.length then .completed
    else if completed ≠ 0 then .partly else .failed
  { w with batch := [], phase := .returned ⟨w.workflowId, status, w.children, w.children.map SubagentResult.output⟩ }

/-- What a start has come to. -/
inductive Settled where
  | fulfilled (result : SubagentResult)
  | rejected
  | pending

def settled (s : State) : Option String → Settled
  | none => .rejected
  | some a =>
    match lookup Child.activationId s.children a with
    | some c =>
      match c.phase with
      | .returned r => .fulfilled r
      | .raised => .rejected
      | _ => .pending
    | none => .rejected

def Settled.isRejected : Settled → Bool
  | .rejected => true
  | _ => false

def Settled.result? : Settled → Option SubagentResult
  | .fulfilled r => some r
  | _ => none

def Workflow.stops (w : Workflow) : Bool :=
  w.tasks.isEmpty || decide (w.request.strategy = .pipeline) && (w.children.getLast?.any fun r => decide (r.status ≠ .completed))

/-- The workflow with the results of its batch, once there are all of them. -/
def collected (s : State) (w : Workflow) : Option Workflow :=
  (w.batch.mapM fun a => (settled s a).result?).map fun results => { w with children := w.children ++ results }

/-- `Promise.all` of a batch, or the await of one start. -/
def joins (s : State) (w : Workflow) (now : String) : State :=
  match w.phase with
  | .waiting =>
    if w.batch.any fun a => (settled s a).isRejected then
      { s with workflows := updateRow Workflow.workflowId { w with phase := .raised } s.workflows }
    else
      match collected s w with
      | none => s
      | some w =>
        if w.stops then { s with workflows := updateRow Workflow.workflowId w.finish s.workflows }
        else
          let (s, w) := startBatch p s w now
          { s with workflows := updateRow Workflow.workflowId w s.workflows }
  | _ => s

def newWorkflow (drawn : ℕ) (request : WorkflowRequest) : Workflow where
  workflowId := "workflow-" ++ p.randomUUID drawn
  request := request
  tasks := request.tasks
  batch := []
  children := []
  phase := .waiting

def run (s : State) (request : WorkflowRequest) (now : String) : Option Refusal × State :=
  if request.tasks.isEmpty || decide (p.maxTasks < request.tasks.length) ||
      request.tasks.any fun task => decide (HarnessRequests.trim task = "") then (some .tasksInvalid, s)
  else
    let (s', w) := startBatch p { s with drawn := s.drawn + 1 } (newWorkflow p s.drawn request) now
    (none, { s' with workflows := s'.workflows ++ [w] })

def step (s : State) : Action → Option Refusal × State
  | .start request now =>
    match start p s request none now with
    | (.ok _, s') => (none, s')
    | (.error error, s') => (some error, s')
  | .child a turn =>
    match lookup Child.activationId s.children a with
    | some c => (none, childNext p s c turn)
    | none => (none, s)
  | .run request now => run p s request now
  | .joins a now =>
    match lookup Workflow.workflowId s.workflows a with
    | some w => (none, joins p s w now)
    | none => (none, s)

def startOf (a : String) (logged : Logged) : Bool :=
  match logged.event with
  | .start a' .. => decide (a' = a)
  | _ => false

def resultOf (a : String) (logged : Logged) : Option Status :=
  match logged.event with
  | .result a' status _ => if a' = a then some status else none
  | _ => none

def endOf (a : String) (logged : Logged) : Option Status :=
  match logged.event with
  | .ended a' _ status => if a' = a then some status else none
  | _ => none

def isStarted (log : List Logged) (a : String) : Bool := log.any (startOf a)

def resultsOf (log : List Logged) (a : String) : List Status := log.filterMap (resultOf a)

def endsOf (log : List Logged) (a : String) : List Status := log.filterMap (endOf a)

def listed? (w : Workflow) : Option (List SubagentResult) :=
  match w.phase with
  | .waiting => none
  | .returned result => some result.children
  | .raised => some []

def isOwn : Turn → Bool
  | .answered .appended _ | .deadline | .timesOut | .resumes _ => true
  | _ => false

/-- What holds of the children at every moment. -/
structure SettledOnce (s : State) : Prop where
  bounded : s.active ≤ p.maxConcurrent
  counted : s.active = s.children.countP fun c => !isOver c.phase
  once : ∀ a, isStarted s.log a = true → (resultsOf s.log a).length ≤ 1 ∧ (endsOf s.log a).length ≤ 1 ∧
    ∀ status ∈ resultsOf s.log a, ∀ status' ∈ endsOf s.log a, status = status'
  exact : ∀ c ∈ s.children, isOver c.phase = true → c.failed = false →
    ∃ status, resultsOf s.log c.activationId = [status] ∧ endsOf s.log c.activationId = [status]
  settles : ∀ c ∈ s.children, ∃ turns : List Turn, (∀ turn ∈ turns, isOwn turn = true) ∧
    ∃ c', lookup Child.activationId (final (step p) s (turns.map (.child c.activationId))).children c.activationId = some c' ∧
      isOver c'.phase = true
  complete : ∀ w ∈ s.workflows, ∀ children, listed? w = some children → ∀ c ∈ s.children, c.workflow = some w.workflowId →
    isStarted s.log c.activationId = true → ∃ r ∈ children, r.activationId = c.activationId

def endsStart : Phase → Bool
  | .starting | .creating | .reporting true _ _ | .ending true _ => true
  | _ => false

def Rejected (s : State) (w : String) : Prop :=
  (∃ row ∈ s.workflows, row.workflowId = w ∧ none ∈ row.batch) ∨ ∃ c ∈ s.children, c.workflow = some w ∧ c.phase = .raised

def HasStarted (s : State) (w : String) : Prop :=
  ∃ c ∈ s.children, c.workflow = some w ∧ isStarted s.log c.activationId = true

/-- The log takes the end of a start that settles in its block, and does not both take and
    reject its result. -/
def CleanTurn (c : Child) : Turn → Prop
  | .answered (.rejected wrote _) _ =>
    match c.phase with
    | .reporting false _ _ => wrote = false
    | .ending false _ => False
    | _ => True
  | _ => True

/-- The log takes no start of a workflow of which a start was refused or rejected, and rejects
    none once it has taken one. -/
def CleanStart (s : State) (c : Child) (w : String) : Turn → Prop
  | .answered answer _ =>
    (c.phase = .starting → answer.wrote = true → ¬ Rejected s w) ∧
    (endsStart c.phase = true → answer.isRejected = true → ¬ HasStarted s w ∧ (c.phase = .starting → answer.wrote = false))
  | _ => True

/-- What the steps of the runtime leave to those around it. -/
def Clean (e : Entry State Action (Option Refusal)) : Prop :=
  match e.action with
  | .child a turn => ∀ c, lookup Child.activationId e.before.children a = some c →
      CleanTurn c turn ∧ ∀ w, c.workflow = some w → CleanStart e.before c w turn
  | .joins a _ => ∀ w w', lookup Workflow.workflowId e.before.workflows a = some w → w.phase = .waiting →
      collected e.before w = some w' → w'.stops = false → HasStarted e.before a →
      ∀ i request, (w'.nextRequests p)[i]? = some request → refusal p (e.before.active + i) request = none
  | _ => True

end PromptForge.Subagents
