import PromptForge.Capabilities
import PromptForge.Store

/-!
# Settled attempts and the ordered tool scheduler

A settled attempt turns its calls into invocations. The scheduler gathers
consecutive reads and runs them as tasks of one event loop, a bounded number at
a time; any other invocation runs alone. One action is what the loop does
between two suspensions, so a run is any order the loop may choose.
-/
namespace PromptForge.ToolScheduling
open Runs Tables Json Capabilities

inductive SchedulerClass where
  | read
  | workspace
  | process
  | device
  | control
  deriving DecidableEq

inductive RetryClass where
  | pure
  | idempotent
  | reconcilableMutation
  | nonIdempotent
  | hardwareNonReplayable
  deriving DecidableEq

def readTools : Finset ToolName :=
  {.listFiles, .globFiles, .grepSearch, .readFile, .loadSkill, .memorySearch, .sessionEventRead, .sessionEventSearch,
    .sessionTrace}

def processTools : Finset ToolName := {.buildFirmware, .runSimulation, .runCommand}

/-- The scheduler and recovery columns of `NEW_TOOLS`. -/
def newTool? : ToolName → Option (SchedulerClass × RetryClass)
  | .projectDoctor | .inspectSymbols | .resolveDependency | .searchDocs | .fetchDocs | .validateHardwareConfig
  | .analyzeFirmware | .verifyAcceptance => some (.read, .pure)
  | .runUnitTests => some (.process, .nonIdempotent)
  | .observeSerial => some (.device, .hardwareNonReplayable)
  | .decodeCrash => some (.process, .pure)
  | _ => none

def schedulerClass (tool : ToolName) : SchedulerClass :=
  match newTool? tool with
  | some (scheduler, _) => scheduler
  | none =>
    if tool ∈ readTools then .read
    else if tool ∈ writeTools then .workspace
    else if tool ∈ processTools then .process
    else .control

def retryClass (tool : ToolName) : RetryClass :=
  match newTool? tool with
  | some (_, recovery) => recovery
  | none =>
    if tool ∈ readTools then .pure
    else if tool ∈ writeTools then .reconcilableMutation
    else if tool ∈ processTools then .nonIdempotent
    else .idempotent

def harnessToolAliases : List (String × ToolName) :=
  [("read", .readFile), ("write", .writeFile), ("edit", .editFileSimple), ("list", .listFiles), ("glob", .globFiles),
    ("grep", .grepSearch), ("bash", .runCommand), ("pwsh", .runCommand), ("todo_write", .updatePlan),
    ("skill", .loadSkill), ("memory_search", .memorySearch), ("subagent", .spawnSubagent), ("present", .presentFiles),
    ("session_event_read", .sessionEventRead), ("session_event_search", .sessionEventSearch),
    ("session_trace", .sessionTrace), ("build", .buildFirmware), ("simulate", .runSimulation)]

inductive AttemptError where
  | duplicateCallId
  | alreadySettled
  | toolUnknown
  deriving DecidableEq

def normalizeToolName (value : String) : Except AttemptError ToolName :=
  match lookup Prod.fst harnessToolAliases value with
  | some (_, tool) => .ok tool
  | none =>
    match tool? value with
    | some tool => .ok tool
    | none => .error .toolUnknown

structure ProductToolCall where
  callId : String
  toolType : String
  arguments : Dict

structure ToolInvocation where
  callId : String
  tool : ToolName
  arguments : Dict
  turn : ℤ
  step : ℤ
  attemptId : String
  invocationIndex : ℕ
  schedulerClass : SchedulerClass
  retryClass : RetryClass
  idempotencyKey : String

variable (host : Store.Host)

def fromProductCall (turn step : ℤ) (attemptId : String) (call : ProductToolCall) (invocationIndex : ℕ) :
    Except AttemptError ToolInvocation := do
  let tool ← normalizeToolName call.toolType
  let document := host.encode [("call_id", .str call.callId), ("tool", .str tool.value),
    ("arguments", .obj call.arguments), ("turn", .int turn), ("step", .int step), ("attempt_id", .str attemptId)]
  return {
    callId := call.callId
    tool := tool
    arguments := call.arguments
    turn := turn
    step := step
    attemptId := attemptId
    invocationIndex := invocationIndex
    schedulerClass := schedulerClass tool
    retryClass := retryClass tool
    idempotencyKey := host.sha256 document }

structure AttemptAccumulator where
  attemptId : String
  turn : ℤ
  step : ℤ
  revision : ℕ := 1
  nextIndex : ℕ := 0
  content : List String := []
  settled : Bool := false

structure ModelAttemptSettlement where
  attemptId : String
  turn : ℤ
  step : ℤ
  revision : ℕ
  frameCount : ℕ
  content : String
  invocations : List ToolInvocation
  finishReason : String
  usage : Dict

def contentDelta (delta : String) (attempt : AttemptAccumulator) : Except AttemptError AttemptAccumulator :=
  if attempt.settled then .error .alreadySettled
  else .ok { attempt with nextIndex := attempt.nextIndex + 1, content := attempt.content ++ [delta] }

def settle (calls : List ProductToolCall) (content : Option String) (finishReason : String) (usage : Dict)
    (attempt : AttemptAccumulator) : Except AttemptError (ModelAttemptSettlement × AttemptAccumulator) := do
  require (attempt.settled = false) .alreadySettled
  require (calls.map ProductToolCall.callId).Nodup .duplicateCallId
  let invocations ← calls.zipIdx.mapM fun call =>
    fromProductCall host attempt.turn attempt.step attempt.attemptId call.1 call.2
  return ({
    attemptId := attempt.attemptId
    turn := attempt.turn
    step := attempt.step
    revision := attempt.revision
    frameCount := attempt.nextIndex
    content := content.getD (String.join attempt.content)
    invocations := invocations
    finishReason := finishReason
    usage := usage }, { attempt with settled := true })

variable {ρ ε : Type}

structure ScheduledToolResult (ρ : Type) where
  invocation : ToolInvocation
  result : ρ
  queuedAt : ℚ
  startedAt : ℚ
  completedAt : ℚ
  executionCompletionIndex : ℕ

/-- How far one read of a batch is. -/
inductive Progress (ρ : Type) where
  | created
  | waiting (queuedAt : ℚ)
  | running (queuedAt startedAt : ℚ)
  | finished (result : ρ) (queuedAt startedAt completedAt : ℚ)
  | counted
  | failed

def Progress.isRunning : Progress ρ → Bool
  | .running _ _ => true
  | _ => false

def Progress.isCounted : Progress ρ → Bool
  | .counted => true
  | _ => false

structure Task (ρ : Type) where
  invocation : ToolInvocation
  progress : Progress ρ

inductive RunError (ε : Type) where
  | duplicateCallId
  | runner (error : ε)

/-- Where the coroutine of `run` stands. -/
inductive Phase (ε : Type) where
  | visiting
  /-- In `gather`. -/
  | flushing
  | entering
  | executing (queuedAt startedAt : ℚ)
  | returned
  /-- `gather` does not stop the tasks of the batch: they run on. -/
  | raised (error : RunError ε)

inductive Happening (ρ ε : Type) where
  | started (invocation : ToolInvocation)
  | ended (invocation : ToolInvocation) (outcome : Except ε ρ)

/-- The coroutine of `run` with the tasks of its batch, and the calls of the runner as
    they happened. -/
structure State (ρ ε : Type) where
  rest : List ToolInvocation
  current : Option ToolInvocation
  readBatch : List ToolInvocation
  phase : Phase ε
  tasks : List (Task ρ)
  completed : List (ℕ × ScheduledToolResult ρ)
  failure : Option ε
  output : List (ScheduledToolResult ρ)
  completionCounter : ℕ
  happened : List (Happening ρ ε)

def State.initial (invocations : List ToolInvocation) : State ρ ε where
  rest := invocations
  current := none
  readBatch := []
  phase := if (invocations.map ToolInvocation.callId).Nodup then .visiting else .raised .duplicateCallId
  tasks := []
  completed := []
  failure := none
  output := []
  completionCounter := 0
  happened := []

def clampReads (maxParallelReads : ℤ) : ℤ := max 1 (min maxParallelReads 16)

def flushReads (s : State ρ ε) : State ρ ε :=
  { s with
    phase := .flushing
    tasks := s.readBatch.map fun invocation => ⟨invocation, .created⟩
    completed := []
    failure := none }

def collect (completed : List (ℕ × ScheduledToolResult ρ)) (readBatch : List ToolInvocation) :
    Option (List (ScheduledToolResult ρ)) :=
  readBatch.mapM fun invocation => (lookup Prod.fst completed invocation.invocationIndex).map Prod.snd

def answerReads (results : List (ScheduledToolResult ρ)) (s : State ρ ε) : State ρ ε :=
  { s with
    output := s.output ++ results
    readBatch := []
    tasks := []
    completed := []
    phase := if s.current.isSome then .entering else .visiting }

/-- The coroutine of `run` goes on to where it next waits. -/
def advance (s : State ρ ε) : Option (State ρ ε) :=
  match s.phase with
  | .visiting =>
    match s.rest with
    | [] => if s.readBatch = [] then some { s with phase := .returned } else some (flushReads s)
    | invocation :: rest =>
      if invocation.schedulerClass = .read then
        some { s with rest := rest, readBatch := s.readBatch ++ [invocation] }
      else if s.readBatch = [] then some { s with rest := rest, current := some invocation, phase := .entering }
      else some (flushReads { s with rest := rest, current := some invocation })
  | .flushing =>
    match s.failure with
    | some error => some { s with phase := .raised (.runner error) }
    | none =>
      if s.tasks.all fun task => task.progress.isCounted then
        (collect s.completed s.readBatch).map fun results => answerReads results s
      else none
  | _ => none

def setTask (k : ℕ) (task : Task ρ) (progress : Progress ρ) (s : State ρ ε) : State ρ ε :=
  { s with tasks := s.tasks.set k ⟨task.invocation, progress⟩ }

def happen (happening : Happening ρ ε) (s : State ρ ε) : State ρ ε :=
  { s with happened := s.happened ++ [happening] }

def runningReads (s : State ρ ε) : ℕ := s.tasks.countP fun task => task.progress.isRunning

inductive Action (ρ ε : Type) where
  | advance
  | enqueue (k : ℕ) (now : ℚ)
  /-- Task `k` takes the semaphore and calls the runner. -/
  | start (k : ℕ) (now : ℚ)
  | finish (k : ℕ) (now : ℚ) (outcome : Except ε ρ)
  /-- Task `k` takes the counter's lock. -/
  | count (k : ℕ)
  | enter (queuedAt startedAt : ℚ)
  | leave (now : ℚ) (outcome : Except ε ρ)

def stepTask (maxParallelReads : ℤ) (k : ℕ) (task : Task ρ) (s : State ρ ε) : Action ρ ε → Option (State ρ ε)
  | .enqueue _ now =>
    match task.progress with
    | .created => some (setTask k task (.waiting now) s)
    | _ => none
  | .start _ now =>
    match task.progress with
    | .waiting queuedAt =>
      if (runningReads s : ℤ) < clampReads maxParallelReads then
        some (happen (.started task.invocation) (setTask k task (.running queuedAt now) s))
      else none
    | _ => none
  | .finish _ now outcome =>
    match task.progress with
    | .running queuedAt startedAt =>
      match outcome with
      | .ok result =>
        some (happen (.ended task.invocation outcome) (setTask k task (.finished result queuedAt startedAt now) s))
      | .error error =>
        some (happen (.ended task.invocation outcome)
          { setTask k task .failed s with failure := s.failure.or (some error) })
    | _ => none
  | .count _ =>
    match task.progress with
    | .finished result queuedAt startedAt completedAt =>
      let scheduled := ⟨task.invocation, result, queuedAt, startedAt, completedAt, s.completionCounter⟩
      some { setTask k task .counted s with
        completed := replaceRow Prod.fst (task.invocation.invocationIndex, scheduled) s.completed
        completionCounter := s.completionCounter + 1 }
    | _ => none
  | _ => none

def enter (queuedAt startedAt : ℚ) (s : State ρ ε) : Option (State ρ ε) :=
  match s.phase, s.current with
  | .entering, some invocation =>
    some (happen (.started invocation) { s with phase := .executing queuedAt startedAt })
  | _, _ => none

def leave (now : ℚ) (outcome : Except ε ρ) (s : State ρ ε) : Option (State ρ ε) :=
  match s.phase, s.current with
  | .executing queuedAt startedAt, some invocation =>
    match outcome with
    | .ok result =>
      some (happen (.ended invocation outcome) { s with
        phase := .visiting
        current := none
        output := s.output ++ [⟨invocation, result, queuedAt, startedAt, now, s.completionCounter⟩]
        completionCounter := s.completionCounter + 1 })
    | .error error => some (happen (.ended invocation outcome) { s with phase := .raised (.runner error) })
  | _, _ => none

def taskOf? : Action ρ ε → Option ℕ
  | .enqueue k _ => some k
  | .start k _ => some k
  | .finish k _ _ => some k
  | .count k => some k
  | _ => none

def step? (maxParallelReads : ℤ) (s : State ρ ε) (a : Action ρ ε) : Option (State ρ ε) :=
  match a with
  | .advance => advance s
  | .enter queuedAt startedAt => enter queuedAt startedAt s
  | .leave now outcome => leave now outcome s
  | a => do
    let k ← taskOf? a
    let task ← s.tasks[k]?
    stepTask maxParallelReads k task s a

/-- An action the loop cannot take now is answered `false` and changes nothing. -/
def step (maxParallelReads : ℤ) (s : State ρ ε) (a : Action ρ ε) : Bool × State ρ ε :=
  match step? maxParallelReads s a with
  | some s' => (true, s')
  | none => (false, s)

end PromptForge.ToolScheduling
