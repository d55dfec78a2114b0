import Mathlib.Data.Finset.Image
import PromptForge.LivePlan
import PromptForge.OrderedEntries

/-!
# The controller of generation

The controller picks the milestone of a plan that an agent works on.
-/
namespace PromptForge.GenerationController
open OrderedEntries Runs
open LivePlan (Status)

/-- The hashes of the files of a milestone, and the source revision, when it was counted as done. -/
structure Record where
  files : Finset (String × Option String)
  revision : String
  deriving DecidableEq

structure FailedEdit where
  path : String
  sourceRevision : String
  deriving DecidableEq

/-- `digest` is the beginning of the hexadecimal SHA-256 of a text; `artifacts` are the paths that a
request names. -/
structure Host where
  digest : String → String
  artifacts : String → List String

structure Controller where
  stalledTurns : ℕ
  dirtyPaths : List String
  verifications : List String
  resolvedPackages : List String
  revision : String
  taskRevision : String
  completed : Entries String Record
  invalidated : Entries String (List String)
  activeKey : Option String
  lastBuildRevision : String
  failedEdit : Option FailedEdit
  material : Bool
  reopenedKeys : List String

def start : Controller := ⟨0, [], [], [], "", "", [], [], none, "", none, false, []⟩

structure Package where
  identity : String
  metadataVerified : Bool
  availableVersions : Bool

/-- What the controller reads of the output of a tool. -/
structure Output where
  error : Option String
  path : Option String
  destination : Option String
  excerptComplete : Bool
  created : Bool
  deleted : Bool
  modified : Bool
  moved : Bool
  changeType : Option String
  diff : Bool
  cached : Bool
  workspaceRevision : String
  fingerprint : String
  source : Option String
  packages : List Package
  newEvidenceCount : ℤ
  success : Bool
  digest : String

structure Observation where
  tool : String
  status : String
  output : Option Output

def writes : List String := ["write_file", "edit_file_simple", "apply_patch", "move_file", "delete_file"]

def Output.changes (output : Output) : Bool :=
  output.created || output.deleted || output.modified || output.moved ||
    decide (output.changeType = some "moved" ∨ output.changeType = some "deleted") || output.diff

def workspaceChanged (observation : Observation) : Bool :=
  decide (observation.status = "completed") && (observation.output.map Output.changes).getD false

def isAlphanumeric (c : Char) : Bool := c.isAlphanum

def isNameChar (c : Char) : Bool := c.isAlphanum || c == '_' || c == '.' || c == '-'

def isTitleChar (c : Char) : Bool := isNameChar c || c == ' ' || c == '+' || c == '(' || c == ')'

def isPackagePart (rest : Char → Bool) (limit : ℕ) : List Char → Bool
  | c :: cs => isAlphanumeric c && decide (cs.length ≤ limit) && cs.all rest
  | [] => false

/-- `[A-Za-z0-9][A-Za-z0-9_.-]{0,63}/[A-Za-z0-9][A-Za-z0-9_. +()-]{0,99}` -/
def isPackageId (identity : String) : Bool :=
  match identity.toList.splitOn '/' with
  | [owner, name] => isPackagePart isNameChar 63 owner && isPackagePart isTitleChar 99 name
  | _ => false

def Controller.addVerification (s : Controller) (identity : String) : Controller :=
  if identity ∈ s.verifications then s else { s with material := true, verifications := s.verifications ++ [identity] }

def Controller.addPackage (s : Controller) (package : Package) : Controller :=
  if isPackageId package.identity = true ∧ package.metadataVerified = true ∧ package.availableVersions = true ∧
      Texts.casefold package.identity ∉ s.resolvedPackages ∧ s.resolvedPackages.length < 32 then
    { s with resolvedPackages := s.resolvedPackages ++ [Texts.casefold package.identity], material := true }
  else s

def Controller.noteFailedEdit (s : Controller) (observation : Observation) : Controller :=
  match observation.output with
  | some output =>
    match output.path with
    | some path =>
      if observation.status = "failed" ∧ observation.tool = "edit_file_simple" ∧
          output.error = some "edit_match_must_be_exactly_one" ∧ output.excerptComplete = true then
        { s with failedEdit := some ⟨path, s.revision⟩ }
      else s
    | none => s
  | none => s

def Controller.noteChange (s : Controller) (observation : Observation) : Controller :=
  if workspaceChanged observation = true ∧ observation.tool ∈ writes then
    { s with
      failedEdit := none
      material := true
      stalledTurns := 0
      dirtyPaths := ((observation.output.map fun output => output.path.toList ++ output.destination.toList).getD []).foldl
        (fun paths path => paths.insert path) s.dirtyPaths }
  else s

def Controller.noteResult (s : Controller) (tool : String) (output : Output) : Controller :=
  if tool = "build_firmware" ∧ output.cached = false ∧ output.workspaceRevision ≠ "" then
    { s.addVerification (output.workspaceRevision ++ ":" ++ output.fingerprint) with
      lastBuildRevision := output.workspaceRevision, dirtyPaths := [] }
  else if tool = "resolve_dependency" ∧ output.source = some "platformio_registry" then
    (output.packages.take 5).foldl Controller.addPackage s
  else if tool ∈ ["verify_requirements", "verify_acceptance"] ∧ 0 < output.newEvidenceCount ∨
      tool ∈ ["run_unit_tests", "run_simulation"] ∧ output.success = true then
    s.addVerification (tool ++ ":" ++ s.revision ++ ":" ++ output.digest)
  else s

def observe (s : Controller) (observation : Observation) : Controller :=
  let s := (s.noteFailedEdit observation).noteChange observation
  match observation.output with
  | some output => if observation.status = "completed" then s.noteResult observation.tool output else s
  | none => s

def settle (s : Controller) : Controller :=
  { s with stalledTurns := if s.material then 0 else min 5 (s.stalledTurns + 1), material := false }

structure Step where
  key : String
  identity : String
  text : String
  status : Status
  verification : String
  paths : List String
  requirementIds : List String
  dependsOn : List String
  evidence : List String
  deriving DecidableEq

variable (host : Host)

def keyOf (step : Step) : String :=
  if step.key ≠ "" then step.key else if step.identity ≠ "" then step.identity else host.digest step.text

def currentFiles (files : Entries String String) (step : Step) : Finset (String × Option String) :=
  (step.paths.map fun path => (path, files.get? path)).toFinset

def arePresent (files : Entries String String) (step : Step) : Bool :=
  step.paths.all fun path => decide (files.get? path ≠ none ∧ files.get? path ≠ some "")

def needsRevision (step : Step) : Bool :=
  step.paths.isEmpty || decide (step.verification = "build" ∨ step.verification = "simulation")

def isStale (files : Entries String String) (revision : String) (step : Step) (record : Record) : Bool :=
  decide (record.files ≠ currentFiles files step) || needsRevision step && decide (record.revision ≠ revision)

/-- The tables of milestones while the steps of a plan are passed. -/
structure Book where
  completed : Entries String Record
  invalidated : Entries String (List String)
  reopenedKeys : List String

/-- What `focus` reads of a build; `build.get("success")` is three-valued. -/
structure Build where
  errorCode : Option String
  success : Option Bool
  verificationStale : Bool
  workspaceRevision : Option String
  linkerSymbols : List String

structure Report where
  workspaceRevision : Option String
  taskRevision : Option String
  checks : List (String × String)
  referencesValid : Bool
  semanticReview : Bool

/-- What a call of `focus` is given. -/
structure Request where
  contractRevision : String
  contractRequest : String
  requirementIds : List String
  plan : List Step
  files : Entries String String
  sourceRevision : String
  build : Option Build := none
  report : Option Report := none

inductive Verdict where
  /-- Its files, its revision or the task changed. -/
  | reopen
  /-- The plan still shows the evidence that was invalidated. -/
  | stayOpen
  | record
  | leave
  deriving DecidableEq

def verdictOf (taskChanged : Bool) (request : Request) (book : Book) (step : Step) : Verdict :=
  if taskChanged = true ∨ (book.completed.get? (keyOf host step)).any (isStale request.files request.sourceRevision step) = true then .reopen
  else if book.invalidated.get? (keyOf host step) = some step.evidence then .stayOpen
  else if step.status = .completed ∧ arePresent request.files step = true ∧ step.evidence ≠ [] then .record
  else .leave

def writeVerdict (request : Request) (book : Book) (step : Step) : Verdict → Book
  | .reopen =>
    ⟨book.completed.pop (keyOf host step), book.invalidated.put (keyOf host step) step.evidence, book.reopenedKeys.insert (keyOf host step)⟩
  | .stayOpen => { book with reopenedKeys := book.reopenedKeys.insert (keyOf host step) }
  | .record =>
    { book with
      completed := book.completed.put (keyOf host step) ⟨currentFiles request.files step, request.sourceRevision⟩
      invalidated := book.invalidated.pop (keyOf host step) }
  | .leave => book

/-- A milestone with files is not completed without them, or without evidence. -/
def statusAfter (request : Request) (step : Step) : Verdict → Status
  | .reopen | .stayOpen => .pending
  | .record | .leave =>
    if step.status = .completed ∧ step.paths ≠ [] ∧ (arePresent request.files step = false ∨ step.evidence = []) then .pending else step.status

def settleStep (taskChanged : Bool) (request : Request) (book : Book) (step : Step) : Book × Step :=
  let verdict := verdictOf host taskChanged request book step
  (writeVerdict host request book step verdict, { step with status := statusAfter request step verdict })

def settleSteps (taskChanged : Bool) (request : Request) : Book → List Step → Book × List Step
  | book, [] => (book, [])
  | book, step :: rest =>
    let (book, step) := settleStep host taskChanged request book step
    let (book, rest) := settleSteps taskChanged request book rest
    (book, step :: rest)

def doneKeys (steps : List Step) : List String := (steps.filter fun step => step.status = .completed).map (keyOf host)

def isPending (done : List String) (step : Step) : Bool :=
  decide (step.status ≠ .completed ∧ step.status ≠ .skipped ∧ step.status ≠ .cancelled) && step.dependsOn.all fun key => decide (key ∈ done)

def activeStep (steps : List Step) : Option Step :=
  let pending := steps.filter (isPending (doneKeys host steps))
  (pending.find? fun step => step.status = .inProgress).or pending.head?

def wholeTask (request : Request) : Step :=
  ⟨"task", "", "Complete the requested deliverable", .pending, "", host.artifacts request.contractRequest, request.requirementIds, [], []⟩

inductive Phase where
  | configuration
  | repair
  | verification
  | generation
  deriving DecidableEq

def configurationErrors : List String := ["BUILD_CONFIGURATION_MISSING", "BUILD_CONFIGURATION_INVALID", "DEPENDENCY_UNRESOLVED"]

def phaseOf (request : Request) : Phase :=
  match request.build with
  | some build =>
    if build.errorCode.any fun code => decide (code ∈ configurationErrors) then .configuration
    else if build.success = some false ∧ build.verificationStale = false then .repair
    else if build.success = some true ∧ build.workspaceRevision = some request.sourceRevision then .verification
    else .generation
  | none => .generation

def isCurrent (request : Request) (report : Report) : Bool :=
  decide (report.workspaceRevision = some request.sourceRevision ∧ report.taskRevision = some request.contractRevision)

def currentReport (request : Request) : Option Report := request.report.filter (isCurrent request)

def reviewedIds (request : Request) : List String :=
  ((currentReport request).map fun report =>
    (report.checks.filter fun check => decide (check.2 = "referenced" ∨ check.2 = "reviewed")).map Prod.fst).getD []

def joined (names : List String) : String := ", ".intercalate names

def symbolsOf (request : Request) : List String :=
  (request.build.map fun build => (build.linkerSymbols.take 8).filter fun symbol => decide (symbol ≠ "")).getD []

def generationAction (symbols missing : List String) (active : Option Step) : String :=
  if symbols ≠ [] then "Implement and link the unresolved symbols: " ++ joined symbols
  else if missing ≠ [] then "Create missing milestone files: " ++ joined missing
  else
    match active with
    | some step => "Continue: " ++ step.text
    | none => "Generate coherent interfaces, implementations and callers for the remaining requirements."

def verificationAction (request : Request) : String :=
  if (currentReport request).any fun report => report.referencesValid && !report.semanticReview then
    "All requirement references are accepted. Finish with no tool calls so the host can perform independent review; " ++
      "do not resubmit unchanged citations."
  else "Submit current evidence for the remaining requirement IDs and finish independent review."

def editAction (edit : FailedEdit) : String :=
  "Exact edit matching failed for " ++ edit.path ++
    ". Use apply_patch or deliberately rewrite that file from the supplied complete current_excerpt, " ++
    "preserving its required behavior. The prior edit changed nothing. Do not repeat the unmatched text or reread the unchanged file."

def nextAction (request : Request) (active : Option Step) (missing : List String) (failedEdit : Option FailedEdit) (stalledTurns : ℕ) : String :=
  if phaseOf request = .verification then verificationAction request
  else
    match failedEdit with
    | some edit => if 3 ≤ stalledTurns then editAction edit else generationAction (symbolsOf request) missing active
    | none => generationAction (symbolsOf request) missing active

/-- The projection of a call, and the steps of the plan as the call counts them. -/
structure Focus where
  steps : List Step
  phase : Phase
  activeMilestone : Option Step
  missingArtifacts : List String
  blockingSymbols : List String
  remainingRequirementIds : List String
  editRecovery : Option FailedEdit
  stalledTurns : ℕ
  nextAction : String

def isTaskChanged (s : Controller) (request : Request) : Bool := decide (s.taskRevision ≠ "" ∧ s.taskRevision ≠ request.contractRevision)

def missingOf (request : Request) (active : Option Step) : List String :=
  (active.map fun step => step.paths.filter fun path => decide (request.files.get? path = none)).getD []

def keptEdit (s : Controller) (request : Request) : Option FailedEdit :=
  if isTaskChanged s request = true then none else s.failedEdit.filter fun edit => decide (edit.sourceRevision = request.sourceRevision)

def openBook (s : Controller) (request : Request) : Book := ⟨if isTaskChanged s request = true then [] else s.completed, s.invalidated, []⟩

def settledSteps (s : Controller) (request : Request) : Book × List Step :=
  settleSteps host (isTaskChanged s request) request (openBook s request) (request.plan.take 32)

def focus (s : Controller) (request : Request) : Focus × Controller :=
  let (book, steps) := settledSteps host s request
  let active := if steps.isEmpty then some (wholeTask host request) else activeStep host steps
  let stalledTurns := if isTaskChanged s request = true then 0 else s.stalledTurns
  let missing := missingOf request active
  ({ steps
     phase := phaseOf request
     activeMilestone := active
     missingArtifacts := missing.take 64
     blockingSymbols := symbolsOf request
     remainingRequirementIds := request.requirementIds.filter fun identity => decide (identity ∉ reviewedIds request)
     editRecovery := if stalledTurns = 3 ∧ phaseOf request ≠ .verification then keptEdit s request else none
     stalledTurns
     nextAction := String.ofList ((nextAction request active missing (keptEdit s request) stalledTurns).toList.take 1800) },
    { s with
      completed := book.completed
      invalidated := book.invalidated
      reopenedKeys := book.reopenedKeys
      stalledTurns
      failedEdit := keptEdit s request
      taskRevision := request.contractRevision
      revision := request.sourceRevision
      activeKey := active.map (keyOf host) })

def sorted (texts : List String) : List String := texts.mergeSort fun a b => decide (a ≤ b)

def restore (s : Controller) : Controller where
  stalledTurns := min 5 s.stalledTurns
  dirtyPaths := (sorted s.dirtyPaths).take 128
  verifications := (sorted s.verifications).drop (s.verifications.length - 128)
  resolvedPackages := (sorted s.resolvedPackages).take 32
  revision := s.revision
  taskRevision := s.taskRevision
  completed := s.completed.last 32
  invalidated := s.invalidated.last 32
  activeKey := s.activeKey
  lastBuildRevision := s.lastBuildRevision
  failedEdit := s.failedEdit
  material := false
  reopenedKeys := []

inductive Action where
  | observe (observation : Observation)
  | settle
  | focus (request : Request)
  | restore

def step (s : Controller) : Action → Option Focus × Controller
  | .observe observation => (none, observe s observation)
  | .settle => (none, settle s)
  | .focus request => (some (focus host s request).1, (focus host s request).2)
  | .restore => (none, restore s)

end PromptForge.GenerationController
