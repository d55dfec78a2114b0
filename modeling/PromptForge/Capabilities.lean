import PromptForge.Json
import PromptForge.Runs
import PromptForge.Texts

/-!
# Capability grants

The policy engine hands out grants and checks every tool call and service
against the grant it comes with. Each operation holds the engine's lock, so a
run is a sequence of operations. `uuid4` is a counter: it never repeats.
-/
namespace PromptForge.Capabilities
open Runs Tables Json Texts

inductive ToolName where
  | listFiles
  | globFiles
  | grepSearch
  | readFile
  | writeFile
  | editFileSimple
  | applyPatch
  | deleteFile
  | moveFile
  | updatePlan
  | loadSkill
  | memorySearch
  | spawnSubagent
  | presentFiles
  | sessionEventRead
  | sessionEventSearch
  | sessionTrace
  | buildFirmware
  | verifyRequirements
  | runSimulation
  | runCommand
  | projectDoctor
  | inspectSymbols
  | resolveDependency
  | searchDocs
  | fetchDocs
  | validateHardwareConfig
  | runUnitTests
  | analyzeFirmware
  | observeSerial
  | decodeCrash
  | verifyAcceptance
  deriving DecidableEq

def ToolName.value : ToolName → String
  | .listFiles => "list_files"
  | .globFiles => "glob_files"
  | .grepSearch => "grep_search"
  | .readFile => "read_file"
  | .writeFile => "write_file"
  | .editFileSimple => "edit_file_simple"
  | .applyPatch => "apply_patch"
  | .deleteFile => "delete_file"
  | .moveFile => "move_file"
  | .updatePlan => "update_plan"
  | .loadSkill => "load_skill"
  | .memorySearch => "memory_search"
  | .spawnSubagent => "spawn_subagent"
  | .presentFiles => "present_files"
  | .sessionEventRead => "session_event_read"
  | .sessionEventSearch => "session_event_search"
  | .sessionTrace => "session_trace"
  | .buildFirmware => "build_firmware"
  | .verifyRequirements => "verify_requirements"
  | .runSimulation => "run_simulation"
  | .runCommand => "run_command"
  | .projectDoctor => "project_doctor"
  | .inspectSymbols => "inspect_symbols"
  | .resolveDependency => "resolve_dependency"
  | .searchDocs => "search_docs"
  | .fetchDocs => "fetch_docs"
  | .validateHardwareConfig => "validate_hardware_config"
  | .runUnitTests => "run_unit_tests"
  | .analyzeFirmware => "analyze_firmware"
  | .observeSerial => "observe_serial"
  | .decodeCrash => "decode_crash"
  | .verifyAcceptance => "verify_acceptance"

def ToolName.all : List ToolName :=
  [.listFiles, .globFiles, .grepSearch, .readFile, .writeFile, .editFileSimple, .applyPatch, .deleteFile,
    .moveFile, .updatePlan, .loadSkill, .memorySearch, .spawnSubagent, .presentFiles, .sessionEventRead,
    .sessionEventSearch, .sessionTrace, .buildFirmware, .verifyRequirements, .runSimulation, .runCommand,
    .projectDoctor, .inspectSymbols, .resolveDependency, .searchDocs, .fetchDocs, .validateHardwareConfig,
    .runUnitTests, .analyzeFirmware, .observeSerial, .decodeCrash, .verifyAcceptance]

def writeTools : Finset ToolName := {.writeFile, .editFileSimple, .applyPatch, .deleteFile, .moveFile}

inductive RuntimeClassification where
  | pass
  | providerInvalid
  | modelOutputInvalid
  | policyDenied
  | pathUnsafe
  | fileNotFound
  | contentInvalid
  | extraChanges
  | noChanges
  | changesetCreated
  | unsafeAborted
  | unknownSafeFailure
  | cancelled
  | maxTurns
  | noProgress
  | requirementsUnverified
  | limitExceeded
  deriving DecidableEq

inductive Refusal where
  | fileNotFound
  | toolUnknown
  | valueError (code : String)
  | permissionError (code : String)
  | toolPolicy (classification : RuntimeClassification) (reason : String)
  deriving DecidableEq

def denied (reason : String) : Refusal := .toolPolicy .policyDenied reason

def serviceCapabilities : Finset String := {"workspace_stage", "build", "network", "hardware", "serial_monitor"}

def writeAuthorizations : List String := ["explicit_edit_request", "explicit_review", "repair_task", "system_test"]

structure CapabilityGrant where
  grantId : ℕ
  sessionId : Option String
  runId : String
  nodeId : String
  workspaceRoot : String
  allowedTools : Finset ToolName
  allowedServices : Finset String
  authorizationSource : String
  expiresAtMonotonic : ℚ
  maxCalls : ℤ
  allowWorkspaceWrite : Bool
  allowBuild : Bool
  allowNetwork : Bool
  allowHardware : Bool
  deriving DecidableEq

structure ToolCall where
  tool : ToolName
  arguments : Dict

abbrev ToolPermissionPolicy := ToolCall → String → Except Refusal Unit

/-- What an operation meets outside: the monotonic clock, and where paths lead. -/
structure Moment where
  now : ℚ
  present : String → Bool
  resolve : String → String

structure Engine where
  defaultTtlSeconds : ℚ
  revoked : Finset ℕ
  fencedRuns : Finset String
  usage : ℕ → ℕ
  grants : List CapabilityGrant
  nextGrant : ℕ

def Engine.initial (defaultTtlSeconds : ℚ) : Engine :=
  ⟨max 1 (min defaultTtlSeconds 3600), ∅, ∅, fun _ => 0, [], 0⟩

structure IssueRequest where
  runId : String
  nodeId : String
  workspaceRoot : String
  allowedTools : List (ToolName ⊕ String) := []
  allowedServices : List String := []
  authorizationSource : String
  sessionId : Option String := none
  ttlSeconds : Option ℚ := none
  maxCalls : ℤ := 20
  allowWorkspaceWrite : Bool := false
  allowBuild : Bool := false
  allowNetwork : Bool := false
  allowHardware : Bool := false

def tool? (text : String) : Option ToolName := ToolName.all.find? fun tool => decide (tool.value = text)

def parseTool : ToolName ⊕ String → Except Refusal ToolName
  | .inl tool => .ok tool
  | .inr text =>
    match tool? text with
    | none => .error .toolUnknown
    | some tool => .ok tool

def requiredId (value : String) : Except Refusal String :=
  let candidate := strip value
  if candidate = "" ∨ 160 < candidate.length then .error (.valueError "CAPABILITY_ID_INVALID") else .ok candidate

def service (text : String) : String := casefold (strip text)

def drawGrant (m : Moment) (request : IssueRequest) (e : Engine) : Except Refusal CapabilityGrant := do
  require (m.present request.workspaceRoot) .fileNotFound
  let parsed := (← request.allowedTools.mapM parseTool).toFinset
  let services := (request.allowedServices.map service).toFinset
  require (services ⊆ serviceCapabilities) (.valueError "CAPABILITY_SERVICE_INVALID")
  require (parsed ≠ ∅ ∨ services ≠ ∅) (.valueError "CAPABILITY_SCOPE_REQUIRED")
  require (parsed ∩ writeTools = ∅ ∨ request.authorizationSource ∈ writeAuthorizations)
    (.permissionError "CAPABILITY_WRITE_AUTHORIZATION_REQUIRED")
  require (.buildFirmware ∉ parsed ∨ request.allowBuild)
    (.permissionError "CAPABILITY_BUILD_AUTHORIZATION_REQUIRED")
  let ttl := request.ttlSeconds.elim e.defaultTtlSeconds fun ttl => max 1 (min ttl 3600)
  let runId ← requiredId request.runId
  let nodeId ← requiredId request.nodeId
  return {
    grantId := e.nextGrant
    sessionId := request.sessionId
    runId := runId
    nodeId := nodeId
    workspaceRoot := m.resolve request.workspaceRoot
    allowedTools := parsed
    allowedServices := services
    authorizationSource := request.authorizationSource
    expiresAtMonotonic := m.now + ttl
    maxCalls := max 1 (min request.maxCalls 100)
    allowWorkspaceWrite := request.allowWorkspaceWrite
    allowBuild := request.allowBuild
    allowNetwork := request.allowNetwork
    allowHardware := request.allowHardware }

def Engine.revoke (grantId : ℕ) (e : Engine) : Engine := { e with revoked := insert grantId e.revoked }

def Engine.enter (grant : CapabilityGrant) (e : Engine) : Engine :=
  { e with grants := e.grants ++ [grant], nextGrant := e.nextGrant + 1 }

def issueGrant (m : Moment) (request : IssueRequest) : Work Engine Refusal CapabilityGrant := fun e =>
  match drawGrant m request e with
  | .error refusal => (.error refusal, e)
  | .ok grant =>
    if request.runId ∈ e.fencedRuns then
      (.error (denied "capability_run_fenced"), (e.enter grant).revoke grant.grantId)
    else (.ok grant, e.enter grant)

abbrev grant? (e : Engine) (grantId : ℕ) : Option CapabilityGrant :=
  lookup CapabilityGrant.grantId e.grants grantId

def validateLiveGrant (m : Moment) (grant : CapabilityGrant) (root : String) : Work Engine Refusal Unit := fun e =>
  if grant.runId ∈ e.fencedRuns then (.error (denied "capability_run_fenced"), e)
  else if grant? e grant.grantId ≠ some grant then (.error (denied "capability_not_issued"), e)
  else if grant.grantId ∈ e.revoked then (.error (denied "capability_revoked"), e)
  else if grant.expiresAtMonotonic ≤ m.now then (.error (denied "capability_expired"), e.revoke grant.grantId)
  else if m.resolve grant.workspaceRoot ≠ m.resolve root then
    (.error (.toolPolicy .pathUnsafe "capability_workspace_mismatch"), e)
  else (.ok (), e)

def callLimit : Refusal := .toolPolicy .limitExceeded "capability_call_limit"

def Engine.count (grantId : ℕ) (e : Engine) : Engine :=
  { e with usage := Function.update e.usage grantId (e.usage grantId + 1) }

def validateCall (product : ToolPermissionPolicy) (m : Moment) (grant : CapabilityGrant) (call : ToolCall)
    (root : String) (policy : Option ToolPermissionPolicy) (consume : Bool) : Work Engine Refusal Unit := fun e =>
  match validateLiveGrant m grant root e with
  | (.error refusal, e) => (.error refusal, e)
  | (.ok _, e) =>
    if call.tool ∉ grant.allowedTools then (.error (denied "tool_capability_denied"), e)
    else if grant.maxCalls ≤ e.usage grant.grantId then (.error callLimit, e)
    else match (policy.getD product) call root with
      | .error refusal => (.error refusal, e)
      | .ok _ => (.ok (), if consume then e.count grant.grantId else e)

def gateOpen (grant : CapabilityGrant) (capability : String) : Bool :=
  if capability = "workspace_stage" then grant.allowWorkspaceWrite
  else if capability = "build" then grant.allowBuild
  else if capability = "network" then grant.allowNetwork
  else if capability = "hardware" ∨ capability = "serial_monitor" then grant.allowHardware
  else false

def validateService (m : Moment) (grant : CapabilityGrant) (name root : String) (consume : Bool) :
    Work Engine Refusal Unit := fun e =>
  match validateLiveGrant m grant root e with
  | (.error refusal, e) => (.error refusal, e)
  | (.ok _, e) =>
    if service name ∉ grant.allowedServices then (.error (denied "service_capability_denied"), e)
    else if gateOpen grant (service name) = false then (.error (denied "service_capability_gate_closed"), e)
    else if grant.maxCalls ≤ e.usage grant.grantId then (.error callLimit, e)
    else (.ok (), if consume then e.count grant.grantId else e)

def Engine.revokeRun (runId : String) (e : Engine) : Engine :=
  { e with
    revoked := e.revoked ∪
      ((e.grants.filter fun grant => decide (grant.runId = runId)).map CapabilityGrant.grantId).toFinset }

def Engine.fenceRun (runId : String) (e : Engine) : Engine :=
  { e with fencedRuns := insert runId e.fencedRuns }.revokeRun runId

def remainingCalls (grant : CapabilityGrant) (e : Engine) : ℤ := max 0 (grant.maxCalls - e.usage grant.grantId)

inductive Action where
  | issue (m : Moment) (request : IssueRequest)
  | validateCall (m : Moment) (grant : CapabilityGrant) (call : ToolCall) (root : String)
      (policy : Option ToolPermissionPolicy) (consume : Bool)
  | validateService (m : Moment) (grant : CapabilityGrant) (name root : String) (consume : Bool)
  | guardPublication (m : Moment) (grant : CapabilityGrant) (root : String)
  | revoke (grantId : ℕ)
  | revokeRun (runId : String)
  | fenceRun (runId : String)

inductive Outcome where
  | issued (grant : CapabilityGrant)
  | accepted
  | refused (refusal : Refusal)
  | done
  deriving DecidableEq

def answer {τ : Type} (f : τ → Outcome) (result : Except Refusal τ × Engine) : Outcome × Engine :=
  (match result.1 with
    | .error refusal => .refused refusal
    | .ok a => f a, result.2)

def step (product : ToolPermissionPolicy) (e : Engine) : Action → Outcome × Engine
  | .issue m request => answer .issued (issueGrant m request e)
  | .validateCall m grant call root policy consume =>
    answer (fun _ => .accepted) (validateCall product m grant call root policy consume e)
  | .validateService m grant name root consume =>
    answer (fun _ => .accepted) (validateService m grant name root consume e)
  | .guardPublication m grant root => answer (fun _ => .accepted) (validateLiveGrant m grant root e)
  | .revoke grantId => (.done, e.revoke grantId)
  | .revokeRun runId => (.done, e.revokeRun runId)
  | .fenceRun runId => (.done, e.fenceRun runId)

end PromptForge.Capabilities
