import PromptForge.Approvals
import PromptForge.Operations

/-!
# Flashing a device

A verified build is flashed after one confirmation.
-/
namespace PromptForge.FlashApproval
open Runs Tables Json

abbrev Time := Approvals.Time

structure Board where
  port : String
  vid : Option ℕ
  pid : Option ℕ
  serialNumber : Option String
  boardType : String

inductive Confidence where
  | unbound | weak | medium | strong
  deriving DecidableEq

structure DeviceIdentity where
  stableId : String
  port : Option String
  boardType : Option String
  vid : Option ℕ
  pid : Option ℕ
  serialNumber : Option String
  confidence : Confidence
  deriving DecidableEq

def hex4 (n : ℕ) : String :=
  let digits := Nat.toDigits 16 n
  String.ofList (List.replicate (4 - digits.length) '0' ++ digits)

def textOf (value : Option String) : String := Texts.strip (value.getD "")

def someText (text : String) : Option String := if text = "" then none else some text

def orElse (a b : Option String) : Option String :=
  match a with
  | some text => if text = "" then b else some text
  | none => b

def weakIdentity (port board : String) : DeviceIdentity where
  stableId := "port:" ++ Texts.casefold port ++ "|board:" ++ Texts.casefold board
  port := some port
  boardType := someText board
  vid := none
  pid := none
  serialNumber := none
  confidence := .weak

/-- The strongest identity that the boards found on the host give for a port. -/
def deviceIdentity (detected : List Board) (port boardType : Option String) : DeviceIdentity :=
  let selectedPort := textOf port
  let selectedBoard := textOf boardType
  if selectedPort = "" then
    ⟨"unbound", none, someText selectedBoard, none, none, none, .unbound⟩
  else
    match detected.find? fun board => decide (Texts.casefold board.port = Texts.casefold selectedPort) with
    | none => weakIdentity selectedPort selectedBoard
    | some found =>
      let named := some (if selectedBoard = "" then found.boardType else selectedBoard)
      match found.vid, found.pid with
      | some vid, some pid =>
        match someText (textOf found.serialNumber) with
        | some serial =>
          ⟨"usb:" ++ hex4 vid ++ ":" ++ hex4 pid ++ ":" ++ Texts.casefold serial, some found.port, named, some vid,
            some pid, some serial, .strong⟩
        | none =>
          ⟨"usb:" ++ hex4 vid ++ ":" ++ hex4 pid ++ "|port:" ++ Texts.casefold found.port, some found.port, named,
            some vid, some pid, none, .medium⟩
      | _, _ => weakIdentity selectedPort selectedBoard

inductive RunStatus where
  | queued | running | awaitingFlashConfirmation | cancelling
  | completed | completedWithWarning | failed | cancelled | blocked | timedOut
  deriving DecidableEq

def RunStatus.terminal (s : RunStatus) : Bool :=
  s ∈ [.completed, .completedWithWarning, .failed, .cancelled, .blocked, .timedOut]

structure Run where
  runId : String
  projectId : String
  sessionId : String
  status : RunStatus
  classification : String
  flashPort : Option String
  flashBoardType : Option String
  flashEnvironment : Option String
  startMonitorAfterFlash : Bool
  buildResult : Option Dict
  approvalId : Option String
  -- `cancel_event.is_set()`
  cancelRequested : Bool

structure Binding where
  runId : String
  projectId : String
  port : Option String
  boardType : Option String
  deviceIdentity : DeviceIdentity
  environment : Option String
  workspaceRevision : Value
  artifact : Dict
  startMonitorAfterFlash : Bool

def artifactKeys : List String :=
  ["build_id", "artifact_hash", "firmware_hash", "checksum", "artifact_path", "firmware_path", "environment",
    "project_id", "workspace_revision", "source_manifest_hash", "artifact_manifest"]

def present (build : Dict) (key : String) : Option (String × Value) :=
  match Dict.get build key with
  | .null => none
  | value => some (key, value)

def artifactIdentity (build : Dict) : Dict := artifactKeys.filterMap (present build)

inductive Refusal where
  | notReady | changesNotApplied | buildNotFound | sealedUploadRequired | workspaceChanged
  | confirmationNotReady | confirmationUnavailable | approvalRequired
  | runIdRequired | projectIdRequired | artifactHashRequired
  | leaseHeld | runFenced | busy
  | operation (error : Operations.OperationError)
  | approval (error : Approvals.Refusal)
  | fault

def Refusal.text : Refusal → Option String
  | .notReady => some "AGENT_RUNTIME_FLASH_PREPARATION_NOT_READY"
  | .changesNotApplied => some "AGENT_RUNTIME_FLASH_CHANGES_NOT_APPLIED"
  | .buildNotFound => some "AGENT_RUNTIME_VERIFIED_BUILD_NOT_FOUND"
  | .sealedUploadRequired => some "SEALED_UPLOAD_REQUIRED"
  | .workspaceChanged => some "AGENT_RUNTIME_BUILD_WORKSPACE_CHANGED"
  | .confirmationNotReady => some "AGENT_RUNTIME_FLASH_CONFIRMATION_NOT_READY"
  | .confirmationUnavailable => some "AGENT_RUNTIME_FLASH_CONFIRMATION_UNAVAILABLE"
  | .approvalRequired => some "AGENT_RUNTIME_FLASH_APPROVAL_REQUIRED"
  | .runIdRequired => some "HARDWARE_RUN_ID_REQUIRED"
  | .projectIdRequired => some "HARDWARE_PROJECT_ID_REQUIRED"
  | .artifactHashRequired => some "HARDWARE_ARTIFACT_HASH_REQUIRED"
  | .leaseHeld => some "AGENT_SESSION_LEASE_HELD"
  | .runFenced => some "capability_run_fenced"
  | .operation error => some error.text
  | .approval error => some error.code
  | .busy | .fault => none

def hashKeys : List String := ["firmware_hash", "artifact_hash", "checksum"]

def artifactHash (artifact : Dict) : Option String :=
  hashKeys.findSome? fun key =>
    match Dict.get artifact key with
    | .str text => someText (Texts.strip text)
    | _ => none

/-- `build.get("firmware_hash") or build.get("artifact_hash") or build.get("checksum")` -/
def approvedArtifactHash (build : Dict) : Option String :=
  match Dict.getOr build "firmware_hash" (Dict.getOr build "artifact_hash" (Dict.get build "checksum")) with
  | .str text => someText text
  | _ => none

def Run.build (run : Run) : Dict := run.buildResult.getD []

/-- What `finalize_hardware_binding` asks of the document of a flash; the stable id of a
    device is never empty. -/
def finalize (binding : Binding) : Except Refusal Binding := do
  require (Texts.strip binding.runId ≠ "") Refusal.runIdRequired
  require (Texts.strip binding.projectId ≠ "") Refusal.projectIdRequired
  require ((artifactHash binding.artifact).isSome) Refusal.artifactHashRequired
  return binding

/-- The arguments of a request; those left out are the ones of the run. -/
structure Arguments where
  port : Option String
  boardType : Option String
  environment : Option String
  startMonitorAfterFlash : Option Bool

def Run.with (run : Run) (arguments : Arguments) : Run :=
  { run with
    flashPort := orElse arguments.port run.flashPort
    flashBoardType := orElse arguments.boardType run.flashBoardType
    flashEnvironment := orElse arguments.environment run.flashEnvironment
    startMonitorAfterFlash := arguments.startMonitorAfterFlash.getD run.startMonitorAfterFlash }

def bindingOf (run : Run) (detected : List Board) (revision : String) : Binding where
  runId := run.runId
  projectId := run.projectId
  port := run.flashPort
  boardType := run.flashBoardType
  deviceIdentity := deviceIdentity detected run.flashPort run.flashBoardType
  environment := run.flashEnvironment
  workspaceRevision := if revision = "" then Dict.get run.build "workspace_revision" else .str revision
  artifact := artifactIdentity run.build
  startMonitorAfterFlash := run.startMonitorAfterFlash

/-- The document of `_flash_binding`, with the devices found and the revision read now. -/
def flashBinding (run : Run) (detected : List Board) (revision : String) : Except Refusal Binding :=
  finalize (bindingOf run detected revision)

/-- `f"{run_id}:flash:{approval_id}"` -/
structure OperationId where
  runId : String
  approvalId : String
  deriving DecidableEq

def OperationId.text (id : OperationId) : String := id.runId ++ ":flash:" ++ id.approvalId

structure FlashOperation where
  operationId : OperationId
  fingerprint : String
  status : Operations.OperationStatus
  deriving DecidableEq

structure FlashRequest where
  runId : String
  projectId : String
  port : Option String
  boardType : Option String
  environment : Option String
  startMonitorAfterFlash : Bool
  expectedArtifactHash : Option String
  artifactManifest : Value

/-- The task of a run: its build, or the flash of an approval. -/
inductive Task where
  | build
  | flash (approvalId : String) (binding : Binding) (started : Bool)

structure Issued where
  approvalId : String
  runId : String
  binding : Binding

/-- A call of the executor, with the binding that was confirmed for it. -/
structure Started where
  approvalId : String
  request : FlashRequest
  confirmed : Binding

structure Lease where
  ownerId : String
  expiresAt : Time

/-- The runs in memory and as stored, the tables, the fences, the tasks, and all that was issued and started. -/
structure System where
  runs : String → Option Run
  rows : String → Option Run
  approvals : Approvals.Table
  operations : List FlashOperation
  leases : String → Option Lease
  fenced : String → Bool
  cancelling : String → Bool
  tasks : String → Option Task
  issued : List Issued
  started : List Started

def System.initial : System :=
  ⟨fun _ => none, fun _ => none, [], [], fun _ => none, fun _ => false, fun _ => false, fun _ => none, [], []⟩

/-- The digests, the time an approval and a lease live, and whether an executor is set. -/
structure Host where
  sha256 : String × Binding → String
  digest : Binding → String
  service : Approvals.ApprovalService
  leaseTtl : Time
  flashExecutor : Bool

/-- Where a step raises: before it writes, or where it writes the operation, the approval
    or the event. -/
inductive Fault where
  | none | early | operation | approval | event
  deriving DecidableEq

inductive BuildOutcome where
  | completed | failed
  | awaitFlash (approvalId : String) (detected : List Board) (revision : String) (now : Time)

inductive Action where
  | create (run : Run)
  | built (runId : String) (build : Dict) (outcome : BuildOutcome) (classification : String)
  | prepare (runId : String) (arguments : Arguments) (approvalId : String) (detected : List Board)
      (built revision : String) (now : Time) (fault : Fault)
  | confirm (runId : String) (arguments : Arguments) (detected : List Board) (revision : String) (now stamp : Time)
      (fault : Fault)
  | start (runId : String) (fault : Fault)
  | result (runId : String) (success : Bool) (build : Dict) (classification : String) (fault : Fault)
  | cancel (runId : String) (fault : Fault)
  | cancelled (runId : String) (cleanupFailed pause : Bool) (fault : Fault)
  | loseLease (runId : String) (fault : Fault)
  | lease (sessionId ownerId : String) (now : Time)
  | release (sessionId : String)
  | restart (stamp : Time)

inductive Outcome where
  | accepted
  | refused (reason : Refusal)
  | idle

variable (host : Host)

namespace System
variable (s : System)

def setRun (run : Run) : System := { s with runs := Function.update s.runs run.runId (some run) }

def persist (run : Run) : System := { s with rows := Function.update s.rows run.runId (some run) }

def setTask (runId : String) (task : Option Task) : System := { s with tasks := Function.update s.tasks runId task }

def setLease (sessionId : String) (lease : Option Lease) : System :=
  { s with leases := Function.update s.leases sessionId lease }

def event (run : Run) (fault : Fault) : System := if fault = .event then s else s.persist run

def leaseFree (sessionId ownerId : String) (now : Time) : Bool :=
  match s.leases sessionId with
  | none => true
  | some lease => decide (lease.expiresAt ≤ now ∨ lease.ownerId = ownerId)

def interrupt (runId : String) : System :=
  { s with
    operations := updateWhere (fun r => decide (r.operationId.runId = runId ∧ r.status = .started))
      (fun r => { r with status := .unknown }) s.operations }

end System

def recordOperation (id : OperationId) (status : Operations.OperationStatus) (fingerprint : String)
    (rows : List FlashOperation) : Except Operations.OperationError (List FlashOperation) :=
  match lookup FlashOperation.operationId rows id with
  | some row =>
    if row.fingerprint ≠ fingerprint then .error .conflict
    else if row.status.settled ∧ row.status ≠ status then .error .alreadySettled
    else .ok (updateRow FlashOperation.operationId { row with status := status } rows)
  | none =>
    if status = .prepared ∨ status = .started then .ok (rows ++ [⟨id, fingerprint, status⟩])
    else .error .notPrepared

def issue (s : System) (run : Run) (approvalId : String) (binding : Binding) (now : Time) : Except Refusal System :=
  let request := host.service.request host.sha256 approvalId run.runId "flash" binding
    "Flash the latest verified firmware artifact to the selected device once." now
  match Approvals.saveApproval request s.approvals with
  | (.error error, _) => .error (.approval error)
  | (.ok _, approvals) =>
    .ok { s with approvals := approvals, issued := s.issued ++ [⟨approvalId, run.runId, binding⟩] }

def awaiting (run : Run) (approvalId : String) : Run :=
  { run with
    approvalId := some approvalId
    status := .awaitingFlashConfirmation
    classification := "BUILD_READY_FOR_FLASH" }

section Steps
variable (s : System)

def create (run : Run) : Outcome × System :=
  match s.runs run.runId, s.rows run.runId with
  | none, none =>
    let run := { run with status := .queued, approvalId := none, cancelRequested := false, buildResult := none }
    (.accepted, ((s.setRun run).persist run).setTask run.runId (some .build))
  | _, _ => (.idle, s)

/-- The end of the build of a run, with a flash to confirm where the autonomy asks for one. -/
def built (run : Run) (build : Dict) (outcome : BuildOutcome) (classification : String) : Outcome × System :=
  let run := { run with buildResult := some build, classification := classification }
  let settle (s : System) (run : Run) := (s.setRun run).persist run |>.setTask run.runId none
  match outcome with
  | .completed => (.accepted, settle s { run with status := .completed })
  | .failed => (.accepted, settle s { run with status := .failed })
  | .awaitFlash approvalId detected revision now =>
    if approvedArtifactHash build = none ∨ truthy (Dict.get build "artifact_manifest") = false then
      (.accepted, settle s { run with status := .failed, classification := "BUILD_ARTIFACT_DIGEST_UNAVAILABLE" })
    else
      match (flashBinding run detected revision).bind fun binding => issue host s run approvalId binding now with
      | .error _ => (.accepted, settle s { run with status := .failed })
      | .ok s => (.accepted, settle s (awaiting run approvalId))

def prepare (run : Run) (arguments : Arguments) (approvalId : String) (detected : List Board)
    (built revision : String) (now : Time) (fault : Fault) : Outcome × System :=
  if run.status = .awaitingFlashConfirmation then (.accepted, s)
  else if run.status ≠ .completed then (.refused .notReady, s)
  else if run.classification ∈ ["CHANGESET_REVIEW_REQUIRED", "CHANGESET_APPROVAL_REQUIRED"] then
    (.refused .changesNotApplied, s)
  else if approvedArtifactHash run.build = none then (.refused .buildNotFound, s)
  else if (obj? (Dict.get run.build "artifact_manifest")).isNone then (.refused .sealedUploadRequired, s)
  else if fault = .early then (.refused .fault, s)
  else if (match Dict.get run.build "workspace_revision" with
      | .str expected => decide (expected ≠ "" ∧ built ≠ expected)
      | _ => false) then (.refused .workspaceChanged, s)
  else
    -- the arguments stay with the run also where the approval is not issued
    let run := run.with arguments
    let s := s.setRun run
    match flashBinding run detected revision with
    | .error error => (.refused error, s)
    | .ok binding =>
      if fault = .approval then (.refused .fault, s)
      else
        match issue host s run approvalId binding now with
        | .error error => (.refused error, s)
        | .ok s =>
          let run := awaiting run approvalId
          let s := (s.setRun run).event run fault
          if fault = .event then (.refused .fault, s) else (.accepted, s)

/-- What `_confirm_flash_impl` does under the lease; a refusal keeps what it has written. -/
def confirmImpl (run : Run) (arguments : Arguments) (detected : List Board) (revision : String) (now stamp : Time)
    (fault : Fault) : Except Refusal Unit × System :=
  if !host.flashExecutor then (.error .confirmationUnavailable, s)
  else
    match run.approvalId with
    | none => (.error .approvalRequired, s)
    | some approvalId =>
      let proposed := run.with arguments
      if fault = .early then (.error .fault, s)
      else if s.fenced run.runId then (.error .runFenced, s)
      else
        match flashBinding proposed detected revision with
        | .error error => (.error error, s)
        | .ok binding =>
          if fault = .operation then (.error .fault, s)
          else
            match recordOperation ⟨run.runId, approvalId⟩ .prepared (host.digest binding) s.operations with
            | .error error => (.error (.operation error), s)
            | .ok operations =>
              let s := { s with operations := operations }
              if fault = .approval then (.error .fault, s)
              else
                match Approvals.consumeApproval approvalId (Approvals.fingerprintOf host.sha256 "flash" binding) now
                    stamp s.approvals with
                | (.error error, approvals) => (.error (.approval error), { s with approvals := approvals })
                | (.ok _, approvals) =>
                  let run := { proposed with status := .running }
                  let s := ({ s with approvals := approvals }.setRun run).event run fault
                  if fault = .event then (.error .fault, s)
                  else (.ok (), s.setTask run.runId (some (.flash approvalId binding false)))

/-- `_acquire_flash`; the lease goes back where the rest raises. -/
def confirm (run : Run) (arguments : Arguments) (detected : List Board) (revision : String) (now stamp : Time)
    (fault : Fault) : Outcome × System :=
  if run.status ≠ .awaitingFlashConfirmation then (.refused .confirmationNotReady, s)
  else if (s.tasks run.runId).isSome then (.refused .busy, s)
  else if !s.leaseFree run.sessionId run.runId now then (.refused .leaseHeld, s)
  else
    match confirmImpl host (s.setLease run.sessionId (some ⟨run.runId, now + host.leaseTtl⟩)) run arguments detected
        revision now stamp fault with
    | (.ok (), s) => (.accepted, s)
    | (.error error, s) => (.refused error, s.setLease run.sessionId none)

def requestOf (run : Run) : FlashRequest where
  runId := run.runId
  projectId := run.projectId
  port := run.flashPort
  boardType := run.flashBoardType
  environment := run.flashEnvironment
  startMonitorAfterFlash := run.startMonitorAfterFlash
  expectedArtifactHash := approvedArtifactHash run.build
  artifactManifest := Dict.get run.build "artifact_manifest"

/-- The end of the task of a run. -/
def endTask (run : Run) (status : RunStatus) (classification : String) (fault : Fault) : System :=
  let run := { run with
    status := if s.cancelling run.runId then .cancelling else status
    classification := classification }
  (((s.setRun run).event run fault).setTask run.runId none).setLease run.sessionId none

def start (run : Run) (approvalId : String) (binding : Binding) (fault : Fault) : Outcome × System :=
  if run.cancelRequested then
    (.accepted, endTask (s.interrupt run.runId) run .cancelled "AGENT_RUNTIME_CANCELLED" fault)
  else if fault = .operation then
    (.refused .fault, endTask (s.interrupt run.runId) run .failed "OperationalError" fault)
  else
    match recordOperation ⟨run.runId, approvalId⟩ .started (host.digest binding) s.operations with
    | .error error => (.refused (.operation error), endTask (s.interrupt run.runId) run .failed "ValueError" fault)
    | .ok operations =>
      let s : System := { s with
        operations := operations, started := s.started ++ [⟨approvalId, requestOf run, binding⟩] }
      (.accepted, s.setTask run.runId (some (.flash approvalId binding true)))

def result (run : Run) (approvalId : String) (binding : Binding) (success : Bool) (build : Dict)
    (classification : String) (fault : Fault) : Outcome × System :=
  let run := { run with buildResult := some (build.foldl (fun d e => Dict.set e.1 e.2 d) run.build) }
  let status : Operations.OperationStatus := if success then .completed else .unknown
  if fault = .operation then
    (.refused .fault, endTask (s.interrupt run.runId) run .failed "OperationalError" fault)
  else
    match recordOperation ⟨run.runId, approvalId⟩ status (host.digest binding) s.operations with
    | .error error => (.refused (.operation error), endTask (s.interrupt run.runId) run .failed "ValueError" fault)
    | .ok operations =>
      (.accepted, endTask { s with operations := operations } run (if success then .completed else .failed)
        classification fault)

def cancel (run : Run) (fault : Fault) : Outcome × System :=
  if run.status.terminal then (.accepted, s)
  else
    let run := { run with status := .cancelling, cancelRequested := true }
    let s := { s with cancelling := Function.update s.cancelling run.runId true }
    if fault = .event then (.refused .fault, s.setRun run)
    else
      (.accepted, { (s.setRun run).persist run with fenced := Function.update s.fenced run.runId true })

def cancelled (run : Run) (cleanupFailed pause : Bool) (fault : Fault) : Outcome × System :=
  let s := s.interrupt run.runId
  let uncertain := cleanupFailed || s.operations.any fun r =>
    decide (r.operationId.runId = run.runId ∧ r.status = .unknown)
  let run := { run with
    status := if uncertain then .blocked else if pause then .failed else .cancelled
    classification := if uncertain then "AGENT_RECOVERY_OUTCOME_UNKNOWN"
      else if pause then "AGENT_RUNTIME_INTERRUPTED" else "AGENT_RUNTIME_CANCELLED" }
  (.accepted, ({ s with cancelling := Function.update s.cancelling run.runId false }.setRun run).event run fault)

def loseLease (run : Run) (fault : Fault) : Outcome × System :=
  let s := s.interrupt run.runId
  let run := { run with
    status := .blocked, classification := "AGENT_RECOVERY_OUTCOME_UNKNOWN", cancelRequested := true }
  let s := ({ s with fenced := Function.update s.fenced run.runId true }.setRun run).event run fault
  (.accepted, s.setTask run.runId none)

def restore (run : Run) : Run :=
  if run.status.terminal then { run with cancelRequested := false }
  else
    { run with
      status := .failed, classification := "AGENT_RUNTIME_INTERRUPTED", approvalId := none, cancelRequested := false }

def interrupted (rows : String → Option Run) (runId : String) : Bool :=
  match rows runId with
  | some run => !run.status.terminal
  | none => false

def awaited (rows : String → Option Run) (runId : String) : Bool :=
  match rows runId with
  | some run => !run.status.terminal && (run.status = .awaitingFlashConfirmation || run.approvalId.isSome)
  | none => false

/-- The backend comes up again: the runs are those of the rows, and no task is left. -/
def restart (stamp : Time) : System :=
  { s with
    runs := fun runId => (s.rows runId).map restore
    rows := fun runId => (s.rows runId).map restore
    approvals := updateWhere (fun r => decide (awaited s.rows r.runId = true ∧ r.status = .pending))
      (Approvals.markInvalidated "backend_restarted" stamp) s.approvals
    operations := updateWhere (fun r => decide (interrupted s.rows r.operationId.runId = true ∧ r.status = .started))
      (fun r => { r with status := .unknown }) s.operations
    fenced := fun _ => false
    cancelling := fun _ => false
    tasks := fun _ => none }

def withRun (runId : String) (go : Run → Outcome × System) : Outcome × System :=
  match s.runs runId with
  | some run => go run
  | none => (.idle, s)

def withTask (runId : String) (go : Run → Task → Outcome × System) : Outcome × System :=
  match s.runs runId, s.tasks runId with
  | some run, some task => go run task
  | _, _ => (.idle, s)

def step : Action → Outcome × System
  | .create run => create s run
  | .built runId build outcome classification => withTask s runId fun run task =>
    match task with
    | .build => built host s run build outcome classification
    | .flash _ _ _ => (.idle, s)
  | .prepare runId arguments approvalId detected built revision now fault => withRun s runId fun run =>
    prepare host s run arguments approvalId detected built revision now fault
  | .confirm runId arguments detected revision now stamp fault => withRun s runId fun run =>
    confirm host s run arguments detected revision now stamp fault
  | .start runId fault => withTask s runId fun run task =>
    match task with
    | .flash approvalId binding false => start host s run approvalId binding fault
    | _ => (.idle, s)
  | .result runId success build classification fault => withTask s runId fun run task =>
    match task with
    | .flash approvalId binding true => result host s run approvalId binding success build classification fault
    | _ => (.idle, s)
  | .cancel runId fault => withRun s runId fun run => cancel s run fault
  | .cancelled runId cleanupFailed pause fault => withRun s runId fun run =>
    if s.cancelling runId then cancelled s run cleanupFailed pause fault else (.idle, s)
  | .loseLease runId fault => withTask s runId fun run _ => loseLease s run fault
  | .lease sessionId ownerId now =>
    if s.leaseFree sessionId ownerId now then
      (.accepted, s.setLease sessionId (some ⟨ownerId, now + host.leaseTtl⟩))
    else (.refused .leaseHeld, s)
  | .release sessionId => (.accepted, s.setLease sessionId none)
  | .restart stamp => (.accepted, restart s stamp)

end Steps

end PromptForge.FlashApproval
