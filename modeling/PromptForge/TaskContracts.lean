import PromptForge.RequestText
import PromptForge.Runs

/-!
# Task contracts

The requirements of a request, numbered, and the revision of a contract by a later
request of the same task: what the request corrects is superseded, the rest is
inherited, and what is new is numbered on from the highest id that the contract
still remembers.
-/
namespace PromptForge.TaskContracts
open Runs

structure Host where
  sha256 : List Char → String
  unicode : Regex.Unicode

/-- A requirement; its id is the number in `req-<id>`. -/
structure Requirement where
  id : ℕ
  stableKey : String
  text : List Char
  supersededByRequest : Option (List Char)
  deriving DecidableEq

structure Contract where
  projectId : String
  sessionId : Option String
  workspaceRoot : String
  request : List Char
  requirements : List Requirement
  supersededRequirements : List Requirement
  exclusions : List Line
  supersededExclusions : List Line
  requestContext : List Line

/-- A request for a task; `workspace` is the resolved path, none when there is no such
    folder. -/
structure Call where
  request : List Char
  projectId : String
  sessionId : Option String
  workspace : Option String

inductive ContractError where
  | requestInvalid
  | requirementLimitReached
  /-- `FileNotFoundError`, from `workspace.resolve(strict=True)` -/
  | workspaceMissing
  deriving DecidableEq

def ContractError.text : ContractError → String
  | .requestInvalid => "TASK_REQUEST_INVALID"
  | .requirementLimitReached => "TASK_REQUIREMENT_LIMIT_REACHED"
  | .workspaceMissing => "FileNotFoundError"

variable (host : Host)

def validRequest (request : List Char) : Prop := stripped request ≠ [] ∧ request.length ≤ 64000

instance (request : List Char) : Decidable (validRequest request) := inferInstanceAs (Decidable (_ ∧ _))

/-- The active lines of the specification of a request, and its exclusions. -/
def partitionRequest (request : List Char) : List Line × List Line :=
  partitionSpecification host.unicode (specification host.unicode request)

def content (request : List Char) : List (List Char) × List Line :=
  requirementContent host.unicode none [] (partitionRequest host request).1

def requested (request : List Char) : List Requirement :=
  (content host request).1.mapIdx fun i text => ⟨i + 1, host.sha256 text, text, none⟩

def resolve (workspace : Option String) : Except ContractError String :=
  match workspace with
  | some root => .ok root
  | none => .error .workspaceMissing

def createTaskContract (call : Call) : Except ContractError Contract := do
  require (validRequest call.request) .requestInvalid
  let root ← resolve call.workspace
  return {
    projectId := call.projectId
    sessionId := call.sessionId
    workspaceRoot := root
    request := call.request
    requirements := requested host call.request
    supersededRequirements := []
    exclusions := (partitionRequest host call.request).2
    supersededExclusions := []
    requestContext := (content host call.request).2 }

def SameTask (previous : Contract) (call : Call) : Prop :=
  previous.projectId = call.projectId ∧ some previous.workspaceRoot = call.workspace ∧
    previous.sessionId = call.sessionId

instance (previous : Contract) (call : Call) : Decidable (SameTask previous call) :=
  inferInstanceAs (Decidable (_ ∧ _))

/-- Whether a request corrects a requirement: it names it to be replaced, or assigns its slot
    again. -/
def corrects (request : List Char) (item : Requirement) : Bool :=
  (correctionTargets host.unicode (specification host.unicode request)).any (mentionsTarget item.text) ||
    (requested host request).any fun new => sameAssignmentSlot host.unicode item.text new.text

def inherited (previous : Contract) (request : List Char) : List Requirement :=
  previous.requirements.filter fun item => !corrects host request item

def supersede (request : List Char) (item : Requirement) : Requirement :=
  { item with supersededByRequest := some (request.take 500) }

def superseded (previous : Contract) (request : List Char) : List Requirement :=
  previous.supersededRequirements ++
    (previous.requirements.filter (corrects host request)).map (supersede request)

def highestId (items : List Requirement) : ℕ := items.foldr (fun item n => max item.id n) 0

/-- The items whose text is not known yet, numbered on from `last`. -/
def additions (last : ℕ) (known : List String) : List Requirement → List Requirement
  | [] => []
  | item :: rest =>
    if item.stableKey ∈ known then additions last known rest
    else { item with id := last + 1 } :: additions (last + 1) (item.stableKey :: known) rest

def added (previous : Contract) (request : List Char) : List Requirement :=
  let inherited := inherited host previous request
  additions (highestId (inherited ++ superseded host previous request)) (inherited.map (·.stableKey))
    (requested host request)

def allows (request : List Char) (exclusion : Line) : Bool :=
  (newlyAllowedTargets host.unicode (partitionRequest host request).1).any (mentionsTarget exclusion)

def reviseTaskContract (previous : Contract) (call : Call) : Except ContractError Contract := do
  let current ← createTaskContract host call
  if SameTask previous call then
    let inherited := inherited host previous call.request
    require (inherited.length + current.requirements.length ≤ 64) .requirementLimitReached
    return { current with
      requirements := inherited ++ added host previous call.request
      requestContext := (previous.requestContext ++ current.requestContext).eraseDups
      supersededRequirements := (superseded host previous call.request).rtake 64
      exclusions := (previous.exclusions.filter (fun exclusion => !allows host call.request exclusion) ++
        current.exclusions).eraseDups
      supersededExclusions := (previous.supersededExclusions ++
        previous.exclusions.filter (allows host call.request)).rtake 64 }
  else return current

/-- A revision that is refused leaves the task with the contract it has. -/
def revise (previous : Contract) (call : Call) : Except ContractError Unit × Contract :=
  match reviseTaskContract host previous call with
  | .error error => (.error error, previous)
  | .ok revised => (.ok (), revised)

def Contract.items (c : Contract) : List Requirement := c.requirements ++ c.supersededRequirements

end PromptForge.TaskContracts
