import PromptForge.JsonSchema
import PromptForge.PlanStepLaws

/-!
# Calls that update the plan

A call from a model is described to its provider by a schema, checked when it is parsed, and
checked once more by the policy for tools before it runs.
-/
namespace PromptForge.PlanCalls
open Json JsonSchema Runs Tables PlanSteps

def path : Schema := .text 1 1024 anyText

def stepSchema : Schema :=
  .object
    [("text", .text 1 300 anyText), ("status", .choice statuses), ("verification", .choice verifications),
      ("key", .text 0 64 isKey), ("paths", .array 0 64 true path),
      ("requirement_ids", .array 0 64 true (.text 1 128 anyText)), ("depends_on", .array 0 32 true (.text 1 64 anyText))]
    ["text", "status"]

def argumentsSchema : Schema := .object [("steps", .array 1 32 false stepSchema)] ["steps"]

inductive ParseError where
  | schemaInvalid
  | notAvailable
  | argumentsInvalid
  | typeError
  /-- Calls of other tools are parsed elsewhere. -/
  | otherTool
  deriving DecidableEq

def ParseError.message : ParseError → Option String
  | .schemaInvalid => some "product_tool_call_schema_invalid"
  | .notAvailable => some "product_tool_not_available"
  | .argumentsInvalid => some "product_tool_arguments_invalid"
  | .typeError | .otherTool => none

/-- `decode` reads a text as JSON, without repeated keys and without `NaN`; `otherTools` are the
names of the other tools. -/
structure Host where
  steps : PlanSteps.Host
  decode : String → Option Value
  otherTools : List String

structure Call where
  callId : String
  toolType : String
  arguments : Dict

variable (host : Host)

/-- `parse_tool_name`, by the wire alias or the name itself. -/
def isPlanTool (name : String) : Prop := name = "todo_write" ∨ name = "update_plan"

instance (name : String) : Decidable (isPlanTool name) := inferInstanceAs (Decidable (_ ∨ _))

/-- `_normalize_structured_arguments`: only the steps are an array in the schema. -/
def normalizeStructuredArguments (arguments : Dict) : Except ParseError Dict :=
  match arguments.get? "steps" with
  | some (.str text) =>
    if text.length ≤ 524288 ∧ text.utf8ByteSize ≤ 524288 then
      match host.decode text with
      | some (.arr items) => .ok (arguments.set "steps" (.arr items))
      | _ => .error .argumentsInvalid
    else .error .argumentsInvalid
  | _ => .ok arguments

def parseErrorOf : Refusal → ParseError
  | .typeError => .typeError
  | _ => .argumentsInvalid

def validateProductToolArguments (arguments : Dict) : Except ParseError Unit := do
  require (arguments.HasKeys ["steps"]) .argumentsInvalid
  let _ ← (validatePlanSteps host.steps none (arguments.get "steps")).mapError parseErrorOf
  .ok ()

def validated (callId toolType : String) (arguments : Dict) : Except ParseError Call := do
  require (callId ≠ "" ∧ callId.length ≤ 128 ∧ toolType ≠ "" ∧ toolType.length ≤ 64) .schemaInvalid
  require (isPlanTool toolType) (if toolType ∈ host.otherTools then .otherTool else .notAvailable)
  let arguments ← normalizeStructuredArguments host arguments
  validateProductToolArguments host arguments
  .ok ⟨callId, "update_plan", arguments⟩

def parse : Value → Except ParseError Call
  | .obj value =>
    if Dict.HasKeys value ["id", "type", "path", "content"] then
      match Dict.get value "id", Dict.get value "type", Dict.get value "path", Dict.get value "content" with
      | .str callId, .str toolType, .str path, .str content => validated host callId toolType [("path", .str path), ("content", .str content)]
      | _, _, _, _ => .error .schemaInvalid
    else if Dict.HasKeys value ["id", "type", "arguments"] then
      match Dict.get value "id", Dict.get value "type", Dict.get value "arguments" with
      | .str callId, .str toolType, .obj arguments => validated host callId toolType arguments
      | _, _, _ => .error .schemaInvalid
    else .error .schemaInvalid
  | _ => .error .schemaInvalid

inductive PolicyError where
  | notExecutable
  | requiresApproval
  | argumentsInvalid
  | typeError
  deriving DecidableEq

def PolicyError.message : PolicyError → Option (String × String)
  | .notExecutable => some ("TOOL_RUNTIME_POLICY_DENIED", "tool_not_provider_executable")
  | .requiresApproval => some ("TOOL_RUNTIME_POLICY_DENIED", "tool_requires_user_approval")
  | .argumentsInvalid => some ("TOOL_RUNTIME_PROVIDER_INVALID", "tool_arguments_invalid")
  | .typeError => none

/-- The decision of a policy for the tool; without one the tool is denied. -/
structure Policy where
  decision : Option String

def isIn (texts : List String) (value : Value) : Except PolicyError Bool := (isAmong texts value).mapError fun _ => .typeError

def validateStep : Value → Except PolicyError Unit
  | .obj step => do
    require ((Dict.get? step "text").isSome = true ∧ (Dict.get? step "status").isSome = true ∧
      ∀ entry ∈ step, entry.1 ∈ ["text", "status", "verification"]) .argumentsInvalid
    require (((Dict.get? step "text").bind str?).isSome = true ∧ Texts.strip (textOf step) ≠ "" ∧ (textOf step).length ≤ 300)
      .argumentsInvalid
    let known ← isIn statuses (Dict.get step "status")
    require (known = true) .argumentsInvalid
    let known ← isIn verifications ((Dict.get? step "verification").getD (.str "inspection"))
    require (known = true) .argumentsInvalid
  | _ => .error .argumentsInvalid

/-- `ToolPermissionPolicy.validate_call`, of a plan. -/
def validateCall (policy : Policy) (arguments : Dict) : Except PolicyError Unit := do
  let decision := policy.decision.getD "deny"
  require (decision ≠ "deny") .notExecutable
  require (decision ≠ "ask") .requiresApproval
  require (arguments.HasKeys ["steps"]) .argumentsInvalid
  match arguments.get "steps" with
  | .arr steps => do
    require (1 ≤ steps.length ∧ steps.length ≤ 32) .argumentsInvalid
    steps.forM validateStep
  | _ => .error .argumentsInvalid

end PromptForge.PlanCalls
