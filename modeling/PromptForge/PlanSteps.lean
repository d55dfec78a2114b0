import PromptForge.DepthFirst
import PromptForge.Json
import PromptForge.Texts

/-!
# Steps of a plan

A model sends the steps of its plan as JSON.
-/
namespace PromptForge.PlanSteps
open Json Runs Tables DepthFirst

inductive Refusal where
  | stepsInvalid
  | stepInvalid
  | keyInvalid
  | verificationInvalid
  | referencesInvalid
  | pathUnsafe
  | requirementUnknown
  | dependencyCycle
  | dependencyUnknown
  /-- An array or an object is in no set. -/
  | typeError
  | recursionError
  deriving DecidableEq

def Refusal.message : Refusal → Option String
  | .stepsInvalid => some "PLAN_STEPS_INVALID"
  | .stepInvalid => some "PLAN_STEP_INVALID"
  | .keyInvalid => some "PLAN_STEP_KEY_INVALID"
  | .verificationInvalid => some "PLAN_VERIFICATION_INVALID"
  | .referencesInvalid => some "PLAN_REFERENCES_INVALID"
  | .pathUnsafe => some "PLAN_PATH_UNSAFE"
  | .requirementUnknown => some "PLAN_REQUIREMENT_UNKNOWN"
  | .dependencyCycle => some "PLAN_DEPENDENCY_CYCLE"
  | .dependencyUnknown => some "PLAN_DEPENDENCY_UNKNOWN"
  | .typeError | .recursionError => none

/-- `digest` is the beginning of the hexadecimal SHA-256 of a text. -/
structure Host where
  digest : String → String

variable (host : Host)

def allowedFields : List String := ["text", "status", "verification", "key", "paths", "requirement_ids", "depends_on"]

def statuses : List String := ["pending", "in_progress", "completed", "failed", "skipped", "cancelled"]

def verifications : List String := ["inspection", "edit", "build", "simulation"]

def isAmong (texts : List String) : Value → Except Refusal Bool
  | .str text => .ok (decide (text ∈ texts))
  | .arr _ | .obj _ => .error .typeError
  | _ => .ok false

def isKeyChar (c : Char) : Bool := c.isAlphanum || c == '_' || c == '-'

def isKey (key : String) : Bool := decide (1 ≤ key.length) && decide (key.length ≤ 64) && key.toList.all isKeyChar

def isPlanPath (path : String) : Bool :=
  decide (path.toList.head? ≠ some '/') &&
    ((path.toList.splitOn '/').all fun part => decide (part ≠ ['.', '.']) && decide (part ≠ ['.']) && decide (part.head? ≠ some '.')) &&
    !path.toList.contains '\\' && !path.toList.contains ':' && !path.toList.contains '\x00' && !(decide (['/', '/'] <:+: path.toList))

def textOf (fields : Dict) : String := ((fields.get? "text").bind str?).getD ""

def keyValue (fields : Dict) : Value := (fields.get? "key").getD (.str (host.digest (textOf fields)))

def keyOf (fields : Dict) : String := (str? (keyValue host fields)).getD ""

def listOf (fields : Dict) (field : String) : Value := (fields.get? field).getD (.arr [])

def textsOf (fields : Dict) (field : String) : List String :=
  match listOf fields field with
  | .arr items => items.filterMap str?
  | _ => []

def isReference : Value → Bool
  | .str text => text != "" && decide (text.length ≤ 512)
  | _ => false

def checkReferences (fields : Dict) (field : String) (limit : ℕ) : Except Refusal Unit :=
  match listOf fields field with
  | .arr items =>
    if items.length ≤ limit ∧ items.all isReference then require (items.filterMap str?).Nodup .referencesInvalid
    else .error .referencesInvalid
  | _ => .error .referencesInvalid

def checkVerification (fields : Dict) : Except Refusal Unit :=
  match fields.get? "verification" with
  | some verification => isAmong verifications verification >>= fun known => require (known = true) .verificationInvalid
  | none => .ok ()

def checkStep (requirementIds : Option (List String)) (keys : List String) : Value → Except Refusal Dict
  | .obj fields => do
    require ((∀ entry ∈ fields, entry.1 ∈ allowedFields) ∧ ((Dict.get? fields "text").bind str?).isSome = true ∧
      1 ≤ (Texts.strip (textOf fields)).length ∧ (Texts.strip (textOf fields)).length ≤ 300) .stepInvalid
    let known ← isAmong statuses (Dict.get fields "status")
    require (known = true) .stepInvalid
    require ((str? (keyValue host fields)).isSome = true ∧ isKey (keyOf host fields) = true ∧ keyOf host fields ∉ keys) .keyInvalid
    checkVerification fields
    checkReferences fields "paths" 64
    checkReferences fields "requirement_ids" 64
    checkReferences fields "depends_on" 32
    require (∀ path ∈ textsOf fields "paths", isPlanPath path = true) .pathUnsafe
    require (∀ ids, requirementIds = some ids → textsOf fields "requirement_ids" ⊆ ids) .requirementUnknown
    .ok fields
  | _ => .error .stepInvalid

def checkSteps (requirementIds : Option (List String)) : List String → List Value → Except Refusal (List Dict)
  | _, [] => .ok []
  | keys, raw :: rest => do
    let fields ← checkStep host requirementIds keys raw
    let steps ← checkSteps requirementIds (keyOf host fields :: keys) rest
    .ok (fields :: steps)

def graphOf (steps : List Dict) : Graph String := steps.map fun fields => (keyOf host fields, textsOf fields "depends_on")

def refusalOf : Fault → Refusal
  | .cycle => .dependencyCycle
  | .unknown => .dependencyUnknown
  | .depth => .recursionError

def validatePlanSteps (requirementIds : Option (List String)) : Value → Except Refusal (List Dict)
  | .arr items =>
    if 1 ≤ items.length ∧ items.length ≤ 32 then do
      let steps ← checkSteps host requirementIds [] items
      let _ ← (visitAll (graphOf host steps)).mapError refusalOf
      .ok steps
    else .error .stepsInvalid
  | _ => .error .stepsInvalid

end PromptForge.PlanSteps
