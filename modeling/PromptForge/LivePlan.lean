import PromptForge.Json
import PromptForge.PublicText
import PromptForge.Runs

/-!
# Live plans

The plan that a user sees while an agent works.
-/
namespace PromptForge.LivePlan
open Json Runs Tables

inductive Status where
  | pending
  | inProgress
  | completed
  | failed
  | skipped
  | cancelled
  deriving DecidableEq

def Status.text : Status → String
  | .pending => "pending"
  | .inProgress => "in_progress"
  | .completed => "completed"
  | .failed => "failed"
  | .skipped => "skipped"
  | .cancelled => "cancelled"

def Status.all : List Status := [.pending, .inProgress, .completed, .failed, .skipped, .cancelled]

/-- A status that is not known is `pending`. -/
def statusOf (text : String) : Status := (Status.all.find? fun status => status.text = text).getD .pending

/-- An array or an object cannot be looked up in a `dict` or a `set`. -/
inductive TypeError where
  | unhashable
  | notIterable
  deriving DecidableEq

def isHashable : Value → Bool
  | .arr _ | .obj _ => false
  | _ => true

/-- `more` are the entries of an item that its step carries on; its key was looked up. -/
structure Step where
  identity : String
  text : String
  status : Status
  evidence : List String
  evidenceLabels : List String
  verification : String
  more : Dict
  hashable : isHashable (Dict.get more "key") = true

/-- Tables by the identities of steps; a step without a row has the empty list. -/
structure Evidence where
  calls : String → List String
  tools : String → List String
  labels : String → List String

structure Plan where
  planId : String
  revision : ℕ
  steps : List Step
  evidence : Evidence
  /-- How many random identifiers were drawn. -/
  drawn : ℕ

/-- `display` is `str`, of what is not a text. -/
structure Host where
  unicode : Regex.Unicode
  uuid : ℕ → String
  display : Value → String

variable (host : Host)

def strOf : Value → String
  | .str text => text
  | value => host.display value

def start : Plan := ⟨"plan-" ++ host.uuid 0, 0, [], ⟨fun _ => [], fun _ => [], fun _ => []⟩, 1⟩

def activeStep (plan : Plan) : Option String :=
  (plan.steps.find? fun step => step.status = .inProgress).map Step.identity

def toolLabels : List (String × String) :=
  [("read_file", "Read file"), ("build_firmware", "Built firmware"), ("run_simulation", "Ran simulation"), ("write_file", "Wrote file"),
    ("edit_file_simple", "Edited file"), ("apply_patch", "Applied patch"), ("grep_search", "Searched project"),
    ("list_files", "Listed files"), ("glob_files", "Found files")]

/-- `str.capitalize`, of the name of a tool, which is in ASCII. -/
def capitalize : List Char → List Char
  | [] => []
  | c :: rest => c.toUpper :: rest.map Char.toLower

def labelOf (tool : String) : String :=
  (toolLabels.lookup tool).getD (String.ofList (capitalize (tool.toList.map fun c => if c = '_' then ' ' else c)))

def Evidence.record (evidence : Evidence) (identity call tool : String) : Evidence where
  calls := Function.update evidence.calls identity (evidence.calls identity ++ [call])
  tools := Function.update evidence.tools identity (tool :: evidence.tools identity)
  labels := Function.update evidence.labels identity (evidence.labels identity ++ [labelOf tool])

def observe (plan : Plan) (call : String) (success : Bool) (tool : String) : Plan :=
  match activeStep plan with
  | some identity =>
    if success = true ∧ identity ≠ "" ∧ call ∉ plan.evidence.calls identity then
      { plan with evidence := plan.evidence.record identity call tool }
    else plan
  | none => plan

def keyOf (step : Step) : Value := Dict.get step.more "key"

/-- `previous_keys.get(key)`; of steps with one key the last is meant. -/
def previousByKey (steps : List Step) (key : Value) : Option Step :=
  steps.reverse.find? fun step => truthy (keyOf step) && same (keyOf step) key

def previousByText (steps : List Step) (text : String) : Option Step := steps.reverse.find? fun step => step.text = text

def previous (steps : List Step) (item : Dict) (text : String) : Option Step :=
  (previousByKey steps (item.get "key")).or (previousByText steps text)

def lastOnes (xs : List String) : List String := xs.drop (xs.length - 32)

def required? (verification : String) : Option (List String) :=
  if verification = "build" then some ["build_firmware"]
  else if verification = "simulation" then some ["run_simulation"]
  else if verification = "edit" then some ["write_file", "edit_file_simple", "apply_patch"]
  else none

def meets (verification : String) (tools : List String) : Bool :=
  match required? verification with
  | some required => required.any tools.contains
  | none => true

def verificationOf (old : Option Step) (item : Dict) : String :=
  let asked := item.get "verification"
  if truthy asked then strOf host asked
  else
    let kept := (old.map Step.verification).getD ""
    if kept ≠ "" then kept
    else if truthy (item.get "paths") then "edit" else "inspection"

def nextStatus (old : Option Step) (asked : Status) (verified : Bool) (inProgress : Bool) : Status :=
  let was := old.map Step.status
  let granted :=
    if asked = .completed ∧ !verified ∧ was ≠ some .completed then
      if was = some .inProgress then .inProgress else .pending
    else asked
  let kept := if was = some .completed then .completed else granted
  if kept = .inProgress ∧ inProgress then .pending else kept

def carried : List String := ["key", "paths", "requirement_ids", "depends_on"]

def entriesOf (fields : List String) (item : Dict) : Dict := fields.filterMap fun field => (item.get? field).map fun value => (field, value)

def moreOf (item : Dict) : Dict := entriesOf carried item

lemma get?_entriesOf (fields : List String) (item : Dict) (k : String) :
    Dict.get? (entriesOf fields item) k = if k ∈ fields then item.get? k else none := by
  induction fields with
  | nil => rfl
  | cons field fields ih =>
    cases hfield : item.get? field with
    | none =>
      have hsame : entriesOf (field :: fields) item = entriesOf fields item := by simp [entriesOf, hfield]
      rw [hsame, ih]
      by_cases hk : k = field
      · simp [hk, hfield]
      · simp [hk]
    | some value =>
      have hsame : entriesOf (field :: fields) item = (field, value) :: entriesOf fields item := by simp [entriesOf, hfield]
      rw [hsame]
      by_cases hk : k = field
      · subst hk
        rw [if_pos (List.mem_cons_self ..), hfield]
        simp [Dict.get?, lookup]
      · simpa [hk, Ne.symm hk, Dict.get?, lookup] using ih

lemma get_moreOf (item : Dict) : Dict.get (moreOf item) "key" = item.get "key" := by
  unfold Dict.get
  rw [moreOf, get?_entriesOf, if_pos (by simp [carried])]

/-- `public_text(str(item.get("text", "")), 300).strip()` -/
def textOf (item : Dict) : String :=
  Texts.strip (String.ofList (PublicText.publicText host.unicode (strOf host ((item.get? "text").getD (.str ""))).toList 300))

def stepOf (plan : Plan) (old : Option Step) (identity : String) (item : Dict) (hkey : isHashable (item.get "key") = true) (text : String)
    (inProgress : Bool) : Step :=
  let evidence := lastOnes (plan.evidence.calls identity)
  let verification := verificationOf host old item
  let verified := decide (evidence ≠ []) && meets verification (plan.evidence.tools identity)
  { identity, text, evidence, verification
    status := nextStatus old (statusOf (strOf host ((item.get? "status").getD (.str "pending")))) verified inProgress
    evidenceLabels := lastOnes (plan.evidence.labels identity)
    more := moreOf item
    hashable := by rwa [get_moreOf] }

structure Draft where
  steps : List Step
  drawn : ℕ

def addItem (plan : Plan) (draft : Draft) : Value → Except TypeError Draft
  | .obj item =>
    let text := textOf host item
    if text = "" ∨ draft.steps.any (fun step => step.text = text) then .ok draft
    else if hkey : isHashable (Dict.get item "key") = true then
      let inProgress := draft.steps.any fun step => step.status = .inProgress
      match previous plan.steps item text with
      | some old => .ok ⟨draft.steps ++ [stepOf host plan (some old) old.identity item hkey text inProgress], draft.drawn⟩
      | none => .ok ⟨draft.steps ++ [stepOf host plan none ("step-" ++ host.uuid draft.drawn) item hkey text inProgress], draft.drawn + 1⟩
    else .error .unhashable
  | _ => .ok draft

def itemsOf : Value → List Value
  | .arr items => items
  | _ => []

def setAside (step : Step) : Step := { step with status := if step.status = .completed then .completed else .skipped }

def keepOld (steps : List Step) (old : Step) : List Step :=
  if steps.any fun step => step.identity = old.identity then steps else steps ++ [setAside old]

def update (plan : Plan) (steps : Value) : Except TypeError Plan := do
  let draft ← (itemsOf steps).foldlM (addItem host plan) ⟨[], plan.drawn⟩
  .ok { plan with
    revision := plan.revision + 1
    steps := (plan.steps.foldl keepOld draft.steps).take 64
    drawn := draft.drawn }

def nameOf (step : Step) : Value := (Dict.get? step.more "key").getD (.str step.identity)

def membersOf : Value → Except TypeError (List Value)
  | .arr items => if items.all isHashable then .ok items else .error .unhashable
  | .str text => .ok (text.toList.map fun c => .str (String.singleton c))
  | .obj entries => .ok (entries.map fun entry => .str entry.1)
  | _ => .error .notIterable

def isIn (values : List Value) (value : Value) : Bool := values.any fun other => same other value

def isTouched (paths : Option (List Value)) (step : Step) : Except TypeError Bool :=
  match paths with
  | none => .ok true
  | some paths =>
    if step.verification = "build" ∨ step.verification = "simulation" then .ok true
    else (membersOf ((Dict.get? step.more "paths").getD (.arr []))).map fun members => members.any (isIn paths)

def addTouched (paths : Option (List Value)) (affected : List Value) (step : Step) : Except TypeError (List Value) :=
  (isTouched paths step).map fun touched => if touched then nameOf step :: affected else affected

def addDependent (affected : List Value) (step : Step) : Except TypeError (List Value) :=
  (membersOf ((Dict.get? step.more "depends_on").getD (.arr []))).map fun members =>
    if members.any (isIn affected) then nameOf step :: affected else affected

def addDependents (steps : List Step) : ℕ → List Value → Except TypeError (List Value)
  | 0, affected => .ok affected
  | rounds + 1, affected => steps.foldlM addDependent affected >>= addDependents steps rounds

def affectedBy (paths : Value) (steps : List Step) : Except TypeError (List Value) := do
  let paths ← match paths with
    | .null => .ok none
    | paths => (membersOf paths).map some
  let touched ← steps.foldlM (addTouched paths) []
  addDependents steps steps.length touched

def reopen (step : Step) : Step :=
  { step with status := if step.status = .completed then .pending else step.status, evidence := [], evidenceLabels := [] }

def Evidence.forget (evidence : Evidence) (identities : List String) : Evidence where
  calls identity := if identity ∈ identities then [] else evidence.calls identity
  tools identity := if identity ∈ identities then [] else evidence.tools identity
  labels identity := if identity ∈ identities then [] else evidence.labels identity

def reached (affected : List Value) (step : Step) : Bool := isIn affected (nameOf step)

def invalidate (plan : Plan) (paths : Value) : Except TypeError Plan := do
  let affected ← affectedBy paths plan.steps
  .ok { plan with
    steps := plan.steps.map fun step => if reached affected step then reopen step else step
    evidence := plan.evidence.forget ((plan.steps.filter (reached affected)).map Step.identity) }

inductive Action where
  | update (steps : Value)
  | observe (call : String) (success : Bool) (tool : String)
  | invalidate (paths : Value)

def settle (plan : Plan) : Except TypeError Plan → Option TypeError × Plan
  | .ok plan' => (none, plan')
  | .error error => (some error, plan)

def step (plan : Plan) : Action → Option TypeError × Plan
  | .update steps => settle plan (update host plan steps)
  | .observe call success tool => (none, observe plan call success tool)
  | .invalidate paths => settle plan (invalidate plan paths)

end PromptForge.LivePlan
