import PromptForge.Capabilities
import PromptForge.PlanSteps
import PromptForge.RequirementSpans

/-!
# Plans of tool calls

A provider answers with a plan of calls.
-/
namespace PromptForge.ToolPlans
open Json Runs
open Capabilities (ToolName)
open RequirementSpans (ArgumentIssue merge splitRequirementSpans validateRequirementChecks)

inductive ParseError where
  | callSchemaInvalid
  | notAvailable
  | argumentsInvalid
  /-- `product_tool_arguments_invalid`, with the field at fault. -/
  | requirementArgument (issue : ArgumentIssue)
  | schemaInvalid
  | versionInvalid
  | summaryInvalid
  | finalHasCalls
  | emptyTurn
  | typeError
  | recursionError
  deriving DecidableEq

def ParseError.message : ParseError → Option String
  | .callSchemaInvalid => some "product_tool_call_schema_invalid"
  | .notAvailable => some "product_tool_not_available"
  | .argumentsInvalid | .requirementArgument _ => some "product_tool_arguments_invalid"
  | .schemaInvalid => some "product_toolplan_schema_invalid"
  | .versionInvalid => some "product_toolplan_version_invalid"
  | .summaryInvalid => some "product_toolplan_summary_invalid"
  | .finalHasCalls => some "product_toolplan_final_has_calls"
  | .emptyTurn => some "product_toolplan_empty_turn"
  | .typeError | .recursionError => none

/-- `decode` reads a text as JSON, without repeated keys and without `NaN`. -/
structure Host where
  steps : PlanSteps.Host
  decode : String → Option Value

def toolWireAliases : List (String × ToolName) :=
  [("read", .readFile), ("write", .writeFile), ("edit", .editFileSimple), ("list", .listFiles), ("glob", .globFiles),
    ("grep", .grepSearch), ("bash", .runCommand), ("pwsh", .runCommand), ("todo_write", .updatePlan), ("skill", .loadSkill),
    ("memory_search", .memorySearch), ("subagent", .spawnSubagent), ("present", .presentFiles),
    ("session_event_read", .sessionEventRead), ("session_event_search", .sessionEventSearch),
    ("session_trace", .sessionTrace), ("build", .buildFirmware), ("simulate", .runSimulation)]

def parseToolName (name : String) : Option ToolName :=
  match Tables.lookup Prod.fst toolWireAliases name with
  | some (_, tool) => some tool
  | none => ToolName.all.find? fun tool => tool.value = name

/-- The type that a schema declares for a property; an enumeration declares none. -/
inductive Kind where
  | string
  | integer
  | number
  | array
  | object
  | enum
  deriving DecidableEq

/-- The schema of an argument of a tool of the registry, with its defaults. -/
inductive Field where
  | string (minLength maxLength : ℕ) (pattern : String → Bool)
  | integer (minimum maximum : ℤ)
  | array (minItems maxItems : ℕ) (items : Field)

def Field.kind : Field → Kind
  | .string _ _ _ => .string
  | .integer _ _ => .integer
  | .array _ _ _ => .array

structure Definition where
  properties : List (String × Field)
  required : List String

def anyText (_ : String) : Bool := true

def text : Field := .string 1 1000 anyText

def isHexDigit (c : Char) : Bool := c.isDigit || ('a' ≤ c && c ≤ 'f') || ('A' ≤ c && c ≤ 'F')

/-- `0x[0-9a-fA-F]{8}` -/
def isAddress (address : String) : Bool :=
  match address.toList with
  | '0' :: 'x' :: digits => decide (digits.length = 8) && digits.all isHexDigit
  | _ => false

def newTools : ToolName → Option Definition
  | .projectDoctor => some ⟨[], []⟩
  | .inspectSymbols => some ⟨[("symbol", text)], ["symbol"]⟩
  | .resolveDependency => some ⟨[("query", text)], ["query"]⟩
  | .searchDocs => some ⟨[("query", text)], ["query"]⟩
  | .fetchDocs => some ⟨[("url", .string 1 2000 anyText)], ["url"]⟩
  | .validateHardwareConfig => some ⟨[], []⟩
  | .runUnitTests => some ⟨[("environment", text)], ["environment"]⟩
  | .analyzeFirmware => some ⟨[], []⟩
  | .observeSerial => some ⟨[("duration_seconds", .integer 1 15)], []⟩
  | .decodeCrash => some ⟨[("addresses", .array 1 32 (.string 0 10000 isAddress))], ["addresses"]⟩
  | .verifyAcceptance => some ⟨[], []⟩
  | _ => none

/-- The properties of `_tool_arguments_json_schema`. -/
def schemaProperties : ToolName → List (String × Kind)
  | .verifyRequirements => [("checks", .array)]
  | .listFiles => [("path", .string)]
  | .globFiles => [("pattern", .string), ("path", .string)]
  | .grepSearch => [("query", .string), ("path", .string), ("max_results", .integer)]
  | .readFile => [("path", .string), ("offset", .integer), ("limit", .integer)]
  | .writeFile => [("path", .string), ("content", .string)]
  | .editFileSimple => [("path", .string), ("old_text", .string), ("new_text", .string)]
  | .applyPatch => [("path", .string), ("patch", .string)]
  | .deleteFile => [("path", .string)]
  | .moveFile => [("path", .string), ("destination", .string)]
  | .updatePlan => [("steps", .array)]
  | .loadSkill => [("name", .string)]
  | .memorySearch => [("query", .string), ("limit", .integer)]
  | .spawnSubagent => [("role", .enum), ("task", .string)]
  | .presentFiles => [("files", .array)]
  | .sessionEventRead => [("after_sequence", .integer), ("limit", .integer)]
  | .sessionEventSearch => [("query", .string), ("limit", .integer)]
  | .sessionTrace => [("limit", .integer)]
  | .buildFirmware => [("environment", .string)]
  | .runSimulation => [("timeout_seconds", .number)]
  | .runCommand => [("argv", .array), ("timeout_seconds", .number)]
  | tool => ((newTools tool).map fun definition => definition.properties.map fun (name, field) => (name, field.kind)).getD []

def requiredKeys : ToolName → List String
  | .verifyRequirements => ["checks"]
  | .globFiles => ["pattern"]
  | .grepSearch => ["query"]
  | .readFile => ["path"]
  | .writeFile => ["path", "content"]
  | .editFileSimple => ["path", "old_text", "new_text"]
  | .applyPatch => ["path", "patch"]
  | .deleteFile => ["path"]
  | .moveFile => ["path", "destination"]
  | .updatePlan => ["steps"]
  | .loadSkill => ["name"]
  | .memorySearch => ["query"]
  | .spawnSubagent => ["role", "task"]
  | .presentFiles => ["files"]
  | .sessionEventSearch => ["query"]
  | .runCommand => ["argv"]
  | _ => []

def kindOf (tool : ToolName) (key : String) : Option Kind := (Tables.lookup Prod.fst (schemaProperties tool) key).map Prod.snd

variable (host : Host)

def decodeArgument (text : String) : Except ParseError Value := do
  require (text.length ≤ 524288 ∧ text.utf8ByteSize ≤ 524288) .argumentsInvalid
  match host.decode text with
  | some value => .ok value
  | none => .error .argumentsInvalid

def normalizeArgument (tool : ToolName) : String × Value → Except ParseError (String × Value)
  | (key, .str text) =>
    if kindOf tool key = some .array then
      decodeArgument host text >>= fun
        | .arr items => .ok (key, .arr items)
        | _ => .error .argumentsInvalid
    else if kindOf tool key = some .object then
      decodeArgument host text >>= fun
        | .obj fields => .ok (key, .obj fields)
        | _ => .error .argumentsInvalid
    else .ok (key, .str text)
  | entry => .ok entry

def normalizeStructuredArguments (tool : ToolName) (arguments : Dict) : Except ParseError Dict :=
  arguments.mapM (normalizeArgument host tool)

def checkField : Field → Value → Bool
  | .string minLength maxLength pattern, .str text =>
    decide (minLength ≤ text.length) && decide (text.length ≤ maxLength) && pattern text
  | .integer minimum maximum, .int n => decide (minimum ≤ n) && decide (n ≤ maximum)
  | .array minItems maxItems items, .arr values =>
    decide (minItems ≤ values.length) && decide (values.length ≤ maxItems) && values.all (checkField items)
  | _, _ => false

def validateNewArguments (definition : Definition) (arguments : Dict) : Except ParseError Unit := do
  require ((∀ entry ∈ arguments, entry.1 ∈ definition.properties.map Prod.fst) ∧
    ∀ key ∈ definition.required, (arguments.get? key).isSome = true) .argumentsInvalid
  arguments.forM fun (key, value) =>
    match Tables.lookup Prod.fst definition.properties key with
    | some (_, field) => require (checkField field value = true) .argumentsInvalid
    | none => .error .argumentsInvalid

def isNonblank : Value → Bool
  | .str text => decide (Texts.strip text ≠ "")
  | _ => false

def isText : Value → Bool
  | .str _ => true
  | _ => false

def isWord : Value → Bool
  | .str text => decide (text ≠ "")
  | _ => false

def isFile : Value → Bool
  | .obj file =>
    (file.all fun entry => decide (entry.1 ∈ ["path", "description"])) && ((Dict.get? file "path").map isNonblank).getD false &&
      ((Dict.get? file "description").map isText).getD true
  | _ => false

def nonblankKeys : List String := ["path", "destination", "pattern", "query", "name", "environment", "role", "task"]

def textKeys : List String := ["content", "old_text", "new_text", "patch"]

def stepsErrorOf : PlanSteps.Refusal → ParseError
  | .typeError => .typeError
  | .recursionError => .recursionError
  | _ => .argumentsInvalid

def validateTool (arguments : Dict) : ToolName → Except ParseError Unit
  | .editFileSimple => require ((arguments.get? "old_text").map isWord = some true) .argumentsInvalid
  | .applyPatch => require ((arguments.get? "patch").map isNonblank = some true) .argumentsInvalid
  | .runCommand =>
    match arguments.get "argv" with
    | .arr argv => require (argv ≠ [] ∧ argv.all isWord = true) .argumentsInvalid
    | _ => .error .argumentsInvalid
  | .updatePlan => (PlanSteps.validatePlanSteps host.steps none (arguments.get "steps")).mapError stepsErrorOf >>= fun _ => .ok ()
  | .verifyRequirements => (validateRequirementChecks (arguments.get "checks")).mapError .requirementArgument
  | .presentFiles =>
    match arguments.get "files" with
    | .arr files => require (1 ≤ files.length ∧ files.length ≤ 32 ∧ files.all isFile = true) .argumentsInvalid
    | _ => .error .argumentsInvalid
  | _ => .ok ()

def validateProductToolArguments (tool : ToolName) (arguments : Dict) : Except ParseError Unit :=
  match newTools tool with
  | some definition => validateNewArguments definition arguments
  | none => do
    require ((∀ key ∈ requiredKeys tool, (arguments.get? key).isSome = true) ∧
      ∀ entry ∈ arguments, entry.1 ∈ (schemaProperties tool).map Prod.fst) .argumentsInvalid
    require (∀ key ∈ nonblankKeys, ∀ value ∈ arguments.get? key, isNonblank value = true) .argumentsInvalid
    require (∀ key ∈ textKeys, ∀ value ∈ arguments.get? key, isText value = true) .argumentsInvalid
    validateTool host arguments tool

structure ProductToolCall where
  callId : String
  toolType : String
  arguments : Dict

def splitArguments (tool : ToolName) (arguments : Dict) : Dict :=
  if tool = .verifyRequirements then merge "checks" (splitRequirementSpans (arguments.get "checks")) arguments else arguments

def validated (callId toolType : String) (arguments : Dict) : Except ParseError ProductToolCall := do
  require (callId ≠ "" ∧ callId.length ≤ 128 ∧ toolType ≠ "" ∧ toolType.length ≤ 64) .callSchemaInvalid
  match parseToolName toolType with
  | some tool => do
    let arguments ← normalizeStructuredArguments host tool arguments
    validateProductToolArguments host tool (splitArguments tool arguments)
    .ok ⟨callId, tool.value, splitArguments tool arguments⟩
  | none => .error .notAvailable

/-- What a call says: its id, the tool and the arguments, in the first form or in the third. -/
def fieldsOf : Value → Except ParseError (String × String × Dict)
  | .obj value =>
    if Dict.HasKeys value ["id", "type", "path", "content"] then
      match Dict.get value "id", Dict.get value "type", Dict.get value "path", Dict.get value "content" with
      | .str callId, .str toolType, .str path, .str content => .ok (callId, toolType, [("path", .str path), ("content", .str content)])
      | _, _, _, _ => .error .callSchemaInvalid
    else if Dict.HasKeys value ["id", "type", "arguments"] then
      match Dict.get value "id", Dict.get value "type", Dict.get value "arguments" with
      | .str callId, .str toolType, .obj arguments => .ok (callId, toolType, arguments)
      | _, _, _ => .error .callSchemaInvalid
    else .error .callSchemaInvalid
  | _ => .error .callSchemaInvalid

namespace ProductToolCall

def parse (value : Value) : Except ParseError ProductToolCall :=
  fieldsOf value >>= fun (callId, toolType, arguments) => validated host callId toolType arguments

def toProviderDict (call : ProductToolCall) : Value :=
  .obj [("id", .str call.callId), ("type", .str call.toolType), ("arguments", .obj call.arguments)]

end ProductToolCall

structure ProductToolPlan where
  version : String
  summary : String
  toolCalls : List ProductToolCall
  final : Bool

def versions : List String := ["forgex.toolplan.v2", "forgex.toolplan.v1"]

def parseVersion : Value → Except ParseError String
  | .str version => if version ∈ versions then .ok version else .error .versionInvalid
  | .arr _ | .obj _ => .error .typeError
  | _ => .error .versionInvalid

/-- A summary may be long where `final is True`. -/
def parseSummary (final : Value) : Value → Except ParseError String
  | .str summary =>
    match final with
    | .bool true => if summary.length ≤ 16000 then .ok summary else .error .summaryInvalid
    | _ => if summary.length ≤ 512 then .ok summary else .error .summaryInvalid
  | _ => .error .summaryInvalid

namespace ProductToolPlan

def parse (maxCalls : ℤ) : Value → Except ParseError ProductToolPlan
  | .obj value => do
    require (Dict.HasKeys value ["version", "summary", "tool_calls", "final"]) .schemaInvalid
    let version ← parseVersion (Dict.get value "version")
    let summary ← parseSummary (Dict.get value "final") (Dict.get value "summary")
    match Dict.get value "tool_calls", Dict.get value "final" with
    | .arr calls, .bool final => do
      require ((calls.length : ℤ) ≤ maxCalls) .schemaInvalid
      let parsed ← calls.mapM (ProductToolCall.parse host)
      require (¬(final = true ∧ parsed.isEmpty = false)) .finalHasCalls
      require (¬(final = false ∧ parsed.isEmpty = true)) .emptyTurn
      .ok ⟨version, summary, parsed, final⟩
    | _, _ => .error .schemaInvalid
  | _ => .error .schemaInvalid

/-- The payload of a plan, with its calls as `to_provider_dict` writes them. -/
def toProviderDict (plan : ProductToolPlan) : Value :=
  .obj [("version", .str plan.version), ("summary", .str plan.summary),
    ("tool_calls", .arr (plan.toolCalls.map ProductToolCall.toProviderDict)), ("final", .bool plan.final)]

end ProductToolPlan

end PromptForge.ToolPlans
