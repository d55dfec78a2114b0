import PromptForge.Json
import PromptForge.RequestText
import PromptForge.Worklist

/-!
# The units of a review

A reviewer reads the files that a requirement cites and the project files that these include, in
units of a bounded size. A path and the text of a file are lists of characters here.
-/
namespace PromptForge.ReviewUnits
open Regex Runs TaskContracts Worklist

abbrev Path := List Char

/-- What `read_file` does: it returns a text or something else, raises one of the errors that are
    caught for an include, or another one. -/
inductive Reading where
  | text (content : List Char)
  | other
  | unreadable
  | raised

structure Host where
  readFile : Path → Reading
  sha256 : List Char → String

inductive Refusal where
  | referencesIncomplete
  | dependencyLimit
  | lineTooLarge
  | unitLimit
  | unread
  | keyError
  | typeError
  | stopIteration
  deriving DecidableEq

def Refusal.message : Refusal → Option String
  | .referencesIncomplete => some "REQUIREMENT_REFERENCES_INCOMPLETE"
  | .dependencyLimit => some "SEMANTIC_REVIEW_DEPENDENCY_LIMIT_EXCEEDED"
  | .lineTooLarge => some "SEMANTIC_REVIEW_SOURCE_LINE_TOO_LARGE"
  | .unitLimit => some "SEMANTIC_REVIEW_UNIT_LIMIT_EXCEEDED"
  | .unread | .keyError | .typeError | .stopIteration => none

structure Requirement where
  id : String
  fields : Json.Dict

/-- The check of a requirement in the report, with the paths that its evidence cites. -/
structure Check where
  id : String
  evidence : List Path
  fields : Json.Dict

structure Report where
  referencesValid : Bool
  checks : List Check

def dirname (path : Path) : Path :=
  let head := path.rdropWhile (· != '/')
  if head.all (· == '/') then head else head.rdropWhile (· == '/')

def joined (path other : Path) : Path :=
  if other.head? = some '/' then other
  else if path = [] ∨ path.getLast? = some '/' then path ++ other
  else path ++ '/' :: other

/-- The components that stay, from the last; `absolute` where the path begins with a slash. -/
def components (absolute : Bool) (kept : List Path) (component : Path) : List Path :=
  if component = [] ∨ component = ['.'] then kept
  else if component ≠ ['.', '.'] ∨ (absolute = false ∧ kept = []) ∨ kept.head? = some ['.', '.'] then component :: kept
  else kept.tail

def normpath (path : Path) : Path :=
  let slashes := (path.takeWhile (· == '/')).length
  let initial := if slashes = 2 then 2 else min slashes 1
  let kept := (path.splitOn '/').foldl (components (initial != 0)) []
  let whole := List.replicate initial '/' ++ List.intercalate ['/'] kept.reverse
  if whole = [] then ['.'] else whole

/-- `^\s*#\s*include\s+"([^"\r\n]+)"` -/
def includePattern : Pattern :=
  seqs [.place fun before _ => before.all (· == '\n'), star space, among "#", star space, exactly "include", plus space, among "\"",
    .group 1 (plus (.char fun c => !"\"\r\n".toList.contains c)), among "\""]

def includes (text : List Char) : List Path := (findAll includePattern text).map (Found.group · 1)

def outside (path : Path) : Bool := path.take 3 == "../".toList || path.head? == some '/' || path == "..".toList

def candidates (path included : Path) : List Path :=
  ([normpath (joined (dirname path) included), normpath included, normpath ("include/".toList ++ included)].eraseDups).filter fun candidate => !outside candidate

variable (host : Host)

def firstText : List Path → Except Refusal (Option Path)
  | [] => .ok none
  | candidate :: rest =>
    match host.readFile candidate with
    | .text _ => .ok (some candidate)
    | .other | .unreadable => firstText rest
    | .raised => .error .unread

def resolve (path included : Path) : Except Refusal (Option Path) := firstText host (candidates path included)

def textOf (path : Path) : Except Refusal (List Char) :=
  match host.readFile path with
  | .text content => .ok content
  | .other => .error .typeError
  | .unreadable | .raised => .error .unread

def readCited (path : Path) : Except Refusal Unit :=
  match host.readFile path with
  | .text _ | .other => .ok ()
  | .unreadable | .raised => .error .unread

def cited (report : Report) : List Path := report.checks.flatMap Check.evidence

def sourceWays : Ways Path Path Refusal where
  items path := (textOf host path).map includes
  target path included := resolve host path included

def sorted (paths : List Path) : List Path := paths.dedup.insertionSort fun a b => String.ofList a ≤ String.ofList b

structure Dependencies where
  path : Path
  dependencies : List Path
  unresolved : List Path

def dependenciesOf (path : Path) : Except Refusal Dependencies := do
  let text ← textOf host path
  let found ← (includes text).mapM fun included => (resolve host path included).map fun target => (included, target)
  return ⟨path, sorted (found.filterMap Prod.snd), sorted ((found.filter fun item => item.2.isNone).map Prod.fst)⟩

/-- `_source_dependencies`. -/
def sourceDependencies (report : Report) : Except Refusal (List Dependencies) := do
  let sources := (cited report).eraseDups
  sources.forM (readCited host)
  let sources ← explore (sourceWays host) (some 128) .dependencyLimit (max sources.length 128) sources 0
  sources.mapM (dependenciesOf host)

def size (text : List Char) : ℕ := (text.map Char.utf8Size).sum

/-- Lines of a file that go into one unit. -/
structure Span where
  startLine : ℕ
  endLine : ℕ
  source : List Char
  deriving DecidableEq

def spans (number start : ℕ) (chunk : List Char) : List Line → Except Refusal (List Span)
  | [] => .ok [⟨start, number - 1, chunk⟩]
  | line :: lines => do
    require (size line ≤ 64000) .lineTooLarge
    if chunk ≠ [] ∧ 64000 < size (chunk ++ line) then
      let rest ← spans (number + 1) number line lines
      return ⟨start, number - 1, chunk⟩ :: rest
    else spans (number + 1) start (chunk ++ line) lines

structure Part extends Span where
  requirement : Requirement
  check : Check
  path : Path

structure ReviewUnit extends Part where
  id : String

def fileParts (requirement : Requirement) (check : Check) (path : Path) : Except Refusal (List Part) := do
  let text ← textOf host path
  let found ← spans 1 1 [] (splitLinesKeeping text)
  return found.map fun span => ⟨span, requirement, check, path⟩

def graphWays (graph : List Dependencies) : Ways Path Path Refusal where
  items path := ((graph.find? (·.path = path)).map Dependencies.dependencies).elim (.error .keyError) .ok
  target _ next := .ok (some next)

def requirementParts (report : Report) (graph : List Dependencies) (requirement : Requirement) : Except Refusal (List Part) := do
  match report.checks.find? (·.id = requirement.id) with
  | none => .error .stopIteration
  | some check => do
    let paths ← explore (graphWays graph) none .dependencyLimit graph.length (sorted check.evidence) 0
    let parts ← paths.mapM (fileParts host requirement check)
    return parts.flatten

structure IndexEntry extends Dependencies where
  sha256 : String
  lines : ℕ

def indexEntry (node : Dependencies) : Except Refusal IndexEntry := do
  let text ← textOf host node.path
  return ⟨node, host.sha256 text, (splitLines text).length⟩

def numbered (parts : List Part) : List ReviewUnit := parts.mapIdx fun i part => ⟨part, "unit-" ++ toString (i + 1)⟩

def boundedReviewUnits (requirements : List Requirement) (report : Report) : Except Refusal (List ReviewUnit × List IndexEntry) := do
  require report.referencesValid .referencesIncomplete
  let graph ← sourceDependencies host report
  let index ← graph.mapM (indexEntry host)
  let parts ← requirements.mapM (requirementParts host report graph)
  let units := numbered parts.flatten
  require (units ≠ [] ∧ units.length ≤ 32) .unitLimit
  return (units, index)

end PromptForge.ReviewUnits
