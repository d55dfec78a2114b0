import Mathlib.Tactic.SplitIfs
import PromptForge.Tables
import PromptForge.Texts

/-!
# The memory of a project

Facts with the digests of the files they depend on.
-/
namespace PromptForge.ProjectMemory
open Tables

abbrev Text := List Char

/-- What stands at a path below the root. -/
inductive Node where
  /-- a link, or a path that a link leads out of the root -/
  | link
  | missing
  | file (content : List UInt8)
  | other

/-- `none` for a root that `resolve(strict=True)` does not find. -/
abbrev Workspace := Option (List Text → Node)

inductive Refusal where
  | valueRequired
  | rootMissing
  | pathUnsafe
  | notFile
  deriving DecidableEq

structure Entry where
  memoryId : String
  projectId : String
  kind : String
  value : String
  sourceType : String
  sourceId : String
  sourceHash : String
  verified : Bool
  confidence : ℚ
  workspaceRevision : Option String
  affectedPaths : List Text
  dependencyHashes : List (Text × String)
  boardId : Option String
  status : String
  createdAt : String
  invalidationReason : Option String
  deriving DecidableEq

section
-- `hashlib.sha256(…).hexdigest()`
variable (sha256 : List UInt8 → String)

def parts (relative : Text) : List Text := (relative.splitOn '/').filter fun part => decide (part ≠ [] ∧ part ≠ ['.'])

def isUnsafe (relative : Text) : Bool :=
  relative.head? == some '/' || (parts relative).isEmpty || (parts relative).any fun part => part == ['.', '.'] || part == ['.'] || part == []

def dependencyHash (look : List Text → Node) (relative : Text) : Except Refusal String :=
  if isUnsafe relative then .error .pathUnsafe
  else match look (parts relative) with
    | .link => .error .pathUnsafe
    | .missing => .ok "<missing>"
    | .other => .error .notFile
    | .file content => .ok (sha256 content)

def dependencyHashes (workspace : Workspace) (paths : List Text) : Except Refusal (List (Text × String)) :=
  match workspace with
  | none => .error .rootMissing
  | some look => paths.mapM fun relative => (dependencyHash sha256 look relative).map fun digest => (relative, digest)

/-! ## The store -/

def newer (a b : Entry) : Bool := decide (b.createdAt < a.createdAt ∨ b.createdAt = a.createdAt ∧ b.memoryId ≤ a.memoryId)

def memories (table : List Entry) (projectId : String) : List Entry :=
  (table.filter fun entry => entry.projectId == projectId && entry.status == "active").mergeSort newer

def remember (table : List Entry) (entry : Entry) : List Entry :=
  if (lookup Entry.memoryId table entry.memoryId).isSome then updateRow Entry.memoryId entry table else table ++ [entry]

def Entry.invalidated (reason : String) (entry : Entry) : Entry :=
  { entry with status := "invalidated", invalidationReason := some (String.ofList (reason.toList.take 256)) }

def invalidateMemory (table : List Entry) (memoryId reason : String) : List Entry :=
  updateWhere (fun entry => entry.memoryId == memoryId) (Entry.invalidated reason) table

/-! ## The service -/

/-- The arguments of `add_verified`, with the identifier and the time it draws. -/
structure Fact where
  memoryId : String
  createdAt : String
  projectId : String
  kind : String
  value : String
  sourceType : String
  sourceId : String
  sourcePayload : List UInt8
  workspaceRevision : Option String
  affectedPaths : List Text
  workspaceRoot : Option Workspace
  boardId : Option String
  confidence : ℚ

/-- `" ".join(str(value).split())[:2_000]` -/
def Fact.cleanValue (fact : Fact) : String := String.ofList ((" ".intercalate (Texts.words fact.value)).toList.take 2000)

def Fact.dependencies (fact : Fact) : Except Refusal (List (Text × String)) :=
  match fact.workspaceRoot with
  | some workspace => dependencyHashes sha256 workspace fact.affectedPaths.eraseDups
  | none => .ok []

def Fact.entry (fact : Fact) (dependencies : List (Text × String)) : Entry where
  memoryId := fact.memoryId
  projectId := fact.projectId
  kind := fact.kind
  value := fact.cleanValue
  sourceType := fact.sourceType
  sourceId := fact.sourceId
  sourceHash := sha256 fact.sourcePayload
  verified := true
  confidence := max 0 (min fact.confidence 1)
  workspaceRevision := fact.workspaceRevision
  affectedPaths := fact.affectedPaths.eraseDups
  dependencyHashes := dependencies
  boardId := fact.boardId
  status := "active"
  createdAt := fact.createdAt
  invalidationReason := none

def addVerified (fact : Fact) (table : List Entry) : Except Refusal (List Entry) :=
  if fact.cleanValue = "" then .error .valueRequired
  else (fact.dependencies sha256).map fun dependencies => remember table (fact.entry sha256 dependencies)

def differs (recorded current : Option String) : Bool :=
  recorded.getD "" != "" && current.getD "" != "" && recorded != current

structure Recall where
  projectId : String
  currentWorkspaceRevision : Option String
  boardId : Option String
  workspaceRoot : Option Workspace

def staleRevision (call : Recall) (entry : Entry) : Except Refusal Bool :=
  let stale := differs entry.workspaceRevision call.currentWorkspaceRevision && entry.affectedPaths.isEmpty
  match call.workspaceRoot with
  | none => .ok stale
  | some workspace =>
    if entry.affectedPaths = [] then .ok stale
    else if entry.dependencyHashes ≠ [] then
      (dependencyHashes sha256 workspace (entry.dependencyHashes.map Prod.fst)).map fun digests => digests != entry.dependencyHashes
    else if call.currentWorkspaceRevision.getD "" ≠ "" ∧ entry.workspaceRevision ≠ call.currentWorkspaceRevision then .ok true
    else .ok stale

/-- The loop of `active`: the rows it leaves, and what it raised. -/
def sweep (call : Recall) : List Entry → List Entry → List Entry × Option Refusal
  | [], table => (table, none)
  | entry :: rest, table =>
    match staleRevision sha256 call entry with
    | .error refusal => (table, some refusal)
    | .ok stale =>
      let staleBoard := differs entry.boardId call.boardId
      sweep call rest (if stale || staleBoard then
        invalidateMemory table entry.memoryId (if staleBoard then "board_changed" else "source_files_changed") else table)

def active (call : Recall) (table : List Entry) : List Entry × Except Refusal (List Entry) :=
  match sweep sha256 call (memories table call.projectId) table with
  | (table, some refusal) => (table, .error refusal)
  | (table, none) => (table, .ok (memories table call.projectId))

def invalidateForChange (projectId : String) (changedPaths : List Text) (newWorkspaceRevision boardId : Option String) (table : List Entry) :
    List Entry × List String :=
  (memories table projectId).foldl (fun (table, invalidated) entry =>
    let touched := entry.affectedPaths.any fun path => changedPaths.contains path
    let staleRevision := differs entry.workspaceRevision newWorkspaceRevision && touched
    let staleBoard := differs entry.boardId boardId
    if touched || staleRevision || staleBoard then
      (invalidateMemory table entry.memoryId (if staleBoard then "board_changed" else "source_files_changed"), invalidated ++ [entry.memoryId])
    else (table, invalidated)) (table, [])

def invalidateSource (projectId sourceId reason : String) (table : List Entry) : List Entry × List String :=
  (memories table projectId).foldl (fun (table, invalidated) entry =>
    if entry.sourceId ≠ sourceId then (table, invalidated)
    else (invalidateMemory table entry.memoryId reason, invalidated ++ [entry.memoryId])) (table, [])

inductive Call where
  | addVerified (fact : Fact)
  | invalidateForChange (projectId : String) (changedPaths : List Text) (newWorkspaceRevision boardId : Option String)
  | invalidateSource (projectId sourceId reason : String)
  | active (call : Recall)

/-- The workspace is edited between calls, so that each call has its own. -/
def Call.run (table : List Entry) : Call → List Entry
  | .addVerified fact => (ProjectMemory.addVerified sha256 fact table).toOption.getD table
  | .invalidateForChange projectId changed revision boardId => (ProjectMemory.invalidateForChange projectId changed revision boardId table).1
  | .invalidateSource projectId sourceId reason => (ProjectMemory.invalidateSource projectId sourceId reason table).1
  | .active call => (ProjectMemory.active sha256 call table).1

def tableAfter (calls : List Call) : List Entry := calls.foldl (Call.run sha256) []

end

end PromptForge.ProjectMemory
