import Mathlib.Data.List.Sort
import PromptForge.ChangeSetLaws

/-!
# Making a change set

The files of a stage are compared with a snapshot of the workspace.
-/
namespace PromptForge.ChangeSetCreation
open Runs Tables ChangeSets

/-- What a host compares names by (`os.path.normcase`), and the digests. -/
structure Host where
  normcase : String → String
  alike : ∀ a b, normcase a = normcase b → isForbidden a = isForbidden b
  hash : Bytes → String
  treeHash : (Path → Option Bytes) → String
  manifestHash : List (Path × Option Bytes) → String

/-- A snapshot of a workspace: the digests of its safe files. -/
structure Snapshot where
  root : String
  files : List (Path × String)
  treeHash : String

inductive Refusal where
  | path (problem : Problem)
  | baselineMismatch
  | deleteInvalid
  | extraFiles
  | noChanges
  | draftLimit
  | draftNotReady
  deriving DecidableEq

def Refusal.code : Refusal → Option String
  | .path problem => problem.code
  | .baselineMismatch => some "CHANGE_BASELINE_MISMATCH"
  | .deleteInvalid => some "CHANGE_DELETE_INVALID"
  | .extraFiles => some "CHANGE_EXTRA_FILES"
  | .noChanges => some "CHANGE_NO_CHANGES"
  | .draftLimit => some "CHANGE_DRAFT_LIMIT"
  | .draftNotReady => some "CHANGE_DRAFT_NOT_READY"

def internalFiles : List Path := [[".promptforge-project.json"]]

variable (host : Host)

def lstrip (part : String) : String := String.ofList (part.toList.dropWhile Texts.isSpace)

def rstrip (part : String) : String := String.ofList (part.toList.rdropWhile Texts.isSpace)

def strip (path : Path) : Path := (path.modifyHead lstrip).modifyLast rstrip

def isSafeRelative (path : Path) : Bool := isSafe (strip path)

def isShown (path : Path) : Bool := isSafeRelative path && isCounted path

def shown (disk : Disk) (path : Path) : Option Bytes := if isShown path then contentOf (node disk path) else none

def key (path : Path) : Path := path.map host.normcase

def keyed (disk : Disk) : Disk := disk.map fun row => (key host row.1, row.2)

def joined (path : Path) : String := "/".intercalate path

def sorted (paths : List Path) : List Path := paths.dedup.insertionSort fun a b => joined a ≤ joined b

def filesOf (disk : Disk) : List Path :=
  ((disk.filter fun row => isCounted row.1 && (contentOf (node disk row.1)).isSome).map Prod.fst).dedup

def walk (disk : Disk) : Except Problem (List Path) := if maxEntries < entries disk then .error .entryLimit else .ok (filesOf disk)

def inspectWorkspace (root : String) (disk : Disk) : Except Problem Snapshot :=
  (walk disk).map fun paths =>
    ⟨root, (paths.filter isSafeRelative).map fun path => (path, host.hash ((contentOf (node disk path)).getD [])),
      host.treeHash (shown disk)⟩

def Snapshot.hashOf (baseline : Snapshot) (path : Path) : Option String := (lookup Prod.fst baseline.files path).map Prod.snd

def canonical (known : List Path) (path : Path) : Except Refusal Path :=
  match pathProblem (strip path) with
  | some problem => .error (.path problem)
  | none => .ok ((known.find? fun q => decide (key host q = key host (strip path))).getD (strip path))

def stagedChange (stage : Disk) (baseline : Snapshot) (relative : Path) : Except Refusal (Option ChangedFile) :=
  if !isSafeRelative relative then .error (.path .pathUnsafe)
  else
    match node (keyed host stage) (key host relative) with
    | none => .error (.path .os)
    | some .directory => .error (.path .pathInvalid)
    | some (.file content) =>
      match baseline.hashOf relative with
      | none => .ok (some ⟨relative, .created, none, some (host.hash content)⟩)
      | some previous =>
        if previous = host.hash content then .ok none
        else .ok (some ⟨relative, .modified, some previous, some (host.hash content)⟩)

/-- What a deleted path changes; creating a file and deleting it changes nothing. -/
def deletedChange (baseline : Snapshot) (relative : Path) : Option ChangedFile :=
  (baseline.hashOf relative).map fun previous => ⟨relative, .deleted, some previous, none⟩

def changesOf (stage : Disk) (baseline : Snapshot) (authorized deleted : List Path) : Except Refusal (List ChangedFile) := do
  let walked ← (walk stage).mapError Refusal.path
  let found := walked.filter fun path => decide (path ∉ internalFiles)
  let known := (baseline.files.map Prod.fst).reverse ++ found
  let staged ← found.mapM (canonical host known)
  let authorized ← (authorized.filter fun path => decide (path ∉ internalFiles)).mapM (canonical host known)
  let deleted ← deleted.mapM (canonical host known)
  require (deleted ⊆ authorized ∧ ∀ path ∈ deleted, path ∉ staged) .deleteInvalid
  require (staged ⊆ authorized) .extraFiles
  let written ← (sorted staged).mapM (stagedChange host stage baseline)
  let changed := written.filterMap id ++ (sorted deleted).filterMap (deletedChange baseline)
  require (changed ≠ []) .noChanges
  .ok changed

def settingOf (stage : Disk) (baseline : Snapshot) (changed : List ChangedFile) : Setting where
  changedFiles := changed.map fun item => { item with path := key host item.path }
  baseWorkspaceHash := baseline.treeHash
  stagedManifestHash := ""
  stage := node (keyed host stage)
  hash := host.hash
  treeHash := host.treeHash
  manifestHash := host.manifestHash

def createFromStage (active : String) (stage : Disk) (baseline : Snapshot) (authorized deleted : List Path) : Except Refusal Setting := do
  require (baseline.root = active) .baselineMismatch
  let changed ← changesOf host stage baseline authorized deleted
  let p := settingOf host stage baseline changed
  let files ← (manifest p).mapError Refusal.path
  .ok { p with stagedManifestHash := host.manifestHash files }

end PromptForge.ChangeSetCreation
