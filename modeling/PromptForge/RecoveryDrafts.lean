import PromptForge.ChangeSetCreation
import PromptForge.ChangeSetUndo

/-!
# Drafts of failed runs

What a failed run changed is copied into a small stage of its own, with a change set that cannot
be applied.
-/
namespace PromptForge.RecoveryDrafts
open Runs Tables ChangeSets ChangeSetCreation ChangeSetUndo

local instance lawfulPath : LawfulBEq Path := inferInstance

variable (host : Host)

def contentAt (disk : Disk) (path : Path) : Bytes := (contentOf (node disk path)).getD []

/-- `shutil.copy2` writes into a directory that it is given. -/
def copyTarget (disk : Disk) (path : Path) : Path :=
  if node disk path = some .directory then path ++ [path.getLast?.getD ""] else path

/-- `mkdir` of the directories above a file, and `shutil.copy2`. -/
def copyTo (disk : Disk) (path : Path) (content : Bytes) : Except Refusal Disk :=
  match mkdirs none (fun touch => .own (.file path touch)) disk path.dropLast.inits with
  | .error _ => .error (.path .os)
  | .ok made =>
    let target := copyTarget made path
    if node made target = some .directory then .error (.path .os)
    else .ok (replaceRow Prod.fst (target, .file content) made)

def maxDraftPaths : ℕ := 100

def maxDraftBytes : ℕ := 20000000

/-- A file of the stage that the snapshot does not have, or has otherwise. -/
def isChanged (stage : Disk) (baseline : Snapshot) (path : Path) : Bool :=
  decide (path ∉ internalFiles) && decide (baseline.hashOf path ≠ some (host.hash (contentAt stage path)))

def draftPaths (stage : Disk) (baseline : Snapshot) : List Path → List Path → ℕ → Except Refusal (List Path)
  | [], paths, _ => .ok paths
  | relative :: rest, paths, total =>
    if !isChanged host stage baseline relative then draftPaths stage baseline rest paths total
    else if !isSafeRelative relative then .error (.path .pathForbidden)
    else if maxDraftPaths < paths.length + 1 ∨ maxDraftBytes < total + (contentAt stage relative).length then .error .draftLimit
    else draftPaths stage baseline rest (paths ++ [relative]) (total + (contentAt stage relative).length)

def deletedPaths (stage : Disk) (baseline : Snapshot) : List Path :=
  (baseline.files.map Prod.fst).filter fun path => decide (path ∉ filesOf stage)

structure ReviewDraft where
  root : String
  changes : Setting

def createReviewDraft (root : String) (stage : Disk) (baseline : Snapshot) : Except Refusal ReviewDraft := do
  let walked ← (walk stage).mapError Refusal.path
  let paths ← draftPaths host stage baseline walked [] 0
  let deleted := deletedPaths stage baseline
  require (paths.length + deleted.length ≤ maxDraftPaths ∧ ∀ path ∈ deleted, isSafeRelative path = true) .draftLimit
  let compact ← paths.foldlM (fun disk path => copyTo disk path (contentAt stage path)) []
  let changes ← createFromStage host root compact baseline (paths ++ deleted) deleted
  .ok ⟨root, changes⟩

def materializeFile (p : Setting) (target : Disk) (item : ChangedFile) : Except Refusal Disk :=
  match pathProblem item.path with
  | some problem => .error (.path problem)
  | none =>
    match item.changeType with
    | .deleted =>
      match node target item.path with
      | some .directory => .error (.path .os)
      | _ => .ok (deleteRow Prod.fst item.path target)
    | _ =>
      match stagedFile p item.path with
      | .error problem => .error (.path problem)
      | .ok content => copyTo target item.path content

def materializeReviewDraft (draft : ReviewDraft) (root : String) (workspace target : Disk) : Except Refusal Disk := do
  require (draft.root = root) .draftNotReady
  let snapshot ← (inspectWorkspace host root workspace).mapError Refusal.path
  require (snapshot.treeHash = draft.changes.baseWorkspaceHash) (.path .conflict)
  let files ← (manifest draft.changes).mapError Refusal.path
  require (host.manifestHash files = draft.changes.stagedManifestHash) (.path .stageTampered)
  draft.changes.changedFiles.foldlM (materializeFile draft.changes) target

def changedPaths (stage : Disk) (baseline : Snapshot) : List Path := (filesOf stage).filter (isChanged host stage baseline)

/-- The stage is within the limits of a draft. -/
structure WithinLimits (stage : Disk) (baseline : Snapshot) : Prop where
  entries : entries stage ≤ maxEntries
  paths : (changedPaths host stage baseline).length + (deletedPaths stage baseline).length ≤ maxDraftPaths
  bytes : ((changedPaths host stage baseline).map fun path => (contentAt stage path).length).sum ≤ maxDraftBytes

/-- A draft is made, and a copy of the workspace becomes what the stage was. -/
def RoundTrips (root : String) (workspace stage : Disk) (baseline : Snapshot) : Prop :=
  ∃ draft fresh, createReviewDraft host root stage baseline = .ok draft ∧
    materializeReviewDraft host draft root workspace workspace = .ok fresh ∧ shown fresh = shown stage

/-- What a stage has to be for its draft to be read back. -/
structure Recoverable (workspace stage : Disk) (baseline : Snapshot) : Prop where
  safe : ∀ path ∈ filesOf stage, path ∉ internalFiles → isSafeRelative path = true
  changed : changedPaths host stage baseline ≠ [] ∨ deletedPaths stage baseline ≠ []
  blanks : ∀ path ∈ changedPaths host stage baseline ++ deletedPaths stage baseline, strip path = path
  places : ∀ path ∈ changedPaths host stage baseline, node workspace path ≠ some .directory ∧
    ∀ dir, dir <+: path → dir ≠ path → contentOf (node workspace dir) = none
  digests : ∀ path, isShown path = true → ∀ before after, node workspace path = some (.file before) →
    node stage path = some (.file after) → host.hash before = host.hash after → before = after

end PromptForge.RecoveryDrafts
