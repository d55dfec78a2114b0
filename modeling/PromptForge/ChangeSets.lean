import Mathlib.Data.List.Infix
import PromptForge.Runs
import PromptForge.Tables
import PromptForge.Texts

/-!
# Publishing a change set

Staged files are written into a workspace, after a backup of what they replace and a journal.
The process may stop at any moment; what the journal tells is taken back when it is started
again.
-/
namespace PromptForge.ChangeSets
open Runs Tables

abbrev Bytes := List UInt8

abbrev Path := List String

inductive Node where
  | file (content : Bytes)
  | directory
  deriving DecidableEq

abbrev Disk := List (Path × Node)

def node (disk : Disk) (path : Path) : Option Node :=
  if path = [] then some .directory else (lookup Prod.fst disk path).map Prod.snd

def contentOf : Option Node → Option Bytes
  | some (.file content) => some content
  | _ => none

def ignoredDirs : List String := [".git", ".pio", ".promptforge", ".forgex", ".next", "node_modules", "dist", "build"]

def sensitiveNames : List String :=
  [".env", ".env.local", ".npmrc", ".pypirc", "credentials", "credentials.json", "secrets.json", "id_rsa", "id_ed25519", "known_hosts"]

def sensitiveMarkers : List String := ["credential", "secret", "token", "private_key", "apikey", "api_key"]

def isHidden (part : String) : Bool := part.toList.head? = some '.'

def isForbidden (part : String) : Bool :=
  isHidden part || decide (Texts.casefold part ∈ ignoredDirs) || decide (Texts.casefold part ∈ sensitiveNames) ||
    sensitiveMarkers.any fun marker => decide (marker.toList <:+: (Texts.casefold part).toList)

inductive Problem where
  | notPending
  | pathInvalid
  | pathUnsafe
  | pathForbidden
  | entryLimit
  | conflict
  | stageTampered
  | undoBackupInvalid
  | targetUnsafe
  | applyFailed
  | os
  deriving DecidableEq

def Problem.code : Problem → Option String
  | .notPending => some "CHANGE_SET_NOT_PENDING"
  | .pathInvalid => some "CHANGE_PATH_INVALID"
  | .pathUnsafe => some "CHANGE_PATH_UNSAFE"
  | .pathForbidden => some "CHANGE_PATH_FORBIDDEN"
  | .entryLimit => some "CHANGE_WORKSPACE_ENTRY_LIMIT"
  | .conflict => some "CHANGE_CONFLICT"
  | .stageTampered => some "CHANGE_STAGE_TAMPERED"
  | .undoBackupInvalid => some "CHANGE_UNDO_BACKUP_INVALID"
  | .targetUnsafe => some "CHANGE_TARGET_UNSAFE"
  | .applyFailed => some "CHANGE_APPLY_FAILED"
  | .os => none

/-- `_normalize_relative`; a path with a drive has a colon after its first letter. -/
def pathProblem (path : Path) : Option Problem :=
  if path.isEmpty || path.any fun part => part.toList.contains '\x00' then some .pathInvalid
  else if path.any (fun part => part.toList.contains '\\' || decide (part ∈ ["", ".", ".."])) ||
      decide (path.head?.bind (fun part => part.toList[1]?) = some ':') then some .pathUnsafe
  else if path.any isForbidden then some .pathForbidden
  else none

def isSafe (path : Path) : Bool := (pathProblem path).isNone

def inUndo (path : Path) : Bool :=
  path.head?.any fun part =>
    decide (Texts.casefold (String.ofList (part.toList.rdropWhile fun c => decide (c = ' ' ∨ c = '.'))) = "__undo__")

def maxEntries : ℕ := 10000

def isCounted (path : Path) : Bool := path.dropLast.all fun part => !decide (Texts.casefold part ∈ ignoredDirs)

def entries (disk : Disk) : ℕ := (disk.filter fun row => isCounted row.1).length

def visible (disk : Disk) (path : Path) : Option Bytes := if isSafe path then contentOf (node disk path) else none

/-- The name that `mkstemp` makes beside a file. -/
def tempPath (path : Path) (random : String) : Path := path.dropLast ++ ["." ++ path.getLast?.getD "" ++ "." ++ random ++ ".tmp"]

inductive ChangeType where
  | created
  | modified
  | deleted
  deriving DecidableEq

structure ChangedFile where
  path : Path
  changeType : ChangeType
  previousHash : Option String
  newHash : Option String

inductive Status where
  | pending
  | applied
  | conflicted
  | failed
  deriving DecidableEq

/-- A change set with its stage, and the digests of a file, of a snapshot and of the stage. -/
structure Setting where
  changedFiles : List ChangedFile
  baseWorkspaceHash : String
  stagedManifestHash : String
  stage : Path → Option Node
  hash : Bytes → String
  treeHash : (Path → Option Bytes) → String
  manifestHash : List (Path × Option Bytes) → String

/-- A file to be written or removed, and what was there. -/
structure Job where
  path : Path
  content : Option Bytes
  original : Option Bytes

def Job.inverse (job : Job) : Job := ⟨job.path, job.original, job.content⟩

/-- Who called `_recover_publish`: the constructor, `apply`, or the handler of `apply`. -/
inductive Caller where
  | startup
  | apply
  | handler

inductive Kind where
  | publish
  | rollback
  | recover (caller : Caller)

/-- What follows when a status was stored. -/
inductive After where
  | raise (problem : Problem)
  | recovery
  | clear (caller : Caller)
  | close
  | resume (caller : Caller)

inductive Phase where
  | down
  | idle
  | checking
  | makingUndo (jobs : List Job)
  | backingUp (rest jobs : List Job)
  | journaling (jobs : List Job)
  /-- Files are written one by one; `temp` is the temporary file of the first. -/
  | working (kind : Kind) (done jobs : List Job) (temp : Option Path)
  | marking (status : Status) (after : After)
  | clearing (caller : Caller)
  /-- The journal is removed, by `apply` where there is no caller. -/
  | closing (caller : Option Caller)

/-- `undo` are the backups in `__undo__`, `journal` tells whether there is one. -/
structure State where
  disk : Disk
  undo : Option (List (Path × Bytes))
  journal : Bool
  stored : Status
  phase : Phase

def State.initial (disk : Disk) (undo : Option (List (Path × Bytes))) : State := ⟨disk, undo, false, .pending, .idle⟩

inductive Outcome where
  | refused
  | running
  | returned
  | raised (problem : Problem)

/-- What an operation that fails leaves of what it did. -/
inductive Left where
  | nothing
  | temp
  | effect

inductive Action where
  | apply
  /-- The next step; `random` is what `mkstemp` draws. -/
  | next (random : String)
  | fault (left : Left)
  | crash
  | restart

variable (p : Setting)

def stagedFile (path : Path) : Except Problem Bytes :=
  match p.stage path with
  | some (.file content) => .ok content
  | some .directory => .error .pathInvalid
  | none => .error .os

/-- What `_stage_manifest_hash` is the digest of. -/
def manifest : Except Problem (List (Path × Option Bytes)) :=
  p.changedFiles.mapM fun item =>
    match pathProblem item.path with
    | some problem => .error problem
    | none =>
      match item.changeType, p.stage item.path with
      | .deleted, none => .ok (item.path, none)
      | .deleted, some .directory => .error .os
      | _, _ => (stagedFile p item.path).map fun content => (item.path, some content)

/-- An error, after a status is stored or not. -/
structure Reject where
  problem : Problem
  mark : Option Status

def checkTarget (disk : Disk) (item : ChangedFile) (content : Option Bytes) : Except Reject Job :=
  match node disk item.path with
  | some .directory => .error ⟨.targetUnsafe, some .conflicted⟩
  | some (.file current) =>
    if item.previousHash = some (p.hash current) then .ok ⟨item.path, content, some current⟩
    else .error ⟨.conflict, some .conflicted⟩
  | none => if item.previousHash = none then .ok ⟨item.path, content, none⟩ else .error ⟨.conflict, some .conflicted⟩

def checkFile (disk : Disk) (item : ChangedFile) : Except Reject Job :=
  if inUndo item.path then .error ⟨.undoBackupInvalid, none⟩
  else
    match pathProblem item.path with
    | some problem => .error ⟨problem, none⟩
    | none =>
      if item.changeType = .deleted then
        if (p.stage item.path).isSome || item.newHash.isSome then .error ⟨.stageTampered, some .failed⟩
        else checkTarget p disk item none
      else
        match stagedFile p item.path with
        | .error problem => .error ⟨problem, none⟩
        | .ok content =>
          if item.newHash = some (p.hash content) then checkTarget p disk item (some content)
          else .error ⟨.stageTampered, some .failed⟩

def check (disk : Disk) : Except Reject (List Job) :=
  if maxEntries < entries disk then .error ⟨.entryLimit, none⟩
  else if p.baseWorkspaceHash ≠ "" ∧ p.treeHash (visible disk) ≠ p.baseWorkspaceHash then .error ⟨.conflict, some .conflicted⟩
  else
    match manifest p with
    | .error problem => .error ⟨problem, none⟩
    | .ok files =>
      if p.stagedManifestHash ≠ "" ∧ p.manifestHash files ≠ p.stagedManifestHash then .error ⟨.stageTampered, some .failed⟩
      else p.changedFiles.mapM (checkFile p disk)

def recoveryJob (s : State) (item : ChangedFile) : Option (Option Job) :=
  let actual := (contentOf (node s.disk item.path)).map p.hash
  if !isSafe item.path || decide (node s.disk item.path = some .directory) then none
  else if actual = item.previousHash then some none
  else if actual ≠ item.newHash then none
  else
    match item.previousHash with
    | none => some (some ⟨item.path, none, none⟩)
    | some hash =>
      match s.undo.bind fun undo => (lookup Prod.fst undo item.path).map Prod.snd with
      | none => none
      | some content => if p.hash content = hash then some (some ⟨item.path, some content, none⟩) else none

def go (s : State) (phase : Phase) : Outcome × State := (.running, { s with phase })

def raise (s : State) (problem : Problem) : Outcome × State := (.raised problem, { s with phase := .idle })

def Caller.failureStatus : Caller → Status
  | .handler => .failed
  | _ => .conflicted

def Caller.successStatus : Caller → Status
  | .handler => .failed
  | _ => .pending

def resume (s : State) : Caller → Outcome × State
  | .startup => go s .idle
  | .apply => go s .checking
  | .handler => raise s .applyFailed

/-- `_recover_publish` up to its first write. -/
def recover (s : State) (caller : Caller) : Outcome × State :=
  if s.stored = .applied then go s (.closing (some caller))
  else
    match p.changedFiles.mapM (recoveryJob p s) with
    | none => go s (.marking caller.failureStatus (.resume caller))
    | some jobs => go s (.working (.recover caller) [] (jobs.filterMap id) none)

def abort (s : State) (done : List Job) : Outcome × State :=
  go s (.working .rollback [] (done.reverse.map Job.inverse) none)

def failJob (s : State) (kind : Kind) (done rest : List Job) : Outcome × State :=
  match kind with
  | .publish => abort s done
  | .rollback => go s (.working .rollback done rest none)
  | .recover caller => go s (.marking caller.failureStatus (.resume caller))

def finishJob (s : State) (kind : Kind) (done : List Job) (job : Job) (rest : List Job) : Outcome × State :=
  go s (.working kind (done ++ [job]) rest none)

def missing (disk : Disk) (path : Path) : Option Path :=
  path.dropLast.inits.find? fun dir => decide (node disk dir ≠ some .directory)

def startJob (s : State) (kind : Kind) (done : List Job) (job : Job) (rest : List Job) (random : String) : Outcome × State :=
  match job.content with
  | none =>
    match node s.disk job.path with
    | some (.file _) => finishJob { s with disk := deleteRow Prod.fst job.path s.disk } kind done job rest
    | some .directory => failJob s kind done rest
    | none =>
      match kind with
      | .publish => failJob s kind done rest
      | _ => finishJob s kind done job rest
  | some content =>
    match missing s.disk job.path with
    | some dir =>
      if (node s.disk dir).isSome then failJob s kind done rest
      else (.running, { s with disk := s.disk ++ [(dir, .directory)] })
    | none =>
      let temp := tempPath job.path random
      if (node s.disk temp).isSome then (.refused, s)
      else (.running, { s with disk := s.disk ++ [(temp, .file content)], phase := .working kind done (job :: rest) (some temp) })

def placeJob (s : State) (kind : Kind) (done : List Job) (job : Job) (rest : List Job) (temp : Path) : Outcome × State :=
  let disk := deleteRow Prod.fst temp s.disk
  if node s.disk job.path = some .directory then failJob { s with disk } kind done rest
  else finishJob { s with disk := replaceRow Prod.fst (job.path, .file (job.content.getD [])) disk } kind done job rest

def complete (s : State) : Kind → Outcome × State
  | .publish => go s (.marking .applied .close)
  | .rollback => go s (.marking .failed .recovery)
  | .recover caller => go s (.marking caller.successStatus (.clear caller))

def marked (s : State) : After → Outcome × State
  | .raise problem => raise s problem
  | .recovery => if s.journal then recover p s .handler else raise s .applyFailed
  | .clear caller => go s (.clearing caller)
  | .close => go s (.closing none)
  | .resume caller => resume s caller

def next (s : State) (random : String) : Outcome × State :=
  match s.phase with
  | .down | .idle => (.refused, s)
  | .checking =>
    if s.stored ≠ .pending then raise s .notPending
    else
      match check p s.disk with
      | .ok jobs => go s (.makingUndo jobs)
      | .error ⟨problem, none⟩ => raise s problem
      | .error ⟨problem, some status⟩ => go s (.marking status (.raise problem))
  | .makingUndo jobs =>
    if s.undo.isSome then abort s []
    else go { s with undo := some [] } (.backingUp (jobs.filter fun job => job.original.isSome) jobs)
  | .backingUp (job :: rest) jobs =>
    go { s with undo := s.undo.map (replaceRow Prod.fst (job.path, job.original.getD [])) } (.backingUp rest jobs)
  | .backingUp [] jobs => go s (.journaling jobs)
  | .journaling jobs => if s.journal then abort s [] else go { s with journal := true } (.working .publish [] jobs none)
  | .working kind _ [] _ => complete s kind
  | .working kind done (job :: rest) none => startJob s kind done job rest random
  | .working kind done (job :: rest) (some temp) => placeJob s kind done job rest temp
  | .marking status after => marked p { s with stored := status } after
  | .clearing caller =>
    match s.undo with
    | none => go s (.closing (some caller))
    | some [] => (.running, { s with undo := none })
    | some (_ :: undo) => (.running, { s with undo := some undo })
  | .closing none => (.returned, { s with journal := false, phase := .idle })
  | .closing (some caller) => resume { s with journal := false } caller

def leave (disk : Disk) (job : Job) (temp : Option Path) : Left → Disk
  | .nothing => temp.elim disk fun temp => deleteRow Prod.fst temp disk
  | .temp => disk
  | .effect =>
    match job.content, temp with
    | none, _ => if contentOf (node disk job.path) = none then disk else deleteRow Prod.fst job.path disk
    | some content, some temp =>
      if node disk job.path = some .directory then disk
      else replaceRow Prod.fst (job.path, .file content) (deleteRow Prod.fst temp disk)
    | some _, none => disk

def fault (s : State) (left : Left) : Outcome × State :=
  match s.phase with
  | .checking => raise s .os
  | .makingUndo _ | .backingUp _ _ | .journaling _ => abort s []
  | .working kind done (job :: rest) temp => failJob { s with disk := leave s.disk job temp left } kind done rest
  | .clearing caller => go s (.marking caller.failureStatus (.resume caller))
  | .closing none => raise { s with journal := left matches .nothing } .os
  | .closing (some caller) =>
    go { s with journal := left matches .nothing } (.marking caller.failureStatus (.resume caller))
  | _ => (.refused, s)

def isDown : Phase → Bool
  | .down => true
  | _ => false

def isIdle : Phase → Bool
  | .idle => true
  | _ => false

def step (s : State) : Action → Outcome × State
  | .apply => if isIdle s.phase then if s.journal then recover p s .apply else go s .checking else (.refused, s)
  | .next random => next p s random
  | .fault left => fault s left
  | .crash => if isDown s.phase then (.refused, s) else go s .down
  | .restart => if isDown s.phase then if s.journal then recover p s .startup else go s .idle else (.refused, s)

def IsTree (node : Path → Option Node) : Prop := ∀ path above, above <+: path → above ≠ path → node path ≠ none →
  node above = some .directory

/-- What a change says of the stage and of the workspace it was made for. -/
def Describes (disk : Disk) (item : ChangedFile) : Prop :=
  match item.changeType with
  | .created => ∃ content, p.stage item.path = some (.file content) ∧ item.newHash = some (p.hash content) ∧
      item.previousHash = none ∧ contentOf (node disk item.path) = none
  | .modified => ∃ content before, p.stage item.path = some (.file content) ∧ item.newHash = some (p.hash content) ∧
      node disk item.path = some (.file before) ∧ item.previousHash = some (p.hash before) ∧ p.hash content ≠ p.hash before
  | .deleted => p.stage item.path = none ∧ item.newHash = none ∧
      ∃ before, node disk item.path = some (.file before) ∧ item.previousHash = some (p.hash before)

/-- The change set was made for this workspace and its stage. -/
structure Prepared (disk : Disk) : Prop where
  workspace : IsTree (node disk)
  stage : IsTree p.stage
  limit : entries disk ≤ maxEntries
  tree : p.treeHash (visible disk) = p.baseWorkspaceHash
  manifest : ∀ files, manifest p = .ok files → p.manifestHash files = p.stagedManifestHash
  files : ∀ item ∈ p.changedFiles, isSafe item.path = true ∧ Describes p disk item
  paths : (p.changedFiles.map ChangedFile.path).Nodup

/-- Its files can be written at all. -/
structure Writable (disk : Disk) : Prop where
  outsideUndo : ∀ item ∈ p.changedFiles, inUndo item.path = false
  noDirectory : ∀ item ∈ p.changedFiles, node disk item.path ≠ some .directory
  belowDirectories : ∀ item ∈ p.changedFiles, ∀ above, above <+: item.path → above ≠ item.path →
    contentOf (node disk above) = none

/-- A fresh `apply` returns, and the change set is applied. -/
def Succeeds (s : State) : Prop :=
  ∃ randoms : List String, isIdle (final (step p) s (.apply :: randoms.map .next)).phase = true ∧
    (final (step p) s (.apply :: randoms.map .next)).stored = .applied ∧
    ∀ item ∈ p.changedFiles, contentOf (node (final (step p) s (.apply :: randoms.map .next)).disk item.path) =
      contentOf (p.stage item.path)

/-- The process does not stop between the making of `__undo__` and the journal, and the workspace
    does not come to have too many entries. -/
def Clean (e : Entry State Action Outcome) : Prop :=
  entries e.after.disk ≤ maxEntries ∧
    match e.action with
    | .crash => ¬ (e.before.undo.isSome = true ∧ e.before.journal = false ∧ e.before.stored = .pending)
    | _ => True

end PromptForge.ChangeSets
