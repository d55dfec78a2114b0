import PromptForge.ChangeSetLaws

/-!
# Undoing a change set

The files that a change set replaced are put back from the backups, the last one first, after a
journal.
-/
namespace PromptForge.ChangeSetUndo
open Runs Tables ChangeSets

inductive Operation where
  | apply
  | undo
  deriving DecidableEq

inductive Standing where
  | pending
  | applied
  | undone
  | conflicted
  | failed
  deriving DecidableEq

/-- `backups` are those in `__undo__`; the status is `stored`, and `known` to the service. -/
structure World where
  disk : Disk
  backups : Option (List (Path × Bytes))
  journal : Option Operation
  stored : Standing
  known : Standing
  stageThere : Bool

/-- The operations of `_atomic_write_bytes` below a directory: `mkstemp`, the writing of the
    temporary file, its renaming, and `_sync_directory`. -/
inductive Part where
  | temporary
  | content
  | replace
  | sync
  deriving DecidableEq

/-- An operation for one file. -/
inductive Touch where
  | read
  | directory (dir : Path)
  | write (part : Part)
  | remove
  | sync
  deriving DecidableEq

inductive Place where
  /-- Whether there is a journal to recover. -/
  | arrival
  /-- The roots, the journal of a recovery, and the files before anything is written. -/
  | look
  | backup
  | journalCheck
  | journal (part : Part)
  | file (path : Path) (touch : Touch)
  | status (part : Part)
  /-- A recovery has removed so many of the backups. -/
  | clear (removed : ℕ)
  /-- The journal is removed. -/
  | close
  | closeSync
  /-- A recovery that fails stores its status. -/
  | giveUp (part : Part)
  deriving DecidableEq

inductive Step where
  | own (place : Place)
  | recovery (place : Place)
  deriving DecidableEq

inductive UndoProblem where
  | notApplied
  | backupInvalid
  | undoConflict
  | recoveryRequired
  | undoFailed
  | path (problem : Problem)
  | os
  deriving DecidableEq

def UndoProblem.code : UndoProblem → Option String
  | .notApplied => some "CHANGE_SET_NOT_APPLIED"
  | .backupInvalid => some "CHANGE_UNDO_BACKUP_INVALID"
  | .undoConflict => some "CHANGE_UNDO_CONFLICT"
  | .recoveryRequired => some "CHANGE_RECOVERY_REQUIRED"
  | .undoFailed => some "CHANGE_UNDO_FAILED"
  | .path problem => problem.code
  | .os => none

variable (p : Setting) (fault : Option Step)

/-- A file is replaced at once; where `_sync_directory` fails it has been. -/
def replaces {α : Type} (place : Part → Step) (before after : α) : Except α α :=
  if fault = some (place .temporary) ∨ fault = some (place .content) ∨ fault = some (place .replace) then .error before
  else if fault = some (place .sync) then .error after
  else .ok after

def mkdirs (place : Touch → Step) (disk : Disk) : List Path → Except Disk Disk
  | [] => .ok disk
  | dir :: dirs =>
    match node disk dir with
    | some .directory => mkdirs place disk dirs
    | some (.file _) => .error disk
    | none => if fault = some (place (.directory dir)) then .error disk else mkdirs place (disk ++ [(dir, .directory)]) dirs

/-- `_atomic_write_bytes` -/
def writeFile (place : Touch → Step) (disk : Disk) (path : Path) (content : Bytes) : Except Disk Disk :=
  match mkdirs fault place disk path.dropLast.inits with
  | .error disk => .error disk
  | .ok disk =>
    if node disk path = some .directory then .error disk
    else replaces fault (fun part => place (.write part)) disk (replaceRow Prod.fst (path, .file content) disk)

def removeFile (place : Touch → Step) (missingOk : Bool) (disk : Disk) (path : Path) : Except Disk Disk :=
  if fault = some (place .remove) then .error disk
  else
    match node disk path with
    | some .directory => .error disk
    | none => if missingOk then .ok disk else .error disk
    | some (.file _) =>
      if fault = some (place .sync) then .error (deleteRow Prod.fst path disk) else .ok (deleteRow Prod.fst path disk)

def attempted (result : Except Disk Disk) : Disk :=
  match result with
  | .ok disk => disk
  | .error disk => disk

def put (place : Touch → Step) (disk : Disk) (path : Path) : Option Bytes → Except Disk Disk
  | none => removeFile fault place true disk path
  | some content => writeFile fault place disk path content

def beginPublish (w : World) (operation : Operation) : Except (UndoProblem × World) World :=
  if fault = some (.own .journalCheck) then .error (.os, w)
  else if w.journal.isSome then .error (.recoveryRequired, w)
  else
    match replaces fault (fun part => .own (.journal part)) w { w with journal := some operation } with
    | .error w => .error (.os, w)
    | .ok w => .ok w

def finishPublish (place : Place → Step) (w : World) : Except World World :=
  if fault = some (place .close) then .error w
  else if fault = some (place .closeSync) then .error { w with journal := none }
  else .ok { w with journal := none }

/-- `_mark`: the status is stored, and then known. -/
def mark (place : Part → Step) (w : World) (status : Standing) : Except World World :=
  match replaces fault place w { w with stored := status } with
  | .error w => .error w
  | .ok w => .ok { w with known := status }

def Operation.committed : Operation → Standing
  | .apply => .applied
  | .undo => .undone

def Operation.before : Operation → Standing
  | .apply => .pending
  | .undo => .applied

def Operation.desired (item : ChangedFile) : Operation → Option String
  | .apply => item.previousHash
  | .undo => item.newHash

def Operation.opposite (item : ChangedFile) : Operation → Option String
  | .apply => item.newHash
  | .undo => item.previousHash

def recoverySource (w : World) (item : ChangedFile) : Operation → Option Bytes
  | .apply => w.backups.bind fun rows => (lookup Prod.fst rows item.path).map Prod.snd
  | .undo => if w.stageThere then contentOf (p.stage item.path) else none

/-- What a recovery does to a file: nothing, or it is written or removed. -/
def recoveryTarget (w : World) (operation : Operation) (item : ChangedFile) : Option (Option (Path × Option Bytes)) :=
  let actual := (contentOf (node w.disk item.path)).map p.hash
  if !isSafe item.path || decide (node w.disk item.path = some .directory) then none
  else if actual = operation.desired item then some none
  else if actual ≠ operation.opposite item then none
  else
    match operation.desired item with
    | none => some (some (item.path, none))
    | some hash =>
      match recoverySource p w item operation with
      | none => none
      | some data => if p.hash data = hash then some (some (item.path, some data)) else none

def recoverFiles (disk : Disk) : List (Path × Option Bytes) → Except Disk Disk
  | [] => .ok disk
  | (path, data) :: targets =>
    match put fault (fun touch => .recovery (.file path touch)) disk path data with
    | .error disk => .error disk
    | .ok disk => recoverFiles disk targets

def tryRecover (w : World) : Except World World :=
  match w.journal with
  | none => .error w
  | some operation =>
    if fault = some (.recovery .look) then .error w
    else if w.known = operation.committed then finishPublish fault .recovery w
    else if !w.stageThere then .error w
    else
      match p.changedFiles.mapM (recoveryTarget p w operation) with
      | none => .error w
      | some targets =>
        match recoverFiles fault w.disk (targets.filterMap id) with
        | .error disk => .error { w with disk }
        | .ok disk =>
          match mark fault (fun part => .recovery (.status part)) { w with disk } operation.before with
          | .error w => .error w
          | .ok w =>
            match operation with
            | .undo => finishPublish fault .recovery w
            | .apply =>
              match fault with
              | some (.recovery (.clear removed)) => .error { w with backups := w.backups.map fun rows => rows.drop removed }
              | _ => finishPublish fault .recovery { w with backups := none }

/-- `_recover_publish`; it raises where it cannot store that it failed. -/
def recoverPublish (w : World) : Except World World :=
  match tryRecover p fault w with
  | .ok w => .ok w
  | .error w => mark fault (fun part => .recovery (.giveUp part)) w .conflicted

def checkBackup (w : World) (item : ChangedFile) : Except UndoProblem (ChangedFile × Bytes) :=
  match item.changeType with
  | .created => .ok (item, [])
  | _ =>
    match w.backups.bind fun rows => (lookup Prod.fst rows item.path).map Prod.snd with
    | none => .error .backupInvalid
    | some original =>
      if isSafe item.path ∧ item.previousHash = some (p.hash original) then .ok (item, original) else .error .backupInvalid

def checkApplied (disk : Disk) (item : ChangedFile) : Except UndoProblem Unit :=
  match pathProblem item.path with
  | some problem => .error (.path problem)
  | none =>
    match item.changeType, node disk item.path with
    | .deleted, none => .ok ()
    | .deleted, some _ => .error .undoConflict
    | _, some (.file content) => if item.newHash = some (p.hash content) then .ok () else .error .undoConflict
    | _, _ => .error .undoConflict

/-- The files that were put back so far, with what they held, and those that were removed. -/
structure Progress where
  disk : Disk
  restored : List (Path × Option Bytes)
  removed : List (Path × Bytes)

def readFile (disk : Disk) (path : Path) : Except UndoProblem Bytes :=
  match pathProblem path, node disk path with
  | some problem, _ => .error (.path problem)
  | none, some (.file content) => .ok content
  | none, some .directory => .error (.path .pathInvalid)
  | none, none => .error .os

def undoFile (q : Progress) (target : ChangedFile × Bytes) : Except (UndoProblem × Progress) Progress :=
  let path := target.1.path
  let place := fun touch => Step.own (.file path touch)
  if fault = some (place .read) then .error (.os, q)
  else
    match target.1.changeType with
    | .created =>
      match readFile q.disk path with
      | .error problem => .error (problem, q)
      | .ok current =>
        match removeFile fault place false q.disk path with
        | .error disk => .error (.os, { q with disk })
        | .ok disk => .ok { q with disk, removed := q.removed ++ [(path, current)] }
    | .modified =>
      match readFile q.disk path with
      | .error problem => .error (problem, q)
      | .ok current =>
        match writeFile fault place q.disk path target.2 with
        | .error disk => .error (.os, { q with disk })
        | .ok disk => .ok { q with disk, restored := q.restored ++ [(path, some current)] }
    | .deleted =>
      match pathProblem path with
      | some problem => .error (.path problem, q)
      | none =>
        match writeFile fault place q.disk path target.2 with
        | .error disk => .error (.os, { q with disk })
        | .ok disk => .ok { q with disk, restored := q.restored ++ [(path, none)] }

def takeBack (q : Progress) : Disk :=
  let place := fun (path : Path) (touch : Touch) => Step.own (.file path touch)
  let disk := q.restored.reverse.foldl (fun disk row => attempted (put none (place row.1) disk row.1 row.2)) q.disk
  q.removed.reverse.foldl (fun disk row => attempted (writeFile none (place row.1) disk row.1 row.2)) disk

def failUndo (w : World) (problem : UndoProblem) : Except UndoProblem Unit × World :=
  match recoverPublish p fault w with
  | .error w => (.error .os, w)
  | .ok w => (.error (if problem = .os then .undoFailed else problem), w)

def finishUndo (w : World) : Except UndoProblem Unit × World :=
  match mark fault (fun part => .own (.status part)) w .undone with
  | .error w => (.error .os, w)
  | .ok w =>
    match finishPublish fault .own w with
    | .error w => (.error .os, w)
    | .ok w => (.ok (), { w with backups := none, stageThere := false })

def putBack (w : World) (targets : List (ChangedFile × Bytes)) : Except UndoProblem Unit × World :=
  match beginPublish fault w .undo with
  | .error (problem, w) => failUndo p fault w problem
  | .ok w =>
    match targets.reverse.foldlM (undoFile fault) ⟨w.disk, [], []⟩ with
    | .error (problem, q) => failUndo p fault { w with disk := takeBack q } problem
    | .ok q => finishUndo fault { w with disk := q.disk }

/-- `_undo_locked` from the status on. -/
def undoKnown (w : World) : Except UndoProblem Unit × World :=
  if w.known ≠ .applied then (.error .notApplied, w)
  else if fault = some (.own .look) ∨ w.stageThere = false then (.error .os, w)
  else if fault = some (.own .backup) then (.error .backupInvalid, w)
  else
    match p.changedFiles.mapM (checkBackup p w) with
    | .error problem => (.error problem, w)
    | .ok targets =>
      match p.changedFiles.forM (checkApplied p w.disk) with
      | .error problem => (.error problem, w)
      | .ok () => putBack p fault w targets

def undo (w : World) : Except UndoProblem Unit × World :=
  if fault = some (.own .arrival) then (.error .os, w)
  else if w.journal.isSome then
    match recoverPublish p fault w with
    | .error w => (.error .os, w)
    | .ok w => undoKnown p fault w
  else undoKnown p fault w

def staged (item : ChangedFile) : Option Node := (contentOf (p.stage item.path)).map .file

def original (base : Disk) (item : ChangedFile) : Option Node := (contentOf (node base item.path)).map .file

/-- The change set was applied to `base`, and its files were not edited since. -/
structure Applied (base : Disk) (w : World) : Prop where
  some_file : p.changedFiles ≠ []
  files : ∀ item ∈ p.changedFiles, isSafe item.path = true ∧ Describes p base item
  paths : (p.changedFiles.map ChangedFile.path).Nodup
  apart : ∀ x ∈ p.changedFiles, ∀ y ∈ p.changedFiles, x.path <+: y.path → x.path = y.path
  content : ∀ item ∈ p.changedFiles, node w.disk item.path = staged p item
  above : ∀ item ∈ p.changedFiles, ∀ dir, dir <+: item.path → dir ≠ item.path → contentOf (node w.disk dir) = none
  backups : Backed (jobsOf p base) w.backups
  stored : w.stored = .applied
  known : w.known = .applied
  journal : w.journal ≠ some .undo
  stage : w.stageThere = true

def raises (result : Except UndoProblem Unit × World) : Bool :=
  match result.1 with
  | .ok _ => false
  | .error _ => true

/-- The files of the change set hold what they held before `apply`, and no other file was changed. -/
def Restored (base disk disk' : Disk) : Prop :=
  (∀ item ∈ p.changedFiles, contentOf (node disk' item.path) = contentOf (node base item.path)) ∧
    ∀ path, (∀ item ∈ p.changedFiles, item.path ≠ path) → contentOf (node disk' path) = contentOf (node disk path)

/-- Nothing of `w` was lost: the change set is applied, and can be undone. -/
def LosesNothing (base : Disk) (w w' : World) : Prop :=
  (∀ item ∈ p.changedFiles, node w'.disk item.path = staged p item) ∧ w'.stored = .applied ∧
    raises (undo p none w') = false ∧ Restored p base w.disk (undo p none w').2.disk

/-- The journal could not be written, or the end of the undo not be stored; or the journal that
    `apply` left not be removed. -/
def Loses (w : World) : Step → Prop
  | .own .journalCheck | .own (.status _) | .own .close | .own .closeSync => True
  | .own (.journal part) => part ≠ .sync
  | .recovery .look | .recovery .close | .recovery .closeSync => w.journal = some .apply
  | _ => False

end PromptForge.ChangeSetUndo
