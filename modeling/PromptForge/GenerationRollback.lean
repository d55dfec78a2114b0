import PromptForge.Runs
import PromptForge.Tables
import Mathlib.Logic.Function.Basic

/-!
# Generated files that can be taken back

A generation writes its files one after the other and remembers what each held before.
-/
namespace PromptForge.GenerationRollback
open Runs Tables

abbrev Bytes := List UInt8

/-- What a path of the workspace holds. -/
inductive Node where
  | file (content : Bytes)
  | symlink (reads : Option Bytes)
  deriving DecidableEq

abbrev Disk := String → Option Node

def isSymlink : Option Node → Bool
  | some (.symlink _) => true
  | _ => false

def bytesOf : Option Node → Option Bytes
  | some (.file content) => some content
  | some (.symlink reads) => reads
  | none => none

variable {δ : Type}

/-- A path with its entries in `_originals` and `_expected_hashes`. -/
structure Tracked (δ : Type) where
  path : String
  original : Option Bytes
  expected : Option δ

/-- A file to be written: its path as it was generated and the file of the workspace that
    path leads to, if it does not leave the workspace. -/
structure GeneratedFile where
  path : String
  target : Option String
  content : Bytes

structure ChunkedFileWrite (δ : Type) where
  path : String
  status : String
  created : Bool
  updated : Bool
  previousHash : Option δ
  newHash : δ
  bytesWritten : ℕ

/-- Where the code stands. -/
inductive Phase (δ : Type) where
  | idle
  | remembering (file : GeneratedFile) (target : String)
  | hashing (file : GeneratedFile) (target : String)
  | replacing (file : GeneratedFile) (target : String) (previous : Option δ)
  | recording (file : GeneratedFile) (target : String) (previous : Option δ)
  | checking (checked rest : List (Tracked δ))
  | restoring (restored rest : List (Tracked δ))

/-- `user` is the workspace as it were without the generation, and `unrolled` as it were
    without the rollback that was called last. -/
structure State (δ : Type) where
  disk : Disk
  tracked : List (Tracked δ)
  finished : Bool
  phase : Phase δ
  user : Disk
  unrolled : Disk

def State.initial (disk : Disk) : State δ := ⟨disk, [], false, .idle, disk, disk⟩

/-- The values the code raises by itself. -/
inductive Raised where
  | escapes (path : String)
  | symlink (path : String)
  | notTracked
  | conflict

def Raised.message : Raised → String
  | .escapes path => "Generated file path escapes workspace: " ++ path
  | .symlink path => "Workspace file cannot be a symlink: " ++ path
  | .notTracked => "GENERATION_TRANSACTION_NOT_TRACKED"
  | .conflict => "GENERATION_ROLLBACK_CONFLICT: workspace file changed after generation write"

inductive Action where
  | edit (path : String) (node : Option Node)
  | writeFile (file : GeneratedFile)
  | rollback
  | next
  /-- The operation of the file system that comes next fails, or the one before it after it
      took effect. -/
  | fault

/-- `refused` is no step of the code: there is nothing to continue, or it is busy. -/
inductive Outcome (δ : Type) where
  | refused
  | edited
  | running
  | raised (error : Raised)
  | failed
  | written (result : ChunkedFileWrite δ)
  | rolledBack (changed : Bool)

variable (digest : Bytes → δ)

def tracks (s : State δ) (path : String) : Bool := (lookup Tracked.path s.tracked path).isSome

def remember (s : State δ) (target : String) : Except Raised (State δ) :=
  if s.finished || tracks s target then .ok s
  else if isSymlink (s.disk target) then .error (.symlink target)
  else
    let original := bytesOf (s.disk target)
    .ok { s with tracked := s.tracked ++ [⟨target, original, original.map digest⟩] }

def setExpected (path : String) (value : δ) (t : Tracked δ) : Tracked δ :=
  if t.path = path then { t with expected := some value } else t

def recordWritten (s : State δ) (target : String) (value : δ) : Except Raised (State δ) :=
  if s.finished || !tracks s target then .error .notTracked
  else .ok { s with tracked := s.tracked.map (setExpected target value) }

def agrees [DecidableEq δ] (disk : Disk) (t : Tracked δ) : Bool :=
  !isSymlink (disk t.path) && decide ((bytesOf (disk t.path)).map digest = t.expected)

/-- A link that leads nowhere does not exist for `exists`. -/
def restoreFile (disk : Disk) (t : Tracked δ) : Disk :=
  match t.original with
  | some content => Function.update disk t.path (some (.file content))
  | none => if (bytesOf (disk t.path)).isSome then Function.update disk t.path none else disk

def ended (s : State δ) : State δ := { s with phase := .idle }

def settle (s : State δ) (after : State δ → State δ) : Except Raised (State δ) → Outcome δ × State δ
  | .ok s' => (.running, after s')
  | .error error => (.raised error, ended s)

section Step
variable [DecidableEq δ]

def writeResult (file : GeneratedFile) (previous : Option δ) : ChunkedFileWrite δ where
  path := file.path
  status := "written"
  created := previous.isNone
  updated := previous ≠ some (digest file.content)
  previousHash := previous
  newHash := digest file.content
  bytesWritten := file.content.length

def writeFile (s : State δ) (file : GeneratedFile) : Outcome δ × State δ :=
  match file.target with
  | none => (.raised (.escapes file.path), s)
  | some target =>
    if (bytesOf (s.disk target)).isSome && isSymlink (s.disk target) then (.raised (.symlink file.path), s)
    else (.running, { s with phase := .remembering file target })

def rollback (s : State δ) : Outcome δ × State δ :=
  if s.finished then (.rolledBack false, s)
  else (.running, { s with phase := .checking [] s.tracked, unrolled := s.disk })

def next (s : State δ) : Outcome δ × State δ :=
  match s.phase with
  | .idle => (.refused, s)
  | .remembering file target =>
    settle s (fun s' => { s' with phase := .hashing file target }) (remember digest s target)
  | .hashing file target =>
    (.running, { s with phase := .replacing file target ((bytesOf (s.disk target)).map digest) })
  | .replacing file target previous =>
    (.running, { s with
      disk := Function.update s.disk target (some (.file file.content))
      phase := .recording file target previous })
  | .recording file target previous =>
    match recordWritten s target (digest file.content) with
    | .ok s' => (.written (writeResult digest file previous), ended s')
    | .error error => (.raised error, ended s)
  | .checking checked [] => (.running, { s with phase := .restoring [] checked.reverse })
  | .checking checked (t :: rest) =>
    if agrees digest s.disk t then (.running, { s with phase := .checking (checked ++ [t]) rest })
    else (.raised .conflict, ended s)
  | .restoring restored (t :: rest) =>
    (.running, { s with disk := restoreFile s.disk t, phase := .restoring (restored ++ [t]) rest })
  | .restoring restored [] =>
    (.rolledBack !restored.isEmpty, { s with tracked := [], finished := true, phase := .idle })

def step (s : State δ) : Action → Outcome δ × State δ
  | .edit path node =>
    (.edited, { s with
      disk := Function.update s.disk path node
      user := Function.update s.user path node
      unrolled := Function.update s.unrolled path node })
  | .writeFile file =>
    match s.phase with
    | .idle => writeFile s file
    | _ => (.refused, s)
  | .rollback =>
    match s.phase with
    | .idle => rollback s
    | _ => (.refused, s)
  | .next => next digest s
  | .fault =>
    match s.phase with
    | .idle => (.refused, s)
    | _ => (.failed, ended s)

end Step

end PromptForge.GenerationRollback
