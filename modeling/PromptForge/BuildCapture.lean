import Mathlib.Data.List.Sort
import Mathlib.Data.String.Basic
import PromptForge.Runs
import PromptForge.Tables
import PromptForge.Texts

/-!
# The capture of build sources

The files of a project are copied and then read a second time.
-/
namespace PromptForge.BuildCapture
open Runs Tables

abbrev Bytes := List UInt8

def isName (text : String) : Bool := decide (text ≠ "" ∧ '/' ∉ text.toList ∧ '\x00' ∉ text.toList)

structure Name where
  text : String
  isName : isName text = true
  deriving DecidableEq

abbrev Path := List Name

/-- A file with what its inode and times tell of it, a directory, a link (to a file or not), or
    something else. -/
inductive Node where
  | file (content : Bytes) (stamp : ℕ)
  | directory
  | link (isFile : Bool)
  | special
  deriving DecidableEq

abbrev Disk := List (Path × Node)

def node (disk : Disk) (path : Path) : Option Node :=
  if path = [] then some .directory else (lookup Prod.fst disk path).map Prod.snd

def isRegular : Option Node → Bool
  | some (.file _ _) => true
  | _ => false

def isTree (disk : Disk) : Bool :=
  decide ((disk.map Prod.fst).Nodup ∧ ∀ row ∈ disk, row.1 ≠ [] ∧ node disk row.1.dropLast = some .directory)

def isFolder : Node → Bool
  | .directory | .link false => true
  | _ => false

def childOf (dir : Path) (row : Path × Node) : Option (Name × Bool) :=
  match row.1.getLast? with
  | none => none
  | some name => if row.1.dropLast = dir then some (name, isFolder row.2) else none

def children (disk : Disk) (dir : Path) : List (Name × Bool) := disk.filterMap (childOf dir)

def edit (disk : Disk) (path : Path) : Option Node → Disk
  | some node => replaceRow Prod.fst (path, node) disk
  | none => deleteRow Prod.fst path disk

def edits (disk : Disk) (changes : List (Path × Option Node)) : Disk :=
  changes.foldl (fun disk change => edit disk change.1 change.2) disk

def filesChanged : Disk → List (Path × Option Node) → List Path
  | _, [] => []
  | disk, (path, new) :: changes =>
    if isRegular (node disk path) || isRegular new then path :: filesChanged (edit disk path new) changes
    else filesChanged (edit disk path new) changes

def excludeDirectories : List String :=
  [".pio", ".git", ".svn", ".hg", ".venv", "venv", "node_modules", "__pycache__", ".next", ".pytest_cache"]

def maxFiles : ℕ := 10000
def maxTotalBytes : ℕ := 128 * 1024 * 1024

def isExcluded (name : Name) : Bool := decide (Texts.casefold name.text ∈ excludeDirectories)

/-- `hashlib.sha256(data).digest()` -/
structure Host where
  sha256 : Bytes → Bytes
  length_sha256 : ∀ data, (sha256 data).length = 32

inductive Refusal where
  | projectInvalid
  | symlinkUnsupported
  | fileLimit
  | sizeLimit
  | linkUnsafe
  | fileUnsafe
  | fileTooLarge
  | fileChanged
  | changedDuringCapture
  | os
  deriving DecidableEq

def Refusal.text : Refusal → Option String
  | .projectInvalid => some "BUILD_SOURCE_PROJECT_INVALID"
  | .symlinkUnsupported => some "BUILD_SOURCE_SYMLINK_UNSUPPORTED"
  | .fileLimit => some "BUILD_SOURCE_FILE_LIMIT"
  | .sizeLimit => some "BUILD_SOURCE_SIZE_LIMIT"
  | .linkUnsafe => some "WORKSPACE_LINK_UNSAFE"
  | .fileUnsafe => some "WORKSPACE_FILE_UNSAFE"
  | .fileTooLarge => some "WORKSPACE_FILE_TOO_LARGE"
  | .fileChanged => some "WORKSPACE_FILE_CHANGED"
  | .changedDuringCapture => some "BUILD_SOURCE_CHANGED_DURING_CAPTURE"
  | .os => none

structure Copy where
  path : Path
  data : Bytes
  deriving DecidableEq

/-- `copies` are the files below the root of the snapshot. -/
structure BuildSourceSnapshot where
  copies : List Copy
  revision : Bytes
  files : ℕ
  totalBytes : ℕ

/-- Where `_source_files` stands: the directory, its folders to go into, its files to come, and
    the directories to come after it. -/
structure Cursor where
  dir : Path
  folders : List Name
  files : List Name
  stack : List Path

inductive Phase where
  | starting
  | visiting (stack : List Path)
  /-- A directory is being listed; `missing` are the entries that were there all the time. -/
  | scanning (dir : Path) (stack : List Path) (missing : List (Name × Bool))
  | checking (checks : List Path) (c : Cursor)
  | naming (c : Cursor)
  | filing (name : Name) (c : Cursor)
  | sizing (path : Path) (c : Cursor)
  | opening (path : Path) (c : Cursor)
  /-- A file is being read, of the size and stamp; `dirty` once it was edited. -/
  | reading (path : Path) (size stamp : ℕ) (dirty : Bool) (c : Cursor)
  | yielded (snapshot : BuildSourceSnapshot)
  | failed (error : Refusal)

/-- `base` is the workspace when the pass began, `changed` and `earlier` are the files that were
    changed in this pass and before it. -/
structure State where
  disk : Disk
  phase : Phase
  second : Bool
  captured : List Copy
  after : List (Path × Bytes)
  count : ℕ
  size : ℕ
  base : Disk
  changed : List Path
  earlier : List Path

def State.initial (disk : Disk) : State := ⟨disk, .starting, false, [], [], 0, 0, disk, [], []⟩

inductive Action where
  | change (changes : List (Path × Option Node))
  | next
  /-- A listing gives its directories and files. -/
  | listed (subdirectories filenames : List Name)
  | read (data : Bytes)
  | fault

inductive Outcome where
  | refused
  | changed
  | running
  | raised (error : Refusal)
  | snapshot (snapshot : BuildSourceSnapshot)

variable (p : Host)

def checkedPath (disk : Disk) (path : Path) (link : Refusal) : Except Refusal Node :=
  if path.inits.any (fun q => match node disk q with | some (.link _) => true | _ => false) then .error link
  else
    match node disk path with
    | some n => .ok n
    | none => .error .os

def sortNames (names : List Name) : List Name := names.insertionSort fun a b => a.text ≤ b.text

def copyOf (s : State) (path : Path) : Option Copy := lookup Copy.path s.captured path

def asPosix (path : Path) : String := String.ofList (['/'].intercalate (path.map fun name => name.text.toList))

def encode (text : String) : Bytes := text.toUTF8.data.toList

def revisionText (captured : List Copy) : Bytes :=
  captured.flatMap fun copy => encode (asPosix copy.path) ++ 0 :: p.sha256 copy.data

def snapshotOf (s : State) : BuildSourceSnapshot := ⟨s.captured, p.sha256 (revisionText p s.captured), s.count, s.size⟩

def confirmed (s : State) : Bool :=
  decide (s.after.length = s.captured.length) &&
    s.captured.all fun copy => decide ((copy.path, p.sha256 copy.data) ∈ s.after)

def raise (s : State) (error : Refusal) : Outcome × State := (.raised error, { s with phase := .failed error })

def go (s : State) (phase : Phase) : Outcome × State := (.running, { s with phase })

def readError (s : State) (error : Refusal) : Refusal := if s.second && decide (error ≠ .os) then .changedDuringCapture else error

def readLimit (s : State) (path : Path) : ℕ :=
  if s.second then ((copyOf s path).map fun copy => copy.data.length).getD 0 else maxTotalBytes - s.size

def descend (disk : Disk) (c : Cursor) : List Path :=
  ((c.folders.map fun name => c.dir ++ [name]).filter fun folder =>
    match node disk folder with | some (.link _) => false | _ => true) ++ c.stack

def found (s : State) (path : Path) (c : Cursor) : Outcome × State :=
  if s.second then
    if (copyOf s path).isNone then raise s .changedDuringCapture else go s (.opening path c)
  else if maxFiles < s.count + 1 then raise s .fileLimit
  else (.running, { s with count := s.count + 1, phase := .sizing path c })

def sizeOf : Node → ℕ
  | .file content _ => content.length
  | _ => 0

def finish (s : State) : Outcome × State :=
  if s.second then
    if confirmed p s then (.snapshot (snapshotOf p s), { s with phase := .yielded (snapshotOf p s) })
    else raise s .changedDuringCapture
  else (.running, { s with second := true, phase := .visiting [[]], base := s.disk, changed := [], earlier := s.changed })

def next (s : State) : Outcome × State :=
  match s.phase with
  | .starting =>
    match node s.disk [⟨"platformio.ini", by decide⟩] with
    | some (.file _ _) | some (.link true) => go s (.visiting [[]])
    | _ => raise s .projectInvalid
  | .visiting [] => finish p s
  | .visiting (dir :: stack) =>
    -- a directory that is gone is passed over
    if node s.disk dir = some .directory then go s (.scanning dir stack (children s.disk dir)) else go s (.visiting stack)
  | .scanning dir stack _ => if node s.disk dir = some .directory then (.refused, s) else go s (.visiting stack)
  | .checking (path :: checks) c =>
    match checkedPath s.disk path .symlinkUnsupported with
    | .ok _ => go s (.checking checks c)
    | .error error => raise s error
  | .checking [] c => go s (.naming c)
  | .naming ⟨dir, folders, name :: files, stack⟩ =>
    match checkedPath s.disk (dir ++ [name]) .symlinkUnsupported with
    | .ok _ => go s (.filing name ⟨dir, folders, files, stack⟩)
    | .error error => raise s error
  | .naming ⟨dir, folders, [], stack⟩ => go s (.visiting (descend s.disk ⟨dir, folders, [], stack⟩))
  | .filing name c => if isRegular (node s.disk (c.dir ++ [name])) then found s (c.dir ++ [name]) c else go s (.naming c)
  | .sizing path c =>
    match checkedPath s.disk path .symlinkUnsupported with
    | .ok n => if maxTotalBytes < sizeOf n + s.size then raise s .sizeLimit else go s (.opening path c)
    | .error error => raise s error
  | .opening path c =>
    match checkedPath s.disk path .linkUnsafe with
    | .ok (.file content stamp) =>
      if readLimit s path < content.length then raise s (readError s .fileTooLarge)
      else go s (.reading path content.length stamp false c)
    | .ok _ => raise s (readError s .fileUnsafe)
    | .error error => raise s (readError s error)
  | .reading _ _ _ _ _ | .yielded _ | .failed _ => (.refused, s)

/-- `os.walk` gives the directories and the files of a directory. -/
def listed (s : State) (subdirectories filenames : List Name) : Outcome × State :=
  match s.phase with
  | .scanning dir stack missing =>
    if missing.all fun entry => decide (entry.1 ∈ if entry.2 then subdirectories else filenames) then
      let folders := sortNames subdirectories
      go s (.checking (dir :: folders.map fun name => dir ++ [name])
        ⟨dir, folders.filter fun name => !isExcluded name, sortNames filenames, stack⟩)
    else (.refused, s)
  | _ => (.refused, s)

def keep (s : State) (path : Path) (data : Bytes) (c : Cursor) : Outcome × State :=
  if s.second then (.running, { s with after := replaceRow Prod.fst (path, p.sha256 data) s.after, phase := .naming c })
  else if (copyOf s path).isSome then raise s .os
  else (.running, { s with captured := s.captured ++ [⟨path, data⟩], size := s.size + data.length, phase := .naming c })

/-- `read_bounded` has read the bytes. -/
def read (s : State) (data : Bytes) : Outcome × State :=
  match s.phase with
  | .reading path size stamp dirty c =>
    if !dirty && decide (node s.disk path ≠ some (.file data stamp)) then (.refused, s)
    else if data.length ≠ size then raise s (readError s .fileChanged)
    else
      match checkedPath s.disk path .linkUnsafe with
      | .ok (.file content stamp') =>
        if content.length = size ∧ stamp' = stamp then keep p s path data c else raise s (readError s .fileChanged)
      | .ok _ => raise s (readError s .fileChanged)
      | .error error => raise s (readError s error)
  | _ => (.refused, s)

def disturbed (disk : Disk) (paths : List Path) : Phase → Phase
  | .scanning dir stack missing => .scanning dir stack (missing.filter fun entry => decide (entry ∈ children disk dir))
  | .reading path size stamp dirty c => .reading path size stamp (dirty || decide (path ∈ paths)) c
  | phase => phase

def change (s : State) (changes : List (Path × Option Node)) : Outcome × State :=
  let disk := edits s.disk changes
  if isTree disk then
    (.changed, { s with
      disk
      phase := disturbed disk (changes.map Prod.fst) s.phase
      changed := s.changed ++ filesChanged s.disk changes })
  else (.refused, s)

def fault (s : State) : Outcome × State :=
  match s.phase with
  | .scanning _ _ _ | .yielded _ | .failed _ => (.refused, s)
  | _ => raise s .os

def step (s : State) : Action → Outcome × State
  | .change changes => change s changes
  | .next => next p s
  | .listed subdirectories filenames => listed s subdirectories filenames
  | .read data => read p s data
  | .fault => fault s

end PromptForge.BuildCapture
