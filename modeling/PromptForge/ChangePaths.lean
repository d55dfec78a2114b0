import PromptForge.ChangeSets

/-!
# Paths of a change set

A path of a change set is brought to one form for every host. How a host reads a path is given by
its names: on Windows they may lose their ends, and a drive leads somewhere else.
-/
namespace PromptForge.ChangePaths
open ChangeSets (ignoredDirs sensitiveNames sensitiveMarkers)
open Runs Texts

abbrev Text := List Char

structure ChangeSetError where
  code : String
  message : String
  deriving DecidableEq

def pathInvalid : ChangeSetError := ⟨"CHANGE_PATH_INVALID", "Change paths must be non-empty strings."⟩

def unsafePath (message : String) : ChangeSetError := ⟨"CHANGE_PATH_UNSAFE", message⟩

def forbiddenPath (message : String) : ChangeSetError := ⟨"CHANGE_PATH_FORBIDDEN", message⟩

-- `str.casefold` folds one character at a time, by this.
variable (fold : Char → List Char)

def casefold (part : Text) : String := String.ofList (part.flatMap fold)

def isHidden (part : Text) : Bool := decide (part.head? = some '.')

def isIgnored (part : Text) : Bool := decide (casefold fold part ∈ ignoredDirs)

def isSensitiveName (part : Text) : Bool := decide (casefold fold part ∈ sensitiveNames)

def isMarked (part : Text) : Bool := sensitiveMarkers.any fun marker => decide (marker.toList <:+: part.flatMap fold)

def isForbidden (part : Text) : Bool := isHidden part || isIgnored fold part || isSensitiveName fold part || isMarked fold part

/-- `_normalize_relative`; without a backslash, `PureWindowsPath` finds a drive where a colon comes
    after one character, and an absolute path where it starts with a slash. -/
def normalizeRelative (path : Text) : Except ChangeSetError Text := do
  require (path ≠ [] ∧ '\x00' ∉ path) pathInvalid
  require ('\\' ∉ path) (unsafePath "Backslash paths are not allowed.")
  let value := stripChars path
  require (value ≠ ['.'] ∧ value ≠ ['.', '.'] ∧ value.head? ≠ some '/') (unsafePath "The ChangeSet contains an unsafe relative path.")
  require (value[1]? ≠ some ':') (unsafePath "The ChangeSet contains an absolute path.")
  let parts := value.splitOn '/'
  require (∀ part ∈ parts, part ≠ [] ∧ part ≠ ['.'] ∧ part ≠ ['.', '.']) (unsafePath "Path traversal is not allowed.")
  require (∀ part ∈ parts, isHidden part = false) (forbiddenPath "Hidden/internal paths cannot be changed.")
  require (∀ part ∈ parts, isIgnored fold part = false) (forbiddenPath "The ChangeSet targets an internal/generated directory.")
  require (∀ part ∈ parts, isSensitiveName fold part = false ∧ isMarked fold part = false)
    (forbiddenPath "Sensitive credential paths cannot be changed.")
  .ok (['/'].intercalate parts)

/-- A root lies on a drive on Windows. Below it there are no links, and no short names. -/
inductive Host where
  | posix
  | windows (drive : Char)

/-- A component on the way from the root; above the root there is nothing. -/
def enter : Option (List Text) → Text → Option (List Text)
  | none, _ => none
  | some names, part =>
    if part = [] ∨ part = ['.'] then some names
    else if part = ['.', '.'] then (if names = [] then none else some names.dropLast)
    else some (names ++ [part])

def walk (parts : List Text) : Option (List Text) := parts.foldl enter (some [])

/-- A component with a drive is relative to that drive: on the drive of the root it goes on, and on
    another one it leads out. -/
def onDrive (drive : Char) : Text → Option Text
  | letter :: ':' :: rest => if letter.toLower = drive.toLower then some rest else none
  | part => some part

def dropPeriod (part : Text) : Text :=
  if part.getLast? = some '.' ∧ part.dropLast ≠ [] ∧ part.dropLast.getLast? ≠ some '.' then part.dropLast else part

def dropTail (part : Text) : Text := part.rdropWhile fun c => decide (c = ' ' ∨ c = '.')

def trimmed : List Text → List Text
  | [] => []
  | [part] => [dropTail part]
  | part :: rest => dropPeriod part :: trimmed rest

/-- The names that a path leads through, from a root; none where it leads out of it. -/
def opened (host : Host) (path : Text) : Option (List Text) :=
  if path.head? = some '/' then none
  else
    match host with
    | .posix => walk (path.splitOn '/')
    | .windows drive =>
      ((path.splitOn '/').mapM (onDrive drive)).bind fun parts =>
        (walk parts).map fun names => (trimmed names).filter fun name => decide (name ≠ [])

/-- A colon ends the name of a file on Windows; what follows names a stream of it. -/
def withoutStream (name : Text) : Text := name.takeWhile fun c => decide (c ≠ ':')

def entryName : Host → Text → Text
  | .posix, name => name
  | .windows _, name => withoutStream name

end PromptForge.ChangePaths
