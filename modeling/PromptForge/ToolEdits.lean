import PromptForge.Occurrences
import PromptForge.Tables
import PromptForge.UnifiedPatches

/-!
# Edits of staged files

The tools of an agent see the files of a project through a stage that lies over them, and change
the stage alone.
-/
namespace PromptForge.ToolEdits
open Occurrences Runs Tables
open UnifiedPatches (Digits applyUnifiedPatch)

abbrev Text := List Char

/-- A file has no text where its bytes are not UTF-8. -/
structure File where
  bytes : ℕ
  text : Option Text
  deriving DecidableEq

def textBytes (text : Text) : ℕ := (String.ofList text).utf8ByteSize

lemma length_le_textBytes (text : Text) : text.length ≤ textBytes text := by
  induction text with
  | nil => simp [textBytes]
  | cons c rest ih =>
    have hc := c.utf8Size_pos
    simp only [textBytes, String.ofList_cons, String.utf8ByteSize_append, String.utf8ByteSize_singleton, List.length_cons] at ih ⊢
    omega

def fileOf (text : Text) : File := ⟨textBytes text, some text⟩

/-- Files by their names: those of the project, and those that lie over them. -/
structure Overlay where
  active : List (String × File)
  stage : List (String × File)
  deleted : List String

structure Executor where
  overlay : Overlay
  editReadRequired : List String

/-- The details of an `EditMatchError`. -/
structure EditMatch where
  path : String
  matchCount : ℕ
  reason : String

inductive Refusal where
  /-- The policy or a path that leads out of the project -/
  | denied (reason : String)
  /-- `credential_read_forbidden` -/
  | credentialRead
  /-- `path_missing` -/
  | pathMissing
  /-- `file_too_large` -/
  | fileTooLarge
  /-- `binary_content_forbidden` -/
  | binaryContent
  /-- `utf8_text_required` -/
  | utf8Required
  /-- `secret_content_forbidden` -/
  | secretContent
  /-- `content_too_large` -/
  | contentTooLarge
  /-- `platformio_environment_section_required` -/
  | environmentRequired
  /-- The guard of the publication, or the disk -/
  | unpublished
  /-- `mutation_source_missing` -/
  | sourceMissing
  /-- `move_destination_exists` -/
  | destinationExists
  | patch (refusal : UnifiedPatches.Refusal)
  /-- `edit_match_must_be_exactly_one` -/
  | editMatch (details : EditMatch)

/-- A tool that was called. -/
inductive Call where
  | readFile (path : String)
  | writeFile (path : String) (content : Text)
  | editFileSimple (path : String) (oldText newText : Text)
  | applyPatch (path : String) (patch : Text)
  | deleteFile (path : String)
  | moveFile (path destination : String)
  | other (effect : Overlay → Overlay)

inductive Result where
  | read (text : Text)
  | written (created modified : Bool) (bytes : ℕ) (path : String)
  | edited (modified : Bool) (bytes : ℕ) (path : String)
  | deleted (path : String)
  | moved (path destination : String)
  | done

/-- The policy and the disk: `admits` are the reasons to deny a call, `publishes` tells whether the
stage takes a file, `normcase` is `os.path.normcase`, by which the disk tells names apart. -/
structure Host where
  admits : Overlay → Call → Option String
  publishes : Overlay → String → Bool
  normcase : String → String
  casefold : String → String
  isSensitivePath : String → Bool
  hasSecret : Text → Bool
  hasEnvironment : Text → Bool
  maxFileBytes : ℕ
  maxContentBytes : ℕ
  digits : Digits

variable (host : Host)

def fileAt (files : List (String × File)) (path : String) : Option File :=
  (lookup Prod.fst files (host.normcase path)).map Prod.snd

def overlayFile (overlay : Overlay) (path : String) : Option File :=
  if host.normcase path ∈ overlay.deleted.map host.normcase then none
  else (fileAt host overlay.stage path).or (fileAt host overlay.active path)

def readOverlayText (overlay : Overlay) (path : String) : Except Refusal Text :=
  if host.isSensitivePath path then .error .credentialRead
  else
    match overlayFile host overlay path with
    | none => .error .pathMissing
    | some file =>
      if host.maxFileBytes < file.bytes then .error .fileTooLarge
      else
        match file.text with
        | none => .error .utf8Required
        | some text =>
          if text.contains '\x00' then .error .binaryContent
          else if host.hasSecret text then .error .secretContent
          else .ok text

/-- `_validate_project_file_regression` -/
def losesEnvironment (overlay : Overlay) (path : String) (content : Text) : Bool :=
  host.casefold (String.ofList (path.toList.map fun c => if c = '\\' then '/' else c)) = "platformio.ini" &&
    (((overlayFile host overlay path).bind File.text).any host.hasEnvironment && !host.hasEnvironment content)

def writeStage (overlay : Overlay) (path : String) (content : Text) : Except Refusal Overlay := do
  require (content.contains '\x00' = false) .binaryContent
  require (textBytes content ≤ host.maxContentBytes ∧ textBytes content ≤ host.maxFileBytes) .contentTooLarge
  require (host.hasSecret content = false) .secretContent
  require (losesEnvironment host overlay path content = false) .environmentRequired
  require (host.publishes overlay path = true) .unpublished
  .ok { overlay with
    stage := replaceRow Prod.fst (host.normcase path, fileOf content) overlay.stage
    deleted := overlay.deleted.filter fun old => host.normcase old ≠ host.normcase path }

variable (s : Executor)

def keeping (outcome : Except Refusal (Result × Overlay)) : Except Refusal Result × Executor :=
  match outcome with
  | .ok (result, overlay) => (.ok result, { s with overlay })
  | .error refusal => (.error refusal, s)

def readFile (path : String) : Except Refusal Result × Executor :=
  match readOverlayText host s.overlay path with
  | .ok text => (.ok (.read text), { s with editReadRequired := s.editReadRequired.filter (· ≠ path) })
  | .error refusal => (.error refusal, s)

def withLineEnds (prior : Option Text) (content : Text) : Text :=
  if prior.any (fun text => decide (['\r', '\n'] <:+: text)) && !decide (['\r', '\n'] <:+: content) then
    content.flatMap fun c => if c = '\n' then ['\r', '\n'] else [c]
  else content

def publish (overlay : Overlay) (path : String) (content : Text) (changed : Bool) : Except Refusal Overlay :=
  if changed then writeStage host overlay path content else .ok overlay

def writeFile (overlay : Overlay) (path : String) (content : Text) : Except Refusal (Result × Overlay) := do
  let prior := overlayFile host overlay path
  let content := withLineEnds (prior.bind File.text) content
  let before ← if prior.isSome then readOverlayText host overlay path else .ok []
  let changed := !prior.isSome || decide (before ≠ content)
  let overlay' ← publish host overlay path content changed
  .ok (.written (!prior.isSome) (prior.isSome && changed) (textBytes content) path, overlay')

/-- `current.count(old_text) if old_text else 0` -/
def matchCount (oldText current : Text) : ℕ := if oldText = [] then 0 else count oldText current

def matchReason (count : ℕ) : String :=
  if count = 1 then "fresh_read_required" else if count = 0 then "no_match" else "multiple_matches"

def editFileSimple (path : String) (oldText newText : Text) : Except Refusal Result × Executor :=
  match readOverlayText host s.overlay path with
  | .error refusal => (.error refusal, s)
  | .ok current =>
    let count := matchCount oldText current
    if count ≠ 1 ∨ path ∈ s.editReadRequired then
      (.error (.editMatch ⟨path, count, matchReason count⟩), { s with editReadRequired := path :: s.editReadRequired })
    else
      let updated := replaceFirst oldText newText current
      let changed := decide (updated ≠ current)
      keeping s ((publish host s.overlay path updated changed).map fun overlay => (.edited changed (textBytes updated) path, overlay))

def applyPatch (overlay : Overlay) (path : String) (patch : Text) : Except Refusal (Result × Overlay) := do
  let current ← readOverlayText host overlay path
  let updated ← (applyUnifiedPatch host.digits current patch path.toList).mapError .patch
  let changed := decide (updated ≠ current)
  let overlay' ← publish host overlay path updated changed
  .ok (.edited changed (textBytes updated) path, overlay')

def mutationSource (overlay : Overlay) (path : String) : Except Refusal Text :=
  if (overlayFile host overlay path).isSome then readOverlayText host overlay path else .error .sourceMissing

def deleteStageFile (overlay : Overlay) (path : String) : Overlay :=
  { overlay with stage := deleteRow Prod.fst (host.normcase path) overlay.stage, deleted := path :: overlay.deleted }

def deleteFile (overlay : Overlay) (path : String) : Except Refusal (Result × Overlay) := do
  let _ ← mutationSource host overlay path
  .ok (.deleted path, deleteStageFile host overlay path)

def moveFile (overlay : Overlay) (path destination : String) : Except Refusal (Result × Overlay) := do
  let before ← mutationSource host overlay path
  require (overlayFile host overlay destination = none) .destinationExists
  let overlay' ← writeStage host overlay destination before
  .ok (.moved path destination, deleteStageFile host overlay' path)

def execute (s : Executor) (call : Call) : Except Refusal Result × Executor :=
  match host.admits s.overlay call with
  | some reason => (.error (.denied reason), s)
  | none =>
    match call with
    | .readFile path => readFile host s path
    | .writeFile path content => keeping s (writeFile host s.overlay path content)
    | .editFileSimple path oldText newText => editFileSimple host s path oldText newText
    | .applyPatch path patch => keeping s (applyPatch host s.overlay path patch)
    | .deleteFile path => keeping s (deleteFile host s.overlay path)
    | .moveFile path destination => keeping s (moveFile host s.overlay path destination)
    | .other effect => (.ok .done, { s with overlay := effect s.overlay })

end PromptForge.ToolEdits
