import Mathlib.Data.Prod.Lex
import Mathlib.Data.String.Basic
import PromptForge.FirmwareManifest
import PromptForge.JsonTextLaws
import PromptForge.Texts

/-!
# The artifact store

An artifact is a directory of the root with its payload and a manifest. It is made under a
hidden name and published by a rename; it is deleted file by file.
-/
namespace PromptForge.ArtifactStore
open Runs Json Tables
open FirmwareManifest (Bytes Digest isDigest)
open JsonText (Proper ProperEntries canon)

inductive ArtifactType where
  | firmwareBinary | buildLog | serialLog | simulationOutput | generatedSourceArchive
  deriving DecidableEq

def ArtifactType.value : ArtifactType → String
  | .firmwareBinary => "FIRMWARE_BINARY"
  | .buildLog => "BUILD_LOG"
  | .serialLog => "SERIAL_LOG"
  | .simulationOutput => "SIMULATION_OUTPUT"
  | .generatedSourceArchive => "GENERATED_SOURCE_ARCHIVE"

def artifactTypes : List ArtifactType := [.firmwareBinary, .buildLog, .serialLog, .simulationOutput, .generatedSourceArchive]

structure ArtifactMetadata where
  artifactId : String
  artifactType : ArtifactType
  name : String
  artifactPath : String
  contentType : String
  sizeBytes : ℤ
  sha256 : String
  createdAt : ℤ
  metadata : Dict

/-- A mapping of JSON values. -/
structure Metadata where
  entries : Dict
  proper : Proper (.obj entries)

def Metadata.set (metadata : Metadata) (key : String) (v : Value) (hv : Proper v) : Metadata where
  entries := metadata.entries.set key v
  proper := by
    refine ⟨nodup_replaceRow metadata.proper.1 _, JsonText.properEntries_iff.mpr fun e he => ?_⟩
    rcases mem_concat.1 he with he | rfl
    · exact JsonText.properEntries_iff.mp metadata.proper.2 e (List.mem_filter.mp he).1
    · exact hv

/-- The digest of bytes, the text of an instant, the archive of some artifacts, and the root. -/
structure Host where
  sha256 : Bytes → Digest
  format : ℤ → String
  parse : String → Option ℤ
  parse_format : ∀ t, parse (format t) = some t
  archive : List (ArtifactMetadata × Bytes) → Bytes
  root : String

inductive Refusal where
  | invalid (text : String)
  | notFound (artifactId : String)
  | conflict (artifactId : String)
  | integrity (text : String)

def Refusal.text : Refusal → String
  | .invalid text | .integrity text => text
  | .notFound artifactId => "artifact not found: " ++ artifactId
  | .conflict artifactId => "artifact_id already exists: " ++ artifactId

def isIdChar (c : Char) : Bool := c.isAlphanum || c == '.' || c == '_' || c == '-'

/-- `^[A-Za-z0-9][A-Za-z0-9._-]{0,127}$` -/
def isArtifactId (text : String) : Bool :=
  match text.toList with
  | [] => false
  | c :: cs => c.isAlphanum && cs.all isIdChar && decide (cs.length ≤ 127)

def validateArtifactId (value : Value) : Except String String :=
  match str? value with
  | some text => if isArtifactId text then .ok text else .error "artifact_id must be a filesystem-safe identifier"
  | none => .error "artifact_id must be a filesystem-safe identifier"

def reservedNames : List String :=
  ["con", "prn", "aux", "nul"] ++ ["1", "2", "3", "4", "5", "6", "7", "8", "9"].flatMap fun n => ["com" ++ n, "lpt" ++ n]

def validateArtifactName (value : Value) : Except String String :=
  match str? value with
  | none => .error "name must be a non-empty filename"
  | some text =>
    let cs := text.toList
    if text = "" ∨ text ≠ Texts.strip text then .error "name must be a non-empty filename"
    else if 128 < cs.length ∨ '\x00' ∈ cs ∨ '/' ∈ cs ∨ '\\' ∈ cs then .error "name must be a safe filename"
    else if text = "." ∨ text = ".." ∨ cs.getLast? = some ' ' ∨ cs.getLast? = some '.' then .error "name must be a safe filename"
    else if cs.any (fun c => decide (c ∈ "<>:\"|?*".toList) || decide (c.toNat < 32)) then
      .error "name contains a cross-platform unsafe character"
    else if Texts.casefold (String.ofList (cs.takeWhile (· ≠ '.'))) ∈ reservedNames then .error "name contains a reserved filename"
    else .ok text

def validateText (fieldName : String) (value : Value) : Except String String :=
  match str? value with
  | none => .error (fieldName ++ " must be a string")
  | some text =>
    if Texts.strip text = "" then .error (fieldName ++ " must be non-empty")
    else if '\x00' ∈ text.toList then .error (fieldName ++ " cannot contain NUL characters")
    else .ok text

def validateSize (value : Value) : Except String ℤ :=
  match value with
  | .int n => if n < 0 then .error "size_bytes must be a non-negative integer" else .ok n
  | _ => .error "size_bytes must be a non-negative integer"

def validateSha256 (value : Value) : Except String String :=
  match str? value with
  | some text => if isDigest text then .ok text else .error "sha256 must be a lowercase SHA-256 digest"
  | none => .error "sha256 must be a lowercase SHA-256 digest"

mutual

def keysOk : Value → Bool
  | .arr items => keysOkItems items
  | .obj entries => keysOkEntries entries
  | _ => true

def keysOkItems : List Value → Bool
  | [] => true
  | v :: vs => keysOk v && keysOkItems vs

def keysOkEntries : List (String × Value) → Bool
  | [] => true
  | (k, v) :: es => decide (k ≠ "") && keysOk v && keysOkEntries es

end

def freezeMetadata (value : Value) : Except String Dict :=
  match obj? value with
  | none => .error "metadata must be a mapping"
  | some entries =>
    if keysOk (.obj entries) then .ok entries else .error "metadata keys must be non-empty strings"

def construct (artifactId : Value) (artifactType : ArtifactType) (name artifactPath contentType sizeBytes sha256 : Value)
    (createdAt : ℤ) (metadata : Value) : Except String ArtifactMetadata := do
  let artifactId ← validateArtifactId artifactId
  let name ← validateArtifactName name
  let artifactPath ← validateText "artifact_path" artifactPath
  let contentType ← validateText "content_type" contentType
  let sizeBytes ← validateSize sizeBytes
  let sha256 ← validateSha256 sha256
  let metadata ← freezeMetadata metadata
  .ok ⟨artifactId, artifactType, name, artifactPath, contentType, sizeBytes, sha256, createdAt, metadata⟩

variable (p : Host)

def manifestKeys : List String :=
  ["artifact_id", "artifact_type", "content_type", "created_at", "metadata", "name", "schema_version", "sha256", "size_bytes"]

def metadataKeys : List String :=
  ["artifact_id", "artifact_path", "artifact_type", "content_type", "created_at", "metadata", "name", "sha256", "size_bytes"]

def manifestFor (m : ArtifactMetadata) : Value :=
  .obj [("schema_version", .int 1), ("artifact_id", .str m.artifactId), ("artifact_type", .str m.artifactType.value),
    ("name", .str m.name), ("content_type", .str m.contentType), ("size_bytes", .int m.sizeBytes), ("sha256", .str m.sha256),
    ("created_at", .str (p.format m.createdAt)), ("metadata", .obj m.metadata)]

/-- `_exact_schema`; the keys that are expected are in order. -/
def exactSchema (data : Value) (expected : List String) (label : String) : Except String Dict :=
  match obj? data with
  | none => .error (label ++ " must be a mapping")
  | some entries =>
    let missing := expected.filter fun k => (entries.get? k).isNone
    let unknown := (entries.map Prod.fst).filter fun k => decide (k ∉ expected)
    if missing ≠ [] then .error (label ++ " is missing required fields: " ++ ", ".intercalate missing)
    else if unknown ≠ [] then
      .error (label ++ " contains unknown fields: " ++ ", ".intercalate (unknown.insertionSort (· ≤ ·)))
    else .ok entries

def validateManifest (data : Value) (expectedId : String) : Except String Dict := do
  let values ← exactSchema data manifestKeys "artifact manifest"
  if !same (values.get "schema_version") (.int 1) then .error "unsupported artifact manifest version"
  else if !same (values.get "artifact_id") (.str expectedId) then .error "artifact manifest identifier does not match its directory"
  else .ok values

def parseArtifactType (value : Value) : Except String ArtifactType :=
  match artifactTypes.find? fun t => same value (.str t.value) with
  | some t => .ok t
  | none => .error "artifact_type is not supported"

def parseDatetime (value : Value) : Except String ℤ :=
  match str? value with
  | none => .error "created_at must be an ISO 8601 string"
  | some text =>
    match p.parse text with
    | some t => .ok t
    | none => .error "created_at must be valid ISO 8601"

def fromDict (data : Dict) : Except String ArtifactMetadata := do
  let values ← exactSchema (.obj data) metadataKeys "artifact metadata"
  let artifactType ← parseArtifactType (values.get "artifact_type")
  let createdAt ← parseDatetime p (values.get "created_at")
  construct (values.get "artifact_id") artifactType (values.get "name") (values.get "artifact_path") (values.get "content_type")
    (values.get "size_bytes") (values.get "sha256") createdAt (values.get "metadata")

/-- A directory of the root. The manifest is the document that its text holds. -/
structure Directory where
  name : String
  payload : Option Bytes
  manifest : Option Value

def payloadPath (name : String) : String := p.root ++ "/" ++ name ++ "/payload"

def integrity {α : Type} : Except String α → Except Refusal α
  | .ok a => .ok a
  | .error text => .error (.integrity text)

def readMetadata (d : Directory) : Except Refusal ArtifactMetadata :=
  match d.manifest with
  | none => .error (.integrity "artifact manifest is missing")
  | some raw => integrity do
    let values ← validateManifest raw d.name
    fromDict p ((values.erase "schema_version").set "artifact_path" (.str (payloadPath p d.name)))

def readPayload (d : Directory) : Except Refusal Bytes := do
  let m ← readMetadata p d
  match d.payload with
  | none => .error (.integrity "artifact payload is missing")
  | some payload =>
    if (payload.length : ℤ) ≠ m.sizeBytes then .error (.integrity "artifact size does not match metadata")
    else if (p.sha256 payload).text ≠ m.sha256 then .error (.integrity "artifact checksum does not match metadata")
    else .ok payload

def isHidden (name : String) : Bool := decide (name.toList.head? = some '.')

abbrev Root := List Directory

def directory (dirs : Root) (name : String) : Option Directory := lookup Directory.name dirs name

def load (dirs : Root) (artifactId : String) : Except Refusal Bytes :=
  match directory dirs artifactId with
  | none => .error (.notFound artifactId)
  | some d => readPayload p d

def listKey (m : ArtifactMetadata) : ℤ ×ₗ String ×ₗ String ×ₗ String :=
  toLex (m.createdAt, toLex (m.artifactType.value, toLex (Texts.casefold m.name, m.artifactId)))

def listed (artifactType : Option ArtifactType) : Root → Except Refusal (List ArtifactMetadata)
  | [] => .ok []
  | d :: dirs =>
    if isHidden d.name || d.manifest.isNone then listed artifactType dirs
    else do
      let item ← readMetadata p d
      let items ← listed artifactType dirs
      .ok (if artifactType.all (· = item.artifactType) then item :: items else items)

def listArtifacts (dirs : Root) (artifactType : Option ArtifactType) : Except Refusal (List ArtifactMetadata) := do
  let items ← listed p artifactType dirs
  .ok (items.insertionSort fun a b => listKey a ≤ listKey b)

/-- The arguments of `_save_artifact_sync`. -/
structure Request where
  artifactType : ArtifactType
  name : String
  payload : Bytes
  artifactId : Option String
  contentType : String
  metadata : Metadata

def derivedId (artifactType : ArtifactType) (name digest : String) : String :=
  "artifact-" ++ ((p.sha256 (FirmwareManifest.encode (artifactType.value ++ "\x00" ++ name ++ "\x00" ++ digest))).text.take 32).toString

def resolvedId (r : Request) : String := r.artifactId.getD (derivedId p r.artifactType r.name (p.sha256 r.payload).text)

def candidate (r : Request) (now : ℤ) : Except String ArtifactMetadata :=
  construct (.str (resolvedId p r)) r.artifactType (.str r.name) (.str (payloadPath p (resolvedId p r))) (.str r.contentType)
    (.int r.payload.length) (.str (p.sha256 r.payload).text) now (.obj r.metadata.entries)

def sameArtifact (existing candidate : ArtifactMetadata) : Bool :=
  decide (existing.artifactType = candidate.artifactType) && decide (existing.name = candidate.name) &&
    decide (existing.contentType = candidate.contentType) && decide (existing.sizeBytes = candidate.sizeBytes) &&
    decide (existing.sha256 = candidate.sha256) && same (.obj existing.metadata) (.obj candidate.metadata)

def defaultContentType (artifactType : ArtifactType) (name : String) : String :=
  match artifactType with
  | .generatedSourceArchive => "application/zip"
  | .firmwareBinary => "application/octet-stream"
  | .buildLog | .serialLog => "text/plain; charset=utf-8"
  | .simulationOutput => if (Texts.casefold name).endsWith ".json" then "application/json" else "application/octet-stream"

def saveRequest (artifactType : ArtifactType) (name : String) (content : Bytes) (artifactId contentType : Option String)
    (metadata : Metadata) : Except String Request := do
  let _ ← validateArtifactName (.str name)
  let _ ← (artifactId.map fun id => validateArtifactId (.str id)).getD (.ok "")
  let _ ← (contentType.map fun text => validateText "content_type" (.str text)).getD (.ok "")
  let _ ← freezeMetadata (.obj metadata.entries)
  .ok ⟨artifactType, name, content, artifactId, contentType.getD (defaultContentType artifactType name), metadata⟩

def validateIds (ids : List String) : Except String (List String) := do
  Runs.require (ids ≠ []) "artifact_ids cannot be empty"
  let ids ← ids.mapM fun id => validateArtifactId (.str id)
  Runs.require ids.Nodup "artifact_ids cannot contain duplicates"
  .ok ids

def checkArchive (ids : List String) (name : String) (artifactId : Option String) (metadata : Metadata) :
    Except String (List String) := do
  let ids ← validateIds ids
  let _ ← validateArtifactName (.str name)
  Runs.require ((Texts.casefold name).endsWith ".zip") "archive_name must end with .zip"
  let _ ← (artifactId.map fun id => validateArtifactId (.str id)).getD (.ok "")
  let _ ← freezeMetadata (.obj metadata.entries)
  .ok ids

def archiveItem (dirs : Root) (artifactId : String) : Except Refusal (ArtifactMetadata × Bytes) :=
  match directory dirs artifactId with
  | none => .error (.notFound artifactId)
  | some d => do
    let m ← readMetadata p d
    let payload ← load p dirs artifactId
    .ok (m, payload)

def archiveRequest (dirs : Root) (ids : List String) (name : String) (artifactId : Option String) (metadata : Metadata) :
    Except Refusal Request := do
  let artifacts ← (ids.insertionSort (· ≤ ·)).mapM (archiveItem p dirs)
  let metadata := metadata.set "artifact_ids" (.arr (artifacts.map fun a => .str a.1.artifactId)) <|
    JsonText.properItems_iff.mpr fun v hv => by
      obtain ⟨a, -, rfl⟩ := List.mem_map.mp hv
      exact trivial
  let metadata := metadata.set "artifact_count" (.int artifacts.length) trivial
  let _ ← integrity (freezeMetadata (.obj metadata.entries))
  .ok ⟨.generatedSourceArchive, name, p.archive artifacts, artifactId, "application/zip", metadata⟩

inductive Phase where
  | idle
  | staged (stage : String) (r : Request) (m : ArtifactMetadata)
  | payloadWritten (stage : String) (r : Request) (m : ArtifactMetadata)
  | manifestWritten (stage : String) (r : Request) (m : ArtifactMetadata)
  | removing (artifactId : String)

/-- `requests` are the saves that were asked for so far. -/
structure State where
  dirs : Root
  phase : Phase
  requests : List Request

def State.initial : State := ⟨[], .idle, []⟩

inductive Action where
  | save (artifactType : ArtifactType) (name : String) (content : Bytes) (artifactId contentType : Option String)
      (metadata : Metadata) (now : ℤ) (stage : String)
  | archive (ids : List String) (name : String) (artifactId : Option String) (metadata : Metadata) (now : ℤ) (stage : String)
  | load (artifactId : String)
  | list (artifactType : Option ArtifactType)
  | delete (artifactId : String)
  | next
  /-- `rmtree` removes the payload, or the manifest. -/
  | unlink (payload : Bool)
  /-- The file system fails; the stage may be removed. -/
  | fault (removed : Bool)
  | crash

/-- `refused` is no step of the code: it is busy, or there is nothing to continue. -/
inductive Outcome where
  | refused
  | running
  | failed
  | crashed
  | raised (error : Refusal)
  | saved (r : Request) (m : ArtifactMetadata)
  | loaded (payload : Bytes)
  | items (items : List ArtifactMetadata)
  | deleted (artifactId : String) (existed : Bool)

def updateDirectory (dirs : Root) (name : String) (f : Directory → Directory) : Root :=
  updateWhere (fun d => decide (d.name = name)) f dirs

def rename (dirs : Root) (name newName : String) : Root :=
  match directory dirs name with
  | some d => deleteRow Directory.name name dirs ++ [{ d with name := newName }]
  | none => dirs

def stageName (stage : String) : String := ".artifact-" ++ stage

/-- `_save_artifact_sync` up to its stage; `mkdtemp` takes a name that is free. -/
def saveSync (s : State) (r : Request) (now : ℤ) (stage : String) : Outcome × State :=
  match candidate p r now with
  | .error text => (.raised (.invalid text), s)
  | .ok m =>
    let asked := { s with requests := s.requests ++ [r] }
    match directory s.dirs m.artifactId with
    | some d =>
      match readMetadata p d with
      | .error error => (.raised error, asked)
      | .ok existing =>
        if sameArtifact existing m then
          match readPayload p d with
          | .error error => (.raised error, asked)
          | .ok _ => (.saved r existing, asked)
        else (.raised (.conflict m.artifactId), asked)
    | none =>
      match directory s.dirs (stageName stage) with
      | some _ => (.refused, s)
      | none => (.running, { asked with dirs := s.dirs ++ [⟨stageName stage, none, none⟩], phase := .staged (stageName stage) r m })

def deleteSync (s : State) (artifactId : String) : Outcome × State :=
  match directory s.dirs artifactId with
  | none => (.deleted artifactId false, s)
  | some _ => (.running, { s with phase := .removing artifactId })

def call (s : State) : Action → Outcome × State
  | .save artifactType name content artifactId contentType metadata now stage =>
    match saveRequest artifactType name content artifactId contentType metadata with
    | .error text => (.raised (.invalid text), s)
    | .ok r => saveSync p s r now stage
  | .archive ids name artifactId metadata now stage =>
    match checkArchive ids name artifactId metadata with
    | .error text => (.raised (.invalid text), s)
    | .ok ids =>
      match archiveRequest p s.dirs ids name artifactId metadata with
      | .error error => (.raised error, s)
      | .ok r => saveSync p s r now stage
  | .load artifactId =>
    match validateArtifactId (.str artifactId) with
    | .error text => (.raised (.invalid text), s)
    | .ok artifactId =>
      match load p s.dirs artifactId with
      | .error error => (.raised error, s)
      | .ok payload => (.loaded payload, s)
  | .list artifactType =>
    match listArtifacts p s.dirs artifactType with
    | .error error => (.raised error, s)
    | .ok items => (.items items, s)
  | .delete artifactId =>
    match validateArtifactId (.str artifactId) with
    | .error text => (.raised (.invalid text), s)
    | .ok artifactId => deleteSync s artifactId
  | _ => (.refused, s)

def published (s : State) (r : Request) (artifactId : String) : Outcome × State :=
  match directory s.dirs artifactId with
  | none => (.raised (.integrity "managed artifact must be a directory"), s)
  | some d =>
    match readMetadata p d with
    | .error error => (.raised error, s)
    | .ok m => (.saved r m, s)

def next (s : State) : Outcome × State :=
  match s.phase with
  | .idle => (.refused, s)
  | .staged stage r m =>
    (.running, { s with
      dirs := updateDirectory s.dirs stage fun d => { d with payload := some r.payload }
      phase := .payloadWritten stage r m })
  | .payloadWritten stage r m =>
    (.running, { s with
      dirs := updateDirectory s.dirs stage fun d => { d with manifest := some (canon (manifestFor p m)) }
      phase := .manifestWritten stage r m })
  | .manifestWritten stage r m =>
    published p { s with dirs := rename s.dirs stage m.artifactId, phase := .idle } r m.artifactId
  | .removing artifactId =>
    match directory s.dirs artifactId with
    | some ⟨_, none, none⟩ =>
      (.deleted artifactId true, { s with dirs := deleteRow Directory.name artifactId s.dirs, phase := .idle })
    | _ => (.refused, s)

def unlink (s : State) (payload : Bool) : Outcome × State :=
  match s.phase with
  | .removing artifactId =>
    (.running, { s with
      dirs := updateDirectory s.dirs artifactId fun d =>
        if payload then { d with payload := none } else { d with manifest := none } })
  | _ => (.refused, s)

def stageOf : Phase → Option String
  | .staged stage _ _ | .payloadWritten stage _ _ | .manifestWritten stage _ _ => some stage
  | _ => none

/-- A save that fails removes its stage, if the file system lets it. -/
def fault (s : State) (removed : Bool) : Outcome × State :=
  match s.phase with
  | .idle => (.refused, s)
  | .removing _ => (.failed, { s with phase := .idle })
  | _ =>
    (.failed, { s with
      dirs := ((stageOf s.phase).filter fun _ => removed).elim s.dirs fun stage => deleteRow Directory.name stage s.dirs
      phase := .idle })

def step (s : State) : Action → Outcome × State
  | .next => next p s
  | .unlink payload => unlink s payload
  | .fault removed => fault s removed
  | .crash => (.crashed, { s with phase := .idle })
  | a =>
    match s.phase with
    | .idle => call p s a
    | _ => (.refused, s)

end PromptForge.ArtifactStore
