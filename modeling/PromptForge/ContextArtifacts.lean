import PromptForge.JsonTextLaws
import PromptForge.Runs

/-!
# Context artifacts

The observations that a run has put aside.
-/
namespace PromptForge.ContextArtifacts
open Runs Tables Json JsonText

abbrev Observation := { d : Dict // Proper (.obj d) }

inductive ArtifactError where
  | digestInvalid
  | deltaEmpty
  | segmentTooLarge
  | chainGap
  | countMismatch
  | digestMismatch
  | chainInvalid
  | parentMissing
  | segmentCorrupt
  | payloadInvalid
  /-- `KeyError(artifact_id)` -/
  | unknown (artifactId : String)
  /-- Any other exception, of the database or of the interpreter. -/
  | raised (text : String)
  deriving DecidableEq

def ArtifactError.text : ArtifactError → String
  | .digestInvalid => "AGENT_CONTEXT_ARTIFACT_DIGEST_INVALID"
  | .deltaEmpty => "AGENT_CONTEXT_ARTIFACT_DELTA_EMPTY"
  | .segmentTooLarge => "AGENT_CONTEXT_ARTIFACT_SEGMENT_TOO_LARGE"
  | .chainGap => "AGENT_CONTEXT_ARTIFACT_CHAIN_GAP"
  | .countMismatch => "AGENT_CONTEXT_ARTIFACT_COUNT_MISMATCH"
  | .digestMismatch => "AGENT_CONTEXT_ARTIFACT_DIGEST_MISMATCH"
  | .chainInvalid => "AGENT_CONTEXT_ARTIFACT_CHAIN_INVALID"
  | .parentMissing => "AGENT_CONTEXT_ARTIFACT_PARENT_MISSING"
  | .segmentCorrupt => "AGENT_CONTEXT_ARTIFACT_SEGMENT_CORRUPT"
  | .payloadInvalid => "AGENT_CONTEXT_ARTIFACT_PAYLOAD_INVALID"
  | .unknown artifactId => artifactId
  | .raised text => text

/-- The digest, `casefold`, and the default separators of `json.dumps` with a text for
    each float. -/
structure Host where
  sha256 : String → String
  casefold : String → String
  style : Style
  spaced : style.gap = [' ']

variable (host : Host)

def encodeObservationList (value : List Dict) : String := dumps host.style (.arr (value.map .obj))

def decodeObservationList (text : String) : Except ArtifactError (List Dict) :=
  match loads text with
  | none => .error (.raised "JSONDecodeError")
  | some (.arr items) =>
    match items.mapM obj? with
    | some observations => .ok observations
    | none => .error .payloadInvalid
  | some _ => .error .payloadInvalid

structure ArtifactRow where
  artifactId : String
  runId : String
  sessionId : String
  parentArtifactId : Option String
  observationCount : ℤ
  contentSha256 : String
  deltaSha256 : String
  payloadJson : String
  createdAt : String

structure Metadata where
  artifactId : String
  parentArtifactId : Option String
  observationCount : ℤ
  contentSha256 : String
  createdAt : String
  deriving DecidableEq

def parent (row : ArtifactRow) : Option String := row.parentArtifactId.filter (· ≠ "")

def metadata (row : ArtifactRow) : Metadata :=
  ⟨row.artifactId, parent row, row.observationCount, row.contentSha256, row.createdAt⟩

/-- `… WHERE artifact_id=? AND run_id=?` -/
def artifact? (rows : List ArtifactRow) (runId artifactId : String) : Option ArtifactRow :=
  rows.find? fun r => decide (r.artifactId = artifactId ∧ r.runId = runId)

/-- `ORDER BY observation_count DESC,created_at DESC` -/
def newer (a b : ArtifactRow) : Prop :=
  b.observationCount < a.observationCount ∨
    a.observationCount = b.observationCount ∧ b.createdAt ≤ a.createdAt

instance : DecidableRel newer := fun _ _ => inferInstanceAs (Decidable (_ ∨ _))

def latest (rows : List ArtifactRow) (runId : String) : Option ArtifactRow :=
  ((rows.filter fun r => decide (r.runId = runId)).insertionSort newer).head?

/-- The walk from an artifact to the first of its chain, with the artifacts already seen; it
    may see `left` more. -/
def loadObservations (rows : List ArtifactRow) (runId : String) :
    ℕ → List String → Option String → Except ArtifactError (List Dict)
  | _, _, none => .ok []
  | 0, _, some _ => .error .chainInvalid
  | left + 1, seen, some artifactId =>
    if artifactId ∈ seen then .error .chainInvalid
    else match artifact? rows runId artifactId with
      | none => .error .parentMissing
      | some row => do
        require (host.sha256 row.payloadJson = row.deltaSha256) .segmentCorrupt
        let segment ← decodeObservationList row.payloadJson
        let before ← loadObservations rows runId left (artifactId :: seen) (parent row)
        return before ++ segment

def maxSeen : ℕ := 4096

/-- A call of `save_context_artifact`; `refusal` is what the database raises in the end, if
    anything. -/
structure SaveRequest where
  runId : String
  sessionId : String
  observationCount : ℤ
  contentSha256 : String
  observationDelta : List Observation
  createdAt : String
  refusal : Option ArtifactError

def isDigest (digest : String) : Bool :=
  decide (digest.length = 64) && digest.toList.all fun c => "0123456789abcdef".toList.contains c

def artifactId (runId digest : String) : String :=
  "context-" ++ String.ofList ((host.sha256 (runId ++ ":" ++ digest)).toList.take 40)

/-- The identity is unique, and in a run the digest and the position are. -/
def insertArtifact (row : ArtifactRow) (rows : List ArtifactRow) : Except ArtifactError (List ArtifactRow) :=
  if rows.any fun r => decide (r.artifactId = row.artifactId ∨ r.runId = row.runId ∧
      (r.contentSha256 = row.contentSha256 ∨ r.observationCount = row.observationCount)) then
    .error (.raised "IntegrityError")
  else .ok (rows ++ [row])

def dicts (observations : List Observation) : List Dict := observations.map Subtype.val

def newRow (req : SaveRequest) (previous : Option ArtifactRow) : ArtifactRow where
  artifactId := artifactId host req.runId (host.casefold req.contentSha256)
  runId := req.runId
  sessionId := req.sessionId
  parentArtifactId := previous.map ArtifactRow.artifactId
  observationCount := req.observationCount
  contentSha256 := host.casefold req.contentSha256
  deltaSha256 := host.sha256 (encodeObservationList host (dicts req.observationDelta))
  payloadJson := encodeObservationList host (dicts req.observationDelta)
  createdAt := req.createdAt

def storeTx (req : SaveRequest) (rows : List ArtifactRow) : Except ArtifactError (Metadata × List ArtifactRow) := do
  let previous := latest rows req.runId
  let delta := dicts req.observationDelta
  let _ ← require (req.observationCount =
    (previous.map ArtifactRow.observationCount).getD 0 + delta.length) .chainGap
  let before ← loadObservations host rows req.runId maxSeen [] (previous.map ArtifactRow.artifactId)
  let _ ← require (((before ++ delta).length : ℤ) = req.observationCount) .countMismatch
  let _ ← require (host.sha256 (encodeObservationList host (before ++ delta)) = host.casefold req.contentSha256)
    .digestMismatch
  let rows' ← insertArtifact (newRow host req previous) rows
  req.refusal.elim (.ok (metadata (newRow host req previous), rows')) .error

/-- A digest that the run has an artifact for is answered with that artifact. -/
def saveTx (req : SaveRequest) (rows : List ArtifactRow) : Except ArtifactError (Metadata × List ArtifactRow) := do
  let digest := host.casefold req.contentSha256
  let _ ← require (1 ≤ req.observationCount ∧ isDigest digest = true) .digestInvalid
  let _ ← require (req.observationDelta.isEmpty = false) .deltaEmpty
  let _ ← require ((encodeObservationList host (dicts req.observationDelta)).utf8ByteSize ≤ 4 * 1024 * 1024)
    .segmentTooLarge
  (rows.find? fun r => decide (r.runId = req.runId ∧ r.contentSha256 = digest)).elim (storeTx host req rows)
    fun existing => .ok (metadata existing, rows)

def saveContextArtifact (rows : List ArtifactRow) (req : SaveRequest) :
    Except ArtifactError Metadata × List ArtifactRow := atomic id (saveTx host req) rows

structure Context where
  metadata : Metadata
  observations : List Dict

def contextArtifact (rows : List ArtifactRow) (runId artifactId : String) : Except ArtifactError Context := do
  let target ← (artifact? rows runId artifactId).elim (.error (.unknown artifactId)) .ok
  let observations ← loadObservations host rows runId maxSeen [] (some target.artifactId)
  let _ ← require ((observations.length : ℤ) = target.observationCount) .countMismatch
  let _ ← require (host.sha256 (encodeObservationList host observations) = target.contentSha256) .digestMismatch
  return ⟨metadata target, observations⟩

abbrev Step := Entry (List ArtifactRow) SaveRequest (Except ArtifactError Metadata)

abbrev history (requests : List SaveRequest) : List Step := trace (saveContextArtifact host) [] requests

/-- An accepted request that is not answered with an artifact stored before. -/
def Stores (e : Step) (m : Metadata) : Prop := e.outcome = .ok m ∧ e.before.length < e.after.length

/-- The observations saved along the parents of an artifact, and the number of artifacts. -/
inductive Chain (steps : List Step) (runId : String) : Option String → List Observation → ℕ → Prop
  | root : Chain steps runId none [] 0
  | link {e : Step} {m : Metadata} {observations : List Observation} {n : ℕ} (he : e ∈ steps)
      (hrun : e.action.runId = runId) (hs : Stores e m)
      (h : Chain steps runId m.parentArtifactId observations n) :
      Chain steps runId (some m.artifactId) (observations ++ e.action.observationDelta) (n + 1)

/-- The artifact a request was answered with is read back, with these observations. -/
def ReadsBack (rows : List ArtifactRow) (req : SaveRequest) (m : Metadata) (observations : List Observation) : Prop :=
  ∃ context, contextArtifact host rows req.runId m.artifactId = .ok context ∧ context.metadata = m ∧
    same (.arr (context.observations.map .obj)) (.arr ((dicts observations).map .obj)) = true ∧
    host.sha256 (encodeObservationList host (dicts observations)) = host.casefold req.contentSha256

end PromptForge.ContextArtifacts
