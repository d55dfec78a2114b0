import PromptForge.Store
import PromptForge.Texts

/-!
# The durable input queue

Messages to a run wait in a table.
-/
namespace PromptForge.Store
open Runs Tables Json Texts

variable (host : Host)

def andThen {τ υ : Type} (first : Call τ) (next : τ → Call υ) : Call υ := fun s =>
  match first s with
  | (.error error, s) => (.error error, s)
  | (.ok a, s) => next a s

def done {τ : Type} (a : τ) : Call τ := fun s => (.ok a, s)

def raise {τ : Type} (error : StoreError) : Call τ := fun s => (.error error, s)

/-- What the clock, `uuid4` and the database bring to a call: creation times, the
    identities of the events it announces, and the errors it meets there. -/
structure Draw where
  stamp : String
  eventIds : ℕ → String
  refusals : ℕ → Option StoreError

def announce (p : Process) (sessionId : String) (payload : Dict) (draw : Draw) (i : ℕ) : Call Dict :=
  appendEvent host p ⟨sessionId, payload, none, none, 1, 0, draw.stamp, draw.eventIds i, draw.refusals i⟩

def QueueMode.text : QueueMode → String
  | .followUp => "FOLLOW_UP"
  | .steer => "STEER"
  | .contextInjection => "CONTEXT_INJECTION"

def mode? (text : String) : Option QueueMode :=
  [QueueMode.followUp, .steer, .contextInjection].find? fun mode => decide (mode.text = text)

/-- The words with one blank between them; the join has none at its ends to strip. -/
def queueText (content : String) : Except StoreError String :=
  let text := String.intercalate " " (words content)
  if text = "" ∨ 8000 < text.length then .error .queueContentInvalid else .ok text

def excerpt (text : String) : String := String.ofList (text.toList.take 500)

def textValue (text : Option String) : Value := text.elim .null .str

def enqueueTx (itemId sessionId : String) (runId : Option String) (mode : QueueMode)
    (text source stamp : String) (db : Db) : Except StoreError (QueueItem × Db) :=
  let previous := (db.queue.filter fun r => decide (r.sessionId = sessionId)).foldl
    (fun n r => max n r.insertionSequence) 0
  let item : QueueItem := ⟨itemId, sessionId, runId, mode, source, text, .queued, previous + 1, stamp,
    stamp, none⟩
  match insertRow QueueRow.itemId ⟨itemId, sessionId, runId, mode, .queued, previous + 1, item, stamp,
      stamp⟩ db.queue with
  | none => .error (.raised "UNIQUE constraint failed")
  | some queue => .ok (item, { db with queue := queue })

def enqueueInput (p : Process) (sessionId : String) (runId : Option String)
    (mode content source itemId : String) (draw : Draw) : Call QueueItem :=
  match mode? (upper mode) with
  | none => raise .queueModeInvalid
  | some mode =>
    match queueText content with
    | .error error => raise error
    | .ok text =>
      andThen (commit (enqueueTx itemId sessionId runId mode text source draw.stamp)) fun item =>
        andThen (announce host p sessionId [("event_type", .str "agent.inbox.inserted"),
          ("run_id", textValue runId), ("queue_item_id", .str itemId), ("mode", .str mode.text),
          ("message", .str (excerpt text))] draw 0) fun _ => done item

abbrev queueItem? (db : Db) (itemId : String) : Option QueueRow := lookup QueueRow.itemId db.queue itemId

def QueueRow.edited (text stamp : String) (r : QueueRow) : QueueRow :=
  { r with payload := { r.payload with content := text, updatedAt := stamp }, updatedAt := stamp }

def QueueRow.taken (stamp : String) (r : QueueRow) : QueueRow :=
  { r with
    status := .removed
    payload := { r.payload with status := .removed, updatedAt := stamp }
    updatedAt := stamp }

/-- `run_id or payload.get("run_id")` -/
def claimant (runId itemRun : Option String) : Option String :=
  if runId.getD "" = "" then itemRun else runId

def claimedItem (runId : Option String) (stamp : String) (item : QueueItem) : QueueItem :=
  { item with
    status := .claimed
    claimedAt := some stamp
    updatedAt := stamp
    runId := claimant runId item.runId }

def QueueRow.claimed (runId : Option String) (stamp : String) (r : QueueRow) : QueueRow :=
  { r with
    runId := (claimedItem runId stamp r.payload).runId
    status := .claimed
    payload := claimedItem runId stamp r.payload
    updatedAt := stamp }

/-- `touched` tells whether the JSON gets the new time too. -/
def QueueRow.acknowledged (touched : Bool) (stamp : String) (r : QueueRow) : QueueRow :=
  { r with
    status := .acknowledged
    payload := { r.payload with
      status := .acknowledged
      updatedAt := if touched then stamp else r.payload.updatedAt }
    updatedAt := stamp }

def QueueRow.transferred (replacement stamp : String) (r : QueueRow) : QueueRow :=
  { r with
    runId := some replacement
    status := .queued
    payload := { r.payload with runId := some replacement, status := .queued }
    updatedAt := stamp }

def updateQueue (p : QueueRow → Bool) (f : QueueRow → QueueRow) (db : Db) : Db :=
  { db with queue := updateWhere p f db.queue }

def changeItemTx (itemId : String) (refusal : StoreError) (f : QueueRow → QueueRow) (db : Db) :
    Except StoreError (QueueItem × Db) :=
  match queueItem? db itemId with
  | none => .error .queueItemUnknown
  | some row =>
    if row.status ≠ .queued then .error refusal
    else .ok ((f row).payload, updateQueue (fun r => r.itemId = itemId) f db)

def editQueueItem (p : Process) (itemId content : String) (draw : Draw) : Call QueueItem :=
  match queueText content with
  | .error error => raise error
  | .ok text =>
    andThen (commit (changeItemTx itemId .queueItemNotEditable (.edited text draw.stamp))) fun item =>
      andThen (announce host p item.sessionId [("event_type", .str "agent.inbox.edited"),
        ("run_id", textValue item.runId), ("queue_item_id", .str itemId),
        ("message", .str (excerpt text))] draw 0) fun _ => done item

def removeQueueItem (p : Process) (itemId : String) (draw : Draw) : Call QueueItem :=
  andThen (commit (changeItemTx itemId .queueItemNotRemovable (.taken draw.stamp))) fun item =>
    andThen (announce host p item.sessionId [("event_type", .str "agent.inbox.removed"),
      ("run_id", textValue item.runId), ("queue_item_id", .str itemId)] draw 0) fun _ => done item

def eligible (sessionId : String) (runId : Option String) (modes : List QueueMode) (r : QueueRow) : Bool :=
  decide (r.sessionId = sessionId ∧ r.status = .queued ∧ r.mode ∈ modes ∧
    (runId = none ∨ r.runId = runId ∨ r.runId = none))

def claimLimit (limit : ℤ) : ℕ := (max 1 (min limit 32)).toNat

/-- `… ORDER BY insertion_sequence LIMIT ?` -/
def claimRows (sessionId : String) (runId : Option String) (modes : List QueueMode) (limit : ℤ)
    (queue : List QueueRow) : List QueueRow :=
  ((queue.filter (eligible sessionId runId modes)).insertionSort
    fun r r' => r.insertionSequence ≤ r'.insertionSequence).take (claimLimit limit)

/-- `UPDATE … WHERE item_id=? AND status='queued'` for each of the rows. -/
def selected (rows : List QueueRow) (r : QueueRow) : Bool :=
  (rows.any fun row => decide (row.itemId = r.itemId)) && decide (r.status = .queued)

def claimTx (sessionId : String) (runId : Option String) (modes : List QueueMode) (limit : ℤ)
    (stamp : String) (db : Db) : Except StoreError (List QueueItem × Db) :=
  let rows := claimRows sessionId runId modes limit db.queue
  .ok (rows.map fun r => claimedItem runId stamp r.payload,
    updateQueue (selected rows) (.claimed runId stamp) db)

def announceClaims (p : Process) (sessionId : String) (draw : Draw) : ℕ → List QueueItem → Call Unit
  | _, [] => done ()
  | i, item :: items =>
    andThen (announce host p sessionId [("event_type", .str "agent.inbox.claimed"),
      ("run_id", textValue item.runId), ("queue_item_id", .str item.itemId),
      ("mode", .str item.mode.text)] draw i) fun _ => announceClaims p sessionId draw (i + 1) items

def claimQueueItems (p : Process) (sessionId : String) (runId : Option String) (modes : List QueueMode)
    (limit : ℤ) (draw : Draw) : Call (List QueueItem) :=
  andThen (commit (claimTx sessionId runId modes limit draw.stamp)) fun items =>
    andThen (announceClaims host p sessionId draw 0 items) fun _ => done items

def heldBy (runId : String) (r : QueueRow) : Bool := decide (r.runId = some runId ∧ r.status = .claimed)

def acknowledgeGuidance (runId stamp : String) : Call Unit :=
  commit fun db => .ok ((), updateQueue (heldBy runId) (.acknowledged false stamp) db)

def transferUnacknowledgedGuidance (source replacement stamp : String) : Call Unit :=
  commit fun db => .ok ((), updateQueue
    (fun r => decide (r.runId = some source ∧ (r.status = .claimed ∨ r.status = .queued)))
    (.transferred replacement stamp) db)

def event? (sessionId : String) (sequence : ℕ) (db : Db) : Option EventRow :=
  db.events.find? fun r => decide (r.sessionId = sessionId ∧ r.sequence = sequence)

/-- The boundary a checkpoint may stand on: an admission at turn zero, a settled turn or a
    tool checkpoint after it. -/
def atBoundary (runId : String) (turn : ℕ) (event : EventRow) : Bool :=
  decide (event.runId.getD "" = runId ∧
    event.eventType ∈ ["turn.settled", "runtime.admitted", "tool.checkpoint"] ∧
    ¬ (event.eventType = "runtime.admitted" ∧ turn ≠ 0) ∧
    ¬ (event.eventType ∈ ["turn.settled", "tool.checkpoint"] ∧ turn = 0))

def resumable (checkpoint : Dict) : Bool := (obj? (checkpoint.get "resume")).isSome

def sealedCheckpoint (runId sessionId : String) (turn sequence : ℕ) (event : EventRow) (stamp : String)
    (payload : Dict) : Dict :=
  let checkpoint := [("checkpoint_version", Value.str "forgex.agent-checkpoint.v1"), ("run_id", .str runId),
    ("session_id", .str sessionId), ("turn", .int turn), ("session_seq", .int sequence),
    ("event_checksum", .str event.eventChecksum), ("safe_boundary", .str event.eventType),
    ("effect_replay_allowed", .bool false), ("resume_mode", .str "replacement_run_only"),
    ("updated_at", .str stamp)].foldl (fun d entry => d.set entry.1 entry.2) payload
  if resumable checkpoint then
    let version := if event.eventType = "runtime.admitted" then "forgex.agent-checkpoint.v3"
      else "forgex.agent-checkpoint.v2"
    let checkpoint := (checkpoint.set "checkpoint_version" (.str version)).set "resume_mode"
      (.str "user_confirmed_continuation")
    checkpoint.set "checkpoint_id" (.str (host.sha256 (host.encode checkpoint)))
  else checkpoint

def saveRunCheckpointTx (runId sessionId : String) (turn sessionSeq : ℤ) (payload : Dict) (stamp : String)
    (db : Db) : Except StoreError (Dict × Db) :=
  let turn := turn.toNat
  let sequence := (max 1 sessionSeq).toNat
  match event? sessionId sequence db with
  | none => .error .checkpointBoundaryInvalid
  | some event =>
    if atBoundary runId turn event = false then .error .checkpointBoundaryInvalid
    else
      let current := lookup RunCheckpoint.runId db.checkpoints runId
      match current.filter fun row => decide (turn < row.turn ∨ sequence < row.sessionSeq) with
      | some row => .ok (row.payload, db)
      | none =>
        let checkpoint := sealedCheckpoint host runId sessionId turn sequence event stamp payload
        let row : RunCheckpoint :=
          ⟨runId, sessionId, turn, sequence, event.eventChecksum, checkpoint, stamp⟩
        let db := { db with checkpoints := replaceRow RunCheckpoint.runId row db.checkpoints }
        if resumable checkpoint ∧ event.eventType = "turn.settled" then
          .ok (checkpoint, updateQueue (heldBy runId) (.acknowledged true stamp) db)
        else .ok (checkpoint, db)

def saveRunCheckpoint (runId sessionId : String) (turn sessionSeq : ℤ) (payload : Dict) (stamp : String) :
    Call Dict :=
  commit (saveRunCheckpointTx host runId sessionId turn sessionSeq payload stamp)

inductive QueueRequest where
  | journal (r : Request)
  | enqueue (p : Process) (sessionId : String) (runId : Option String) (mode content source itemId : String)
      (draw : Draw)
  | edit (p : Process) (itemId content : String) (draw : Draw)
  | remove (p : Process) (itemId : String) (draw : Draw)
  | claim (p : Process) (sessionId : String) (runId : Option String) (modes : List QueueMode) (limit : ℤ)
      (draw : Draw)
  | acknowledge (runId stamp : String)
  | transfer (source replacement stamp : String)
  | checkpoint (runId sessionId : String) (turn sessionSeq : ℤ) (payload : Dict) (stamp : String)

inductive QueueReply where
  | journal (reply : Reply)
  | item (item : QueueItem)
  | items (items : List QueueItem)
  | done
  | checkpoint (payload : Dict)

def respond {τ : Type} (f : τ → QueueReply) (result : Except StoreError τ × State) :
    Except StoreError QueueReply × State :=
  (result.1.map f, result.2)

def serve (s : State) : QueueRequest → Except StoreError QueueReply × State
  | .journal r => respond .journal (perform host s r)
  | .enqueue p sessionId runId mode content source itemId draw =>
    respond .item (enqueueInput host p sessionId runId mode content source itemId draw s)
  | .edit p itemId content draw => respond .item (editQueueItem host p itemId content draw s)
  | .remove p itemId draw => respond .item (removeQueueItem host p itemId draw s)
  | .claim p sessionId runId modes limit draw =>
    respond .items (claimQueueItems host p sessionId runId modes limit draw s)
  | .acknowledge runId stamp => respond (fun _ => .done) (acknowledgeGuidance runId stamp s)
  | .transfer source replacement stamp =>
    respond (fun _ => .done) (transferUnacknowledgedGuidance source replacement stamp s)
  | .checkpoint runId sessionId turn sessionSeq payload stamp =>
    respond .checkpoint (saveRunCheckpoint host runId sessionId turn sessionSeq payload stamp s)

end PromptForge.Store
