import PromptForge.Json
import PromptForge.Runs

/-!
# The orchestration store: tables, journal and session leases

The journal of a session is a chain of events under a head; the columns beside
an event's JSON repeat parts of it. A session is written under a lease, whose
epoch grows with every grant. A `payload_json` column is kept as the object its
text decodes to. Clock readings are microseconds.
-/
namespace PromptForge.Store
open Runs Tables Json

abbrev Time := ℤ
abbrev Process := ℕ

inductive StoreError where
  | journalQuarantined
  | idempotencyConflict
  | leaseHeld
  | leaseFenced
  | leaseExpired
  | checkpointBoundaryInvalid
  | queueModeInvalid
  | queueContentInvalid
  | queueItemUnknown
  | queueItemNotEditable
  | queueItemNotRemovable
  /-- Any other exception, of the database or of the interpreter. -/
  | raised (text : String)
  deriving DecidableEq

def StoreError.text : StoreError → String
  | .journalQuarantined => "AGENT_JOURNAL_QUARANTINED"
  | .idempotencyConflict => "AGENT_JOURNAL_IDEMPOTENCY_CONFLICT"
  | .leaseHeld => "AGENT_SESSION_LEASE_HELD"
  | .leaseFenced => "AGENT_SESSION_LEASE_FENCED"
  | .leaseExpired => "AGENT_SESSION_LEASE_EXPIRED"
  | .checkpointBoundaryInvalid => "AGENT_CHECKPOINT_BOUNDARY_INVALID"
  | .queueModeInvalid => "AGENT_QUEUE_MODE_INVALID"
  | .queueContentInvalid => "AGENT_QUEUE_CONTENT_INVALID"
  | .queueItemUnknown => "KeyError"
  | .queueItemNotEditable => "AGENT_QUEUE_ITEM_NOT_EDITABLE"
  | .queueItemNotRemovable => "AGENT_QUEUE_ITEM_NOT_REMOVABLE"
  | .raised text => text

structure ActivityRecord where
  correlation : String
  fields : Dict

def ActivityRecord.value (r : ActivityRecord) : Value :=
  .obj (r.fields.set "correlation" (.str r.correlation))

/-- What the store calls and does not define. -/
structure Host where
  sha256 : String → String
  encode : Dict → String
  repr : Value → String
  parseInt : String → Except StoreError ℤ
  bind : Value → Except StoreError String
  projectActivity : Dict → Value → Except StoreError (Option ActivityRecord)

variable (host : Host)

def str : Value → String
  | .str s => s
  | v => host.repr v

/-- `int`; of a float, its integral part. -/
def int : Value → Except StoreError ℤ
  | .bool b => .ok (if b then 1 else 0)
  | .int n => .ok n
  | .float q => .ok (q.num.tdiv q.den)
  | .str s => host.parseInt s
  | _ => .error (.raised "TypeError")

structure EventRow where
  sessionId : String
  sequence : ℕ
  runId : Option String
  nodeId : Option String
  eventType : String
  payload : Dict
  createdAt : String
  eventId : String
  eventVersion : ℤ
  leaseEpoch : ℤ
  idempotencyKey : Option String
  previousChecksum : String
  eventChecksum : String
  payloadHash : String

inductive JournalHealth where
  | healthy
  | quarantined
  deriving DecidableEq

structure SessionHead where
  sessionId : String
  lastSequence : ℕ
  lastChecksum : String
  health : JournalHealth
  deriving DecidableEq

structure SessionLease where
  sessionId : String
  ownerId : String
  leaseEpoch : ℕ
  expiresAt : Time
  deriving DecidableEq

structure LeaseGrant where
  sessionId : String
  ownerId : String
  leaseEpoch : ℕ
  expiresAt : Time
  deriving DecidableEq

inductive QueueMode where
  | followUp
  | steer
  | contextInjection
  deriving DecidableEq

inductive QueueStatus where
  | queued
  | claimed
  | acknowledged
  | removed
  deriving DecidableEq

structure QueueItem where
  itemId : String
  sessionId : String
  runId : Option String
  mode : QueueMode
  source : String
  content : String
  status : QueueStatus
  insertionSequence : ℕ
  createdAt : String
  updatedAt : String
  claimedAt : Option String
  deriving DecidableEq

structure QueueRow where
  itemId : String
  sessionId : String
  runId : Option String
  mode : QueueMode
  status : QueueStatus
  insertionSequence : ℕ
  payload : QueueItem
  createdAt : String
  updatedAt : String
  deriving DecidableEq

structure RunCheckpoint where
  runId : String
  sessionId : String
  turn : ℕ
  sessionSeq : ℕ
  eventChecksum : String
  payload : Dict
  updatedAt : String

structure Db where
  events : List EventRow
  heads : List SessionHead
  leases : List SessionLease
  queue : List QueueRow
  checkpoints : List RunCheckpoint

def Db.empty : Db := ⟨[], [], [], [], []⟩

abbrev head? (db : Db) (sessionId : String) : Option SessionHead :=
  lookup SessionHead.sessionId db.heads sessionId

abbrev lease? (db : Db) (sessionId : String) : Option SessionLease :=
  lookup SessionLease.sessionId db.leases sessionId

/-- `… WHERE session_id=? ORDER BY sequence` -/
def eventsOf (db : Db) (sessionId : String) : List EventRow :=
  (db.events.filter fun r => decide (r.sessionId = sessionId)).insertionSort
    fun r r' => r.sequence ≤ r'.sequence

def clampTtl (ttlSeconds : ℤ) : ℤ := max 5 (min ttlSeconds 300)

def expiry (now : Time) (ttlSeconds : ℤ) : Time := now + clampTtl ttlSeconds * 1000000

def assertLease (grant : LeaseGrant) (now : Time) (db : Db) : Except StoreError Unit :=
  match lease? db grant.sessionId with
  | none => .error .leaseFenced
  | some row =>
    if row.ownerId ≠ grant.ownerId ∨ row.leaseEpoch ≠ grant.leaseEpoch then .error .leaseFenced
    else if row.expiresAt ≤ now then .error .leaseExpired
    else .ok ()

def acquireTx (sessionId ownerId : String) (ttlSeconds : ℤ) (now : Time) (db : Db) :
    Except StoreError (LeaseGrant × Db) :=
  let row := lease? db sessionId
  if row.any fun row => decide (now < row.expiresAt ∧ row.ownerId ≠ ownerId) then .error .leaseHeld
  else
    let epoch := (row.elim 0 SessionLease.leaseEpoch) + 1
    let expires := expiry now ttlSeconds
    .ok (⟨sessionId, ownerId, epoch, expires⟩,
      { db with leases := replaceRow SessionLease.sessionId ⟨sessionId, ownerId, epoch, expires⟩ db.leases })

def SessionLease.renewed (expires : Time) (row : SessionLease) : SessionLease :=
  { row with expiresAt := expires }

def SessionLease.released (stamp : Time) (row : SessionLease) : SessionLease :=
  { row with ownerId := "", expiresAt := stamp }

@[simp] lemma renewed_sessionId (expires : Time) (row : SessionLease) :
    (row.renewed expires).sessionId = row.sessionId := rfl

@[simp] lemma released_sessionId (stamp : Time) (row : SessionLease) :
    (row.released stamp).sessionId = row.sessionId := rfl

def updateLease (sessionId : String) (f : SessionLease → SessionLease) (db : Db) : Db :=
  { db with leases := updateWhere (fun row => row.sessionId = sessionId) f db.leases }

def renewTx (grant : LeaseGrant) (ttlSeconds : ℤ) (now : Time) (db : Db) :
    Except StoreError (LeaseGrant × Db) :=
  match lease? db grant.sessionId with
  | none => .error .leaseFenced
  | some row =>
    if row.ownerId ≠ grant.ownerId ∨ row.leaseEpoch ≠ grant.leaseEpoch then .error .leaseFenced
    else if row.expiresAt ≤ now then .error .leaseExpired
    else
      let expires := expiry now ttlSeconds
      .ok ({ grant with expiresAt := expires }, updateLease grant.sessionId (.renewed expires) db)

def releaseTx (grant : LeaseGrant) (stamp : Time) (db : Db) : Except StoreError (Unit × Db) :=
  match lease? db grant.sessionId with
  | none => .error .leaseFenced
  | some row =>
    if row.ownerId ≠ grant.ownerId ∨ row.leaseEpoch ≠ grant.leaseEpoch then .error .leaseFenced
    else .ok ((), updateLease grant.sessionId (.released stamp) db)

def optional (v : Value) : Option String :=
  match v with
  | .null => none
  | v => if str host v = "" then none else some (str host v)

def payloadHash (value : Dict) : String :=
  host.sha256 (host.encode ((((value.erase "event_checksum").erase "previous_checksum").erase
    "sequence").erase "session_seq"))

/-- A call of `append_event`; `refusal` is what the database raises in the end, if anything. -/
structure AppendRequest where
  sessionId : String
  payload : Dict
  grant : Option LeaseGrant
  idempotencyKey : Option String
  eventVersion : ℤ
  now : Time
  stamp : String
  eventId : String
  refusal : Option StoreError

def existingEvent (req : AppendRequest) (db : Db) : Except StoreError (Option Dict) :=
  match req.idempotencyKey with
  | none => .ok none
  | some key =>
    if key = "" then .ok none
    else match db.events.find? fun r => decide (r.sessionId = req.sessionId ∧ r.idempotencyKey = some key) with
      | none => .ok none
      | some row =>
        let candidate := (req.payload.erase "sequence").erase "session_seq"
        if payloadHash host candidate ≠ row.payloadHash then .error .idempotencyConflict
        else .ok (some row.payload)

/-- A session without a head gets one; a quarantined session is closed. -/
def openHead (sessionId : String) (db : Db) : Except StoreError (SessionHead × Db) :=
  match head? db sessionId with
  | some head => if head.health = .quarantined then .error .journalQuarantined else .ok (head, db)
  | none =>
    let legacy := (eventsOf db sessionId).foldl (fun n r => max n r.sequence) 0
    let head : SessionHead := ⟨sessionId, legacy, "", .healthy⟩
    .ok (head, { db with heads := db.heads ++ [head] })

/-- The activity record of the same correlation with the highest sequence. -/
def previousActivity (runId correlation : String) (db : Db) : Value :=
  let sameActivity := fun r : EventRow => decide (r.runId = some runId ∧
    (((r.payload.get? "activity_record").bind obj?).bind fun d => (d.get? "correlation").bind str?) =
      some correlation)
  (((db.events.filter sameActivity).insertionSort fun r r' => r'.sequence ≤ r.sequence).head?.map
    fun r => r.payload.get "activity_record").getD .null

def withActivity (event : Dict) (db : Db) : Except StoreError Dict :=
  if truthy (event.get "run_id") then do
    match ← host.projectActivity event .null with
    | none => return event
    | some candidate =>
      let runId ← host.bind (event.get "run_id")
      let record ← host.projectActivity event (previousActivity runId candidate.correlation db)
      return event.set "activity_record" (record.elim .null ActivityRecord.value)
  else .ok event

/-- The identity the store gives an event, over whatever the payload says. -/
def identified (req : AppendRequest) (eventId : String) (eventVersion : ℤ) (sequence : ℕ) : Dict :=
  let event := (((((req.payload.set "event_id" (.str eventId)).set "event_version" (.int eventVersion)).set
    "session_id" (.str req.sessionId)).set "sequence" (.int sequence)).set "session_seq" (.int sequence))
  let event := req.grant.elim event fun grant => event.set "lease_epoch" (.int grant.leaseEpoch)
  let event := event.setDefault "created_at" (.str req.stamp)
  event.setDefault "timestamp" (event.get "created_at")

def eventRow (req : AppendRequest) (head : SessionHead) (eventId : String) (eventVersion : ℤ)
    (event : Dict) : Except StoreError EventRow := do
  let hash := payloadHash host event
  let checksum := host.sha256 (head.lastChecksum ++ hash)
  let event := event.set "event_checksum" (.str checksum)
  let leaseEpoch ← int host (event.getOr "lease_epoch" (.int 0))
  return {
    sessionId := req.sessionId
    sequence := head.lastSequence + 1
    runId := optional host (event.get "run_id")
    nodeId := optional host (event.get "node_id")
    eventType := str host (event.getOr "event_type" (.str "activity.updated"))
    payload := event
    createdAt := str host (event.get "created_at")
    eventId := eventId
    eventVersion := eventVersion
    leaseEpoch := leaseEpoch
    idempotencyKey := req.idempotencyKey
    previousChecksum := head.lastChecksum
    eventChecksum := checksum
    payloadHash := hash }

/-- The primary key and the two unique indexes of `agent_events`. -/
def insertEvent (row : EventRow) (db : Db) : Except StoreError Db :=
  if db.events.any fun r => decide (r.sessionId = row.sessionId ∧ r.sequence = row.sequence) ||
      decide (r.eventId = row.eventId) ||
      (row.idempotencyKey.isSome && decide (r.sessionId = row.sessionId ∧ r.idempotencyKey = row.idempotencyKey))
  then .error (.raised "UNIQUE constraint failed")
  else .ok { db with events := db.events ++ [row] }

def SessionHead.advanced (sequence : ℕ) (checksum : String) (head : SessionHead) : SessionHead :=
  { head with lastSequence := sequence, lastChecksum := checksum, health := .healthy }

def SessionHead.quarantine (head : SessionHead) : SessionHead := { head with health := .quarantined }

@[simp] lemma advanced_sessionId (sequence : ℕ) (checksum : String) (head : SessionHead) :
    (head.advanced sequence checksum).sessionId = head.sessionId := rfl

@[simp] lemma quarantine_sessionId (head : SessionHead) :
    head.quarantine.sessionId = head.sessionId := rfl

def updateHead (sessionId : String) (f : SessionHead → SessionHead) (db : Db) : Db :=
  { db with heads := updateWhere (fun head => head.sessionId = sessionId) f db.heads }

def appendNew (req : AppendRequest) (db : Db) : Except StoreError (Dict × Db) := do
  let (head, db) ← openHead req.sessionId db
  let eventId := str host (req.payload.getOr "event_id" (.str req.eventId))
  let eventVersion ← int host (req.payload.getOr "event_version" (.int req.eventVersion))
  let event ← withActivity host (identified req eventId eventVersion (head.lastSequence + 1)) db
  let row ← eventRow host req head eventId eventVersion
    (event.set "previous_checksum" (.str head.lastChecksum))
  let db ← insertEvent row db
  let db := updateHead req.sessionId (.advanced row.sequence row.eventChecksum) db
  match req.refusal with
  | some error => .error error
  | none => return (row.payload, db)

def assertGrant (grant : Option LeaseGrant) (now : Time) (db : Db) : Except StoreError Unit :=
  match grant with
  | none => .ok ()
  | some grant => assertLease grant now db

def appendTx (req : AppendRequest) (db : Db) : Except StoreError (Dict × Db) := do
  assertGrant req.grant req.now db
  match ← existingEvent host req db with
  | some event => return (event, db)
  | none => appendNew host req db

inductive Unhealthy where
  | quarantinePersisted
  | sequenceGap (sequence : ℕ)
  | checksumParentMismatch (sequence : ℕ)
  | payloadHashMismatch (sequence : ℕ)
  | eventIdentityMismatch (sequence : ℕ)
  | checksumMismatch (sequence : ℕ)
  | headMismatch
  deriving DecidableEq

def isInt (v : Value) (n : ℤ) : Bool := decide (number? v = some (n : ℚ))

def isText (v : Value) (column : Option String) : Bool :=
  match v, column with
  | .null, none => true
  | .str s, some t => decide (s = t)
  | _, _ => false

def sameIdentity (sessionId : String) (row : EventRow) : Bool :=
  let get := row.payload.get
  isText (get "session_id") (some sessionId) && isInt (get "sequence") row.sequence &&
  isInt (get "session_seq") row.sequence && isText (get "event_id") (some row.eventId) &&
  isInt (get "event_version") row.eventVersion && isText (get "run_id") row.runId &&
  isText (get "node_id") row.nodeId &&
  isText ((row.payload.get? "event_type").getD (.str "activity.updated")) (some row.eventType) &&
  isText (get "previous_checksum") (some row.previousChecksum) &&
  isText (get "event_checksum") (some row.eventChecksum)

def verifyRow (sessionId : String) (expected : ℕ) (previous : String) (row : EventRow) :
    Except Unhealthy String :=
  if row.sequence ≠ expected then .error (.sequenceGap row.sequence)
  else if row.previousChecksum ≠ previous then .error (.checksumParentMismatch row.sequence)
  else if payloadHash host row.payload ≠ row.payloadHash then .error (.payloadHashMismatch row.sequence)
  else if sameIdentity sessionId row = false then .error (.eventIdentityMismatch row.sequence)
  else if host.sha256 (previous ++ row.payloadHash) ≠ row.eventChecksum then
    .error (.checksumMismatch row.sequence)
  else .ok row.eventChecksum

/-- The number of events and the last checksum of a chain that starts after `n` events. -/
def verifyChain (sessionId : String) : ℕ → String → List EventRow → Except Unhealthy (ℕ × String)
  | n, previous, [] => .ok (n, previous)
  | n, previous, row :: rows =>
    match verifyRow host sessionId (n + 1) previous row with
    | .error reason => .error reason
    | .ok checksum => verifyChain sessionId (n + 1) checksum rows

def verifySnapshot (sessionId : String) (db : Db) : Except Unhealthy (ℕ × String) :=
  let head := head? db sessionId
  if head.any fun head => decide (head.health = .quarantined) then .error .quarantinePersisted
  else match verifyChain host sessionId 0 "" (eventsOf db sessionId) with
    | .error reason => .error reason
    | .ok (count, checksum) =>
      match head with
      | none => if count ≠ 0 then .error .headMismatch else .ok (count, checksum)
      | some head => if head.lastSequence ≠ count ∨ head.lastChecksum ≠ checksum then .error .headMismatch
        else .ok (count, checksum)

/-- The tables, and the sessions each process remembers as quarantined. -/
structure State where
  db : Db
  quarantined : List (Process × String)

def State.initial : State := ⟨.empty, []⟩

abbrev Call (τ : Type) := Work State StoreError τ

def commit {τ : Type} (tx : Db → Except StoreError (τ × Db)) : Call τ := fun s =>
  match tx s.db with
  | .error error => (.error error, s)
  | .ok (a, db) => (.ok a, { s with db := db })

def isQuarantined (p : Process) (sessionId : String) (s : State) : Bool :=
  s.quarantined.any fun entry => decide (entry = (p, sessionId))

def remember (p : Process) (sessionId : String) (s : State) : State :=
  { s with quarantined := s.quarantined ++ [(p, sessionId)] }

def requireHealthyJournal (p : Process) (sessionId : String) : Call Unit := fun s =>
  match verifySnapshot host sessionId s.db with
  | .error _ => (.error .journalQuarantined,
      { remember p sessionId s with db := updateHead sessionId .quarantine s.db })
  | .ok _ => if isQuarantined p sessionId s then (.error .journalQuarantined, s) else (.ok (), s)

def acquireLease (p : Process) (sessionId ownerId : String) (ttlSeconds : ℤ) (now : Time) :
    Call LeaseGrant := fun s =>
  match requireHealthyJournal host p sessionId s with
  | (.error error, s) => (.error error, s)
  | (.ok _, s) => commit (acquireTx sessionId ownerId ttlSeconds now) s

def renewLease (p : Process) (grant : LeaseGrant) (ttlSeconds : ℤ) (now : Time) : Call LeaseGrant :=
  fun s =>
  match requireHealthyJournal host p grant.sessionId s with
  | (.error error, s) => (.error error, s)
  | (.ok _, s) => commit (renewTx grant ttlSeconds now) s

def releaseLease (grant : LeaseGrant) (stamp : Time) : Call Unit := commit (releaseTx grant stamp)

def appendEvent (p : Process) (req : AppendRequest) : Call Dict := fun s =>
  if isQuarantined p req.sessionId s then (.error .journalQuarantined, s)
  else match commit (appendTx host req) s with
    | (.error .journalQuarantined, s) => (.error .journalQuarantined, remember p req.sessionId s)
    | result => result

inductive Request where
  | acquire (p : Process) (sessionId ownerId : String) (ttlSeconds : ℤ) (now : Time)
  | renew (p : Process) (grant : LeaseGrant) (ttlSeconds : ℤ) (now : Time)
  | release (grant : LeaseGrant) (stamp : Time)
  | append (p : Process) (req : AppendRequest)

inductive Reply where
  | granted (grant : LeaseGrant)
  | released
  | appended (event : Dict)

def answer {τ : Type} (f : τ → Reply) (result : Except StoreError τ × State) :
    Except StoreError Reply × State :=
  (result.1.map f, result.2)

def perform (s : State) : Request → Except StoreError Reply × State
  | .acquire p sessionId ownerId ttlSeconds now =>
    answer .granted (acquireLease host p sessionId ownerId ttlSeconds now s)
  | .renew p grant ttlSeconds now => answer .granted (renewLease host p grant ttlSeconds now s)
  | .release grant stamp => answer (fun _ => .released) (releaseLease grant stamp s)
  | .append p req => answer .appended (appendEvent host p req s)

/-- The store inside `atomic` blocks: the tables as they were at each savepoint. -/
structure World where
  state : State
  saved : List Db

def World.initial : World := ⟨.initial, []⟩

inductive Action where
  | request (r : Request)
  | enter
  | leave (raised : Bool)

/-- A request joins the innermost block; a block that raises puts its savepoint back. -/
def step (w : World) : Action → Option (Except StoreError Reply) × World
  | .request r => (some (perform host w.state r).1, { w with state := (perform host w.state r).2 })
  | .enter => (none, { w with saved := w.state.db :: w.saved })
  | .leave raised =>
    match w.saved with
    | [] => (none, w)
    | db :: saved => (none, ⟨if raised then { w.state with db := db } else w.state, saved⟩)

end PromptForge.Store
