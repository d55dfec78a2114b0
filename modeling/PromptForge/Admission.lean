import PromptForge.Queueing
import PromptForge.Tables

/-!
# Provider admission

Model calls take a slot of their endpoint before they start and give it back
when they end. The controller keeps its line in a table that several processes
share, or in its own memory. The `endpoint` column of the table is a digest of
the three names an `Endpoint` has here.
-/
namespace PromptForge.Admission
open Runs Tables

/-- A `uuid4` or a fresh object: a value of a counter that is never reused. -/
abbrev Ticket := ℕ

structure Endpoint where
  providerId : String
  modelId : String
  endpointIdentity : String
  deriving DecidableEq

structure ProviderAdmissionController where
  limits : List (String × ℤ)
  queueTimeoutSeconds : ℚ

def defaultLimits : List (String × ℤ) := [("nvidia_nim", 1), ("ollama", 2), ("lmstudio", 2)]

def ProviderAdmissionController.new (limits : List (String × ℤ)) (queueTimeoutSeconds : ℚ) :
    ProviderAdmissionController :=
  ⟨(limits ++ defaultLimits).map fun item => (item.1, max 1 item.2),
    max (1 / 100) (min queueTimeoutSeconds 120)⟩

variable (controller : ProviderAdmissionController)

def limit (providerId : String) : ℕ := ((controller.limits.lookup providerId).getD 4).toNat

/-- How a call ended: refused because the line did not move in time, cancelled, failed,
    returned, or discarded because its slot was lost on the way. -/
inductive Ending where
  | busy
  | cancelled
  | failed
  | returned
  | leaseLost
  deriving DecidableEq

structure Slot where
  sequence : ℕ
  ticket : Ticket
  endpoint : Endpoint
  active : Bool
  expires : ℚ
  deriving DecidableEq

def Slot.renewed (until_ : ℚ) (r : Slot) : Slot := { r with expires := until_ }
def Slot.activated (r : Slot) : Slot := { r with active := true }

@[simp] lemma renewed_ticket (until_ : ℚ) (r : Slot) : (r.renewed until_).ticket = r.ticket := rfl
@[simp] lemma activated_ticket (r : Slot) : r.activated.ticket = r.ticket := rfl

/-- `provider_slots`; its rows stand in the order of their sequence. -/
structure Slots where
  rows : List Slot
  nextSequence : ℕ
  deriving DecidableEq

def expire (now : ℚ) (db : Slots) : Slots :=
  { db with rows := db.rows.filter fun r => decide (now < r.expires) }

def enqueue (ticket : Ticket) (endpoint : Endpoint) (until_ : ℚ) (db : Slots) : Slots :=
  match insertRow Slot.ticket ⟨db.nextSequence, ticket, endpoint, false, until_⟩ db.rows with
  | some rows => ⟨rows, db.nextSequence + 1⟩
  | none => db

def updateTicket (ticket : Ticket) (f : Slot → Slot) (db : Slots) : Slots :=
  { db with rows := updateWhere (fun r => r.ticket = ticket) f db.rows }

def activeRows (endpoint : Endpoint) (db : Slots) : List Slot :=
  db.rows.filter fun r => decide (r.endpoint = endpoint) && r.active

def waitingRows (endpoint : Endpoint) (db : Slots) : List Slot :=
  db.rows.filter fun r => decide (r.endpoint = endpoint) && !r.active

def distributedAcquire (ticket : Ticket) (endpoint : Endpoint) (limit : ℕ) (now : ℚ) (db : Slots) :
    Bool × Slots :=
  let db := updateTicket ticket (Slot.renewed (now + 10))
    (enqueue ticket endpoint (now + 10) (expire now db))
  if (activeRows endpoint db).length < limit ∧
      (waitingRows endpoint db).head?.map Slot.ticket = some ticket then
    (true, updateTicket ticket Slot.activated db)
  else (false, db)

/-- The clock is read twice, for the new expiry and for the check of the old one. -/
def renew (ticket : Ticket) (now now' : ℚ) (db : Slots) : Bool × Slots :=
  let unexpired := fun r : Slot => decide (r.ticket = ticket ∧ now' < r.expires)
  (db.rows.any unexpired, { db with rows := updateWhere unexpired (Slot.renewed (now + 10)) db.rows })

def release (ticket : Ticket) (db : Slots) : Slots :=
  { db with rows := deleteRow Slot.ticket ticket db.rows }

/-- Where a call stands in `_distributed_slot`; at the end it is about to delete its row, or finished. -/
inductive Phase where
  | queued
  | holding
  | closing (ending : Ending)
  | releasing (ending : Ending)
  | finished (ending : Ending)
  deriving DecidableEq

structure Waiter where
  ticket : Ticket
  endpoint : Endpoint
  stop : ℚ
  lost : Bool
  phase : Phase
  deriving DecidableEq

def Waiter.goes (phase : Phase) (w : Waiter) : Waiter := { w with phase := phase }
def Waiter.loses (w : Waiter) : Waiter := { w with lost := true }

@[simp] lemma goes_ticket (phase : Phase) (w : Waiter) : (w.goes phase).ticket = w.ticket := rfl
@[simp] lemma loses_ticket (w : Waiter) : w.loses.ticket = w.ticket := rfl

/-- A cancellation that the heartbeat sent is reported as a lost lease. -/
def reported (w : Waiter) (ending : Ending) : Ending :=
  if ending = .cancelled ∧ w.lost then .leaseLost else ending

structure World where
  db : Slots
  waiters : List Waiter
  nextTicket : Ticket

def World.initial : World := ⟨⟨[], 1⟩, [], 0⟩

abbrev waiter? (w : World) (ticket : Ticket) : Option Waiter := lookup Waiter.ticket w.waiters ticket

def World.update (ticket : Ticket) (f : Waiter → Waiter) (w : World) : World :=
  { w with waiters := updateWhere (fun r => r.ticket = ticket) f w.waiters }

/-- What can happen next, in any order. A call that is cancelled or ends while it holds
    its slot does so at an await of its body. -/
inductive Action where
  | arrive (endpoint : Endpoint) (started : ℚ) (deadline : Option ℚ)
  | poll (ticket : Ticket) (monotonic now : ℚ)
  | pollRaises (ticket : Ticket)
  | beat (ticket : Ticket) (now now' : ℚ)
  | beatRaises (ticket : Ticket)
  | leave (ticket : Ticket) (ending : Ending)
  | cancel (ticket : Ticket)
  | heartbeatEnded (ticket : Ticket)
  | release (ticket : Ticket)
  deriving DecidableEq

def stopAt (started : ℚ) (deadline : Option ℚ) : ℚ :=
  match deadline with
  | some deadline => min (started + controller.queueTimeoutSeconds) deadline
  | none => started + controller.queueTimeoutSeconds

/-- One step of one call, given where it stands; `none` when the action does not apply. -/
def act (w : World) (r : Waiter) : Action → Option World
  | .arrive _ _ _ => none
  | .poll _ monotonic now =>
    if r.phase ≠ .queued then none
    else if r.stop ≤ monotonic then some (w.update r.ticket (.goes (.releasing .busy)))
    else match distributedAcquire r.ticket r.endpoint (limit controller r.endpoint.providerId) now w.db with
      | (true, db) => some ({ w with db := db }.update r.ticket (.goes .holding))
      | (false, db) => some { w with db := db }
  | .pollRaises _ =>
    if r.phase = .queued then some (w.update r.ticket (.goes (.releasing .failed))) else none
  | .beat _ now now' =>
    if r.phase = .holding ∧ r.lost = false then
      match renew r.ticket now now' w.db with
      | (true, db) => some { w with db := db }
      | (false, db) => some ({ w with db := db }.update r.ticket .loses)
    else none
  | .beatRaises _ =>
    if r.phase = .holding ∧ r.lost = false then some (w.update r.ticket .loses) else none
  | .leave _ ending =>
    if r.phase = .holding then some (w.update r.ticket (.goes (.closing (reported r ending)))) else none
  | .cancel _ =>
    match r.phase with
    | .queued => some (w.update r.ticket (.goes (.releasing .cancelled)))
    | .holding => some (w.update r.ticket (.goes (.closing (reported r .cancelled))))
    -- the await in the `finally` block raises, and the block ends there
    | .closing _ => some (w.update r.ticket (.goes (.finished .cancelled)))
    | .releasing _ => none
    | .finished _ => none
  | .heartbeatEnded _ =>
    match r.phase with
    | .closing ending => some (w.update r.ticket (.goes (.releasing ending)))
    | _ => none
  | .release _ =>
    match r.phase with
    | .releasing ending =>
      some ({ w with db := release r.ticket w.db }.update r.ticket (.goes (.finished ending)))
    | _ => none

def Action.ticket? : Action → Option Ticket
  | .arrive _ _ _ => none
  | .poll ticket _ _ | .pollRaises ticket | .beat ticket _ _ | .beatRaises ticket | .leave ticket _
  | .cancel ticket | .heartbeatEnded ticket | .release ticket => some ticket

def step (w : World) (a : Action) : Bool × World :=
  match a with
  | .arrive endpoint started deadline =>
    (true, { w with
      waiters := w.waiters ++ [⟨w.nextTicket, endpoint, stopAt controller started deadline, false, .queued⟩]
      nextTicket := w.nextTicket + 1 })
  | a =>
    match a.ticket?.bind (waiter? w) with
    | none => (false, w)
    | some r =>
      match act controller w r a with
      | none => (false, w)
      | some w' => (true, w')

namespace Local

structure AdmissionQueue where
  active : ℕ
  waiting : List Ticket
  deriving DecidableEq

/-- The `finally` blocks of this controller await nothing. -/
inductive Phase where
  | queued
  | holding
  | finished (ending : Ending)
  deriving DecidableEq

structure Waiter where
  ticket : Ticket
  key : Endpoint
  started : ℚ
  phase : Phase
  deriving DecidableEq

def Waiter.goes (phase : Phase) (w : Waiter) : Waiter := { w with phase := phase }

@[simp] lemma goes_ticket (phase : Phase) (w : Waiter) : (w.goes phase).ticket = w.ticket := rfl

structure World where
  queues : Endpoint → AdmissionQueue
  waiters : List Waiter
  nextTicket : Ticket

def World.initial : World := ⟨fun _ => ⟨0, []⟩, [], 0⟩

abbrev waiter? (w : World) (ticket : Ticket) : Option Waiter := lookup Waiter.ticket w.waiters ticket

def World.update (ticket : Ticket) (f : Waiter → Waiter) (w : World) : World :=
  { w with waiters := updateWhere (fun r => r.ticket = ticket) f w.waiters }

def World.setQueue (key : Endpoint) (queue : AdmissionQueue) (w : World) : World :=
  { w with queues := Function.update w.queues key queue }

/-- A poll that finds no slot is followed by a look at the time, where another thread
    may come in between. -/
inductive Action where
  | arrive (key : Endpoint) (started : ℚ)
  | poll (ticket : Ticket)
  | timeOut (ticket : Ticket) (monotonic : ℚ)
  | cancel (ticket : Ticket)
  | leave (ticket : Ticket) (ending : Ending)
  deriving DecidableEq

def giveUp (r : Waiter) (ending : Ending) (w : World) : World :=
  let queue := w.queues r.key
  (w.setQueue r.key { queue with waiting := queue.waiting.erase r.ticket }).update r.ticket
    (.goes (.finished ending))

def giveBack (r : Waiter) (ending : Ending) (w : World) : World :=
  let queue := w.queues r.key
  (w.setQueue r.key { queue with active := queue.active - 1 }).update r.ticket (.goes (.finished ending))

def act (w : World) (r : Waiter) : Action → Option World
  | .arrive _ _ => none
  | .poll _ =>
    let queue := w.queues r.key
    if r.phase = .queued ∧ queue.waiting.head? = some r.ticket ∧
        queue.active < limit controller r.key.providerId then
      some ((w.setQueue r.key ⟨queue.active + 1, queue.waiting.tail⟩).update r.ticket (.goes .holding))
    else none
  | .timeOut _ monotonic =>
    if r.phase = .queued ∧ controller.queueTimeoutSeconds - (monotonic - r.started) ≤ 0 then
      some (giveUp r .busy w)
    else none
  | .cancel _ =>
    match r.phase with
    | .queued => some (giveUp r .cancelled w)
    | .holding => some (giveBack r .cancelled w)
    | .finished _ => none
  | .leave _ ending => if r.phase = .holding then some (giveBack r ending w) else none

def Action.ticket? : Action → Option Ticket
  | .arrive _ _ => none
  | .poll ticket | .timeOut ticket _ | .cancel ticket | .leave ticket _ => some ticket

def step (w : World) (a : Action) : Bool × World :=
  match a with
  | .arrive key started =>
    let queue := w.queues key
    (true, { w.setQueue key { queue with waiting := queue.waiting ++ [w.nextTicket] } with
      waiters := w.waiters ++ [⟨w.nextTicket, key, started, .queued⟩]
      nextTicket := w.nextTicket + 1 })
  | a =>
    match a.ticket?.bind (waiter? w) with
    | none => (false, w)
    | some r =>
      match act controller w r a with
      | none => (false, w)
      | some w' => (true, w')

end Local

end PromptForge.Admission
