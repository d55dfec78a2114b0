import PromptForge.Tables

/-!
# The view of a chat

Snapshots of a whole session and packets of one message reach the view in any order.
-/
namespace PromptForge.ChatViews
open Tables

structure Message where
  messageId : String
  role : String
  createdAt : String
  runId : Option String
  content : List UInt16
  status : Option String
  metadata : List (String × String)
  deriving DecidableEq

structure Session where
  sessionId : String
  title : String
  status : String
  messages : List Message
  deriving DecidableEq

def terminal : List String := ["completed", "failed", "cancelled", "interrupted"]

def mergeChatMessage (previous : Option Message) (incoming : Message) : Message :=
  match previous with
  | none => incoming
  | some previous =>
    let before := previous.status.getD ""
    let after := incoming.status.getD ""
    if before ∈ terminal ∧ after = "streaming" then previous
    else if before = "streaming" ∧ after = "streaming" ∧ previous.content.length > incoming.content.length then previous
    else incoming

def setMessage (known : List Message) (message : Message) : List Message :=
  if (lookup Message.messageId known message.messageId).isSome then updateRow Message.messageId message known else known ++ [message]

/-- The incoming messages, each merged with the one known, and the known ones that are left. -/
def mergeMessages (known : List Message) : List Message → List Message × List Message
  | [] => ([], known)
  | message :: rest =>
    let old := lookup Message.messageId known message.messageId
    let (messages, left) := mergeMessages (deleteRow Message.messageId message.messageId known) rest
    (mergeChatMessage old message :: messages, left)

def statusOf (messages : List Message) : String :=
  if messages.any (fun message => message.status == some "streaming") then "running" else "idle"

def mergeChatSession (previous : Option Session) (incoming : Session) : Session :=
  match previous with
  | none => incoming
  | some previous =>
    if previous.sessionId ≠ incoming.sessionId then incoming
    else
      let (messages, left) := mergeMessages (previous.messages.foldl setMessage []) incoming.messages
      { incoming with messages := messages ++ left, status := statusOf (messages ++ left) }

/-- What an event of the stream carries of a message. -/
structure Packet where
  sessionId : String
  messageId : String
  createdAt : String
  content : List UInt16
  messageStatus : String

def Packet.message (event : Packet) (old : Option Message) : Message where
  messageId := event.messageId
  role := "assistant"
  createdAt := event.createdAt
  runId := none
  content := event.content
  status := some event.messageStatus
  metadata := (old.map Message.metadata).getD []

/-- The message takes the place of the one with its id, or the last. -/
def receive (event : Packet) : List Message → List Message
  | [] => [mergeChatMessage none (event.message none)]
  | old :: rest =>
    if old.messageId = event.messageId then mergeChatMessage (some old) (event.message (some old)) :: rest
    else old :: receive event rest

def onMessage (event : Packet) (current : Session) : Session :=
  if current.sessionId ≠ event.sessionId then current
  else { current with messages := receive event current.messages, status := statusOf (receive event current.messages) }

inductive Delivery
  | snapshot (session : Session)
  | packet (event : Packet)

def deliver (view : Option Session) : Delivery → Option Session
  | .snapshot session => some (mergeChatSession view session)
  | .packet event => view.map (onMessage event)

def viewAfter (deliveries : List Delivery) : Option Session := deliveries.foldl deliver none

abbrev Key := String × List UInt16 × Option String

def Message.key (m : Message) : Key := (m.messageId, m.content, m.status)

def Ended (status : Option String) : Prop := status.getD "" ∈ terminal

/-- From one state to a later one a message stays, streams on, or ends. -/
inductive Advances : Key → Key → Prop
  | stays (k : Key) : Advances k k
  | grows {id : String} {text text' : List UInt16} : text <+: text' →
      Advances (id, text, some "streaming") (id, text', some "streaming")
  | ends {id : String} {text text' : List UInt16} {status : Option String} : Ended status →
      Advances (id, text, some "streaming") (id, text', status)

/-- Messages are only appended, and those there already only advance. -/
structure Follows (s s' : Session) : Prop where
  same : s.sessionId = s'.sessionId
  appended : s.messages.map Message.messageId <+: s'.messages.map Message.messageId
  advances : ∀ m ∈ s.messages, ∃ m' ∈ s'.messages, Advances m.key m'.key

/-- The states of one session, of which `latest` is the last. -/
structure History (earlier : List Session) (latest : Session) : Prop where
  follows : (earlier ++ [latest]).IsChain Follows
  nodup : ∀ s ∈ earlier ++ [latest], (s.messages.map Message.messageId).Nodup

def Packet.IsOf (event : Packet) (s : Session) : Prop :=
  event.sessionId = s.sessionId ∧ ∃ m ∈ s.messages, m.key = (event.message none).key

def Delivery.IsOf (s : Session) : Delivery → Prop
  | .snapshot session => session = s
  | .packet event => event.IsOf s

/-- No message of a view goes, and none that has ended streams again. -/
def Keeps (v v' : Session) : Prop :=
  ∀ m ∈ v.messages, (∃ m' ∈ v'.messages, m'.messageId = m.messageId) ∧
    ∀ m' ∈ v'.messages, m'.messageId = m.messageId → Ended m.status → m'.status ≠ some "streaming"

def Delivery.Shown (v : Session) : Delivery → Prop
  | .snapshot session => ∀ m ∈ session.messages, ∃ m' ∈ v.messages, m'.messageId = m.messageId
  | .packet event => ∃ m' ∈ v.messages, m'.messageId = event.messageId

structure Agrees (v s : Session) : Prop where
  messages : v.messages.map Message.key = s.messages.map Message.key
  title : v.title = s.title
  status : v.status = s.status

def Delivery.isSnapshot : Delivery → Bool
  | .snapshot _ => true
  | .packet _ => false

def Delivery.title? : Delivery → Option String
  | .snapshot session => some session.title
  | .packet _ => none

structure Converges (latest : Session) (deliveries : List Delivery) : Prop where
  agrees : .snapshot latest ∈ deliveries → ∃ v, viewAfter deliveries = some v ∧ Agrees v latest
  keeps : ∀ before d after v v', deliveries = before ++ d :: after → viewAfter before = some v →
    viewAfter (before ++ [d]) = some v' → Keeps v v'
  shows : ∀ before d after v, deliveries = before ++ d :: after → viewAfter (before ++ [d]) = some v → d.Shown v

/-- The snapshot that came last has the latest title, and the latest status says whether a
    message streams, unless the latest snapshot is the only one. -/
def LastIsLatest (latest : Session) (deliveries : List Delivery) : Prop :=
  (deliveries.filterMap Delivery.title?).getLast? = some latest.title ∧
    (latest.status = statusOf latest.messages ∨ ∃ packets, deliveries = packets ++ [.snapshot latest] ∧ ∀ d ∈ packets, d.isSnapshot = false)

end PromptForge.ChatViews
