import PromptForge.JsValues
import PromptForge.Runs

/-!
# The session event store

A log is a file of lines, each the canonical text of an event with the checksum of the
event before it. An append takes the writer's lock, reads the log, writes one line and
lets the lock go. A process can end at any moment: its locks are gone then, and of the
line it was writing some characters are left.
-/
namespace PromptForge.SessionEvents
open Runs JsValues

structure Host where
  engine : Engine
  /-- `sha256` of a text, in hexadecimal digits -/
  digest : List Char → String

inductive Refusal where
  | sessionIdInvalid
  | sessionWriterLocked
  | sessionEventTypeInvalid
  /-- The line, counted from one. -/
  | sessionLogInvalidJson (line : ℕ)
  | sessionLogInvariantFailed (sequence : Value)
  | sessionOperationConflict
  /-- `null` has no properties. -/
  | typeError

def isLetter (c : Char) : Bool := ('a' ≤ c && c ≤ 'z') || ('A' ≤ c && c ≤ 'Z')

def isAlphanumeric (c : Char) : Bool := isLetter c || ('0' ≤ c && c ≤ '9')

/-- A letter or a digit, then so many letters, digits and others at most. -/
def named (others : List Char) (limit : ℕ) (name : String) : Bool :=
  match name.toList with
  | [] => false
  | c :: rest => isAlphanumeric c && rest.all (fun d => isAlphanumeric d || others.contains d) && decide (rest.length < limit)

def isSessionId (name : String) : Bool := named ['_', '-'] 128 name

def isEventType (name : String) : Bool := named ['.', '/', '_', '-'] 160 name

variable (host : Host)

def genesis : String := String.ofList (List.replicate 64 '0')

def unsigned : Value → Value
  | .obj entries => .obj (entries.filter fun entry => decide (entry.1 ≠ "checksum"))
  | v => v

def checksum (event : Value) : String := host.digest ((canonical host.engine event).getD [])

def dropReturn (line : List Char) : List Char := if line.getLast? = some '\r' then line.dropLast else line

/-- `raw.split(/\r?\n/)` -/
def lines (raw : List Char) : List (List Char) :=
  let parts := raw.splitOnP (· == '\n')
  parts.dropLast.map dropReturn ++ parts.getLast?.toList

structure Reading where
  events : List Value
  previous : String
  index : ℕ

def found {α : Type} (answer : Option α) (refusal : Refusal) : Except Refusal α :=
  match answer with
  | some a => .ok a
  | none => .error refusal

def count (n : ℕ) : Value := .num (Numbers.nearest n)

def isNull : Value → Bool
  | .null => true
  | _ => false

def Follows (sessionId : String) (reading : Reading) (event : Value) : Prop :=
  (event.member "schemaVersion").strictEq (count 1) = true ∧ (event.member "sessionId").strictEq (.str sessionId) = true ∧
    (event.member "sequence").strictEq (count (reading.events.length + 1)) = true ∧
    (event.member "previousChecksum").strictEq (.str reading.previous) = true ∧
    (event.member "checksum").strictEq (.str (checksum host (unsigned event))) = true

instance (sessionId : String) (reading : Reading) (event : Value) : Decidable (Follows host sessionId reading event) := by
  unfold Follows
  infer_instance

def readLine (sessionId : String) (reading : Reading) (line : List Char) : Except Refusal Reading :=
  if line = [] then .ok { reading with index := reading.index + 1 }
  else do
    let event ← found (parse line) (.sessionLogInvalidJson (reading.index + 1))
    require (isNull event = false) .typeError
    require (Follows host sessionId reading event) (.sessionLogInvariantFailed (event.member "sequence"))
    return ⟨reading.events ++ [event], checksum host (unsigned event), reading.index + 1⟩

/-- `read`: a file that is missing reads as an empty one. -/
def read (sessionId : String) (raw : List Char) : Except Refusal (List Value) := do
  let reading ← (lines raw).foldlM (readLine host sessionId) ⟨[], genesis, 0⟩
  return reading.events

structure Request where
  sessionId : String
  type : String
  payload : Value
  runId : Option String
  operationId : Option String
  proper : Proper payload

/-- What an append draws: the time, and an identifier where it has no operation. -/
structure Draw where
  timestamp : String
  uuid : String

def runValue (runId : Option String) : Value :=
  match runId with
  | some id => .str id
  | none => .null

/-- `operationId ? sha256(operationId) : randomUUID()` -/
def eventIdOf (request : Request) (draw : Draw) : String :=
  match request.operationId with
  | some id => if id = "" then draw.uuid else host.digest id.toList
  | none => draw.uuid

def previousChecksum (events : List Value) : Value :=
  match events.getLast? with
  | some event => event.member "checksum"
  | none => .str genesis

def draft (request : Request) (draw : Draw) (events : List Value) : List (String × Value) :=
  [("schemaVersion", count 1), ("eventId", .str (eventIdOf host request draw)), ("sessionId", .str request.sessionId),
    ("runId", runValue request.runId), ("sequence", count (events.length + 1)), ("timestamp", .str draw.timestamp),
    ("type", .str request.type), ("payload", request.payload), ("previousChecksum", previousChecksum events)]

def signed (entries : List (String × Value)) : Value :=
  .obj (entries ++ [("checksum", .str (checksum host (.obj entries)))])

def lineOf (event : Value) : List Char := (canonical host.engine event).getD [] ++ ['\n']

def Repeats (request : Request) (saved : Value) : Prop :=
  (saved.member "type").strictEq (.str request.type) = true ∧ (saved.member "runId").strictEq (runValue request.runId) = true ∧
    canonical host.engine (saved.member "payload") = canonical host.engine request.payload

instance (request : Request) (saved : Value) : Decidable (Repeats host request saved) := by
  unfold Repeats
  infer_instance

inductive Decision where
  | saved (event : Value)
  | written (event : Value)

def decision (request : Request) (draw : Draw) (events : List Value) : Except Refusal Decision :=
  match events.find? fun event => (event.member "eventId").strictEq (.str (eventIdOf host request draw)) with
  | some event => do
    require (Repeats host request event) .sessionOperationConflict
    return .saved event
  | none => .ok (.written (signed host (draft host request draw events)))

def appendOwned (raw : List Char) (request : Request) (draw : Draw) : Except Refusal Decision := do
  require (isEventType request.type = true) .sessionEventTypeInvalid
  let events ← read host request.sessionId raw
  decision host request draw events

inductive Stage where
  | owning
  /-- The event is made, its line is not in the file. -/
  | writing (event : Value)
  | written (event : Value)

/-- An append that has the writer's lock of its session. -/
structure Owner where
  process : ℕ
  request : Request
  stage : Stage

structure Answer where
  request : Request
  result : Except Refusal Value

/-- An event in a log, and the request it was appended for. -/
structure Entry where
  request : Request
  event : Value

structure Store where
  files : String → List Char
  owners : String → Option Owner
  /-- What was written, in order. -/
  entries : String → List Entry
  /-- Of that, what was written by appends that a crash cut off. -/
  cutOff : String → List Entry
  answers : List Answer

def Store.empty : Store := ⟨fun _ => [], fun _ => none, fun _ => [], fun _ => [], []⟩

/-- How much of a line is left: so many characters, and maybe some bytes of the next one. -/
structure Left where
  chars : ℕ
  part : Bool

/-- What is read of it; bytes of a character that is not whole read as `U+FFFD`. -/
def Left.text (left : Left) (line : List Char) : List Char :=
  line.take left.chars ++
    if left.part && (line.drop left.chars).head?.any (fun c => decide (128 ≤ c.toNat)) then ['\uFFFD'] else []

inductive Step where
  | append (process : ℕ) (request : Request)
  | work (sessionId : String) (draw : Draw)
  | write (sessionId : String)
  | finish (sessionId : String)
  /-- The process ends, with what is left in each log of the line that it was writing. -/
  | crash (process : ℕ) (left : String → Left)

namespace Store

variable (s : Store)

def answer (request : Request) (result : Except Refusal Value) : Store := { s with answers := s.answers ++ [⟨request, result⟩] }

def release (sessionId : String) : Store := { s with owners := Function.update s.owners sessionId none }

def own (sessionId : String) (owner : Owner) : Store := { s with owners := Function.update s.owners sessionId (some owner) }

def record (sessionId : String) (entry : Entry) : Store :=
  { s with
    files := Function.update s.files sessionId (s.files sessionId ++ lineOf host entry.event)
    entries := Function.update s.entries sessionId (s.entries sessionId ++ [entry]) }

/-- `file` and `BEGIN IMMEDIATE` -/
def append (process : ℕ) (request : Request) : Store :=
  if isSessionId request.sessionId = false then s.answer request (.error .sessionIdInvalid)
  else if (s.owners request.sessionId).isSome then s.answer request (.error .sessionWriterLocked)
  else s.own request.sessionId ⟨process, request, .owning⟩

def work (sessionId : String) (draw : Draw) : Store :=
  match s.owners sessionId with
  | some ⟨process, request, .owning⟩ =>
    match appendOwned host (s.files sessionId) request draw with
    | .error refusal => (s.release sessionId).answer request (.error refusal)
    | .ok (.saved event) => (s.release sessionId).answer request (.ok event)
    | .ok (.written event) => s.own sessionId ⟨process, request, .writing event⟩
  | _ => s

def write (sessionId : String) : Store :=
  match s.owners sessionId with
  | some ⟨process, request, .writing event⟩ =>
    (s.record host sessionId ⟨request, event⟩).own sessionId ⟨process, request, .written event⟩
  | _ => s

def finish (sessionId : String) : Store :=
  match s.owners sessionId with
  | some ⟨_, request, .written event⟩ => (s.release sessionId).answer request (.ok event)
  | _ => s

def leftIn (process : ℕ) (left : String → Left) (sessionId : String) : List Char :=
  match s.owners sessionId with
  | some ⟨owner, _, .writing event⟩ => if owner = process then (left sessionId).text (lineOf host event) else []
  | _ => []

def inFlight (process : ℕ) (left : String → Left) (sessionId : String) : List Entry :=
  match s.owners sessionId with
  | some ⟨owner, request, .writing event⟩ =>
    if owner = process ∧ (left sessionId).text (lineOf host event) = lineOf host event then [⟨request, event⟩] else []
  | _ => []

def owned (process : ℕ) (sessionId : String) : List Entry :=
  match s.owners sessionId with
  | some ⟨owner, request, .written event⟩ => if owner = process then [⟨request, event⟩] else []
  | _ => []

def crash (process : ℕ) (left : String → Left) : Store where
  files sessionId := s.files sessionId ++ s.leftIn host process left sessionId
  owners sessionId := (s.owners sessionId).filter fun owner => decide (owner.process ≠ process)
  entries sessionId := s.entries sessionId ++ s.inFlight host process left sessionId
  cutOff sessionId := s.cutOff sessionId ++ (s.inFlight host process left sessionId ++ s.owned process sessionId)
  answers := s.answers

def next (s : Store) : Step → Store
  | .append process request => s.append process request
  | .work sessionId draw => s.work host sessionId draw
  | .write sessionId => s.write host sessionId
  | .finish sessionId => s.finish sessionId
  | .crash process left => s.crash host process left

def step (s : Store) (action : Step) : Unit × Store := ((), s.next host action)

end Store

end PromptForge.SessionEvents
