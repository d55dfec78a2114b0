import PromptForge.Json
import PromptForge.Runs
import PromptForge.Texts

/-!
# Provider settings

One document holds the settings of all providers, their keys are in a credential store
beside it.
-/
namespace PromptForge.ProviderSettings
open Runs Tables Json

/-- The keys of `_EMPTY_STATE`. -/
inductive Section where
  | providers | customProviders | routes | health | models | modelCatalogs | modelAvailability
  deriving DecidableEq

def Section.all : List Section :=
  [.providers, .customProviders, .routes, .health, .models, .modelCatalogs, .modelAvailability]

def Section.name : Section → String
  | .providers => "providers"
  | .customProviders => "custom_providers"
  | .routes => "routes"
  | .health => "health"
  | .models => "models"
  | .modelCatalogs => "model_catalogs"
  | .modelAvailability => "model_availability"

abbrev State := Section → Value

def emptyState : State := fun _ => .obj []

inductive StorageError where
  | invalidJson | invalidRoot | schemaUnsupported | readFailed | writeFailed | invalidSection
  | plaintextForbidden | secretInvalid
  -- a `TypeError` or an `AttributeError`, and what the credential store or SQLite raises
  | typeError | credential | database
  deriving DecidableEq

def StorageError.text : StorageError → Option String
  | .invalidJson => some "model_router_settings_invalid_json"
  | .invalidRoot => some "model_router_settings_invalid_root"
  | .schemaUnsupported => some "model_settings_schema_unsupported"
  | .readFailed => some "model_router_settings_read_failed"
  | .writeFailed => some "model_router_settings_write_failed"
  | .invalidSection => some "model_router_settings_invalid_section"
  | .plaintextForbidden => some "plaintext_credentials_forbidden"
  | .secretInvalid => some "credential_secret_invalid"
  | .typeError | .credential | .database => none

inductive Backend where
  | json | sqlite
  deriving DecidableEq

/-- What a path holds; of a decoded root only the keys of `_EMPTY_STATE` are looked at. -/
inductive Stored where
  | absent
  | invalidJson
  | invalidRoot
  -- a row of another version
  | unsupported
  | document (sections : Section → Option Value)

def Stored.of (data : State) : Stored := .document fun s => some (data s)

def isDict (v : Value) : Bool := (obj? v).isSome

def orEmpty (sections : Section → Option Value) : State := fun s => (sections s).getD (.obj [])

def dictOrEmpty (v : Value) : Value := if isDict v then v else .obj []

def readUnlocked (backend : Backend) : Stored → Except StorageError State
  | .absent => .ok emptyState
  | .invalidJson => .error .invalidJson
  | .invalidRoot => .error .invalidRoot
  | .unsupported => .error .schemaUnsupported
  | .document sections =>
    match backend with
    | .json => .ok fun s => dictOrEmpty (orEmpty sections s)
    | .sqlite =>
      if Section.all.all fun s => isDict (orEmpty sections s) then .ok (orEmpty sections)
      else .error .invalidSection

section Records
variable (s : Section) (key : String)

def saveRecord (value : Value) (data : State) : Option State := do
  let records ← obj? (data s)
  return Function.update data s (.obj (Dict.set key value records))

def deleteRecord (data : State) : Option State := do
  let records ← obj? (data s)
  return Function.update data s (.obj (Dict.erase key records))

end Records

def saveCustomProviderDefinition (providerId : String) (definition : Dict) : State → Option State :=
  saveRecord .customProviders providerId (.obj definition)

def deleteCustomProviderDefinition (providerId : String) : State → Option State :=
  deleteRecord .customProviders providerId

def ownedSections : List Section :=
  [.providers, .customProviders, .health, .models, .modelCatalogs, .modelAvailability]

def deleteProviderState (providerId : String) (data : State) : Option State :=
  ownedSections.foldlM (fun data s => deleteRecord s providerId data) data

def saveProviderHealth (providerId : String) (health : Dict) : State → Option State :=
  saveRecord .health providerId (.obj health)

def saveProviderModels (providerId : String) (models : List Dict) : State → Option State :=
  saveRecord .models providerId (.arr (models.map .obj))

def saveModelCatalogMetadata (providerId : String) (metadata : Dict) : State → Option State :=
  saveRecord .modelCatalogs providerId (.obj metadata)

def saveRoute (taskType : String) (route : Dict) : State → Option State :=
  saveRecord .routes taskType (.obj route)

/-- `dict(value)`, which an empty list or text passes too. -/
def dictOf : Value → Option Dict
  | .obj entries => some entries
  | .arr [] => some []
  | .str text => if text = "" then some [] else none
  | _ => none

def saveModelAvailability (providerId modelId : String) (status : Dict) (data : State) : Option State := do
  let rows ← obj? (data .modelAvailability)
  let records ← dictOf ((Dict.get? rows providerId).getD (.obj []))
  saveRecord .modelAvailability providerId (.obj (Dict.set modelId (.obj status) records)) data

inductive KeyChange where
  | delete
  | set (secret : String)

def KeyChange.value : KeyChange → Option String
  | .delete => none
  | .set secret => some secret

/-- What `save_provider_settings` asks of the credential store. -/
def keyChange (settings : Dict) : Except StorageError (Option KeyChange) :=
  match Dict.get? settings "api_key" with
  | none => .ok none
  | some .null => .ok (some .delete)
  | some (.str secret) =>
    if Texts.strip secret = "" then .error .secretInvalid else .ok (some (.set (Texts.strip secret)))
  | some _ => .error .secretInvalid

def recordOf (records : Dict) (providerId : String) : Dict :=
  ((Dict.get? records providerId).bind obj?).getD []

def referred (providerId : String) (settings current : Dict) : Dict :=
  match Dict.get? settings "api_key" with
  | none => current
  | some .null => Dict.erase "credential_ref" current
  | some _ => Dict.set "credential_ref" (.str providerId) current

def saveField (settings : Dict) (next : Dict) (key : String) : Dict :=
  match Dict.get? settings key with
  | none => next
  | some .null => Dict.erase key next
  | some value => Dict.set key value next

def savedFields : List String := ["base_url", "default_model", "enabled"]

def nextSettings (providerId : String) (settings current : Dict) : Dict :=
  savedFields.foldl (saveField settings) (Dict.erase "api_key" (referred providerId settings current))

def saveProviderSettings (providerId : String) (settings : Dict) (data : State) : Option State := do
  let providers ← obj? (data .providers)
  saveRecord .providers providerId
    (.obj (nextSettings providerId settings (recordOf providers providerId))) data

inductive Save where
  | write (data : Section → Option Value)
  | customProviderDefinition (providerId : String) (definition : Dict)
  | deleteCustomProviderDefinition (providerId : String)
  | deleteProviderState (providerId : String)
  | providerSettings (providerId : String) (settings : Dict)
  | providerHealth (providerId : String) (health : Dict)
  | providerModels (providerId : String) (models : List Dict)
  | modelCatalogMetadata (providerId : String) (metadata : Dict)
  | modelAvailability (providerId modelId : String) (status : Dict)
  | route (taskType : String) (value : Dict)

def Save.update : Save → State → Option State
  | .write data => fun _ => some (orEmpty data)
  | .customProviderDefinition p definition => saveCustomProviderDefinition p definition
  | .deleteCustomProviderDefinition p => PromptForge.ProviderSettings.deleteCustomProviderDefinition p
  | .deleteProviderState p => PromptForge.ProviderSettings.deleteProviderState p
  | .providerSettings p settings => saveProviderSettings p settings
  | .providerHealth p health => saveProviderHealth p health
  | .providerModels p models => saveProviderModels p models
  | .modelCatalogMetadata p metadata => saveModelCatalogMetadata p metadata
  | .modelAvailability p m status => saveModelAvailability p m status
  | .route taskType value => saveRoute taskType value

def Save.keyChange : Save → Except StorageError (Option KeyChange)
  | .providerSettings _ settings => PromptForge.ProviderSettings.keyChange settings
  | _ => .ok none

def Save.provider : Save → String
  | .providerSettings p _ => p
  | _ => ""

/-- `write` alone does not read the document first. -/
def Save.base (backend : Backend) (stored : Stored) : Save → Except StorageError State
  | .write _ => .ok emptyState
  | _ => readUnlocked backend stored

/-- What a save makes of the document it has read, and what it asks of the credential store. -/
def Save.load (backend : Backend) (save : Save) (stored : Stored) :
    Except StorageError (Option KeyChange × State) := do
  let data ← save.base backend stored
  let change ← save.keyChange
  match save.update data with
  | some next => .ok (change, next)
  | none => .error .typeError

def savedRecord : Save → State → Value
  | .providerSettings p _, next => .obj (recordOf ((obj? (next .providers)).getD []) p)
  | _, _ => .null

def hasPlaintext (v : Value) : Bool :=
  match obj? v with
  | some record => (Dict.get? record "api_key").isSome
  | none => false

/-- The checks of the SQLite store before it writes; the JSON store has none. -/
def checkWrite (backend : Backend) (next : State) : Except StorageError Unit :=
  match backend with
  | .json => .ok ()
  | .sqlite =>
    if ¬ Section.all.all (fun s => isDict (next s)) then .error .invalidSection
    else if (((obj? (next .providers)).getD []).any fun e => hasPlaintext e.2) then .error .plaintextForbidden
    else .ok ()

inductive Read where
  | read
  | providerSettings (providerId : String)
  | customProviderDefinitions
  | providerHealth (providerId : String)
  | providerModels (providerId : String)
  | modelCatalogMetadata (providerId : String)
  | modelAvailability (providerId modelId : String)
  | routes

def dictRecord (s : Section) (key : String) (data : State) : Option Value := do
  let records ← obj? (data s)
  return .obj (recordOf records key)

def dictRecords (s : Section) (data : State) : Option Value := do
  let records ← obj? (data s)
  return .obj (records.filter fun e => isDict e.2)

def modelRecords (providerId : String) (data : State) : Option Value := do
  let records ← obj? (data .models)
  match Dict.get? records providerId with
  | some (.arr items) => return .arr (items.filter isDict)
  | _ => return .arr []

def availabilityRecord (providerId modelId : String) (data : State) : Option Value := do
  let rows ← obj? (data .modelAvailability)
  return .obj (recordOf (recordOf rows providerId) modelId)

/-- `none` where a section that is no dict makes the reading raise. -/
def Read.answer : Read → State → Option Value
  | .read, data => some (.obj (Section.all.map fun s => (s.name, data s)))
  | .providerSettings p, data => dictRecord .providers p data
  | .customProviderDefinitions, data => dictRecords .customProviders data
  | .providerHealth p, data => dictRecord .health p data
  | .providerModels p, data => modelRecords p data
  | .modelCatalogMetadata p, data => dictRecord .modelCatalogs p data
  | .modelAvailability p m, data => availabilityRecord p m data
  | .routes, data => dictRecords .routes data

def providerRecord (providerId : String) (data : State) : Option Dict := do
  let records ← obj? (data .providers)
  return recordOf records providerId

def legacyKey (settings : Dict) : Option String :=
  match Dict.get? settings "api_key" with
  | some (.str legacy) => if Texts.strip legacy = "" then none else some (Texts.strip legacy)
  | _ => none

/-- `save_provider_settings(provider_id, {"api_key": legacy.strip()})` -/
def migration (providerId legacy : String) : Save := .providerSettings providerId [("api_key", .str legacy)]

/-- The kind of store at the path, and the name under which the credential store keeps
    the key of a provider. -/
structure Host where
  backend : Backend
  target : String → String

inductive Request where
  | save (save : Save)
  | read (reading : Read)
  | apiKey (providerId : String)

/-- Where a call stands: `api_key` before its nested save and before it asks for the key,
    a save before the credential store and before the settings are written. -/
inductive Phase where
  | migrate (legacy : String)
  | credential (save : Save) (change : KeyChange) (next : State)
  | write (save : Save) (next : State)
  | fetch (pending : Option (Save × State))

/-- A call in progress. `depth` counts the entries into the lock of the object, `version`
    the documents written before it read, `opened` those before it began. -/
structure Call where
  id : Nat
  object : Nat
  request : Request
  phase : Phase
  depth : Nat
  version : Nat
  opened : Nat
  keyChanged : Bool
  published : Bool

/-- A snapshot of a caller: `opened` documents had been written when its scope was entered,
    and `seen` when what it holds was read or written. -/
structure Snapshot where
  data : State
  opened : Nat
  seen : Nat

inductive Result where
  | raised (error : StorageError)
  | returned (value : Value)

structure Reply where
  id : Nat
  request : Request
  result : Result
  opened : Nat
  seen : Nat
  keysSeen : Nat

/-- A document that was written, by the call that did. -/
structure Written where
  id : Nat
  save : Save

/-- A change of the credential store, and the documents written before it. -/
structure KeyWritten where
  id : Nat
  request : Request
  target : String
  value : Option String
  seen : Nat

/-- The path and the credential store, the locks and snapshots of the callers with the call
    each is in, and what has been written and answered so far. -/
structure System where
  stored : Stored
  keys : String → Option String
  locks : Nat → Option Nat
  snapshots : Nat → Nat → Option Snapshot
  calls : Nat → Option Call
  issued : Nat
  documents : List Written
  keyLog : List KeyWritten
  replies : List Reply

/-- What holding the lock of an object excludes: other calls on the object, and on every
    object of the path while a SQLite transaction is open. -/
def domain : Backend → Nat → Nat
  | .json, object => object
  | .sqlite, _ => 0

/-- How a step fails: where it reads, writes or calls the credential store, or where it
    commits a SQLite transaction. -/
inductive Fault where
  | none | body | commit
  deriving DecidableEq

inductive Action where
  | enter (caller object : Nat) (fault : Fault)
  | leave (caller object : Nat)
  | begin (caller object : Nat) (request : Request) (fault : Fault)
  | refresh (caller : Nat) (fault : Fault)
  | credential (caller : Nat) (fault : Fault)
  | write (caller : Nat) (fault : Fault)
  | fetch (caller : Nat) (fault : Fault)

inductive Outcome where
  | blocked | continues | ended
  deriving DecidableEq

variable (host : Host)

namespace System
variable (s : System)

def free (object : Nat) : Bool := (s.locks (domain host.backend object)).isNone

def setCall (caller : Nat) (call : Option Call) : System :=
  { s with calls := Function.update s.calls caller call }

def setLock (object : Nat) (holder : Option Nat) : System :=
  { s with locks := Function.update s.locks (domain host.backend object) holder }

def reply (id : Nat) (request : Request) (result : Result) (opened seen : Nat) : System :=
  { s with replies := s.replies ++ [⟨id, request, result, opened, seen, s.keyLog.length⟩] }

def answer (request : Request) (result : Result) (opened seen : Nat) : System :=
  { s.reply s.issued request result opened seen with issued := s.issued + 1 }

def ask (caller object depth : Nat) (request : Request) (phase : Phase) : System :=
  { s.setCall caller (some ⟨s.issued, object, request, phase, depth, s.documents.length, s.documents.length,
      false, false⟩) with issued := s.issued + 1 }

/-- The end of a call, which leaves the lock as often as it has entered it. -/
def finish (caller : Nat) (call : Call) (result : Result) : System :=
  let s := (s.reply call.id call.request result call.opened s.documents.length).setCall caller none
  if call.depth = 0 then s else s.setLock host call.object none

def setSnapshot (caller object : Nat) (snapshot : Option Snapshot) : System :=
  { s with snapshots := Function.update s.snapshots caller (Function.update (s.snapshots caller) object snapshot) }

def setKey (call : Call) (target : String) (value : Option String) : System :=
  { s with
    keys := Function.update s.keys target value
    keyLog := s.keyLog ++ [⟨call.id, call.request, target, value, s.documents.length⟩] }

def publish (call : Call) (save : Save) (next : State) : System :=
  { s with stored := .of next, documents := s.documents ++ [⟨call.id, save⟩] }

def refreshSnapshot (caller object : Nat) (next : State) : System :=
  match s.snapshots caller object with
  | none => s
  | some snapshot => s.setSnapshot caller object (some { snapshot with data := next, seen := s.documents.length + 1 })

end System

def resultOf : Option Value → Result
  | some value => .returned value
  | none => .raised .typeError

def saving (save : Save) (change : Option KeyChange) (next : State) : Phase :=
  match change with
  | some change => .credential save change next
  | none => .write save next

def keyPhase (providerId : String) (data : State) : Except StorageError Phase :=
  match providerRecord providerId data with
  | none => .error .typeError
  | some settings =>
    match legacyKey settings with
    | some legacy => .ok (.migrate legacy)
    | none => .ok (.fetch none)

def keyValue : Option String → Value
  | some key => .str key
  | none => .null

section Steps
variable (s : System)

def enter (caller object : Nat) (fault : Fault) : Outcome × System :=
  if (s.calls caller).isSome then (.blocked, s)
  else if (s.snapshots caller object).isSome then (.continues, s)
  else if !s.free host object then (.blocked, s)
  else if fault ≠ .none then (.ended, s)
  else
    match readUnlocked host.backend s.stored with
    | .error _ => (.ended, s)
    | .ok data => (.continues, s.setSnapshot caller object (some ⟨data, s.documents.length, s.documents.length⟩))

def leave (caller object : Nat) : Outcome × System :=
  if (s.calls caller).isSome then (.blocked, s) else (.ended, s.setSnapshot caller object none)

/-- A call under the lock of the object: `body` is what it finds when it has read. -/
def locked (caller object : Nat) (request : Request) (fault : Fault)
    (body : Except StorageError (Result ⊕ Phase)) : Outcome × System :=
  if !s.free host object then (.blocked, s)
  else if fault ≠ .none then (.ended, s.answer request (.raised .readFailed) s.documents.length s.documents.length)
  else
    match body with
    | .error error => (.ended, s.answer request (.raised error) s.documents.length s.documents.length)
    | .ok (.inl result) => (.ended, s.answer request result s.documents.length s.documents.length)
    | .ok (.inr phase) => (.continues, (s.ask caller object 1 request phase).setLock host object (some caller))

def begin (caller object : Nat) (request : Request) (fault : Fault) : Outcome × System :=
  if (s.calls caller).isSome then (.blocked, s)
  else
    match request, s.snapshots caller object with
    | .save save, _ =>
      locked host s caller object request fault
        ((save.load host.backend s.stored).map fun loaded => .inr (saving save loaded.1 loaded.2))
    | .read reading, none =>
      locked host s caller object request fault
        ((readUnlocked host.backend s.stored).map fun data => .inl (resultOf (reading.answer data)))
    | .apiKey p, none =>
      locked host s caller object request fault
        ((readUnlocked host.backend s.stored).bind fun data => (keyPhase p data).map .inr)
    | .read reading, some snapshot =>
      (.ended, s.answer request (resultOf (reading.answer snapshot.data)) snapshot.opened snapshot.seen)
    | .apiKey p, some snapshot =>
      match keyPhase p snapshot.data with
      | .error error => (.ended, s.answer request (.raised error) snapshot.opened snapshot.seen)
      | .ok phase => (.continues, s.ask caller object 0 request phase)

/-- `api_key` calls `save_provider_settings`, which locks and reads again. -/
def refresh (caller : Nat) (call : Call) (fault : Fault) : Outcome × System :=
  match call.phase, call.request with
  | .migrate legacy, .apiKey p =>
    if call.depth = 0 ∧ s.free host call.object = false then (.blocked, s)
    else if fault ≠ .none then (.ended, s.finish host caller call (.raised .readFailed))
    else
      match (migration p legacy).load host.backend s.stored with
      | .error error => (.ended, s.finish host caller call (.raised error))
      | .ok (change, next) =>
        (.continues, (s.setCall caller (some { call with
          phase := saving (migration p legacy) change next, depth := call.depth + 1,
          version := s.documents.length })).setLock host call.object (some caller))
  | _, _ => (.blocked, s)

def credential (caller : Nat) (call : Call) (fault : Fault) : Outcome × System :=
  match call.phase with
  | .credential save change next =>
    if fault ≠ .none then (.ended, s.finish host caller call (.raised .credential))
    else
      (.continues, (s.setKey call (host.target save.provider) change.value).setCall caller (some { call with
        phase := .write save next
        keyChanged := decide (s.keys (host.target save.provider) ≠ change.value) }))
  | _ => (.blocked, s)

/-- The settings are written. -/
def write (caller : Nat) (call : Call) (fault : Fault) : Outcome × System :=
  match call.phase with
  | .write save next =>
    if fault = .body then (.ended, s.finish host caller call (.raised .writeFailed))
    else
      match checkWrite host.backend next with
      | .error error => (.ended, s.finish host caller call (.raised error))
      | .ok () =>
        let t := s.refreshSnapshot caller call.object next
        if host.backend = .sqlite ∧ call.depth = 2 then
          (.continues, t.setCall caller (some { call with phase := .fetch (some (save, next)), depth := 1 }))
        else if host.backend = .sqlite ∧ fault = .commit then
          (.ended, t.finish host caller call (.raised .database))
        else
          match call.request with
          | .apiKey _ =>
            (.continues, ((t.publish call save next).setCall caller (some { call with
              phase := .fetch none, depth := call.depth - 1, published := true })).setLock host call.object
                (if call.depth = 1 then none else some caller))
          | _ => (.ended, (t.publish call save next).finish host caller call (.returned (savedRecord save next)))
  | _ => (.blocked, s)

def fetch (caller : Nat) (call : Call) (fault : Fault) : Outcome × System :=
  match call.phase, call.request with
  | .fetch pending, .apiKey p =>
    if fault = .body then (.ended, s.finish host caller call (.raised .credential))
    else if host.backend = .sqlite ∧ call.depth = 1 ∧ fault = .commit then
      (.ended, s.finish host caller call (.raised .database))
    else
      let t := match pending with
        | none => s
        | some (save, next) => s.publish call save next
      (.ended, t.finish host caller call (.returned (keyValue (s.keys (host.target p)))))
  | _, _ => (.blocked, s)

def inCall (caller : Nat) (go : Call → Outcome × System) : Outcome × System :=
  match s.calls caller with
  | none => (.blocked, s)
  | some call => go call

def step : Action → Outcome × System
  | .enter caller object fault => enter host s caller object fault
  | .leave caller object => leave s caller object
  | .begin caller object request fault => begin host s caller object request fault
  | .refresh caller fault => inCall s caller fun call => refresh host s caller call fault
  | .credential caller fault => inCall s caller fun call => credential host s caller call fault
  | .write caller fault => inCall s caller fun call => write host s caller call fault
  | .fetch caller fault => inCall s caller fun call => fetch host s caller call fault

end Steps

end PromptForge.ProviderSettings
