import PromptForge.JournalHealth
import PromptForge.Savepoints

/-!
# Blocks inside blocks

A thread of the store is inside a transaction or it is not.
-/
namespace PromptForge.NestedBlocks
open Savepoints

universe u
variable {σ : Type u}

/-- `observers` are the callbacks; `order` is how a set is walked, and `names` what
    `uuid4` draws. -/
structure Host where
  observers : List String
  order : List String → List String
  perm : ∀ sessions, (order sessions).Perm sessions
  names : ℕ → String

/-- What others see: a commit, and the call of an observer. -/
inductive Happening (σ : Type u) where
  | committed (tables : σ)
  | notified (observer sessionId : String)

/-- `_transaction_state` of the thread, with the tables on disk and what happened. -/
structure Thread (σ : Type u) where
  committed : σ
  connection : Option (Connection σ)
  notifications : List String
  allowJoin : Bool
  drawn : ℕ
  log : List (Happening σ)

def Thread.tables (m : Thread σ) : σ := (m.connection.map Connection.working).getD m.committed

def Thread.onConnection (f : Connection σ → Connection σ) (m : Thread σ) : Thread σ :=
  { m with connection := m.connection.map f }

variable (host : Host)

def notifyObservers (sessionId : String) (m : Thread σ) : Thread σ :=
  if m.connection.isSome then { m with notifications := m.notifications.insert sessionId }
  else { m with log := m.log ++ host.observers.map fun observer => .notified observer sessionId }

/-- What `_Transaction` keeps between `__enter__` and `__exit__`. -/
inductive Handle where
  | owned
  | joined (savepoint : String) (notificationsBefore : List String)

/-- Whether `BEGIN` or `SAVEPOINT` succeeds, and whether the commit does. -/
structure Weather where
  begins : Bool
  commits : Bool

def enter (weather : Weather) (m : Thread σ) : Option Handle × Thread σ :=
  match m.connection with
  | some _ =>
    if m.allowJoin = false then (none, m)
    else
      let savepoint := "joined_" ++ host.names m.drawn
      let m := { m with drawn := m.drawn + 1 }
      if weather.begins = false then (none, m)
      else (some (.joined savepoint m.notifications), m.onConnection (.savepoint savepoint))
  | none =>
    if weather.begins = false then (none, m)
    else (some .owned, { m with connection := some ⟨m.committed, []⟩, notifications := [] })

/-- `__exit__`, and whether the block raised in the end. -/
def exit (weather : Weather) (raised : Bool) (m : Thread σ) : Handle → Bool × Thread σ
  | .joined savepoint notificationsBefore =>
    let m := if raised then { m.onConnection (.rollbackTo savepoint) with notifications := notificationsBefore } else m
    (raised, m.onConnection (.release savepoint))
  | .owned =>
    if raised || !weather.commits then (true, { m with connection := none })
    else
      let closed := { m with committed := m.tables, connection := none, log := m.log ++ [.committed m.tables] }
      (false, (host.order m.notifications).foldl (fun m sessionId => notifyObservers host sessionId m) closed)

/-- `write` is the effect on the tables; an event has its session. -/
structure Effect (σ : Type u) where
  write : σ → σ
  session : Option String

/-- What the body of `append_event` does where it does not raise. -/
inductive Appended (σ : Type u) where
  | replayed
  | stored (tables : σ)

/-- A body of Python code that works on the store. -/
inductive Stmt (σ : Type u) where
  | done
  | raise
  | write (f : σ → Option σ)
  | read (k : σ → Stmt σ)
  | append (weather : Weather) (sessionId : String) (tx : σ → Option (Appended σ))
  | seq (first rest : Stmt σ)
  | attempt (body handler : Stmt σ)
  | atomic (weather : Weather) (body : Stmt σ)
  | transaction (weather : Weather) (body : Stmt σ)

/-- What a piece of code ended with, if it did not raise, the thread as it left it, and
    what it executed. -/
abbrev Run (σ : Type u) (α : Type) := Thread σ → Option α × Thread σ × Executed (Effect σ)

/-- `with store._transaction(): body` -/
def block {α : Type} (weather : Weather) (body : Run σ α) : Run σ α := fun m =>
  match enter host weather m with
  | (none, m) => (none, m, .block false .nil .nil)
  | (some handle, m) =>
    let (value, m, tree) := body m
    match exit host weather value.isNone m handle with
    | (true, m) => (none, m, .block false tree .nil)
    | (false, m) => (value, m, .block true tree .nil)

/-- `with store.atomic(): body` -/
def atomicBlock {α : Type} (weather : Weather) (body : Run σ α) : Run σ α := fun m =>
  let (value, m', tree) := block host weather body { m with allowJoin := true }
  (value, { m' with allowJoin := m.allowJoin }, tree)

/-- A statement over the connection; there is none outside of a block. -/
def writeTables {α : Type} (f : σ → Option (α × σ × List (Effect σ))) : Run σ α := fun m =>
  match m.connection.bind fun c => f c.working with
  | none => (none, m, .nil)
  | some (value, tables, effects) =>
    (some value, m.onConnection fun c => { c with working := tables }, effects.foldr .effect .nil)

def written (f : σ → Option σ) (tables : σ) : σ := (f tables).getD tables

def appended (tx : σ → Option (Appended σ)) (tables : σ) : σ :=
  match tx tables with
  | some (.stored tables') => tables'
  | _ => tables

/-- The body of `append_event`; its value tells whether there is an event to announce. -/
def appendBody (sessionId : String) (tx : σ → Option (Appended σ)) : Run σ Bool :=
  writeTables fun tables => (tx tables).map fun result => match result with
    | .replayed => (false, tables, [])
    | .stored tables' => (true, tables', [⟨appended tx, some sessionId⟩])

def appendEvent (weather : Weather) (sessionId : String) (tx : σ → Option (Appended σ)) : Run σ Unit := fun m =>
  match block host weather (appendBody sessionId tx) m with
  | (none, m, tree) => (none, m, tree)
  | (some false, m, tree) => (some (), m, tree)
  | (some true, m, tree) => (some (), notifyObservers host sessionId m, tree)

def exec : Stmt σ → Run σ Unit
  | .done, m => (some (), m, .nil)
  | .raise, m => (none, m, .nil)
  | .write f, m => writeTables (fun tables => (f tables).map fun tables' => ((), tables', [⟨written f, none⟩])) m
  | .read k, m => exec (k m.tables) m
  | .append weather sessionId tx, m => appendEvent host weather sessionId tx m
  | .seq first rest, m =>
    match exec first m with
    | (none, m, tree) => (none, m, tree)
    | (some _, m, tree) =>
      let (value, m, tree') := exec rest m
      (value, m, tree.append tree')
  | .attempt body handler, m =>
    match exec body m with
    | (some value, m, tree) => (some value, m, tree)
    | (none, m, tree) =>
      let (value, m, tree') := exec handler m
      (value, m, tree.append tree')
  | .atomic weather body, m => atomicBlock host weather (exec body) m
  | .transaction weather body, m => block host weather (exec body) m

end PromptForge.NestedBlocks
