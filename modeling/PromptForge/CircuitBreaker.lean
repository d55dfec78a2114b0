import Mathlib.Tactic
import Mathlib.Data.Rat.Floor
import PromptForge.Runs
import PromptForge.Tables

/-!
# Persistent endpoint cooldown

`endpoint_health` holds at most one row for an endpoint: its failure count, the
time until which the circuit is open, and the probe that is out, if any. Clock
readings are seconds. A `uuid4` probe token is the next value of a counter that
is never reused.
-/
namespace PromptForge.CircuitBreaker
open Runs Tables

abbrev ProbeId := ℕ

structure ProviderCircuitBreaker where
  failureThreshold : ℕ
  atLeastTwo : 2 ≤ failureThreshold
  deriving DecidableEq

def ProviderCircuitBreaker.new (failureThreshold : ℤ) : ProviderCircuitBreaker :=
  ⟨max 2 failureThreshold.toNat, le_max_left _ _⟩

structure EndpointHealth where
  identity : String
  failures : ℕ
  openUntil : ℚ
  probeId : Option ProbeId
  probeUntil : ℚ
  deriving DecidableEq

def EndpointHealth.withProbe (probe : ProbeId) (until_ : ℚ) (r : EndpointHealth) : EndpointHealth :=
  { r with probeId := some probe, probeUntil := until_ }

def EndpointHealth.withoutProbe (r : EndpointHealth) : EndpointHealth :=
  { r with probeId := none, probeUntil := 0 }

@[simp] lemma withProbe_identity (probe : ProbeId) (until_ : ℚ) (r : EndpointHealth) :
    (r.withProbe probe until_).identity = r.identity := rfl

@[simp] lemma withoutProbe_identity (r : EndpointHealth) :
    r.withoutProbe.identity = r.identity := rfl

abbrev Table := List EndpointHealth

abbrev health? (t : Table) (identity : String) : Option EndpointHealth :=
  lookup EndpointHealth.identity t identity

/-- A draw of `random.uniform(1.0, 1.25)`. -/
abbrev Jitter := { q : ℚ // 1 ≤ q ∧ q ≤ 5 / 4 }

/-- How a call ended; a failure carries the server's own retry hint. -/
inductive Settlement where
  | cancelled
  | success
  | failure (retryAfterMs : Option ℕ) (jitter : Jitter)

structure ProviderError where
  message : String
  code : String
  retryable : Bool
  origin : String
  retryAfterMs : ℤ
  requestReachedProvider : Bool
  deriving DecidableEq

def coolingDown (delayMs : ℤ) : ProviderError where
  message := "The selected model endpoint is cooling down after repeated failures."
  code := "PROVIDER_UNAVAILABLE"
  retryable := true
  origin := "provider_circuit"
  retryAfterMs := delayMs
  requestReachedProvider := false

inductive CircuitState where
  | open
  | halfOpen
  | closed
  deriving DecidableEq

structure Health where
  state : CircuitState
  failures : ℕ
  retryAfterMs : ℤ
  probeActive : Bool
  deriving DecidableEq

variable (breaker : ProviderCircuitBreaker)

def health (identity : String) (now : ℚ) (t : Table) : Health :=
  let row := (health? t identity).getD ⟨identity, 0, 0, none, 0⟩
  let due := max row.openUntil (if row.probeId.isSome then row.probeUntil else 0)
  { state := if now < row.openUntil then .open
      else if breaker.failureThreshold ≤ row.failures then .halfOpen else .closed
    failures := row.failures
    retryAfterMs := if now < due then max 0 (⌊(due - now) * 1000⌋ + 1) else 0
    probeActive := row.probeId.isSome && decide (now < row.probeUntil) }

def delayMs (row : EndpointHealth) (now : ℚ) : ℤ :=
  max 1 (⌊(max row.openUntil row.probeUntil - now) * 1000⌋ + 1)

def requireAvailable (identity : String) (now : ℚ) (t : Table) : Except ProviderError Unit :=
  let delayMs := (health breaker identity now t).retryAfterMs
  if delayMs ≠ 0 then
    .error { coolingDown delayMs with message := "The selected model endpoint is temporarily unavailable and cooling down." }
  else .ok ()

/-- Let a call through: as a probe when the failures have reached the threshold,
    plainly below it, not at all while the circuit is open or a probe is out. -/
def admitCall (identity : String) (now : ℚ) (probe : ProbeId) :
    Work Table ProviderError (Option ProbeId) := transaction fun t =>
  match health? t identity with
  | none => (.ok none, t)
  | some row =>
    if now < row.openUntil ∨ now < row.probeUntil then
      (.error (coolingDown (delayMs row now)), t)
    else if breaker.failureThreshold ≤ row.failures then
      (.ok (some probe), updateWhere (fun r => r.identity = identity)
        (EndpointHealth.withProbe probe (now + 350)) t)
    else (.ok none, t)

/-- The settlements that are discarded: a probe that is not the one on the row, any
    other call while a probe is on the row, and a plain call while the circuit is open. -/
def discarded (row : Option EndpointHealth) (probe : Option ProbeId) (now : ℚ) : Bool :=
  match row with
  | none => probe.isSome
  | some row => (probe.isSome && row.probeId != probe) ||
      ((row.probeId.isSome && row.probeId != probe) || (probe.isNone && decide (now < row.openUntil)))

def hintSeconds (retryAfterMs : Option ℕ) : ℚ := max 0 ((retryAfterMs.getD 0 : ℚ) / 1000)

/-- The failure count is capped at sixteen before a hint lifts it to the threshold. -/
def nextFailures (previous : ℕ) (retryAfterMs : Option ℕ) : ℕ :=
  let failures := min 16 (previous + 1)
  if hintSeconds retryAfterMs ≠ 0 then max breaker.failureThreshold failures else failures

def cooldown (failures : ℕ) (retryAfterMs : Option ℕ) (jitter : Jitter) : ℚ :=
  if breaker.failureThreshold ≤ failures then
    max (min 120 (30 * 2 ^ min (failures - breaker.failureThreshold) 2) * jitter.1)
      (hintSeconds retryAfterMs)
  else 0

def failedRow (identity : String) (previous : ℕ) (now : ℚ) (retryAfterMs : Option ℕ)
    (jitter : Jitter) : EndpointHealth :=
  let failures := nextFailures breaker previous retryAfterMs
  let delay := cooldown breaker failures retryAfterMs jitter
  ⟨identity, failures, if delay ≠ 0 then now + delay else 0, none, 0⟩

def settle (identity : String) (probe : Option ProbeId) (now : ℚ) (settlement : Settlement) :
    Work Table ProviderError Unit := transaction fun t =>
  let row := health? t identity
  if discarded row probe now then (.ok (), t)
  else match settlement with
    | .cancelled =>
      if probe.isSome then
        (.ok (), updateWhere (fun r => r.identity = identity ∧ r.probeId = probe)
          EndpointHealth.withoutProbe t)
      else (.ok (), t)
    | .success => (.ok (), deleteRow EndpointHealth.identity identity t)
    | .failure retryAfterMs jitter =>
      let previous := (row.map EndpointHealth.failures).getD 0
      (.ok (), replaceRow EndpointHealth.identity
        (failedRow breaker identity previous now retryAfterMs jitter) t)

structure World where
  table : Table
  /-- The next probe token. -/
  nextProbe : ProbeId

def World.initial : World := ⟨[], 0⟩

/-- A call of `_admit` or `_settle` by any client. A settlement brings the token its
    call was admitted with, or none. -/
inductive Action where
  | admitCall (identity : String) (now : ℚ)
  | settle (identity : String) (probe : Option ProbeId) (now : ℚ) (settlement : Settlement)

inductive Answer where
  | refused (error : ProviderError)
  | admitted (probe : Option ProbeId)
  | settled
  deriving DecidableEq

def step (w : World) : Action → Answer × World
  | .admitCall identity now =>
    match admitCall breaker identity now w.nextProbe w.table with
    | (.error error, t) => (.refused error, { w with table := t })
    | (.ok probe, t) => (.admitted probe, ⟨t, if probe.isSome then w.nextProbe + 1 else w.nextProbe⟩)
  | .settle identity probe now settlement =>
    (.settled, { w with table := (settle breaker identity probe now settlement w.table).2 })

end PromptForge.CircuitBreaker
