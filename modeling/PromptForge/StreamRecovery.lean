import Mathlib.Algebra.Order.Floor.Ring
import Mathlib.Data.Rat.Floor
import PromptForge.Texts

/-!
# Recovery of streams

A request to a provider may be attempted again when its stream fails.
-/
namespace PromptForge.StreamRecovery

/-- The subclasses of `LLMError`. -/
inductive Kind where
  | configuration
  | authentication
  | timeout
  | rateLimit
  | response
  | other
  deriving DecidableEq

/-- An `LLMError`, with what is read of its details; `retryAfter` is the
    `retry_after_ms_from_details`. -/
structure Failure where
  kind : Kind
  code : String
  status : Option ℤ
  retryable : Bool
  message : String
  category : Option String
  origin : Option String
  circuitOpen : Bool
  timeoutStage : Option String
  durationMs : ℚ
  retryAfter : Option ℕ
  responseHeaders : Bool

inductive Raised where
  | llm (failure : Failure)
  | other (name : String)

def own (kind : Kind) (code message : String) (retryable : Bool) : Failure :=
  ⟨kind, code, none, retryable, message, none, none, false, none, 0, none, false⟩

def maxDelay : ℕ := 2147483647

def exponentialBackoff (attempt limit : ℕ) (sample : ℚ) : ℕ :=
  min limit ⌈(2000 * 2 ^ min 30 (attempt - 1) : ℚ) * (1 + 1 / 4 * sample)⌉₊

def transientDelay (failure : Failure) (attempt : ℕ) (sample : ℚ) : ℕ :=
  failure.retryAfter.getD (exponentialBackoff attempt (if failure.responseHeaders then maxDelay else 30000) sample)

structure Decision where
  retry : Bool
  delay : ℕ

def finalCategories : List String := ["configuration", "authentication", "quota_exceeded", "context_overflow", "content_policy", "cancelled"]

def finalOrigins : List String := ["provider_circuit", "provider_admission", "run_budget", "verification_reserve"]

def finalCodes : List String :=
  ["CONTEXT_OVERFLOW", "MODEL_CAPABILITY_MISMATCH", "PROVIDER_REQUEST_ATTEMPTS_EXHAUSTED", "AGENT_BUDGET_EXCEEDED", "MODEL_OUTPUT_EMPTY",
    "TOOL_ARGUMENTS_INVALID"]

/-- The texts that `_TRANSIENT` finds. -/
structure Host where
  transient : String → Bool

variable (host : Host)

def RetryPolicy.decide (maxAttempts : ℤ) (failure : Failure) (attempt : ℕ) (sample : ℚ) : Decision :=
  if maxAttempts ≤ attempt then ⟨false, 0⟩
  else if failure.kind = .configuration ∨ failure.kind = .authentication then ⟨false, 0⟩
  else if failure.category.any (finalCategories.contains ·) ∨ failure.status = some 401 ∨ failure.status = some 403 then ⟨false, 0⟩
  else if failure.origin.any (finalOrigins.contains ·) then ⟨false, 0⟩
  else if finalCodes.contains failure.code then ⟨false, 0⟩
  else if failure.kind = .timeout ∨ failure.kind = .rateLimit ∨ failure.retryable ∨ failure.status.any (500 ≤ ·) ∨ host.transient failure.message then
    let delay := transientDelay failure attempt sample
    if 30000 < delay then ⟨false, delay⟩ else ⟨true, delay⟩
  else ⟨false, 0⟩

/-- `limit` is that of the request's attempts, which may have no state; `usefulSeconds` is the
    `minimum_response_seconds` of its transport. -/
structure Request where
  managed : Bool
  enabled : Bool
  limit : Option ℤ
  deadline : Option ℚ
  usefulSeconds : ℚ

def Request.maxAttempts (request : Request) : ℤ := min 6 (request.limit.getD 6)

/-- An attempt, and what is met when it has failed: the attempts that were used, the clock, what
    `random` draws, and what the hook or the wait raise. -/
structure Round (ε : Type) where
  events : List ε
  ending : Option Raised
  /-- No first event came in time. -/
  slow : Bool
  /-- `generate`, for a stream without events -/
  answer : Except Raised String
  used : ℤ
  now : ℚ
  sample : ℚ
  sample' : ℚ
  scheduled : Option Raised
  slept : Option Raised
  started : Option Raised

variable {ε : Type}

def remaining (request : Request) (round : Round ε) : ℤ :=
  match request.limit with
  | some limit => max 0 (limit - round.used)
  | none => 6

inductive Wait where
  | stop
  | again
  | interrupted (raised : Raised)

def waitFor (interruptions : List (Option Raised)) : Wait :=
  match interruptions.findSome? id with
  | some raised => .interrupted raised
  | none => .again

def longStages : List String := ["first_event", "stream_idle", "attempt_total", "job_deadline", "turn_deadline"]

def deadlineStages : List String := ["job_deadline", "turn_deadline"]

def retryWait (request : Request) (round : Round ε) (failure : Failure) (attempt : ℕ) : Wait :=
  if !request.managed || !request.enabled then .stop
  else if failure.origin = some "provider_circuit" ∨ failure.circuitOpen then .stop
  else if failure.kind = .timeout ∧ failure.timeoutStage.any (longStages.contains ·) ∧
      (30000 ≤ failure.durationMs ∨ failure.timeoutStage.any (deadlineStages.contains ·)) then .stop
  else if remaining request round = 0 ∨ request.maxAttempts ≤ attempt then .stop
  else if failure.code = "PROVIDER_STREAM_INVALID" ∧ 3 ≤ attempt then .stop
  else
    let decision := RetryPolicy.decide host (max 1 request.maxAttempts) failure attempt round.sample
    if !decision.retry && !(decide (failure.kind = .response) && failure.retryable) &&
        !(decide (failure.kind = .rateLimit) && failure.retryAfter.isNone) then .stop
    else
      let delay := transientDelay failure attempt round.sample'
      if 30000 < delay then .stop
      else if request.deadline.any (· ≤ round.now + delay / 1000 + request.usefulSeconds) then .stop
      else waitFor [round.scheduled, round.slept, round.started]

/-- The handler of `public_stream`. -/
def publicWait (request : Request) (round : Round ε) (emitted : Bool) (failure : Failure) (attempt : ℕ) : Wait :=
  let decision := RetryPolicy.decide host (max 1 request.maxAttempts) failure attempt round.sample
  if emitted || !decision.retry || decide (remaining request round = 0) ||
      request.deadline.any fun deadline => decide (deadline ≤ round.now + decision.delay / 1000) then .stop
  else waitFor [round.scheduled, round.slept]

inductive Event (ε : Type) where
  | started (attempt : ℕ)
  | delivered (attempt : ℕ) (event : ε)

inductive Ending where
  | returned
  | raised (raised : Raised)

structure Recording (ε : Type) where
  log : List (Event ε)
  ending : Ending

/-- So many attempts more, from one on. `act` is what an attempt delivers and how it ends. -/
def attempts (act : Round ε → List ε × Option Raised) (again : Round ε → Bool → Failure → ℕ → Wait) (rounds : ℕ → Round ε) :
    ℕ → ℕ → Recording ε
  | 0, _ => ⟨[], .returned⟩
  | left + 1, attempt =>
    let (events, ending) := act (rounds attempt)
    let log := .started attempt :: events.map (.delivered attempt)
    match ending with
    | none => ⟨log, .returned⟩
    | some (.other name) => ⟨log, .raised (.other name)⟩
    | some (.llm failure) =>
      match again (rounds attempt) (!events.isEmpty) failure attempt with
      | .stop => ⟨log, .raised (.llm failure)⟩
      | .interrupted raised => ⟨log, .raised raised⟩
      | .again =>
        let rest := attempts act again rounds left (attempt + 1)
        ⟨log ++ rest.log, rest.ending⟩

/-- The buffer of `agent_stream`; `size` is the length of an event's text. -/
def buffer (size : ε → ℕ) (ending : Option Raised) : List ε → List ε → ℕ → Except Raised (List ε)
  | [], events, _ =>
    match ending with
    | none => .ok events
    | some raised => .error raised
  | event :: rest, events, total =>
    if 50000 ≤ events.length ∨ 8000000 < total + size event then
      .error (.llm (own .response "PROVIDER_STREAM_TOO_LARGE" "Agent stream exceeded its bounded buffer" false))
    else buffer size ending rest (events ++ [event]) (total + size event)

/-- All events of an attempt of `agent_stream`, or none. -/
def agentAct (size : ε → ℕ) (round : Round ε) : List ε × Option Raised :=
  match buffer size round.ending round.events [] 0 with
  | .ok events => (events, none)
  | .error raised => ([], some raised)

def publicAct (round : Round ε) : List ε × Option Raised := (round.events, round.ending)

def noFirstToken : Raised := .llm (own .timeout "PROVIDER_TIMEOUT" "The provider did not return a first token in time" true)

def emptyResponse : Raised := .llm (own .response "PROVIDER_ENVELOPE_INVALID" "The provider returned an empty response" false)

/-- An attempt of `text_stream`: `generate` is asked when the stream ends without an event. -/
def textAct (round : Round String) : List String × Option Raised :=
  if round.slow then ([], some noFirstToken)
  else
    match round.events, round.ending with
    | [], none =>
      match round.answer with
      | .error raised => ([], some raised)
      | .ok content => if Texts.strip content = "" then ([], some emptyResponse) else ([content], none)
    | [], some (.other "TimeoutError") => ([], some noFirstToken)
    | events, ending => (events, ending)

variable (request : Request)

def agentStream (size : ε → ℕ) (rounds : ℕ → Round ε) : Recording ε :=
  attempts (agentAct size) (fun round _ failure attempt => retryWait host request round failure attempt) rounds 6 1

def publicStream (rounds : ℕ → Round ε) : Recording ε :=
  attempts publicAct (publicWait host request) rounds (max 1 request.maxAttempts).toNat 1

def textStream (rounds : ℕ → Round String) : Recording String :=
  attempts textAct (fun round emitted failure attempt => if emitted then .stop else retryWait host request round failure attempt) rounds 6 1

def Request.maximum : ℕ := (max 1 request.maxAttempts).toNat

/-- The attempts are made one after the other, and nothing is delivered before the last one starts. -/
def OneAttempt (act : Round ε → List ε × Option Raised) (rounds : ℕ → Round ε) (maximum : ℕ) (recording : Recording ε) : Prop :=
  ∃ last, 1 ≤ last ∧ last ≤ maximum ∧
    recording.log = (List.range' 1 last).map .started ++ (act (rounds last)).1.map (.delivered last) ∧
    match (act (rounds last)).2 with
    | none => recording.ending = .returned
    | some raised => recording.ending = .raised raised ∨
        ∃ other, some other ∈ [(rounds last).scheduled, (rounds last).slept, (rounds last).started] ∧ recording.ending = .raised other

section Attempts
variable {act : Round ε → List ε × Option Raised} {again : Round ε → Bool → Failure → ℕ → Wait} {rounds : ℕ → Round ε} {maximum : ℕ}

/-- When a stream may be attempted again: nothing was delivered, and there is an attempt left. -/
structure Careful (act : Round ε → List ε × Option Raised) (again : Round ε → Bool → Failure → ℕ → Wait) (rounds : ℕ → Round ε)
    (maximum : ℕ) : Prop where
  repeats : ∀ n failure, (act (rounds n)).2 = some (.llm failure) →
    again (rounds n) (!(act (rounds n)).1.isEmpty) failure n = .again → (act (rounds n)).1 = [] ∧ n < maximum
  interrupted : ∀ n emitted failure raised, again (rounds n) emitted failure n = .interrupted raised →
    some raised ∈ [(rounds n).scheduled, (rounds n).slept, (rounds n).started]

lemma range_from {n last : ℕ} (h : n < last) : List.range' n (last + 1 - n) = n :: List.range' (n + 1) (last + 1 - (n + 1)) := by
  have hlength : last + 1 - n = (last + 1 - (n + 1)) + 1 := by omega
  rw [hlength, List.range'_succ]

lemma attempts_from (h : Careful act again rounds maximum) {left n : ℕ} (hn : n ≤ maximum) (hleft : maximum < n + left) :
    ∃ last, n ≤ last ∧ last ≤ maximum ∧
      (attempts act again rounds left n).log = (List.range' n (last + 1 - n)).map .started ++ (act (rounds last)).1.map (.delivered last) ∧
      match (act (rounds last)).2 with
      | none => (attempts act again rounds left n).ending = .returned
      | some raised => (attempts act again rounds left n).ending = .raised raised ∨
          ∃ other, some other ∈ [(rounds last).scheduled, (rounds last).slept, (rounds last).started] ∧
            (attempts act again rounds left n).ending = .raised other := by
  induction left generalizing n with
  | zero => omega
  | succ left ih =>
    have hhere : List.range' n (n + 1 - n) = [n] := by simp
    unfold attempts
    cases hact : act (rounds n) with
    | mk events ending =>
      cases ending with
      | none => exact ⟨n, le_rfl, hn, by simp [hact], by simp [hact]⟩
      | some raised =>
        cases raised with
        | other name => exact ⟨n, le_rfl, hn, by simp [hact], by simp [hact]⟩
        | llm failure =>
          cases hagain : again (rounds n) (!events.isEmpty) failure n with
          | stop => exact ⟨n, le_rfl, hn, by simp [hact, hagain], by simp [hact, hagain]⟩
          | interrupted raised =>
            have hraised := h.interrupted n (!events.isEmpty) failure raised hagain
            refine ⟨n, le_rfl, hn, by simp [hact, hagain], ?_⟩
            simp only [hact, hagain]
            exact .inr ⟨raised, hraised, rfl⟩
          | again =>
            obtain ⟨hnothing, hmore⟩ := h.repeats n failure (by rw [hact]) (by rw [hact]; exact hagain)
            rw [hact] at hnothing
            obtain ⟨last, hlast, hmaximum, hlog, hending⟩ := @ih (n + 1) hmore (by omega)
            refine ⟨last, by omega, hmaximum, ?_, ?_⟩
            · simp only [hagain]
              have hnil : events = [] := hnothing
              rw [hlog, range_from hlast, hnil]
              rfl
            · simp only [hagain]
              exact hending

lemma attempts_one (h : Careful act again rounds maximum) (hmaximum : 1 ≤ maximum) {left : ℕ} (hleft : maximum ≤ left) :
    OneAttempt act rounds maximum (attempts act again rounds left 1) := by
  obtain ⟨last, hfirst, hlast, hlog, hending⟩ := attempts_from h hmaximum (by omega : maximum < 1 + left)
  exact ⟨last, hfirst, hlast, by simpa using hlog, hending⟩

end Attempts

section Streams
variable {host request} {round : Round ε} {failure : Failure} {n : ℕ} {emitted : Bool}

lemma waitFor_interrupted {interruptions : List (Option Raised)} {raised : Raised} (h : waitFor interruptions = .interrupted raised) :
    some raised ∈ interruptions := by
  unfold waitFor at h
  split at h
  · rename_i found hfound
    cases h
    obtain ⟨o, ho, hsome⟩ := List.exists_of_findSome?_eq_some hfound
    rw [← show o = some raised from hsome]
    exact ho
  · cases h

lemma retryWait_again (h : retryWait host request round failure n = .again) : n < request.maximum := by
  unfold retryWait at h
  split at h
  · cases h
  · split at h
    · cases h
    · split at h
      · cases h
      · split at h
        · cases h
        · rename_i hleft
          simp only [not_or, not_le] at hleft
          have hcount : (n : ℤ) < max 1 request.maxAttempts := lt_of_lt_of_le hleft.2 (le_max_right _ _)
          unfold Request.maximum
          omega

lemma retryWait_interrupted {raised : Raised} (h : retryWait host request round failure n = .interrupted raised) :
    some raised ∈ [round.scheduled, round.slept, round.started] := by
  unfold retryWait at h
  simp only at h
  repeat' split at h
  all_goals first | exact waitFor_interrupted h | cases h

lemma publicWait_again (h : publicWait host request round emitted failure n = .again) : emitted = false ∧ n < request.maximum := by
  unfold publicWait at h
  simp only at h
  split at h
  · cases h
  · rename_i hgo
    simp only [Bool.or_eq_true, not_or, Bool.not_eq_true, Bool.not_eq_false'] at hgo
    obtain ⟨⟨⟨hemitted, hretry⟩, -⟩, -⟩ := hgo
    refine ⟨hemitted, ?_⟩
    unfold RetryPolicy.decide at hretry
    split at hretry
    · cases hretry
    · rename_i hcount
      unfold Request.maximum
      omega

lemma publicWait_interrupted {raised : Raised} (h : publicWait host request round emitted failure n = .interrupted raised) :
    some raised ∈ [round.scheduled, round.slept, round.started] := by
  unfold publicWait at h
  simp only at h
  split at h
  · cases h
  · have hmem := waitFor_interrupted h
    simp only [List.mem_cons, List.not_mem_nil, or_false] at hmem ⊢
    tauto

lemma agentAct_failed {size : ε → ℕ} (h : (agentAct size round).2 = some (.llm failure)) : (agentAct size round).1 = [] := by
  unfold agentAct at h ⊢
  cases hbuffer : buffer size round.ending round.events [] 0 with
  | ok events =>
    rw [hbuffer] at h
    cases h
  | error raised => rfl

end Streams

end PromptForge.StreamRecovery
