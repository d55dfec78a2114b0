import PromptForge.Store

/-!
# The session projection

A reader's view of a session is a fold over the events of its journal.
-/
namespace PromptForge.Projection
open Runs Tables Json Store

structure SessionProjection where
  sessionId : String
  sessionSeq : ℤ := 0
  runStatus : String := "idle"
  activeTurn : Option ℤ := none
  activeStep : Option ℤ := none
  activeAttemptId : Option String := none
  assistantContent : String := ""
  activities : List Dict := []
  plan : List Dict := []
  pendingTools : List (String × Dict) := []
  approvals : List (String × Dict) := []
  queuedGuidance : List Dict := []

variable (host : Host)

def str? : Value → Option String
  | .str s => if s = "" then none else some s
  | _ => none

def int? (v : Value) : Option ℤ :=
  match int host v with
  | .ok n => some n
  | .error _ => none

def either (a b : Value) : Value := if truthy a then a else b

def seqOf (event : Dict) (sessionSeq : ℤ) : Except StoreError ℤ :=
  int host (either (event.get "session_seq") (either (event.get "sequence") (.int sessionSeq)))

/-- The events that end a run, with the status of one that names none. -/
def terminalStatus? (eventType : String) : Option String :=
  (lookup Prod.fst [("runtime.completed", "completed"), ("runtime.completed_with_warning", "completed_with_warning"),
    ("runtime.failed", "failed"), ("runtime.cancelled", "cancelled"), ("runtime.blocked", "blocked"),
    ("runtime.interrupted", "failed"), ("runtime.paused_model_unavailable", "paused_model_unavailable")]
    eventType).map Prod.snd

/-- `value in {…}`: lists and dictionaries have no hash. -/
def oneOf (names : List String) : Value → Except StoreError Bool
  | .str s => .ok (decide (s ∈ names))
  | .arr _ => .error (.raised "TypeError")
  | .obj _ => .error (.raised "TypeError")
  | _ => .ok false

def isOpen (activity : Dict) : Except StoreError Bool := do
  if ← oneOf ["active", "running", "pending"] (activity.get "state") then return true
  oneOf ["running", "pending"] (activity.get "status")

def settleActivity (runStatus : String) (activity : Dict) : Except StoreError Dict := do
  if ← isOpen activity then
    return ((activity.set "state" (.str (if runStatus.startsWith "completed" then "completed" else "error"))).set
      "status" (.str runStatus)).set "displayStatus" (.str runStatus)
  return activity

def endRun (defaultStatus : String) (event : Dict) (state : SessionProjection) :
    Except StoreError SessionProjection := do
  let runStatus := str host (event.getOr "status" (.str defaultStatus))
  let activities ← state.activities.mapM (settleActivity runStatus)
  return { state with
    runStatus := runStatus
    activeTurn := none
    activeStep := none
    activeAttemptId := none
    pendingTools := []
    activities := activities }

def callId? (event : Dict) : Option String := str? (either (event.get "call_id") (event.get "tool_call_id"))

def text? : Value → Option String
  | .str s => some s
  | _ => none

def list? : Value → Option (List Value)
  | .arr items => some items
  | _ => none

def guidanceItem (event : Dict) : Dict :=
  [("item_id", event.get "queue_item_id"), ("message", event.get "message"), ("mode", event.get "mode")]

def handle (eventType : String) (event : Dict) (state : SessionProjection) : SessionProjection :=
  if eventType ∈ ["TURN_STARTED", "turn.started"] then
    { state with activeTurn := int? host (event.get "turn"), runStatus := "running" }
  else if eventType ∈ ["STEP_STARTED", "step.started"] then
    { state with activeStep := int? host (event.get "step") }
  else if eventType ∈ ["MODEL_ATTEMPT_STARTED", "model.attempt.started"] then
    { state with activeAttemptId := str? (event.get "attempt_id"), assistantContent := "" }
  else if eventType ∈ ["MODEL_ATTEMPT_SETTLED", "model.attempt.settled"] then
    { state with
      activeAttemptId := none
      assistantContent := (text? (either (event.get "content") (event.get "message"))).getD state.assistantContent }
  else if eventType ∈ ["tool.invocation.admitted", "TOOL_PENDING", "tool.execution.started", "TOOL_STARTED"] then
    (callId? event).elim state fun callId =>
      { state with pendingTools := replaceRow Prod.fst (callId, event) state.pendingTools }
  else if eventType ∈ ["tool.result.committed", "TOOL_COMPLETED", "TOOL_FAILED", "tool.execution.settled"] then
    (callId? event).elim state fun callId =>
      { state with pendingTools := deleteRow Prod.fst callId state.pendingTools }
  else if eventType ∈ ["PLAN_UPDATED", "plan.revised", "plan.created"] then
    (list? (event.get "steps")).elim state fun steps => { state with plan := steps.filterMap obj? }
  else if eventType = "agent.inbox.inserted" then
    { state with queuedGuidance := state.queuedGuidance ++ [guidanceItem event] }
  else if eventType ∈ ["agent.inbox.removed", "agent.inbox.claimed"] then
    { state with
      queuedGuidance := state.queuedGuidance.filter fun item =>
        !same (item.get "item_id") (event.get "queue_item_id") }
  else if eventType.startsWith "approval." then
    (str? (event.get "approval_id")).elim state fun approvalId =>
      { state with approvals := replaceRow Prod.fst (approvalId, event) state.approvals }
  else state

def appendActivity (record : Value) (state : SessionProjection) : SessionProjection :=
  match record with
  | .obj activity => { state with activities := state.activities ++ [activity] }
  | _ => state

def dispatch (event : Dict) (state : SessionProjection) : Except StoreError SessionProjection :=
  let eventType := str host (event.getOr "event_type" (.str ""))
  match terminalStatus? eventType with
  | some defaultStatus => endRun host defaultStatus event state
  | none => .ok (handle host eventType event state)

def number (seq : ℤ) (state : SessionProjection) : SessionProjection :=
  if seq ≠ 0 then { state with sessionSeq := seq } else state

/-- An event whose number is not above the last one was applied before. -/
def applyEvent (state : SessionProjection) (event : Dict) : Except StoreError SessionProjection := do
  let seq ← seqOf host event state.sessionSeq
  if seq ≠ 0 ∧ seq ≤ state.sessionSeq then return state
  let state ← dispatch host event (number seq state)
  return appendActivity (event.get "activity_record") state

def applyAll (state : SessionProjection) (events : List Dict) : Except StoreError SessionProjection :=
  events.foldlM (applyEvent host) state

def rebuild (sessionId : String) (events : List Dict) : Except StoreError SessionProjection :=
  applyAll host { sessionId := sessionId } events

def activityLimit : ℕ := 500

def recent (activities : List Dict) : List Dict := activities.drop (activities.length - activityLimit)

def listValue (items : List Dict) : Value := .arr (items.map .obj)

def tableValue (table : List (String × Dict)) : Value := .obj (table.map fun row => (row.1, .obj row.2))

def SessionProjection.toDict (state : SessionProjection) : Dict :=
  [("session_id", .str state.sessionId), ("session_seq", .int state.sessionSeq), ("run_status", .str state.runStatus),
    ("active_turn", state.activeTurn.elim .null .int), ("active_step", state.activeStep.elim .null .int),
    ("active_attempt_id", state.activeAttemptId.elim .null .str), ("assistant_content", .str state.assistantContent),
    ("activities", listValue (recent state.activities)), ("plan", listValue state.plan),
    ("pending_tools", tableValue state.pendingTools), ("approvals", tableValue state.approvals),
    ("queued_guidance", listValue state.queuedGuidance)]

def field {τ : Type} (value : Dict) (name : String) (read : Value → Option τ) (default : τ) : Option τ :=
  match value.get? name with
  | none => some default
  | some v => read v

def integer? : Value → Option ℤ
  | .int n => some n
  | _ => none

def optional? {τ : Type} (read : Value → Option τ) : Value → Option (Option τ)
  | .null => some none
  | v => (read v).map some

def items? (v : Value) : Option (List Dict) := (list? v).bind fun items => items.mapM obj?

def table? (v : Value) : Option (List (String × Dict)) :=
  (obj? v).bind fun entries => entries.mapM fun entry => (obj? entry.2).map fun row => (entry.1, row)

def fromDict (value : Dict) : Option SessionProjection := do
  let sessionId ← (value.get? "session_id").bind text?
  let sessionSeq ← field value "session_seq" integer? 0
  let runStatus ← field value "run_status" text? "idle"
  let activeTurn ← field value "active_turn" (optional? integer?) none
  let activeStep ← field value "active_step" (optional? integer?) none
  let activeAttemptId ← field value "active_attempt_id" (optional? text?) none
  let assistantContent ← field value "assistant_content" text? ""
  let activities ← field value "activities" items? []
  let plan ← field value "plan" items? []
  let pendingTools ← field value "pending_tools" table? []
  let approvals ← field value "approvals" table? []
  let queuedGuidance ← field value "queued_guidance" items? []
  return ⟨sessionId, sessionSeq, runStatus, activeTurn, activeStep, activeAttemptId, assistantContent, activities,
    plan, pendingTools, approvals, queuedGuidance⟩

def project (sessionId : String) (events : List Dict) : Except StoreError Dict :=
  (rebuild host sessionId events).map SessionProjection.toDict

/-- The view after `later`, from a checkpoint taken after `earlier`. -/
def projectFrom (sessionId : String) (earlier later : List Dict) : Except StoreError Dict := do
  let checkpoint ← project host sessionId earlier
  match fromDict checkpoint with
  | none => .error (.raised "TypeError")
  | some state => (applyAll host state later).map SessionProjection.toDict

lemma items?_listValue (items : List Dict) : items? (listValue items) = some items := by
  change (items.map Value.obj).mapM obj? = some items
  induction items with
  | nil => rfl
  | cons item items ih =>
    rw [List.map_cons, List.mapM_cons, ih]
    rfl

lemma table?_tableValue (table : List (String × Dict)) : table? (tableValue table) = some table := by
  change (table.map fun row => (row.1, Value.obj row.2)).mapM
    (fun entry : String × Value => (obj? entry.2).map fun row => (entry.1, row)) = some table
  induction table with
  | nil => rfl
  | cons row table ih =>
    rw [List.map_cons, List.mapM_cons, ih]
    rfl

lemma optional?_integer (n : Option ℤ) : optional? integer? (n.elim .null .int) = some n := by
  cases n <;> rfl

lemma optional?_text (s : Option String) : optional? text? (s.elim .null .str) = some s := by
  cases s <;> rfl

lemma fromDict_toDict (state : SessionProjection) :
    fromDict state.toDict = some { state with activities := recent state.activities } := by
  have hactivities := items?_listValue (recent state.activities)
  have hplan := items?_listValue state.plan
  have hpending := table?_tableValue state.pendingTools
  have happrovals := table?_tableValue state.approvals
  have hguidance := items?_listValue state.queuedGuidance
  have hturn := optional?_integer state.activeTurn
  have hstep := optional?_integer state.activeStep
  have hattempt := optional?_text state.activeAttemptId
  simp [fromDict, field, SessionProjection.toDict, Dict.get?, lookup, text?, integer?, hactivities, hplan, hpending,
    happrovals, hguidance, hturn, hstep, hattempt]

/-- The view `s` lacks some of the activities of `t`, but none of its last ones. -/
def Cut (s t : SessionProjection) : Prop :=
  ∃ older, t = { s with activities := older ++ s.activities } ∧ (older = [] ∨ activityLimit ≤ s.activities.length)

lemma recent_append {older activities : List Dict} (h : older = [] ∨ activityLimit ≤ activities.length) :
    recent (older ++ activities) = recent activities := by
  rcases h with rfl | h
  · rfl
  · have hcut : (older ++ activities).length - activityLimit =
        older.length + (activities.length - activityLimit) := by
      rw [List.length_append]
      omega
    unfold recent
    rw [hcut, List.drop_append, List.drop_eq_nil_of_le (by omega), List.nil_append, Nat.add_sub_cancel_left]

lemma cut_toDict {s t : SessionProjection} (h : Cut s t) : s.toDict = t.toDict := by
  obtain ⟨older, rfl, hlast⟩ := h
  unfold SessionProjection.toDict
  rw [recent_append hlast]

lemma cut_reload (t : SessionProjection) : Cut { t with activities := recent t.activities } t := by
  refine ⟨t.activities.take (t.activities.length - activityLimit), ?_, ?_⟩
  · rw [recent, List.take_append_drop]
  · by_cases hlen : t.activities.length ≤ activityLimit
    · left
      rw [Nat.sub_eq_zero_of_le hlen, List.take_zero]
    · right
      rw [recent, List.length_drop]
      omega

/-- A change of the view that neither reads nor writes the activities. -/
def Apart (f : SessionProjection → SessionProjection) : Prop :=
  ∀ s activities, f { s with activities := activities } = { f s with activities := activities } ∧
    (f s).activities = s.activities

lemma apart_ite {c : Prop} [Decidable c] {f g : SessionProjection → SessionProjection} (hf : Apart f)
    (hg : Apart g) : Apart fun s => if c then f s else g s := by
  intro s activities
  by_cases hc : c
  · simp only [hc, if_true]
    exact hf s activities
  · simp only [hc, if_false]
    exact hg s activities

lemma apart_elim {τ : Type} (a : Option τ) {f : τ → SessionProjection → SessionProjection}
    (hf : ∀ x, Apart (f x)) : Apart fun s => a.elim s fun x => f x s := by
  cases a with
  | none => exact fun _ _ => ⟨rfl, rfl⟩
  | some x => exact hf x

lemma apart_number (seq : ℤ) : Apart (number seq) := by
  refine apart_ite ?_ ?_ <;> exact fun _ _ => ⟨rfl, rfl⟩

lemma apart_handle (eventType : String) (event : Dict) : Apart (handle host eventType event) := by
  refine apart_ite (fun _ _ => ⟨rfl, rfl⟩) ?_
  refine apart_ite (fun _ _ => ⟨rfl, rfl⟩) ?_
  refine apart_ite (fun _ _ => ⟨rfl, rfl⟩) ?_
  refine apart_ite (fun _ _ => ⟨rfl, rfl⟩) ?_
  refine apart_ite (apart_elim _ (by exact fun _ _ _ => ⟨rfl, rfl⟩)) ?_
  refine apart_ite (apart_elim _ (by exact fun _ _ _ => ⟨rfl, rfl⟩)) ?_
  refine apart_ite (apart_elim _ (by exact fun _ _ _ => ⟨rfl, rfl⟩)) ?_
  refine apart_ite (fun _ _ => ⟨rfl, rfl⟩) ?_
  refine apart_ite (fun _ _ => ⟨rfl, rfl⟩) ?_
  refine apart_ite (apart_elim _ (by exact fun _ _ _ => ⟨rfl, rfl⟩)) ?_
  exact fun _ _ => ⟨rfl, rfl⟩

lemma cut_apart {f : SessionProjection → SessionProjection} (hf : Apart f) {s t : SessionProjection} (h : Cut s t) :
    Cut (f s) (f t) := by
  obtain ⟨older, rfl, hlast⟩ := h
  refine ⟨older, ?_, ?_⟩
  · rw [(hf s (older ++ s.activities)).1, (hf s s.activities).2]
  · rwa [(hf s s.activities).2]

lemma length_of_mapM {α β ε : Type} {f : α → Except ε β} {xs : List α} {ys : List β}
    (h : xs.mapM f = .ok ys) : ys.length = xs.length := by
  induction xs generalizing ys with
  | nil =>
    cases h
    rfl
  | cons x xs ih =>
    rw [List.mapM_cons] at h
    obtain ⟨y, -, h⟩ := ok_of_bind h
    obtain ⟨rest, hrest, h⟩ := ok_of_bind h
    cases h
    rw [List.length_cons, List.length_cons, ih hrest]

lemma cut_endRun {s t t' : SessionProjection} (h : Cut s t) {defaultStatus : String} {event : Dict}
    (ht : endRun host defaultStatus event t = .ok t') :
    ∃ s', endRun host defaultStatus event s = .ok s' ∧ Cut s' t' := by
  obtain ⟨older, rfl, hlast⟩ := h
  unfold endRun at ht ⊢
  dsimp only at ht ⊢
  obtain ⟨activities, hmap, ht⟩ := ok_of_bind ht
  rw [List.mapM_append] at hmap
  obtain ⟨before, hbefore, hmap⟩ := ok_of_bind hmap
  obtain ⟨after, hafter, hmap⟩ := ok_of_bind hmap
  obtain rfl : before ++ after = activities := Except.ok.inj hmap
  rw [hafter]
  refine ⟨_, rfl, before, (Except.ok.inj ht).symm, ?_⟩
  rcases hlast with rfl | hlast
  · exact .inl (List.eq_nil_of_length_eq_zero (length_of_mapM hbefore))
  · right
    change activityLimit ≤ after.length
    rwa [length_of_mapM hafter]

lemma cut_appendActivity {s t : SessionProjection} (h : Cut s t) (record : Value) :
    Cut (appendActivity record s) (appendActivity record t) := by
  obtain ⟨older, rfl, hlast⟩ := h
  cases record with
  | obj activity =>
    refine ⟨older, ?_, ?_⟩
    · simp only [appendActivity, List.append_assoc]
    · refine hlast.imp_right fun hlen => ?_
      change activityLimit ≤ (s.activities ++ [activity]).length
      rw [List.length_append]
      omega
  | _ => exact ⟨older, rfl, hlast⟩

lemma cut_dispatch {s t t' : SessionProjection} (h : Cut s t) {event : Dict} (ht : dispatch host event t = .ok t') :
    ∃ s', dispatch host event s = .ok s' ∧ Cut s' t' := by
  unfold dispatch at ht ⊢
  dsimp only at ht ⊢
  split at ht
  · exact cut_endRun host h ht
  · cases ht
    exact ⟨_, rfl, cut_apart (apart_handle host _ event) h⟩

lemma cut_applyEvent {s t t' : SessionProjection} (h : Cut s t) {event : Dict}
    (ht : applyEvent host t event = .ok t') : ∃ s', applyEvent host s event = .ok s' ∧ Cut s' t' := by
  have hseq : t.sessionSeq = s.sessionSeq := by
    obtain ⟨older, rfl, -⟩ := h
    rfl
  unfold applyEvent at ht ⊢
  obtain ⟨seq, hs, ht⟩ := ok_of_bind ht
  rw [hseq] at hs ht
  rw [hs]
  change ∃ s', (if seq ≠ 0 ∧ seq ≤ s.sessionSeq then _ else _) = Except.ok s' ∧ _
  by_cases hold : seq ≠ 0 ∧ seq ≤ s.sessionSeq
  · rw [if_pos hold] at ht ⊢
    cases ht
    exact ⟨s, rfl, h⟩
  · rw [if_neg hold] at ht ⊢
    obtain ⟨t₁, ht₁, ht⟩ := ok_of_bind ht
    cases ht
    obtain ⟨s₁, hs₁, hcut⟩ := cut_dispatch host (cut_apart (apart_number seq) h) ht₁
    rw [hs₁]
    exact ⟨_, rfl, cut_appendActivity hcut _⟩

lemma cut_applyAll {events : List Dict} {s t t' : SessionProjection} (h : Cut s t)
    (ht : applyAll host t events = .ok t') : ∃ s', applyAll host s events = .ok s' ∧ Cut s' t' := by
  induction events generalizing s t with
  | nil =>
    cases ht
    exact ⟨s, rfl, h⟩
  | cons event events ih =>
    unfold applyAll at ht ⊢
    rw [List.foldlM_cons] at ht ⊢
    obtain ⟨t₁, ht₁, ht⟩ := ok_of_bind ht
    obtain ⟨s₁, hs₁, hcut⟩ := cut_applyEvent host h ht₁
    obtain ⟨s', hs', hcut'⟩ := ih hcut ht
    rw [hs₁]
    exact ⟨s', hs', hcut'⟩

def Sequenced (event : Dict) (n : ℤ) : Prop :=
  let number := either (event.get "session_seq") (event.get "sequence")
  truthy number = true ∧ int host number = .ok n ∧ n ≠ 0

lemma seqOf_sequenced {event : Dict} {n : ℤ} (h : Sequenced host event n) (sessionSeq : ℤ) :
    seqOf host event sessionSeq = .ok n := by
  obtain ⟨htruthy, hint, -⟩ := h
  unfold either at htruthy hint
  unfold seqOf either
  by_cases hs : truthy (event.get "session_seq") = true
  · rw [if_pos hs] at hint ⊢
    exact hint
  · rw [if_neg hs] at htruthy hint ⊢
    rw [if_pos htruthy]
    exact hint

lemma sessionSeq_ite {c : Prop} [Decidable c] {s t : SessionProjection} {n : ℤ} (hs : s.sessionSeq = n)
    (ht : t.sessionSeq = n) : (if c then s else t).sessionSeq = n := by
  split
  · exact hs
  · exact ht

lemma sessionSeq_elim {τ : Type} (a : Option τ) {s : SessionProjection} {f : τ → SessionProjection}
    (h : ∀ x, (f x).sessionSeq = s.sessionSeq) : (a.elim s f).sessionSeq = s.sessionSeq := by
  cases a with
  | none => rfl
  | some x => exact h x

lemma sessionSeq_handle (eventType : String) (event : Dict) (state : SessionProjection) :
    (handle host eventType event state).sessionSeq = state.sessionSeq := by
  refine sessionSeq_ite rfl (sessionSeq_ite rfl (sessionSeq_ite rfl (sessionSeq_ite rfl ?_)))
  refine sessionSeq_ite (sessionSeq_elim _ fun _ => rfl) (sessionSeq_ite (sessionSeq_elim _ fun _ => rfl) ?_)
  refine sessionSeq_ite (sessionSeq_elim _ fun _ => rfl) (sessionSeq_ite rfl (sessionSeq_ite rfl ?_))
  exact sessionSeq_ite (sessionSeq_elim _ fun _ => rfl) rfl

lemma sessionSeq_dispatch {event : Dict} {s s' : SessionProjection} (h : dispatch host event s = .ok s') :
    s'.sessionSeq = s.sessionSeq := by
  unfold dispatch at h
  dsimp only at h
  split at h
  · unfold endRun at h
    obtain ⟨activities, -, h⟩ := ok_of_bind h
    cases h
    rfl
  · cases h
    exact sessionSeq_handle host _ event s

lemma sessionSeq_appendActivity (record : Value) (state : SessionProjection) :
    (appendActivity record state).sessionSeq = state.sessionSeq := by
  cases record <;> rfl

lemma sessionSeq_applyEvent {event : Dict} {s s' : SessionProjection} (h : applyEvent host s event = .ok s') :
    s.sessionSeq ≤ s'.sessionSeq ∧ ∀ n, Sequenced host event n → n ≤ s'.sessionSeq := by
  unfold applyEvent at h
  obtain ⟨seq, hseq, h⟩ := ok_of_bind h
  have hn : ∀ n, Sequenced host event n → n = seq ∧ n ≠ 0 := by
    intro n hn
    rw [seqOf_sequenced host hn] at hseq
    exact ⟨Except.ok.inj hseq, hn.2.2⟩
  split at h
  · rename_i hold
    cases h
    refine ⟨le_rfl, fun n hs => ?_⟩
    rw [(hn n hs).1]
    exact hold.2
  · rename_i hnew
    obtain ⟨mid, hmid, h⟩ := ok_of_bind h
    cases h
    rw [sessionSeq_appendActivity, sessionSeq_dispatch host hmid]
    by_cases hz : seq = 0
    · refine ⟨?_, fun n hs => ?_⟩
      · rw [hz]
        exact le_rfl
      · exact absurd ((hn n hs).1.trans hz) (hn n hs).2
    · have hlt : s.sessionSeq < seq := not_le.1 fun hle => hnew ⟨hz, hle⟩
      have hset : (number seq s).sessionSeq = seq := by
        unfold number
        rw [if_pos hz]
      rw [hset]
      exact ⟨hlt.le, fun n hs => (hn n hs).1.le⟩

lemma sessionSeq_applyAll {events : List Dict} {s s' : SessionProjection} (h : applyAll host s events = .ok s') :
    s.sessionSeq ≤ s'.sessionSeq ∧ ∀ event ∈ events, ∀ n, Sequenced host event n → n ≤ s'.sessionSeq := by
  induction events generalizing s with
  | nil =>
    cases h
    exact ⟨le_rfl, nofun⟩
  | cons event events ih =>
    unfold applyAll at h
    rw [List.foldlM_cons] at h
    obtain ⟨mid, hmid, h⟩ := ok_of_bind h
    obtain ⟨hle, hfirst⟩ := sessionSeq_applyEvent host hmid
    obtain ⟨hle', hrest⟩ := ih h
    refine ⟨hle.trans hle', fun e he n hn => ?_⟩
    rcases List.mem_cons.1 he with rfl | he
    · exact (hfirst n hn).trans hle'
    · exact hrest e he n hn

lemma applyEvent_old {event : Dict} {n : ℤ} (hn : Sequenced host event n) {s : SessionProjection}
    (hle : n ≤ s.sessionSeq) : applyEvent host s event = .ok s := by
  unfold applyEvent
  rw [seqOf_sequenced host hn]
  change (if n ≠ 0 ∧ n ≤ s.sessionSeq then pure s else _) = Except.ok s
  rw [if_pos ⟨hn.2.2, hle⟩]
  rfl

lemma applyAll_redelivered {again : List Dict} {s : SessionProjection}
    (h : ∀ event ∈ again, ∃ n, Sequenced host event n ∧ n ≤ s.sessionSeq) : applyAll host s again = .ok s := by
  induction again with
  | nil => rfl
  | cons event again ih =>
    obtain ⟨n, hn, hle⟩ := h event (List.mem_cons_self ..)
    unfold applyAll at ih ⊢
    rw [List.foldlM_cons, applyEvent_old host hn hle]
    exact ih fun e he => h e (List.mem_cons_of_mem _ he)

lemma applyAll_append {earlier later : List Dict} {s s' : SessionProjection}
    (h : applyAll host s (earlier ++ later) = .ok s') :
    ∃ mid, applyAll host s earlier = .ok mid ∧ applyAll host mid later = .ok s' := by
  unfold applyAll at h ⊢
  rw [List.foldlM_append] at h
  exact ok_of_bind h

/-- A view resumed from a checkpoint is the view of the whole journal, and stays what it
    is under events it has applied. -/
theorem checkpointed_view (sessionId : String) (earlier later : List Dict) :
    (∀ view, project host sessionId (earlier ++ later) = .ok view →
      projectFrom host sessionId earlier later = .ok view) ∧
    ∀ state, rebuild host sessionId (earlier ++ later) = .ok state → ∀ again,
      (∀ event ∈ again, event ∈ earlier ++ later ∧ ∃ n, Sequenced host event n) →
        applyAll host state again = .ok state := by
  refine ⟨fun view h => ?_, fun state h again hagain => ?_⟩
  · unfold project at h
    rcases hfull : rebuild host sessionId (earlier ++ later) with error | full
    · rw [hfull] at h
      cases h
    · rw [hfull] at h
      cases h
      obtain ⟨mid, hmid, hlater⟩ := applyAll_append host hfull
      obtain ⟨resumed, hresumed, hcut⟩ := cut_applyAll host (cut_reload mid) hlater
      have hcheckpoint : project host sessionId earlier = .ok mid.toDict := by
        unfold project rebuild
        rw [hmid]
        rfl
      unfold projectFrom
      rw [hcheckpoint]
      change (match fromDict mid.toDict with
        | none => _
        | some state => _) = _
      rw [fromDict_toDict]
      change (applyAll host _ later).map SessionProjection.toDict = _
      rw [hresumed, ← cut_toDict hcut]
      rfl
  · refine applyAll_redelivered host fun event he => ?_
    obtain ⟨hmem, n, hn⟩ := hagain event he
    exact ⟨n, hn, (sessionSeq_applyAll host h).2 event hmem n hn⟩

end PromptForge.Projection
