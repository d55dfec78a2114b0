import PromptForge.Operations

namespace PromptForge.Operations
open Runs Tables

variable {fingerprint : Payload → String} {run : Run}

def Execution.callId (x : Execution) : String := x.startEvent.call

def Execution.kind (x : Execution) : String := x.startEvent.kind

def Entry.id (run : Run) (b : Entry) : String := operationId run b.execution.callId

def Entry.row (fingerprint : Payload → String) (run : Run) (b : Entry) : Operation :=
  ⟨b.id run, run.runId, b.execution.kind, fingerprint ⟨b.execution.callId, b.execution.kind⟩, b.status,
    ⟨b.execution.callId, b.execution.kind⟩⟩

def AgreesWith (fingerprint : Payload → String) (run : Run) (ledger : List Entry) (rows : List Operation) : Prop :=
  ∀ b ∈ ledger, lookup Operation.operationId rows (b.id run) = some (b.row fingerprint run)

lemma mem_modify {ledger : List Entry} {n : ℕ} {f : Entry → Entry} {b : Entry} (h : b ∈ ledger.modify n f) :
    ∃ m c, ledger[m]? = some c ∧ b = if n = m then f c else c := by
  obtain ⟨m, hm⟩ := List.mem_iff_getElem?.1 h
  rw [List.getElem?_modify] at hm
  obtain ⟨c, hc, rfl⟩ := Option.map_eq_some_iff.1 hm
  exact ⟨m, c, hc, rfl⟩

lemma map_id_modify (ledger : List Entry) (n : ℕ) {f : Entry → Entry} (hf : ∀ b, (f b).execution = b.execution) :
    (ledger.modify n f).map (Entry.id run) = ledger.map (Entry.id run) := by
  apply List.ext_getElem?
  intro m
  rw [List.getElem?_map, List.getElem?_map, List.getElem?_modify]
  cases ledger[m]? with
  | none => rfl
  | some b =>
    change some ((if n = m then f b else b).id run) = some (b.id run)
    split
    · rw [Entry.id, hf]
      rfl
    · rfl

lemma agreesWith_modify {ledger : List Entry} {rows rows' : List Operation} {n : ℕ} {b : Entry}
    {f : Entry → Entry} (hf : ∀ b, (f b).execution = b.execution) (hown : (ledger.map (Entry.id run)).Nodup)
    (h : AgreesWith fingerprint run ledger rows) (hb : ledger[n]? = some b)
    (hrow : lookup Operation.operationId rows' (b.id run) = some ((f b).row fingerprint run))
    (hrest : ∀ k, k ≠ b.id run → lookup Operation.operationId rows' k = lookup Operation.operationId rows k) :
    AgreesWith fingerprint run (ledger.modify n f) rows' := by
  intro b' hb'
  obtain ⟨m, c, hc, rfl⟩ := mem_modify hb'
  split
  · subst m
    obtain rfl : b = c := Option.some.inj (hb.symm.trans hc)
    rw [Entry.id, hf]
    exact hrow
  · have hne : c.id run ≠ b.id run := by
      intro heq
      refine ‹¬ n = m› ?_
      have hlt : n < (ledger.map (Entry.id run)).length := by
        rw [List.length_map]
        exact (List.getElem?_eq_some_iff.1 hb).1
      apply (List.getElem?_inj hlt hown).1
      rw [List.getElem?_map, List.getElem?_map, hb, hc]
      exact congrArg some heq.symm
    rw [hrest _ hne]
    exact h c (List.mem_of_getElem? hc)

lemma folded_settled : ∀ name ∈ settledNames, Texts.casefold name = name := by decide +kernel

lemma not_started_of_settled : ∀ name ∈ settledNames, name ∉ startNames ∧ name ≠ "tool_outcome_unknown" ∧
    name ∈ passingNames := by decide

def Event.verdict (e : Event) : OperationStatus :=
  if e.status = "failed" ∨ e.foldedType ∈ ["tool_failed", "build_failed"] then .failed else .completed

structure Settles (rows rows' : List Operation) (row : Operation) (status : OperationStatus) : Prop where
  same : lookup Operation.operationId rows' row.operationId =
    some { row with status := if row.status.settled then row.status else status }
  rest : ∀ k, k ≠ row.operationId → lookup Operation.operationId rows' k = lookup Operation.operationId rows k

lemma settles_of_settled {rows : List Operation} {row : Operation} {status : OperationStatus}
    (hrow : lookup Operation.operationId rows row.operationId = some row) (h : row.status.settled = true) :
    Settles rows rows row status := by
  refine ⟨?_, fun _ _ => rfl⟩
  rw [hrow, if_pos h]

lemma settles_updateRow {rows : List Operation} {row : Operation} {status : OperationStatus}
    (hrow : lookup Operation.operationId rows row.operationId = some row)
    (h : row.status.settled = true → row.status = status) :
    Settles rows (updateRow Operation.operationId { row with status := status } rows) row status := by
  constructor
  · have hstatus : (if row.status.settled then row.status else status) = status := by
      split
      · exact h ‹_›
      · rfl
    rw [lookup_updateRow, hrow, hstatus]
    simp
  · intro k hk
    rw [lookup_updateRow]
    cases hlookup : lookup Operation.operationId rows k with
    | none => rfl
    | some other =>
      have hne : other.operationId ≠ row.operationId := by
        rw [lookup_key hlookup]
        exact hk
      simp [hne]

lemma lookup_filter {rows : List Operation} {p : Operation → Bool} {id : String} {row : Operation}
    (hrow : lookup Operation.operationId rows id = some row) (hp : p row = true) :
    lookup Operation.operationId (rows.filter p) id = some row := by
  induction rows with
  | nil => cases hrow
  | cons r rows ih =>
    rw [lookup_cons] at hrow
    by_cases hr : r.operationId = id
    · obtain rfl : r = row := by simpa [hr] using hrow
      rw [List.filter_cons_of_pos hp, lookup_cons, if_pos hr]
    · rw [if_neg hr] at hrow
      cases hpr : p r with
      | true => rw [List.filter_cons_of_pos hpr, lookup_cons, if_neg hr, ih hrow]
      | false => rw [List.filter_cons_of_neg (by simp [hpr]), ih hrow]

structure RowOf (fingerprint : Payload → String) (run : Run) (rows : List Operation) (callId : String)
    (row : Operation) : Prop where
  lookup : lookup Operation.operationId rows row.operationId = some row
  operationId : row.operationId = operationId run callId
  runId : row.runId = run.runId
  fingerprint : row.fingerprint = fingerprint row.payload
  callId : callId ≠ ""

lemma operation_open {rows : List Operation} {row : Operation} {runId kind : String} {status : OperationStatus}
    {payload : Payload} (hrow : lookup Operation.operationId rows row.operationId = some row)
    (hpayload : row.fingerprint = fingerprint payload) (h : ¬ (row.status.settled = true ∧ row.status ≠ status)) :
    operation fingerprint rows row.operationId runId kind status payload =
      .ok (updateRow Operation.operationId { row with status := status } rows) := by
  unfold operation
  simp only [hrow]
  rw [if_neg (not_not.2 hpayload), if_neg h]

lemma book_settles {s : State} {e : Event} {row : Operation} (now : ℚ)
    (hrow : RowOf fingerprint run s.rows e.call row) (hname : e.foldedType ∈ settledNames) :
    ∃ rows, book fingerprint run now s e = (none, { s with rows := rows }) ∧ Settles s.rows rows row e.verdict := by
  obtain ⟨hstart, hunknown, -⟩ := not_started_of_settled _ hname
  have hfind := @lookup_filter s.rows (fun r => decide (r.runId = run.runId)) _ row hrow.lookup
    (decide_eq_true hrow.runId)
  rw [hrow.operationId] at hfind
  unfold book
  simp only [hrow.callId, hstart, hunknown, hname, if_true, if_false, hfind]
  cases hopen : row.status.settled with
  | true => exact ⟨s.rows, rfl, settles_of_settled hrow.lookup hopen⟩
  | false =>
    have hupdate := @operation_open fingerprint s.rows row run.runId row.kind e.verdict row.payload hrow.lookup
      hrow.fingerprint (by simp [hopen])
    refine ⟨_, ?_, settles_updateRow hrow.lookup (by simp [hopen])⟩
    simp only [Bool.false_eq_true, if_false]
    rw [← hrow.operationId]
    exact congrArg (stored s) hupdate

lemma runtimeEvent_settles {s : State} {e : Event} {row : Operation} (now : ℚ)
    (hrow : RowOf fingerprint run s.rows e.call row) (hname : e.foldedType ∈ settledNames)
    (hstopped : s.cancelled = true → s.terminal = true → row.status.settled = true) :
    ∃ rows, runtimeEvent fingerprint run now s e = (none, { s with rows := rows }) ∧
      Settles s.rows rows row e.verdict := by
  unfold runtimeEvent
  by_cases hover : s.cancelled = true ∧ s.terminal = true
  · exact ⟨s.rows, if_pos hover, settles_of_settled hrow.lookup (hstopped hover.1 hover.2)⟩
  · have hpass := (not_started_of_settled _ hname).2.2
    rw [if_neg hover, if_neg fun h => h.2 hpass]
    exact book_settles now hrow hname

def Reports (callId : String) (status : OperationStatus) (es : List Event) : Prop :=
  ∀ e ∈ es, e.call = callId ∧ e.foldedType ∈ settledNames ∧ e.verdict = status

lemma Settles.trans {rows rows' rows'' : List Operation} {row : Operation} {status status' : OperationStatus}
    (h : Settles rows rows' row status)
    (h' : Settles rows' rows'' { row with status := if row.status.settled then row.status else status } status')
    (hstatus : status.settled = true) : Settles rows rows'' row status := by
  have hsettled : (if row.status.settled = true then row.status else status).settled = true := by
    split
    · assumption
    · exact hstatus
  refine ⟨?_, fun k hk => (h'.rest k hk).trans (h.rest k hk)⟩
  have hrow := h'.same
  rw [if_pos hsettled] at hrow
  exact hrow

lemma runtimeEvents_settled {s : State} {es : List Event} {callId : String} {row : Operation}
    {status : OperationStatus} (now : ℚ) (hrow : RowOf fingerprint run s.rows callId row)
    (hes : Reports callId status es) (hsettled : row.status.settled = true) :
    ∃ rows, runtimeEvents fingerprint run now s es = (none, { s with rows := rows }) ∧
      Settles s.rows rows row status := by
  induction es generalizing s with
  | nil => exact ⟨s.rows, rfl, settles_of_settled hrow.lookup hsettled⟩
  | cons e es ih =>
    obtain ⟨hcall, hname, hverdict⟩ := hes e (List.mem_cons_self ..)
    obtain ⟨rows, hrows, hsettles⟩ := runtimeEvent_settles now (hcall.symm ▸ hrow) hname fun _ _ => hsettled
    have hsame : lookup Operation.operationId rows row.operationId = some row := by
      have h := hsettles.same
      rwa [if_pos hsettled] at h
    have hrow' : RowOf fingerprint run rows callId row := { hrow with lookup := hsame }
    obtain ⟨rows', hrows', hsettles'⟩ := @ih { s with rows := rows } hrow' fun e he => hes e (List.mem_cons_of_mem _ he)
    refine ⟨rows', ?_, ?_, fun k hk => (hsettles'.rest k hk).trans (hsettles.rest k hk)⟩
    · rw [runtimeEvents, hrows]
      exact hrows'
    · exact hsettles'.same

lemma runtimeEvents_settles {s : State} {e : Event} {es : List Event} {callId : String} {row : Operation}
    {status : OperationStatus} (now : ℚ) (hrow : RowOf fingerprint run s.rows callId row)
    (hes : Reports callId status (e :: es)) (hstatus : status.settled = true)
    (hstopped : s.cancelled = true → s.terminal = true → row.status.settled = true) :
    ∃ rows, runtimeEvents fingerprint run now s (e :: es) = (none, { s with rows := rows }) ∧
      Settles s.rows rows row status := by
  obtain ⟨hcall, hname, rfl⟩ := hes e (List.mem_cons_self ..)
  obtain ⟨rows, hrows, hsettles⟩ := runtimeEvent_settles now (hcall.symm ▸ hrow) hname hstopped
  have hsettled : (if row.status.settled = true then row.status else e.verdict).settled = true := by
    split
    · assumption
    · exact hstatus
  have hrow' : RowOf fingerprint run rows callId
      { row with status := if row.status.settled then row.status else e.verdict } :=
    { hrow with lookup := hsettles.same }
  obtain ⟨rows', hrows', hsettles'⟩ := @runtimeEvents_settled fingerprint run { s with rows := rows } es callId _ _ now
    hrow' (fun e' he => hes e' (List.mem_cons_of_mem _ he)) hsettled
  refine ⟨rows', ?_, hsettles.trans hsettles' hstatus⟩
  rw [runtimeEvents, hrows]
  exact hrows'

def Execution.event (x : Execution) (name status : String) : Event :=
  { x.startEvent with eventType := name, status := status }

lemma reports_event (x : Execution) {name status : String} {verdict : OperationStatus} (hname : name ∈ settledNames)
    (hverdict : (if status = "failed" ∨ name ∈ ["tool_failed", "build_failed"] then OperationStatus.failed
      else .completed) = verdict) :
    (x.event name status).call = x.callId ∧ (x.event name status).foldedType ∈ settledNames ∧
      (x.event name status).verdict = verdict := by
  have hfolded : (x.event name status).foldedType = name := folded_settled name hname
  refine ⟨rfl, ?_, ?_⟩
  · rw [hfolded]
    exact hname
  · unfold Event.verdict
    rw [hfolded]
    exact hverdict

lemma finishEvents_overlay (failed : Bool) (callId tool : String) :
    (∀ e ∈ (Execution.call .overlay callId tool).finishEvents failed,
      ∃ name, name ∈ ["tool.execution.settled", "tool.result.committed"] ∧
        e = (Execution.call .overlay callId tool).event name (if failed then "failed" else "completed")) ∧
      (Execution.call .overlay callId tool).finishEvents failed ≠ [] := by
  change (∀ e ∈ (if tool ∈ writeTools ∧ failed = false then [_] else []) ++ [_, _], _) ∧ _ ++ [_, _] ≠ []
  refine ⟨fun e he => ?_, by simp⟩
  rcases List.mem_append.1 he with he | he
  · split at he
    · exact ⟨_, List.mem_cons_self .., List.mem_singleton.1 he⟩
    · cases he
  · rcases List.mem_cons.1 he with he | he
    · exact ⟨_, List.mem_cons_self .., he⟩
    · exact ⟨_, List.mem_cons_of_mem _ (List.mem_cons_self ..), List.mem_singleton.1 he⟩

lemma reports_finish {x : Execution} (hx : x.silent = false) (failed : Bool) :
    Reports x.callId (if failed then .failed else .completed) (x.finishEvents failed) ∧
      x.finishEvents failed ≠ [] := by
  cases x with
  | call source callId tool =>
    cases source with
    | agent =>
      have hevents : (Execution.call .agent callId tool).finishEvents failed =
          [(Execution.call .agent callId tool).event (if failed then "tool_failed" else "tool_completed") ""] := by
        simp only [Execution.finishEvents, hx, Bool.false_eq_true, if_false]
        rfl
      rw [hevents]
      refine ⟨fun e he => ?_, by simp⟩
      rw [List.mem_singleton.1 he]
      cases failed <;> exact reports_event _ (by decide) (by decide)
    | overlay =>
      obtain ⟨hevents, hne⟩ := finishEvents_overlay failed callId tool
      refine ⟨fun e he => ?_, hne⟩
      obtain ⟨name, hname, rfl⟩ := hevents e he
      rcases List.mem_cons.1 hname with rfl | hname
      · cases failed <;> exact reports_event _ (by decide) (by decide)
      · rw [List.mem_singleton.1 hname]
        cases failed <;> exact reports_event _ (by decide) (by decide)
    | child =>
      refine ⟨fun e he => ?_, by simp [Execution.finishEvents, Execution.silent]⟩
      have he : e = (Execution.call .child callId tool).event (if failed then "tool_failed" else "tool_completed") "" :=
        List.mem_singleton.1 he
      rw [he]
      cases failed <;> exact reports_event _ (by decide) (by decide)
  | build enclosing buildId =>
    refine ⟨fun e he => ?_, by simp [Execution.finishEvents, Execution.silent]⟩
    have he : e = (Execution.build enclosing buildId).event (if failed then "build_failed" else "build_completed") "" :=
      List.mem_singleton.1 he
    rw [he]
    cases failed <;> exact reports_event _ (by decide) (by decide)

lemma reports_expire (callId tool : String) :
    Reports (Execution.call .agent callId tool).callId .failed
      ((Execution.call .agent callId tool).expireEvents true) := by
  intro e he
  rw [List.mem_singleton.1 he]
  exact reports_event (.call .agent callId tool) (by decide) (by decide)

lemma kind_of_type {e : Event} (hname : e.name = "")
    (htype : ¬ "build_".toList <+: (Texts.casefold e.eventType).toList) : e.kind = orText e.tool "tool" := by
  unfold Event.kind Event.foldedType
  rw [hname, if_neg htype]
  rfl

lemma kind_call (source : Source) (callId tool : String) :
    (Execution.call source callId tool).kind = orText tool "tool" := by
  cases source with
  | agent => exact kind_of_type rfl (by decide +kernel : ¬ "build_".toList <+: (Texts.casefold "tool_started").toList)
  | overlay =>
    exact kind_of_type rfl (by decide +kernel : ¬ "build_".toList <+: (Texts.casefold "tool.execution.started").toList)
  | child => exact kind_of_type rfl (by decide +kernel : ¬ "build_".toList <+: (Texts.casefold "tool_started").toList)

lemma callId_agent (callId tool : String) : (Execution.call .agent callId tool).callId = callId := by
  change orText callId (orText "" "") = callId
  unfold orText
  split
  · exact (‹callId = ""›).symm
  · rfl

lemma orText_of_ne {a : String} (h : a ≠ "") (b : String) : orText a b = a := if_neg h

def unknownEvent (callId tool : String) : Event :=
  { Event.bare "tool_outcome_unknown" with callId := callId, tool := tool, status := "failed" }

lemma folded_unknownEvent (callId tool : String) :
    (unknownEvent callId tool).foldedType = "tool_outcome_unknown" :=
  (by decide +kernel : Texts.casefold "tool_outcome_unknown" = "tool_outcome_unknown")

lemma kind_unknownEvent (callId tool : String) : (unknownEvent callId tool).kind = orText tool "tool" :=
  kind_of_type rfl (by decide +kernel : ¬ "build_".toList <+: (Texts.casefold "tool_outcome_unknown").toList)

lemma runtimeEvent_unknown {s : State} {callId tool : String} {row : Operation} (now : ℚ)
    (hrow : RowOf fingerprint run s.rows callId row) (hpayload : row.payload = ⟨callId, orText tool "tool"⟩)
    (hopen : row.status.settled = true → row.status = .unknown)
    (hstopped : s.cancelled = true → s.terminal = true → row.status.settled = true) :
    ∃ rows, runtimeEvent fingerprint run now s (unknownEvent callId tool) = (none, { s with rows := rows }) ∧
      Settles s.rows rows row .unknown := by
  have hcall : (unknownEvent callId tool).call = callId := orText_of_ne hrow.callId _
  unfold runtimeEvent
  rw [folded_unknownEvent]
  by_cases hover : s.cancelled = true ∧ s.terminal = true
  · exact ⟨s.rows, if_pos hover, settles_of_settled hrow.lookup (hstopped hover.1 hover.2)⟩
  · refine ⟨_, ?_, settles_updateRow hrow.lookup hopen⟩
    have hpass : "tool_outcome_unknown" ∈ passingNames := by decide
    have hstart : "tool_outcome_unknown" ∉ startNames := by decide
    rw [if_neg hover, if_neg fun h => h.2 hpass]
    unfold book
    simp only [hcall, hrow.callId, folded_unknownEvent, kind_unknownEvent, hstart, if_true, if_false]
    have hpayload' : row.fingerprint = fingerprint ⟨callId, orText tool "tool"⟩ := hpayload ▸ hrow.fingerprint
    have hallowed : ¬ (row.status.settled = true ∧ row.status ≠ .unknown) := fun h => h.2 (hopen h.1)
    have hupdate := @operation_open fingerprint s.rows row run.runId (orText tool "tool") .unknown _ hrow.lookup
      hpayload' hallowed
    rw [← hrow.operationId]
    exact congrArg (stored s) hupdate

lemma runtimeEvent_stale {s : State} {e : Event} (now : ℚ) (hname : e.foldedType ∈ settledNames)
    (hrows : ∀ row, lookup Operation.operationId (s.rows.filter fun r => decide (r.runId = run.runId))
      (operationId run e.call) = some row → row.status.settled = true) :
    runtimeEvent fingerprint run now s e = (none, s) := by
  obtain ⟨hstart, hunknown, -⟩ := not_started_of_settled _ hname
  unfold runtimeEvent
  split
  · rfl
  · split
    · rfl
    · unfold book
      simp only [hstart, hunknown, hname, if_true, if_false]
      split
      · rfl
      · cases hlookup : lookup Operation.operationId (s.rows.filter fun r => decide (r.runId = run.runId))
          (operationId run e.call) with
        | none => rfl
        | some row => simp only [hrows row hlookup, if_true]

def used (db : Jobs.Db) (jobId : String) : Option Numbers.Number :=
  (Jobs.job? db jobId).map fun value => value.consumed .toolCallsUsed

def oneMore (n : Numbers.Number) : Numbers.Number := n.add (.int 1)

def chargeRow (jobId operationId : String) : Jobs.JobRequest := ⟨jobId, "tool:" ++ operationId, "tool"⟩

def Charged (run : Run) (operationId : String) (db db' : Jobs.Db) : Prop :=
  ∀ jobId, run.jobId = some jobId →
    db'.requests = db.requests ++ [chargeRow jobId operationId] ∧ used db' jobId = (used db jobId).map oneMore

def Uncharged (run : Run) (operationId : String) (db : Jobs.Db) : Prop :=
  ∀ jobId, run.jobId = some jobId → jobId ≠ "" ∧ (∃ value, Jobs.job? db jobId = some value) ∧
    Jobs.request? db jobId ("tool:" ++ operationId) = none

lemma charge_fresh {id : String} {db : Jobs.Db} (now : ℚ) (h : Uncharged run id db) :
    charge run id now db = .error (.value "AGENT_JOB_BUDGET_EXHAUSTED") ∨
      ∃ db', charge run id now db = .ok db' ∧ Charged run id db db' := by
  unfold charge
  cases hjob : run.jobId with
  | none => exact .inr ⟨db, rfl, fun jobId h => absurd (hjob.symm.trans h) (by simp)⟩
  | some jobId =>
    obtain ⟨hne, ⟨value, hvalue⟩, hrequest⟩ := h jobId hjob
    simp only [hne, if_false, Jobs.chargeTool, hrequest, hvalue]
    split
    · exact .inl rfl
    · refine .inr ⟨_, rfl, fun jobId' h' => ?_⟩
      obtain rfl : jobId = jobId' := Option.some.inj (hjob.symm.trans h')
      refine ⟨rfl, ?_⟩
      have hid : value.jobId = jobId := lookup_key hvalue
      unfold used
      simp only [Jobs.put, Jobs.job?, lookup_replaceRow, hid, if_true]
      rw [show lookup Jobs.Job.jobId db.jobs jobId = some value from hvalue]
      rfl

structure Fresh (run : Run) (s : State) (x : Execution) : Prop where
  announced : x.silent = false
  named : x.callId ≠ ""
  unrecorded : lookup Operation.operationId s.rows (operationId run x.callId) = none
  uncharged : Uncharged run (operationId run x.callId) s.db

lemma start_type (x : Execution) : x.startEvent.foldedType ∈ startNames := by
  cases x with
  | call source callId tool =>
    cases source with
    | agent => exact (by decide +kernel : Texts.casefold "tool_started" ∈ startNames)
    | overlay => exact (by decide +kernel : Texts.casefold "tool.execution.started" ∈ startNames)
    | child => exact (by decide +kernel : Texts.casefold "tool_started" ∈ startNames)
  | build enclosing buildId => exact (by decide +kernel : Texts.casefold "build_started" ∈ startNames)

lemma start_fresh {s : State} {x : Execution} (now : ℚ) (hcancelled : s.cancelled = false) (hx : Fresh run s x) :
    runtimeEvents fingerprint run now s x.startEvents = (some (.job (.value "AGENT_JOB_BUDGET_EXHAUSTED")), s) ∨
      ∃ db, Charged run (operationId run x.callId) s.db db ∧
        runtimeEvents fingerprint run now s x.startEvents =
          (none, { s with db := db, rows := s.rows ++ [Entry.row fingerprint run ⟨x, .started, false⟩] }) := by
  have hevents : x.startEvents = [x.startEvent] := by
    unfold Execution.startEvents
    rw [hx.announced]
    rfl
  have hbook : runtimeEvent fingerprint run now s x.startEvent = book fingerprint run now s x.startEvent := by
    unfold runtimeEvent
    rw [hcancelled]
    rfl
  have hcall : x.startEvent.call ≠ "" := hx.named
  have hrow : operation fingerprint s.rows (operationId run x.startEvent.call) run.runId x.startEvent.kind .started
      ⟨x.startEvent.call, x.startEvent.kind⟩ =
        .ok (s.rows ++ [Entry.row fingerprint run ⟨x, .started, false⟩]) := by
    unfold operation
    rw [show lookup Operation.operationId s.rows (operationId run x.startEvent.call) = none from hx.unrecorded]
    rfl
  rw [hevents, runtimeEvents, hbook]
  unfold book
  simp only [hcall, start_type, if_true, if_false]
  rcases charge_fresh now hx.uncharged with hcharge | ⟨db, hcharge, hcharged⟩
  · left
    rw [show charge run (operationId run x.startEvent.call) now s.db = _ from hcharge]
  · right
    refine ⟨db, hcharged, ?_⟩
    rw [show charge run (operationId run x.startEvent.call) now s.db = _ from hcharge]
    simp only [hrow, stored]
    rfl

/-- The records agree with the ledger: one row and one charge for each execution. -/
structure Sound (fingerprint : Payload → String) (run : Run) (rows : List Operation) (db : Jobs.Db)
    (s : State) : Prop where
  recorded : AgreesWith fingerprint run s.ledger s.rows
  own : (s.ledger.map (Entry.id run)).Nodup
  charged : ∀ jobId, run.jobId = some jobId →
    s.db.requests = db.requests ++ (s.ledger.map (Entry.id run)).map (chargeRow jobId) ∧
      used s.db jobId = (used db jobId).map oneMore^[s.ledger.length]
  settled : ∀ b ∈ s.ledger, b.ended = true → b.status = .started → s.cancelled = true ∧ s.terminal = false
  others : ∀ row, lookup Operation.operationId rows row.operationId = some row → row.runId ≠ run.runId →
    lookup Operation.operationId s.rows row.operationId = some row

structure Inv (fingerprint : Payload → String) (run : Run) (rows : List Operation) (db : Jobs.Db)
    (s : State) : Prop extends Sound fingerprint run rows db s where
  stopped : s.terminal = true → s.cancelled = true ∧ ∀ b ∈ s.ledger, b.status ≠ .started
  proper : ∀ b ∈ s.ledger, b.execution.silent = false ∧ b.execution.callId ≠ "" ∧ b.status ≠ .prepared

variable {rows : List Operation} {db : Jobs.Db}

lemma inv_start : Inv fingerprint run rows db (State.start rows db) := by
  constructor
  · constructor
    · exact fun b hb => nomatch hb
    · exact List.nodup_nil
    · exact fun jobId _ => ⟨(List.append_nil _).symm, Option.map_id.symm ▸ rfl⟩
    · exact fun b hb => nomatch hb
    · exact fun row hrow _ => hrow
  · exact fun h => nomatch h
  · exact fun b hb => nomatch hb

lemma inv_begin {s : State} {x : Execution} {db' : Jobs.Db} (hs : Inv fingerprint run rows db s)
    (hcancelled : s.cancelled = false) (hx : Fresh run s x) (hcharged : Charged run (operationId run x.callId) s.db db') :
    Inv fingerprint run rows db
      { s with
        db := db'
        rows := s.rows ++ [Entry.row fingerprint run ⟨x, .started, false⟩]
        ledger := s.ledger ++ [⟨x, .started, false⟩] } := by
  have hrunning : s.terminal = false := by
    cases hterminal : s.terminal with
    | false => rfl
    | true => exact absurd ((hs.stopped hterminal).1.symm.trans hcancelled) (by decide)
  have hnew : lookup Operation.operationId [Entry.row fingerprint run ⟨x, .started, false⟩]
      (operationId run x.callId) = some (Entry.row fingerprint run ⟨x, .started, false⟩) := by
    rw [lookup_cons]
    exact if_pos rfl
  constructor
  · constructor
    · intro b hb
      rw [lookup_append]
      rcases mem_concat.1 hb with hb | rfl
      · rw [hs.recorded b hb]
        rfl
      · exact (congrArg (Option.or · _) hx.unrecorded).trans hnew
    · refine nodup_map_concat hs.own fun b hb heq => ?_
      have hfound := hs.recorded b hb
      rw [heq] at hfound
      cases hx.unrecorded.symm.trans hfound
    · intro jobId hjob
      obtain ⟨hrequests, hused⟩ := hs.charged jobId hjob
      obtain ⟨hrequests', hused'⟩ := hcharged jobId hjob
      constructor
      · rw [hrequests', hrequests, List.map_append, List.map_append, List.append_assoc]
        rfl
      · rw [hused', hused, Option.map_map, List.length_append, List.length_singleton, Function.iterate_succ']
    · intro b hb hended hstarted
      rcases List.mem_append.1 hb with hb | hb
      · exact hs.settled b hb hended hstarted
      · rw [List.mem_singleton.1 hb] at hended
        cases hended
    · intro row hrow hrun
      rw [lookup_append, hs.others row hrow hrun]
      rfl
  · exact fun h => absurd (hrunning.symm.trans h) (by decide)
  · intro b hb
    rcases mem_concat.1 hb with hb | rfl
    · exact hs.proper b hb
    · exact ⟨hx.announced, hx.named, nofun⟩

lemma settled_iff {status : OperationStatus} (h : status ≠ .prepared) :
    status.settled = true ↔ status ≠ .started := by
  cases status <;> simp_all [OperationStatus.settled]

lemma rowOf_entry {s : State} {b : Entry} (hs : Inv fingerprint run rows db s) (hb : b ∈ s.ledger) :
    RowOf fingerprint run s.rows b.execution.callId (b.row fingerprint run) :=
  ⟨hs.recorded b hb, rfl, rfl, rfl, (hs.proper b hb).2.1⟩

lemma stopped_entry {s : State} {b : Entry} (hs : Inv fingerprint run rows db s) (hb : b ∈ s.ledger) :
    s.cancelled = true → s.terminal = true → (b.row fingerprint run).status.settled = true := fun _ hterminal =>
  (settled_iff (hs.proper b hb).2.2).2 ((hs.stopped hterminal).2 b hb)

lemma inv_modify {s : State} {n : ℕ} {b : Entry} {f : Entry → Entry} {rows' : List Operation}
    (hs : Inv fingerprint run rows db s) (hb : s.ledger[n]? = some b)
    (hf : ∀ b, (f b).execution = b.execution)
    (hrow : lookup Operation.operationId rows' (b.id run) = some ((f b).row fingerprint run))
    (hrest : ∀ k, k ≠ b.id run → lookup Operation.operationId rows' k = lookup Operation.operationId s.rows k)
    (hended : (f b).status = .started → (f b).ended = true → s.cancelled = true ∧ s.terminal = false)
    (hstatus : b.status ≠ .started → (f b).status ≠ .started) (hprepared : (f b).status ≠ .prepared) :
    Inv fingerprint run rows db { s with rows := rows', ledger := s.ledger.modify n f } := by
  have hmem := List.mem_of_getElem? hb
  have hcases {p : Entry → Prop} (hnew : p (f b)) (hold : ∀ c ∈ s.ledger, p c) : ∀ c ∈ s.ledger.modify n f, p c := by
    intro c hc
    obtain ⟨m, c, hget, rfl⟩ := mem_modify hc
    split
    · subst m
      obtain rfl : b = c := Option.some.inj (hb.symm.trans hget)
      exact hnew
    · exact hold c (List.mem_of_getElem? hget)
  constructor
  · constructor
    · exact agreesWith_modify hf hs.own hs.recorded hb hrow hrest
    · exact (map_id_modify s.ledger n hf).symm ▸ hs.own
    · intro jobId hjob
      simp only [map_id_modify s.ledger n hf, List.length_modify]
      exact hs.charged jobId hjob
    · exact hcases (fun he hstarted => hended hstarted he) hs.settled
    · intro row hrow' hrun
      have hfound := hs.others row hrow' hrun
      have hne : row.operationId ≠ b.id run := by
        intro heq
        rw [heq, hs.recorded b hmem] at hfound
        exact hrun (congrArg Operation.runId (Option.some.inj hfound)).symm
      exact (hrest _ hne).trans hfound
  · intro hterminal
    obtain ⟨hcancelled, hall⟩ := hs.stopped hterminal
    exact ⟨hcancelled, hcases (hstatus (hall b hmem)) hall⟩
  · refine hcases ?_ hs.proper
    rw [hf]
    exact ⟨(hs.proper b hmem).1, (hs.proper b hmem).2.1, hprepared⟩

lemma inv_settle {s : State} {n : ℕ} {b : Entry} {status : OperationStatus} {rows' : List Operation}
    (hs : Inv fingerprint run rows db s) (hb : s.ledger[n]? = some b) (hstatus : status.settled = true)
    (hrows : Settles s.rows rows' (b.row fingerprint run) status) :
    Inv fingerprint run rows db { s with rows := rows', ledger := s.ledger.modify n (Entry.settle status) } := by
  have hproper := (hs.proper b (List.mem_of_getElem? hb)).2.2
  have hne : status ≠ .started := fun h => by rw [h] at hstatus; cases hstatus
  have hprepared : status ≠ .prepared := fun h => by rw [h] at hstatus; cases hstatus
  have hsettle : (Entry.settle status b).status ≠ .started := by
    unfold Entry.settle
    split <;> assumption
  refine inv_modify hs hb (fun _ => rfl) ?_ hrows.rest (fun h => absurd h hsettle) (fun _ => hsettle) ?_
  · refine hrows.same.trans (congrArg some ?_)
    unfold Entry.row Entry.settle
    by_cases h : b.status = .started
    · simp [h, OperationStatus.settled]
      rfl
    · have hsettled : b.status.settled = true := (settled_iff hproper).2 h
      simp [h, hsettled]
      rfl
  · unfold Entry.settle
    split <;> assumption

def Entry.interrupt (b : Entry) : Entry := if b.status = .started then { b with status := .unknown } else b

@[simp] lemma interrupt_execution (b : Entry) : b.interrupt.execution = b.execution := by
  unfold Entry.interrupt
  split <;> rfl

lemma interrupt_status (b : Entry) : b.interrupt.status ≠ .started := by
  unfold Entry.interrupt
  split
  · nofun
  · assumption

lemma interrupt_row (b : Entry) : b.interrupt.row fingerprint run =
    if (b.row fingerprint run).runId = run.runId ∧ (b.row fingerprint run).status = .started then
      { b.row fingerprint run with status := .unknown } else b.row fingerprint run := by
  by_cases h : b.status = .started <;> simp [Entry.interrupt, Entry.row, Entry.id, h]

lemma inv_interrupted {s : State} (hs : Inv fingerprint run rows db s) :
    Inv fingerprint run rows db (interrupted run s) := by
  have hledger : (interrupted run s).ledger = s.ledger.map Entry.interrupt := rfl
  have hids : (s.ledger.map Entry.interrupt).map (Entry.id run) = s.ledger.map (Entry.id run) := by
    rw [List.map_map]
    refine List.map_congr_left fun b _ => ?_
    simp [Entry.id]
  have hlookup (k : String) : lookup Operation.operationId (interrupted run s).rows k =
      (lookup Operation.operationId s.rows k).map fun r =>
        if decide (r.runId = run.runId ∧ r.status = .started) then { r with status := .unknown } else r :=
    @lookup_updateWhere _ _ _ Operation.operationId _ (fun r : Operation => { r with status := .unknown })
      (fun _ => rfl) s.rows k
  constructor
  · constructor
    · intro b hb
      rw [hledger] at hb
      obtain ⟨c, hc, rfl⟩ := List.mem_map.1 hb
      rw [hlookup, Entry.id, interrupt_execution, show operationId run c.execution.callId = c.id run from rfl,
        hs.recorded c hc, interrupt_row]
      simp only [Option.map_some, decide_eq_true_eq]
    · rw [hledger, hids]
      exact hs.own
    · intro jobId hjob
      rw [hledger, hids, List.length_map]
      exact hs.charged jobId hjob
    · intro b hb _ hstarted
      rw [hledger] at hb
      obtain ⟨c, -, rfl⟩ := List.mem_map.1 hb
      exact absurd hstarted (interrupt_status c)
    · intro row hrow hrun
      rw [hlookup, hs.others row hrow hrun]
      simp [hrun]
  · intro hterminal
    refine ⟨(hs.stopped hterminal).1, fun b hb => ?_⟩
    rw [hledger] at hb
    obtain ⟨c, -, rfl⟩ := List.mem_map.1 hb
    exact interrupt_status c
  · intro b hb
    rw [hledger] at hb
    obtain ⟨c, hc, rfl⟩ := List.mem_map.1 hb
    rw [interrupt_execution]
    refine ⟨(hs.proper c hc).1, (hs.proper c hc).2.1, ?_⟩
    unfold Entry.interrupt
    split
    · nofun
    · exact (hs.proper c hc).2.2

lemma inv_drained {s : State} (hs : Inv fingerprint run rows db s) (hcancelled : s.cancelled = true) :
    Inv fingerprint run rows db { interrupted run s with terminal := true } := by
  have hi := inv_interrupted hs
  have hnone : ∀ b ∈ (interrupted run s).ledger, b.status ≠ .started := by
    intro b hb
    obtain ⟨c, -, rfl⟩ := List.mem_map.1 (show b ∈ s.ledger.map Entry.interrupt from hb)
    exact interrupt_status c
  exact
    { recorded := hi.recorded
      own := hi.own
      charged := hi.charged
      settled := fun b hb _ hstarted => absurd hstarted (hnone b hb)
      others := hi.others
      stopped := fun _ => ⟨hcancelled, hnone⟩
      proper := hi.proper }

lemma inv_cancel {s : State} (hs : Inv fingerprint run rows db s) (hrunning : s.terminal = false) :
    Inv fingerprint run rows db { s with cancelled := true } :=
  { recorded := hs.recorded
    own := hs.own
    charged := hs.charged
    settled := fun _ _ _ _ => ⟨rfl, hrunning⟩
    others := hs.others
    stopped := fun h => absurd (hrunning.symm.trans h) (by decide)
    proper := hs.proper }

/-- When a deadline does no harm: the call reports it itself and was not settled otherwise, or
    its row is settled and the report finds no other that is open. -/
def ExpiresWell (run : Run) (s : State) (b : Entry) (repeatable : Bool) : Prop :=
  s.terminal = true ∨
    (∃ callId tool, b.execution = .call .agent callId tool ∧
      (repeatable = true ∨ b.status = .started ∨ b.status = .unknown)) ∨
    (∀ callId tool, b.execution ≠ .call .agent callId tool) ∧ b.status ≠ .started ∧
      ∀ e ∈ b.execution.expireEvents repeatable, ∀ row,
        lookup Operation.operationId (s.rows.filter fun r => decide (r.runId = run.runId)) (operationId run e.call) =
          some row → row.status.settled = true

/-- The condition of a step: a call is fresh and the run is not cancelled when it begins, and
    an execution is cut off only where its record is settled all the same. -/
def Kept (run : Run) (s : State) : Action → Prop
  | .execute _ x _ => s.cancelled = false ∧ Fresh run s x
  | .expire n repeatable _ => ∀ b, s.ledger[n]? = some b → ExpiresWell run s b repeatable
  | .abandon n => ∀ b, s.ledger[n]? = some b → b.status = .started → s.cancelled = true ∧ s.terminal = false
  | _ => True

lemma expireEvents_other {x : Execution} (hx : ∀ callId tool, x ≠ .call .agent callId tool) (repeatable : Bool) :
    x.expireEvents repeatable = [] ∨ ∃ e, x.expireEvents repeatable = [e] ∧ e.foldedType ∈ settledNames := by
  cases x with
  | call source callId tool =>
    cases source with
    | agent => exact absurd rfl (hx callId tool)
    | overlay => exact .inl rfl
    | child => exact .inl rfl
  | build enclosing buildId =>
    cases enclosing with
    | none => exact .inl rfl
    | some callId => exact .inr ⟨_, rfl, (by decide +kernel : Texts.casefold "tool_failed" ∈ settledNames)⟩

lemma runtimeEvents_terminal {s : State} (hcancelled : s.cancelled = true) (hterminal : s.terminal = true) (now : ℚ)
    (es : List Event) : runtimeEvents fingerprint run now s es = (none, s) := by
  induction es with
  | nil => rfl
  | cons e es ih =>
    have hover : runtimeEvent fingerprint run now s e = (none, s) := if_pos ⟨hcancelled, hterminal⟩
    rw [runtimeEvents, hover]
    exact ih

lemma expires {s : State} {n : ℕ} {b : Entry} {repeatable : Bool} (now : ℚ)
    (hs : Inv fingerprint run rows db s) (hb : s.ledger[n]? = some b) (hwell : ExpiresWell run s b repeatable) :
    ∃ rows', runtimeEvents fingerprint run now s (b.execution.expireEvents repeatable) =
        (none, { s with rows := rows' }) ∧
      Settles s.rows rows' (b.row fingerprint run) (if repeatable then .failed else .unknown) := by
  have hmem := List.mem_of_getElem? hb
  have hrow := rowOf_entry hs hmem
  have hsettled (h : b.status ≠ .started) : (b.row fingerprint run).status.settled = true :=
    (settled_iff (hs.proper b hmem).2.2).2 h
  rcases hwell with hterminal | ⟨callId, tool, hx, hopen⟩ | ⟨hx, hended, hstale⟩
  · obtain ⟨hcancelled, hall⟩ := hs.stopped hterminal
    exact ⟨s.rows, runtimeEvents_terminal hcancelled hterminal now _,
      settles_of_settled hrow.lookup (hsettled (hall b hmem))⟩
  · have hstopped := @stopped_entry fingerprint run rows db s b hs hmem
    cases repeatable with
    | true =>
      rw [hx] at hrow ⊢
      exact runtimeEvents_settles now hrow (reports_expire callId tool) rfl hstopped
    | false =>
      have hcall : b.execution.callId = callId := by rw [hx, callId_agent]
      have hpayload : (b.row fingerprint run).payload = ⟨callId, orText tool "tool"⟩ := by
        rw [← hcall, ← kind_call .agent callId tool, ← hx]
        rfl
      have hunknown : (b.row fingerprint run).status.settled = true → (b.row fingerprint run).status = .unknown := by
        intro hsettled
        rcases hopen with h | h | h
        · cases h
        · exact absurd hsettled (by rw [Entry.row, h]; exact Bool.false_ne_true)
        · exact h
      obtain ⟨rows', hrows', hsettles⟩ := runtimeEvent_unknown now (hcall ▸ hrow) hpayload hunknown hstopped
      refine ⟨rows', ?_, hsettles⟩
      rw [hx]
      change runtimeEvents fingerprint run now s [unknownEvent callId tool] = _
      rw [runtimeEvents, hrows']
      rfl
  · refine ⟨s.rows, ?_, settles_of_settled hrow.lookup (hsettled hended)⟩
    rcases expireEvents_other hx repeatable with hes | ⟨e, hes, hname⟩
    · rw [hes]
      rfl
    · have hstale := @runtimeEvent_stale fingerprint run s e now hname
        (hstale e (by rw [hes]; exact List.mem_cons_self ..))
      rw [hes, runtimeEvents, hstale]
      rfl

lemma finishes {s : State} {n : ℕ} {b : Entry} (failed : Bool) (now : ℚ) (hs : Inv fingerprint run rows db s)
    (hb : s.ledger[n]? = some b) :
    ∃ rows', runtimeEvents fingerprint run now s (b.execution.finishEvents failed) =
        (none, { s with rows := rows' }) ∧
      Settles s.rows rows' (b.row fingerprint run) (if failed then .failed else .completed) := by
  have hmem := List.mem_of_getElem? hb
  obtain ⟨hreports, hne⟩ := reports_finish (hs.proper b hmem).1 failed
  obtain ⟨e, es, hes⟩ := List.exists_cons_of_ne_nil hne
  rw [hes] at hreports ⊢
  exact runtimeEvents_settles now (rowOf_entry hs hmem) hreports (by cases failed <;> rfl) (stopped_entry hs hmem)

lemma step_kept {s : State} {a : Action} (hs : Inv fingerprint run rows db s) (h : Kept run s a) :
    (∀ error, (step fingerprint run s a).1 ≠ .raised error) ∧
      Inv fingerprint run rows db (step fingerprint run s a).2 := by
  cases a with
  | execute plan x now =>
    obtain ⟨hcancelled, hx⟩ := h
    rcases @start_fresh fingerprint run s x now hcancelled hx with hevents | ⟨db', hcharged, hevents⟩
    · simp only [step, hevents]
      exact ⟨nofun, hs⟩
    · simp only [step, hevents]
      exact ⟨nofun, inv_begin hs hcancelled hx hcharged⟩
  | finish n failed now =>
    cases hb : s.ledger[n]? with
    | none =>
      simp only [step, hb]
      exact ⟨nofun, hs⟩
    | some b =>
      simp only [step, hb]
      split
      · exact ⟨nofun, hs⟩
      · obtain ⟨rows', hevents, hsettles⟩ := finishes failed now hs hb
        simp only [hevents, reported]
        exact ⟨nofun, inv_settle hs hb (by cases failed <;> rfl) hsettles⟩
  | expire n repeatable now =>
    cases hb : s.ledger[n]? with
    | none =>
      simp only [step, hb]
      exact ⟨nofun, hs⟩
    | some b =>
      obtain ⟨rows', hevents, hsettles⟩ := expires now hs hb (h b hb)
      simp only [step, hb, hevents, reported]
      exact ⟨nofun, inv_settle hs hb (by cases repeatable <;> rfl) hsettles⟩
  | abandon n =>
    refine ⟨nofun, ?_⟩
    cases hb : s.ledger[n]? with
    | none =>
      have hsame : s.ledger.modify n (fun b => { b with ended := true }) = s.ledger :=
        List.modify_eq_self (List.getElem?_eq_none_iff.1 hb)
      simp only [step, hsame]
      exact hs
    | some b =>
      have hmem := List.mem_of_getElem? hb
      exact @inv_modify fingerprint run rows db s n b (fun b => { b with ended := true }) s.rows hs hb
        (fun _ => rfl) (hs.recorded b hmem) (fun _ _ => rfl) (fun hstarted _ => h b hb hstarted) id
        (hs.proper b hmem).2.2
  | cancel =>
    refine ⟨nofun, ?_⟩
    simp only [step]
    split
    · exact hs
    · exact inv_cancel hs (by simpa using ‹¬ s.terminal = true›)
  | interrupt => exact ⟨nofun, inv_interrupted hs⟩
  | drained =>
    refine ⟨nofun, ?_⟩
    simp only [step]
    split
    · exact inv_drained hs ‹_›
    · exact hs

def Recorded (fingerprint : Payload → String) (run : Run) (rows : List Operation) (db : Jobs.Db)
    (actions : List Action) : Prop :=
  ∀ e ∈ trace (step fingerprint run) (State.start rows db) actions,
    (∀ error, e.outcome ≠ .raised error) ∧ Sound fingerprint run rows db e.after

lemma recorded_from {s : State} (hs : Inv fingerprint run rows db s) (actions : List Action)
    (h : ∀ e ∈ trace (step fingerprint run) s actions, Kept run e.before e.action) :
    ∀ e ∈ trace (step fingerprint run) s actions,
      (∀ error, e.outcome ≠ .raised error) ∧ Sound fingerprint run rows db e.after := by
  induction actions generalizing s with
  | nil => exact fun e he => nomatch he
  | cons a actions ih =>
    obtain ⟨houtcome, hnext⟩ := step_kept hs (h _ (List.mem_cons_self ..))
    intro e he
    rcases List.mem_cons.1 he with rfl | he
    · exact ⟨houtcome, hnext.toSound⟩
    · exact ih hnext (fun e he => h e (List.mem_cons_of_mem _ he)) e he

theorem recorded (fingerprint : Payload → String) (run : Run) (rows : List Operation) (db : Jobs.Db)
    (actions : List Action)
    (h : ∀ e ∈ trace (step fingerprint run) (State.start rows db) actions, Kept run e.before e.action) :
    Recorded fingerprint run rows db actions :=
  recorded_from inv_start actions h

def idIn (plan : ℕ) : Action → Option String
  | .execute plan' (.call _ callId _) _ => if plan' = plan then some callId else none
  | _ => none

def Accepted (actions : List Action) : Prop := ∀ plan, (actions.filterMap (idIn plan)).Nodup

def oneRun : Run := ⟨"run", some "job"⟩

def newJob : Jobs.Db :=
  match Jobs.create "job" "project" "session" "root" "run" false "standard" 0 Jobs.Db.initial with
  | .ok (_, db) => db
  | .error _ => Jobs.Db.initial

def joined (p : Payload) : String := p.callId ++ "|" ++ p.kind

def readCall : Execution := .call .agent "call_0" "read_file"

theorem recorded_one_call : Recorded joined oneRun [] newJob [.execute 1 readCall 0, .finish 0 false 0] := by
  apply recorded
  intro e he
  simp only [trace_cons, trace_nil, List.mem_cons, List.not_mem_nil, or_false] at he
  rcases he with rfl | rfl
  · refine ⟨rfl, rfl, by decide, rfl, fun jobId hjob => ?_⟩
    obtain rfl : "job" = jobId := Option.some.inj hjob
    exact ⟨by decide, Option.isSome_iff_exists.1 (by decide +kernel), rfl⟩
  · trivial

def repeatedId : List Action := [.execute 1 readCall 0, .finish 0 false 0, .execute 2 readCall 0]

def Outcome.isRaised : Outcome → Bool
  | .raised _ => true
  | _ => false

theorem repeated_id_fails : ¬ ∀ actions, Accepted actions → Recorded joined oneRun [] newJob actions := by
  intro h
  have haccepted : Accepted repeatedId := by
    intro plan
    by_cases h1 : 1 = plan
    · subst h1
      decide
    · by_cases h2 : 2 = plan
      · subst h2
        decide
      · simp [repeatedId, readCall, List.filterMap, idIn, h1, h2]
  have hall : ∀ e ∈ trace (step joined oneRun) (State.start [] newJob) repeatedId, e.outcome.isRaised = false := by
    intro e he
    cases houtcome : e.outcome with
    | raised error => exact absurd houtcome ((h repeatedId haccepted e he).1 error)
    | done => rfl
    | refused => rfl
  have hnone : ((trace (step joined oneRun) (State.start [] newJob) repeatedId).all fun e =>
      !e.outcome.isRaised) = true := by
    rw [List.all_eq_true]
    intro e he
    rw [hall e he]
    rfl
  revert hnone
  decide +kernel

end PromptForge.Operations
