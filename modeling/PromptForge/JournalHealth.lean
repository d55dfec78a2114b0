import PromptForge.Store

/-!
# Appends and the verifier

The writer stores columns beside the JSON of an event, and the verifier derives
each column from the JSON again.
-/
namespace PromptForge.Store
open Runs Tables Json

variable (host : Host)

def Healthy (sessionId : String) (db : Db) : Prop := ∃ result, verifySnapshot host sessionId db = .ok result

def named : Value → Bool
  | .null => true
  | .str s => s != ""
  | _ => false

def typed (payload : Dict) : Bool :=
  match payload.get? "event_type" with
  | none => true
  | some (.str s) => s != ""
  | some _ => false

def clean (payload : Dict) : Bool :=
  named (payload.get "run_id") && named (payload.get "node_id") && typed payload

variable {host}

lemma isText_str (s t : String) : isText (.str s) (some t) = decide (s = t) := rfl

lemma isInt_int (n m : ℤ) : isInt (.int n) m = decide (n = m) := by
  simp [isInt, number?]

lemma isText_optional (v : Value) : isText v (optional host v) = named v := by
  cases v with
  | null => rfl
  | str s =>
    unfold optional named str
    by_cases hs : s = ""
    · simp [hs, isText]
    · simp [hs, isText]
  | _ =>
    unfold optional
    dsimp only
    split <;> rfl

lemma isText_eventType (payload : Dict) :
    isText ((payload.get? "event_type").getD (.str "activity.updated"))
      (some (str host (payload.getOr "event_type" (.str "activity.updated")))) = typed payload := by
  unfold Dict.getOr Dict.get typed
  rcases payload.get? "event_type" with _ | v
  · simp [truthy, str, isText]
  · cases v with
    | str s =>
      by_cases hs : s = ""
      · simp [hs, truthy, str, isText]
      · simp [hs, truthy, str, isText]
    | _ => simp [isText]

lemma get?_identified (req : AppendRequest) (eventId : String) (eventVersion : ℤ) (sequence : ℕ)
    {k : String} (hc : k ≠ "created_at") (ht : k ≠ "timestamp") (hl : k ≠ "lease_epoch") :
    (identified req eventId eventVersion sequence).get? k =
      if k = "session_seq" then some (.int sequence) else if k = "sequence" then some (.int sequence)
      else if k = "session_id" then some (.str req.sessionId)
      else if k = "event_version" then some (.int eventVersion)
      else if k = "event_id" then some (.str eventId) else req.payload.get? k := by
  unfold identified
  dsimp only
  rw [Dict.get?_setDefault_of_ne ht, Dict.get?_setDefault_of_ne hc]
  cases req.grant with
  | none => simp only [Option.elim_none, Dict.get?_set]
  | some grant =>
    simp only [Option.elim_some]
    rw [Dict.get?_set, if_neg hl]
    simp only [Dict.get?_set]

variable {event : Dict}

lemma get?_withActivity {event' : Dict} {db : Db} (h : withActivity host event db = .ok event')
    {k : String} (hk : k ≠ "activity_record") : event'.get? k = event.get? k := by
  unfold withActivity at h
  split at h
  · obtain ⟨candidate, -, h⟩ := ok_of_bind h
    cases candidate with
    | none =>
      cases h
      rfl
    | some candidate =>
      obtain ⟨runId, -, h⟩ := ok_of_bind h
      obtain ⟨record, -, h⟩ := ok_of_bind h
      cases h
      rw [Dict.get?_set, if_neg hk]
  · cases h
    rfl

lemma sameIdentity_eventRow {req : AppendRequest} {head : SessionHead} {eventId : String}
    {eventVersion : ℤ} {db : Db} {row : EventRow}
    (hevent : withActivity host (identified req eventId eventVersion (head.lastSequence + 1)) db = .ok event)
    (hrow : eventRow host req head eventId eventVersion
      (event.set "previous_checksum" (.str head.lastChecksum)) = .ok row) :
    sameIdentity req.sessionId row = clean req.payload := by
  obtain ⟨leaseEpoch, -, h⟩ := ok_of_bind hrow
  cases h
  generalize hchecksum : host.sha256 (head.lastChecksum ++ payloadHash host
    (event.set "previous_checksum" (.str head.lastChecksum))) = checksum
  generalize hpayload : Dict.set "event_checksum" (.str checksum)
    (event.set "previous_checksum" (.str head.lastChecksum)) = payload
  have hread : ∀ k, k ∉ ["created_at", "timestamp", "lease_epoch", "activity_record",
      "previous_checksum", "event_checksum"] →
      payload.get? k = if k = "session_seq" then some (.int (head.lastSequence + 1 : ℕ))
        else if k = "sequence" then some (.int (head.lastSequence + 1 : ℕ))
        else if k = "session_id" then some (.str req.sessionId)
        else if k = "event_version" then some (.int eventVersion)
        else if k = "event_id" then some (.str eventId) else req.payload.get? k := by
    intro k hk
    simp only [List.mem_cons, List.not_mem_nil, or_false, not_or] at hk
    obtain ⟨hc, ht, hl, ha, hp, he⟩ := hk
    rw [← hpayload, Dict.get?_set, if_neg he, Dict.get?_set, if_neg hp, get?_withActivity hevent ha,
      get?_identified req eventId eventVersion _ hc ht hl]
  have hrun : payload.get? "run_id" = req.payload.get? "run_id" := hread _ (by decide)
  have hnode : payload.get? "node_id" = req.payload.get? "node_id" := hread _ (by decide)
  have htype : payload.get? "event_type" = req.payload.get? "event_type" := hread _ (by decide)
  have hsequence : payload.get "sequence" = .int (head.lastSequence + 1 : ℕ) :=
    Dict.get_of_get? (hread _ (by decide))
  have hsession : payload.get "session_id" = .str req.sessionId := Dict.get_of_get? (hread _ (by decide))
  have hsessionSeq : payload.get "session_seq" = .int (head.lastSequence + 1 : ℕ) :=
    Dict.get_of_get? (hread _ (by decide))
  have hid : payload.get "event_id" = .str eventId := Dict.get_of_get? (hread _ (by decide))
  have hversion : payload.get "event_version" = .int eventVersion :=
    Dict.get_of_get? (hread _ (by decide))
  have hprevious : payload.get "previous_checksum" = .str head.lastChecksum := by
    refine Dict.get_of_get? ?_
    rw [← hpayload, Dict.get?_set, if_neg (by decide), Dict.get?_set, if_pos rfl]
  have hlast : payload.get "event_checksum" = .str checksum := by
    refine Dict.get_of_get? ?_
    rw [← hpayload, Dict.get?_set, if_pos rfl]
  unfold sameIdentity clean
  dsimp only
  rw [hsequence, hsession, hsessionSeq, hid, hversion, hprevious, hlast, htype, Dict.get_congr hrun,
    Dict.get_congr hnode, Dict.getOr_congr htype, isText_optional, isText_optional, isText_eventType]
  simp only [isText_str, isInt_int, decide_true, Bool.true_and, Bool.and_true]

variable {grant : LeaseGrant}

lemma leaseEpoch_eventRow {req : AppendRequest} {head : SessionHead} {eventId : String}
    {eventVersion : ℤ} {db : Db} {row : EventRow}
    (hg : req.grant = some grant)
    (hevent : withActivity host (identified req eventId eventVersion (head.lastSequence + 1)) db = .ok event)
    (hrow : eventRow host req head eventId eventVersion
      (event.set "previous_checksum" (.str head.lastChecksum)) = .ok row) :
    row.leaseEpoch = grant.leaseEpoch := by
  obtain ⟨leaseEpoch, hint, h⟩ := ok_of_bind hrow
  cases h
  have hidentified : (identified req eventId eventVersion (head.lastSequence + 1)).get? "lease_epoch" =
      some (.int grant.leaseEpoch) := by
    unfold identified
    dsimp only
    rw [Dict.get?_setDefault_of_ne (by decide), Dict.get?_setDefault_of_ne (by decide), hg,
      Option.elim_some, Dict.get?_set, if_pos rfl]
  have hread : (Dict.set "event_checksum" (.str (host.sha256 (head.lastChecksum ++ payloadHash host
      (event.set "previous_checksum" (.str head.lastChecksum)))))
      (event.set "previous_checksum" (.str head.lastChecksum))).get "lease_epoch" =
      .int grant.leaseEpoch := by
    refine Dict.get_of_get? ?_
    rw [Dict.get?_set, if_neg (by decide), Dict.get?_set, if_neg (by decide),
      get?_withActivity hevent (by decide), hidentified]
  unfold Dict.getOr at hint
  rw [hread] at hint
  by_cases h0 : grant.leaseEpoch = 0
  · rw [h0] at hint ⊢
    exact (Except.ok.inj hint).symm
  · rw [if_pos (by simpa [truthy] using h0)] at hint
    exact (Except.ok.inj hint).symm

variable (host) in
structure Appended (req : AppendRequest) (db db' : Db) (head : SessionHead) (row : EventRow) : Prop where
  opened : head? db req.sessionId = some head ∧ head.health = .healthy ∨
    head? db req.sessionId = none ∧ head.lastChecksum = "" ∧
      head.lastSequence = (eventsOf db req.sessionId).foldl (fun n r => max n r.sequence) 0
  session : row.sessionId = req.sessionId
  sequence : row.sequence = head.lastSequence + 1
  previous : row.previousChecksum = head.lastChecksum
  hash : payloadHash host row.payload = row.payloadHash
  checksum : row.eventChecksum = host.sha256 (head.lastChecksum ++ row.payloadHash)
  identity : sameIdentity req.sessionId row = clean req.payload
  epoch : ∀ grant, req.grant = some grant → row.leaseEpoch = grant.leaseEpoch
  events : db'.events = db.events ++ [row]
  heads : ∀ other, head? db' other = if other = req.sessionId
    then some ⟨req.sessionId, row.sequence, row.eventChecksum, .healthy⟩ else head? db other
  leases : db'.leases = db.leases
  queue : db'.queue = db.queue

variable {sessionId : String}

lemma openHead_cases {db opened : Db} {head : SessionHead}
    (h : openHead sessionId db = .ok (head, opened)) :
    (head? db sessionId = some head ∧ head.health = .healthy ∨
      head? db sessionId = none ∧ head.lastChecksum = "" ∧
        head.lastSequence = (eventsOf db sessionId).foldl (fun n r => max n r.sequence) 0) ∧
    (∀ other, head? opened other = if other = sessionId then some head else head? db other) ∧
    head.sessionId = sessionId ∧ opened.events = db.events ∧ opened.leases = db.leases ∧
      opened.queue = db.queue := by
  unfold openHead at h
  rcases hrow : head? db sessionId with _ | row
  · simp only [hrow] at h
    cases h
    refine ⟨.inr ⟨rfl, rfl, rfl⟩, fun other => ?_, rfl, rfl, rfl, rfl⟩
    change lookup SessionHead.sessionId (db.heads ++ [_]) other = _
    rw [lookup_append, lookup_cons, lookup_nil]
    by_cases ho : other = sessionId
    · subst ho
      rw [show lookup SessionHead.sessionId db.heads other = none from hrow, if_pos rfl, if_pos rfl]
      rfl
    · rw [if_neg (Ne.symm ho), Option.or_none, if_neg ho]
  · simp only [hrow] at h
    split at h
    · cases h
    · rename_i hhealth
      cases h
      have hfine : head.health = .healthy := by
        cases hh : head.health with
        | healthy => rfl
        | quarantined => exact absurd hh hhealth
      refine ⟨.inl ⟨rfl, hfine⟩, fun other => ?_, lookup_key hrow, rfl, rfl, rfl⟩
      split
      · rename_i ho
        rw [ho, hrow]
      · rfl

lemma appendNew_ok {req : AppendRequest} {db db' : Db}
    (h : appendNew host req db = .ok (event, db')) :
    ∃ head row, Appended host req db db' head row ∧ event = row.payload := by
  obtain ⟨⟨head, opened⟩, hopen, h⟩ := ok_of_bind h
  obtain ⟨eventVersion, -, h⟩ := ok_of_bind h
  obtain ⟨enriched, hevent, h⟩ := ok_of_bind h
  obtain ⟨row, hrow, h⟩ := ok_of_bind h
  obtain ⟨inserted, hinsert, h⟩ := ok_of_bind h
  obtain ⟨hopened, hheads, hid, hevents, hleases, hqueue⟩ := openHead_cases hopen
  have hinserted : inserted = { opened with events := opened.events ++ [row] } := by
    unfold insertEvent at hinsert
    split at hinsert
    · cases hinsert
    · exact (Except.ok.inj hinsert).symm
  subst hinserted
  have hidentity := sameIdentity_eventRow hevent hrow
  have hepoch : ∀ grant, req.grant = some grant → row.leaseEpoch = grant.leaseEpoch := fun grant hg =>
    leaseEpoch_eventRow hg hevent hrow
  obtain ⟨leaseEpoch, -, hrow⟩ := ok_of_bind hrow
  cases hrow
  split at h
  · cases h
  · cases h
    refine ⟨head, _, ⟨hopened, rfl, rfl, rfl, ?_, rfl, hidentity, hepoch, ?_, fun other => ?_, hleases, hqueue⟩,
      rfl⟩
    · unfold payloadHash
      rw [Dict.erase_set]
    · change opened.events ++ [_] = _
      rw [hevents]
    · change lookup SessionHead.sessionId (updateWhere _ _ opened.heads) other = _
      rw [lookup_updateWhere (advanced_sessionId _ _)]
      rw [show lookup SessionHead.sessionId opened.heads other = _ from hheads other]
      by_cases ho : other = req.sessionId
      · rw [if_pos ho, if_pos ho, Option.map_some, if_pos (by simpa using hid)]
        cases head
        cases hid
        rfl
      · rw [if_neg ho, if_neg ho]
        rcases hother : head? db other with _ | row'
        · rfl
        · have hkey : row'.sessionId = other := lookup_key hother
          rw [Option.map_some, if_neg (by simpa [hkey] using ho)]

structure Ordered (db : Db) : Prop where
  sorted : ∀ sessionId, (db.events.filter fun r => decide (r.sessionId = sessionId)).Pairwise
    fun r r' => r.sequence ≤ r'.sequence
  bounded : ∀ r ∈ db.events, ∃ head, head? db r.sessionId = some head ∧ r.sequence ≤ head.lastSequence

lemma eventsOf_ordered {db : Db} (h : Ordered db) (sessionId : String) :
    eventsOf db sessionId = db.events.filter fun r => decide (r.sessionId = sessionId) :=
  (h.sorted sessionId).insertionSort_eq

lemma eventsOf_no_head {db : Db} (h : Ordered db)
    (hn : head? db sessionId = none) : eventsOf db sessionId = [] := by
  rw [eventsOf_ordered h, List.filter_eq_nil_iff]
  intro r hr hs
  obtain ⟨head, hhead, -⟩ := h.bounded r hr
  rw [show r.sessionId = sessionId by simpa using hs, hn] at hhead
  cases hhead

section Append
variable {req : AppendRequest} {db db' : Db} {head : SessionHead} {row : EventRow}

lemma le_head (h : Ordered db) (ha : Appended host req db db' head row) {r : EventRow}
    (hr : r ∈ db.events) (hs : r.sessionId = req.sessionId) : r.sequence ≤ head.lastSequence := by
  obtain ⟨head', hhead', hle⟩ := h.bounded r hr
  rw [hs] at hhead'
  rcases ha.opened with ⟨hhead, -⟩ | ⟨hnone, -⟩
  · obtain rfl : head = head' := Option.some.inj (hhead.symm.trans hhead')
    exact hle
  · rw [hnone] at hhead'
    cases hhead'

lemma filter_appended (ha : Appended host req db db' head row) (sessionId : String) :
    (db'.events.filter fun r => decide (r.sessionId = sessionId)) =
      (db.events.filter fun r => decide (r.sessionId = sessionId)) ++
        if req.sessionId = sessionId then [row] else [] := by
  rw [ha.events, List.filter_append, List.filter_singleton, ha.session]
  simp

lemma ordered_append (h : Ordered db) (ha : Appended host req db db' head row) :
    Ordered db' where
  sorted sessionId := by
    rw [filter_appended ha]
    refine List.pairwise_append.2 ⟨h.sorted sessionId, by split <;> simp, fun r hr r' hr' => ?_⟩
    obtain ⟨hmem, hs⟩ := List.mem_filter.1 hr
    split at hr'
    · rename_i heq
      rw [List.mem_singleton] at hr'
      rw [hr', ha.sequence]
      refine (le_head h ha hmem ?_).trans (Nat.le_succ _)
      rw [heq]
      simpa using hs
    · cases hr'
  bounded r hr := by
    rw [ha.events] at hr
    rw [ha.heads]
    by_cases hs : r.sessionId = req.sessionId
    · rw [if_pos hs]
      refine ⟨_, rfl, ?_⟩
      rcases List.mem_append.1 hr with hr | hr
      · change r.sequence ≤ row.sequence
        rw [ha.sequence]
        exact (le_head h ha hr hs).trans (Nat.le_succ _)
      · rw [List.mem_singleton] at hr
        rw [hr]
    · rw [if_neg hs]
      rcases mem_concat.1 hr with hr | rfl
      · exact h.bounded r hr
      · exact absurd ha.session hs

lemma eventsOf_appended (h : Ordered db) (ha : Appended host req db db' head row)
    (sessionId : String) : eventsOf db' sessionId =
      eventsOf db sessionId ++ if req.sessionId = sessionId then [row] else [] := by
  rw [eventsOf_ordered (ordered_append h ha), eventsOf_ordered h, filter_appended ha]

lemma verifyChain_append (sessionId : String) (rows : List EventRow) (row : EventRow) (n : ℕ)
    (previous : String) : verifyChain host sessionId n previous (rows ++ [row]) =
      match verifyChain host sessionId n previous rows with
      | .error reason => .error reason
      | .ok (count, checksum) => (verifyRow host sessionId (count + 1) checksum row).map fun c =>
          (count + 1, c) := by
  induction rows generalizing n previous with
  | nil =>
    change verifyChain host sessionId n previous [row] =
      (verifyRow host sessionId (n + 1) previous row).map fun c => (n + 1, c)
    unfold verifyChain
    cases verifyRow host sessionId (n + 1) previous row <;> rfl
  | cons r rows ih =>
    rw [List.cons_append]
    unfold verifyChain
    cases verifyRow host sessionId (n + 1) previous r with
    | error reason => rfl
    | ok checksum => exact ih (n + 1) checksum

lemma verifyRow_ok {sessionId : String} {n : ℕ} {previous checksum : String} :
    verifyRow host sessionId n previous row = .ok checksum ↔ row.sequence = n ∧
      row.previousChecksum = previous ∧ payloadHash host row.payload = row.payloadHash ∧
      sameIdentity sessionId row = true ∧ host.sha256 (previous ++ row.payloadHash) = row.eventChecksum ∧
      row.eventChecksum = checksum := by
  unfold verifyRow
  repeat' split
  all_goals simp_all

lemma healthy_iff (sessionId : String) (db : Db) : Healthy host sessionId db ↔
    (head? db sessionId = none ∧ ∃ checksum,
      verifyChain host sessionId 0 "" (eventsOf db sessionId) = .ok (0, checksum)) ∨
    ∃ head, head? db sessionId = some head ∧ head.health = .healthy ∧
      verifyChain host sessionId 0 "" (eventsOf db sessionId) = .ok (head.lastSequence, head.lastChecksum) := by
  unfold Healthy verifySnapshot
  rcases hhead : head? db sessionId with _ | head
  · rcases hchain : verifyChain host sessionId 0 "" (eventsOf db sessionId) with reason | ⟨count, checksum⟩
    · simp
    · by_cases hc : count = 0 <;> simp [hc]
  · have hq : head.health = .quarantined ∨ head.health = .healthy := by
      cases head.health
      · exact .inr rfl
      · exact .inl rfl
    rcases hq with hq | hq
    · simp [hq]
    · rcases hchain : verifyChain host sessionId 0 "" (eventsOf db sessionId) with reason | ⟨count, checksum⟩
      · simp [hq]
      · by_cases hm : head.lastSequence ≠ count ∨ head.lastChecksum ≠ checksum
        · simp only [hq, hm, Option.any_some, reduceCtorEq, decide_false, Bool.false_eq_true, if_false, if_true,
            exists_false, Option.some.injEq, false_and, false_or, false_iff, not_exists, not_and]
          rintro _ rfl - heq
          obtain ⟨rfl, rfl⟩ := Prod.mk.inj (Except.ok.inj heq)
          exact absurd hm (by simp)
        · have hm' : head.lastSequence = count ∧ head.lastChecksum = checksum := by simpa [not_or] using hm
          simp [hq, hm'.1, hm'.2]

lemma healthy_other (h : Ordered db) (ha : Appended host req db db' head row)
    {other : String} (ho : other ≠ req.sessionId) : Healthy host other db' ↔ Healthy host other db := by
  rw [healthy_iff, healthy_iff, eventsOf_appended h ha, if_neg (Ne.symm ho), List.append_nil, ha.heads,
    if_neg ho]

lemma healthy_append (h : Ordered db) (ha : Appended host req db db' head row) :
    Healthy host req.sessionId db' ↔ Healthy host req.sessionId db ∧ clean req.payload = true := by
  have hend : Healthy host req.sessionId db' ↔
      verifyChain host req.sessionId 0 "" (eventsOf db req.sessionId ++ [row]) =
        .ok (row.sequence, row.eventChecksum) := by
    rw [healthy_iff, eventsOf_appended h ha, if_pos rfl, ha.heads, if_pos rfl]
    simp
  have hstart : Healthy host req.sessionId db ↔
      verifyChain host req.sessionId 0 "" (eventsOf db req.sessionId) =
        .ok (head.lastSequence, head.lastChecksum) := by
    rw [healthy_iff]
    rcases ha.opened with ⟨hhead, hhealth⟩ | ⟨hnone, hchecksum, hlast⟩
    · rw [hhead]
      simp [hhealth]
    · rw [eventsOf_no_head h hnone] at hlast ⊢
      rw [hnone, hlast, hchecksum]
      simp [verifyChain]
  rw [hend, hstart, verifyChain_append]
  rcases hchain : verifyChain host req.sessionId 0 "" (eventsOf db req.sessionId) with reason | ⟨count, checksum⟩
  · simp
  · have hrow : ((verifyRow host req.sessionId (count + 1) checksum row).map fun c => (count + 1, c)) =
        .ok (row.sequence, row.eventChecksum) ↔
        verifyRow host req.sessionId (count + 1) checksum row = .ok row.eventChecksum ∧
          count + 1 = row.sequence := by
      cases verifyRow host req.sessionId (count + 1) checksum row with
      | error reason => simp [Except.map]
      | ok c => simp [Except.map, and_comm]
    dsimp only
    rw [hrow, verifyRow_ok, ha.sequence, ha.previous, ha.identity, Except.ok.injEq, Prod.mk.injEq]
    constructor
    · rintro ⟨⟨hseq, hprev, -, hid, -, -⟩, -⟩
      exact ⟨⟨by omega, hprev.symm⟩, hid⟩
    · rintro ⟨⟨rfl, rfl⟩, hid⟩
      exact ⟨⟨rfl, rfl, ha.hash, hid, ha.checksum.symm, rfl⟩, rfl⟩

end Append

lemma appendTx_cases {req : AppendRequest} {db db' : Db}
    (h : appendTx host req db = .ok (event, db')) :
    assertGrant req.grant req.now db = .ok () ∧
    (db' = db ∨ ∃ head row, Appended host req db db' head row ∧ event = row.payload) := by
  obtain ⟨_, hlease, h⟩ := ok_of_bind h
  obtain ⟨existing, -, h⟩ := ok_of_bind h
  refine ⟨hlease, ?_⟩
  cases existing with
  | some event =>
    cases h
    exact .inl rfl
  | none => exact .inr (appendNew_ok h)

variable (host) in
inductive Does (s : State) (s' : State) : Request → Except StoreError Reply → Prop where
  | nothing (r : Request) (out : Except StoreError Reply) (hdb : s'.db = s.db)
      (hout : ∀ reply, out = .ok reply → ∃ event, reply = .appended event) : Does s s' r out
  | quarantines (r : Request) (error : StoreError) (sessionId : String)
      (hsick : ¬ Healthy host sessionId s.db) (hdb : s'.db = updateHead sessionId .quarantine s.db) :
      Does s s' r (.error error)
  | stores (p : Process) (req : AppendRequest) (head : SessionHead) (row : EventRow)
      (hgrant : assertGrant req.grant req.now s.db = .ok ())
      (happ : Appended host req s.db s'.db head row) :
      Does s s' (.append p req) (.ok (.appended row.payload))
  | acquires (p : Process) (sessionId ownerId : String) (ttlSeconds : ℤ) (now : Time) (grant : LeaseGrant)
      (htx : acquireTx sessionId ownerId ttlSeconds now s.db = .ok (grant, s'.db)) :
      Does s s' (.acquire p sessionId ownerId ttlSeconds now) (.ok (.granted grant))
  | renews (p : Process) (old grant : LeaseGrant) (ttlSeconds : ℤ) (now : Time)
      (htx : renewTx old ttlSeconds now s.db = .ok (grant, s'.db)) :
      Does s s' (.renew p old ttlSeconds now) (.ok (.granted grant))
  | releases (grant : LeaseGrant) (stamp : Time) (htx : releaseTx grant stamp s.db = .ok ((), s'.db)) :
      Does s s' (.release grant stamp) (.ok .released)

variable (host) in
lemma requireHealthyJournal_cases (p : Process) (sessionId : String) (s : State) :
    requireHealthyJournal host p sessionId s = (.ok (), s) ∨
    requireHealthyJournal host p sessionId s = (.error .journalQuarantined, s) ∨
    (¬ Healthy host sessionId s.db ∧ requireHealthyJournal host p sessionId s =
      (.error .journalQuarantined, { remember p sessionId s with db := updateHead sessionId .quarantine s.db })) := by
  unfold requireHealthyJournal
  rcases hv : verifySnapshot host sessionId s.db with reason | result
  · refine .inr (.inr ⟨?_, rfl⟩)
    rintro ⟨result, hr⟩
    rw [hv] at hr
    cases hr
  · dsimp only
    split
    · exact .inr (.inl rfl)
    · exact .inl rfl

lemma commit_cases {τ : Type} (tx : Db → Except StoreError (τ × Db)) (s : State) :
    (∃ error, commit tx s = (.error error, s)) ∨
    ∃ a db, tx s.db = .ok (a, db) ∧ commit tx s = (.ok a, { s with db := db }) := by
  unfold commit
  rcases htx : tx s.db with error | ⟨a, db⟩
  · exact .inl ⟨error, rfl⟩
  · exact .inr ⟨a, db, rfl, rfl⟩

lemma does_granted {p : Process} {sessionId : String} {tx : Db → Except StoreError (LeaseGrant × Db)} {s : State} {r : Request}
    (hdoes : ∀ grant db, tx s.db = .ok (grant, db) → Does host s { s with db := db } r (.ok (.granted grant))) :
    let served : Except StoreError LeaseGrant × State := match requireHealthyJournal host p sessionId s with
      | (.error error, s) => (.error error, s)
      | (.ok _, s) => commit tx s
    Does host s served.2 r (served.1.map .granted) := by
  rcases requireHealthyJournal_cases host p sessionId s with h | h | ⟨hsick, h⟩ <;> rw [h]
  · dsimp only
    rcases commit_cases tx s with ⟨error, hc⟩ | ⟨grant, db, htx, hc⟩ <;> rw [hc]
    · exact .nothing _ _ rfl nofun
    · exact hdoes grant db htx
  · exact .nothing _ _ rfl nofun
  · exact .quarantines _ _ sessionId hsick rfl

lemma does_append (p : Process) (req : AppendRequest) (s : State) :
    Does host s (appendEvent host p req s).2 (.append p req)
      ((appendEvent host p req s).1.map .appended) := by
  unfold appendEvent
  split
  · exact .nothing _ _ rfl nofun
  · rcases commit_cases (appendTx host req) s with ⟨error, hc⟩ | ⟨event, db, htx, hc⟩
    · rw [hc]
      cases error <;> exact .nothing _ _ rfl nofun
    · rw [hc]
      obtain ⟨hgrant, rfl | ⟨head, row, happ, rfl⟩⟩ := appendTx_cases htx
      · refine .nothing _ _ rfl fun reply h => ⟨event, ?_⟩
        cases h
        rfl
      · exact .stores p req head row hgrant happ

lemma does_perform (s : State) (r : Request) :
    Does host s (perform host s r).2 r (perform host s r).1 := by
  cases r with
  | acquire p sessionId ownerId ttlSeconds now => exact does_granted fun grant db htx => .acquires p sessionId ownerId ttlSeconds now grant htx
  | renew p grant ttlSeconds now => exact does_granted fun grant' db htx => .renews p grant grant' ttlSeconds now htx
  | release grant stamp =>
    change Does host s (releaseLease grant stamp s).2 _ ((releaseLease grant stamp s).1.map fun _ => .released)
    unfold releaseLease
    rcases commit_cases (releaseTx grant stamp) s with ⟨error, hc⟩ | ⟨_, db, htx, hc⟩
    · rw [hc]
      exact .nothing _ _ rfl nofun
    · rw [hc]
      exact .releases grant stamp htx
  | append p req => exact does_append p req s

def levels (w : World) : List Db := w.state.db :: w.saved

abbrev Step := Entry World Action (Option (Except StoreError Reply))

variable (host) in
abbrev history (actions : List Action) : List Step := trace (step host) .initial actions

def Accepts (e : Step) (req : AppendRequest) : Prop :=
  ∃ p event, e.action = .request (.append p req) ∧ e.outcome = some (.ok (.appended event))

def Stores (e : Step) (req : AppendRequest) : Prop :=
  Accepts e req ∧ e.before.state.db.events.length < e.after.state.db.events.length

structure OnlyLeases (db db' : Db) : Prop where
  events : db'.events = db.events
  heads : db'.heads = db.heads
  queue : db'.queue = db.queue

lemma onlyLeases_acquire {ownerId : String} {ttlSeconds : ℤ} {now : Time} {db db' : Db}
    (h : acquireTx sessionId ownerId ttlSeconds now db = .ok (grant, db')) :
    OnlyLeases db db' := by
  unfold acquireTx at h
  dsimp only at h
  split at h
  · cases h
  · cases h
    exact ⟨rfl, rfl, rfl⟩

lemma onlyLeases_renew {old : LeaseGrant} {ttlSeconds : ℤ} {now : Time} {db db' : Db}
    (h : renewTx old ttlSeconds now db = .ok (grant, db')) : OnlyLeases db db' := by
  unfold renewTx at h
  split at h
  · cases h
  · split at h
    · cases h
    · split at h
      · cases h
      · cases h
        exact ⟨rfl, rfl, rfl⟩

lemma onlyLeases_release {stamp : Time} {db db' : Db}
    (h : releaseTx grant stamp db = .ok ((), db')) : OnlyLeases db db' := by
  unfold releaseTx at h
  split at h
  · cases h
  · split at h
    · cases h
    · cases h
      exact ⟨rfl, rfl, rfl⟩

lemma ordered_onlyLeases {db db' : Db} (h : Ordered db) (ho : OnlyLeases db db') : Ordered db' := by
  obtain ⟨hevents, hheads, -⟩ := ho
  refine ⟨?_, ?_⟩
  · rw [hevents]
    exact h.sorted
  · rw [hevents]
    unfold head?
    rw [hheads]
    exact h.bounded

lemma healthy_onlyLeases {db db' : Db} (ho : OnlyLeases db db')
    (h : Healthy host sessionId db) : Healthy host sessionId db' := by
  obtain ⟨hevents, hheads, -⟩ := ho
  unfold Healthy verifySnapshot head? eventsOf at h ⊢
  rw [hevents, hheads]
  exact h

lemma ordered_quarantine {db : Db} (h : Ordered db) (sessionId : String) :
    Ordered (updateHead sessionId .quarantine db) where
  sorted := h.sorted
  bounded r hr := by
    obtain ⟨head, hhead, hle⟩ := h.bounded r hr
    change ∃ head', lookup SessionHead.sessionId (updateWhere _ _ db.heads) r.sessionId = some head' ∧ _
    rw [lookup_updateWhere quarantine_sessionId,
      show lookup SessionHead.sessionId db.heads r.sessionId = some head from hhead]
    refine ⟨_, rfl, ?_⟩
    dsimp only
    split
    · exact hle
    · exact hle

variable {r : Request}

lemma ordered_does {s s' : State} {out : Except StoreError Reply} (h : Ordered s.db)
    (hd : Does host s s' r out) : Ordered s'.db := by
  cases hd with
  | nothing _ _ hdb => rwa [hdb]
  | quarantines _ _ sessionId _ hdb =>
    rw [hdb]
    exact ordered_quarantine h sessionId
  | stores _ _ _ _ _ happ => exact ordered_append h happ
  | acquires _ _ _ _ _ _ htx => exact ordered_onlyLeases h (onlyLeases_acquire htx)
  | renews _ _ _ _ _ htx => exact ordered_onlyLeases h (onlyLeases_renew htx)
  | releases _ _ htx => exact ordered_onlyLeases h (onlyLeases_release htx)

lemma healthy_does {s s' : State} {out : Except StoreError Reply} (h : Ordered s.db)
    (hall : ∀ sessionId, Healthy host sessionId s.db) (hd : Does host s s' r out)
    (hclean : ∀ p req event, r = .append p req → out = .ok (.appended event) →
      s.db.events.length < s'.db.events.length → clean req.payload = true) (sessionId : String) :
    Healthy host sessionId s'.db := by
  cases hd with
  | nothing _ _ hdb =>
    rw [hdb]
    exact hall sessionId
  | quarantines _ _ sick hsick => exact absurd (hall sick) hsick
  | stores p req head row _ happ =>
    by_cases hs : sessionId = req.sessionId
    · subst hs
      refine (healthy_append h happ).2 ⟨hall _, hclean p req _ rfl rfl ?_⟩
      rw [happ.events, List.length_append]
      exact Nat.lt_succ_self _
    · exact (healthy_other h happ hs).2 (hall sessionId)
  | acquires _ _ _ _ _ _ htx => exact healthy_onlyLeases (onlyLeases_acquire htx) (hall sessionId)
  | renews _ _ _ _ _ htx => exact healthy_onlyLeases (onlyLeases_renew htx) (hall sessionId)
  | releases _ _ htx => exact healthy_onlyLeases (onlyLeases_release htx) (hall sessionId)

lemma levels_step {P : Db → Prop} (w : World) (a : Action) (h : ∀ db ∈ levels w, P db)
    (hrequest : ∀ r, a = .request r → P (perform host w.state r).2.db) :
    ∀ db ∈ levels (step host w a).2, P db := by
  cases a with
  | request r =>
    intro db hdb
    rcases List.mem_cons.1 hdb with rfl | hdb
    · exact hrequest r rfl
    · exact h db (List.mem_cons_of_mem _ hdb)
  | enter =>
    intro db hdb
    rcases List.mem_cons.1 hdb with rfl | hdb
    · exact h _ (List.mem_cons_self ..)
    · exact h db hdb
  | leave raised =>
    unfold step
    rcases hs : w.saved with _ | ⟨saved, rest⟩
    · exact h
    · have hsaved : ∀ db ∈ saved :: rest, P db := fun db hdb =>
        h db (List.mem_cons_of_mem _ (by rw [hs]; exact hdb))
      intro db hdb
      rcases List.mem_cons.1 hdb with rfl | hdb
      · cases raised
        · exact h _ (List.mem_cons_self ..)
        · exact hsaved _ (List.mem_cons_self ..)
      · exact hsaved db (List.mem_cons_of_mem _ hdb)

lemma ordered_step (w : World) (a : Action) (h : ∀ db ∈ levels w, Ordered db) :
    ∀ db ∈ levels (step host w a).2, Ordered db :=
  levels_step w a h fun r _ => ordered_does (h _ (List.mem_cons_self ..)) (does_perform w.state r)

lemma ordered_empty : Ordered .empty := ⟨fun _ => List.Pairwise.nil, nofun⟩

lemma healthy_empty (sessionId : String) : Healthy host sessionId .empty := ⟨(0, ""), rfl⟩

lemma does_of_entry {actions : List Action} {e : Step} (he : e ∈ history host actions)
    (ha : e.action = .request r) : ∃ out, e.outcome = some out ∧
      Does host e.before.state e.after.state r out := by
  have hentry := entry_eq_of_mem he
  rw [ha] at hentry
  rw [hentry]
  exact ⟨_, rfl, does_perform _ r⟩

variable (host) in
/-- In a run, every accepted append leaves its session healthy, at every level of the
    open blocks, exactly when every event the run stores has a clean payload. -/
theorem healthy_iff_clean (actions : List Action) :
    (∀ e ∈ history host actions, ∀ req, Accepts e req →
      ∀ db ∈ levels e.after, Healthy host req.sessionId db) ↔
    ∀ e ∈ history host actions, ∀ req, Stores e req → clean req.payload = true := by
  constructor
  · intro h e he req hs
    obtain ⟨hacc, hlen⟩ := hs
    have hordered := ((@invariant _ _ _ (step host) (fun w => ∀ db ∈ levels w, Ordered db)
      (fun w a h => ordered_step w a h) .initial actions (by
        intro db hdb
        obtain rfl : db = .empty := List.mem_singleton.1 hdb
        exact ordered_empty)).1 e he).1
    have hafter := h e he req hacc _ (List.mem_cons_self ..)
    obtain ⟨p, event, ha, ho⟩ := hacc
    obtain ⟨out, hout, hd⟩ := does_of_entry he ha
    cases hd with
    | nothing _ _ hdb =>
      rw [hdb] at hlen
      exact absurd hlen (lt_irrefl _)
    | quarantines _ _ _ _ hdb =>
      rw [hdb] at hlen
      exact absurd hlen (lt_irrefl _)
    | stores _ _ _ _ _ happ =>
      exact ((healthy_append (hordered _ (List.mem_cons_self ..)) happ).1 hafter).2
  · intro h e he req hacc db hdb
    refine ((@invariant_of _ _ _ (step host)
      (fun w => (∀ db ∈ levels w, Ordered db) ∧ ∀ db ∈ levels w, ∀ sessionId, Healthy host sessionId db)
      (fun e => ∀ req, Stores e req → clean req.payload = true) ?_ .initial actions ?_ h).1 e he).2.2
        db hdb req.sessionId
    · rintro w a ⟨hordered, hhealthy⟩ hclean
      refine ⟨ordered_step w a hordered, levels_step w a hhealthy fun r hr => ?_⟩
      subst hr
      refine healthy_does (hordered _ (List.mem_cons_self ..)) (hhealthy _ (List.mem_cons_self ..))
        (does_perform w.state r) fun p req event hr hout hlen => ?_
      subst hr
      exact hclean req ⟨⟨p, event, rfl, congrArg some hout⟩, hlen⟩
    · refine ⟨fun db hdb => ?_, fun db hdb sessionId => ?_⟩
      · obtain rfl : db = .empty := List.mem_singleton.1 hdb
        exact ordered_empty
      · obtain rfl : db = .empty := List.mem_singleton.1 hdb
        exact healthy_empty sessionId

def plainHost : Host where
  sha256 text := text
  encode d := String.intercalate "," (d.map Prod.fst)
  repr _ := "None"
  parseInt _ := .error (.raised "ValueError")
  bind v := match v with
    | .str s => .ok s
    | _ => .error (.raised "InterfaceError")
  projectActivity _ _ := .ok none

def namelessRun : AppendRequest where
  sessionId := "session"
  payload := [("event_type", .str "activity.updated"), ("run_id", .str "")]
  grant := none
  idempotencyKey := none
  eventVersion := 1
  now := 0
  stamp := "2026-01-01T00:00:00Z"
  eventId := "event-1"
  refusal := none

/-- The empty `run_id` is stored as no run at all in the column, and as an empty text in
    the JSON. -/
theorem nameless_run_accepted : ¬ ∀ (host : Host) (actions : List Action), ∀ e ∈ history host actions,
    ∀ req, Accepts e req → ∀ db ∈ levels e.after, Healthy host req.sessionId db := by
  intro h
  have hsick : verifySnapshot plainHost "session"
      (step plainHost .initial (.request (.append 0 namelessRun))).2.state.db =
        .error (.eventIdentityMismatch 1) := by decide +kernel
  obtain ⟨result, hr⟩ := h plainHost [.request (.append 0 namelessRun)] _ (List.mem_singleton_self _)
    namelessRun ⟨0, _, rfl, rfl⟩ _ (List.mem_cons_self ..)
  rw [show namelessRun.sessionId = "session" from rfl, entry_after, hsick] at hr
  cases hr

end PromptForge.Store
