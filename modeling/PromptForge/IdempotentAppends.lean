import PromptForge.LeaseFencing

/-!
# Appends under an idempotency key

A repeated append is recognised by its digest: the payload of the call is
compared with the event that the key's first call stored, which the store has
given an identity, times, a lease epoch and an activity record in between.
-/
namespace PromptForge.Store
open Runs Tables Json

section Idempotency
variable (host : Host)

abbrev keyed? (db : Db) (sessionId key : String) : Option EventRow :=
  db.events.find? fun r => decide (r.sessionId = sessionId ∧ r.idempotencyKey = some key)

def SamePayload (payload payload' : Dict) : Prop := host.encode payload = host.encode payload'

/-- `_payload_hash` does not tell the payload from the stored event. -/
def Recognised (payload event : Dict) : Prop := payloadHash host payload = payloadHash host event

def AppendsFirst (e : Grab) (sessionId key : String) (payload event : Dict) : Prop :=
  ∃ p req, e.action = .append p req ∧ req.sessionId = sessionId ∧ req.idempotencyKey = some key ∧
    req.payload = payload ∧ keyed? e.before.db sessionId key = none ∧ e.outcome = .ok (.appended event)

/-- An append of the key that the session is open for: its process has not seen the session
    quarantined, and its grant stands. -/
def AppendsAgain (e : Grab) (sessionId key : String) (payload : Dict) : Prop :=
  ∃ p req, e.action = .append p req ∧ req.sessionId = sessionId ∧ req.idempotencyKey = some key ∧
    req.payload = payload ∧ isQuarantined p sessionId e.before = false ∧
    assertGrant req.grant req.now e.before.db = .ok ()

structure Idempotent (es : List Grab) : Prop where
  one : ∀ e ∈ es, ∀ sessionId key, (e.after.db.events.filter fun r =>
    decide (r.sessionId = sessionId ∧ r.idempotencyKey = some key)).length ≤ 1
  same : es.Pairwise fun e e' => ∀ sessionId key payload payload' event,
    AppendsFirst e sessionId key payload event → AppendsAgain e' sessionId key payload' →
    SamePayload host payload payload' → e'.outcome = .ok (.appended event) ∧ e'.after = e'.before
  different : es.Pairwise fun e e' => ∀ sessionId key payload payload' event,
    AppendsFirst e sessionId key payload event → AppendsAgain e' sessionId key payload' →
    ¬ SamePayload host payload payload' → e'.outcome = .error .idempotencyConflict ∧ e'.after = e'.before

variable {host}

lemma payloadHash_candidate (payload : Dict) :
    payloadHash host ((payload.erase "sequence").erase "session_seq") = payloadHash host payload := by
  unfold payloadHash Dict.erase deleteRow
  simp only [List.filter_filter]
  congr 2
  apply List.filter_congr
  intro entry _
  cases decide (entry.1 ≠ "sequence") <;> cases decide (entry.1 ≠ "session_seq") <;> simp

variable {req : AppendRequest} {key : String} {row : EventRow}

lemma existingEvent_of_keyed {db : Db}
    (hkey : req.idempotencyKey = some key) (hne : key ≠ "") (hrow : keyed? db req.sessionId key = some row) :
    existingEvent host req db =
      if payloadHash host req.payload = row.payloadHash then .ok (some row.payload)
      else .error .idempotencyConflict := by
  unfold existingEvent
  rw [hkey]
  simp only [if_neg hne]
  rw [show db.events.find? (fun r => decide (r.sessionId = req.sessionId ∧ r.idempotencyKey = some key)) =
    some row from hrow]
  simp only [payloadHash_candidate]
  by_cases h : payloadHash host req.payload = row.payloadHash <;> simp [h]

lemma appendEvent_of_keyed {p : Process} {s : State}
    (hopen : isQuarantined p req.sessionId s = false) (hgrant : assertGrant req.grant req.now s.db = .ok ())
    (hkey : req.idempotencyKey = some key) (hne : key ≠ "") (hrow : keyed? s.db req.sessionId key = some row) :
    appendEvent host p req s =
      if payloadHash host req.payload = row.payloadHash then (.ok row.payload, s)
      else (.error .idempotencyConflict, s) := by
  have htx : appendTx host req s.db =
      if payloadHash host req.payload = row.payloadHash then .ok (row.payload, s.db)
      else .error .idempotencyConflict := by
    unfold appendTx
    rw [hgrant, existingEvent_of_keyed hkey hne hrow]
    split <;> rfl
  unfold appendEvent commit
  simp only [hopen, Bool.false_eq_true, if_false, htx]
  by_cases h : payloadHash host req.payload = row.payloadHash <;> simp [h]

variable {event : Dict}

lemma eventRow_key {head : SessionHead} {eventId : String} {eventVersion : ℤ}
    (h : eventRow host req head eventId eventVersion event = .ok row) :
    row.sessionId = req.sessionId ∧ row.idempotencyKey = req.idempotencyKey := by
  obtain ⟨leaseEpoch, -, h⟩ := ok_of_bind h
  cases h
  exact ⟨rfl, rfl⟩

/-- The row that an append adds to the journal, and the unique index of its key. -/
structure Added (req : AppendRequest) (db db' : Db) (row : EventRow) : Prop where
  session : row.sessionId = req.sessionId
  key : row.idempotencyKey = req.idempotencyKey
  events : db'.events = db.events ++ [row]
  fresh : ∀ r ∈ db.events, row.idempotencyKey.isSome = true →
    ¬ (r.sessionId = row.sessionId ∧ r.idempotencyKey = row.idempotencyKey)

lemma appendNew_added {db db' : Db}
    (h : appendNew host req db = .ok (event, db')) :
    ∃ row, Added req db db' row ∧ event = row.payload := by
  obtain ⟨⟨head, opened⟩, hopen, h⟩ := ok_of_bind h
  obtain ⟨eventVersion, -, h⟩ := ok_of_bind h
  obtain ⟨enriched, -, h⟩ := ok_of_bind h
  obtain ⟨row, hrow, h⟩ := ok_of_bind h
  obtain ⟨inserted, hinsert, h⟩ := ok_of_bind h
  obtain ⟨-, -, -, hevents, -, -⟩ := openHead_cases hopen
  obtain ⟨hsession, hkey⟩ := eventRow_key hrow
  unfold insertEvent at hinsert
  split at hinsert
  · cases hinsert
  · rename_i hunique
    cases hinsert
    split at h
    · cases h
    · cases h
      refine ⟨row, ⟨hsession, hkey, congrArg (· ++ [row]) hevents, fun r hr hsome hsame => hunique ?_⟩, rfl⟩
      refine List.any_eq_true.2 ⟨r, hevents ▸ hr, ?_⟩
      simp [hsome, hsame]

lemma keyed_of_existingEvent {db : Db}
    (h : existingEvent host req db = .ok (some event)) :
    ∃ key row, req.idempotencyKey = some key ∧ keyed? db req.sessionId key = some row := by
  unfold existingEvent at h
  split at h
  · cases h
  · rename_i key hkey
    split at h
    · cases h
    · split at h
      · cases h
      · rename_i row hrow
        exact ⟨key, row, hkey, hrow⟩

lemma appendTx_added {db db' : Db}
    (h : appendTx host req db = .ok (event, db')) :
    (db' = db ∧ ∃ key row, req.idempotencyKey = some key ∧ keyed? db req.sessionId key = some row) ∨
    ∃ row, Added req db db' row ∧ event = row.payload := by
  obtain ⟨_, -, h⟩ := ok_of_bind h
  obtain ⟨existing, hexisting, h⟩ := ok_of_bind h
  cases existing with
  | some event' =>
    cases h
    exact .inl ⟨rfl, keyed_of_existingEvent hexisting⟩
  | none => exact .inr (appendNew_added h)

def KeysApart (events : List EventRow) : Prop :=
  events.Pairwise fun r r' => r'.idempotencyKey.isSome = true →
    ¬ (r.sessionId = r'.sessionId ∧ r.idempotencyKey = r'.idempotencyKey)

/-- A request leaves the events, answering with one of them if it is an append, or adds one
    at the end whose key is new. -/
inductive Extends (host : Host) (s s' : State) (r : Request) (outcome : Except StoreError Reply) : Prop where
  | kept (hevents : s'.db.events = s.db.events)
      (hout : ∀ p req event, r = .append p req → outcome = .ok (.appended event) →
        ∃ key row, req.idempotencyKey = some key ∧ keyed? s.db req.sessionId key = some row)
  | added (p : Process) (req : AppendRequest) (row : EventRow) (hr : r = .append p req)
      (hadded : Added req s.db s'.db row) (hout : outcome = .ok (.appended row.payload))
      (hhash : payloadHash host row.payload = row.payloadHash)

lemma extends_append (p : Process) (req : AppendRequest) (s : State) :
    Extends host s (appendEvent host p req s).2 (.append p req)
      ((appendEvent host p req s).1.map .appended) := by
  unfold appendEvent
  split
  · refine .kept rfl fun _ _ _ _ hout => ?_
    cases hout
  · rcases commit_cases (appendTx host req) s with ⟨error, hc⟩ | ⟨event, db, htx, hc⟩
    · rw [hc]
      cases error <;> exact .kept rfl fun _ _ _ _ hout => by cases hout
    · rw [hc]
      obtain ⟨-, hcases⟩ := appendTx_cases htx
      rcases appendTx_added htx with ⟨hsame, hkeyed⟩ | ⟨row, hadded, hevent⟩
      · rw [hsame]
        refine .kept rfl fun p' req' event' hr _ => ?_
        cases hr
        exact hkeyed
      · rcases hcases with hsame | ⟨head, row', happ, hevent'⟩
        · have hlength := congrArg List.length hadded.events
          rw [hsame, List.length_append, List.length_singleton] at hlength
          omega
        · have hlist := happ.events.symm.trans hadded.events
          obtain rfl : row' = row := List.singleton_inj.1 (List.append_cancel_left hlist)
          exact .added p req row' rfl hadded (by rw [hevent]; rfl) happ.hash

lemma events_does {s s' : State} {r : Request} {out : Except StoreError Reply} (hd : Does host s s' r out)
    (hr : ∀ p req, r ≠ .append p req) : s'.db.events = s.db.events := by
  cases hd with
  | nothing _ _ hdb => rw [hdb]
  | quarantines _ _ _ _ hdb => rw [hdb]; rfl
  | stores p req => exact absurd rfl (hr p req)
  | acquires _ _ _ _ _ _ htx => exact (onlyLeases_acquire htx).events
  | renews _ _ _ _ _ htx => exact (onlyLeases_renew htx).events
  | releases _ _ htx => exact (onlyLeases_release htx).events

lemma extends_perform (s : State) (r : Request) :
    Extends host s (perform host s r).2 r (perform host s r).1 := by
  cases r with
  | append p req => exact extends_append p req s
  | acquire | renew | release =>
    refine .kept (events_does (does_perform s _) fun _ _ h => by cases h) fun _ _ _ h => ?_
    cases h

lemma keysApart_perform (s : State) (r : Request) (h : KeysApart s.db.events) :
    KeysApart (perform host s r).2.db.events := by
  cases @extends_perform host s r with
  | kept hevents => rwa [hevents]
  | added p req row hr hadded =>
    rw [hadded.events]
    refine List.pairwise_append.2 ⟨h, List.pairwise_singleton _ _, fun r hr r' hr' => ?_⟩
    rw [List.mem_singleton.1 hr']
    exact hadded.fresh r hr

lemma keyed_perform {s : State} {sessionId : String}
    (h : keyed? s.db sessionId key = some row) (r : Request) :
    keyed? (perform host s r).2.db sessionId key = some row := by
  cases @extends_perform host s r with
  | kept hevents => rwa [keyed?, hevents]
  | added p req row' hr hadded =>
    rw [keyed?, hadded.events, List.find?_append, show s.db.events.find? _ = some row from h]
    rfl

lemma length_keyed {events : List EventRow} (h : KeysApart events) (sessionId key : String) :
    (events.filter fun r => decide (r.sessionId = sessionId ∧ r.idempotencyKey = some key)).length ≤ 1 := by
  have hpair := h.filter fun r => decide (r.sessionId = sessionId ∧ r.idempotencyKey = some key)
  generalize hl : events.filter (fun r => decide (r.sessionId = sessionId ∧ r.idempotencyKey = some key)) = l
    at hpair
  have hmem : ∀ r ∈ l, r.sessionId = sessionId ∧ r.idempotencyKey = some key := by
    intro r hr
    rw [← hl] at hr
    exact of_decide_eq_true (List.mem_filter.1 hr).2
  cases l with
  | nil => exact Nat.zero_le 1
  | cons r l =>
    cases l with
    | nil => exact le_rfl
    | cons r' l =>
      obtain ⟨hs, hk⟩ := hmem r (List.mem_cons_self ..)
      obtain ⟨hs', hk'⟩ := hmem r' (List.mem_cons_of_mem _ (List.mem_cons_self ..))
      have hapart := (List.pairwise_cons.1 hpair).1 r' (List.mem_cons_self ..)
      exact absurd ⟨hs.trans hs'.symm, hk.trans hk'.symm⟩ (hapart (by rw [hk']; rfl))

variable {requests : List Request}

lemma extends_of_grab {e : Grab} (he : e ∈ sessions host requests) :
    Extends host e.before e.after e.action e.outcome := by
  rw [entry_eq_of_mem he]
  exact extends_perform _ _

lemma keyed_of_appendsFirst {e : Grab} (he : e ∈ sessions host requests)
    {sessionId : String} {payload : Dict} (h : AppendsFirst e sessionId key payload event) :
    ∃ row, keyed? e.after.db sessionId key = some row ∧ row.payload = event ∧
      payloadHash host event = row.payloadHash := by
  obtain ⟨p, req, ha, rfl, hkey, -, hnone, hout⟩ := h
  cases extends_of_grab he with
  | kept hevents hkept =>
    obtain ⟨key', row, hkey', hrow⟩ := hkept p req event ha hout
    rw [hkey] at hkey'
    rw [← Option.some.inj hkey', hnone] at hrow
    cases hrow
  | added p' req' row hr hadded hout' hhash =>
    rw [ha] at hr
    cases hr
    rw [hout] at hout'
    cases hout'
    refine ⟨row, ?_, rfl, hhash⟩
    rw [keyed?, hadded.events, List.find?_append, show e.before.db.events.find? _ = none from hnone, Option.none_or]
    simp [hadded.session, hadded.key, hkey]

lemma pairwise_keyed (requests : List Request) :
    (sessions host requests).Pairwise fun e e' => ∀ sessionId key row,
      keyed? e.after.db sessionId key = some row → keyed? e'.before.db sessionId key = some row :=
  @pairwise_of _ _ _ (perform host) (fun _ => True) (fun _ => True)
    (fun e s => ∀ sessionId key row, keyed? e.after.db sessionId key = some row →
      keyed? s.db sessionId key = some row) _
    (fun _ _ _ _ => trivial) (fun _ _ _ _ _ _ _ h => h)
    (fun _ _ r _ _ hk sessionId key row h => keyed_perform (hk sessionId key row h) r)
    (fun _ _ _ _ _ hk => hk) .initial requests trivial fun _ _ => trivial

lemma appendsAgain_spec {e e' : Grab} (he : e ∈ sessions host requests)
    (he' : e' ∈ sessions host requests)
    (hkept : ∀ sessionId key row, keyed? e.after.db sessionId key = some row →
      keyed? e'.before.db sessionId key = some row)
    {sessionId : String} {payload payload' : Dict} (hne : key ≠ "")
    (hfirst : AppendsFirst e sessionId key payload event) (hagain : AppendsAgain e' sessionId key payload') :
    (Recognised host payload' event ∧ e'.outcome = .ok (.appended event) ∧ e'.after = e'.before) ∨
    (¬ Recognised host payload' event ∧ e'.outcome = .error .idempotencyConflict ∧ e'.after = e'.before) := by
  obtain ⟨row, hrow, hevent, hhash⟩ := keyed_of_appendsFirst he hfirst
  replace hrow := hkept sessionId key row hrow
  obtain ⟨p, req, ha, rfl, hkey, rfl, hopen, hgrant⟩ := hagain
  have hentry := entry_eq_of_mem he'
  have hstep : perform host e'.before e'.action = answer .appended
      (if payloadHash host req.payload = row.payloadHash then (.ok row.payload, e'.before)
      else (.error .idempotencyConflict, e'.before)) := by
    rw [ha, ← appendEvent_of_keyed hopen hgrant hkey hne hrow]
    rfl
  rw [hentry]
  simp only [entry_outcome, entry_after, entry_before, hstep, Recognised, hhash]
  by_cases h : payloadHash host req.payload = row.payloadHash
  · rw [if_pos h]
    exact .inl ⟨h, by rw [← hevent]; rfl, rfl⟩
  · rw [if_neg h]
    exact .inr ⟨h, rfl, rfl⟩

/-- The empty text is no key to the store, and yet a key to its unique index. -/
def Named (requests : List Request) : Prop :=
  ∀ p req, Request.append p req ∈ requests → req.idempotencyKey ≠ some ""

variable (host) in
/-- Appends are idempotent exactly when the digests tell the payload of each repeated call
    from every payload but the first. -/
theorem idempotent_iff (requests : List Request) (hnamed : Named requests) :
    Idempotent host (sessions host requests) ↔
      (sessions host requests).Pairwise fun e e' => ∀ sessionId key payload payload' event,
        AppendsFirst e sessionId key payload event → AppendsAgain e' sessionId key payload' →
        (Recognised host payload' event ↔ SamePayload host payload payload') := by
  have hkeys : ∀ e ∈ sessions host requests, ∀ sessionId key payload event,
      AppendsFirst e sessionId key payload event → key ≠ "" := by
    intro e he sessionId key payload event ⟨p, req, ha, _, hkey, _⟩ hempty
    exact hnamed p req (ha ▸ action_mem he) (hempty ▸ hkey)
  have hkept := @pairwise_keyed host requests
  constructor
  · intro h
    refine List.Pairwise.imp_of_mem (fun {e e'} he he' hboth => ?_) (hkept.and (h.same.and h.different))
    obtain ⟨hk, hsame, hdifferent⟩ := hboth
    intro sessionId key payload payload' event hfirst hagain
    have hspec := appendsAgain_spec he he' hk (hkeys e he _ _ _ _ hfirst) hfirst hagain
    constructor
    · intro hrec
      by_contra hne
      obtain ⟨hconflict, -⟩ := hdifferent sessionId key payload payload' event hfirst hagain hne
      rcases hspec with ⟨-, hout, -⟩ | ⟨hnot, -⟩
      · rw [hconflict] at hout
        cases hout
      · exact hnot hrec
    · intro heq
      obtain ⟨hok, -⟩ := hsame sessionId key payload payload' event hfirst hagain heq
      rcases hspec with ⟨hrec, -⟩ | ⟨-, hout, -⟩
      · exact hrec
      · rw [hok] at hout
        cases hout
  · intro h
    constructor
    · intro e he sessionId key
      refine length_keyed ?_ sessionId key
      exact ((@invariant _ _ _ (perform host) (fun s => KeysApart s.db.events)
        (fun s r hs => keysApart_perform s r hs) .initial requests List.Pairwise.nil).1 e he).2
    · refine List.Pairwise.imp_of_mem (fun {e e'} he he' hboth => ?_) (hkept.and h)
      intro sessionId key payload payload' event hfirst hagain hsame
      rcases appendsAgain_spec he he' hboth.1 (hkeys e he _ _ _ _ hfirst) hfirst hagain with
        ⟨-, hspec⟩ | ⟨hnot, -⟩
      · exact hspec
      · exact absurd ((hboth.2 sessionId key payload payload' event hfirst hagain).2 hsame) hnot
    · refine List.Pairwise.imp_of_mem (fun {e e'} he he' hboth => ?_) (hkept.and h)
      intro sessionId key payload payload' event hfirst hagain hdifferent
      rcases appendsAgain_spec he he' hboth.1 (hkeys e he _ _ _ _ hfirst) hfirst hagain with
        ⟨hrec, -⟩ | ⟨-, hspec⟩
      · exact absurd ((hboth.2 sessionId key payload payload' event hfirst hagain).1 hrec) hdifferent
      · exact hspec

end Idempotency

def progress : AppendRequest where
  sessionId := "session"
  payload := [("event_type", .str "activity.updated")]
  grant := none
  idempotencyKey := some "key-1"
  eventVersion := 1
  now := 0
  stamp := "2026-01-01T00:00:00Z"
  eventId := "event-1"
  refusal := none

theorem twice_conflicts : ¬ ∀ (host : Host) (requests : List Request),
    Idempotent host (sessions host requests) := by
  intro h
  have hsame := (h plainHost [.append 0 progress, .append 0 progress]).same
  rw [sessions, trace_cons, trace_cons] at hsame
  have hpair := (List.pairwise_cons.1 hsame).1 _ (List.mem_cons_self ..) "session" "key-1" progress.payload
    progress.payload
  have hstored : (appendEvent plainHost 0 progress .initial).1.toOption.isSome = true := by decide +kernel
  have hrefused : (appendEvent plainHost 0 progress
      (appendEvent plainHost 0 progress .initial).2).1.toOption.isNone = true := by decide +kernel
  obtain ⟨event, hevent⟩ : ∃ event, (appendEvent plainHost 0 progress .initial).1 = .ok event := by
    cases hout : (appendEvent plainHost 0 progress .initial).1 with
    | error error =>
      rw [hout] at hstored
      cases hstored
    | ok event => exact ⟨event, rfl⟩
  have hfirst : AppendsFirst (entry (perform plainHost) .initial (.append 0 progress)) "session" "key-1"
      progress.payload event :=
    ⟨0, progress, rfl, rfl, rfl, rfl, rfl, congrArg (Except.map Reply.appended) hevent⟩
  have hagain : (appendEvent plainHost 0 progress (appendEvent plainHost 0 progress .initial).2).1.map
      Reply.appended = .ok (.appended event) :=
    (hpair event hfirst ⟨0, progress, rfl, rfl, rfl, rfl, rfl, rfl⟩ rfl).1
  cases hout : (appendEvent plainHost 0 progress (appendEvent plainHost 0 progress .initial).2).1 with
  | error error =>
    rw [hout] at hagain
    cases hagain
  | ok event' =>
    rw [hout] at hrefused
    cases hrefused

theorem idempotent_iff_twice :
    Idempotent plainHost (sessions plainHost [.append 0 progress, .append 0 progress]) ↔
      (sessions plainHost [.append 0 progress, .append 0 progress]).Pairwise fun e e' =>
        ∀ sessionId key payload payload' event, AppendsFirst e sessionId key payload event →
          AppendsAgain e' sessionId key payload' →
          (Recognised plainHost payload' event ↔ SamePayload plainHost payload payload') := by
  refine idempotent_iff plainHost _ fun p req hreq hkey => ?_
  simp only [List.mem_cons, List.not_mem_nil, or_false, or_self] at hreq
  cases hreq
  exact absurd hkey (by decide)

end PromptForge.Store
