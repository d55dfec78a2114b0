import PromptForge.JournalHealth
import PromptForge.JsonTextLaws

/-! # Healthy journals with one head -/

namespace PromptForge.Store
open Runs Tables Json JsonText

def writing (style : Style) (host : Host) : Host := { host with encode := fun d => dumps style (.obj d) }

def sanitized (payload : Dict) : Dict :=
  (((payload.erase "event_checksum").erase "previous_checksum").erase "sequence").erase "session_seq"

variable (host : Host)

def hashed : String → List EventRow → List String
  | _, [] => []
  | previous, row :: rows => host.encode (sanitized row.payload) :: (previous ++ row.payloadHash) ::
      hashed row.eventChecksum rows

def CollisionFree (texts : List String) : Prop :=
  ∀ s ∈ texts, ∀ t ∈ texts, host.sha256 s = host.sha256 t → s = t

structure Agree (row row' : EventRow) : Prop where
  payload : same (.obj row.payload) (.obj row'.payload) = true
  sessionId : row.sessionId = row'.sessionId
  sequence : row.sequence = row'.sequence
  eventType : row.eventType = row'.eventType
  runId : row.runId = row'.runId
  nodeId : row.nodeId = row'.nodeId
  eventId : row.eventId = row'.eventId
  eventVersion : row.eventVersion = row'.eventVersion
  previousChecksum : row.previousChecksum = row'.previousChecksum
  eventChecksum : row.eventChecksum = row'.eventChecksum
  payloadHash : row.payloadHash = row'.payloadHash

lemma column_of_isText {v w : Value} {s t : Option String} (h : same v w = true)
    (hv : isText v s = true) (hw : isText w t = true) : s = t := by
  unfold isText at hv hw
  split at hv
  · split at hw
    · rfl
    · cases h
    · cases hw
  · split at hw
    · cases h
    · obtain rfl := of_decide_eq_true hv
      obtain rfl := of_decide_eq_true hw
      exact congrArg some (of_decide_eq_true h)
    · cases hw
  · cases hv

lemma same_str (s : String) : same (.str s) (.str s) = true := decide_eq_true rfl

lemma same_number {v w : Value} {q : ℚ} (hv : number? v = some q) (hw : number? w = some q) :
    same v w = true := by
  cases v <;> cases w <;> simp_all [number?, same]

lemma same_of_isInt {v w : Value} {n : ℤ} (hv : isInt v n = true) (hw : isInt w n = true) :
    same v w = true := same_number (of_decide_eq_true hv) (of_decide_eq_true hw)

lemma number_of_same {v w : Value} (h : same v w = true) {p q : ℚ} (hv : number? v = some p)
    (hw : number? w = some q) : p = q := by
  cases v <;> cases w <;> simp_all [number?, same]

lemma column_of_isInt {v w : Value} {n m : ℤ} (h : same v w = true) (hv : isInt v n = true)
    (hw : isInt w m = true) : n = m := by
  have := number_of_same h (of_decide_eq_true hv) (of_decide_eq_true hw)
  exact_mod_cast this

variable {d : Dict}

lemma get?_of_isText {k s : String} (h : isText (d.get k) (some s) = true) :
    d.get? k = some (.str s) := by
  unfold Dict.get at h
  rcases hd : d.get? k with _ | v
  · rw [hd] at h
    cases h
  · rw [hd] at h
    cases v with
    | str t => exact congrArg (fun t => some (Value.str t)) (of_decide_eq_true h)
    | _ => cases h

lemma get?_of_isInt {k : String} {n : ℤ} (h : isInt (d.get k) n = true) :
    d.get? k = some (d.get k) := by
  unfold Dict.get at h ⊢
  rcases hd : d.get? k with _ | v
  · rw [hd] at h
    cases h
  · rfl

lemma nodup_erase (h : (d.map Prod.fst).Nodup) (k : String) :
    ((d.erase k).map Prod.fst).Nodup := nodup_deleteRow h k

lemma proper_erase (h : Proper (.obj d)) (k : String) : Proper (.obj (d.erase k)) :=
  ⟨nodup_erase h.1 k, properEntries_iff.2 fun e he =>
    properEntries_iff.1 h.2 e (List.mem_of_mem_filter he)⟩

lemma proper_sanitized (h : Proper (.obj d)) : Proper (.obj (sanitized d)) :=
  proper_erase (proper_erase (proper_erase (proper_erase h _) _) _) _

variable {sessionId : String}

lemma same_payload {sessionId' : String} {row row' : EventRow}
    (hp : (row.payload.map Prod.fst).Nodup) (hp' : (row'.payload.map Prod.fst).Nodup)
    (hid : sameIdentity sessionId row = true) (hid' : sameIdentity sessionId' row' = true)
    (hsequence : row.sequence = row'.sequence) (hprevious : row.previousChecksum = row'.previousChecksum)
    (hchecksum : row.eventChecksum = row'.eventChecksum)
    (h : same (.obj (sanitized row.payload)) (.obj (sanitized row'.payload)) = true) :
    same (.obj row.payload) (.obj row'.payload) = true := by
  unfold sameIdentity at hid hid'
  simp only [Bool.and_eq_true] at hid hid'
  obtain ⟨⟨⟨⟨⟨⟨⟨⟨⟨-, hseq⟩, hsession⟩, -⟩, -⟩, -⟩, -⟩, -⟩, hprev⟩, hcheck⟩ := hid
  obtain ⟨⟨⟨⟨⟨⟨⟨⟨⟨-, hseq'⟩, hsession'⟩, -⟩, -⟩, -⟩, -⟩, -⟩, hprev'⟩, hcheck'⟩ := hid'
  rw [← hsequence] at hseq' hsession'
  rw [← hprevious] at hprev'
  rw [← hchecksum] at hcheck'
  have h1 := nodup_erase hp "event_checksum"
  have h1' := nodup_erase hp' "event_checksum"
  have h2 := nodup_erase h1 "previous_checksum"
  have h2' := nodup_erase h1' "previous_checksum"
  have h3 := nodup_erase h2 "sequence"
  have h3' := nodup_erase h2' "sequence"
  have hkept (d : Dict) : (((d.erase "event_checksum").erase "previous_checksum").erase "sequence").get?
      "session_seq" = d.get? "session_seq" := by
    rw [Dict.get?_erase, if_neg (by decide), Dict.get?_erase, if_neg (by decide), Dict.get?_erase,
      if_neg (by decide)]
  have hkept' (d : Dict) : ((d.erase "event_checksum").erase "previous_checksum").get? "sequence" =
      d.get? "sequence" := by
    rw [Dict.get?_erase, if_neg (by decide), Dict.get?_erase, if_neg (by decide)]
  have hkept'' (d : Dict) : (d.erase "event_checksum").get? "previous_checksum" =
      d.get? "previous_checksum" := by
    rw [Dict.get?_erase, if_neg (by decide)]
  have hthree := same_of_erase h3 h3' ((hkept _).trans (get?_of_isInt hsession))
    ((hkept _).trans (get?_of_isInt hsession')) (same_of_isInt hsession hsession') h
  have htwo := same_of_erase h2 h2' ((hkept' _).trans (get?_of_isInt hseq))
    ((hkept' _).trans (get?_of_isInt hseq')) (same_of_isInt hseq hseq') hthree
  have hone := same_of_erase h1 h1' ((hkept'' _).trans (get?_of_isText hprev))
    ((hkept'' _).trans (get?_of_isText hprev')) (same_str _) htwo
  exact same_of_erase hp hp' (get?_of_isText hcheck) (get?_of_isText hcheck') (same_str _) hone

lemma same_dumps_symm {style : Style} {v w : Value} (hv : Proper v) (hw : Proper w)
    (h : dumps style v = dumps style w) : same v w = true ∧ same w v = true :=
  ⟨same_of_dumps style hv hw h, same_of_dumps style hw hv h.symm⟩

lemma agree_of_same_payload {sessionId' : String} {row row' : EventRow}
    (hs : row.sessionId = sessionId) (hs' : row'.sessionId = sessionId')
    (hid : sameIdentity sessionId row = true) (hid' : sameIdentity sessionId' row' = true)
    (hsequence : row.sequence = row'.sequence) (hprevious : row.previousChecksum = row'.previousChecksum)
    (hchecksum : row.eventChecksum = row'.eventChecksum) (hhash : row.payloadHash = row'.payloadHash)
    (h : same (.obj row.payload) (.obj row'.payload) = true)
    (h' : same (.obj row'.payload) (.obj row.payload) = true) : Agree row row' := by
  unfold sameIdentity at hid hid'
  simp only [Bool.and_eq_true] at hid hid'
  obtain ⟨⟨⟨⟨⟨⟨⟨⟨⟨hsession, -⟩, -⟩, heventId⟩, hversion⟩, hrun⟩, hnode⟩, htype⟩, -⟩, -⟩ := hid
  obtain ⟨⟨⟨⟨⟨⟨⟨⟨⟨hsession', -⟩, -⟩, heventId'⟩, hversion'⟩, hrun'⟩, hnode'⟩, htype'⟩, -⟩, -⟩ := hid'
  have hget (k : String) : same (row.payload.get k) (row'.payload.get k) = true := same_getD h h' k rfl
  refine ⟨h, ?_, hsequence, ?_, ?_, ?_, ?_, ?_, hprevious, hchecksum, hhash⟩
  · rw [hs, hs']
    exact Option.some.inj (column_of_isText (hget _) hsession hsession')
  · exact Option.some.inj (column_of_isText (same_getD h h' _ (same_str _)) htype htype')
  · exact column_of_isText (hget _) hrun hrun'
  · exact column_of_isText (hget _) hnode hnode'
  · exact Option.some.inj (column_of_isText (hget _) heventId heventId')
  · exact column_of_isInt (hget _) hversion hversion'

lemma append_inj_of_length {s s' t t' : String} (h : s ++ t = s' ++ t') (hlen : t.length = t'.length) :
    s = s' ∧ t = t' := by
  have hlist := congrArg String.toList h
  rw [String.toList_append, String.toList_append] at hlist
  obtain ⟨hs, ht⟩ := List.append_inj' hlist (by rwa [String.length_toList, String.length_toList])
  exact ⟨String.toList_inj.1 hs, String.toList_inj.1 ht⟩

variable {host}

variable {previous : String} {rows : List EventRow} {result : ℕ × String}

lemma verifyChain_cons {n : ℕ} {row : EventRow}
    (h : verifyChain host sessionId n previous (row :: rows) = .ok result) :
    verifyRow host sessionId (n + 1) previous row = .ok row.eventChecksum ∧
      verifyChain host sessionId (n + 1) row.eventChecksum rows = .ok result := by
  unfold verifyChain at h
  rcases hrow : verifyRow host sessionId (n + 1) previous row with reason | checksum
  · rw [hrow] at h
    cases h
  · rw [hrow] at h
    obtain ⟨-, -, -, -, -, rfl⟩ := verifyRow_ok.1 hrow
    exact ⟨rfl, h⟩

lemma verifyChain_count {n : ℕ}
    (h : verifyChain host sessionId n previous rows = .ok result) :
    result.1 = n + rows.length := by
  induction rows generalizing n previous with
  | nil =>
    cases h
    rfl
  | cons row rows ih =>
    have := ih (verifyChain_cons h).2
    rw [List.length_cons]
    omega

lemma collisionFree_tail {texts texts' kept kept' : List String}
    (h : CollisionFree host (texts ++ texts')) (hsub : ∀ t ∈ kept, t ∈ texts)
    (hsub' : ∀ t ∈ kept', t ∈ texts') : CollisionFree host (kept ++ kept') := by
  have hmem (t : String) (ht : t ∈ kept ++ kept') : t ∈ texts ++ texts' := by
    rcases List.mem_append.1 ht with ht | ht
    · exact List.mem_append_left _ (hsub t ht)
    · exact List.mem_append_right _ (hsub' t ht)
  exact fun s hs t ht => h s (hmem s hs) t (hmem t ht)

variable (host) (style : Style)

lemma chain_agree (hlength : ∀ text, (host.sha256 text).length = 64) {sessionId' : String}
    {n : ℕ} {previous' : String} {rows' : List EventRow}
    (hrows : ∀ row ∈ rows, row.sessionId = sessionId ∧ Proper (.obj row.payload))
    (hrows' : ∀ row ∈ rows', row.sessionId = sessionId' ∧ Proper (.obj row.payload))
    (hfree : CollisionFree (writing style host)
      (hashed (writing style host) previous rows ++ hashed (writing style host) previous' rows'))
    (h : verifyChain (writing style host) sessionId n previous rows = .ok result)
    (h' : verifyChain (writing style host) sessionId' n previous' rows' = .ok result) :
    previous = previous' ∧ List.Forall₂ Agree rows rows' := by
  have hcount := verifyChain_count h
  have hcount' := verifyChain_count h'
  induction rows generalizing n previous previous' rows' with
  | nil =>
    obtain rfl : rows' = [] := List.length_eq_zero_iff.1 (by rw [List.length_nil] at hcount; omega)
    cases h
    cases h'
    exact ⟨rfl, .nil⟩
  | cons row rows ih =>
    obtain ⟨row', rows', rfl⟩ : ∃ row' rest, rows' = row' :: rest := by
      refine List.exists_cons_of_ne_nil fun hnil => ?_
      rw [hnil, List.length_nil] at hcount'
      rw [List.length_cons] at hcount
      omega
    obtain ⟨hrow, hchain⟩ := verifyChain_cons h
    obtain ⟨hrow', hchain'⟩ := verifyChain_cons h'
    obtain ⟨⟨hsession, hproper⟩, hrows⟩ := List.forall_mem_cons.1 hrows
    obtain ⟨⟨hsession', hproper'⟩, hrows'⟩ := List.forall_mem_cons.1 hrows'
    have hkept (t : String) {u v : String} {texts : List String} (ht : t ∈ texts) : t ∈ u :: v :: texts :=
      List.mem_cons_of_mem _ (List.mem_cons_of_mem _ ht)
    obtain ⟨hchecksum, hagree⟩ := ih hrows hrows' (collisionFree_tail hfree (fun t => hkept t)
      fun t => hkept t) hchain hchain' (verifyChain_count hchain) (verifyChain_count hchain')
    obtain ⟨hseq, hprev, hhash, hid, hsum, -⟩ := verifyRow_ok.1 hrow
    obtain ⟨hseq', hprev', hhash', hid', hsum', -⟩ := verifyRow_ok.1 hrow'
    have hsequence : row.sequence = row'.sequence := hseq.trans hseq'.symm
    have htext : previous ++ row.payloadHash = previous' ++ row'.payloadHash := by
      refine hfree _ (by simp [hashed]) _ (by simp [hashed]) ?_
      rw [hsum, hsum', hchecksum]
    obtain ⟨hprevious, hdigest⟩ := append_inj_of_length htext (by
      rw [← hhash, ← hhash']
      exact (hlength _).trans (hlength _).symm)
    have hencoded : dumps style (.obj (sanitized row.payload)) =
        dumps style (.obj (sanitized row'.payload)) := by
      refine hfree _ (by simp [hashed, writing]) _ (by simp [hashed, writing]) ?_
      rw [← hhash, ← hhash'] at hdigest
      exact hdigest
    have hcolumn : row.previousChecksum = row'.previousChecksum := by rw [hprev, hprev', hprevious]
    obtain ⟨hsane, hsane'⟩ := same_dumps_symm (proper_sanitized hproper) (proper_sanitized hproper') hencoded
    refine ⟨hprevious, .cons ?_ hagree⟩
    exact agree_of_same_payload hsession hsession' hid hid' hsequence hcolumn hchecksum hdigest
      (same_payload hproper.1 hproper'.1 hid hid' hsequence hcolumn hchecksum hsane)
      (same_payload hproper'.1 hproper.1 hid' hid hsequence.symm hcolumn.symm hchecksum.symm hsane')

variable {host} in
lemma verifyChain_of_snapshot {db : Db}
    (h : verifySnapshot host sessionId db = .ok result) :
    verifyChain host sessionId 0 "" (eventsOf db sessionId) = .ok result := by
  unfold verifySnapshot at h
  dsimp only at h
  split at h
  · cases h
  · split at h
    · cases h
    · next hchain =>
      rw [hchain]
      split at h
      · split at h
        · cases h
        · exact h
      · split at h
        · cases h
        · exact h

variable {host} in
lemma verifySnapshot_ok {db : Db} {head : SessionHead}
    (hhead : head? db sessionId = some head) (hhealth : head.health = .healthy)
    (h : verifyChain host sessionId 0 "" (eventsOf db sessionId) = .ok (head.lastSequence, head.lastChecksum)) :
    verifySnapshot host sessionId db = .ok (head.lastSequence, head.lastChecksum) := by
  unfold verifySnapshot
  rw [hhead, h]
  simp [hhealth]

variable {host} in
lemma verifyChain_single {checksum : String} {row : EventRow}
    (h : verifyRow host sessionId 1 "" row = .ok checksum) :
    verifyChain host sessionId 0 "" [row] = .ok (1, checksum) := by
  unfold verifyChain
  rw [h]
  rfl

def Decoded (payload : Dict) : Prop := ∃ text, loads text = some (.obj payload)

/-- Two healthy journals with one head hold the same events, one by one. -/
theorem same_head_same_events (hlength : ∀ text, (host.sha256 text).length = 64)
    {db db' : Db} {sessionId sessionId' : String} {head : ℕ × String}
    (hdecoded : ∀ row ∈ eventsOf db sessionId, Decoded row.payload)
    (hdecoded' : ∀ row ∈ eventsOf db' sessionId', Decoded row.payload)
    (hfree : CollisionFree (writing style host) (hashed (writing style host) "" (eventsOf db sessionId) ++
      hashed (writing style host) "" (eventsOf db' sessionId')))
    (h : verifySnapshot (writing style host) sessionId db = .ok head)
    (h' : verifySnapshot (writing style host) sessionId' db' = .ok head) :
    List.Forall₂ Agree (eventsOf db sessionId) (eventsOf db' sessionId') := by
  have hrows {db : Db} {sessionId : String} (hdecoded : ∀ row ∈ eventsOf db sessionId, Decoded row.payload) :
      ∀ row ∈ eventsOf db sessionId, row.sessionId = sessionId ∧ Proper (.obj row.payload) := by
    intro row hrow
    obtain ⟨text, htext⟩ := hdecoded row hrow
    have hmem := (List.mem_insertionSort _).1 hrow
    exact ⟨of_decide_eq_true (List.mem_filter.1 hmem).2, proper_loads htext⟩
  exact (chain_agree host style hlength (hrows hdecoded) (hrows hdecoded') hfree
    (verifyChain_of_snapshot h) (verifyChain_of_snapshot h')).2

def kindDigest (text : String) : String :=
  String.ofList (List.replicate 64 (if text.toList.head? = some '{' then '0' else '1'))

lemma length_kindDigest (text : String) : (kindDigest text).length = 64 := by
  unfold kindDigest
  rw [String.length_ofList, List.length_replicate]

def digestHost : Host := { plainHost with sha256 := kindDigest }

def compactStyle : Style := exactStyle [] blank_nil

def payloadDigest : String := String.ofList (List.replicate 64 '0')

def loneChecksum : String := String.ofList (List.replicate 64 '1')

def lonePayload : Dict := [("session_id", .str "session"), ("sequence", .int 1), ("session_seq", .int 1),
  ("event_id", .str "event-1"), ("event_version", .int 1), ("previous_checksum", .str ""),
  ("event_checksum", .str loneChecksum)]

def loneRow (idempotencyKey : Option String) : EventRow where
  sessionId := "session"
  sequence := 1
  runId := none
  nodeId := none
  eventType := "activity.updated"
  payload := lonePayload
  createdAt := "2026-01-01T00:00:00Z"
  eventId := "event-1"
  eventVersion := 1
  leaseEpoch := 0
  idempotencyKey := idempotencyKey
  previousChecksum := ""
  eventChecksum := loneChecksum
  payloadHash := payloadDigest

def loneJournal (idempotencyKey : Option String) : Db :=
  { Db.empty with events := [loneRow idempotencyKey], heads := [⟨"session", 1, loneChecksum, .healthy⟩] }

lemma eventsOf_loneJournal (key : Option String) :
    eventsOf (loneJournal key) "session" = (loneJournal key).events := by
  change List.insertionSort _ (List.filter _ [_]) = _
  rw [List.filter_cons_of_pos (by rfl)]
  rfl

lemma decoded_lonePayload : Decoded lonePayload :=
  ⟨_, loads_write compactStyle ⟨by decide, trivial, trivial, trivial, trivial, trivial, trivial, trivial, trivial⟩⟩

lemma kindDigest_dumps (style : Style) (d : Dict) : kindDigest (dumps style (.obj d)) = payloadDigest := by
  unfold kindDigest dumps
  rw [String.toList_ofList]
  rfl

lemma kindDigest_payloadDigest : kindDigest ("" ++ payloadDigest) = loneChecksum := by
  unfold kindDigest payloadDigest
  rw [String.empty_append, String.toList_ofList]
  rfl

lemma verify_loneJournal (key : Option String) :
    verifySnapshot (writing compactStyle digestHost) "session" (loneJournal key) = .ok (1, loneChecksum) := by
  have hhash : payloadHash (writing compactStyle digestHost) lonePayload = payloadDigest :=
    kindDigest_dumps compactStyle (sanitized lonePayload)
  have hid : sameIdentity "session" (loneRow key) = true := by
    change sameIdentity "session" (loneRow none) = true
    decide +kernel
  have hrow : verifyRow (writing compactStyle digestHost) "session" 1 "" (loneRow key) = .ok loneChecksum :=
    verifyRow_ok.2 ⟨rfl, rfl, hhash, hid, kindDigest_payloadDigest, rfl⟩
  refine verifySnapshot_ok (show head? (loneJournal key) "session" = some ⟨"session", 1, loneChecksum, .healthy⟩ from rfl) rfl ?_
  rw [eventsOf_loneJournal]
  exact verifyChain_single hrow

lemma collisionFree_loneJournal (key key' : Option String) :
    CollisionFree (writing compactStyle digestHost)
      (hashed (writing compactStyle digestHost) "" (eventsOf (loneJournal key) "session") ++
        hashed (writing compactStyle digestHost) "" (eventsOf (loneJournal key') "session")) := by
  have hne : kindDigest (dumps compactStyle (.obj (sanitized lonePayload))) ≠
      kindDigest ("" ++ payloadDigest) := by
    rw [kindDigest_dumps, kindDigest_payloadDigest]
    decide +kernel
  rw [eventsOf_loneJournal, eventsOf_loneJournal]
  have hkind (s : String) (hs : s ∈ hashed (writing compactStyle digestHost) "" [loneRow none] ++
      hashed (writing compactStyle digestHost) "" [loneRow none]) :
      s = dumps compactStyle (.obj (sanitized lonePayload)) ∨ s = "" ++ payloadDigest := by
    rcases List.mem_append.1 hs with hs | hs
    · exact List.mem_pair.1 hs
    · exact List.mem_pair.1 hs
  intro s hs t ht heq
  rcases hkind s hs with rfl | rfl
  · rcases hkind t ht with rfl | rfl
    · rfl
    · exact absurd heq hne
  · rcases hkind t ht with rfl | rfl
    · exact absurd heq.symm hne
    · rfl

lemma decoded_loneJournal (key : Option String) :
    ∀ row ∈ eventsOf (loneJournal key) "session", Decoded row.payload := by
  rw [eventsOf_loneJournal]
  exact List.forall_mem_singleton.2 decoded_lonePayload

theorem same_head_same_events_key : List.Forall₂ Agree (eventsOf (loneJournal none) "session")
    (eventsOf (loneJournal (some "key")) "session") := by
  exact same_head_same_events digestHost compactStyle length_kindDigest (decoded_loneJournal none)
    (decoded_loneJournal (some "key")) (collisionFree_loneJournal none (some "key")) (verify_loneJournal none)
    (verify_loneJournal (some "key"))

/-- An edit of the key that an event was stored under is not seen. -/
theorem idempotency_key_unverified : ¬ ∀ (host : Host) (style : Style) (db db' : Db) (sessionId : String)
    (head : ℕ × String), (∀ text, (host.sha256 text).length = 64) →
    (∀ row ∈ eventsOf db sessionId, Decoded row.payload) →
    (∀ row ∈ eventsOf db' sessionId, Decoded row.payload) →
    CollisionFree (writing style host) (hashed (writing style host) "" (eventsOf db sessionId) ++
      hashed (writing style host) "" (eventsOf db' sessionId)) →
    verifySnapshot (writing style host) sessionId db = .ok head →
    verifySnapshot (writing style host) sessionId db' = .ok head →
    eventsOf db sessionId = eventsOf db' sessionId := by
  intro h
  have hevents := h digestHost compactStyle (loneJournal none) (loneJournal (some "key")) "session"
    (1, loneChecksum) length_kindDigest (decoded_loneJournal none) (decoded_loneJournal (some "key"))
    (collisionFree_loneJournal none (some "key")) (verify_loneJournal none) (verify_loneJournal (some "key"))
  rw [eventsOf_loneJournal, eventsOf_loneJournal] at hevents
  have hkey := congrArg (List.map EventRow.idempotencyKey) hevents
  cases hkey

end PromptForge.Store
