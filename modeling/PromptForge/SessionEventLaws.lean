import PromptForge.JsValuesLaws
import PromptForge.SessionEvents

namespace PromptForge.SessionEvents
open Runs JsValues Numbers

variable {host : Host}

def readBack (host : Host) (event : Value) : Value := ofJson (decoded host.engine event)

def fields (host : Host) (request : Request) (draw : Draw) (events : List Value) : List (String × Value) :=
  draft host request draw events ++ [("checksum", .str (checksum host (.obj (draft host request draw events))))]

lemma signed_draft (request : Request) (draw : Draw) (events : List Value) :
    signed host (draft host request draw events) = .obj (fields host request draw events) := rfl

variable {request : Request} {draw : Draw} {events : List Value}

lemma proper_count (n : ℕ) : Proper (count n) := nearest_nearest n

lemma properDefined_runValue (runId : Option String) : Proper (runValue runId) ∧ Defined (runValue runId) := by
  cases runId with
  | none => exact ⟨trivial, trivial⟩
  | some id => exact ⟨trivial, trivial⟩

lemma proper_fields {previous : String} (hprevious : previousChecksum events = .str previous) (hd : Defined request.payload) :
    Proper (.obj (fields host request draw events)) ∧ Defined (.obj (fields host request draw events)) := by
  have names : ∀ e ∈ fields host request draw events, isIndex e = false := by
    intro e he
    have hkeys : ∀ k ∈ ["schemaVersion", "eventId", "sessionId", "runId", "sequence", "timestamp", "type", "payload",
      "previousChecksum", "checksum"], (index? k).isSome = false := by decide
    exact hkeys e.1 (List.mem_map_of_mem (f := Prod.fst) he)
  have keys : ((fields host request draw events).map Prod.fst).Nodup := by
    change ["schemaVersion", "eventId", "sessionId", "runId", "sequence", "timestamp", "type", "payload",
      "previousChecksum", "checksum"].Nodup
    decide
  obtain ⟨hrun, hrun'⟩ := properDefined_runValue request.runId
  refine ⟨⟨keys, propertyOrder_of_names names, ?_⟩, ?_⟩
  · rw [fields, draft, hprevious]
    exact ⟨proper_count 1, trivial, trivial, hrun, proper_count _, trivial, trivial, request.proper, trivial, trivial, trivial⟩
  · rw [fields, draft, hprevious]
    exact ⟨trivial, trivial, trivial, hrun', trivial, trivial, trivial, hd, trivial, trivial, trivial⟩

lemma unsigned_fields : unsigned (.obj (fields host request draw events)) = .obj (draft host request draw events) := by
  simp [unsigned, fields, draft]

lemma checksum_readBack (hengine : host.engine.Documented) {entries : List (String × Value)} (hv : Proper (.obj entries))
    (hd : Defined (.obj entries)) : checksum host (unsigned (readBack host (.obj entries))) = checksum host (unsigned (.obj entries)) := by
  have htext := canonical_filter_settled hengine hv hd fun k => decide (k ≠ "checksum")
  unfold checksum readBack
  rw [ofJson_decoded_obj, unsigned, unsigned, htext]

lemma member_readBack {k : String} {v : Value} (h : (fields host request draw events).lookup k = some v) :
    (readBack host (signed host (draft host request draw events))).member k = readBack host v := by
  have hkeys : ((fields host request draw events).map Prod.fst).Nodup := by
    change ["schemaVersion", "eventId", "sessionId", "runId", "sequence", "timestamp", "type", "payload",
      "previousChecksum", "checksum"].Nodup
    decide
  exact member_settled host.engine hkeys h

lemma readBack_count (hengine : host.engine.Documented) (n : ℕ) : readBack host (count n) = count n :=
  (reads_number hengine (nearest_nearest n)).2

lemma strictEq_count (n : ℕ) : (count n).strictEq (count n) = true := by simp [count, Value.strictEq]

lemma strictEq_str (s : String) : (Value.str s).strictEq (.str s) = true := by simp [Value.strictEq]

lemma follows_readBack (hengine : host.engine.Documented) {previous : String} (hprevious : previousChecksum events = .str previous)
    (hd : Defined request.payload) (index : ℕ) :
    Follows host request.sessionId ⟨events, previous, index⟩ (readBack host (signed host (draft host request draw events))) := by
  obtain ⟨hproper, hdefined⟩ := @proper_fields host request draw events previous hprevious hd
  refine ⟨?_, ?_, ?_, ?_, ?_⟩
  · rw [member_readBack (k := "schemaVersion") rfl, readBack_count hengine]
    exact strictEq_count 1
  · rw [member_readBack (k := "sessionId") rfl]
    exact strictEq_str _
  · rw [member_readBack (k := "sequence") rfl, readBack_count hengine]
    exact strictEq_count _
  · rw [member_readBack (k := "previousChecksum") rfl, hprevious]
    exact strictEq_str _
  · rw [member_readBack (k := "checksum") rfl, signed_draft, checksum_readBack hengine hproper hdefined, unsigned_fields]
    exact strictEq_str _

structure Made (host : Host) (sessionId : String) (before : List Entry) (entry : Entry) (draw : Draw) : Prop where
  session : entry.request.sessionId = sessionId
  type : isEventType entry.request.type = true
  defined : Defined entry.request.payload
  event : entry.event = signed host (draft host entry.request draw (before.map fun e => readBack host e.event))
  fresh : ∀ e ∈ before, ((readBack host e.event).member "eventId").strictEq (.str (eventIdOf host entry.request draw)) = false

inductive Log (host : Host) (sessionId : String) : List Entry → Prop where
  | nil : Log host sessionId []
  | snoc {entries : List Entry} {entry : Entry} {draw : Draw} (hlog : Log host sessionId entries)
      (hmade : Made host sessionId entries entry draw) : Log host sessionId (entries ++ [entry])

def eventsOf (host : Host) (entries : List Entry) : List Value := entries.map fun e => readBack host e.event

def fileOf (host : Host) (entries : List Entry) : List Char := entries.flatMap fun e => lineOf host e.event

def lastChecksum (host : Host) (entries : List Entry) : String :=
  (entries.getLast?.map fun e => checksum host (unsigned (readBack host e.event))).getD genesis

section
variable {sessionId : String} {entries : List Entry} {entry : Entry}

lemma eventsOf_concat (entries : List Entry) (entry : Entry) :
    eventsOf host (entries ++ [entry]) = eventsOf host entries ++ [readBack host entry.event] := by
  simp [eventsOf]

lemma lastChecksum_concat (entries : List Entry) (entry : Entry) :
    lastChecksum host (entries ++ [entry]) = checksum host (unsigned (readBack host entry.event)) := by
  simp [lastChecksum]

lemma Log.previous (hengine : host.engine.Documented) (h : Log host sessionId entries) :
    previousChecksum (eventsOf host entries) = .str (lastChecksum host entries) := by
  induction h with
  | nil => rfl
  | @snoc entries entry draw hlog hmade ih =>
    obtain ⟨hproper, hdefined⟩ := @proper_fields host entry.request draw _ _ ih hmade.defined
    have hlast : previousChecksum (eventsOf host (entries ++ [entry])) = (readBack host entry.event).member "checksum" := by
      simp [previousChecksum, eventsOf_concat]
    have hmember := @member_readBack host entry.request draw (eventsOf host entries) "checksum" _ rfl
    rw [hlast, lastChecksum_concat, hmade.event]
    refine hmember.trans ?_
    change _ = Value.str (checksum host (unsigned (readBack host (.obj (fields host entry.request draw (eventsOf host entries))))))
    rw [checksum_readBack hengine hproper hdefined, unsigned_fields]
    rfl

lemma Made.line (hengine : host.engine.Documented) (hlog : Log host sessionId entries) (h : Made host sessionId entries entry draw) :
    ∃ text, lineOf host entry.event = text ++ ['\n'] ∧ text ≠ [] ∧ (∀ c ∈ text, InLine c) ∧
      parse text = some (readBack host entry.event) := by
  obtain ⟨hproper, hdefined⟩ := @proper_fields host entry.request draw _ _ (hlog.previous hengine) h.defined
  obtain ⟨text, htext, hreads⟩ := reads_canonical hengine _ hproper hdefined
  obtain ⟨c, tail, hstart, _⟩ := hreads.starts
  rw [h.event, signed_draft]
  change canonical host.engine (.obj (fields host entry.request draw (eventsOf host entries))) = some text at htext
  refine ⟨text, ?_, ?_, inLine_canonical hengine _ hproper hdefined text htext, parse_of_reads hreads⟩
  · unfold lineOf
    change (canonical host.engine (.obj (fields host entry.request draw (eventsOf host entries)))).getD [] ++ ['\n'] = _
    rw [htext]
    rfl
  · rw [hstart]
    exact List.cons_ne_nil _ _

lemma Made.read (hengine : host.engine.Documented) (hlog : Log host sessionId entries) (h : Made host sessionId entries entry draw)
    {text : List Char} (hne : text ≠ []) (hparse : parse text = some (readBack host entry.event)) (index : ℕ) :
    readLine host sessionId ⟨eventsOf host entries, lastChecksum host entries, index⟩ text =
      .ok ⟨eventsOf host (entries ++ [entry]), lastChecksum host (entries ++ [entry]), index + 1⟩ := by
  have hfollows := @follows_readBack host entry.request draw _ hengine _ (hlog.previous hengine) h.defined index
  rw [h.session] at hfollows
  have hevent : readBack host entry.event = readBack host (signed host (draft host entry.request draw (eventsOf host entries))) :=
    congrArg (readBack host) h.event
  rw [← hevent] at hfollows
  have hobject : isNull (readBack host entry.event) = false := by
    rw [hevent, signed_draft, readBack, ofJson_decoded_obj]
    rfl
  rw [readLine, if_neg hne, hparse]
  change (require (isNull (readBack host entry.event) = false) Refusal.typeError >>= fun _ => _) = _
  rw [require_bind hobject, require_bind hfollows, eventsOf_concat, lastChecksum_concat]
  rfl

lemma lines_flatMap {texts : List (List Char)} (h : ∀ text ∈ texts, ∀ c ∈ text, InLine c) :
    lines (texts.flatMap (· ++ ['\n'])) = texts ++ [[]] := by
  have parts : (texts.flatMap (· ++ ['\n'])).splitOnP (· == '\n') = texts ++ [[]] := by
    induction texts with
    | nil => rfl
    | cons text texts ih =>
      have htext : ∀ c ∈ text, (c == '\n') = false := fun c hc => by simpa using (h text List.mem_cons_self c hc).1
      rw [List.flatMap_cons, List.append_assoc, List.singleton_append, List.splitOnP_append_cons _ _ (by rfl),
        List.splitOnP_eq_singleton htext, ih fun t ht => h t (List.mem_cons_of_mem _ ht)]
      rfl
  have whole : texts.map dropReturn = texts := by
    refine (List.map_congr_left fun text ht => ?_).trans (List.map_id texts)
    unfold dropReturn
    split
    · rename_i hlast
      exact absurd rfl (h text ht '\r' (List.mem_of_getLast? hlast)).2
    · rfl
  rw [lines, parts]
  simp [whole]

lemma Log.reading (hengine : host.engine.Documented) (h : Log host sessionId entries) :
    ∃ texts : List (List Char), fileOf host entries = texts.flatMap (· ++ ['\n']) ∧ (∀ text ∈ texts, ∀ c ∈ text, InLine c) ∧
      texts.foldlM (readLine host sessionId) ⟨[], genesis, 0⟩ =
        .ok ⟨eventsOf host entries, lastChecksum host entries, entries.length⟩ := by
  induction h with
  | nil => exact ⟨[], rfl, fun text ht => absurd ht List.not_mem_nil, rfl⟩
  | @snoc entries entry draw hlog hmade ih =>
    obtain ⟨texts, hfile, hline, hread⟩ := ih
    obtain ⟨text, htext, hne, hinline, hparse⟩ := hmade.line hengine hlog
    refine ⟨texts ++ [text], ?_, fun t ht => ?_, ?_⟩
    · rw [List.flatMap_append, ← hfile]
      simp [fileOf, htext]
    · cases List.mem_append.mp ht with
      | inl older => exact hline t older
      | inr last => exact List.mem_singleton.mp last ▸ hinline
    · rw [List.foldlM_append, hread]
      change readLine host sessionId ⟨eventsOf host entries, lastChecksum host entries, entries.length⟩ text >>= _ = _
      rw [hmade.read hengine hlog hne hparse]
      simp [List.foldlM, pure, Except.pure, bind, Except.bind]

lemma Log.read (hengine : host.engine.Documented) (h : Log host sessionId entries) :
    read host sessionId (fileOf host entries) = .ok (eventsOf host entries) := by
  obtain ⟨texts, hfile, hline, hread⟩ := h.reading hengine
  rw [SessionEvents.read, hfile, lines_flatMap hline, List.foldlM_append, hread]
  rfl

end

end PromptForge.SessionEvents
