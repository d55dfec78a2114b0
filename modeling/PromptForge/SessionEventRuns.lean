import PromptForge.SessionEventLaws

namespace PromptForge.SessionEvents
open Runs JsValues
open Store (crash inFlight step empty leftIn owned)

variable {host : Host} {sessionId : String} {entries : List Entry}

lemma Log.made_of_mem (h : Log host sessionId entries) {entry : Entry} (hmem : entry ∈ entries) :
    ∃ before draw, Log host sessionId before ∧ Made host sessionId before entry draw := by
  induction h with
  | nil => cases hmem
  | @snoc older last draw hlog hmade ih =>
    cases List.mem_append.mp hmem with
    | inl h => exact ih h
    | inr h => exact ⟨older, draw, hlog, List.mem_singleton.mp h ▸ hmade⟩

structure Carries (request : Request) (event : Value) : Prop where
  type : event.member "type" = .str request.type
  runId : event.member "runId" = runValue request.runId
  payload : Same (event.member "payload") request.payload

lemma readBack_runValue (runId : Option String) : readBack host (runValue runId) = runValue runId := by
  cases runId with
  | none => rfl
  | some id => rfl

lemma carries_signed (request : Request) (draw : Draw) (events : List Value) :
    Carries request (signed host (draft host request draw events)) := ⟨rfl, rfl, rfl⟩

section
variable {before : List Entry} {entry : Entry} {draw : Draw}

variable (h : Made host sessionId before entry draw)

include h in
lemma Made.carries : Carries entry.request entry.event := by
  rw [h.event]
  exact carries_signed ..

include h in
lemma Made.member_readBack {k : String} {v : Value}
    (hk : (fields host entry.request draw (eventsOf host before)).lookup k = some v) :
    (readBack host entry.event).member k = readBack host v := by
  rw [h.event]
  exact SessionEvents.member_readBack hk

include h in
lemma Made.readBack_type :
    (readBack host entry.event).member "type" = .str entry.request.type :=
  h.member_readBack (v := .str entry.request.type) rfl

include h in
lemma Made.readBack_runId :
    (readBack host entry.event).member "runId" = runValue entry.request.runId :=
  (h.member_readBack (k := "runId") rfl).trans (readBack_runValue _)

include h in
lemma Made.readBack_payload :
    (readBack host entry.event).member "payload" = readBack host entry.request.payload := h.member_readBack rfl

include h in
lemma Made.readBack_eventId :
    (readBack host entry.event).member "eventId" = .str (eventIdOf host entry.request draw) :=
  h.member_readBack (v := .str (eventIdOf host entry.request draw)) rfl

lemma Made.same (hengine : host.engine.Documented) (hlog : Log host sessionId before) (h : Made host sessionId before entry draw) :
    Same (readBack host entry.event) entry.event := by
  obtain ⟨hproper, hdefined⟩ := @proper_fields host entry.request draw _ _ (hlog.previous hengine) h.defined
  rw [h.event]
  exact same_settled hengine _ hproper hdefined

lemma strictEq_runValue {a b : Option String} (h : (runValue a).strictEq (runValue b) = true) : a = b := by
  cases a with
  | none => cases b with
    | none => rfl
    | some b => cases h
  | some a => cases b with
    | none => cases h
    | some b => simpa [runValue, Value.strictEq] using h

lemma Made.carries_of_repeats (hengine : host.engine.Documented) (h : Made host sessionId before entry draw) {request : Request}
    (hd : Defined request.payload) (hrepeats : Repeats host request (readBack host entry.event)) :
    Carries request (readBack host entry.event) := by
  obtain ⟨htype, hrun, hpayload⟩ := hrepeats
  rw [h.readBack_type] at htype
  rw [h.readBack_runId] at hrun
  rw [h.readBack_payload, readBack, canonical_settled hengine _ entry.request.proper h.defined] at hpayload
  refine ⟨?_, ?_, ?_⟩
  · rw [h.readBack_type]
    simpa [Value.strictEq] using htype
  · rw [h.readBack_runId, strictEq_runValue hrun]
  · rw [h.readBack_payload]
    exact (same_settled hengine _ entry.request.proper h.defined).trans
      (same_of_canonical hengine entry.request.proper h.defined request.proper hd hpayload)

lemma Made.repeats (hengine : host.engine.Documented) (h : Made host sessionId before entry draw) {request : Request}
    (htype : request.type = entry.request.type) (hrun : request.runId = entry.request.runId)
    (hpayload : request.payload = entry.request.payload) : Repeats host request (readBack host entry.event) := by
  refine ⟨?_, ?_, ?_⟩
  · rw [h.readBack_type, htype]
    exact strictEq_str _
  · rw [h.readBack_runId, hrun]
    cases entry.request.runId with
    | none => rfl
    | some id => exact strictEq_str id
  · rw [h.readBack_payload, hpayload]
    exact canonical_settled hengine _ entry.request.proper h.defined

end

lemma Log.find_operation (h : Log host sessionId entries) {entry : Entry} (hmem : entry ∈ entries) {operation : String}
    (hoperation : entry.request.operationId = some operation) (hne : operation ≠ "") :
    (eventsOf host entries).find? (fun event => (event.member "eventId").strictEq (.str (host.digest operation.toList))) =
      some (readBack host entry.event) := by
  induction h with
  | nil => cases hmem
  | @snoc older last draw hlog hmade ih =>
    rw [eventsOf_concat, List.find?_append]
    cases List.mem_append.mp hmem with
    | inl h => rw [ih h, Option.some_or]
    | inr h =>
      obtain rfl := List.mem_singleton.mp h
      have hid : eventIdOf host entry.request draw = host.digest operation.toList := by simp [eventIdOf, hoperation, hne]
      have hnone : (eventsOf host older).find? (fun event => (event.member "eventId").strictEq (.str (host.digest operation.toList))) =
          none := by
        refine List.find?_eq_none.mpr fun event hevent => ?_
        obtain ⟨e, he, rfl⟩ := List.mem_map.mp hevent
        have hfresh := hmade.fresh e he
        rw [hid] at hfresh
        simp [hfresh]
      rw [hnone, Option.none_or]
      simp [hmade.readBack_eventId, hid, strictEq_str]

variable {request : Request} {draw : Draw}

lemma appendOwned_log (hengine : host.engine.Documented) (h : Log host sessionId entries) (hsession : request.sessionId = sessionId)
    (htype : isEventType request.type = true) :
    appendOwned host (fileOf host entries) request draw = decision host request draw (eventsOf host entries) := by
  rw [appendOwned, require_bind htype, hsession, h.read hengine]
  rfl

lemma appendOwned_ok (hengine : host.engine.Documented) (h : Log host sessionId entries) (hsession : request.sessionId = sessionId)
    {outcome : Decision} (hok : appendOwned host (fileOf host entries) request draw = .ok outcome) :
    isEventType request.type = true ∧
      ((∃ entry ∈ entries, outcome = .saved (readBack host entry.event) ∧ Repeats host request (readBack host entry.event)) ∨
        outcome = .written (signed host (draft host request draw (eventsOf host entries))) ∧
          ∀ e ∈ entries, ((readBack host e.event).member "eventId").strictEq (.str (eventIdOf host request draw)) = false) := by
  obtain ⟨_, hrequire, _⟩ := ok_of_bind hok
  have htype := of_require hrequire
  rw [appendOwned_log hengine h hsession htype] at hok
  refine ⟨htype, ?_⟩
  unfold decision at hok
  split at hok
  · rename_i event hfind
    obtain ⟨_, hrepeats, hok⟩ := ok_of_bind hok
    obtain ⟨entry, hmem, rfl⟩ := List.mem_map.mp (List.mem_of_find?_eq_some hfind)
    cases hok
    exact .inl ⟨entry, hmem, rfl, of_require hrepeats⟩
  · rename_i hfind
    cases hok
    refine .inr ⟨rfl, fun e he => ?_⟩
    simpa using List.find?_eq_none.mp hfind _ (List.mem_map_of_mem he)

def Stage.Of (host : Host) (sessionId : String) (entries : List Entry) (request : Request) : Stage → Prop
  | .owning => True
  | .writing event => ∃ draw, Made host sessionId entries ⟨request, event⟩ draw
  | .written event => ⟨request, event⟩ ∈ entries

structure Sound (host : Host) (s : Store) (sessionId : String) : Prop where
  log : Log host sessionId (s.entries sessionId)
  file : s.files sessionId = fileOf host (s.entries sessionId)
  owner : ∀ owner, s.owners sessionId = some owner → owner.request.sessionId = sessionId ∧ Defined owner.request.payload ∧
    owner.stage.Of host sessionId (s.entries sessionId) owner.request
  /-- What was written is answered, or was cut off, or its append is about to answer. -/
  accounted : ∀ entry ∈ s.entries sessionId, ⟨entry.request, .ok entry.event⟩ ∈ s.answers ∨ entry ∈ s.cutOff sessionId ∨
    ∃ process, s.owners sessionId = some ⟨process, entry.request, .written entry.event⟩

def Answered (host : Host) (s : Store) (answer : Answer) : Prop :=
  ∀ event, answer.result = .ok event → Carries answer.request event ∧
    ∃ entry ∈ s.entries answer.request.sessionId, event = entry.event ∨ event = readBack host entry.event

structure Inv (host : Host) (s : Store) : Prop where
  sound : ∀ sessionId, Sound host s sessionId
  answered : ∀ answer ∈ s.answers, Answered host s answer

lemma inv_empty : Inv host empty :=
  ⟨fun _ => ⟨.nil, rfl, nofun, nofun⟩, nofun⟩

/-- The step meets what the log needs: payloads without `undefined`, and no torn line. -/
def Whole (host : Host) (e : Runs.Entry Store Step Unit) : Prop :=
  match e.action with
  | .append _ request => Defined request.payload
  | .crash process left => ∀ sessionId request event, e.before.owners sessionId = some ⟨process, request, .writing event⟩ →
    (left sessionId).text (lineOf host event) = [] ∨ (left sessionId).text (lineOf host event) = lineOf host event
  | _ => True

section
variable {s s' : Store}

lemma Sound.relock (h : Sound host s sessionId) (hfile : s'.files sessionId = s.files sessionId)
    (hentries : s'.entries sessionId = s.entries sessionId) (hcut : s'.cutOff sessionId = s.cutOff sessionId)
    (hanswers : ∀ answer ∈ s.answers, answer ∈ s'.answers)
    (howner : ∀ owner, s'.owners sessionId = some owner → owner.request.sessionId = sessionId ∧ Defined owner.request.payload ∧
      owner.stage.Of host sessionId (s.entries sessionId) owner.request)
    (hwritten : ∀ process request event, s.owners sessionId = some ⟨process, request, .written event⟩ →
      ⟨request, .ok event⟩ ∈ s'.answers ∨ s'.owners sessionId = s.owners sessionId) : Sound host s' sessionId := by
  refine ⟨hentries ▸ h.log, ?_, fun owner ho => ?_, fun entry he => ?_⟩
  · rw [hfile, hentries, h.file]
  · rw [hentries]
    exact howner owner ho
  · rw [hcut]
    rw [hentries] at he
    rcases h.accounted entry he with answered | cut | ⟨process, running⟩
    · exact .inl (hanswers _ answered)
    · exact .inr (.inl cut)
    · exact (hwritten process _ _ running).imp id fun hsame => .inr ⟨process, hsame.trans running⟩

lemma Sound.frame (h : Sound host s sessionId) (hfile : s'.files sessionId = s.files sessionId)
    (howner : s'.owners sessionId = s.owners sessionId) (hentries : s'.entries sessionId = s.entries sessionId)
    (hcut : s'.cutOff sessionId = s.cutOff sessionId) (hanswers : ∀ answer ∈ s.answers, answer ∈ s'.answers) :
    Sound host s' sessionId :=
  h.relock hfile hentries hcut hanswers (fun owner ho => h.owner owner (howner ▸ ho)) fun _ _ _ _ => .inr howner

lemma Answered.frame {answer : Answer} (h : Answered host s answer)
    (hentries : ∀ sessionId, ∀ entry ∈ s.entries sessionId, entry ∈ s'.entries sessionId) : Answered host s' answer := by
  intro event hevent
  obtain ⟨hcarries, entry, he, hsame⟩ := h event hevent
  exact ⟨hcarries, entry, hentries _ entry he, hsame⟩

lemma answered_error (request : Request) (refusal : Refusal) : Answered host s ⟨request, .error refusal⟩ := nofun

lemma Inv.of_session (h : Inv host s) (sessionId : String) (hsound : Sound host s' sessionId)
    (hothers : ∀ other, other ≠ sessionId → s'.files other = s.files other ∧ s'.owners other = s.owners other ∧
      s'.entries other = s.entries other ∧ s'.cutOff other = s.cutOff other)
    (hanswers : ∀ answer ∈ s.answers, answer ∈ s'.answers) (hanswered : ∀ answer ∈ s'.answers, Answered host s' answer) :
    Inv host s' := by
  refine ⟨fun other => ?_, hanswered⟩
  by_cases hother : other = sessionId
  · exact hother ▸ hsound
  · obtain ⟨hfile, howner, hentries, hcut⟩ := hothers other hother
    exact (h.sound other).frame hfile howner hentries hcut hanswers

end

section
variable {s : Store}

lemma Inv.answer (h : Inv host s) {request : Request} {result : Except Refusal Value} (hanswer : Answered host s ⟨request, result⟩) :
    Inv host (s.answer request result) := by
  refine ⟨fun id => (h.sound id).frame rfl rfl rfl rfl fun a ha => List.mem_append_left _ ha, fun answer ha => ?_⟩
  cases List.mem_append.mp ha with
  | inl older => exact h.answered answer older
  | inr last => exact List.mem_singleton.mp last ▸ hanswer

lemma Inv.relock (h : Inv host s) {sessionId : String} {owner : Option Owner}
    (howner : ∀ o, owner = some o → o.request.sessionId = sessionId ∧ Defined o.request.payload ∧
      o.stage.Of host sessionId (s.entries sessionId) o.request)
    (hwritten : ∀ process request event, s.owners sessionId ≠ some ⟨process, request, .written event⟩) :
    Inv host { s with owners := Function.update s.owners sessionId owner } := by
  refine h.of_session sessionId ?_ (fun other hother => ⟨rfl, Function.update_of_ne hother .., rfl, rfl⟩) (fun a ha => ha)
    fun answer ha => h.answered answer ha
  refine (h.sound sessionId).relock rfl rfl rfl (fun a ha => ha) (fun o ho => ?_) fun process request event hw =>
    absurd hw (hwritten process request event)
  have hself : Function.update s.owners sessionId owner sessionId = owner := Function.update_self ..
  exact howner o (hself.symm.trans ho)

lemma inv_append (h : Inv host s) {process : ℕ} {request : Request} (hd : Defined request.payload) :
    Inv host (s.append process request) := by
  unfold Store.append
  split
  · exact h.answer (answered_error _ _)
  · split
    · exact h.answer (answered_error _ _)
    · rename_i hfree
      refine h.relock (fun o ho => ?_) fun process' request' event hw => hfree (by rw [hw]; rfl)
      cases ho
      exact ⟨rfl, hd, trivial⟩

lemma inv_work (hengine : host.engine.Documented) (h : Inv host s) (sessionId : String) (draw : Draw) :
    Inv host (s.work host sessionId draw) := by
  unfold Store.work
  split
  · rename_i process request howner
    have hwritten : ∀ process' request' event, s.owners sessionId ≠ some ⟨process', request', .written event⟩ := by
      intro process' request' event hw
      rw [howner] at hw
      cases hw
    obtain ⟨hsession, hd, _⟩ := (h.sound sessionId).owner _ howner
    change request.sessionId = sessionId at hsession
    change Defined request.payload at hd
    have hlog := (h.sound sessionId).log
    have released : Inv host (s.release sessionId) := h.relock nofun hwritten
    rw [(h.sound sessionId).file]
    split
    · exact released.answer (answered_error _ _)
    · rename_i event hok
      obtain ⟨_, outcome⟩ := appendOwned_ok hengine hlog hsession hok
      rcases outcome with ⟨entry, he, hsaved, hrepeats⟩ | ⟨hwrite, _⟩
      · cases hsaved
        obtain ⟨before, draw', _, hmade⟩ := hlog.made_of_mem he
        refine released.answer fun event' hevent => ?_
        cases hevent
        refine ⟨hmade.carries_of_repeats hengine hd hrepeats, entry, ?_, .inr rfl⟩
        change entry ∈ s.entries request.sessionId
        rwa [hsession]
      · cases hwrite
    · rename_i event hok
      obtain ⟨htype, outcome⟩ := appendOwned_ok hengine hlog hsession hok
      rcases outcome with ⟨_, _, hsaved, _⟩ | ⟨hwrite, hfresh⟩
      · cases hsaved
      · cases hwrite
        refine h.relock (fun o ho => ?_) hwritten
        cases ho
        exact ⟨hsession, hd, draw, ⟨hsession, htype, hd, rfl, hfresh⟩⟩
  · exact h

lemma inv_write (h : Inv host s) (sessionId : String) : Inv host (s.write host sessionId) := by
  unfold Store.write
  split
  · rename_i process request event howner
    have sound := h.sound sessionId
    obtain ⟨hsession, hd, draw, hmade⟩ := sound.owner _ howner
    have hentries : (((s.record host sessionId ⟨request, event⟩).own sessionId ⟨process, request, .written event⟩).entries sessionId) =
        s.entries sessionId ++ [⟨request, event⟩] := Function.update_self ..
    have howner' : (((s.record host sessionId ⟨request, event⟩).own sessionId ⟨process, request, .written event⟩).owners sessionId) =
        some ⟨process, request, .written event⟩ := Function.update_self ..
    refine h.of_session sessionId ⟨?_, ?_, fun owner ho => ?_, fun entry he => ?_⟩
      (fun other hother => ⟨Function.update_of_ne hother .., Function.update_of_ne hother .., Function.update_of_ne hother .., rfl⟩)
      (fun a ha => ha) fun answer ha => (h.answered answer ha).frame fun id entry he => ?_
    · rw [hentries]
      exact sound.log.snoc hmade
    · rw [hentries]
      change Function.update s.files sessionId (s.files sessionId ++ lineOf host event) sessionId = _
      rw [Function.update_self, sound.file]
      simp [fileOf]
    · rw [howner'] at ho
      cases ho
      rw [hentries]
      exact ⟨hsession, hd, List.mem_append_right _ List.mem_cons_self⟩
    · rw [hentries] at he
      rw [howner']
      cases List.mem_append.mp he with
      | inl older =>
        rcases sound.accounted entry older with answered | cut | ⟨process', running⟩
        · exact .inl answered
        · exact .inr (.inl cut)
        · rw [howner] at running
          cases running
      | inr last =>
        obtain rfl := List.mem_singleton.mp last
        exact .inr (.inr ⟨process, rfl⟩)
    · by_cases hid : id = sessionId
      · subst hid
        rw [hentries]
        exact List.mem_append_left _ he
      · change entry ∈ Function.update s.entries sessionId _ id
        rwa [Function.update_of_ne hid]
  · exact h

lemma inv_finish (h : Inv host s) (sessionId : String) : Inv host (s.finish sessionId) := by
  unfold Store.finish
  split
  · rename_i process request event howner
    have sound := h.sound sessionId
    obtain ⟨hsession, _, hmem⟩ := sound.owner _ howner
    change request.sessionId = sessionId at hsession
    change ⟨request, event⟩ ∈ s.entries sessionId at hmem
    obtain ⟨before, draw, _, hmade⟩ := sound.log.made_of_mem hmem
    refine h.of_session sessionId ?_ (fun other hother => ⟨rfl, Function.update_of_ne hother .., rfl, rfl⟩)
      (fun a ha => List.mem_append_left _ ha) fun answer ha => ?_
    · refine sound.relock rfl rfl rfl (fun a ha => List.mem_append_left _ ha) (fun o ho => ?_) fun process' request' event' hw => ?_
      · have hself : Function.update s.owners sessionId none sessionId = none := Function.update_self ..
        cases hself.symm.trans ho
      · rw [howner] at hw
        cases hw
        exact .inl (List.mem_append_right _ List.mem_cons_self)
    · cases List.mem_append.mp ha with
      | inl older => exact h.answered answer older
      | inr last =>
        obtain rfl := List.mem_singleton.mp last
        intro event' hevent
        cases hevent
        refine ⟨hmade.carries, ⟨request, event⟩, ?_, .inl rfl⟩
        change _ ∈ s.entries request.sessionId
        rwa [hsession]
  · exact h

end

section
variable {s : Store} {process : ℕ} {left : String → Left}

lemma lineOf_ne_nil (event : Value) : lineOf host event ≠ [] := by simp [lineOf]

lemma Sound.crash_other (h : Sound host s sessionId) (hother : ∀ owner, s.owners sessionId = some owner → owner.process ≠ process) :
    Sound host (s.crash host process left) sessionId := by
  have hnothing : s.leftIn host process left sessionId = [] ∧ s.inFlight host process left sessionId = [] ∧
      s.owned process sessionId = [] := by
    unfold leftIn inFlight owned
    cases howner : s.owners sessionId with
    | none => exact ⟨rfl, rfl, rfl⟩
    | some owner =>
      obtain ⟨process', request, stage⟩ := owner
      have hne : process' ≠ process := hother _ howner
      cases stage <;> simp [hne]
  obtain ⟨hleft, hflight, howned⟩ := hnothing
  refine h.frame ?_ ?_ ?_ ?_ fun answer ha => ha
  · simp [crash, hleft]
  · change (s.owners sessionId).filter _ = s.owners sessionId
    cases howner : s.owners sessionId with
    | none => rfl
    | some owner => simp [hother owner howner]
  · simp [crash, hflight]
  · simp [crash, hflight, howned]

lemma Sound.crash_own (h : Sound host s sessionId) {owner : Owner} (howner : s.owners sessionId = some owner)
    (hprocess : owner.process = process)
    (hwhole : ∀ request event, s.owners sessionId = some ⟨process, request, .writing event⟩ →
      (left sessionId).text (lineOf host event) = [] ∨ (left sessionId).text (lineOf host event) = lineOf host event) :
    Sound host (s.crash host process left) sessionId := by
  obtain ⟨process', request, stage⟩ := owner
  obtain rfl : process' = process := hprocess
  have hfree : (s.crash host process' left).owners sessionId = none := by simp [crash, howner]
  have noOwner : ∀ owner, (s.crash host process' left).owners sessionId = some owner → owner.request.sessionId = sessionId ∧
      Defined owner.request.payload ∧ owner.stage.Of host sessionId ((s.crash host process' left).entries sessionId) owner.request := by
    intro owner ho
    rw [hfree] at ho
    cases ho
  obtain ⟨_, _, hstage⟩ := h.owner _ howner
  -- Only a written event is without an answer, and a crash keeps it as cut off.
  have kept : ∀ entry ∈ s.entries sessionId, (⟨entry.request, .ok entry.event⟩ ∈ s.answers ∨ entry ∈ s.cutOff sessionId) ∨
      stage = .written entry.event ∧ request = entry.request := by
    intro entry he
    rcases h.accounted entry he with answered | cut | ⟨other, running⟩
    · exact .inl (.inl answered)
    · exact .inl (.inr cut)
    · rw [howner] at running
      cases running
      exact .inr ⟨rfl, rfl⟩
  cases stage with
  | owning =>
    refine ⟨?_, ?_, noOwner, fun entry he => ?_⟩
    · simpa [crash, inFlight, howner] using h.log
    · simpa [crash, leftIn, inFlight, howner] using h.file
    · simp only [crash, inFlight, owned, howner, List.append_nil] at he ⊢
      rcases kept entry he with (answered | cut) | ⟨hstage, _⟩
      · exact .inl answered
      · exact .inr (.inl cut)
      · cases hstage
  | written event =>
    refine ⟨?_, ?_, noOwner, fun entry he => ?_⟩
    · simpa [crash, inFlight, howner] using h.log
    · simpa [crash, leftIn, inFlight, howner] using h.file
    · simp only [crash, inFlight, owned, howner, List.append_nil, List.nil_append, if_true] at he ⊢
      rcases kept entry he with (answered | cut) | ⟨hwritten, hrequest⟩
      · exact .inl answered
      · exact .inr (.inl (List.mem_append_left _ cut))
      · cases hwritten
        subst hrequest
        exact .inr (.inl (List.mem_append_right _ List.mem_cons_self))
  | writing event =>
    obtain ⟨draw, hmade⟩ := hstage
    rcases hwhole request event howner with hnone | hall
    · have hne : ¬ (left sessionId).text (lineOf host event) = lineOf host event :=
        fun same => lineOf_ne_nil event (same.symm.trans hnone)
      refine ⟨?_, ?_, noOwner, fun entry he => ?_⟩
      · simpa [crash, inFlight, howner, hne] using h.log
      · simpa [crash, leftIn, inFlight, howner, hnone, lineOf_ne_nil event] using h.file
      · simp only [crash, inFlight, owned, howner, hne, and_false, if_false, List.append_nil] at he ⊢
        rcases kept entry he with (answered | cut) | ⟨hstage, _⟩
        · exact .inl answered
        · exact .inr (.inl cut)
        · cases hstage
    · refine ⟨?_, ?_, noOwner, fun entry he => ?_⟩
      · simpa [crash, inFlight, howner, hall] using h.log.snoc hmade
      · have hfile := h.file
        simp only [crash, leftIn, inFlight, howner, hall, and_self, if_true, hfile]
        simp [fileOf]
      · simp only [crash, inFlight, owned, howner, hall, and_self, if_true, List.append_nil] at he ⊢
        cases List.mem_append.mp he with
        | inl older =>
          rcases kept entry older with (answered | cut) | ⟨hstage, _⟩
          · exact .inl answered
          · exact .inr (.inl (List.mem_append_left _ cut))
          · cases hstage
        | inr last => exact .inr (.inl (List.mem_append_right _ last))

lemma inv_crash (h : Inv host s)
    (hwhole : ∀ sessionId request event, s.owners sessionId = some ⟨process, request, .writing event⟩ →
      (left sessionId).text (lineOf host event) = [] ∨ (left sessionId).text (lineOf host event) = lineOf host event) :
    Inv host (s.crash host process left) := by
  refine ⟨fun sessionId => ?_, fun answer ha => (h.answered answer ha).frame fun sessionId entry he => List.mem_append_left _ he⟩
  by_cases hown : ∃ owner, s.owners sessionId = some owner ∧ owner.process = process
  · obtain ⟨owner, howner, hprocess⟩ := hown
    exact (h.sound sessionId).crash_own howner hprocess (hwhole sessionId)
  · exact (h.sound sessionId).crash_other fun owner howner hprocess => hown ⟨owner, howner, hprocess⟩

end

lemma inv_step (hengine : host.engine.Documented) (s : Store) (action : Step) (h : Inv host s)
    (hwhole : Whole host (Runs.entry (step host) s action)) : Inv host (step host s action).2 := by
  cases action with
  | append process request => exact inv_append h hwhole
  | work sessionId draw => exact inv_work hengine h sessionId draw
  | write sessionId => exact inv_write h sessionId
  | finish sessionId => exact inv_finish h sessionId
  | crash process left => exact inv_crash h hwhole

def Chained (host : Host) (sessionId : String) (events : List Value) : Prop :=
  ∀ before event after, events = before ++ event :: after →
    ∃ previous, previousChecksum before = .str previous ∧ Follows host sessionId ⟨before, previous, 0⟩ event

structure Survives (host : Host) (s : Store) (sessionId : String) : Prop where
  /-- It is read as what was written, in order. -/
  reads : ∃ events, read host sessionId (s.files sessionId) = .ok events ∧ Chained host sessionId events ∧
    List.Forall₂ (fun entry event => Same event entry.event) (s.entries sessionId) events
  carries : ∀ entry ∈ s.entries sessionId, Carries entry.request entry.event
  accounted : ∀ entry ∈ s.entries sessionId, ⟨entry.request, .ok entry.event⟩ ∈ s.answers ∨ entry ∈ s.cutOff sessionId ∨
    ∃ process, s.owners sessionId = some ⟨process, entry.request, .written entry.event⟩
  answered : ∀ answer ∈ s.answers, answer.request.sessionId = sessionId → ∀ event, answer.result = .ok event →
    Carries answer.request event ∧ ∃ entry ∈ s.entries sessionId, Same event entry.event
  /-- An append that is none of the operations in the log makes an event. -/
  appends : ∀ request draw, request.sessionId = sessionId → isEventType request.type = true →
    (∀ entry ∈ s.entries sessionId, entry.event.member "eventId" ≠ .str (eventIdOf host request draw)) →
    ∃ event, appendOwned host (s.files sessionId) request draw = .ok (.written event) ∧ Carries request event
  /-- An operation that is repeated stores nothing and is answered with its event. -/
  repeats : ∀ entry ∈ s.entries sessionId, ∀ operation, operation ≠ "" → entry.request.operationId = some operation →
    ∀ request draw, request.sessionId = sessionId → request.operationId = some operation → request.type = entry.request.type →
      request.runId = entry.request.runId → request.payload = entry.request.payload →
        ∃ event, appendOwned host (s.files sessionId) request draw = .ok (.saved event) ∧ Same event entry.event
  /-- Another type, run or payload under the operation is refused. -/
  refuses : ∀ entry ∈ s.entries sessionId, ∀ operation, operation ≠ "" → entry.request.operationId = some operation →
    ∀ request draw, request.sessionId = sessionId → request.operationId = some operation → Defined request.payload →
      (request.type ≠ entry.request.type ∨ request.runId ≠ entry.request.runId ∨ ¬ Same request.payload entry.request.payload) →
        ∃ refusal, appendOwned host (s.files sessionId) request draw = .error refusal

lemma Log.chained (hengine : host.engine.Documented) (h : Log host sessionId entries) :
    Chained host sessionId (eventsOf host entries) := by
  induction h with
  | nil => exact fun before event after h => absurd h.symm (by simp [eventsOf])
  | @snoc older last draw hlog hmade ih =>
    intro before event after hsplit
    rw [eventsOf_concat] at hsplit
    rcases List.eq_nil_or_concat after with rfl | ⟨after, final, rfl⟩
    · obtain ⟨rfl, hlast⟩ := List.append_inj' hsplit rfl
      have hfollows := @follows_readBack host last.request draw _ hengine _ (hlog.previous hengine) hmade.defined 0
      rw [hmade.session] at hfollows
      refine ⟨_, hlog.previous hengine, ?_⟩
      rw [← (List.cons.inj hlast).1, hmade.event]
      exact hfollows
    · have hcut : eventsOf host older ++ [readBack host last.event] = (before ++ event :: after) ++ [final] := by
        rw [hsplit]
        simp
      exact ih before event after (List.append_inj' hcut rfl).1

lemma Log.same (hengine : host.engine.Documented) (h : Log host sessionId entries) :
    List.Forall₂ (fun entry event => Same event entry.event) entries (eventsOf host entries) := by
  have each : ∀ entry ∈ entries, Same (readBack host entry.event) entry.event := by
    intro entry he
    obtain ⟨before, draw, hlog, hmade⟩ := h.made_of_mem he
    exact hmade.same hengine hlog
  rw [eventsOf, List.forall₂_map_right_iff, List.forall₂_same]
  exact each

lemma decision_operation (h : Log host sessionId entries) {entry : Entry} (hmem : entry ∈ entries) {operation : String}
    (hne : operation ≠ "") (hentry : entry.request.operationId = some operation) {request : Request} (draw : Draw)
    (hrequest : request.operationId = some operation) :
    decision host request draw (eventsOf host entries) =
      (require (Repeats host request (readBack host entry.event)) .sessionOperationConflict >>= fun _ =>
        .ok (.saved (readBack host entry.event))) := by
  have hid : eventIdOf host request draw = host.digest operation.toList := by simp [eventIdOf, hrequest, hne]
  rw [decision, hid, h.find_operation hmem hentry hne]
  rfl

lemma Inv.survives (hengine : host.engine.Documented) {s : Store} (h : Inv host s) (sessionId : String) :
    Survives host s sessionId := by
  have sound := h.sound sessionId
  have hlog := sound.log
  refine ⟨⟨_, ?_, hlog.chained hengine, hlog.same hengine⟩, fun entry he => ?_, sound.accounted, fun answer ha hsession event hevent => ?_,
    fun request draw hsession htype hfresh => ?_, fun entry he operation hne hentry request draw hsession hop htype hrun hpayload => ?_,
    fun entry he operation hne hentry request draw hsession hop hd hother => ?_⟩
  · rw [sound.file, hlog.read hengine]
  · obtain ⟨before, draw, _, hmade⟩ := hlog.made_of_mem he
    exact hmade.carries
  · obtain ⟨hcarries, entry, he, hsame⟩ := h.answered answer ha event hevent
    rw [hsession] at he
    refine ⟨hcarries, entry, he, ?_⟩
    rcases hsame with rfl | rfl
    · rfl
    · obtain ⟨before, draw, hbefore, hmade⟩ := hlog.made_of_mem he
      exact hmade.same hengine hbefore
  · have hnone : (eventsOf host (s.entries sessionId)).find?
        (fun event => (event.member "eventId").strictEq (.str (eventIdOf host request draw))) = none := by
      refine List.find?_eq_none.mpr fun event hevent => ?_
      obtain ⟨entry, he, rfl⟩ := List.mem_map.mp hevent
      obtain ⟨before, draw', _, hmade⟩ := hlog.made_of_mem he
      have hid := hfresh entry he
      rw [hmade.event] at hid
      change Value.str (eventIdOf host entry.request draw') ≠ .str (eventIdOf host request draw) at hid
      rw [hmade.readBack_eventId]
      simpa [Value.strictEq] using fun same => hid (congrArg Value.str same)
    refine ⟨signed host (draft host request draw (eventsOf host (s.entries sessionId))), ?_, carries_signed ..⟩
    rw [sound.file, appendOwned_log hengine hlog hsession htype, decision, hnone]
  · obtain ⟨before, draw', hbefore, hmade⟩ := hlog.made_of_mem he
    refine ⟨readBack host entry.event, ?_, hmade.same hengine hbefore⟩
    have hvalid : isEventType request.type = true := by
      rw [htype]
      exact hmade.type
    rw [sound.file, appendOwned_log hengine hlog hsession hvalid, decision_operation hlog he hne hentry draw hop,
      require_bind (hmade.repeats hengine htype hrun hpayload)]
  · obtain ⟨before, draw', _, hmade⟩ := hlog.made_of_mem he
    cases hresult : appendOwned host (s.files sessionId) request draw with
    | error refusal => exact ⟨refusal, rfl⟩
    | ok outcome =>
      rw [sound.file] at hresult
      obtain ⟨hvalid, _⟩ := appendOwned_ok hengine hlog hsession hresult
      rw [appendOwned_log hengine hlog hsession hvalid, decision_operation hlog he hne hentry draw hop] at hresult
      obtain ⟨_, hrepeats, _⟩ := ok_of_bind hresult
      have hcarries := hmade.carries_of_repeats hengine hd (of_require hrepeats)
      exfalso
      rcases hother with htype | hrun | hpayload
      · have := hcarries.type.symm.trans hmade.readBack_type
        exact htype (Value.str.inj this)
      · have hvalues : runValue request.runId = runValue entry.request.runId := hcarries.runId.symm.trans hmade.readBack_runId
        refine hrun (strictEq_runValue ?_)
        rw [hvalues]
        cases entry.request.runId with
        | none => rfl
        | some id => exact strictEq_str id
      · have hsaved := hcarries.payload
        rw [hmade.readBack_payload] at hsaved
        exact hpayload (hsaved.symm.trans (same_settled hengine _ entry.request.proper hmade.defined))

def isCrash : Step → Bool
  | .crash .. => true
  | _ => false

lemma cutOff_le (s : Store) (run : List Step) (sessionId : String) :
    ((final (step host) s run).cutOff sessionId).length ≤ (s.cutOff sessionId).length + run.countP isCrash := by
  have step : ∀ (s : Store) (action : Step), ((s.next host action).cutOff sessionId).length ≤
      (s.cutOff sessionId).length + if isCrash action then 1 else 0 := by
    intro s action
    cases action with
    | append process request =>
      have : (s.append process request).cutOff = s.cutOff := by
        unfold Store.append
        split_ifs <;> rfl
      exact (congrArg (fun cut => (cut sessionId).length) this).le
    | work id draw =>
      have : (s.work host id draw).cutOff = s.cutOff := by
        unfold Store.work
        split
        · split <;> rfl
        · rfl
      exact (congrArg (fun cut => (cut sessionId).length) this).le
    | write id =>
      have : (s.write host id).cutOff = s.cutOff := by
        unfold Store.write
        split <;> rfl
      exact (congrArg (fun cut => (cut sessionId).length) this).le
    | finish id =>
      have : (s.finish id).cutOff = s.cutOff := by
        unfold Store.finish
        split <;> rfl
      exact (congrArg (fun cut => (cut sessionId).length) this).le
    | crash process left =>
      simp only [Store.next, crash, inFlight, owned, isCrash, List.length_append, if_true]
      cases s.owners sessionId with
      | none => simp
      | some owner =>
        obtain ⟨process', request, stage⟩ := owner
        cases stage with
        | owning => simp
        | writing event => simp only; split_ifs <;> simp
        | written event => simp only; split_ifs <;> simp
  induction run generalizing s with
  | nil => exact le_rfl
  | cons action run ih =>
    have hrest := ih (s.next host action)
    have hstep := step s action
    rw [List.countP_cons]
    change ((final (Store.step host) (s.next host action) run).cutOff sessionId).length ≤ _
    omega

/-- In a run of whole payloads and whole lines every log survives, and holds no more of
    appends that did not return than there were crashes. -/
theorem log_survives (hengine : host.engine.Documented) {run : List Step}
    (hwhole : ∀ e ∈ trace (step host) empty run, Whole host e) (sessionId : String) :
    Survives host (final (step host) empty run) sessionId ∧
      ((final (step host) empty run).cutOff sessionId).length ≤ run.countP isCrash := by
  have hinv := (invariant_of (fun s a => inv_step hengine s a) inv_empty hwhole).2
  refine ⟨hinv.survives hengine sessionId, ?_⟩
  simpa [empty] using @cutOff_le host empty run sessionId

def toolHost : Host := ⟨plainEngine, fun text => String.ofList (List.replicate 63 'a' ++ [if text.length % 2 = 0 then '0' else '1'])⟩

lemma proper_member {key : String} {v : Value} (hkey : isIndex (key, v) = false) (hv : Proper v) : Proper (.obj [(key, v)]) := by
  refine ⟨List.nodup_singleton _, propertyOrder_of_names fun e he => ?_, hv, trivial⟩
  rw [List.mem_singleton.mp he]
  exact hkey

def started : Request := ⟨"one", "tool/started", .obj [("name", .str "build")], none, some "op", proper_member rfl trivial⟩

def completed : Request := ⟨"one", "tool/result", .obj [("errorCode", .undefined)], none, none, proper_member rfl trivial⟩

def noon : Draw := ⟨"2026-01-01T12:00:00.000Z", "6f1e"⟩

def completedRun : List Step := [.append 0 completed, .work "one" noon, .write "one", .finish "one"]

def tornRun : List Step := [.append 0 started, .work "one" noon, .crash 0 fun _ => ⟨1, false⟩]

theorem completed_and_torn_unreadable :
    ¬ Survives toolHost (final (step toolHost) empty completedRun) "one" ∧
      ¬ Survives toolHost (final (step toolHost) empty tornRun) "one" := by
  have unreadable : ∀ s, (read toolHost "one" (s.files "one")).toOption.isNone = true → ¬ Survives toolHost s "one" := by
    rintro s hnone ⟨⟨events, hread, _⟩, _⟩
    rw [hread] at hnone
    cases hnone
  exact ⟨unreadable _ (by decide +kernel), unreadable _ (by decide +kernel)⟩

def repeatedRun : List Step :=
  [.append 0 started, .work "one" noon, .write "one", .append 1 started, .finish "one", .append 1 started, .work "one" noon,
    .crash 1 fun _ => ⟨0, false⟩]

lemma whole_of_steps {s : Store} {run : List Step} (h : ∀ action ∈ run, match action with
    | .append _ request => Defined request.payload
    | .crash _ left => ∀ sessionId, left sessionId = ⟨0, false⟩
    | _ => True) : ∀ e ∈ trace (step host) s run, Whole host e := by
  intro e he
  have haction := h e.action (action_mem he)
  unfold Whole
  split
  · rename_i heq
    rwa [heq] at haction
  · rename_i heq
    rw [heq] at haction
    intro sessionId request event _
    left
    rw [haction sessionId]
    rfl
  · trivial

theorem repeatedRun_survives : Survives toolHost (final (step toolHost) empty repeatedRun) "one" ∧
    ((final (step toolHost) empty repeatedRun).cutOff "one").length ≤ repeatedRun.countP isCrash := by
  refine log_survives plainEngine_documented (whole_of_steps fun action ha => ?_) "one"
  simp only [repeatedRun, List.mem_cons, List.not_mem_nil, or_false] at ha
  have hd : Defined started.payload := ⟨trivial, trivial⟩
  rcases ha with rfl | rfl | rfl | rfl | rfl | rfl | rfl | rfl <;> first | exact hd | trivial | exact fun _ => rfl

end PromptForge.SessionEvents
