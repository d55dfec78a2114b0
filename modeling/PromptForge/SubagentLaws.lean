import PromptForge.Subagents

namespace PromptForge.Subagents
open Runs Tables JsValues

variable {p : Setting} {s : State} {c : Child}

lemma resume_same (now : String) (raced : Raced) :
    (c.resume p now raced).activationId = c.activationId ∧ (c.resume p now raced).workflow = c.workflow := by
  cases raced with
  | thrown error => exact ⟨rfl, rfl⟩
  | returned value =>
    simp only [Child.resume]
    split <;> exact ⟨rfl, rfl⟩

lemma appended_same : c.appended.activationId = c.activationId ∧ c.appended.workflow = c.workflow := by
  unfold Child.appended
  split <;> exact ⟨rfl, rfl⟩

lemma rejected_same (error : Thrown) (now : String) :
    (c.rejected error now).activationId = c.activationId ∧ (c.rejected error now).workflow = c.workflow := by
  unfold Child.rejected
  split <;> exact ⟨rfl, rfl⟩

lemma next_same (turn : Turn) :
    (c.next p turn).activationId = c.activationId ∧ (c.next p turn).workflow = c.workflow := by
  cases turn with
  | answered answer now =>
    simp only [Child.next]
    split
    · exact ⟨rfl, rfl⟩
    · cases answer with
      | appended => exact appended_same
      | rejected wrote error => exact rejected_same error now
  | returns value =>
    simp only [Child.next]
    split <;> exact ⟨rfl, rfl⟩
  | throws error =>
    simp only [Child.next]
    split <;> exact ⟨rfl, rfl⟩
  | deadline =>
    simp only [Child.next]
    split <;> exact ⟨rfl, rfl⟩
  | timesOut =>
    simp only [Child.next]
    split
    · split <;> exact ⟨rfl, rfl⟩
    · exact ⟨rfl, rfl⟩
  | resumes now =>
    simp only [Child.next]
    split
    · exact resume_same now _
    · exact ⟨rfl, rfl⟩

@[simp] lemma activationId_next (turn : Turn) : (c.next p turn).activationId = c.activationId := (next_same turn).1

@[simp] lemma workflow_next (turn : Turn) : (c.next p turn).workflow = c.workflow := (next_same turn).2

lemma next_over (h : isOver c.phase = true) (turn : Turn) : c.next p turn = c := by
  have hpending : c.pending = none := by
    unfold Child.pending
    cases hphase : c.phase <;> simp_all [isOver]
  cases turn with
  | answered answer now => simp [Child.next, hpending]
  | deadline => simp [Child.next, h]
  | returns value => cases hphase : c.phase <;> simp_all [Child.next, isOver]
  | throws error => cases hphase : c.phase <;> simp_all [Child.next, isOver]
  | timesOut => cases hphase : c.phase <;> simp_all [Child.next, isOver]
  | resumes now => cases hphase : c.phase <;> simp_all [Child.next, isOver]

lemma pending_activationId {l : Logged} (h : c.pending = some l) : l.event.activationId = c.activationId := by
  unfold Child.pending at h
  split at h <;> cases h <;> rfl

lemma writes_activationId {turn : Turn} {l : Logged} (h : l ∈ c.writes turn) : l.event.activationId = c.activationId := by
  unfold Child.writes at h
  split at h
  · split at h
    · exact pending_activationId (by simpa using h)
    · cases h
  · cases h

lemma resultsOf_append (log ws : List Logged) (a : String) : resultsOf (log ++ ws) a = resultsOf log a ++ resultsOf ws a :=
  List.filterMap_append

lemma endsOf_append (log ws : List Logged) (a : String) : endsOf (log ++ ws) a = endsOf log a ++ endsOf ws a :=
  List.filterMap_append

lemma isStarted_append (log ws : List Logged) (a : String) : isStarted (log ++ ws) a = (isStarted log a || isStarted ws a) :=
  List.any_append

lemma told_of_other {ws : List Logged} {a : String} (h : ∀ l ∈ ws, l.event.activationId ≠ a) :
    resultsOf ws a = [] ∧ endsOf ws a = [] ∧ isStarted ws a = false := by
  refine ⟨List.filterMap_eq_nil_iff.mpr fun l hl => ?_, List.filterMap_eq_nil_iff.mpr fun l hl => ?_,
    List.any_eq_false.mpr fun l hl => ?_⟩
  · have hne := h l hl
    unfold resultOf
    cases hevent : l.event <;> simp_all [Event.activationId]
  · have hne := h l hl
    unfold endOf
    cases hevent : l.event <;> simp_all [Event.activationId]
  · have hne := h l hl
    unfold startOf
    cases hevent : l.event <;> simp_all [Event.activationId]

def Stage (results ends : List Status) (c : Child) : Prop :=
  match c.phase with
  | .starting | .creating | .racing _ => results = [] ∧ ends = []
  | .reporting _ r _ => results = [] ∧ ends = [] ∧ r.activationId = c.activationId
  | .ending _ r => results = [r.status] ∧ ends = [] ∧ r.activationId = c.activationId
  | .returned r => results = [r.status] ∧ ends = [r.status] ∧ r.activationId = c.activationId
  | .raised => c.failed = true ∧ (results = [] ∧ ends = [] ∨ ∃ status, results = [status] ∧ (ends = [] ∨ ends = [status]))

def Told (log : List Logged) (c : Child) : Prop := Stage (resultsOf log c.activationId) (endsOf log c.activationId) c

lemma stage_answered {results ends : List Status} (h : Stage results ends c) (answer : Answer) (now : String)
    (hclean : CleanTurn c (.answered answer now)) :
    Stage (results ++ resultsOf (c.writes (.answered answer now)) c.activationId)
      (ends ++ endsOf (c.writes (.answered answer now)) c.activationId) (c.next p (.answered answer now)) := by
  unfold Stage at h
  cases answer with
  | appended =>
    by_cases hmode : c.request.mode = .continue <;> cases hphase : c.phase <;>
      simp_all [Stage, Child.next, Child.pending, Child.appended, Child.writes, Answer.wrote, resultsOf, endsOf, resultOf, endOf]
  | rejected wrote error =>
    cases hphase : c.phase with
    | starting | creating =>
      cases wrote <;>
        simp_all [Stage, Child.next, Child.pending, Child.rejected, Child.writes, Answer.wrote, resultsOf, endsOf, resultOf, endOf]
    | racing raced | returned r => simp_all [Stage, Child.next, Child.pending, Child.writes, resultsOf, endsOf]
    | raised => simp_all [Stage, Child.next, Child.pending, Child.writes, resultsOf, endsOf]
    | reporting handler r output =>
      cases handler <;> cases wrote <;>
        simp_all [Stage, Child.next, Child.pending, Child.rejected, Child.fail, Child.result, Child.writes, Answer.wrote, resultsOf,
          endsOf, resultOf, endOf, CleanTurn]
    | ending handler r =>
      cases handler <;> cases wrote <;>
        simp_all [Stage, Child.next, Child.pending, Child.rejected, Child.writes, Answer.wrote, resultsOf, endsOf, resultOf, endOf,
          CleanTurn]

lemma stage_next {results ends : List Status} (h : Stage results ends c) (turn : Turn) (hclean : CleanTurn c turn) :
    Stage (results ++ resultsOf (c.writes turn) c.activationId) (ends ++ endsOf (c.writes turn) c.activationId) (c.next p turn) := by
  cases turn with
  | answered answer now => exact stage_answered h answer now hclean
  | returns value =>
    simp only [Child.writes, resultsOf, endsOf, List.filterMap_nil, List.append_nil, Child.next]
    split
    · simp_all [Stage]
    · exact h
  | throws error =>
    simp only [Child.writes, resultsOf, endsOf, List.filterMap_nil, List.append_nil, Child.next]
    split
    · simp_all [Stage]
    · exact h
  | deadline =>
    simp only [Child.writes, resultsOf, endsOf, List.filterMap_nil, List.append_nil, Child.next]
    split <;> exact h
  | timesOut =>
    simp only [Child.writes, resultsOf, endsOf, List.filterMap_nil, List.append_nil, Child.next]
    split
    · split
      · simp_all [Stage]
      · exact h
    · exact h
  | resumes now =>
    simp only [Child.writes, resultsOf, endsOf, List.filterMap_nil, List.append_nil, Child.next]
    split
    · rename_i raced hphase
      have hnone : results = [] ∧ ends = [] := by simpa [Stage, hphase] using h
      cases raced with
      | thrown error => exact ⟨hnone.1, hnone.2, rfl⟩
      | returned value =>
        simp only [Child.resume]
        split <;> exact ⟨hnone.1, hnone.2, rfl⟩
    · exact h

def Drawn (p : Setting) (drawn : ℕ) (label id : String) : Prop := ∃ n < drawn, id = label ++ p.randomUUID n

structure Core (p : Setting) (s : State) : Prop where
  bounded : s.active ≤ p.maxConcurrent
  counted : s.active = s.children.countP fun c => !isOver c.phase
  ids : (s.children.map Child.activationId).Nodup
  drawn : ∀ c ∈ s.children, Drawn p s.drawn "activation-" c.activationId
  logged : ∀ l ∈ s.log, ∃ c ∈ s.children, c.activationId = l.event.activationId
  told : ∀ c ∈ s.children, Told s.log c

structure Grown (p : Setting) (s s' : State) (workflow : Option String) (new : List Child) : Prop where
  children : s'.children = s.children ++ new
  log : s'.log = s.log
  workflows : s'.workflows = s.workflows
  drawn : s.drawn ≤ s'.drawn
  active : s'.active = s.active + new.length
  bounded : s.active ≤ p.maxConcurrent → s'.active ≤ p.maxConcurrent
  fresh : ∀ c ∈ new, c.phase = .starting ∧ c.workflow = workflow ∧
    ∃ n, s.drawn ≤ n ∧ n < s'.drawn ∧ c.activationId = "activation-" ++ p.randomUUID n
  ids : (new.map Child.activationId).Nodup

lemma passes {c : Prop} [Decidable c] {error : Refusal} {rest : Option Refusal}
    (h : (if c then some error else rest) = none) : ¬ c ∧ rest = none := by
  split at h
  · cases h
  · exact ⟨‹¬ c›, h⟩

lemma refusal_concurrency {active : ℕ} {request : SubagentRequest} (h : refusal p active request = none) :
    active < p.maxConcurrent := by
  unfold refusal at h
  have htask := (passes h).2
  have hprovider := (passes htask).2
  have hactive := (passes hprovider).2
  exact Nat.lt_of_not_le (passes hactive).1

lemma Grown.refl (s : State) (workflow : Option String) : Grown p s s workflow [] where
  children := (List.append_nil _).symm
  log := rfl
  workflows := rfl
  drawn := Nat.le_refl _
  active := rfl
  bounded := id
  fresh := fun c hc => by cases hc
  ids := List.nodup_nil

lemma label_inj (hids : Function.Injective p.randomUUID) {label : String} {m n : ℕ}
    (h : label ++ p.randomUUID m = label ++ p.randomUUID n) : m = n :=
  hids (String.append_right_inj _ |>.mp h)

lemma Grown.trans (hids : Function.Injective p.randomUUID) {s s' s'' : State} {workflow : Option String} {new new' : List Child}
    (h : Grown p s s' workflow new) (h' : Grown p s' s'' workflow new') : Grown p s s'' workflow (new ++ new') where
  children := by rw [h'.children, h.children, List.append_assoc]
  log := h'.log.trans h.log
  workflows := h'.workflows.trans h.workflows
  drawn := Nat.le_trans h.drawn h'.drawn
  active := by rw [h'.active, h.active, List.length_append, Nat.add_assoc]
  bounded := h'.bounded ∘ h.bounded
  fresh := by
    intro c hc
    rcases List.mem_append.mp hc with hc | hc
    · obtain ⟨hphase, hworkflow, n, hle, hlt, hid⟩ := h.fresh c hc
      exact ⟨hphase, hworkflow, n, hle, Nat.lt_of_lt_of_le hlt h'.drawn, hid⟩
    · obtain ⟨hphase, hworkflow, n, hle, hlt, hid⟩ := h'.fresh c hc
      exact ⟨hphase, hworkflow, n, Nat.le_trans h.drawn hle, hlt, hid⟩
  ids := by
    rw [List.map_append, List.nodup_append]
    refine ⟨h.ids, h'.ids, fun a ha b hb hab => ?_⟩
    obtain ⟨c, hc, rfl⟩ := List.mem_map.mp ha
    obtain ⟨c', hc', rfl⟩ := List.mem_map.mp hb
    obtain ⟨-, -, n, -, hlt, hid⟩ := h.fresh c hc
    obtain ⟨-, -, n', hle, -, hid'⟩ := h'.fresh c' hc'
    have hsame := label_inj hids (hid.symm.trans (hab.trans hid'))
    omega

lemma start_grown (request : SubagentRequest) (workflow : Option String) (now : String) :
    (∃ error, refusal p s.active request = some error ∧ start p s request workflow now = (.error error, s)) ∨
    ∃ c, (start p s request workflow now).1 = .ok c.activationId ∧
      Grown p s (start p s request workflow now).2 workflow [c] := by
  unfold start
  cases hrefusal : refusal p s.active request with
  | some error => exact .inl ⟨error, rfl, rfl⟩
  | none =>
    refine .inr ⟨newChild p s.drawn request workflow now, rfl, ?_⟩
    have hfree := refusal_concurrency hrefusal
    refine ⟨rfl, rfl, rfl, Nat.le_add_right _ 2, rfl, fun _ => hfree, fun c hc => ?_, List.nodup_singleton _⟩
    obtain rfl := List.mem_singleton.mp hc
    exact ⟨rfl, rfl, s.drawn, Nat.le_refl _, by simp, rfl⟩

lemma Grown.core (hids : Function.Injective p.randomUUID) {s s' : State} {workflow : Option String} {new : List Child}
    (h : Grown p s s' workflow new) (hs : Core p s) : Core p s' := by
  have hdisjoint : ∀ c ∈ s.children, ∀ c' ∈ new, c.activationId ≠ c'.activationId := by
    intro c hc c' hc' hsame
    obtain ⟨n, hlt, hid⟩ := hs.drawn c hc
    obtain ⟨-, -, n', hle, -, hid'⟩ := h.fresh c' hc'
    have hn := label_inj hids (hid.symm.trans (hsame.trans hid'))
    omega
  constructor
  · exact h.bounded hs.bounded
  · have hnew : new.countP (fun c => !isOver c.phase) = new.length := by
      refine List.countP_eq_length.mpr fun c hc => ?_
      rw [(h.fresh c hc).1]
      rfl
    rw [h.active, h.children, List.countP_append, hnew, hs.counted]
  · rw [h.children, List.map_append, List.nodup_append]
    refine ⟨hs.ids, h.ids, fun a ha b hb => ?_⟩
    obtain ⟨c, hc, rfl⟩ := List.mem_map.mp ha
    obtain ⟨c', hc', rfl⟩ := List.mem_map.mp hb
    exact hdisjoint c hc c' hc'
  · intro c hc
    rw [h.children] at hc
    rcases List.mem_append.mp hc with hc | hc
    · obtain ⟨n, hlt, hid⟩ := hs.drawn c hc
      exact ⟨n, Nat.lt_of_lt_of_le hlt h.drawn, hid⟩
    · obtain ⟨-, -, n, -, hlt, hid⟩ := h.fresh c hc
      exact ⟨n, hlt, hid⟩
  · intro l hl
    rw [h.log] at hl
    obtain ⟨c, hc, hid⟩ := hs.logged l hl
    exact ⟨c, h.children ▸ List.mem_append_left _ hc, hid⟩
  · intro c hc
    rw [h.children] at hc
    rw [h.log]
    rcases List.mem_append.mp hc with hc | hc
    · exact hs.told c hc
    · -- the log tells nothing of a new child
      obtain ⟨hresults, hends, -⟩ := @told_of_other s.log c.activationId fun l hl hsame => by
        obtain ⟨c', hc', hid⟩ := hs.logged l hl
        exact hdisjoint c' hc' c hc (hid.trans hsame)
      unfold Told Stage
      rw [(h.fresh c hc).1]
      exact ⟨hresults, hends⟩

lemma updateRow_eq {c : Child} (t : List Child) :
    updateRow Child.activationId c t = updateWhere (fun r => decide (r.activationId = c.activationId)) (fun _ => c) t := by
  simp [updateRow, updateWhere]

lemma countP_next (hs : Core p s) {c c' : Child} (hc : lookup Child.activationId s.children c.activationId = some c)
    (hid : c'.activationId = c.activationId) :
    (updateRow Child.activationId c' s.children).countP (fun c => !isOver c.phase) + (if !isOver c.phase then 1 else 0) =
      s.children.countP (fun c => !isOver c.phase) + (if !isOver c'.phase then 1 else 0) := by
  rw [updateRow_eq, hid]
  exact countP_updateWhere hs.ids hc _ _

lemma core_childNext (hs : Core p s) (hc : lookup Child.activationId s.children c.activationId = some c) (turn : Turn)
    (hclean : CleanTurn c turn) : Core p (childNext p s c turn) := by
  have hmem := lookup_mem hc
  have hover : isOver c.phase = true → isOver (c.next p turn).phase = true := fun h => by rwa [next_over h]
  have hcount := countP_next hs hc (activationId_next (p := p) turn)
  have hactive := hs.counted
  constructor
  · have hbounded := hs.bounded
    simp only [childNext]
    split <;> omega
  · simp only [childNext]
    cases hb : isOver c.phase <;> cases hb' : isOver (c.next p turn).phase <;> simp_all
    exact Nat.sub_eq_of_eq_add hcount.symm
  · simpa only [childNext, map_key_updateRow] using hs.ids
  · intro c' hc'
    rcases mem_updateRow hc' with rfl | hc'
    · rw [activationId_next]
      exact hs.drawn c hmem
    · exact hs.drawn c' hc'
  · intro l hl
    have hkeys : ∀ d ∈ s.children, ∃ d' ∈ (childNext p s c turn).children, d'.activationId = d.activationId := by
      intro d hd
      have hkey : d.activationId ∈ (updateRow Child.activationId (c.next p turn) s.children).map Child.activationId := by
        rw [map_key_updateRow]
        exact List.mem_map_of_mem hd
      simpa [childNext] using hkey
    have hsome : ∃ d ∈ s.children, d.activationId = l.event.activationId := by
      rcases List.mem_append.mp hl with hl | hl
      · exact hs.logged l hl
      · exact ⟨c, hmem, (writes_activationId hl).symm⟩
    obtain ⟨d, hd, hid⟩ := hsome
    obtain ⟨d', hd', hid'⟩ := hkeys d hd
    exact ⟨d', hd', hid'.trans hid⟩
  · intro d hd
    obtain ⟨x, hx, rfl⟩ := List.mem_map.mp hd
    simp only [childNext, Told, resultsOf_append, endsOf_append]
    split
    · rw [activationId_next]
      exact stage_next (hs.told c hmem) turn hclean
    · rename_i hne
      obtain ⟨hresults, hends, -⟩ := @told_of_other (c.writes turn) x.activationId fun l hl hsame =>
        hne (by rw [activationId_next, ← writes_activationId hl, hsame])
      rw [hresults, hends, List.append_nil, List.append_nil]
      exact hs.told x hx

def rank (c : Child) : ℕ :=
  match c.phase with
  | .starting => 7
  | .creating => 6
  | .racing none => if c.aborted then 4 else 5
  | .racing (some _) => 3
  | .reporting _ _ _ => 2
  | .ending _ _ => 1
  | .returned _ | .raised => 0

lemma exists_turn (h : isOver c.phase = false) : ∃ turn, isOwn turn = true ∧ rank (c.next p turn) < rank c := by
  cases hphase : c.phase with
  | starting =>
    refine ⟨.answered .appended "", rfl, ?_⟩
    by_cases hmode : c.request.mode = .continue <;> simp [rank, Child.next, Child.pending, Child.appended, hphase, hmode]
    split <;> omega
  | creating =>
    refine ⟨.answered .appended "", rfl, ?_⟩
    simp only [rank, Child.next, Child.pending, Child.appended, hphase, Option.isNone_some, Bool.false_eq_true, if_false]
    split <;> omega
  | racing raced =>
    cases raced with
    | none =>
      by_cases haborted : c.aborted = true
      · exact ⟨.timesOut, rfl, by simp [rank, Child.next, hphase, haborted]⟩
      · exact ⟨.deadline, rfl, by simp [rank, Child.next, hphase, haborted, isOver]⟩
    | some raced =>
      refine ⟨.resumes "", rfl, ?_⟩
      cases raced with
      | thrown error => simp [rank, Child.next, Child.resume, Child.fail, hphase]
      | returned value =>
        simp only [Child.next, hphase, Child.resume]
        split <;> simp [rank, Child.fail, hphase]
  | reporting handler r output =>
    exact ⟨.answered .appended "", rfl, by simp [rank, Child.next, Child.pending, Child.appended, hphase]⟩
  | ending handler r =>
    exact ⟨.answered .appended "", rfl, by simp [rank, Child.next, Child.pending, Child.appended, hphase]⟩
  | returned r => simp [hphase, isOver] at h
  | raised => simp [hphase, isOver] at h

lemma step_child {a : String} (hc : lookup Child.activationId s.children a = some c) (turn : Turn) :
    (step p s (.child a turn)).2 = childNext p s c turn := by
  simp [step, hc]

lemma lookup_childNext {a : String} (hc : lookup Child.activationId s.children a = some c) (turn : Turn) :
    lookup Child.activationId (childNext p s c turn).children a = some (c.next p turn) := by
  have hid := lookup_key hc
  simp only [childNext]
  rw [lookup_updateRow, hc, Option.map_some, if_pos (by simp)]

lemma settles_of {a : String} (hc : lookup Child.activationId s.children a = some c) : ∃ turns : List Turn,
    (∀ turn ∈ turns, isOwn turn = true) ∧
    ∃ c', lookup Child.activationId (final (step p) s (turns.map (.child a))).children a = some c' ∧ isOver c'.phase = true := by
  induction hrank : rank c using Nat.strong_induction_on generalizing s c with
  | _ n ih =>
    subst hrank
    by_cases hover : isOver c.phase = true
    · exact ⟨[], nofun, c, hc, hover⟩
    · obtain ⟨turn, hown, hless⟩ := @exists_turn p c (by simpa using hover)
      obtain ⟨turns, howns, hend⟩ := ih _ hless (lookup_childNext hc turn) rfl
      refine ⟨turn :: turns, fun t ht => ?_, ?_⟩
      · rcases List.mem_cons.mp ht with rfl | ht
        · exact hown
        · exact howns t ht
      · rw [List.map_cons, final_cons, step_child hc turn]
        exact hend

end PromptForge.Subagents
