import PromptForge.SubagentLaws

namespace PromptForge.Subagents
open Runs Tables JsValues

variable {p : Setting} {s : State} {c : Child}

def Held (w : Workflow) (a : String) : Prop := some a ∈ w.batch ∨ ∃ r ∈ w.children, r.activationId = a

structure Flow (p : Setting) (s : State) : Prop where
  ids : (s.workflows.map Workflow.workflowId).Nodup
  drawn : ∀ w ∈ s.workflows, Drawn p s.drawn "workflow-" w.workflowId
  member : ∀ c ∈ s.children, ∀ a, c.workflow = some a → ∃ w ∈ s.workflows, w.workflowId = a ∧ Held w c.activationId
  batch : ∀ w ∈ s.workflows, ∀ a, some a ∈ w.batch → ∃ c ∈ s.children, c.activationId = a ∧ c.workflow = some w.workflowId
  done : ∀ w ∈ s.workflows, ∀ r, w.phase = .returned r → r.children = w.children ∧ w.batch = []
  raised : ∀ w ∈ s.workflows, w.phase = .raised → Rejected s w.workflowId
  safe : ∀ a, Rejected s a → ¬ HasStarted s a

lemma mem_childNext {turn : Turn} {d : Child} (h : d ∈ (childNext p s c turn).children) : d = c.next p turn ∨ d ∈ s.children :=
  mem_updateRow h

lemma next_mem (hc : c ∈ s.children) (turn : Turn) : c.next p turn ∈ (childNext p s c turn).children := by
  refine List.mem_map.mpr ⟨c, hc, ?_⟩
  simp

lemma over_mem (hs : Core p s) (hc : c ∈ s.children) {d : Child} (hd : d ∈ s.children) (hover : isOver d.phase = true) (turn : Turn) :
    d ∈ (childNext p s c turn).children := by
  by_cases hsame : d.activationId = c.activationId
  · obtain rfl : d = c := List.inj_on_of_nodup_map hs.ids hd hc hsame
    have hmem := next_mem (p := p) hd turn
    rwa [next_over hover] at hmem
  · refine List.mem_map.mpr ⟨d, hd, ?_⟩
    rw [activationId_next, if_neg hsame]

lemma resume_not_raised (now : String) (raced : Raced) : (c.resume p now raced).phase ≠ .raised := by
  cases raced with
  | thrown error => simp [Child.resume, Child.fail]
  | returned value =>
    simp only [Child.resume]
    split <;> simp [Child.fail]

lemma next_raised {turn : Turn} (h : (c.next p turn).phase = .raised) (hbefore : c.phase ≠ .raised) :
    ∃ answer now, turn = .answered answer now ∧ endsStart c.phase = true ∧ answer.isRejected = true := by
  cases turn with
  | answered answer now =>
    refine ⟨answer, now, rfl, ?_⟩
    cases answer with
    | appended =>
      by_cases hmode : c.request.mode = .continue <;> cases hphase : c.phase <;>
        simp_all [Child.next, Child.pending, Child.appended]
    | rejected wrote error =>
      cases hphase : c.phase with
      | reporting handler r output =>
        cases handler <;> simp_all [Child.next, Child.pending, Child.rejected, Child.fail, endsStart, Answer.isRejected]
      | ending handler r =>
        cases handler <;> simp_all [Child.next, Child.pending, Child.rejected, Child.fail, endsStart, Answer.isRejected]
      | _ => simp_all [Child.next, Child.pending, Child.rejected, endsStart, Answer.isRejected]
  | returns value =>
    simp only [Child.next] at h
    split at h
    · cases h
    · exact absurd h hbefore
  | throws error =>
    simp only [Child.next] at h
    split at h
    · cases h
    · exact absurd h hbefore
  | deadline =>
    simp only [Child.next] at h
    split at h <;> exact absurd h hbefore
  | timesOut =>
    simp only [Child.next] at h
    split at h
    · split at h
      · cases h
      · exact absurd h hbefore
    · exact absurd h hbefore
  | resumes now =>
    simp only [Child.next] at h
    split at h
    · exact absurd h (resume_not_raised now _)
    · exact absurd h hbefore

lemma writes_start {turn : Turn} (h : isStarted (c.writes turn) c.activationId = true) :
    ∃ answer now, turn = .answered answer now ∧ c.phase = .starting ∧ answer.wrote = true := by
  cases turn with
  | answered answer now =>
    refine ⟨answer, now, rfl, ?_⟩
    by_cases hwrote : answer.wrote = true <;> cases hphase : c.phase <;>
      simp_all [Child.writes, Child.pending, isStarted, startOf]
  | _ => simp [Child.writes, isStarted] at h

lemma hasStarted_childNext (hc : c ∈ s.children) {turn : Turn} {a : String} (h : HasStarted (childNext p s c turn) a) :
    HasStarted s a ∨ c.workflow = some a ∧ isStarted (c.writes turn) c.activationId = true := by
  obtain ⟨d, hd, hworkflow, hstarted⟩ := h
  -- the child as it was
  obtain ⟨d', hd', hid, hworkflow'⟩ : ∃ d' ∈ s.children, d'.activationId = d.activationId ∧ d'.workflow = some a := by
    rcases mem_childNext hd with rfl | hd
    · exact ⟨c, hc, by simp, by simpa using hworkflow⟩
    · exact ⟨d, hd, rfl, hworkflow⟩
  simp only [childNext, isStarted_append, Bool.or_eq_true] at hstarted
  rcases hstarted with hold | hnew
  · exact .inl ⟨d', hd', hworkflow', by rwa [hid]⟩
  · by_cases hsame : d.activationId = c.activationId
    · rcases mem_childNext hd with rfl | hd
      · exact .inr ⟨by simpa using hworkflow, by simpa using hnew⟩
      · by_cases hstart : isStarted s.log d.activationId = true
        · exact .inl ⟨d, hd, hworkflow, hstart⟩
        · refine .inr ⟨?_, by rwa [hsame] at hnew⟩
          obtain ⟨x, hx, hxd⟩ := List.mem_map.mp (show d ∈ (childNext p s c turn).children from ‹_›)
          split at hxd
          · rw [← hxd] at hworkflow
            simpa using hworkflow
          · rename_i hne
            exact absurd (by rw [hxd, hsame, activationId_next]) hne
    · have hnone := (@told_of_other (c.writes turn) d.activationId fun l hl hl' => hsame (hl'.symm.trans (writes_activationId hl))).2.2
      rw [hnone] at hnew
      cases hnew

lemma rejected_childNext {turn : Turn} {a : String} (h : Rejected (childNext p s c turn) a) :
    Rejected s a ∨ c.workflow = some a ∧ (c.next p turn).phase = .raised := by
  rcases h with hrow | ⟨d, hd, hworkflow, hraised⟩
  · exact .inl (.inl hrow)
  · rcases mem_childNext hd with rfl | hd
    · exact .inr ⟨by simpa using hworkflow, hraised⟩
    · exact .inl (.inr ⟨d, hd, hworkflow, hraised⟩)

lemma rejected_stays (hs : Core p s) (hc : c ∈ s.children) {a : String} (h : Rejected s a) (turn : Turn) :
    Rejected (childNext p s c turn) a :=
  h.imp_right fun ⟨d, hd, hworkflow, hraised⟩ => ⟨d, over_mem hs hc hd (by rw [hraised]; rfl) turn, hworkflow, hraised⟩

lemma flow_childNext (hs : Core p s) (hflow : Flow p s) (hc : c ∈ s.children) (turn : Turn)
    (hclean : ∀ a, c.workflow = some a → CleanStart s c a turn) : Flow p (childNext p s c turn) where
  ids := hflow.ids
  drawn := hflow.drawn
  member := by
    intro d hd a ha
    rcases mem_childNext hd with rfl | hd
    · obtain ⟨w, hw, hid, hheld⟩ := hflow.member c hc a (by simpa using ha)
      exact ⟨w, hw, hid, by rwa [activationId_next]⟩
    · exact hflow.member d hd a ha
  batch := by
    intro w hw a ha
    obtain ⟨d, hd, hid, hworkflow⟩ := hflow.batch w hw a ha
    by_cases hsame : d.activationId = c.activationId
    · obtain rfl : d = c := List.inj_on_of_nodup_map hs.ids hd hc hsame
      exact ⟨_, next_mem hd turn, by simpa using hid, by simpa using hworkflow⟩
    · exact ⟨d, List.mem_map.mpr ⟨d, hd, by rw [activationId_next, if_neg hsame]⟩, hid, hworkflow⟩
  done := hflow.done
  raised := fun w hw hraised => rejected_stays hs hc (hflow.raised w hw hraised) turn
  safe := by
    intro a hrejected hstarted
    rcases rejected_childNext hrejected with hold | ⟨hworkflow, hraised⟩
    · rcases hasStarted_childNext hc hstarted with hstarted | ⟨hworkflow, hwrites⟩
      · exact hflow.safe a hold hstarted
      · obtain ⟨answer, now, rfl, hstarting, hwrote⟩ := writes_start hwrites
        exact (hclean a hworkflow).1 hstarting hwrote hold
    · by_cases hbefore : c.phase = .raised
      · have hold : Rejected s a := .inr ⟨c, hc, hworkflow, hbefore⟩
        rcases hasStarted_childNext hc hstarted with hstarted | ⟨-, hwrites⟩
        · exact hflow.safe a hold hstarted
        · obtain ⟨answer, now, rfl, hstarting, hwrote⟩ := writes_start hwrites
          exact (hclean a hworkflow).1 hstarting hwrote hold
      · obtain ⟨answer, now, rfl, hends, hanswer⟩ := next_raised hraised hbefore
        obtain ⟨hnone, hunwritten⟩ := (hclean a hworkflow).2 hends hanswer
        rcases hasStarted_childNext hc hstarted with hstarted | ⟨-, hwrites⟩
        · exact hnone hstarted
        · obtain ⟨answer', now', heq, hstarting, hwrote⟩ := writes_start hwrites
          cases heq
          rw [hunwritten hstarting] at hwrote
          cases hwrote

variable (hids : Function.Injective p.randomUUID)

include hids in
lemma startAll_grown (s : State) (a now : String) (requests : List SubagentRequest) :
    ∃ new, Grown p s (startAll p s a now requests).2 (some a) new ∧
      (∀ id, some id ∈ (startAll p s a now requests).1 ↔ ∃ c ∈ new, c.activationId = id) ∧
      (none ∈ (startAll p s a now requests).1 →
        ∃ i request, requests[i]? = some request ∧ refusal p (s.active + i) request ≠ none) := by
  induction requests generalizing s with
  | nil => exact ⟨[], .refl s _, by simp [startAll], by simp [startAll]⟩
  | cons request requests ih =>
    rcases @start_grown p s request (some a) now with ⟨error, hrefusal, hstart⟩ | ⟨c, hanswer, hgrown⟩
    · obtain ⟨new, hnew, hbatch, -⟩ := ih s
      refine ⟨new, ?_, ?_, fun _ => ⟨0, request, rfl, ?_⟩⟩
      · simpa [startAll, hstart] using hnew
      · simpa [startAll, hstart, Except.toOption] using hbatch
      · rw [Nat.add_zero, hrefusal]
        exact Option.some_ne_none error
    · obtain ⟨new, hnew, hbatch, hrefused⟩ := ih (start p s request (some a) now).2
      refine ⟨c :: new, ?_, ?_, ?_⟩
      · simpa [startAll] using hgrown.trans hids hnew
      · intro id
        simp only [startAll, hanswer, Except.toOption, List.mem_cons, Option.some.injEq, hbatch]
        constructor
        · rintro (rfl | ⟨d, hd, rfl⟩)
          · exact ⟨c, .inl rfl, rfl⟩
          · exact ⟨d, .inr hd, rfl⟩
        · rintro ⟨d, rfl | hd, rfl⟩
          · exact .inl rfl
          · exact .inr ⟨d, hd, rfl⟩
      · intro hnone
        simp only [startAll, hanswer, Except.toOption, List.mem_cons, reduceCtorEq, false_or] at hnone
        obtain ⟨i, request', hi, hrefusal⟩ := hrefused hnone
        have hindex : s.active + 1 + i = s.active + (i + 1) := by omega
        rw [hgrown.active, List.length_singleton, hindex] at hrefusal
        exact ⟨i + 1, request', hi, hrefusal⟩

include hids in
lemma Grown.hasStarted {s s' : State} {workflow : Option String} {new : List Child}
    (h : Grown p s s' workflow new) (hs : Core p s) {a : String} (hstarted : HasStarted s' a) : HasStarted s a := by
  obtain ⟨c, hc, hworkflow, hlog⟩ := hstarted
  rw [h.log] at hlog
  rw [h.children] at hc
  rcases List.mem_append.mp hc with hc | hc
  · exact ⟨c, hc, hworkflow, hlog⟩
  · have hnone := (@told_of_other s.log c.activationId fun l hl hsame => by
      obtain ⟨d, hd, hid⟩ := hs.logged l hl
      obtain ⟨n, hlt, hn⟩ := hs.drawn d hd
      obtain ⟨-, -, m, hle, -, hm⟩ := h.fresh c hc
      have hdrawn := label_inj hids (hn.symm.trans ((hid.trans hsame).trans hm))
      omega).2.2
    rw [hnone] at hlog
    cases hlog

lemma Grown.raised {s s' : State} {workflow : Option String} {new : List Child} (h : Grown p s s' workflow new) {a : String}
    (hraised : ∃ c ∈ s'.children, c.workflow = some a ∧ c.phase = .raised) :
    ∃ c ∈ s.children, c.workflow = some a ∧ c.phase = .raised := by
  obtain ⟨c, hc, hworkflow, hphase⟩ := hraised
  rw [h.children] at hc
  rcases List.mem_append.mp hc with hc | hc
  · exact ⟨c, hc, hworkflow, hphase⟩
  · rw [(h.fresh c hc).1] at hphase
    cases hphase

lemma Core.setWorkflows (hs : Core p s) (workflows : List Workflow) : Core p { s with workflows } :=
  ⟨hs.bounded, hs.counted, hs.ids, hs.drawn, hs.logged, hs.told⟩

include hids in
lemma Flow.replace {s s' : State} {w w' : Workflow} {new : List Child}
    (hflow : Flow p s) (hs : Core p s) (hgrown : Grown p s s' (some w.workflowId) new)
    (hw : lookup Workflow.workflowId s.workflows w.workflowId = some w) (hid : w'.workflowId = w.workflowId)
    (hheld : ∀ a, Held w a → Held w' a) (hnew : ∀ c ∈ new, Held w' c.activationId)
    (hbatch : ∀ a, some a ∈ w'.batch → some a ∈ w.batch ∨ ∃ c ∈ new, c.activationId = a)
    (hdone : ∀ r, w'.phase = .returned r → r.children = w'.children ∧ w'.batch = [])
    (hraised : w'.phase = .raised → none ∈ w'.batch ∨ ∃ c ∈ s.children, c.workflow = some w.workflowId ∧ c.phase = .raised)
    (hnone : none ∈ w'.batch → none ∈ w.batch ∨ ¬ HasStarted s w.workflowId) :
    Flow p { s' with workflows := updateRow Workflow.workflowId w' s'.workflows } := by
  have hmem := lookup_mem hw
  have hrows : ∀ x, x ∈ updateRow Workflow.workflowId w' s'.workflows → x = w' ∨ x ∈ s.workflows ∧ x.workflowId ≠ w.workflowId := by
    intro x hx
    rw [hgrown.workflows] at hx
    obtain ⟨y, hy, hxy⟩ := List.mem_map.mp hx
    split at hxy
    · exact .inl hxy.symm
    · rename_i hne
      exact .inr (hxy ▸ ⟨hy, by rwa [hid] at hne⟩)
  have hplace : w' ∈ updateRow Workflow.workflowId w' s'.workflows := by
    rw [hgrown.workflows]
    exact List.mem_map.mpr ⟨w, hmem, by rw [if_pos hid.symm]⟩
  have hkeep : ∀ x ∈ s.workflows, x.workflowId ≠ w.workflowId → x ∈ updateRow Workflow.workflowId w' s'.workflows := by
    intro x hx hne
    rw [hgrown.workflows]
    exact List.mem_map.mpr ⟨x, hx, by rw [if_neg (by rwa [hid])]⟩
  have hchildren : ∀ c ∈ s.children, c ∈ s'.children := fun c hc => hgrown.children ▸ List.mem_append_left _ hc
  have holdRejected : ∀ x ∈ s.workflows, x.workflowId ≠ w.workflowId → Rejected s x.workflowId →
      Rejected { s' with workflows := updateRow Workflow.workflowId w' s'.workflows } x.workflowId := by
    rintro x hx hne (⟨row, hrow, hrowid, hrownone⟩ | ⟨c, hc, hworkflow, hphase⟩)
    · exact .inl ⟨row, hkeep row hrow (by rwa [hrowid]), hrowid, hrownone⟩
    · exact .inr ⟨c, hchildren c hc, hworkflow, hphase⟩
  constructor
  · simpa only [map_key_updateRow, hgrown.workflows] using hflow.ids
  · intro x hx
    have hdrawn : ∀ y ∈ s.workflows, Drawn p s'.drawn "workflow-" y.workflowId := fun y hy =>
      (hflow.drawn y hy).imp fun n hn => ⟨Nat.lt_of_lt_of_le hn.1 hgrown.drawn, hn.2⟩
    rcases hrows x hx with rfl | ⟨hx, -⟩
    · rw [hid]
      exact hdrawn w hmem
    · exact hdrawn x hx
  · intro c hc a ha
    simp only [hgrown.children] at hc
    rcases List.mem_append.mp hc with hc | hc
    · obtain ⟨x, hx, hxid, hxheld⟩ := hflow.member c hc a ha
      by_cases hsame : x.workflowId = w.workflowId
      · obtain rfl : x = w := List.inj_on_of_nodup_map hflow.ids hx hmem hsame
        exact ⟨w', hplace, hid.trans hxid, hheld _ hxheld⟩
      · exact ⟨x, hkeep x hx hsame, hxid, hxheld⟩
    · obtain rfl : w.workflowId = a := Option.some.inj ((hgrown.fresh c hc).2.1.symm.trans ha)
      exact ⟨w', hplace, hid, hnew c hc⟩
  · intro x hx a ha
    rcases hrows x hx with rfl | ⟨hx, -⟩
    · rw [hid]
      rcases hbatch a ha with hold | ⟨c, hc, rfl⟩
      · obtain ⟨c, hc, hcid, hworkflow⟩ := hflow.batch w hmem a hold
        exact ⟨c, hchildren c hc, hcid, hworkflow⟩
      · exact ⟨c, hgrown.children ▸ List.mem_append_right _ hc, rfl, (hgrown.fresh c hc).2.1⟩
    · obtain ⟨c, hc, hcid, hworkflow⟩ := hflow.batch x hx a ha
      exact ⟨c, hchildren c hc, hcid, hworkflow⟩
  · intro x hx
    rcases hrows x hx with rfl | ⟨hx, -⟩
    · exact hdone
    · exact hflow.done x hx
  · intro x hx hphase
    rcases hrows x hx with rfl | ⟨hx, hne⟩
    · rcases hraised hphase with hrefused | ⟨c, hc, hworkflow, hcphase⟩
      · exact .inl ⟨_, hplace, rfl, hrefused⟩
      · exact .inr ⟨c, hchildren c hc, hworkflow.trans (congrArg some hid.symm), hcphase⟩
    · exact holdRejected x hx hne (hflow.raised x hx hphase)
  · intro a hrejected hstarted
    have hbefore : HasStarted s a := hgrown.hasStarted hids hs hstarted
    have hfree : ¬ Rejected s a := fun h => hflow.safe a h hbefore
    rcases hrejected with ⟨row, hrow, hrowid, hrownone⟩ | hcraised
    · rcases hrows row hrow with rfl | ⟨hrow, -⟩
      · rcases hnone hrownone with hold | hnot
        · exact hfree (.inl ⟨w, hmem, hid.symm.trans hrowid, hold⟩)
        · exact hnot (by rwa [← hid, hrowid])
      · exact hfree (.inl ⟨row, hrow, hrowid, hrownone⟩)
    · exact hfree (.inr (hgrown.raised hcraised))

include hids in
lemma Flow.insert {s s' : State} {w : Workflow} {new : List Child} {n : ℕ}
    (hflow : Flow p s) (hs : Core p s) (hgrown : Grown p { s with drawn := s.drawn + 1 } s' (some w.workflowId) new)
    (hn : n = s.drawn) (hid : w.workflowId = "workflow-" ++ p.randomUUID n) (hnew : ∀ c ∈ new, Held w c.activationId)
    (hbatch : ∀ a, some a ∈ w.batch → ∃ c ∈ new, c.activationId = a) (hphase : w.phase = .waiting) :
    Flow p { s' with workflows := s'.workflows ++ [w] } := by
  have hfresh : ∀ x ∈ s.workflows, x.workflowId ≠ w.workflowId := by
    intro x hx hsame
    obtain ⟨m, hlt, hm⟩ := hflow.drawn x hx
    have hdrawn := label_inj hids (hm.symm.trans (hsame.trans hid))
    omega
  have hrows : ∀ x, x ∈ s'.workflows ++ [w] → x = w ∨ x ∈ s.workflows := by
    intro x hx
    rw [hgrown.workflows] at hx
    rcases List.mem_append.mp hx with hx | hx
    · exact .inr hx
    · exact .inl (List.mem_singleton.mp hx)
  have hkeep : ∀ x ∈ s.workflows, x ∈ s'.workflows ++ [w] := fun x hx =>
    List.mem_append_left _ (by rwa [hgrown.workflows])
  have hplace : w ∈ s'.workflows ++ [w] := List.mem_append_right _ (List.mem_singleton_self w)
  have hchildren : ∀ c ∈ s.children, c ∈ s'.children := fun c hc => hgrown.children ▸ List.mem_append_left _ hc
  -- no child that was there is one of the new workflow
  have hnochild : ∀ c ∈ s.children, c.workflow ≠ some w.workflowId := by
    intro c hc hworkflow
    obtain ⟨x, hx, hxid, -⟩ := hflow.member c hc _ hworkflow
    exact hfresh x hx hxid
  have hcore : Core p { s with drawn := s.drawn + 1 } :=
    ⟨hs.bounded, hs.counted, hs.ids, fun c hc => (hs.drawn c hc).imp fun m hm => ⟨Nat.lt_succ_of_lt hm.1, hm.2⟩, hs.logged, hs.told⟩
  constructor
  · have hkeys := hflow.ids
    rw [hgrown.workflows]
    exact nodup_map_concat hkeys hfresh
  · intro x hx
    have hle := hgrown.drawn
    change s.drawn + 1 ≤ s'.drawn at hle
    rcases hrows x hx with rfl | hx
    · have hlt : n < s'.drawn := by omega
      exact ⟨n, hlt, hid⟩
    · obtain ⟨m, hm, hxid⟩ := hflow.drawn x hx
      have hlt : m < s'.drawn := by omega
      exact ⟨m, hlt, hxid⟩
  · intro c hc a ha
    simp only [hgrown.children] at hc
    rcases List.mem_append.mp hc with hc | hc
    · obtain ⟨x, hx, hxid, hxheld⟩ := hflow.member c hc a ha
      exact ⟨x, hkeep x hx, hxid, hxheld⟩
    · obtain rfl : w.workflowId = a := Option.some.inj ((hgrown.fresh c hc).2.1.symm.trans ha)
      exact ⟨w, hplace, rfl, hnew c hc⟩
  · intro x hx a ha
    rcases hrows x hx with rfl | hx
    · obtain ⟨c, hc, hcid⟩ := hbatch a ha
      exact ⟨c, hgrown.children ▸ List.mem_append_right _ hc, hcid, (hgrown.fresh c hc).2.1⟩
    · obtain ⟨c, hc, hcid, hworkflow⟩ := hflow.batch x hx a ha
      exact ⟨c, hchildren c hc, hcid, hworkflow⟩
  · intro x hx r hr
    rcases hrows x hx with rfl | hx
    · rw [hphase] at hr
      cases hr
    · exact hflow.done x hx r hr
  · intro x hx hraised
    rcases hrows x hx with rfl | hx
    · rw [hphase] at hraised
      cases hraised
    · rcases hflow.raised x hx hraised with ⟨row, hrow, hrowid, hnone⟩ | ⟨c, hc, hworkflow, hcphase⟩
      · exact .inl ⟨row, hkeep row hrow, hrowid, hnone⟩
      · exact .inr ⟨c, hchildren c hc, hworkflow, hcphase⟩
  · intro a hrejected hstarted
    have hbefore : HasStarted s a := hgrown.hasStarted hids hcore hstarted
    rcases hrejected with ⟨row, hrow, hrowid, hnone⟩ | hraised
    · rcases hrows row hrow with rfl | hrow
      · obtain ⟨c, hc, hworkflow, -⟩ := hbefore
        exact hnochild c hc (by rwa [hrowid])
      · exact hflow.safe a (.inl ⟨row, hrow, hrowid, hnone⟩) hbefore
    · exact hflow.safe a (.inr (hgrown.raised hraised)) hbefore

structure Inv (p : Setting) (s : State) : Prop where
  core : Core p s
  flow : Flow p s

lemma inv_initial : Inv p .initial where
  core := by
    refine ⟨Nat.zero_le _, rfl, List.nodup_nil, fun c hc => ?_, fun l hl => ?_, fun c hc => ?_⟩
    · cases hc
    · cases hl
    · cases hc
  flow := by
    refine ⟨List.nodup_nil, fun w hw => ?_, fun c hc => ?_, fun w hw => ?_, fun w hw => ?_, fun w hw => ?_, ?_⟩
    · cases hw
    · cases hc
    · cases hw
    · cases hw
    · cases hw
    · rintro a - ⟨c, hc, -⟩
      cases hc

include hids in
lemma inv_start (h : Inv p s) (request : SubagentRequest) (now : String) :
    Inv p (start p s request none now).2 := by
  rcases @start_grown p s request none now with ⟨error, -, hstart⟩ | ⟨c, -, hgrown⟩
  · rwa [hstart]
  · refine ⟨hgrown.core hids h.core, ?_⟩
    have hmem : ∀ d ∈ (start p s request none now).2.children, d ∈ s.children ∨ d.workflow = none := by
      intro d hd
      rw [hgrown.children] at hd
      exact (List.mem_append.mp hd).imp_right fun hd => (hgrown.fresh d hd).2.1
    have hchildren : ∀ d ∈ s.children, d ∈ (start p s request none now).2.children := fun d hd =>
      hgrown.children ▸ List.mem_append_left _ hd
    constructor
    · simpa only [hgrown.workflows] using h.flow.ids
    · intro w hw
      rw [hgrown.workflows] at hw
      exact (h.flow.drawn w hw).imp fun m hm => ⟨Nat.lt_of_lt_of_le hm.1 hgrown.drawn, hm.2⟩
    · intro d hd a ha
      rw [hgrown.workflows]
      rcases hmem d hd with hd | hnone
      · exact h.flow.member d hd a ha
      · rw [hnone] at ha
        cases ha
    · intro w hw a ha
      rw [hgrown.workflows] at hw
      obtain ⟨d, hd, hid⟩ := h.flow.batch w hw a ha
      exact ⟨d, hchildren d hd, hid⟩
    · simpa only [hgrown.workflows] using h.flow.done
    · intro w hw hraised
      rw [hgrown.workflows] at hw
      rcases h.flow.raised w hw hraised with hrow | ⟨d, hd, hworkflow, hphase⟩
      · exact .inl (by rwa [hgrown.workflows])
      · exact .inr ⟨d, hchildren d hd, hworkflow, hphase⟩
    · intro a hrejected hstarted
      refine h.flow.safe a ?_ (hgrown.hasStarted hids h.core hstarted)
      exact hrejected.imp (fun hrow => by rwa [hgrown.workflows] at hrow) hgrown.raised

lemma mem_mapM {α β : Type} {f : α → Option β} {xs : List α} {ys : List β} (h : xs.mapM f = some ys) {x : α} (hx : x ∈ xs) :
    ∃ y ∈ ys, f x = some y := by
  induction xs generalizing ys with
  | nil => cases hx
  | cons x' xs ih =>
    rw [List.mapM_cons] at h
    obtain ⟨y, hy, hrest⟩ := Option.bind_eq_some_iff.mp h
    obtain ⟨ys', hys, hdone⟩ := Option.bind_eq_some_iff.mp hrest
    obtain rfl : y :: ys' = ys := Option.some.inj hdone
    rcases List.mem_cons.mp hx with rfl | hx
    · exact ⟨y, List.mem_cons_self .., hy⟩
    · obtain ⟨z, hz, hfz⟩ := ih hys hx
      exact ⟨z, List.mem_cons_of_mem _ hz, hfz⟩

lemma result_id (hs : Core p s) {a : String} {r : SubagentResult} (h : (settled s (some a)).result? = some r) : r.activationId = a := by
  unfold settled at h
  simp only at h
  split at h
  · rename_i c hc
    have htold := hs.told c (lookup_mem hc)
    split at h
    · rename_i r' hphase
      unfold Told Stage at htold
      rw [hphase] at htold
      obtain rfl : r' = r := Option.some.inj h
      exact htold.2.2.trans (lookup_key hc)
    · cases h
    · cases h
  · cases h

lemma settled_rejected {a : String} (hs : Core p s) {w : String} (hbatch : ∃ c ∈ s.children, c.activationId = a ∧ c.workflow = some w)
    (h : (settled s (some a)).isRejected = true) : ∃ c ∈ s.children, c.workflow = some w ∧ c.phase = .raised := by
  obtain ⟨c, hc, rfl, hworkflow⟩ := hbatch
  refine ⟨c, hc, hworkflow, ?_⟩
  unfold settled at h
  simp only [lookup_of_mem hs.ids hc] at h
  split at h
  · cases h
  · assumption
  · cases h

lemma collected_holds (hs : Core p s) {w w' : Workflow} (h : collected s w = some w') {a : String} (hheld : Held w a) :
    ∃ r ∈ w'.children, r.activationId = a := by
  obtain ⟨results, hresults, rfl⟩ := Option.map_eq_some_iff.mp h
  rcases hheld with hbatch | ⟨r, hr, hid⟩
  · obtain ⟨r, hr, hfr⟩ := mem_mapM hresults hbatch
    exact ⟨r, List.mem_append_right _ hr, result_id hs hfr⟩
  · exact ⟨r, List.mem_append_left _ hr, hid⟩

lemma collected_id {w w' : Workflow} (h : collected s w = some w') : w'.workflowId = w.workflowId := by
  obtain ⟨results, -, rfl⟩ := Option.map_eq_some_iff.mp h
  rfl

include hids in
lemma inv_joins (h : Inv p s) {w : Workflow}
    (hw : lookup Workflow.workflowId s.workflows w.workflowId = some w) (now : String)
    (hclean : ∀ w', w.phase = .waiting → collected s w = some w' → w'.stops = false → HasStarted s w.workflowId →
      ∀ i request, (w'.nextRequests p)[i]? = some request → refusal p (s.active + i) request = none) : Inv p (joins p s w now) := by
  have hcore := h.core
  unfold joins
  split
  · rename_i hphase
    split
    · rename_i hany
      refine ⟨hcore.setWorkflows _, ?_⟩
      refine h.flow.replace hids hcore (.refl s _) hw rfl (fun a ha => ha) (fun c hc => by cases hc) (fun a ha => .inl ha)
        (fun r hr => by cases hr) (fun _ => ?_) fun hnone => .inl hnone
      obtain ⟨start, hstart, hrejected⟩ := List.any_eq_true.mp hany
      cases start with
      | none => exact .inl hstart
      | some a => exact .inr (settled_rejected hcore (h.flow.batch w (lookup_mem hw) a hstart) hrejected)
    · split
      · exact h
      · rename_i w' hcollected
        have hid := collected_id hcollected
        split
        · refine ⟨hcore.setWorkflows _, ?_⟩
          exact h.flow.replace hids hcore (.refl s _) hw hid (fun a ha => .inr (collected_holds hcore hcollected ha))
            (fun c hc => by cases hc) (fun a ha => by cases ha) (fun r hr => by cases hr; exact ⟨rfl, rfl⟩) (fun hr => by cases hr)
            fun hnone => by cases hnone
        · rename_i hstops
          obtain ⟨new, hgrown, hbatch, hrefused⟩ := startAll_grown hids s w'.workflowId now (w'.nextRequests p)
          refine ⟨(hgrown.core hids hcore).setWorkflows _, ?_⟩
          refine h.flow.replace hids hcore (hid ▸ hgrown) hw hid (fun a ha => .inr (collected_holds hcore hcollected ha))
            (fun c hc => .inl ((hbatch _).mpr ⟨c, hc, rfl⟩)) (fun a ha => .inr ((hbatch a).mp ha)) (fun r hr => by cases hr)
            (fun hr => by cases hr) fun hnone => .inr fun hstarted => ?_
          obtain ⟨i, request, hi, hrefusal⟩ := hrefused hnone
          exact hrefusal (hclean w' hphase hcollected (by simpa using hstops) hstarted i request hi)
  · exact h

include hids in
lemma inv_run (h : Inv p s) (request : WorkflowRequest) (now : String) :
    Inv p (run p s request now).2 := by
  unfold run
  split
  · exact h
  · have hcore : Core p { s with drawn := s.drawn + 1 } :=
      ⟨h.core.bounded, h.core.counted, h.core.ids, fun c hc => (h.core.drawn c hc).imp fun m hm => ⟨Nat.lt_succ_of_lt hm.1, hm.2⟩,
        h.core.logged, h.core.told⟩
    obtain ⟨new, hgrown, hbatch, -⟩ := startAll_grown hids { s with drawn := s.drawn + 1 } (newWorkflow p s.drawn request).workflowId now
      ((newWorkflow p s.drawn request).nextRequests p)
    refine ⟨(hgrown.core hids hcore).setWorkflows _, ?_⟩
    exact h.flow.insert hids h.core hgrown rfl rfl (fun c hc => .inl ((hbatch _).mpr ⟨c, hc, rfl⟩)) (fun a ha => (hbatch a).mp ha) rfl

include hids in
lemma inv_step (h : Inv p s) (a : Action) (hclean : Clean p (entry (step p) s a)) :
    Inv p (step p s a).2 := by
  cases a with
  | start request now =>
    have hstart := inv_start hids h request now
    simp only [step]
    split <;> simp_all
  | child a turn =>
    simp only [step]
    split
    · rename_i c hc
      obtain ⟨hturn, hstarts⟩ := hclean c hc
      have hid : lookup Child.activationId s.children c.activationId = some c := by rwa [lookup_key hc]
      exact ⟨core_childNext h.core hid turn hturn, flow_childNext h.core h.flow (lookup_mem hc) turn hstarts⟩
    · exact h
  | run request now => exact inv_run hids h request now
  | joins a now =>
    simp only [step]
    split
    · rename_i w hw
      have hid := lookup_key hw
      subst hid
      exact inv_joins hids h hw now fun w' => hclean w w' hw
    · exact h

lemma Inv.settledOnce (h : Inv p s) : SettledOnce p s where
  bounded := h.core.bounded
  counted := h.core.counted
  once := by
    intro a hstarted
    obtain ⟨l, hl, hstart⟩ := List.any_eq_true.mp hstarted
    obtain ⟨c, hc, hid⟩ := h.core.logged l hl
    obtain rfl : c.activationId = a := by
      unfold startOf at hstart
      cases hevent : l.event <;> simp_all [Event.activationId]
    have htold := h.core.told c hc
    unfold Told Stage at htold
    split at htold
    · simp [htold.1, htold.2]
    · simp [htold.1, htold.2]
    · simp [htold.1, htold.2]
    · simp [htold.1, htold.2.1]
    · simp [htold.1, htold.2.1]
    · simp [htold.1, htold.2.1]
    · rcases htold.2 with ⟨hresults, hends⟩ | ⟨status, hresults, hends | hends⟩ <;> simp [hresults, hends]
  exact := by
    intro c hc hover hfailed
    have htold := h.core.told c hc
    unfold Told Stage at htold
    cases hphase : c.phase <;> simp_all [isOver]
  settles := fun c hc => settles_of (lookup_of_mem h.core.ids hc)
  complete := by
    intro w hw children hlist c hc hworkflow hstarted
    obtain ⟨w', hw', hid, hheld⟩ := h.flow.member c hc _ hworkflow
    obtain rfl : w' = w := List.inj_on_of_nodup_map h.flow.ids hw' hw hid
    unfold listed? at hlist
    split at hlist
    · cases hlist
    · rename_i r hphase
      cases hlist
      obtain ⟨hchildren, hbatch⟩ := h.flow.done w' hw r hphase
      rw [hchildren]
      rcases hheld with hheld | hheld
      · rw [hbatch] at hheld
        cases hheld
      · exact hheld
    · rename_i hphase
      exact absurd ⟨c, hc, hworkflow, hstarted⟩ (h.flow.safe _ (h.flow.raised w' hw hphase))

def exampleSetting : Setting where
  providers := ["worker"]
  maxConcurrent := 4
  absoluteMaxDepth := 2
  maxTasks := 16
  maxParallel := 4
  clone := .ok
  randomUUID := fun n => String.ofList (List.replicate n '0')

lemma exampleSetting_draws : Function.Injective exampleSetting.randomUUID := by
  intro m n h
  have hlength := congrArg List.length (String.ofList_injective h)
  simpa using hlength

def exampleRequest : SubagentRequest := ⟨"parent", "run", "worker", "review", .spawn, 0, none, .null, none⟩

def exampleWorkflow (tasks : List String) : WorkflowRequest := ⟨"parent", "run", "worker", .parallel, tasks, 0⟩

def timedOut : List Action :=
  [.run (exampleWorkflow ["review"]) "0"] ++
    ([.answered .appended "0", .answered .appended "0", .deadline, .timesOut, .resumes "1", .answered .appended "1",
      .answered .appended "1"].map (.child "activation-0")) ++ [.joins "workflow-" "1"]

lemma cleanStart_appended {w now : String} (h : c.phase = .starting → ¬ Rejected s w) :
    CleanStart s c w (.answered .appended now) :=
  ⟨fun hstarting _ => h hstarting, fun _ h => by cases h⟩

def endRejected : List Action :=
  .start exampleRequest "0" ::
    ([.answered .appended "0", .answered .appended "0", .returns .null, .resumes "1", .answered .appended "1",
      .answered (.rejected false (.error "SESSION_WRITER_LOCKED")) "2", .answered .appended "2"].map (.child "activation-"))

def batchRefused : List Action :=
  [.start exampleRequest "0", .run (exampleWorkflow ["a", "b", "c", "d"]) "0", .child "activation-000" (.answered .appended "0"),
    .joins "workflow-00" "1"]

end PromptForge.Subagents
