import PromptForge.Capabilities

namespace PromptForge.Capabilities
open Runs Tables Json Texts

abbrev Event := Entry Engine Action Outcome

structure IssuedFor (m : Moment) (request : IssueRequest) (e : Engine) (grant : CapabilityGrant) : Prop where
  run : requiredId request.runId = .ok grant.runId
  node : requiredId request.nodeId = .ok grant.nodeId
  tools : ∃ tools, request.allowedTools.mapM parseTool = .ok tools ∧ grant.allowedTools = tools.toFinset
  services : grant.allowedServices = (request.allowedServices.map service).toFinset
  root : grant.workspaceRoot = m.resolve request.workspaceRoot
  calls : grant.maxCalls = max 1 (min request.maxCalls 100)
  expiry : grant.expiresAtMonotonic =
    m.now + request.ttlSeconds.elim e.defaultTtlSeconds fun ttl => max 1 (min ttl 3600)
  gates : grant.allowWorkspaceWrite = request.allowWorkspaceWrite ∧ grant.allowBuild = request.allowBuild ∧
    grant.allowNetwork = request.allowNetwork ∧ grant.allowHardware = request.allowHardware

def Issues (grant : CapabilityGrant) (i : Event) : Prop :=
  ∃ m request, i.action = .issue m request ∧ i.outcome = .issued grant ∧ IssuedFor m request i.before grant

def checked? : Action → Option (Moment × CapabilityGrant × String)
  | .validateCall m grant _ root _ _ => some (m, grant, root)
  | .validateService m grant _ root _ => some (m, grant, root)
  | .guardPublication m grant root => some (m, grant, root)
  | _ => none

def InScope (grant : CapabilityGrant) : Action → Prop
  | .validateCall _ _ call _ _ _ => call.tool ∈ grant.allowedTools
  | .validateService _ _ name _ _ => service name ∈ grant.allowedServices ∧ gateOpen grant (service name) = true
  | _ => True

def consumes : Action → Bool
  | .validateCall _ _ _ _ _ consume => consume
  | .validateService _ _ _ _ consume => consume
  | _ => false

def Outcome.isAccepted : Outcome → Bool
  | .accepted => true
  | _ => false

def spends (grant : CapabilityGrant) (e : Event) : Bool :=
  consumes e.action && e.outcome.isAccepted &&
    decide ((checked? e.action).map (fun c => c.2.1) = some grant)

structure Proper (pre : List Event) (e : Event) (m : Moment) (grant : CapabilityGrant) (root : String) : Prop where
  issued : ∃ i ∈ pre, Issues grant i
  inScope : InScope grant e.action
  sameRoot : m.resolve grant.workspaceRoot = m.resolve root
  unexpired : m.now < grant.expiresAtMonotonic
  unrevoked : ∀ r ∈ pre, r.action ≠ .revoke grant.grantId
  /-- A revocation of its run came before the grant did. -/
  runUnrevoked : ∀ r ∈ pre, r.action = .revokeRun grant.runId → grant ∉ r.before.grants
  /-- Under no spelling that `issue` accepts was its run fenced. -/
  unfenced : ∀ f ∈ pre, ∀ runId, f.action = .fenceRun runId → requiredId runId ≠ .ok grant.runId
  unspent : consumes e.action = true → (pre.countP (spends grant) : ℤ) < grant.maxCalls

structure Lawful (es : List Event) : Prop where
  proper : ∀ pre e post, es = pre ++ e :: post → ∀ m grant root, checked? e.action = some (m, grant, root) →
    e.outcome = .accepted → Proper pre e m grant root
  atMost : ∀ grant, es.countP (spends grant) = 0 ∨ (es.countP (spends grant) : ℤ) ≤ grant.maxCalls

lemma drawGrant_spec {m : Moment} {request : IssueRequest} {e : Engine} {grant : CapabilityGrant}
    (h : drawGrant m request e = .ok grant) : grant.grantId = e.nextGrant ∧ IssuedFor m request e grant := by
  unfold drawGrant at h
  obtain ⟨-, -, h⟩ := ok_of_bind h
  obtain ⟨tools, htools, h⟩ := ok_of_bind h
  obtain ⟨-, -, h⟩ := ok_of_bind h
  obtain ⟨-, -, h⟩ := ok_of_bind h
  obtain ⟨-, -, h⟩ := ok_of_bind h
  obtain ⟨-, -, h⟩ := ok_of_bind h
  obtain ⟨runId, hrun, h⟩ := ok_of_bind h
  obtain ⟨nodeId, hnode, h⟩ := ok_of_bind h
  cases h
  exact ⟨rfl, hrun, hnode, ⟨tools, htools, rfl⟩, rfl, rfl, rfl, rfl, rfl, rfl, rfl, rfl⟩

lemma issueGrant_cases (m : Moment) (request : IssueRequest) (e : Engine) :
    (∃ refusal, issueGrant m request e = (.error refusal, e)) ∨
    ∃ grant, drawGrant m request e = .ok grant ∧
      ((∃ refusal, issueGrant m request e = (.error refusal, (e.enter grant).revoke grant.grantId)) ∨
        issueGrant m request e = (.ok grant, e.enter grant)) := by
  unfold issueGrant
  rcases hg : drawGrant m request e with refusal | grant
  · exact .inl ⟨refusal, rfl⟩
  · refine .inr ⟨grant, rfl, ?_⟩
    by_cases hf : request.runId ∈ e.fencedRuns
    · exact .inl ⟨denied "capability_run_fenced", by simp only [hf, if_true]⟩
    · exact .inr (by simp only [hf, if_false])

structure Live (m : Moment) (grant : CapabilityGrant) (root : String) (e : Engine) : Prop where
  unfenced : grant.runId ∉ e.fencedRuns
  known : grant? e grant.grantId = some grant
  unrevoked : grant.grantId ∉ e.revoked
  unexpired : m.now < grant.expiresAtMonotonic
  sameRoot : m.resolve grant.workspaceRoot = m.resolve root

lemma validateLiveGrant_cases (m : Moment) (grant : CapabilityGrant) (root : String) (e : Engine) :
    (∃ refusal, validateLiveGrant m grant root e = (.error refusal, e)) ∨
    (∃ refusal, validateLiveGrant m grant root e = (.error refusal, e.revoke grant.grantId)) ∨
    Live m grant root e ∧ validateLiveGrant m grant root e = (.ok (), e) := by
  unfold validateLiveGrant
  by_cases hf : grant.runId ∈ e.fencedRuns
  · exact .inl ⟨_, by rw [if_pos hf]⟩
  · rw [if_neg hf]
    by_cases hk : grant? e grant.grantId = some grant
    · rw [if_neg (not_not.2 hk)]
      by_cases hr : grant.grantId ∈ e.revoked
      · exact .inl ⟨_, by rw [if_pos hr]⟩
      · rw [if_neg hr]
        by_cases hx : grant.expiresAtMonotonic ≤ m.now
        · exact .inr (.inl ⟨_, by rw [if_pos hx]⟩)
        · rw [if_neg hx]
          by_cases hw : m.resolve grant.workspaceRoot = m.resolve root
          · exact .inr (.inr ⟨⟨hf, hk, hr, not_le.1 hx, hw⟩, by rw [if_neg (not_not.2 hw)]⟩)
          · exact .inl ⟨_, by rw [if_pos hw]⟩
    · exact .inl ⟨_, by rw [if_pos hk]⟩

section Steps
variable (product : ToolPermissionPolicy)

variable {a : Action} {m : Moment} {grant : CapabilityGrant} {root : String}

lemma validate_cases
    (ha : checked? a = some (m, grant, root)) (e : Engine) :
    (∃ refusal, step product e a = (.refused refusal, e)) ∨
    (∃ refusal, step product e a = (.refused refusal, e.revoke grant.grantId)) ∨
    Live m grant root e ∧ InScope grant a ∧ (consumes a = true → (e.usage grant.grantId : ℤ) < grant.maxCalls) ∧
      step product e a = (.accepted, if consumes a then e.count grant.grantId else e) := by
  cases a with
  | validateCall m' grant' call root' policy consume =>
    obtain ⟨rfl, rfl, rfl⟩ : m' = m ∧ grant' = grant ∧ root' = root := by simpa [checked?] using ha
    simp only [step, validateCall]
    rcases validateLiveGrant_cases m' grant' root' e with ⟨refusal, h⟩ | ⟨refusal, h⟩ | ⟨hlive, h⟩ <;> rw [h]
    · exact .inl ⟨refusal, rfl⟩
    · exact .inr (.inl ⟨refusal, rfl⟩)
    · by_cases ht : call.tool ∈ grant'.allowedTools
      · by_cases hu : grant'.maxCalls ≤ e.usage grant'.grantId
        · exact .inl ⟨callLimit, by simp only [ht, hu, not_true_eq_false, if_false, if_true]; rfl⟩
        · simp only [ht, hu, not_true_eq_false, if_false]
          rcases hp : (policy.getD product) call root' with refusal | _
          · exact .inl ⟨refusal, rfl⟩
          · exact .inr (.inr ⟨hlive, ht, fun _ => not_le.1 hu, rfl⟩)
      · exact .inl ⟨denied "tool_capability_denied", by simp only [ht, not_false_eq_true, if_true]; rfl⟩
  | validateService m' grant' name root' consume =>
    obtain ⟨rfl, rfl, rfl⟩ : m' = m ∧ grant' = grant ∧ root' = root := by simpa [checked?] using ha
    simp only [step, validateService]
    rcases validateLiveGrant_cases m' grant' root' e with ⟨refusal, h⟩ | ⟨refusal, h⟩ | ⟨hlive, h⟩ <;> rw [h]
    · exact .inl ⟨refusal, rfl⟩
    · exact .inr (.inl ⟨refusal, rfl⟩)
    · by_cases ht : service name ∈ grant'.allowedServices
      · by_cases hgate : gateOpen grant' (service name) = true
        · by_cases hu : grant'.maxCalls ≤ e.usage grant'.grantId
          · exact .inl ⟨callLimit, by
              simp only [ht, hgate, hu, not_true_eq_false, Bool.true_eq_false, if_false, if_true]; rfl⟩
          · simp only [ht, hgate, hu, not_true_eq_false, Bool.true_eq_false, if_false]
            exact .inr (.inr ⟨hlive, ⟨ht, hgate⟩, fun _ => not_le.1 hu, rfl⟩)
        · rw [Bool.not_eq_true] at hgate
          exact .inl ⟨denied "service_capability_gate_closed", by
            simp only [ht, hgate, not_true_eq_false, if_false, if_true]; rfl⟩
      · exact .inl ⟨denied "service_capability_denied", by simp only [ht, not_false_eq_true, if_true]; rfl⟩
  | guardPublication m' grant' root' =>
    obtain ⟨rfl, rfl, rfl⟩ : m' = m ∧ grant' = grant ∧ root' = root := by simpa [checked?] using ha
    simp only [step]
    rcases validateLiveGrant_cases m' grant' root' e with ⟨refusal, h⟩ | ⟨refusal, h⟩ | ⟨hlive, h⟩ <;> rw [h]
    · exact .inl ⟨refusal, rfl⟩
    · exact .inr (.inl ⟨refusal, rfl⟩)
    · exact .inr (.inr ⟨hlive, trivial, fun h => absurd h Bool.false_ne_true, rfl⟩)
  | issue m request => cases ha
  | revoke grantId => cases ha
  | revokeRun runId => cases ha
  | fenceRun runId => cases ha

structure Grows (e e' : Engine) : Prop where
  revoked : e.revoked ⊆ e'.revoked
  fenced : e.fencedRuns ⊆ e'.fencedRuns
  grants : e.grants ⊆ e'.grants

lemma grows_refl (e : Engine) : Grows e e := ⟨subset_rfl, subset_rfl, fun _ h => h⟩

lemma grows_trans {a b c : Engine} (hab : Grows a b) (hbc : Grows b c) : Grows a c :=
  ⟨hab.revoked.trans hbc.revoked, hab.fenced.trans hbc.fenced, fun _ h => hbc.grants (hab.grants h)⟩

lemma grows_revoke (grantId : ℕ) (e : Engine) : Grows e (e.revoke grantId) :=
  ⟨Finset.subset_insert _ _, subset_rfl, fun _ h => h⟩

lemma grows_enter (grant : CapabilityGrant) (e : Engine) : Grows e (e.enter grant) :=
  ⟨subset_rfl, subset_rfl, fun _ h => List.mem_append_left _ h⟩

lemma grows_count (grantId : ℕ) (e : Engine) : Grows e (e.count grantId) :=
  ⟨subset_rfl, subset_rfl, fun _ h => h⟩

lemma grows_revokeRun (runId : String) (e : Engine) : Grows e (e.revokeRun runId) :=
  ⟨Finset.subset_union_left, subset_rfl, fun _ h => h⟩

lemma grows_fenceRun (runId : String) (e : Engine) : Grows e (e.fenceRun runId) :=
  ⟨Finset.subset_union_left, Finset.subset_insert _ _, fun _ h => h⟩

lemma grows_validate
    (ha : checked? a = some (m, grant, root)) (e : Engine) : Grows e (step product e a).2 := by
  rcases validate_cases product ha e with ⟨refusal, h⟩ | ⟨refusal, h⟩ | ⟨-, -, -, h⟩ <;> rw [h]
  · exact grows_refl e
  · exact grows_revoke _ e
  · change Grows e (if consumes a then e.count grant.grantId else e)
    split
    · exact grows_count _ e
    · exact grows_refl e

lemma step_grows (e : Engine) (a : Action) : Grows e (step product e a).2 := by
  cases a with
  | issue m request =>
    simp only [step, answer]
    rcases issueGrant_cases m request e with ⟨refusal, h⟩ | ⟨grant, -, ⟨refusal, h⟩ | h⟩ <;> rw [h]
    · exact grows_refl e
    · exact grows_trans (grows_enter grant e) (grows_revoke _ _)
    · exact grows_enter grant e
  | validateCall m grant call root policy consume => exact grows_validate product rfl e
  | validateService m grant name root consume => exact grows_validate product rfl e
  | guardPublication m grant root => exact grows_validate product rfl e
  | revoke grantId => exact grows_revoke grantId e
  | revokeRun runId => exact grows_revokeRun runId e
  | fenceRun runId => exact grows_fenceRun runId e

structure Distinct (e : Engine) : Prop where
  nodup : (e.grants.map CapabilityGrant.grantId).Nodup
  fresh : ∀ grant ∈ e.grants, grant.grantId < e.nextGrant

structure Remembers (es : List Event) (e : Engine) : Prop where
  distinct : Distinct e
  issued : ∀ grant ∈ e.grants, (∃ i ∈ es, Issues grant i) ∨ grant.grantId ∈ e.revoked
  counted : ∀ grant ∈ e.grants, e.usage grant.grantId = es.countP (spends grant) ∧
    (es.countP (spends grant) = 0 ∨ (es.countP (spends grant) : ℤ) ≤ grant.maxCalls)
  uncounted : ∀ grant, grant ∉ e.grants → es.countP (spends grant) = 0
  unused : ∀ grantId, e.nextGrant ≤ grantId → e.usage grantId = 0

variable {product}

lemma countP_snoc {α : Type} (p : α → Bool) (xs : List α) (x : α) :
    (xs ++ [x]).countP p = xs.countP p + if p x then 1 else 0 := by
  rw [List.countP_append, List.countP_singleton]

variable {es : List Event} {e : Engine}

lemma remembers_quiet {e' : Engine} {x : Event} (h : Remembers es e)
    (hgrants : e'.grants = e.grants) (hnext : e'.nextGrant = e.nextGrant) (husage : e'.usage = e.usage)
    (hrevoked : e.revoked ⊆ e'.revoked) (hx : ∀ grant, spends grant x = false) : Remembers (es ++ [x]) e' := by
  have hcount (grant : CapabilityGrant) : (es ++ [x]).countP (spends grant) = es.countP (spends grant) := by
    rw [countP_snoc, hx]
    rfl
  refine ⟨⟨?_, ?_⟩, ?_, ?_, ?_, ?_⟩
  · rw [hgrants]
    exact h.distinct.nodup
  · rw [hgrants, hnext]
    exact h.distinct.fresh
  · intro grant hg
    rw [hgrants] at hg
    rcases h.issued grant hg with ⟨i, hi, hiss⟩ | hr
    · exact .inl ⟨i, List.mem_append_left _ hi, hiss⟩
    · exact .inr (hrevoked hr)
  · intro grant hg
    rw [hgrants] at hg
    rw [hcount, husage]
    exact h.counted grant hg
  · intro grant hg
    rw [hgrants] at hg
    rw [hcount]
    exact h.uncounted grant hg
  · rw [hnext, husage]
    exact h.unused

lemma remembers_enter {e' : Engine} {x : Event} (h : Remembers es e)
    (hid : grant.grantId = e.nextGrant) (hgrants : e'.grants = e.grants ++ [grant])
    (hnext : e'.nextGrant = e.nextGrant + 1) (husage : e'.usage = e.usage) (hrevoked : e.revoked ⊆ e'.revoked)
    (hnew : Issues grant x ∨ grant.grantId ∈ e'.revoked) (hx : ∀ grant, spends grant x = false) :
    Remembers (es ++ [x]) e' := by
  have hcount (grant : CapabilityGrant) : (es ++ [x]).countP (spends grant) = es.countP (spends grant) := by
    rw [countP_snoc, hx]
    rfl
  have hnot : grant ∉ e.grants := by
    intro hmem
    have hlt := h.distinct.fresh grant hmem
    omega
  refine ⟨⟨?_, ?_⟩, ?_, ?_, ?_, ?_⟩
  · rw [hgrants]
    refine nodup_map_concat h.distinct.nodup fun g hg => ?_
    have hlt := h.distinct.fresh g hg
    omega
  · intro g hg
    rw [hgrants, List.mem_append, List.mem_singleton] at hg
    rw [hnext]
    rcases hg with hg | rfl
    · have hlt := h.distinct.fresh g hg
      omega
    · omega
  · intro g hg
    rw [hgrants, List.mem_append, List.mem_singleton] at hg
    rcases hg with hg | rfl
    · rcases h.issued g hg with ⟨i, hi, hiss⟩ | hr
      · exact .inl ⟨i, List.mem_append_left _ hi, hiss⟩
      · exact .inr (hrevoked hr)
    · rcases hnew with hiss | hr
      · exact .inl ⟨x, List.mem_append_right _ (List.mem_singleton_self x), hiss⟩
      · exact .inr hr
  · intro g hg
    rw [hgrants, List.mem_append, List.mem_singleton] at hg
    rw [hcount, husage]
    rcases hg with hg | rfl
    · exact h.counted g hg
    · have hzero := h.uncounted g hnot
      rw [hzero, hid]
      exact ⟨h.unused _ le_rfl, .inl rfl⟩
  · intro g hg
    rw [hgrants, List.mem_append, not_or] at hg
    rw [hcount]
    exact h.uncounted g hg.1
  · intro grantId hle
    rw [hnext] at hle
    rw [husage]
    exact h.unused grantId (by omega)

lemma remembers_count {x : Event} (h : Remembers es e)
    (hknown : grant? e grant.grantId = some grant) (hroom : (e.usage grant.grantId : ℤ) < grant.maxCalls)
    (hx : ∀ g, spends g x = decide (grant = g)) : Remembers (es ++ [x]) (e.count grant.grantId) := by
  have hmem : grant ∈ e.grants := lookup_mem hknown
  have hcount (g : CapabilityGrant) :
      (es ++ [x]).countP (spends g) = es.countP (spends g) + if grant = g then 1 else 0 := by
    rw [countP_snoc, hx]
    simp
  refine ⟨⟨h.distinct.nodup, h.distinct.fresh⟩, ?_, ?_, ?_, ?_⟩
  · intro g hg
    rcases h.issued g hg with ⟨i, hi, hiss⟩ | hr
    · exact .inl ⟨i, List.mem_append_left _ hi, hiss⟩
    · exact .inr hr
  · intro g hg
    obtain ⟨husage, hmax⟩ := h.counted g hg
    change Function.update e.usage grant.grantId _ g.grantId = _ ∧ _
    rw [hcount]
    by_cases hgg : grant = g
    · subst hgg
      rw [Function.update_self, if_pos rfl, husage]
      rw [husage] at hroom
      exact ⟨rfl, .inr (by push_cast; omega)⟩
    · -- two grants of the engine with one identity would be one grant
      have hid : g.grantId ≠ grant.grantId := by
        intro heq
        have hfound : grant? e g.grantId = some g := lookup_of_mem h.distinct.nodup hg
        rw [heq, hknown] at hfound
        exact hgg (Option.some.inj hfound)
      rw [Function.update_of_ne hid, if_neg hgg]
      exact ⟨husage, hmax⟩
  · intro g hg
    have hne : grant ≠ g := by
      rintro rfl
      exact hg hmem
    rw [hcount, if_neg hne]
    exact h.uncounted g hg
  · intro grantId hle
    have hlt := h.distinct.fresh grant hmem
    change e.nextGrant ≤ grantId at hle
    change Function.update e.usage grant.grantId _ grantId = 0
    rw [Function.update_of_ne (by omega)]
    exact h.unused grantId hle

lemma remembers_validate
    (ha : checked? a = some (m, grant, root)) (h : Remembers es e) :
    Remembers (es ++ [entry (step product) e a]) (step product e a).2 := by
  have hspends (g : CapabilityGrant) : spends g (entry (step product) e a) =
      (consumes a && (step product e a).1.isAccepted && decide (grant = g)) := by
    unfold spends
    rw [entry_action, entry_outcome, ha]
    simp
  rcases validate_cases product ha e with ⟨refusal, hstep⟩ | ⟨refusal, hstep⟩ | ⟨hlive, -, hroom, hstep⟩
  · have hquiet (g : CapabilityGrant) : spends g (entry (step product) e a) = false := by
      rw [hspends, hstep]
      simp [Outcome.isAccepted]
    rw [hstep] at *
    exact remembers_quiet h rfl rfl rfl subset_rfl hquiet
  · have hquiet (g : CapabilityGrant) : spends g (entry (step product) e a) = false := by
      rw [hspends, hstep]
      simp [Outcome.isAccepted]
    rw [hstep] at *
    exact remembers_quiet h rfl rfl rfl (Finset.subset_insert _ _) hquiet
  · rw [hstep] at hspends ⊢
    by_cases hc : consumes a = true
    · simp only [hc, if_true]
      refine remembers_count h hlive.known (hroom hc) fun g => ?_
      rw [hspends, hc]
      rfl
    · rw [Bool.not_eq_true] at hc
      simp only [hc, Bool.false_eq_true, if_false]
      refine remembers_quiet h rfl rfl rfl subset_rfl fun g => ?_
      rw [hspends, hc]
      rfl

lemma remembers_step (a : Action) (h : Remembers es e) :
    Remembers (es ++ [entry (step product) e a]) (step product e a).2 := by
  cases a with
  | issue m request =>
    have hstep : step product e (.issue m request) = answer .issued (issueGrant m request e) := rfl
    have hquiet (g : CapabilityGrant) : spends g (entry (step product) e (.issue m request)) = false := rfl
    rcases issueGrant_cases m request e with ⟨refusal, hi⟩ | ⟨grant, hdraw, ⟨refusal, hi⟩ | hi⟩
    · rw [hstep, hi]
      exact remembers_quiet h rfl rfl rfl subset_rfl hquiet
    · rw [hstep, hi]
      exact remembers_enter h (drawGrant_spec hdraw).1 rfl rfl rfl (Finset.subset_insert _ _)
        (.inr (Finset.mem_insert_self _ _)) hquiet
    · have hiss : Issues grant (entry (step product) e (.issue m request)) := by
        refine ⟨m, request, rfl, ?_, (drawGrant_spec hdraw).2⟩
        rw [entry_outcome, hstep, hi]
        rfl
      rw [hstep, hi]
      exact remembers_enter h (drawGrant_spec hdraw).1 rfl rfl rfl subset_rfl (.inl hiss) hquiet
  | validateCall m grant call root policy consume => exact remembers_validate rfl h
  | validateService m grant name root consume => exact remembers_validate rfl h
  | guardPublication m grant root => exact remembers_validate rfl h
  | revoke grantId => exact remembers_quiet h rfl rfl rfl (Finset.subset_insert _ _) fun _ => rfl
  | revokeRun runId => exact remembers_quiet h rfl rfl rfl Finset.subset_union_left fun _ => rfl
  | fenceRun runId => exact remembers_quiet h rfl rfl rfl Finset.subset_union_left fun _ => rfl

variable (product) in
lemma remembers (ttl : ℚ) (as : List Action) :
    Remembers (trace (step product) (.initial ttl) as) (final (step product) (.initial ttl) as) := by
  refine history_of (P := Remembers) (K := fun _ => True) (fun es e a h _ => remembers_step a h) ?_
    fun _ _ => trivial
  exact ⟨⟨List.nodup_nil, nofun⟩, nofun, nofun, fun _ _ => rfl, fun _ _ => rfl⟩

def NamedPlainly (runId : String) : Prop := ∀ stored, requiredId runId = .ok stored → stored = runId

def FencesPlainly (e : Event) : Prop := ∀ runId, e.action = .fenceRun runId → NamedPlainly runId

structure Marked (r : Event) (e : Engine) : Prop where
  revoked : ∀ grantId, r.action = .revoke grantId → grantId ∈ e.revoked
  run : ∀ runId, r.action = .revokeRun runId → ∀ grant ∈ r.before.grants, grant.runId = runId →
    grant.grantId ∈ e.revoked
  fenced : ∀ runId, r.action = .fenceRun runId → runId ∈ e.fencedRuns

lemma marked_of_grows {r : Event} {e' : Engine} (h : Marked r e) (hg : Grows e e') : Marked r e' :=
  ⟨fun grantId hr => hg.revoked (h.revoked grantId hr),
    fun runId hr grant hm hrun => hg.revoked (h.run runId hr grant hm hrun),
    fun runId hr => hg.fenced (h.fenced runId hr)⟩

lemma marked_step (e : Engine) (a : Action) : Marked (entry (step product) e a) (step product e a).2 := by
  refine ⟨?_, ?_, ?_⟩
  · rintro grantId ⟨rfl⟩
    exact Finset.mem_insert_self ..
  · rintro runId ⟨rfl⟩ grant hm hrun
    refine Finset.mem_union_right _ ?_
    rw [List.mem_toFinset]
    exact List.mem_map_of_mem (List.mem_filter.2 ⟨hm, decide_eq_true hrun⟩)
  · rintro runId ⟨rfl⟩
    exact Finset.mem_insert_self ..

def Respects (r x : Event) : Prop :=
  ∀ m grant root, checked? x.action = some (m, grant, root) → x.outcome = .accepted →
    r.action ≠ .revoke grant.grantId ∧ (r.action = .revokeRun grant.runId → grant ∉ r.before.grants) ∧
      (FencesPlainly r → ∀ runId, r.action = .fenceRun runId → requiredId runId ≠ .ok grant.runId)

lemma live_of_accepted
    (ha : checked? a = some (m, grant, root)) (ho : (step product e a).1 = .accepted) :
    Live m grant root e ∧ InScope grant a ∧ (consumes a = true → (e.usage grant.grantId : ℤ) < grant.maxCalls) := by
  rcases validate_cases product ha e with ⟨refusal, h⟩ | ⟨refusal, h⟩ | ⟨hlive, hscope, hroom, -⟩
  · rw [h] at ho
    cases ho
  · rw [h] at ho
    cases ho
  · exact ⟨hlive, hscope, hroom⟩

lemma respects_of_marked {r : Event} (a : Action) (h : Marked r e) :
    Respects r (entry (step product) e a) := by
  intro m grant root ha ho
  obtain ⟨hlive, -, -⟩ := live_of_accepted ha ho
  refine ⟨fun hr => hlive.unrevoked (h.revoked _ hr), fun hr hm => hlive.unrevoked (h.run _ hr grant hm rfl), ?_⟩
  intro hplain runId hr hstored
  have heq : grant.runId = runId := hplain runId hr _ hstored
  exact hlive.unfenced (heq ▸ h.fenced runId hr)

variable (product) in
lemma respects (ttl : ℚ) (as : List Action) : (trace (step product) (.initial ttl) as).Pairwise Respects :=
  pairwise_of (I := fun _ => True) (K := fun _ => True) (P := Marked) (fun _ _ _ _ => trivial)
    (fun e a _ _ => marked_step e a) (fun _ e a _ _ h => marked_of_grows h (step_grows product e a))
    (fun _ _ a _ _ h => respects_of_marked a h) trivial fun _ _ => trivial

/-- Every run in which each fence names its run as `issue` would store it. -/
theorem lawful_of_fencesPlainly (product : ToolPermissionPolicy) (ttl : ℚ) (actions : List Action)
    (hplain : ∀ e ∈ trace (step product) (.initial ttl) actions, FencesPlainly e) :
    Lawful (trace (step product) (.initial ttl) actions) := by
  refine ⟨?_, ?_⟩
  · intro pre x post hsplit m grant root ha ho
    have hpair := respects product ttl actions
    rw [hsplit, List.pairwise_append] at hpair
    have hearlier : ∀ r ∈ pre, Respects r x := fun r hr => hpair.2.2 r hr x (List.mem_cons_self ..)
    have hplainPre : ∀ r ∈ pre, FencesPlainly r := fun r hr => hplain r (hsplit ▸ List.mem_append_left _ hr)
    obtain ⟨as₁, a, as₂, -, hpre, hx, -⟩ := trace_split hsplit
    have hremembers : Remembers pre (final (step product) (.initial ttl) as₁) := hpre ▸ remembers product ttl as₁
    have hact : x.action = a := by rw [hx, entry_action]
    have hcall : checked? a = some (m, grant, root) := hact ▸ ha
    have hout := ho
    rw [hx, entry_outcome] at hout
    obtain ⟨hlive, hscope, hroom⟩ := live_of_accepted hcall hout
    have hmem := lookup_mem hlive.known
    rw [← hact] at hscope hroom
    refine ⟨?_, hscope, hlive.sameRoot, hlive.unexpired, ?_, ?_, ?_, ?_⟩
    · rcases hremembers.issued grant hmem with hiss | hr
      · exact hiss
      · exact absurd hr hlive.unrevoked
    · exact fun r hr => (hearlier r hr m grant root ha ho).1
    · exact fun r hr => (hearlier r hr m grant root ha ho).2.1
    · exact fun r hr => (hearlier r hr m grant root ha ho).2.2 (hplainPre r hr)
    · intro hc
      have hlt := hroom hc
      rwa [(hremembers.counted grant hmem).1] at hlt
  · intro grant
    have hremembers := remembers product ttl actions
    by_cases hmem : grant ∈ (final (step product) (.initial ttl) actions).grants
    · exact (hremembers.counted grant hmem).2
    · exact .inl (hremembers.uncounted grant hmem)

lemma issued_spec (h : (step product e a).1 = .issued grant) : 0 ≤ grant.maxCalls ∧ grant ∈ (step product e a).2.grants := by
  have hchecked {m' grant' root'} (ha : checked? a = some (m', grant', root')) : False := by
    rcases validate_cases product ha e with ⟨_, hstep⟩ | ⟨_, hstep⟩ | ⟨-, -, -, hstep⟩ <;> simp [hstep] at h
  cases a with
  | issue m request =>
    simp only [step, answer] at h ⊢
    rcases issueGrant_cases m request e with ⟨_, hi⟩ | ⟨drawn, hdraw, ⟨_, hi⟩ | hi⟩ <;> rw [hi] at h ⊢
    · cases h
    · cases h
    · cases h
      have hcalls := (drawGrant_spec hdraw).2.calls
      exact ⟨by omega, List.mem_append_right _ (List.mem_singleton_self _)⟩
  | validateCall | validateService | guardPublication => exact (hchecked rfl).elim
  | revoke | revokeRun | fenceRun => cases h

/-- What remains of a grant and what was spent of it make what it was issued with, in every run. -/
theorem calls_metered (product : ToolPermissionPolicy) (ttl : ℚ) (actions : List Action) (grant : CapabilityGrant)
    (hissued : ∃ i ∈ trace (step product) (.initial ttl) actions, i.outcome = .issued grant) :
    remainingCalls grant (final (step product) (.initial ttl) actions) +
      (trace (step product) (.initial ttl) actions).countP (spends grant) = grant.maxCalls := by
  obtain ⟨i, hi, hout⟩ := hissued
  obtain ⟨pre, post, hactions, hentry⟩ := mem_trace hi
  rw [hentry] at hout
  obtain ⟨hcalls, hentered⟩ := issued_spec hout
  have hgrows : Grows (step product (final (step product) (.initial ttl) pre) i.action).2
      (final (step product) (.initial ttl) actions) := by
    rw [hactions, final_append, final_cons]
    exact monotone_of (I := fun _ => True) (K := fun _ => True) grows_refl (fun _ _ _ => grows_trans) (fun _ _ _ _ => trivial)
      (fun e a _ _ => step_grows product e a) trivial fun _ _ => trivial
  obtain ⟨husage, hatMost⟩ := (remembers product ttl actions).counted grant (hgrows.grants hentered)
  rw [remainingCalls, husage]
  omega

end Steps

def here (now : ℚ) : Moment := ⟨now, fun _ => true, id⟩

def readRequest (runId : String) : IssueRequest :=
  { runId := runId, nodeId := "node", workspaceRoot := "/w", allowedTools := [.inl .readFile], authorizationSource := "chat" }

def readGrant : CapabilityGrant where
  grantId := 0
  sessionId := none
  runId := "run"
  nodeId := "node"
  workspaceRoot := "/w"
  allowedTools := {.readFile}
  allowedServices := ∅
  authorizationSource := "chat"
  expiresAtMonotonic := 300
  maxCalls := 20
  allowWorkspaceWrite := false
  allowBuild := false
  allowNetwork := false
  allowHardware := false

def fencedSpelling (fence : String) : List Action :=
  [.issue (here 0) (readRequest " run"), .fenceRun fence,
    .validateCall (here 1) readGrant ⟨.readFile, []⟩ "/w" none true]

def permitAll : ToolPermissionPolicy := fun _ _ => .ok ()

example : (trace (step permitAll) (.initial 300) (fencedSpelling "run")).map (fun e => e.outcome.isAccepted) =
    [false, false, false] := by decide +kernel

/-- Fenced under the very name it was issued under, the run's grant still passes. -/
theorem fenced_run_accepted :
    ¬ ∀ (product : ToolPermissionPolicy) (ttl : ℚ) (actions : List Action),
      Lawful (trace (step product) (.initial ttl) actions) := by
  intro h
  have hrun := (h permitAll 300 (fencedSpelling " run")).proper
  have hproper := hrun ((trace (step permitAll) (.initial 300) (fencedSpelling " run")).take 2) _ [] rfl
    (here 1) readGrant "/w" rfl (by decide +kernel)
  exact hproper.unfenced _ (List.mem_cons_of_mem _ (List.mem_cons_self ..)) " run" rfl (by decide +kernel)

theorem calls_metered_spent : remainingCalls readGrant (final (step permitAll) (.initial 300) (fencedSpelling "other")) +
    (trace (step permitAll) (.initial 300) (fencedSpelling "other")).countP (spends readGrant) = readGrant.maxCalls :=
  calls_metered permitAll 300 (fencedSpelling "other") readGrant ⟨_, List.mem_cons_self .., by decide +kernel⟩

theorem lawful_of_fencesPlainly_other :
    Lawful (trace (step permitAll) (.initial 300) (fencedSpelling "other")) := by
  refine lawful_of_fencesPlainly permitAll 300 (fencedSpelling "other") ?_
  intro e he runId hrun stored hstored
  have hname : runId = "other" := by
    rcases List.mem_cons.1 he with rfl | he
    · cases hrun
    · rcases List.mem_cons.1 he with rfl | he
      · cases hrun
        rfl
      · rcases List.mem_cons.1 he with rfl | he
        · cases hrun
        · cases he
  subst hname
  have hplain : requiredId "other" = .ok "other" := by decide +kernel
  rw [hplain] at hstored
  exact (Except.ok.inj hstored).symm

end PromptForge.Capabilities
