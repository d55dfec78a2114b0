import PromptForge.Approvals

namespace PromptForge.Approvals
open Runs Tables

/-- Later tables keep every approval, with what it was issued for, and never
    make a settled one pending again. -/
def Kept (t t' : Table) : Prop :=
  ∀ approvalId row, find t approvalId = some row → ∃ row', find t' approvalId = some row' ∧
    row'.fingerprint = row.fingerprint ∧ row'.payload.expiresAt = row.payload.expiresAt ∧
    (row'.status = .pending → row.status = .pending)

lemma kept_refl (t : Table) : Kept t t := fun _ row h => ⟨row, h, rfl, rfl, id⟩

lemma kept_trans {a b c : Table} (hab : Kept a b) (hbc : Kept b c) : Kept a c := by
  intro approvalId row h
  obtain ⟨row', h', hf, he, hs⟩ := hab approvalId row h
  obtain ⟨row'', h'', hf', he', hs'⟩ := hbc approvalId row' h'
  exact ⟨row'', h'', hf'.trans hf, he'.trans he, hs ∘ hs'⟩

lemma kept_updateWhere {p : Row → Bool} {f : Row → Row} (t : Table)
    (hkey : ∀ r, (f r).approvalId = r.approvalId) (hfp : ∀ r, (f r).fingerprint = r.fingerprint)
    (hexp : ∀ r ∈ t, p r = true → (f r).payload.expiresAt = r.payload.expiresAt)
    (hst : ∀ r, (f r).status ≠ .pending) : Kept t (updateWhere p f t) := by
  intro approvalId row h
  refine ⟨if p row then f row else row, ?_, ?_, ?_, ?_⟩
  · rw [find, lookup_updateWhere hkey, show lookup Row.approvalId t approvalId = some row from h]
    rfl
  · split
    · exact hfp row
    · rfl
  · split
    · exact hexp row (lookup_mem h) ‹_›
    · rfl
  · split
    · exact fun hp => absurd hp (hst row)
    · exact id

lemma saveApproval_cases (approval : Payload) (t : Table) :
    saveApproval approval t = (.error .integrityError, t) ∨
    find t approval.approvalId = none ∧ saveApproval approval t = (.ok (), t ++ [rowOf approval]) := by
  rcases h : insertRow Row.approvalId (rowOf approval) t with _ | t'
  · exact .inl (transaction_raises (by rw [h]))
  · obtain ⟨hfresh, rfl⟩ := insertRow_eq_some h
    exact .inr ⟨hfresh, transaction_commits (by rw [h])⟩

lemma consumeApproval_cases (approvalId fingerprint : String) (now stamp : Time) (t : Table) :
    (∃ refusal, consumeApproval approvalId fingerprint now stamp t = (.error refusal, t)) ∨
    ∃ row, find t approvalId = some row ∧ row.status = .pending ∧ row.fingerprint = fingerprint ∧
      now < row.payload.expiresAt ∧
      consumeApproval approvalId fingerprint now stamp t =
        (.ok (consumedPayload stamp row.payload),
          updateWhere (fun r => r.approvalId = approvalId ∧ r.status = .pending)
            (markConsumed (consumedPayload stamp row.payload)) t) := by
  rcases hrow : find t approvalId with _ | row
  · exact .inl ⟨.notFound, transaction_raises (by simp only [hrow])⟩
  · by_cases hp : row.status = .pending
    · by_cases hf : row.fingerprint = fingerprint
      · by_cases he : row.payload.expiresAt ≤ now
        · refine .inl ⟨.expired, transaction_raises ?_⟩
          simp only [hrow, hp, hf, he, ne_eq, not_true_eq_false, if_false, if_true]
        · refine .inr ⟨row, rfl, hp, hf, not_le.1 he, transaction_commits ?_⟩
          simp only [hrow, hp, hf, he, ne_eq, not_true_eq_false, if_false]
      · refine .inl ⟨.fingerprintChanged, transaction_raises ?_⟩
        simp only [hrow, hp, hf, ne_eq, not_true_eq_false, not_false_eq_true, if_false, if_true]
    · refine .inl ⟨.alreadyConsumed, transaction_raises ?_⟩
      simp only [hrow, hp, ne_eq, not_false_eq_true, if_true]

lemma kept_saveApproval (approval : Payload) (t : Table) :
    Kept t (saveApproval approval t).2 := by
  rcases saveApproval_cases approval t with h | ⟨-, h⟩ <;> rw [h]
  · exact kept_refl t
  · intro approvalId row hrow
    refine ⟨row, ?_, rfl, rfl, id⟩
    rw [find, lookup_append, show lookup Row.approvalId t approvalId = some row from hrow]
    rfl

lemma eq_of_find {t : Table} (hn : (t.map Row.approvalId).Nodup) {approvalId : String}
    {row r : Row} (hrow : find t approvalId = some row) (hr : r ∈ t)
    (hid : r.approvalId = approvalId) : r = row := by
  have h := lookup_of_mem hn hr
  rw [hid, show lookup Row.approvalId t approvalId = some row from hrow] at h
  exact (Option.some.inj h).symm

lemma kept_consumeApproval (approvalId fingerprint : String) (now stamp : Time) {t : Table}
    (hn : (t.map Row.approvalId).Nodup) :
    Kept t (consumeApproval approvalId fingerprint now stamp t).2 := by
  rcases consumeApproval_cases approvalId fingerprint now stamp t with
    ⟨refusal, h⟩ | ⟨row, hrow, -, -, -, h⟩ <;> rw [h]
  · exact kept_refl t
  · refine kept_updateWhere t (fun _ => rfl) (fun _ => rfl) (fun r hr hp => ?_) (fun _ => nofun)
    have hid : r.approvalId = approvalId := (of_decide_eq_true hp).1
    rw [eq_of_find hn hrow hr hid]
    rfl

lemma kept_invalidatePendingApprovals (runId reason : String) (stamp : Time) (t : Table) :
    Kept t (invalidatePendingApprovals runId reason stamp t).2 :=
  kept_updateWhere t (fun _ => rfl) (fun _ => rfl) (fun _ _ _ => rfl) (fun _ => nofun)

section Runs
variable {Binding : Type} (sha256 : String × Binding → String)

variable {t : Table}

lemma step_kept (hn : (t.map Row.approvalId).Nodup) (a : Action Binding) :
    Kept t (step sha256 t a).2 := by
  cases a with
  | issue => exact kept_saveApproval _ _
  | consume => exact kept_consumeApproval _ _ _ _ hn
  | consumeDirect => exact kept_consumeApproval _ _ _ _ hn
  | invalidate => exact kept_invalidatePendingApprovals _ _ _ _

lemma saveApproval_nodup (approval : Payload) (hn : (t.map Row.approvalId).Nodup) :
    ((saveApproval approval t).2.map Row.approvalId).Nodup := by
  rcases saveApproval_cases approval t with h | ⟨hfresh, h⟩ <;> rw [h]
  · exact hn
  · refine nodup_insertRow (r := rowOf approval) ?_ hn
    unfold insertRow
    rw [show lookup Row.approvalId t (rowOf approval).approvalId = none from hfresh]
    rfl

lemma consumeApproval_nodup (approvalId fingerprint : String) (now stamp : Time)
    (hn : (t.map Row.approvalId).Nodup) :
    ((consumeApproval approvalId fingerprint now stamp t).2.map Row.approvalId).Nodup := by
  rcases consumeApproval_cases approvalId fingerprint now stamp t with
    ⟨refusal, h⟩ | ⟨row, -, -, -, -, h⟩ <;> rw [h]
  · exact hn
  · exact nodup_updateWhere (markConsumed_approvalId _) hn

lemma step_nodup (hn : (t.map Row.approvalId).Nodup) (a : Action Binding) :
    ((step sha256 t a).2.map Row.approvalId).Nodup := by
  cases a with
  | issue => exact saveApproval_nodup _ hn
  | consume => exact consumeApproval_nodup _ _ _ _ hn
  | consumeDirect => exact consumeApproval_nodup _ _ _ _ hn
  | invalidate runId reason stamp =>
    exact nodup_updateWhere (markInvalidated_approvalId reason stamp) hn

abbrev Step (Binding : Type) := Entry Table (Action Binding) (Except Refusal Answer)

abbrev history (actions : List (Action Binding)) : List (Step Binding) :=
  trace (step sha256) [] actions

def consumption : Action Binding → Option (String × String × Time)
  | .consume approvalId actionType binding now _ =>
    some (approvalId, fingerprintOf sha256 actionType binding, now)
  | .consumeDirect approvalId fingerprint now _ => some (approvalId, fingerprint, now)
  | _ => none

def Consumes (e : Step Binding) (approvalId fingerprint : String) (now : Time) : Prop :=
  consumption sha256 e.action = some (approvalId, fingerprint, now) ∧
    ∃ payload, e.outcome = .ok (.consumed payload)

def Issues (e : Step Binding) (approvalId fingerprint : String) (expires : Time) : Prop :=
  ∃ request, e.outcome = .ok (.issued request) ∧ request.approvalId = approvalId ∧
    request.fingerprint = fingerprint ∧ request.expiresAt = expires

def Invalidates (e : Step Binding) (approvalId : String) : Prop :=
  ∃ runId reason stamp row, e.action = .invalidate runId reason stamp ∧
    find e.before approvalId = some row ∧ row.runId = runId ∧ row.status = .pending

def FindsExpired (e : Step Binding) (approvalId : String) : Prop :=
  ∃ fingerprint now, consumption sha256 e.action = some (approvalId, fingerprint, now) ∧
    e.outcome = .error .expired

structure SingleUse (es : List (Step Binding)) : Prop where
  once : es.Pairwise fun e e' => ∀ approvalId fp now fp' now',
    Consumes sha256 e approvalId fp now → ¬ Consumes sha256 e' approvalId fp' now'
  issued : ∀ pre e post, es = pre ++ e :: post → ∀ approvalId fp now,
    Consumes sha256 e approvalId fp now → ∃ e₀ ∈ pre, ∃ expires,
      Issues e₀ approvalId fp expires ∧ now < expires
  notInvalidated : es.Pairwise fun e e' => ∀ approvalId fp now,
    Invalidates e approvalId → ¬ Consumes sha256 e' approvalId fp now
  notExpired : es.Pairwise fun e e' => ∀ approvalId fp now,
    FindsExpired sha256 e approvalId → ¬ Consumes sha256 e' approvalId fp now
  refused : ∀ e ∈ es, ∀ approvalId fp now refusal,
    consumption sha256 e.action = some (approvalId, fp, now) → e.outcome = .error refusal →
      ∀ other, other ≠ approvalId → find e.after other = find e.before other

def ClockSteady (es : List (Step Binding)) : Prop :=
  es.Pairwise fun e e' => ∀ approvalId fp now fp' now' row,
    consumption sha256 e.action = some (approvalId, fp, now) →
    find e.before approvalId = some row → row.payload.expiresAt ≤ now →
    consumption sha256 e'.action = some (approvalId, fp', now') → row.payload.expiresAt ≤ now'

variable {a : Action Binding} {approvalId : String} {now : Time}

lemma step_of_consumption {fp : String}
    (h : consumption sha256 a = some (approvalId, fp, now)) :
    ∃ stamp, ∀ t, step sha256 t a = answer .consumed (consumeApproval approvalId fp now stamp t) := by
  cases a with
  | issue => cases h
  | invalidate => cases h
  | consume _ _ _ _ stamp => cases h; exact ⟨stamp, fun _ => rfl⟩
  | consumeDirect _ _ _ stamp => cases h; exact ⟨stamp, fun _ => rfl⟩

lemma consumes_spec {fp : String}
    (h : Consumes sha256 (entry (step sha256) t a) approvalId fp now) :
    ∃ row, find t approvalId = some row ∧ row.status = .pending ∧ row.fingerprint = fp ∧
      now < row.payload.expiresAt ∧ ∃ row', find (step sha256 t a).2 approvalId = some row' ∧
        row'.status = .consumed := by
  obtain ⟨hc, payload, ho⟩ := h
  obtain ⟨stamp, hstep⟩ := step_of_consumption sha256 hc
  change (step sha256 t a).1 = _ at ho
  replace hstep := hstep t
  change step sha256 t a = _ at hstep
  rw [hstep] at ho
  rcases consumeApproval_cases approvalId fp now stamp t with
    ⟨refusal, h⟩ | ⟨row, hrow, hp, hf, hlt, h⟩
  · simp [answer, h, Except.map] at ho
  · refine ⟨row, hrow, hp, hf, hlt, markConsumed (consumedPayload stamp row.payload) row, ?_, rfl⟩
    have hid : row.approvalId = approvalId := lookup_key hrow
    rw [hstep]
    simp only [answer, h]
    rw [find, lookup_updateWhere (markConsumed_approvalId _),
      show lookup Row.approvalId t approvalId = some row from hrow]
    simp [hid, hp]

lemma findsExpired_spec
    (h : FindsExpired sha256 (entry (step sha256) t a) approvalId) :
    ∃ fp now row, consumption sha256 a = some (approvalId, fp, now) ∧
      find t approvalId = some row ∧ row.payload.expiresAt ≤ now := by
  obtain ⟨fp, now, hc, ho⟩ := h
  obtain ⟨stamp, hstep⟩ := step_of_consumption sha256 hc
  replace hstep := hstep t
  change (step sha256 t a).1 = _ at ho
  change step sha256 t a = _ at hstep
  rw [hstep] at ho
  refine ⟨fp, now, ?_⟩
  unfold consumeApproval transaction at ho
  rcases hrow : find t approvalId with _ | row
  · simp [answer, hrow, Except.map] at ho
  · refine ⟨row, hc, rfl, ?_⟩
    by_contra hlt
    by_cases hp : row.status = .pending <;> by_cases hf : row.fingerprint = fp <;>
      simp [answer, hrow, hp, hf, hlt, Except.map] at ho

lemma invalidates_spec
    (h : Invalidates (entry (step sha256) t a) approvalId) :
    ∃ row', find (step sha256 t a).2 approvalId = some row' ∧ row'.status = .invalidated := by
  obtain ⟨runId, reason, stamp, row, rfl, hrow, hrun, hp⟩ := h
  refine ⟨markInvalidated reason stamp row, ?_, rfl⟩
  change find (updateWhere _ _ t) approvalId = _
  rw [find, lookup_updateWhere (markInvalidated_approvalId reason stamp),
    show lookup Row.approvalId t approvalId = some row from hrow]
  simp [hrun, hp]

lemma step_origin (t : Table) (a : Action Binding) {row' : Row}
    (h : find (step sha256 t a).2 approvalId = some row') :
    (find t approvalId).isSome ∨ Issues (entry (step sha256) t a) approvalId row'.fingerprint
      row'.payload.expiresAt := by
  have consumed (id fp : String) (now stamp : Time)
      (hf : find (consumeApproval id fp now stamp t).2 approvalId = some row') :
      (find t approvalId).isSome := by
    rcases consumeApproval_cases id fp now stamp t with ⟨_, hc⟩ | ⟨_, -, -, -, -, hc⟩ <;>
      rw [hc] at hf
    · exact Option.isSome_of_eq_some hf
    · rw [find, lookup_updateWhere (markConsumed_approvalId _)] at hf
      simpa using Option.isSome_of_eq_some hf
  cases a with
  | issue service id runId actionType binding summary created =>
    let request := service.request sha256 id runId actionType binding summary created
    change find (saveApproval request t).2 approvalId = some row' at h
    rcases saveApproval_cases request t with hs | ⟨hfresh, hs⟩
    · rw [hs] at h
      exact .inl (Option.isSome_of_eq_some h)
    · rw [hs] at h
      change lookup Row.approvalId (t ++ [rowOf request]) approvalId = some row' at h
      rw [lookup_append] at h
      rcases hold : lookup Row.approvalId t approvalId with _ | row
      · rw [hold, Option.none_or, lookup_cons, lookup_nil] at h
        split at h
        · rename_i hid
          obtain rfl := Option.some.inj h
          refine .inr ⟨request, ?_, hid, rfl, rfl⟩
          change (saveApproval request t).1.map _ = _
          rw [hs]
          rfl
        · cases h
      · exact .inl (by rw [find, hold]; rfl)
  | consume id actionType binding now stamp => exact .inl (consumed _ _ _ _ h)
  | consumeDirect id fp now stamp => exact .inl (consumed _ _ _ _ h)
  | invalidate runId reason stamp =>
    change find (updateWhere _ _ t) approvalId = _ at h
    rw [find, lookup_updateWhere (markInvalidated_approvalId reason stamp)] at h
    exact .inl (by simpa using Option.isSome_of_eq_some h)

lemma nodup_final (actions : List (Action Binding)) :
    ((final (step sha256) [] actions).map Row.approvalId).Nodup :=
  (@invariant _ _ _ (step sha256) (fun t => (t.map Row.approvalId).Nodup)
    (fun _ a hn => step_nodup sha256 hn a) [] actions List.nodup_nil).2

lemma find_origin (actions : List (Action Binding)) {row : Row}
    (h : find (final (step sha256) [] actions) approvalId = some row) :
    ∃ e₀ ∈ history sha256 actions, Issues e₀ approvalId row.fingerprint row.payload.expiresAt := by
  induction actions using List.reverseRecOn generalizing row with
  | nil => cases h
  | append_singleton as a ih =>
    rw [final_append] at h
    change find (step sha256 (final (step sha256) [] as) a).2 approvalId = some row at h
    have hmem : ∀ e ∈ history sha256 as, e ∈ history sha256 (as ++ [a]) := by
      intro e he
      rw [history, trace_append]
      exact List.mem_append_left _ he
    rcases step_origin sha256 _ a h with hold | hissue
    · obtain ⟨old, hold⟩ := Option.isSome_iff_exists.1 hold
      obtain ⟨row', h', hf, he, -⟩ := step_kept sha256 (nodup_final sha256 as) a approvalId old hold
      obtain rfl : row' = row := Option.some.inj (h'.symm.trans h)
      obtain ⟨e₀, he₀, hi⟩ := ih hold
      exact ⟨e₀, hmem e₀ he₀, by rw [hf, he]; exact hi⟩
    · refine ⟨_, ?_, hissue⟩
      rw [history, trace_append]
      exact List.mem_append_right _ (List.mem_singleton_self _)

lemma pairwise_kept (actions : List (Action Binding)) :
    (history sha256 actions).Pairwise fun e e' => Kept e.after e'.before :=
  @pairwise_of _ _ _ (step sha256) (fun t => (t.map Row.approvalId).Nodup) (fun _ => True)
    (fun e t => Kept e.after t) _ (fun _ a hn _ => step_nodup sha256 hn a)
    (fun _ _ _ _ => kept_refl _) (fun _ _ a hn _ hk => kept_trans hk (step_kept sha256 hn a))
    (fun _ _ _ _ _ hk => hk) [] actions List.nodup_nil fun _ _ => trivial

lemma nodup_before {actions : List (Action Binding)} {e : Step Binding}
    (he : e ∈ history sha256 actions) : (e.before.map Row.approvalId).Nodup :=
  ((@invariant _ _ _ (step sha256) (fun t => (t.map Row.approvalId).Nodup)
    (fun _ a hn => step_nodup sha256 hn a) [] actions List.nodup_nil).1 e he).1

lemma refused_unchanged {fp : String}
    {refusal : Refusal} (h : consumption sha256 a = some (approvalId, fp, now))
    (ho : (step sha256 t a).1 = .error refusal) : (step sha256 t a).2 = t := by
  obtain ⟨stamp, hstep⟩ := step_of_consumption sha256 h
  rw [hstep] at ho ⊢
  rcases consumeApproval_cases approvalId fp now stamp t with ⟨_, hc⟩ | ⟨_, -, -, -, -, hc⟩
  · simp only [answer, hc]
  · simp [answer, hc, Except.map] at ho

lemma not_consumes_settled {e : Step Binding} (he : e = entry (step sha256) e.before e.action) (hk : Kept t e.before)
    {fp : String} {row : Row} (hrow : find t approvalId = some row) (hst : row.status ≠ .pending) :
    ¬ Consumes sha256 e approvalId fp now := by
  intro hc
  rw [he] at hc
  obtain ⟨row', hrow', hp', -⟩ := consumes_spec sha256 hc
  obtain ⟨later, hlater, -, -, hsettled⟩ := hk approvalId row hrow
  obtain rfl : later = row' := Option.some.inj (hlater.symm.trans hrow')
  exact hst (hsettled hp')

end Runs

def lateThenEarly : List (Action Unit) :=
  [.issue (.new 900) "approval-1" "run-1" "flash" () "Flash" 0,
   .consume "approval-1" "flash" () 900000000 900000000,
   .consume "approval-1" "flash" () 899000000 899000000]

end PromptForge.Approvals
