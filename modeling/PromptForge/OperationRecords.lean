import PromptForge.Operations

/-!
# The status of an operation

`operation` and `interrupt_operations` of the store, for payloads of any type and
the status texts callers send.
-/
namespace PromptForge.OperationRecords
open Runs Tables
open Operations (OperationStatus)

def rank : OperationStatus → ℕ
  | .prepared => 0
  | .started => 1
  | .completed | .failed | .unknown => 2

def Advances (s s' : OperationStatus) : Prop := s = s' ∨ rank s < rank s'

lemma Advances.refl (s : OperationStatus) : Advances s s := .inl rfl

lemma Advances.trans {a b c : OperationStatus} (hab : Advances a b) (hbc : Advances b c) : Advances a c := by
  rcases hab with rfl | hab
  · exact hbc
  · rcases hbc with rfl | hbc
    · exact .inr hab
    · exact .inr (by omega)

lemma not_advances_iff {s s' : OperationStatus} (h : s.settled = true → s = s') :
    ¬ Advances s s' ↔ s = .started ∧ s' = .prepared := by
  cases s <;> cases s' <;> simp [Advances, rank, OperationStatus.settled] at h ⊢

abbrev Time := ℤ

structure Row (Payload : Type) where
  operationId : String
  runId : String
  kind : String
  fingerprint : String
  status : OperationStatus
  payload : Payload
  updatedAt : Time

inductive RecordError where
  | statusInvalid
  | conflict
  | alreadySettled
  | notPrepared
  deriving DecidableEq

def RecordError.text : RecordError → String
  | .statusInvalid => "AGENT_OPERATION_STATUS_INVALID"
  | .conflict => "AGENT_OPERATION_CONFLICT"
  | .alreadySettled => "AGENT_OPERATION_ALREADY_SETTLED"
  | .notPrepared => "AGENT_OPERATION_NOT_PREPARED"

def statusText : OperationStatus → String
  | .prepared => "prepared"
  | .started => "started"
  | .completed => "completed"
  | .failed => "failed"
  | .unknown => "unknown"

def statusOf (text : String) : Option OperationStatus :=
  [OperationStatus.prepared, .started, .completed, .failed, .unknown].find? fun s => statusText s = text

lemma statusOf_eq_some {text : String} {s : OperationStatus} (h : statusOf text = some s) :
    statusText s = text := by
  simpa using List.find?_some h

structure Answer where
  operationId : String
  kind : String
  status : OperationStatus
  deriving DecidableEq

section Records
variable {Payload : Type} (fingerprint : Payload → String)

abbrev Rows (Payload : Type) := List (Row Payload)

abbrev find (rows : Rows Payload) (operationId : String) : Option (Row Payload) :=
  lookup Row.operationId rows operationId

def setStatus (status : OperationStatus) (now : Time) (r : Row Payload) : Row Payload :=
  { r with status := status, updatedAt := now }

@[simp] lemma setStatus_operationId (status : OperationStatus) (now : Time) (r : Row Payload) :
    (setStatus status now r).operationId = r.operationId := rfl

def operationTx (operationId runId kind : String) (status : OperationStatus) (payload : Payload) (now : Time) :
    Work (Rows Payload) RecordError Answer := fun rows =>
  match find rows operationId with
  | some row =>
    if row.fingerprint ≠ fingerprint payload then (.error .conflict, rows)
    else if row.status.settled ∧ row.status ≠ status then (.error .alreadySettled, rows)
    else (.ok ⟨operationId, kind, status⟩,
      updateWhere (fun r => r.operationId = operationId) (setStatus status now) rows)
  | none =>
    if status ≠ .prepared ∧ status ≠ .started then (.error .notPrepared, rows)
    else (.ok ⟨operationId, kind, status⟩,
      rows ++ [⟨operationId, runId, kind, fingerprint payload, status, payload, now⟩])

def operation (operationId runId kind status : String) (payload : Payload) (now : Time) :
    Work (Rows Payload) RecordError Answer := fun rows =>
  match statusOf status with
  | none => (.error .statusInvalid, rows)
  | some status => transaction (operationTx fingerprint operationId runId kind status payload now) rows

def interruptOperations (runId : String) (now : Time) (rows : Rows Payload) : Rows Payload :=
  updateWhere (fun r => r.runId = runId ∧ r.status = .started) (setStatus .unknown now) rows

inductive Call (Payload : Type) where
  | operation (operationId runId kind status : String) (payload : Payload) (now : Time)
  | interrupt (runId : String) (now : Time)

def step (rows : Rows Payload) : Call Payload → Except RecordError (Option Answer) × Rows Payload
  | .operation operationId runId kind status payload now =>
    let (outcome, rows') := operation fingerprint operationId runId kind status payload now rows
    (outcome.map some, rows')
  | .interrupt runId now => (.ok none, interruptOperations runId now rows)

/-- Everything `operation` can do. -/
inductive Operated (operationId : String) (status : String) (payload : Payload) (rows : Rows Payload) :
    Except RecordError Answer → Rows Payload → Prop where
  | refused (error : RecordError) : Operated operationId status payload rows (.error error) rows
  | updated {row : Row Payload} {next : OperationStatus} {answer : Answer} {now : Time}
      (hstatus : statusOf status = some next) (hrow : find rows operationId = some row)
      (hfp : row.fingerprint = fingerprint payload) (hset : row.status.settled = true → row.status = next) :
      Operated operationId status payload rows (.ok answer)
        (updateWhere (fun r => r.operationId = operationId) (setStatus next now) rows)
  | inserted {row : Row Payload} {answer : Answer} (hrow : find rows operationId = none)
      (hid : row.operationId = operationId) (hnew : row.status = .prepared ∨ row.status = .started) :
      Operated operationId status payload rows (.ok answer) (rows ++ [row])

lemma operation_spec (operationId runId kind status : String) (payload : Payload) (now : Time)
    (rows : Rows Payload) :
    Operated fingerprint operationId status payload rows
      (operation fingerprint operationId runId kind status payload now rows).1
      (operation fingerprint operationId runId kind status payload now rows).2 := by
  unfold operation
  cases hstatus : statusOf status with
  | none => exact .refused _
  | some next =>
    simp only
    unfold transaction operationTx
    cases hrow : find rows operationId with
    | some row =>
      simp only
      by_cases hfp : row.fingerprint = fingerprint payload
      · by_cases hset : row.status.settled = true ∧ row.status ≠ next
        · rw [if_neg (not_not.2 hfp), if_pos hset]
          exact .refused _
        · rw [if_neg (not_not.2 hfp), if_neg hset]
          exact .updated hstatus hrow hfp fun hs => not_not.1 fun hne => hset ⟨hs, hne⟩
      · rw [if_pos hfp]
        exact .refused _
    | none =>
      simp only
      by_cases hnew : next = .prepared ∨ next = .started
      · rw [if_neg (by tauto)]
        exact .inserted hrow rfl hnew
      · rw [if_pos (by tauto)]
        exact .refused _

def Reopens (rows : Rows Payload) (c : Call Payload) : Prop :=
  ∃ operationId runId kind payload now row, c = .operation operationId runId kind "prepared" payload now ∧
    find rows operationId = some row ∧ row.status = .started ∧ row.fingerprint = fingerprint payload

def Forward (rows rows' : Rows Payload) : Prop :=
  ∀ operationId row, find rows operationId = some row →
    ∃ row', find rows' operationId = some row' ∧ Advances row.status row'.status

lemma Forward.refl (rows : Rows Payload) : Forward rows rows :=
  fun _ row hrow => ⟨row, hrow, .refl _⟩

lemma Forward.trans {a b c : Rows Payload} (hab : Forward a b) (hbc : Forward b c) : Forward a c := by
  intro operationId row hrow
  obtain ⟨row', hrow', hadv⟩ := hab operationId row hrow
  obtain ⟨row'', hrow'', hadv'⟩ := hbc operationId row' hrow'
  exact ⟨row'', hrow'', hadv.trans hadv'⟩

variable {rows : Rows Payload} {operationId : String} {row : Row Payload}

lemma find_setStatus (p : Row Payload → Bool) (status : OperationStatus) (now : Time)
    (hrow : find rows operationId = some row) :
    find (updateWhere p (setStatus status now) rows) operationId =
      some (if p row then setStatus status now row else row) := by
  rw [find, lookup_updateWhere (setStatus_operationId status now), show lookup Row.operationId rows operationId =
    some row from hrow]
  rfl

lemma forward_interrupt (runId : String) (now : Time) (rows : Rows Payload) :
    Forward rows (interruptOperations runId now rows) := by
  intro operationId row hrow
  refine ⟨_, find_setStatus _ _ _ hrow, ?_⟩
  split
  · rename_i hp
    rw [(of_decide_eq_true hp).2]
    exact .inr Nat.one_lt_two
  · exact .refl _

lemma forward_append (row : Row Payload) : Forward rows (rows ++ [row]) := by
  intro operationId old hold
  refine ⟨old, ?_, .refl _⟩
  rw [find, lookup_append, show lookup Row.operationId rows operationId = some old from hold]
  rfl

lemma forward_update_iff
    (hrow : find rows operationId = some row) (next : OperationStatus) (now : Time) :
    Forward rows (updateWhere (fun r => r.operationId = operationId) (setStatus next now) rows) ↔
      Advances row.status next := by
  constructor
  · intro h
    obtain ⟨row', hrow', hadv⟩ := h operationId row hrow
    rw [find_setStatus _ _ _ hrow, if_pos (by simpa using lookup_key hrow)] at hrow'
    rwa [← Option.some.inj hrow'] at hadv
  · intro hadv id old hold
    refine ⟨_, find_setStatus _ _ _ hold, ?_⟩
    split
    · rename_i hp
      have hid : id = operationId := (lookup_key hold).symm.trans (of_decide_eq_true hp)
      rw [hid, show find rows operationId = some row from hrow] at hold
      rw [← Option.some.inj hold]
      exact hadv
    · exact .refl _

lemma operation_reopens {runId kind : String} {payload : Payload} {now : Time}
    (hrow : find rows operationId = some row)
    (hstarted : row.status = .started) (hfp : row.fingerprint = fingerprint payload) :
    operation fingerprint operationId runId kind "prepared" payload now rows =
      (.ok ⟨operationId, kind, .prepared⟩,
        updateWhere (fun r => r.operationId = operationId) (setStatus .prepared now) rows) := by
  have hstatus : statusOf "prepared" = some .prepared := by decide
  unfold operation
  rw [hstatus]
  refine transaction_commits ?_
  simp [operationTx, hrow, hstarted, hfp, OperationStatus.settled]

lemma forward_step_iff (rows : Rows Payload) (c : Call Payload) :
    Forward rows (step fingerprint rows c).2 ↔ ¬ Reopens fingerprint rows c := by
  constructor
  · intro hforward ⟨operationId, runId, kind, payload, now, row, hc, hrow, hstarted, hfp⟩
    subst hc
    change Forward rows (operation fingerprint operationId runId kind "prepared" payload now rows).2 at hforward
    rw [operation_reopens fingerprint hrow hstarted hfp, forward_update_iff hrow, hstarted] at hforward
    rcases hforward with heq | hlt
    · cases heq
    · exact absurd hlt (by decide)
  · intro hnot
    cases c with
    | interrupt runId now => exact forward_interrupt runId now rows
    | operation operationId runId kind status payload now =>
      change Forward rows (operation fingerprint operationId runId kind status payload now rows).2
      have hspec := operation_spec fingerprint operationId runId kind status payload now rows
      generalize operation fingerprint operationId runId kind status payload now rows = r at hspec ⊢
      obtain ⟨outcome, rows'⟩ := r
      cases hspec with
      | refused => exact .refl _
      | inserted => exact forward_append _
      | updated hstatus hrow hfp hset =>
        refine (forward_update_iff hrow _ _).2 (not_not.1 fun hback => hnot ?_)
        obtain ⟨hstarted, hprepared⟩ := (not_advances_iff hset).1 hback
        have htext : statusText .prepared = status := statusOf_eq_some (hprepared ▸ hstatus)
        exact ⟨operationId, runId, kind, payload, now, _, by rw [← htext]; rfl, hrow, hstarted, hfp⟩

lemma step_error {c : Call Payload} {error : RecordError}
    (h : (step fingerprint rows c).1 = .error error) : (step fingerprint rows c).2 = rows := by
  cases c with
  | interrupt => cases h
  | operation operationId runId kind status payload now =>
    change (operation fingerprint operationId runId kind status payload now rows).1.map some = _ at h
    change (operation fingerprint operationId runId kind status payload now rows).2 = rows
    have hspec := operation_spec fingerprint operationId runId kind status payload now rows
    generalize operation fingerprint operationId runId kind status payload now rows = r at h hspec ⊢
    obtain ⟨outcome, rows'⟩ := r
    cases hspec with
    | refused => rfl
    | inserted | updated => cases h

lemma step_opens {c : Call Payload}
    (hnone : find rows operationId = none) (hrow : find (step fingerprint rows c).2 operationId = some row) :
    row.status = .prepared ∨ row.status = .started := by
  have updated (p : Row Payload → Bool) (status : OperationStatus) (now : Time)
      (h : find (updateWhere p (setStatus status now) rows) operationId = some row) :
      row.status = .prepared ∨ row.status = .started := by
    rw [find, lookup_updateWhere (setStatus_operationId status now), show lookup Row.operationId rows operationId =
      none from hnone] at h
    cases h
  cases c with
  | interrupt runId now => exact updated _ _ _ hrow
  | operation id runId kind status payload now =>
    change find (operation fingerprint id runId kind status payload now rows).2 operationId = _ at hrow
    have hspec := operation_spec fingerprint id runId kind status payload now rows
    generalize operation fingerprint id runId kind status payload now rows = r at hrow hspec
    cases r with
    | mk outcome rows' =>
      cases hspec with
      | refused =>
        rw [hnone] at hrow
        cases hrow
      | updated => exact updated _ _ _ hrow
      | inserted _ hid hnew =>
        change lookup Row.operationId (rows ++ [_]) operationId = some row at hrow
        rw [lookup_append, show lookup Row.operationId rows operationId = none from hnone, Option.none_or,
          lookup_cons, lookup_nil] at hrow
        split at hrow
        · rwa [← Option.some.inj hrow]
        · cases hrow

abbrev Recorded (Payload : Type) := Entry (Rows Payload) (Call Payload) (Except RecordError (Option Answer))

structure Monotone (es : List (Recorded Payload)) : Prop where
  step : ∀ e ∈ es, Forward e.before e.after
  run : es.Pairwise fun e e' => Forward e.after e'.before
  opened : ∀ e ∈ es, ∀ operationId row, find e.before operationId = none →
    find e.after operationId = some row → row.status = .prepared ∨ row.status = .started
  recovery : es.Pairwise fun e e' => ∀ operationId row row', find e.after operationId = some row →
    row.status ≠ .prepared → find e'.before operationId = some row' → row'.status ≠ .prepared
  raised : ∀ e ∈ es, ∀ error, e.outcome = .error error → e.after = e.before

lemma Forward.not_prepared {rows' : Rows Payload} (h : Forward rows rows')
    {row' : Row Payload} (hrow : find rows operationId = some row) (hp : row.status ≠ .prepared)
    (hrow' : find rows' operationId = some row') : row'.status ≠ .prepared := by
  obtain ⟨later, hlater, hadv⟩ := h operationId row hrow
  rw [hrow'] at hlater
  obtain rfl := Option.some.inj hlater
  intro hback
  rcases hadv with heq | hlt
  · exact hp (heq.trans hback)
  · rw [hback] at hlt
    exact absurd hlt (Nat.not_lt_zero _)

/-- Statuses only advance exactly in the runs where no call prepares a started
    operation again with the payload it was started with. -/
theorem monotone_iff (rows : Rows Payload) (cs : List (Call Payload)) :
    Monotone (trace (step fingerprint) rows cs) ↔
      ∀ e ∈ trace (step fingerprint) rows cs, ¬ Reopens fingerprint e.before e.action := by
  constructor
  · intro h e he
    have hforward := h.step e he
    rw [entry_eq_of_mem he] at hforward
    exact (forward_step_iff fingerprint e.before e.action).1 hforward
  · intro h
    have hrun : (trace (step fingerprint) rows cs).Pairwise fun e e' => Forward e.after e'.before :=
      @pairwise_of _ _ _ (step fingerprint) (fun _ => True) (fun e => ¬ Reopens fingerprint e.before e.action)
        (fun e t => Forward e.after t) _ (fun _ _ _ _ => trivial) (fun _ _ _ _ => .refl _)
        (fun _ s c _ hc hk => hk.trans ((forward_step_iff fingerprint s c).2 hc))
        (fun _ _ _ _ _ hk => hk) rows cs trivial h
    constructor
    · intro e he
      rw [entry_eq_of_mem he]
      exact (forward_step_iff fingerprint e.before e.action).2 (h e he)
    · exact hrun
    · intro e he operationId row hnone hrow
      rw [entry_eq_of_mem he] at hrow
      exact step_opens fingerprint hnone hrow
    · apply hrun.imp
      intro e e' hforward operationId row row' hrow hp hrow'
      exact hforward.not_prepared hrow hp hrow'
    · intro e he error ho
      rw [entry_eq_of_mem he] at ho ⊢
      exact step_error fingerprint ho

end Records

def preparedAgain : List (Call Unit) :=
  [.operation "run-1:apply" "run-1" "workspace.apply" "prepared" () 1,
   .operation "run-1:apply" "run-1" "workspace.apply" "started" () 2,
   .operation "run-1:apply" "run-1" "workspace.apply" "prepared" () 3]

theorem started_then_prepared : ¬ ∀ (fingerprint : Unit → String) (rows : Rows Unit) (cs : List (Call Unit)),
    Monotone (trace (step fingerprint) rows cs) := by
  intro h
  have hstep := (h (fun _ => "") [] preparedAgain).step
  have hback := hstep _ (List.mem_cons_of_mem _ (List.mem_cons_of_mem _ (List.mem_cons_self ..)))
  obtain ⟨row', hrow', hadv⟩ := hback "run-1:apply" _ rfl
  obtain rfl := Option.some.inj hrow'
  rcases hadv with heq | hlt
  · cases heq
  · exact absurd hlt (by decide)

end PromptForge.OperationRecords
