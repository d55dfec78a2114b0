import PromptForge.ApprovalsSingleUse

/-!
# The expiry mark of an approval

`consume_approval` writes the status `expired` and raises in one transaction
scope.
-/
namespace PromptForge.Approvals
open Runs Tables

/-- The table of the connection and the copies of the open blocks, innermost first. -/
structure Nested where
  table : Table
  savepoints : List Table

namespace Nested

def enter (s : Nested) : Nested := { s with savepoints := s.table :: s.savepoints }

/-- The end of the innermost block: `ROLLBACK TO` when it raised, then `RELEASE`;
    for the last one `rollback()` or `commit()`. -/
def leave (raised : Bool) (s : Nested) : Nested :=
  match s.savepoints with
  | [] => s
  | saved :: rest => { table := if raised then saved else s.table, savepoints := rest }

end Nested

section Expiry
variable {Binding : Type} (sha256 : String × Binding → String)

/-- What callers do: a store operation, the start of an `atomic` block and its end. -/
inductive Call (Binding : Type) where
  | operation (a : Action Binding)
  | enter
  | leave (raised : Bool)

def call (s : Nested) : Call Binding → Option (Except Refusal Answer) × Nested
  | .operation a => (some (step sha256 s.table a).1, { s with table := (step sha256 s.table a).2 })
  | .enter => (none, s.enter)
  | .leave raised => (none, s.leave raised)

abbrev Called (Binding : Type) := Entry Nested (Call Binding) (Option (Except Refusal Answer))

/-- Calls in any order on an empty store, blocks opened and closed between them. -/
abbrev calls (cs : List (Call Binding)) : List (Called Binding) := trace (call sha256) ⟨[], []⟩ cs

def pendingApprovals (runId : String) (t : Table) : List Row :=
  t.filter fun r => r.runId = runId ∧ r.status = .pending

def ConsumeOf (c : Call Binding) (approvalId : String) : Prop :=
  ∃ a fingerprint now, c = .operation a ∧ consumption sha256 a = some (approvalId, fingerprint, now)

def RefusesExpired (e : Called Binding) (approvalId : String) : Prop :=
  ConsumeOf sha256 e.action approvalId ∧ e.outcome = some (.error .expired)

/-- An approval refused as expired is stored as expired, and nothing later
    consumes it or lists it as pending. -/
structure ExpiredStays (es : List (Called Binding)) : Prop where
  stored : ∀ e ∈ es, ∀ approvalId, RefusesExpired sha256 e approvalId →
    ∃ row, find e.after.table approvalId = some row ∧ row.status = .expired
  consumed : es.Pairwise fun e e' => ∀ approvalId, RefusesExpired sha256 e approvalId →
    ConsumeOf sha256 e'.action approvalId → ∃ refusal, e'.outcome = some (.error refusal)
  listed : es.Pairwise fun e e' => ∀ approvalId, RefusesExpired sha256 e approvalId →
    ∀ runId, ∀ row ∈ pendingApprovals runId e'.before.table, row.approvalId ≠ approvalId

/-- A consume about to meet its approval pending, matching and at or past its expiry. -/
def MeetsExpired (t : Table) (a : Action Binding) : Prop :=
  ∃ approvalId fingerprint now row, consumption sha256 a = some (approvalId, fingerprint, now) ∧
    find t approvalId = some row ∧ row.status = .pending ∧ row.fingerprint = fingerprint ∧
    row.payload.expiresAt ≤ now

lemma consumeApproval_expired_iff {t : Table} {approvalId fingerprint : String} {now stamp : Time} :
    (consumeApproval approvalId fingerprint now stamp t).1 = .error .expired ↔
      ∃ row, find t approvalId = some row ∧ row.status = .pending ∧ row.fingerprint = fingerprint ∧
        row.payload.expiresAt ≤ now := by
  unfold consumeApproval transaction
  cases hrow : find t approvalId with
  | none => simp [hrow]
  | some row =>
    by_cases hp : row.status = .pending <;> by_cases hf : row.fingerprint = fingerprint <;>
      by_cases he : row.payload.expiresAt ≤ now <;> simp [hrow, hp, hf, he]

lemma answer_error {τ : Type} {f : τ → Answer} {r : Except Refusal τ × Table} {refusal : Refusal} :
    (answer f r).1 = .error refusal ↔ r.1 = .error refusal := by
  cases r with
  | mk outcome t => cases outcome <;> simp [answer, Except.map]

lemma step_expired_iff (t : Table) (a : Action Binding) :
    (step sha256 t a).1 = .error .expired ↔ MeetsExpired sha256 t a := by
  have consumes {approvalId fingerprint : String} {now : Time}
      (hc : consumption sha256 a = some (approvalId, fingerprint, now)) :
      (step sha256 t a).1 = .error .expired ↔ MeetsExpired sha256 t a := by
    obtain ⟨stamp, hstep⟩ := step_of_consumption sha256 hc
    rw [hstep, answer_error, consumeApproval_expired_iff]
    constructor
    · intro ⟨row, hrow⟩
      exact ⟨approvalId, fingerprint, now, row, hc, hrow⟩
    · intro ⟨approvalId', fingerprint', now', row, hc', hrow⟩
      rw [hc] at hc'
      cases hc'
      exact ⟨row, hrow⟩
  cases a with
  | consume | consumeDirect => exact consumes rfl
  | issue service approvalId runId actionType binding summary created =>
    have hnot : ¬ MeetsExpired sha256 t
        (.issue service approvalId runId actionType binding summary created) :=
      fun ⟨_, _, _, _, hc, _⟩ => by cases hc
    simp only [hnot, iff_false, step, answer_error]
    rcases saveApproval_cases (service.request sha256 approvalId runId actionType binding summary created) t
      with h | ⟨-, h⟩ <;> simp [h]
  | invalidate runId reason stamp =>
    have hnot : ¬ MeetsExpired sha256 t (.invalidate runId reason stamp : Action Binding) :=
      fun ⟨_, _, _, _, hc, _⟩ => by cases hc
    simp [hnot, step, answer, invalidatePendingApprovals, transaction, Except.map]

lemma still_pending {t : Table} {a : Action Binding} {approvalId fingerprint : String} {now : Time}
    (hc : consumption sha256 a = some (approvalId, fingerprint, now)) (hm : MeetsExpired sha256 t a) :
    ∃ row, find (step sha256 t a).2 approvalId = some row ∧ row.status = .pending := by
  rw [refused_unchanged sha256 hc ((step_expired_iff sha256 t a).2 hm)]
  obtain ⟨approvalId', fingerprint', now', row, hc', hrow, hp, -⟩ := hm
  rw [hc] at hc'
  cases hc'
  exact ⟨row, hrow, hp⟩

lemma refusesExpired_iff (s : Nested) (c : Call Binding) (approvalId : String) :
    RefusesExpired sha256 (entry (call sha256) s c) approvalId ↔
      ConsumeOf sha256 c approvalId ∧ ∃ a, c = .operation a ∧ MeetsExpired sha256 s.table a := by
  constructor
  · intro ⟨hc, ho⟩
    obtain ⟨a, fingerprint, now, rfl, hconsume⟩ := hc
    have ho : (step sha256 s.table a).1 = .error .expired := Option.some.inj ho
    exact ⟨⟨a, fingerprint, now, rfl, hconsume⟩, a, rfl, (step_expired_iff sha256 _ a).1 ho⟩
  · intro ⟨hc, a, ha, hm⟩
    subst ha
    exact ⟨hc, congrArg some ((step_expired_iff sha256 s.table a).2 hm)⟩

lemma not_expiredStays {cs : List (Call Binding)} {e : Called Binding} {a : Action Binding}
    (he : e ∈ calls sha256 cs) (ha : e.action = .operation a) (hm : MeetsExpired sha256 e.before.table a) :
    ¬ ExpiredStays sha256 (calls sha256 cs) := by
  intro h
  obtain ⟨approvalId, fingerprint, now, -, hc, -⟩ := id hm
  have hentry := entry_eq_of_mem he
  rw [ha] at hentry
  have hrefuses : RefusesExpired sha256 e approvalId := by
    rw [hentry, refusesExpired_iff]
    exact ⟨⟨a, fingerprint, now, rfl, hc⟩, a, rfl, hm⟩
  obtain ⟨row, hrow, hexpired⟩ := h.stored e he approvalId hrefuses
  obtain ⟨kept, hkept, hpending⟩ := still_pending sha256 hc hm
  rw [hentry] at hrow
  have heq : kept = row := Option.some.inj (hkept.symm.trans hrow)
  rw [heq, hexpired] at hpending
  cases hpending

/-- A run keeps its expired approvals expired exactly when it never refuses one. -/
theorem expiredStays_iff (cs : List (Call Binding)) :
    ExpiredStays sha256 (calls sha256 cs) ↔
      ∀ e ∈ calls sha256 cs, ∀ a, e.action = .operation a → ¬ MeetsExpired sha256 e.before.table a := by
  constructor
  · intro h e he a ha hm
    exact not_expiredStays sha256 he ha hm h
  · intro h
    have hnever : ∀ e ∈ calls sha256 cs, ∀ approvalId, ¬ RefusesExpired sha256 e approvalId := by
      intro e he approvalId hr
      rw [entry_eq_of_mem he, refusesExpired_iff] at hr
      obtain ⟨-, a, ha, hm⟩ := hr
      exact h e he a ha hm
    constructor
    · intro e he approvalId hr
      exact absurd hr (hnever e he approvalId)
    · apply List.pairwise_of_forall_mem_list
      intro e he e' _ approvalId hr
      exact absurd hr (hnever e he approvalId)
    · apply List.pairwise_of_forall_mem_list
      intro e he e' _ approvalId hr
      exact absurd hr (hnever e he approvalId)

end Expiry

/-- Refused at its expiry inside a block that completes, and consumed when the
    clock reads a second less. -/
def refusedThenConsumed : List (Call Unit) :=
  [.operation (.issue (.new 900) "approval-1" "run-1" "flash" () "Flash" 0), .enter,
   .operation (.consume "approval-1" "flash" () 900000000 900000000), .leave false,
   .operation (.consume "approval-1" "flash" () 899000000 899000000)]

theorem expired_not_stored : ¬ ∀ (sha256 : String × Unit → String) (cs : List (Call Unit)),
    ExpiredStays sha256 (calls sha256 cs) := by
  intro h
  let early := final (call Prod.fst) ⟨[], []⟩ (refusedThenConsumed.take 2)
  let late : Action Unit := .consume "approval-1" "flash" () 900000000 900000000
  refine @not_expiredStays Unit Prod.fst refusedThenConsumed
    (entry (call Prod.fst) early (.operation late)) late ?_ rfl ?_ (h Prod.fst refusedThenConsumed)
  · exact List.mem_cons_of_mem _ (List.mem_cons_of_mem _ (List.mem_cons_self ..))
  · exact ⟨"approval-1", "flash", 900000000, _, rfl, rfl, rfl, rfl, le_refl _⟩

end PromptForge.Approvals
