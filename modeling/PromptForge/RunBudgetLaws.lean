import PromptForge.IntakesConservation
import PromptForge.RunBudget

namespace PromptForge.RunBudget
open Json Numbers Runs Tables
open Jobs hiding Db
open Intakes (Db intake? Intake)

def Binding.record (db : Intakes.Db) : Binding → Option Totals
  | .alone | .persisted _ => none
  | .job jobId _ => (job? db.store jobId).map Job.consumed
  | .intake intakeId => (intake? db intakeId).map Intake.consumed

def Binding.attempt (db : Db) (attemptId : String) : Binding → Option (ℕ × AttemptStatus)
  | .alone | .persisted _ => none
  | .job jobId _ => ((attempt? db.store attemptId).filter fun r => decide (r.jobId = jobId)).map fun r =>
      (r.reservedOutput, r.status)
  | .intake intakeId => (intake? db intakeId).bind fun value =>
      (Intakes.attempt? value attemptId).map fun a => (a.charges.outputTokens, a.status)

lemma inStore_ok {τ : Type} {raise : JobError → Raised} {tx : Jobs.Tx τ} {db db' : Db} {a : τ}
    (h : inStore raise tx db = (.ok a, db')) :
    ∃ store, tx db.store = .ok (a, store) ∧ db' = { db with store := store } := by
  unfold inStore at h
  rcases htx : tx db.store with error | ⟨b, store⟩ <;> rw [htx] at h
  · simp at h
  · obtain ⟨hb, rfl⟩ := Prod.mk.inj h
    rw [Except.ok.inj hb]
    exact ⟨store, rfl, rfl⟩

lemma inStore_error {τ : Type} {raise : JobError → Raised} {tx : Jobs.Tx τ} {db db' : Db} {raised : Raised}
    (h : inStore raise tx db = (.error raised, db')) : db' = db := by
  unfold inStore at h
  rcases htx : tx db.store with error | ⟨b, store⟩ <;> rw [htx] at h
  · exact (Prod.mk.inj h).2.symm
  · simp at h

lemma inIntakes_ok {τ : Type} {raise : Intakes.IntakeError → Raised} {tx : Intakes.Tx τ} {db db' : Db} {a : τ}
    (h : inIntakes raise tx db = (.ok a, db')) : tx db = .ok (a, db') := by
  unfold inIntakes at h
  rcases htx : tx db with error | ⟨b, db₁⟩ <;> rw [htx] at h
  · simp at h
  · obtain ⟨hb, rfl⟩ := Prod.mk.inj h
    rw [Except.ok.inj hb]

lemma inIntakes_error {τ : Type} {raise : Intakes.IntakeError → Raised} {tx : Intakes.Tx τ} {db db' : Db}
    {raised : Raised} (h : inIntakes raise tx db = (.error raised, db')) : db' = db := by
  unfold inIntakes at h
  rcases htx : tx db with error | ⟨b, db₁⟩ <;> rw [htx] at h
  · exact (Prod.mk.inj h).2.symm
  · simp at h

lemma validate_ok {charges : Dict} {c : Charges} {name : Option String}
    (h : validateAttemptCharges charges = .ok (c, name)) (key : Key) :
    charge? charges key.dimension = some (c.of key.dimension) := by
  unfold validateAttemptCharges at h
  dsimp only at h
  split at h
  · rename_i requests output input _ _ hrequests houtput hinput _
    obtain ⟨rfl, -⟩ := Prod.mk.inj (Except.ok.inj h)
    cases key with
    | requests => exact hrequests
    | outputTokens => exact houtput
    | inputBytes => exact hinput
  · cases h

lemma charge?_chargeDict (charge : Key → ℤ) (name : Option String) (key : Key) :
    charge? (chargeDict charge name) key.dimension = if 0 ≤ charge key then some (charge key).toNat else none := by
  cases key <;> cases name <;> rfl

lemma validate_chargeDict {charge : Key → ℤ} {name name' : Option String} {c : Charges}
    (h : validateAttemptCharges (chargeDict charge name) = .ok (c, name')) (key : Key) :
    (c.of key.dimension : ℤ) = charge key := by
  have hcharge := validate_ok h key
  rw [charge?_chargeDict] at hcharge
  split at hcharge
  · have := Option.some.inj hcharge
    omega
  · cases hcharge

def KeepsSettled (binding : Binding) (db db' : Db) : Prop :=
  ∀ attemptId reserved actual settledAt, binding.attempt db attemptId = some (reserved, .completed actual settledAt) →
    binding.attempt db' attemptId = some (reserved, .completed actual settledAt)

/-- The attempt was reserved before and nothing changes, or every total grows by its charge. -/
structure Grown (binding : Binding) (charge : Key → ℤ) (db db' : Db) (old new : Totals) : Prop where
  before : binding.record db = some old
  after : ∃ totals, binding.record db' = some totals ∧ ∀ key : Key, totals key.dimension = new key.dimension
  nonneg : ∀ key, 0 ≤ charge key
  grows : (∀ key : Key, new key.dimension = old key.dimension) ∨
    ∀ key : Key, new key.dimension = (old key.dimension).add (.int (charge key))
  settled : KeepsSettled binding db db'

def returned (release : ℤ) (totals : Totals) : Totals :=
  fun d => if d = .outputTokens then (totals d).sub (.int release) else totals d

/-- The attempt was settled before and nothing changes, or the output shrinks by what it
    did not use. -/
structure Shrunk (binding : Binding) (attemptId : String) (actual : ℕ) (db db' : Db) (old new : Totals) : Prop where
  before : binding.record db = some old
  after : binding.record db' = some new
  done : ∃ reserved settledAt, binding.attempt db' attemptId = some (reserved, .completed actual settledAt)
  shrinks : (db' = db ∧ new = old) ∨
    ∃ reserved, binding.attempt db attemptId = some (reserved, .unresolved) ∧ actual ≤ reserved ∧
      new = returned (reserved - actual) old
  settled : KeepsSettled binding db db'

lemma keepsSettled_refl (binding : Binding) (db : Db) : KeepsSettled binding db db := fun _ _ _ _ h => h

section Job
variable {db : Db} {store : Jobs.Db} {jobId runId : String} {now : ℚ}

lemma job_attempt {attemptId : String} {reserved : ℕ} {status : AttemptStatus} :
    (Binding.job jobId runId).attempt db attemptId = some (reserved, status) ↔
      ∃ row, attempt? db.store attemptId = some row ∧ row.jobId = jobId ∧ row.reservedOutput = reserved ∧
        row.status = status := by
  change Option.map _ (Option.filter _ (attempt? db.store attemptId)) = _ ↔ _
  rcases attempt? db.store attemptId with _ | row <;> simp [Option.filter]

lemma job_record (db : Db) : (Binding.job jobId runId).record db = (job? db.store jobId).map Job.consumed := rfl

lemma job_record_put {value : Job} (hid : value.jobId = jobId) (db : Db) (store : Jobs.Db) :
    (Binding.job jobId runId).record { db with store := put value store } = some value.consumed := by
  rw [job_record, job?_put, if_pos hid.symm]
  rfl

lemma job_grown {charge : Key → ℤ} {name : Option String} {freshId : String} {reserved : Jobs.Reserved}
    (h : reserveProviderAttempt jobId runId (chargeDict charge name) freshId now db.store = .ok (reserved, store)) :
    ∃ old, Grown (.job jobId runId) charge db { db with store := store } old (reserved.over fun _ => .int 0) := by
  unfold reserveProviderAttempt at h
  obtain ⟨⟨c, name'⟩, hvalid, h⟩ := ok_of_bind h
  have hcharge := validate_chargeDict hvalid
  dsimp only at h
  rcases hjob : job? db.store jobId with _ | value
  · rw [hjob] at h
    cases h
  · rw [hjob] at h
    dsimp only at h
    have hbefore : (Binding.job jobId runId).record db = some value.consumed := by
      rw [job_record, hjob]
      rfl
    have hnonneg (key : Key) : 0 ≤ charge key := by
      have := hcharge key
      omega
    split at h
    · cases h
    · rcases hrow : attempt? db.store (name'.getD freshId) with _ | previous
      · rw [hrow] at h
        dsimp only at h
        obtain ⟨requests, hrequests, h⟩ := ok_of_bind h
        obtain ⟨output, houtput, h⟩ := ok_of_bind h
        obtain ⟨input, hinput, h⟩ := ok_of_bind h
        obtain ⟨rfl, rfl⟩ := Prod.mk.inj (Except.ok.inj h)
        refine ⟨value.consumed, hbefore, ⟨(Jobs.Reserved.mk requests output input).over value.consumed, ?_, fun key => ?_⟩,
          hnonneg, .inr fun key => ?_, fun attemptId r actual settledAt hsettled => ?_⟩
        · have hid : value.jobId = jobId := lookup_key hjob
          exact @job_record_put _ _ (value.charged ⟨requests, output, input⟩ c now) hid db _
        · cases key <;> rfl
        · rw [← hcharge key]
          cases key with
          | requests => exact (spend_eq hrequests).1
          | outputTokens => exact (spend_eq houtput).1
          | inputBytes => exact (spend_eq hinput).1
        · obtain ⟨row, hfound, hrest⟩ := job_attempt.1 hsettled
          refine job_attempt.2 ⟨row, ?_, hrest⟩
          have hfound : lookup Attempt.attemptId db.store.attempts attemptId = some row := hfound
          change lookup Attempt.attemptId (db.store.attempts ++ [_]) attemptId = some row
          rw [lookup_append, hfound]
          rfl
      · rw [hrow] at h
        dsimp only at h
        split at h
        · cases h
        · obtain ⟨rfl, rfl⟩ := Prod.mk.inj (Except.ok.inj h)
          exact ⟨value.consumed, hbefore, ⟨value.consumed, hbefore, fun key => by cases key <;> rfl⟩, hnonneg,
            .inl fun key => by cases key <;> rfl, keepsSettled_refl _ _⟩

lemma attempt?_settle (value : Job) (row : Attempt) (actual : ℕ) (store : Jobs.Db) (attemptId : String) :
    attempt? (put value (Jobs.settle row actual now store)) attemptId =
      (attempt? store attemptId).map fun r => if r.attemptId = row.attemptId then r.settledWith actual now else r := by
  have hkey (r : Attempt) : (r.settledWith actual now).attemptId = r.attemptId := rfl
  change lookup Attempt.attemptId (updateWhere _ (Attempt.settledWith actual now) store.attempts) attemptId = _
  rw [lookup_updateWhere hkey]
  simp only [decide_eq_true_eq]

lemma job_settled {row : Attempt} {value : Job} {actual : ℕ} (hjob : job? db.store jobId = some value)
    (hfound : attempt? db.store row.attemptId = some row) (hrowJob : row.jobId = jobId)
    (hstatus : row.status = .unresolved) (hle : actual ≤ row.reservedOutput) :
    Shrunk (.job jobId runId) row.attemptId actual db
      { db with store := put (value.released (row.reservedOutput - actual) now) (Jobs.settle row actual now db.store) }
      value.consumed (returned (row.reservedOutput - actual) value.consumed) where
  before := by
    rw [job_record, hjob]
    rfl
  after := by
    have hid : value.jobId = jobId := lookup_key hjob
    exact @job_record_put _ _ (value.released (row.reservedOutput - actual) now) hid db _
  done := by
    refine ⟨row.reservedOutput, now, job_attempt.2 ⟨row.settledWith actual now, ?_, hrowJob, rfl, rfl⟩⟩
    rw [attempt?_settle, hfound, Option.map_some, if_pos rfl]
  shrinks := .inr ⟨row.reservedOutput, job_attempt.2 ⟨row, hfound, hrowJob, rfl, hstatus⟩, hle, rfl⟩
  settled := by
    intro other reserved actual' settledAt hsettled
    obtain ⟨row', hfound', hjob', hreserved, hcompleted⟩ := job_attempt.1 hsettled
    refine job_attempt.2 ⟨row', ?_, hjob', hreserved, hcompleted⟩
    -- the row is settled already, so it is not the one that the call settles
    have hne : row'.attemptId ≠ row.attemptId := by
      intro hsame
      have hother : row'.attemptId = other := lookup_key hfound'
      rw [← hother, hsame, hfound] at hfound'
      rw [Option.some.inj hfound', hcompleted] at hstatus
      cases hstatus
    rw [attempt?_settle, hfound', Option.map_some, if_neg hne]

lemma job_shrunk {attemptId : String} {actualOutput : Value} {actual : ℕ} {totals : Totals}
    (hactual : actual? actualOutput = some actual)
    (h : settleProviderAttempt jobId attemptId actualOutput now db.store = .ok (totals, store)) :
    ∃ old, Shrunk (.job jobId runId) attemptId actual db { db with store := store } old totals := by
  unfold settleProviderAttempt at h
  rw [hactual] at h
  split at h
  · rename_i actual' row hactual' hrow
    obtain rfl := Option.some.inj hactual'
    obtain ⟨hfound, hrowJob⟩ := Option.filter_eq_some_iff.1 hrow
    have hrowJob : row.jobId = jobId := by simpa using hrowJob
    split at h
    · cases h
    · rename_i hle
      split at h
      · cases h
      · rename_i value hjob
        have hbefore : (Binding.job jobId runId).record db = some value.consumed := by
          rw [job_record, hjob]
          rfl
        split at h
        · rename_i settled settledAt hstatus
          split at h
          · cases h
          · rename_i hsame
            obtain ⟨rfl, rfl⟩ := Prod.mk.inj (Except.ok.inj h)
            have hdone : (Binding.job jobId runId).attempt db attemptId =
                some (row.reservedOutput, .completed settled settledAt) :=
              job_attempt.2 ⟨row, hfound, hrowJob, rfl, hstatus⟩
            rw [not_not.1 hsame] at hdone
            exact ⟨value.consumed, hbefore, hbefore, ⟨row.reservedOutput, settledAt, hdone⟩, .inl ⟨rfl, rfl⟩,
              keepsSettled_refl _ _⟩
        · rename_i hstatus
          obtain ⟨rfl, rfl⟩ := Prod.mk.inj (Except.ok.inj h)
          obtain rfl : row.attemptId = attemptId := lookup_key hfound
          exact ⟨value.consumed, job_settled hjob hfound hrowJob hstatus (not_lt.1 hle)⟩
  · cases h

end Job

section Intake
variable {db db' : Db} {intakeId : String} {now : ℚ} {value : Intake}

lemma intake_record (h : intake? db intakeId = some value) :
    (Binding.intake intakeId).record db = some value.consumed := by
  change (intake? db intakeId).map _ = _
  rw [h]
  rfl

lemma intake_attempt (h : intake? db intakeId = some value) (attemptId : String) :
    (Binding.intake intakeId).attempt db attemptId =
      (Intakes.attempt? value attemptId).map fun a => (a.charges.outputTokens, a.status) := by
  change (intake? db intakeId).bind _ = _
  rw [h]
  rfl

lemma charge_spec {charged : Intake} {c : Charges} {attemptId : String}
    (h : Intakes.charge value c attemptId now = .ok charged) :
    charged.intakeId = value.intakeId ∧ (∃ a, charged.attempts = value.attempts ++ [a]) ∧
      ∀ key : Key, charged.consumed key.dimension = (value.consumed key.dimension).add (.int (c.of key.dimension)) := by
  unfold Intakes.charge at h
  obtain ⟨requests, hrequests, h⟩ := ok_of_bind h
  obtain ⟨output, houtput, h⟩ := ok_of_bind h
  obtain ⟨input, hinput, h⟩ := ok_of_bind h
  obtain rfl := Except.ok.inj h
  refine ⟨rfl, ⟨_, rfl⟩, fun key => ?_⟩
  cases key with
  | requests => exact Intakes.spend_ok hrequests
  | outputTokens => exact Intakes.spend_ok houtput
  | inputBytes => exact Intakes.spend_ok hinput

lemma intake_grown {charge : Key → ℤ} {name : Option String} {freshId : String} {totals : Totals}
    (h : Intakes.reserve intakeId (chargeDict charge name) freshId now db = .ok (totals, db')) :
    ∃ old, Grown (.intake intakeId) charge db db' old totals := by
  unfold Intakes.reserve at h
  obtain ⟨⟨c, name'⟩, hvalid, h⟩ := ok_of_bind h
  have hvalid : validateAttemptCharges (chargeDict charge name) = .ok (c, name') := by
    unfold Intakes.validCharges at hvalid
    split at hvalid
    · rename_i heq
      rw [heq, Except.ok.inj hvalid]
    · cases hvalid
  have hcharge := validate_chargeDict hvalid
  have hnonneg (key : Key) : 0 ≤ charge key := by
    have := hcharge key
    omega
  obtain ⟨value, hvalue, h⟩ := ok_of_bind h
  have hvalue := Intakes.of_found hvalue
  obtain ⟨_, -, h⟩ := ok_of_bind h
  split at h
  · obtain ⟨_, -, h⟩ := ok_of_bind h
    obtain ⟨rfl, rfl⟩ := Prod.mk.inj (Except.ok.inj h)
    exact ⟨value.consumed, intake_record hvalue, ⟨_, intake_record hvalue, fun _ => rfl⟩, hnonneg,
      .inl fun _ => rfl, keepsSettled_refl _ _⟩
  · rename_i hfresh
    obtain ⟨charged, hcharged, h⟩ := ok_of_bind h
    obtain ⟨rfl, rfl⟩ := Prod.mk.inj (Except.ok.inj h)
    obtain ⟨hid, ⟨a, hattempts⟩, hconsumed⟩ := charge_spec hcharged
    have hput : intake? (Intakes.put charged db) intakeId = some charged := Intakes.intake?_put_same hvalue hid
    refine ⟨value.consumed, intake_record hvalue, ⟨_, intake_record hput, fun _ => rfl⟩, hnonneg,
      .inr fun key => ?_, fun attemptId reserved actual settledAt hsettled => ?_⟩
    · rw [hconsumed, hcharge]
    · rw [intake_attempt hvalue] at hsettled
      rw [intake_attempt hput]
      change Option.map _ (lookup _ charged.attempts attemptId) = _
      rw [hattempts, lookup_append]
      change Option.map _ (lookup _ value.attempts attemptId) = _ at hsettled
      rcases hfound : lookup Intakes.IntakeAttempt.attemptId value.attempts attemptId with _ | a
      · rw [hfound] at hsettled
        cases hsettled
      · rw [hfound] at hsettled
        exact hsettled

lemma attempt?_settled (attempt : Intakes.IntakeAttempt) (actual : ℕ) (value : Intake) (attemptId : String) :
    Intakes.attempt? (value.settled attempt actual now) attemptId = (Intakes.attempt? value attemptId).map fun a =>
      if a.attemptId = attempt.attemptId then a.settledWith actual now else a := by
  have hkey (a : Intakes.IntakeAttempt) : (a.settledWith actual now).attemptId = a.attemptId := rfl
  change lookup _ (updateWhere _ (Intakes.IntakeAttempt.settledWith actual now) value.attempts) attemptId = _
  rw [lookup_updateWhere hkey]
  simp only [decide_eq_true_eq]

lemma settled_put (hvalue : intake? db intakeId = some value) (attempt : Intakes.IntakeAttempt) (actual : ℕ) :
    intake? (Intakes.put (value.settled attempt actual now) db) intakeId =
      some (value.settled attempt actual now) :=
  @Intakes.intake?_put_same _ _ _ (value.settled attempt actual now) hvalue rfl

lemma intake_settled {attempt : Intakes.IntakeAttempt} {actual : ℕ} (hvalue : intake? db intakeId = some value)
    (hfound : Intakes.attempt? value attempt.attemptId = some attempt) (hstatus : attempt.status = .unresolved)
    (hle : actual ≤ attempt.charges.outputTokens) :
    Shrunk (.intake intakeId) attempt.attemptId actual db (Intakes.put (value.settled attempt actual now) db)
      value.consumed (returned (attempt.charges.outputTokens - actual) value.consumed) where
  before := intake_record hvalue
  after := intake_record (settled_put hvalue attempt actual)
  done := by
    refine ⟨attempt.charges.outputTokens, now, ?_⟩
    rw [intake_attempt (settled_put hvalue attempt actual), attempt?_settled, hfound, Option.map_some, if_pos rfl]
    rfl
  shrinks := by
    refine .inr ⟨attempt.charges.outputTokens, ?_, hle, rfl⟩
    rw [intake_attempt hvalue, hfound, Option.map_some, hstatus]
  settled := by
    intro other reserved actual' settledAt hsettled
    rw [intake_attempt hvalue] at hsettled
    rw [intake_attempt (settled_put hvalue attempt actual), attempt?_settled]
    rcases hother : Intakes.attempt? value other with _ | a
    · rw [hother] at hsettled
      cases hsettled
    · rw [hother, Option.map_some] at hsettled
      have hne : a.attemptId ≠ attempt.attemptId := by
        intro hsame
        have hkey : a.attemptId = other := lookup_key hother
        rw [← hkey, hsame, hfound] at hother
        rw [← Option.some.inj hother, hstatus] at hsettled
        cases hsettled
      rw [Option.map_some, if_neg hne]
      exact hsettled

lemma intake_shrunk {attemptId : String} {actualOutput : Value} {actual : ℕ} {totals : Totals}
    (hactual : actual? actualOutput = some actual)
    (h : Intakes.settle intakeId attemptId actualOutput now db = .ok (totals, db')) :
    ∃ old, Shrunk (.intake intakeId) attemptId actual db db' old totals := by
  unfold Intakes.settle at h
  obtain ⟨value, hvalue, h⟩ := ok_of_bind h
  have hvalue := Intakes.of_found hvalue
  obtain ⟨attempt, hattempt, h⟩ := ok_of_bind h
  have hfound := Intakes.of_found hattempt
  have hkey : attempt.attemptId = attemptId := lookup_key hfound
  rw [← hkey] at hfound ⊢
  obtain ⟨_, -, h⟩ := ok_of_bind h
  obtain ⟨actual', hactual', h⟩ := ok_of_bind h
  have hactual' := Intakes.of_found hactual'
  rw [hactual] at hactual'
  obtain rfl := Option.some.inj hactual'
  obtain ⟨_, hle, h⟩ := ok_of_bind h
  split at h
  · rename_i settled settledAt hstatus
    obtain ⟨_, hsame, h⟩ := ok_of_bind h
    obtain ⟨rfl, rfl⟩ := Prod.mk.inj (Except.ok.inj h)
    have hdone : (Binding.intake intakeId).attempt db attempt.attemptId =
        some (attempt.charges.outputTokens, .completed settled settledAt) := by
      rw [intake_attempt hvalue, hfound, Option.map_some, hstatus]
    rw [of_require hsame] at hdone
    exact ⟨value.consumed, intake_record hvalue, intake_record hvalue, ⟨_, settledAt, hdone⟩, .inl ⟨rfl, rfl⟩,
      keepsSettled_refl _ _⟩
  · rename_i hstatus
    obtain ⟨rfl, rfl⟩ := Prod.mk.inj (Except.ok.inj h)
    exact ⟨value.consumed, intake_settled hvalue hfound hstatus (of_require hle)⟩

end Intake

section Callbacks
variable {binding : Binding} {db db' : Db}

lemma reserve_ok {charge : Key → ℤ} {name : Option String} {draw : Draw} {totals : Totals}
    {reserve : Db → Except Raised Totals × Db}
    (h : binding.reserve (chargeDict charge name) draw = some reserve) (hok : reserve db = (.ok totals, db')) :
    ∃ old, Grown binding charge db db' old totals := by
  cases binding with
  | alone => cases h
  | persisted jobId => cases h
  | job jobId runId =>
    obtain rfl := Option.some.inj h
    obtain ⟨store, htx, rfl⟩ := inStore_ok hok
    obtain ⟨⟨reserved, store'⟩, hreserved, htx⟩ := ok_of_bind htx
    obtain ⟨rfl, rfl⟩ := Prod.mk.inj (Except.ok.inj htx)
    exact job_grown hreserved
  | intake intakeId =>
    obtain rfl := Option.some.inj h
    exact intake_grown (inIntakes_ok hok)

lemma reserve_error {charges : Dict} {draw : Draw} {raised : Raised}
    {reserve : Db → Except Raised Totals × Db}
    (h : binding.reserve charges draw = some reserve) (herror : reserve db = (.error raised, db')) : db' = db := by
  cases binding with
  | alone => cases h
  | persisted jobId => cases h
  | job jobId runId =>
    obtain rfl := Option.some.inj h
    exact inStore_error herror
  | intake intakeId =>
    obtain rfl := Option.some.inj h
    exact inIntakes_error herror

lemma settle_ok {attemptId : String} {actualOutput : Value} {actual : ℕ} {now : ℚ} {totals : Totals}
    {settle : Db → Except Raised Totals × Db} (hactual : actual? actualOutput = some actual)
    (h : binding.settle attemptId actualOutput now = some settle) (hok : settle db = (.ok totals, db')) :
    ∃ old, Shrunk binding attemptId actual db db' old totals := by
  cases binding with
  | alone => cases h
  | persisted jobId => cases h
  | job jobId runId =>
    obtain rfl := Option.some.inj h
    obtain ⟨store, htx, rfl⟩ := inStore_ok hok
    exact job_shrunk hactual htx
  | intake intakeId =>
    obtain rfl := Option.some.inj h
    exact intake_shrunk hactual (inIntakes_ok hok)

lemma settle_error {attemptId : String} {actualOutput : Value} {now : ℚ} {raised : Raised}
    {settle : Db → Except Raised Totals × Db}
    (h : binding.settle attemptId actualOutput now = some settle) (herror : settle db = (.error raised, db')) :
    db' = db := by
  cases binding with
  | alone => cases h
  | persisted jobId => cases h
  | job jobId runId =>
    obtain rfl := Option.some.inj h
    exact inStore_error herror
  | intake intakeId =>
    obtain rfl := Option.some.inj h
    exact inIntakes_error herror

def Unread (binding : Binding) : Prop := ∀ db, binding.record db = none ∧ ∀ attemptId, binding.attempt db attemptId = none

lemma unread_of_reserve {charges : Dict} {draw : Draw} (h : binding.reserve charges draw = none) : Unread binding := by
  cases binding with
  | alone => exact fun db => ⟨rfl, fun _ => rfl⟩
  | persisted jobId => exact fun db => ⟨rfl, fun _ => rfl⟩
  | job jobId runId => cases h
  | intake intakeId => cases h

lemma persist_error {consumed : Key → ℤ} {now : ℚ} {raised : Raised}
    {persist : Db → Except Raised Unit × Db}
    (h : binding.persist consumed now = some persist) (herror : persist db = (.error raised, db')) : db' = db := by
  cases binding with
  | alone => cases h
  | persisted jobId =>
    obtain rfl := Option.some.inj h
    exact inStore_error herror
  | job jobId runId => cases h
  | intake intakeId => cases h

end Callbacks

end PromptForge.RunBudget
