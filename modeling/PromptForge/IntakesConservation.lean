import PromptForge.Intakes
import PromptForge.JobsConservation

namespace PromptForge.Intakes
open Json Numbers Runs Tables Jobs

variable {host : Host}

abbrev Move := Entry Db Request (Except IntakeError Reply)

variable (host) in
abbrev moves (requests : List Request) : List Move := trace (perform host) .initial requests

def IntakeAttempt.accounted (a : IntakeAttempt) : ℕ :=
  match a.status with
  | .completed actual _ => actual
  | .unresolved => a.charges.outputTokens

def accountedOf (attempts : List IntakeAttempt) : ℕ := (attempts.map IntakeAttempt.accounted).sum

def Attaches (e : Move) (identity jobId : String) : Prop :=
  e.action = .attach identity jobId ∧ ∃ job, e.outcome = .ok (.attached job)

structure Transfer (db db' : Db) (identity jobId : String) (value : Intake) (job job' : Job) : Prop where
  before : job? db.store jobId = some job
  after : job? db'.store jobId = some job'
  totals : ∀ d, job'.consumed d = (job.consumed d).add (value.consumed d)
  output : value.consumed .outputTokens = .int (accountedOf value.attempts)
  ledger : value.attempts ≠ [] ∨ job.attemptLedger = true → job'.attemptLedger = true
  rows : db'.store.attempts = db.store.attempts ++ value.attempts.map (attemptRow job)
  accounted : accounted db'.store jobId = accounted db.store jobId + accountedOf value.attempts
  intake : intake? db' identity = some { value with jobId := some jobId }
  otherIntakes : ∀ other, other ≠ identity → intake? db' other = intake? db other
  otherJobs : ∀ other, other ≠ jobId → job? db'.store other = job? db.store other ∧
    Jobs.accounted db'.store other = Jobs.accounted db.store other

def Owned (store : Jobs.Db) (jobId : String) (a : IntakeAttempt) : Prop :=
  ∃ row, Jobs.attempt? store a.attemptId = some row ∧ row.jobId = jobId ∧ row.reservedOutput = a.charges.outputTokens

def Releases (db db' : Db) (jobId attemptId : String) : Prop :=
  db' = db ∨ db'.intakes = db.intakes ∧ ∃ row actual value value', Jobs.attempt? db.store attemptId = some row ∧
    row.status = .unresolved ∧ job? db.store jobId = some value ∧ job? db'.store jobId = some value' ∧
    value'.consumed .outputTokens = (value.consumed .outputTokens).sub (.int (row.reservedOutput - actual))

structure Settled (e : Move) (identity jobId : String) (attempts : List IntakeAttempt) : Prop where
  again : ∀ other, Attaches e identity other → other = jobId ∧ e.after = e.before
  reserves : ∀ charges freshId now, e.action = .reserve identity charges freshId now →
    (∃ error, e.outcome = .error error) ∧ e.after = e.before
  settles : ∀ attemptId actualOutput now, e.action = .settle identity attemptId actualOutput now →
    (∃ error, e.outcome = .error error) ∧ e.after = e.before
  owned : ∀ a ∈ attempts, Owned e.before.store jobId a
  releases : ∀ attemptId actualOutput now reply, e.action = .job (.settle jobId attemptId actualOutput now) →
    e.outcome = .ok reply → Releases e.before e.after jobId attemptId

/-- From the transfer on, a job that had a whole number of output tokens has that
    number, the intake's, and what its ledger has moved by since. -/
def Carried (es : List Move) : Prop :=
  ∀ pre e post, es = pre ++ e :: post → ∀ identity jobId value job opening, Attaches e identity jobId →
    intake? e.before identity = some value → value.jobId = none → value.attempts ≠ [] →
    job? e.before.store jobId = some job →
    job.consumed .outputTokens = .int (opening + accounted e.before.store jobId) →
    ∀ e' ∈ e :: post, Balance opening jobId e'.after.store

structure Conserved (es : List Move) : Prop where
  transfers : ∀ e ∈ es, ∀ identity jobId value, Attaches e identity jobId → intake? e.before identity = some value →
    value.jobId = none → ∃ job job', Transfer e.before e.after identity jobId value job job'
  repeats : ∀ e ∈ es, ∀ identity jobId value, Attaches e identity jobId → intake? e.before identity = some value →
    value.jobId ≠ none → e.after = e.before
  fails : ∀ e ∈ es, ∀ identity jobId error, e.action = .attach identity jobId → e.outcome = .error error →
    e.after = e.before
  later : es.Pairwise fun e e' => ∀ identity jobId value, Attaches e identity jobId →
    intake? e.before identity = some value → Settled e' identity jobId value.attempts
  carried : Carried es

structure Kept (value : Intake) : Prop where
  ids : (value.attempts.map IntakeAttempt.attemptId).Nodup
  output : value.consumed .outputTokens = .int (accountedOf value.attempts)

lemma of_found {α : Type} {row : Option α} {error : IntakeError} {a : α} (h : found row error = .ok a) :
    row = some a := by
  cases row with
  | none => cases h
  | some b => rw [Except.ok.inj h]

lemma kept_newIntake (hex sessionId projectId fingerprint : String) (limits : Limits) (now : ℚ) :
    Kept (newIntake hex sessionId projectId fingerprint limits now) := ⟨List.nodup_nil, rfl⟩

lemma spend_ok {value : Intake} {c : Charges} {d : Dimension} {total : Number} (h : spend value c d = .ok total) :
    total = (value.consumed d).add (.int (c.of d)) := by
  unfold spend at h
  dsimp only at h
  split at h
  · cases h
  · exact (Except.ok.inj h).symm

lemma kept_charge {value charged : Intake} {c : Charges} {attemptId : String} {now : ℚ} (h : Kept value)
    (hfresh : attempt? value attemptId = none) (hc : charge value c attemptId now = .ok charged) :
    Kept charged ∧ charged.intakeId = value.intakeId ∧ charged.jobId = value.jobId := by
  unfold charge at hc
  obtain ⟨requests, -, hc⟩ := ok_of_bind hc
  obtain ⟨output, houtput, hc⟩ := ok_of_bind hc
  obtain ⟨input, -, hc⟩ := ok_of_bind hc
  cases hc
  refine ⟨⟨?_, ?_⟩, rfl, rfl⟩
  · exact nodup_insertRow (insertRow_of_fresh (r := (⟨attemptId, c, .unresolved, now⟩ : IntakeAttempt)) hfresh) h.ids
  · change output = _
    rw [spend_ok houtput, h.output]
    unfold accountedOf
    rw [List.map_append, List.sum_append]
    change Number.int _ = _
    congr 1

lemma kept_settled {value : Intake} {attempt : IntakeAttempt} {actual : ℕ} {now : ℚ} (h : Kept value)
    (hfound : attempt? value attempt.attemptId = some attempt) (hun : attempt.status = .unresolved) :
    Kept (value.settled attempt actual now) := by
  have hsum := sum_updateWhere h.ids hfound (q := fun _ => true) (f := IntakeAttempt.settledWith actual now) rfl
    IntakeAttempt.accounted
  have hold : attempt.accounted = attempt.charges.outputTokens := by
    unfold IntakeAttempt.accounted
    rw [hun]
  rw [List.filter_true, List.filter_true, if_pos rfl, if_pos rfl, hold] at hsum
  refine ⟨nodup_updateWhere (f := IntakeAttempt.settledWith actual now) (fun _ => rfl) h.ids, ?_⟩
  change (value.consumed .outputTokens).sub _ = _
  rw [h.output]
  have hnew : (attempt.settledWith actual now).accounted = actual := rfl
  rw [hnew] at hsum
  change Number.int (((value.attempts.map IntakeAttempt.accounted).sum : ℕ) - _) =
    Number.int (((updateWhere (fun a => decide (a.attemptId = attempt.attemptId)) (.settledWith actual now)
      value.attempts).map IntakeAttempt.accounted).sum : ℕ)
  congr 1
  omega

lemma insertAttempts_ok {rows t u : List Attempt} (h : rows.foldlM insertAttempt t = .ok u)
    (hn : (t.map Attempt.attemptId).Nodup) : u = t ++ rows ∧ (u.map Attempt.attemptId).Nodup := by
  induction rows generalizing t with
  | nil =>
    obtain rfl := Except.ok.inj h
    exact ⟨(List.append_nil t).symm, hn⟩
  | cons row rows ih =>
    rw [List.foldlM_cons] at h
    obtain ⟨t', ht', h⟩ := ok_of_bind h
    have hinsert := of_found ht'
    obtain ⟨hu, hnodup⟩ := ih h (nodup_insertRow hinsert hn)
    obtain ⟨-, rfl⟩ := insertRow_eq_some hinsert
    rw [List.append_assoc] at hu
    exact ⟨hu, hnodup⟩

lemma accounted_rows (job : Job) (attempts : List IntakeAttempt) :
    ((attempts.map (attemptRow job)).map Attempt.actual).sum + ((attempts.map (attemptRow job)).map Attempt.held).sum =
      accountedOf attempts := by
  induction attempts with
  | nil => rfl
  | cons a attempts ih =>
    have ha : (attemptRow job a).actual + (attemptRow job a).held = a.accounted := by
      unfold Attempt.actual Attempt.held IntakeAttempt.accounted attemptRow
      cases a.status <;> simp
    unfold accountedOf at ih ⊢
    simp only [List.map_cons, List.sum_cons]
    omega

lemma filter_rows (job : Job) (attempts : List IntakeAttempt) (identity : String) :
    (attempts.map (attemptRow job)).filter (fun r => decide (r.jobId = identity)) =
      if job.jobId = identity then attempts.map (attemptRow job) else [] := by
  split
  · rename_i hid
    refine List.filter_eq_self.2 fun r hr => ?_
    obtain ⟨a, -, rfl⟩ := List.mem_map.1 hr
    exact decide_eq_true hid
  · rename_i hid
    refine List.filter_eq_nil_iff.2 fun r hr => ?_
    obtain ⟨a, -, rfl⟩ := List.mem_map.1 hr
    exact fun hsame => hid (of_decide_eq_true hsame)

lemma accounted_append (db : Jobs.Db) (value job : Job) (attempts : List IntakeAttempt) (identity : String) :
    accounted (Jobs.put value { db with attempts := db.attempts ++ attempts.map (attemptRow job) }) identity =
      accounted db identity + if job.jobId = identity then accountedOf attempts else 0 := by
  simp only [accounted, attemptAccounting, Jobs.put, List.filter_append, filter_rows, List.map_append, List.sum_append]
  split
  · rw [← accounted_rows job attempts]
    omega
  · simp only [List.map_nil, List.sum_nil]
    omega

structure Inv (db : Db) : Prop where
  store : Sound db.store
  ids : (db.intakes.map Intake.intakeId).Nodup
  kept : ∀ value ∈ db.intakes, Kept value
  owned : ∀ value ∈ db.intakes, ∀ jobId, value.jobId = some jobId → ∀ a ∈ value.attempts, Owned db.store jobId a

lemma inv_initial : Inv .initial :=
  ⟨sound_initial, List.nodup_nil, fun _ h => (List.not_mem_nil h).elim, fun _ h => (List.not_mem_nil h).elim⟩

section Steps
variable {db db' : Db} {identity jobId : String} {value value' : Intake}

lemma intake?_put (value : Intake) (db : Db) (identity : String) :
    intake? (put value db) identity =
      (intake? db identity).map fun x => if x.intakeId = value.intakeId then value else x :=
  lookup_updateRow value db.intakes identity

lemma intake?_put_same (h : intake? db identity = some value) (hid : value'.intakeId = value.intakeId) :
    intake? (put value' db) identity = some value' := by
  rw [intake?_put, h, Option.map_some, if_pos hid.symm]

variable {other : String}

lemma intake?_put_other (value' : Intake) (h : intake? db identity = some value) (hid : value'.intakeId = value.intakeId)
    (hother : other ≠ identity) : intake? (put value' db) other = intake? db other := by
  rw [intake?_put]
  rcases hfound : intake? db other with _ | x
  · rfl
  · have hkey : x.intakeId = other := lookup_key hfound
    have hkey' : value.intakeId = identity := lookup_key h
    rw [Option.map_some, if_neg]
    rw [hkey, hid, hkey']
    exact hother

lemma inv_put (h : Inv db) (hkept : Kept value')
    (howned : ∀ jobId, value'.jobId = some jobId → ∀ a ∈ value'.attempts, Owned db.store jobId a) :
    Inv (put value' db) := by
  refine ⟨h.store, ?_, fun x hx => ?_, fun x hx => ?_⟩
  · change ((updateRow Intake.intakeId value' db.intakes).map Intake.intakeId).Nodup
    rw [map_key_updateRow]
    exact h.ids
  · rcases mem_updateRow hx with rfl | hx
    · exact hkept
    · exact h.kept x hx
  · rcases mem_updateRow hx with rfl | hx
    · exact howned
    · exact h.owned x hx

variable {now : ℚ}

lemma create_spec {sessionId projectId request profile hex : String} {result : Intake}
    (h : create host sessionId projectId request profile hex now db = .ok (result, db')) :
    (∃ prior ∈ db.intakes, prior.jobId = none ∧ db' = put { prior with status := "running" } db) ∨
    ∃ limits, intake? db ("intake-" ++ hex) = none ∧
      db' = { db with intakes :=
        db.intakes ++ [newIntake hex sessionId projectId (host.sha256 request) limits now] } := by
  unfold create at h
  dsimp only at h
  split at h
  · rename_i prior hprior
    obtain ⟨-, rfl⟩ := Prod.mk.inj (Except.ok.inj h)
    have hresumable : resumable sessionId (host.sha256 request) prior := by
      simpa using List.find?_some hprior
    exact .inl ⟨prior, List.mem_of_find?_eq_some hprior, hresumable.2.2.2, rfl⟩
  · obtain ⟨limits, -, h⟩ := ok_of_bind h
    obtain ⟨intakes, hintakes, h⟩ := ok_of_bind h
    obtain ⟨-, rfl⟩ := Prod.mk.inj (Except.ok.inj h)
    obtain ⟨hfresh, rfl⟩ := insertRow_eq_some (of_found hintakes)
    exact .inr ⟨limits, hfresh, rfl⟩

lemma reserve_intake_spec {charges : Dict} {freshId : String} {totals : Totals}
    (h : reserve identity charges freshId now db = .ok (totals, db')) :
    ∃ value, intake? db identity = some value ∧ value.jobId = none ∧
      (db' = db ∨ ∃ c attemptId charged, attempt? value attemptId = none ∧
        charge value c attemptId now = .ok charged ∧ db' = put charged db) := by
  unfold reserve at h
  obtain ⟨⟨c, name⟩, -, h⟩ := ok_of_bind h
  obtain ⟨value, hvalue, h⟩ := ok_of_bind h
  obtain ⟨_, hrunning, h⟩ := ok_of_bind h
  refine ⟨value, of_found hvalue, (of_require hrunning).2, ?_⟩
  split at h
  · obtain ⟨_, -, h⟩ := ok_of_bind h
    obtain ⟨-, rfl⟩ := Prod.mk.inj (Except.ok.inj h)
    exact .inl rfl
  · rename_i hfresh
    obtain ⟨charged, hcharged, h⟩ := ok_of_bind h
    obtain ⟨-, rfl⟩ := Prod.mk.inj (Except.ok.inj h)
    exact .inr ⟨c, name.getD freshId, charged, hfresh, hcharged, rfl⟩

lemma settle_intake_spec {attemptId : String} {actualOutput : Value} {totals : Totals}
    (h : settle identity attemptId actualOutput now db = .ok (totals, db')) :
    ∃ value, intake? db identity = some value ∧ value.jobId = none ∧
      (db' = db ∨ ∃ attempt actual, attempt? value attempt.attemptId = some attempt ∧ attempt.status = .unresolved ∧
        db' = put (value.settled attempt actual now) db) := by
  unfold settle at h
  obtain ⟨value, hvalue, h⟩ := ok_of_bind h
  obtain ⟨attempt, hattempt, h⟩ := ok_of_bind h
  obtain ⟨_, hopen, h⟩ := ok_of_bind h
  obtain ⟨actual, -, h⟩ := ok_of_bind h
  obtain ⟨_, -, h⟩ := ok_of_bind h
  refine ⟨value, of_found hvalue, of_require hopen, ?_⟩
  split at h
  · obtain ⟨_, -, h⟩ := ok_of_bind h
    obtain ⟨-, rfl⟩ := Prod.mk.inj (Except.ok.inj h)
    exact .inl rfl
  · rename_i hstatus
    obtain ⟨-, rfl⟩ := Prod.mk.inj (Except.ok.inj h)
    have hfound := of_found hattempt
    have hkey : attempt.attemptId = attemptId := lookup_key hfound
    exact .inr ⟨attempt, actual, by rw [hkey]; exact hfound, hstatus, rfl⟩

lemma finish_spec {status : String} {elapsed : Number} {failure : Option Dict} {result : Intake}
    (h : finish identity status elapsed failure now db = .ok (result, db')) :
    ∃ value, intake? db identity = some value ∧ db' = put (value.finished status elapsed failure now) db := by
  unfold finish at h
  obtain ⟨value, hvalue, h⟩ := ok_of_bind h
  obtain ⟨-, rfl⟩ := Prod.mk.inj (Except.ok.inj h)
  exact ⟨value, of_found hvalue, rfl⟩

lemma attach_spec {result : Job} (h : attach identity jobId db = .ok (result, db')) :
    ∃ value job, intake? db identity = some value ∧ job? db.store jobId = some job ∧
      (value.jobId = some jobId ∧ db' = db ∨ value.jobId = none ∧ transfer value job db = .ok (result, db')) := by
  unfold attach at h
  obtain ⟨value, hvalue, h⟩ := ok_of_bind h
  obtain ⟨_, hother, h⟩ := ok_of_bind h
  obtain ⟨job, hjob, h⟩ := ok_of_bind h
  obtain ⟨_, -, h⟩ := ok_of_bind h
  refine ⟨value, job, of_found hvalue, of_found hjob, ?_⟩
  split at h
  · rename_i hopen
    exact .inr ⟨hopen, h⟩
  · rename_i hattached
    obtain ⟨other, hsome⟩ := Option.ne_none_iff_exists'.1 hattached
    obtain ⟨-, rfl⟩ := Prod.mk.inj (Except.ok.inj h)
    refine .inl ⟨?_, rfl⟩
    rw [hsome, of_require hother other hsome]

def delivered (value : Intake) (job : Job) (store : Jobs.Db) : Jobs.Db :=
  Jobs.put (joined value job) { store with attempts := store.attempts ++ value.attempts.map (attemptRow job) }

def transferred (value : Intake) (job : Job) (db : Db) : Db :=
  put { value with jobId := some job.jobId } { db with store := delivered value job db.store }

variable {job : Job}

lemma transfer_spec {result : Job} (hs : Sound db.store) (h : transfer value job db = .ok (result, db')) :
    db' = transferred value job db ∧
    ((db.store.attempts ++ value.attempts.map (attemptRow job)).map Attempt.attemptId).Nodup := by
  unfold transfer at h
  obtain ⟨_, -, h⟩ := ok_of_bind h
  obtain ⟨attempts, hattempts, h⟩ := ok_of_bind h
  obtain ⟨-, rfl⟩ := Prod.mk.inj (Except.ok.inj h)
  obtain ⟨rfl, hnodup⟩ := insertAttempts_ok hattempts hs.ids
  exact ⟨rfl, hnodup⟩

lemma joined_ledger (h : value.attempts ≠ [] ∨ job.attemptLedger = true) :
    (joined value job).attemptLedger = true := by
  change (!value.attempts.isEmpty || job.attemptLedger) = true
  rcases h with h | h
  · rw [List.isEmpty_eq_false_iff.2 h]
    rfl
  · rw [h, Bool.or_true]

lemma transfer_of_spec (hkept : Kept value) (hvalue : intake? db identity = some value)
    (hjob : job? db.store jobId = some job) :
    Transfer db (transferred value job db) identity jobId value job (joined value job) := by
  have hid : job.jobId = jobId := jobId_of_job? hjob
  refine ⟨hjob, ?_, fun _ => rfl, hkept.output, joined_ledger, rfl, ?_, ?_, fun other hother => ?_, fun other hother => ?_⟩
  · change job? (delivered value job db.store) _ = _
    unfold delivered
    rw [job?_put]
    exact if_pos hid.symm
  · change accounted (delivered value job db.store) _ = _
    unfold delivered
    rw [accounted_append, if_pos hid]
  · rw [← hid]
    change intake? (put _ ⟨db.intakes, delivered value job db.store⟩) identity = _
    exact intake?_put_same hvalue rfl
  · change intake? (put _ ⟨db.intakes, delivered value job db.store⟩) other =
      intake? ⟨db.intakes, delivered value job db.store⟩ other
    exact intake?_put_other { value with jobId := some job.jobId } hvalue rfl hother
  · refine ⟨?_, ?_⟩
    · change job? (delivered value job db.store) _ = _
      unfold delivered
      rw [job?_put]
      exact if_neg fun h => hother (h.trans hid)
    · change accounted (delivered value job db.store) _ = _
      unfold delivered
      rw [accounted_append, if_neg fun h => hother (h.symm.trans hid), Nat.add_zero]

lemma owned_of_append {store store' : Jobs.Db} {rows : List Attempt} {a : IntakeAttempt}
    (h : Owned store jobId a) (hrows : store'.attempts = store.attempts ++ rows) : Owned store' jobId a := by
  obtain ⟨row, hrow, hid, hreserved⟩ := h
  refine ⟨row, ?_, hid, hreserved⟩
  change lookup _ store'.attempts _ = _
  rw [hrows, lookup_append, show lookup Attempt.attemptId store.attempts a.attemptId = some row from hrow]
  rfl

lemma owned_effect {store store' : Jobs.Db} {a : IntakeAttempt} (h : Owned store jobId a)
    (he : Effect store store') : Owned store' jobId a := by
  cases he with
  | same => exact h
  | opens value hnew => exact h
  | keeps value value' requests hjob hk => exact h
  | reserves value value' row c hjob hrow hr => exact owned_of_append h rfl
  | settles value value' row actual now hjob hrow hs =>
    obtain ⟨found, hfound, hid, hreserved⟩ := h
    have hkey : ∀ r : Attempt, (r.settledWith actual now).attemptId = r.attemptId := fun _ => rfl
    have hlookup := lookup_updateWhere (p := fun r => decide (r.attemptId = row.attemptId)) hkey store.attempts
      a.attemptId
    rw [show lookup Attempt.attemptId store.attempts a.attemptId = some found from hfound, Option.map_some] at hlookup
    refine ⟨_, hlookup, ?_, ?_⟩
    · split
      · exact hid
      · exact hid
    · split
      · exact hreserved
      · exact hreserved

lemma sound_transferred (h : Sound db.store) (hjob : job? db.store job.jobId = some job)
    (hnodup : ((db.store.attempts ++ value.attempts.map (attemptRow job)).map Attempt.attemptId).Nodup) :
    Sound (transferred value job db).store := by
  refine ⟨hnodup, fun r hr => ?_⟩
  change ∃ value', job? (delivered value job db.store) r.jobId = some value' ∧ value'.attemptLedger = true
  unfold delivered
  rcases List.mem_append.1 hr with hr | hr
  · refine ledgered_put (h.ledgered r hr) fun hid => joined_ledger (.inr ?_)
    obtain ⟨old, hold, hledger⟩ := h.ledgered r hr
    rw [← hid] at hold
    change job? db.store job.jobId = _ at hold
    rw [hjob] at hold
    rwa [Option.some.inj hold]
  · obtain ⟨a, ha, rfl⟩ := List.mem_map.1 hr
    rw [job?_put]
    exact ⟨joined value job, if_pos rfl, joined_ledger (.inl (List.ne_nil_of_mem ha))⟩

lemma inv_transferred (h : Inv db) (hvalue : value ∈ db.intakes)
    (hjob : job? db.store job.jobId = some job)
    (hnodup : ((db.store.attempts ++ value.attempts.map (attemptRow job)).map Attempt.attemptId).Nodup) :
    Inv (transferred value job db) := by
  have hstore : Inv ⟨db.intakes, delivered value job db.store⟩ :=
    ⟨sound_transferred h.store hjob hnodup, h.ids, h.kept, fun x hx other hother a ha =>
      owned_of_append (h.owned x hx other hother a ha) rfl⟩
  refine inv_put hstore ?_ fun other hother a ha => ?_
  · exact ⟨(h.kept value hvalue).ids, (h.kept value hvalue).output⟩
  · refine ⟨attemptRow job a, ?_, Option.some.inj hother, rfl⟩
    exact lookup_of_mem hnodup (List.mem_append_right _ (List.mem_map_of_mem ha))

lemma performJob_state (host : Host) (request : Jobs.Request) (db : Db) :
    (performJob host request db).2 = ⟨db.intakes, (Jobs.perform host.jobs db.store request).2⟩ := by
  unfold performJob
  rcases Jobs.perform host.jobs db.store request with ⟨error | reply, store⟩ <;> rfl

inductive Moved (db : Db) : Db → Prop
  | same : Moved db db
  | opened {value : Intake} (hfresh : lookup Intake.intakeId db.intakes value.intakeId = none) (hkept : Kept value) (hopen : value.jobId = none) :
      Moved db { db with intakes := db.intakes ++ [value] }
  | put {identity : String} {value value' : Intake} (hvalue : intake? db identity = some value) (hid : value'.intakeId = value.intakeId) (hkept : Kept value')
      (hjob : value'.jobId = value.jobId) (hattempts : value.jobId = none ∨ value'.attempts = value.attempts) :
      Moved db (put value' db)
  | transferred {identity : String} {value : Intake} {job : Job} (hvalue : intake? db identity = some value) (hopen : value.jobId = none)
      (hjob : job? db.store job.jobId = some job)
      (hnodup : ((db.store.attempts ++ value.attempts.map (attemptRow job)).map Attempt.attemptId).Nodup) :
      Moved db (transferred value job db)
  | store {store : Jobs.Db} (heffect : Effect db.store store) : Moved db ⟨db.intakes, store⟩

lemma perform_moved (h : Inv db) (request : Request) : Moved db (perform host db request).2 := by
  have hkept : ∀ {identity value}, intake? db identity = some value → Kept value := fun hvalue => h.kept _ (lookup_mem hvalue)
  cases request with
  | create sessionId projectId request profile hex now =>
    refine atomic_keeps .same fun result db' hcreate => ?_
    rcases create_spec hcreate with ⟨prior, hprior, hopen, rfl⟩ | ⟨limits, hfresh, rfl⟩
    · exact .put (lookup_of_mem h.ids hprior) rfl ⟨(h.kept prior hprior).ids, (h.kept prior hprior).output⟩ rfl (.inl hopen)
    · exact .opened hfresh (kept_newIntake ..) rfl
  | reserve identity charges freshId now =>
    refine atomic_keeps .same fun result db' hreserve => ?_
    obtain ⟨value, hvalue, hopen, rfl | ⟨c, attemptId, charged, hfresh, hcharged, rfl⟩⟩ := reserve_intake_spec hreserve
    · exact .same
    · obtain ⟨hcharge, hid, hjob⟩ := kept_charge (hkept hvalue) hfresh hcharged
      exact .put hvalue hid hcharge hjob (.inl hopen)
  | settle identity attemptId actualOutput now =>
    refine atomic_keeps .same fun result db' hsettle => ?_
    obtain ⟨value, hvalue, hopen, rfl | ⟨attempt, actual, hfound, hun, rfl⟩⟩ := settle_intake_spec hsettle
    · exact .same
    · exact .put hvalue rfl (kept_settled (hkept hvalue) hfound hun) rfl (.inl hopen)
  | finish identity status elapsed failure now =>
    refine atomic_keeps .same fun result db' hfinish => ?_
    obtain ⟨value, hvalue, rfl⟩ := finish_spec hfinish
    exact .put hvalue rfl ⟨(hkept hvalue).ids, (hkept hvalue).output⟩ rfl (.inr rfl)
  | attach identity jobId =>
    refine atomic_keeps .same fun result db' hattach => ?_
    obtain ⟨value, job, hvalue, hjob, ⟨-, rfl⟩ | ⟨hopen, htransfer⟩⟩ := attach_spec hattach
    · exact .same
    · obtain ⟨rfl, hnodup⟩ := transfer_spec h.store htransfer
      refine .transferred hvalue hopen ?_ hnodup
      rw [jobId_of_job? hjob, hjob]
  | job request =>
    change Moved db (performJob host request db).2
    rw [performJob_state]
    exact .store (effect_perform db.store request)
  | crash => exact .same

lemma inv_moved (h : Inv db) (hmoved : Moved db db') : Inv db' := by
  cases hmoved with
  | same => exact h
  | opened hfresh hkept hopen =>
    refine ⟨h.store, nodup_insertRow (insertRow_of_fresh hfresh) h.ids, fun x hx => ?_, fun x hx jobId hjob => ?_⟩
    · rcases mem_concat.1 hx with hx | rfl
      · exact h.kept x hx
      · exact hkept
    · rcases mem_concat.1 hx with hx | rfl
      · exact h.owned x hx jobId hjob
      · cases hopen.symm.trans hjob
  | put hvalue hid hkept hjob hattempts =>
    refine inv_put h hkept fun jobId hjob' => ?_
    rw [hjob] at hjob'
    rcases hattempts with hopen | hattempts
    · cases hopen.symm.trans hjob'
    · rw [hattempts]
      exact h.owned _ (lookup_mem hvalue) jobId hjob'
  | transferred hvalue hopen hjob hnodup => exact inv_transferred h (lookup_mem hvalue) hjob hnodup
  | store heffect =>
    exact ⟨sound_effect h.store heffect, h.ids, h.kept, fun value hvalue jobId hjob a ha =>
      owned_effect (h.owned value hvalue jobId hjob a ha) heffect⟩

def Held (identity jobId : String) (attempts : List IntakeAttempt) (db : Db) : Prop :=
  ∃ value, intake? db identity = some value ∧ value.jobId = some jobId ∧ value.attempts = attempts

variable {attempts : List IntakeAttempt}

lemma held_put_other (h : Held identity jobId attempts db)
    (hvalue : intake? db other = some value) (hid : value'.intakeId = value.intakeId)
    (hsame : other = identity → value'.jobId = some jobId ∧ value'.attempts = attempts) :
    Held identity jobId attempts (put value' db) := by
  obtain ⟨held, hheld, hjob, hattempts⟩ := h
  by_cases hother : other = identity
  · subst hother
    exact ⟨value', intake?_put_same hvalue hid, hsame rfl⟩
  · exact ⟨held, by rw [intake?_put_other value' hvalue hid (Ne.symm hother), hheld], hjob, hattempts⟩

lemma held_found (h : Held identity jobId attempts db)
    (hvalue : intake? db identity = some value) : value.jobId = some jobId ∧ value.attempts = attempts := by
  obtain ⟨held, hheld, hjob, hattempts⟩ := h
  rw [hvalue] at hheld
  cases hheld
  exact ⟨hjob, hattempts⟩

lemma held_put_open (h : Held identity jobId attempts db)
    (hvalue : intake? db other = some value) (hid : value'.intakeId = value.intakeId) (hopen : value.jobId = none) :
    Held identity jobId attempts (put value' db) := by
  refine held_put_other h hvalue hid fun hsame => ?_
  rw [hsame] at hvalue
  have hjob := (held_found h hvalue).1
  rw [hopen] at hjob
  cases hjob

lemma held_moved (h : Held identity jobId attempts db) (hmoved : Moved db db') : Held identity jobId attempts db' := by
  cases hmoved with
  | same => exact h
  | opened hfresh hkept hopen =>
    obtain ⟨held, hheld, hjob, hattempts⟩ := h
    refine ⟨held, ?_, hjob, hattempts⟩
    change lookup _ (db.intakes ++ _) _ = _
    rw [lookup_append, show lookup Intake.intakeId db.intakes identity = some held from hheld]
    rfl
  | put hvalue hid hkept hjob hattempts =>
    rcases hattempts with hopen | hattempts
    · exact held_put_open h hvalue hid hopen
    · refine held_put_other h hvalue hid fun hsame => ?_
      rw [hjob, hattempts]
      exact held_found h (hsame ▸ hvalue)
  | @transferred _ value job hvalue hopen hjob hnodup =>
    have hstore : Held identity jobId attempts ⟨db.intakes, delivered value job db.store⟩ := h
    exact held_put_open hstore hvalue rfl hopen
  | store => exact h

lemma balance_transferred {opening : ℤ} (hkept : Kept value)
    (hjob : job? db.store job.jobId = some job) (h : Balance opening other db.store) :
    Balance opening other (transferred value job db).store := by
  obtain ⟨found, hfound, hledger, hout⟩ := h
  change Balance opening other (delivered value job db.store)
  unfold Balance delivered
  rw [accounted_append, job?_put]
  by_cases hid : other = (joined value job).jobId
  · have hsame : other = job.jobId := hid
    subst hsame
    rw [hjob] at hfound
    cases hfound
    refine ⟨joined value job, if_pos rfl, joined_ledger (.inr hledger), ?_⟩
    change (job.consumed .outputTokens).add (value.consumed .outputTokens) = _
    rw [hout, hkept.output, if_pos rfl]
    change Number.int _ = _
    congr 1
    push_cast
    ring
  · refine ⟨found, (if_neg hid).trans hfound, hledger, ?_⟩
    rw [if_neg fun hsame => hid hsame.symm, Nat.add_zero]
    exact hout

lemma balance_moved {opening : ℤ} (hinv : Inv db) (h : Balance opening other db.store)
    (hmoved : Moved db db') : Balance opening other db'.store := by
  cases hmoved with
  | same => exact h
  | opened => exact h
  | put => exact h
  | transferred hvalue hopen hjob hnodup => exact balance_transferred (hinv.kept _ (lookup_mem hvalue)) hjob h
  | store heffect => exact balance_effect hinv.store heffect h

lemma attaches_state (h : Attaches (entry (perform host) db (.attach identity jobId)) identity jobId) :
    ∃ job, attach identity jobId db = .ok (job, (perform host db (.attach identity jobId)).2) := by
  obtain ⟨-, job, hok⟩ := h
  obtain ⟨a, ha, -⟩ := atomic_ok hok
  exact ⟨a, ha⟩

variable {request : Request}

lemma attaches_cases (hinv : Inv db)
    (h : Attaches (entry (perform host) db request) identity jobId) :
    ∃ value, intake? db identity = some value ∧
      (value.jobId = some jobId ∧ (perform host db request).2 = db ∨
        value.jobId = none ∧ ∃ job job', Transfer db (perform host db request).2 identity jobId value job job') := by
  have haction : request = .attach identity jobId := h.1
  subst haction
  obtain ⟨job, hok⟩ := attaches_state h
  obtain ⟨value, found, hvalue, hjob, ⟨hattached, hdb'⟩ | ⟨hopen, htransfer⟩⟩ := attach_spec hok
  · exact ⟨value, hvalue, .inl ⟨hattached, hdb'⟩⟩
  · obtain ⟨hdb', -⟩ := transfer_spec hinv.store htransfer
    refine ⟨value, hvalue, .inr ⟨hopen, found, joined value found, ?_⟩⟩
    rw [hdb']
    exact transfer_of_spec (hinv.kept value (lookup_mem hvalue)) hvalue hjob

lemma held_attached (hinv : Inv db) (hvalue : intake? db identity = some value)
    (h : Attaches (entry (perform host) db request) identity jobId) :
    Held identity jobId value.attempts (perform host db request).2 := by
  obtain ⟨found, hfound, ⟨hattached, hdb'⟩ | ⟨hopen, job, job', htransfer⟩⟩ := attaches_cases hinv h
  · rw [hvalue] at hfound
    cases hfound
    rw [hdb']
    exact ⟨value, hvalue, hattached, rfl⟩
  · rw [hvalue] at hfound
    cases hfound
    exact ⟨_, htransfer.intake, rfl, rfl⟩

lemma failed_state {error : IntakeError} (hjob : ∀ r, request ≠ .job r)
    (h : (perform host db request).1 = .error error) : (perform host db request).2 = db := by
  cases request with
  | create sessionId projectId request profile hex now => exact atomic_error h
  | reserve identity charges freshId now => exact atomic_error h
  | settle identity attemptId actualOutput now => exact atomic_error h
  | finish identity status elapsed failure now => exact atomic_error h
  | attach identity jobId => exact atomic_error h
  | job request => exact absurd rfl (hjob request)
  | crash => rfl

lemma refused (hjob : ∀ r, request ≠ .job r)
    (hnot : ∀ reply, (perform host db request).1 ≠ .ok reply) :
    (∃ error, (perform host db request).1 = .error error) ∧ (perform host db request).2 = db := by
  rcases hout : (perform host db request).1 with error | reply
  · exact ⟨⟨error, rfl⟩, failed_state hjob hout⟩
  · exact absurd hout (hnot reply)

lemma releases_job {attemptId : String} {actualOutput : Value} {reply : Reply}
    (hok : (perform host db (.job (.settle jobId attemptId actualOutput now))).1 = .ok reply) :
    Releases db (perform host db (.job (.settle jobId attemptId actualOutput now))).2 jobId attemptId := by
  change (performJob host (.settle jobId attemptId actualOutput now) db).1 = _ at hok
  change Releases db (performJob host (.settle jobId attemptId actualOutput now) db).2 jobId attemptId
  rw [performJob_state]
  have hjobOk : ∃ r, (Jobs.perform host.jobs db.store (.settle jobId attemptId actualOutput now)).1 = .ok r := by
    unfold performJob at hok
    rcases hp : Jobs.perform host.jobs db.store (.settle jobId attemptId actualOutput now) with ⟨error | r, store⟩
    · rw [hp] at hok
      cases hok
    · exact ⟨r, rfl⟩
  obtain ⟨r, hr⟩ := hjobOk
  obtain ⟨totals, hsettle, -⟩ := commit_ok hr
  obtain ⟨row, value, hrow, hjob, ⟨-, hsame⟩ | ⟨actual, value', -, hs, hdb'⟩⟩ := settle_spec hsettle
  · refine .inl ?_
    exact congrArg (Db.mk db.intakes) hsame
  · refine .inr ⟨rfl, row, actual, value, value', hrow, hs.unresolved, hjob, ?_, hs.output⟩
    change job? (Jobs.perform host.jobs db.store _).2 jobId = _
    have hid : value'.jobId = jobId := hs.jobId.trans (jobId_of_job? hjob)
    refine (congrArg (fun s => job? s jobId) hdb').trans ?_
    rw [job?_put, if_pos hid.symm]

lemma settled_held (hinv : Inv db) (h : Held identity jobId attempts db)
    (request : Request) : Settled (entry (perform host) db request) identity jobId attempts := by
  obtain ⟨value, hvalue, hattached, hattempts⟩ := h
  refine ⟨fun other hother => ?_, fun charges freshId now haction => ?_, fun attemptId actualOutput now haction => ?_,
    fun a ha => ?_, fun attemptId actualOutput now reply haction hok => ?_⟩
  · obtain ⟨found, hfound, ⟨hsame, hdb'⟩ | ⟨hopen, -⟩⟩ := attaches_cases hinv hother
    · rw [hvalue] at hfound
      cases hfound
      rw [hattached] at hsame
      exact ⟨(Option.some.inj hsame).symm, hdb'⟩
    · rw [hvalue] at hfound
      cases hfound
      rw [hattached] at hopen
      cases hopen
  · change request = _ at haction
    subst haction
    refine refused (fun _ hr => by cases hr) fun reply hok => ?_
    obtain ⟨totals, hreserve, -⟩ := atomic_ok hok
    obtain ⟨found, hfound, hopen, -⟩ := reserve_intake_spec hreserve
    rw [hvalue] at hfound
    cases hfound
    rw [hattached] at hopen
    cases hopen
  · change request = _ at haction
    subst haction
    refine refused (fun _ hr => by cases hr) fun reply hok => ?_
    obtain ⟨totals, hsettle, -⟩ := atomic_ok hok
    obtain ⟨found, hfound, hopen, -⟩ := settle_intake_spec hsettle
    rw [hvalue] at hfound
    cases hfound
    rw [hattached] at hopen
    cases hopen
  · rw [← hattempts] at ha
    exact hinv.owned value (lookup_mem hvalue) jobId hattached a ha
  · change request = _ at haction
    subst haction
    exact releases_job hok

end Steps

lemma inv_moves (requests : List Request) : ∀ e ∈ moves host requests, Inv e.before ∧ Inv e.after :=
  (invariant (I := Inv) (fun _ request h => inv_moved h (perform_moved h request)) inv_initial).1

lemma attaches_moves {requests : List Request} {e : Move} (he : e ∈ moves host requests) {identity jobId : String}
    {value : Intake} (h : Attaches e identity jobId) (hvalue : intake? e.before identity = some value) :
    value.jobId = some jobId ∧ e.after = e.before ∨
      value.jobId = none ∧ ∃ job job', Transfer e.before e.after identity jobId value job job' := by
  have hentry := entry_eq_of_mem he
  have hafter : e.after = (perform host e.before e.action).2 := congrArg Entry.after hentry
  rw [hentry] at h
  obtain ⟨found, hfound, hcases⟩ := attaches_cases (inv_moves requests e he).1 h
  rw [hvalue] at hfound
  cases hfound
  rw [hafter]
  exact hcases

lemma later_settled (requests : List Request) : (moves host requests).Pairwise fun e e' =>
    ∀ identity jobId value, Attaches e identity jobId → intake? e.before identity = some value →
      Settled e' identity jobId value.attempts := by
  refine pairwise_of (I := Inv) (K := fun _ => True)
    (P := fun e db => ∀ identity jobId value, Attaches e identity jobId → intake? e.before identity = some value →
      Held identity jobId value.attempts db)
    (fun _ request h _ => inv_moved h (perform_moved h request)) ?_ ?_ ?_ inv_initial fun _ _ => trivial
  · exact fun db request h _ identity jobId value hattaches hvalue => held_attached h hvalue hattaches
  · exact fun e db request h _ hheld identity jobId value hattaches hvalue =>
      held_moved (hheld identity jobId value hattaches hvalue) (perform_moved h request)
  · exact fun e db request h _ hheld identity jobId value hattaches hvalue =>
      settled_held h (hheld identity jobId value hattaches hvalue) request

lemma carried_moves (requests : List Request) : Carried (moves host requests) := by
  intro pre e post hsplit identity jobId value job opening hattaches hvalue hopen hattempts hjob hout
  have hmem : e ∈ moves host requests := hsplit ▸ List.mem_append_right _ (List.mem_cons_self ..)
  obtain ⟨as₁, request, as₂, -, -, -, hpost⟩ := trace_split hsplit
  -- the transfer itself
  have hstart : Balance opening jobId e.after.store := by
    rcases attaches_moves hmem hattaches hvalue with ⟨hattached, -⟩ | ⟨-, found, job', htransfer⟩
    · rw [hopen] at hattached
      cases hattached
    · have hsame := htransfer.before
      rw [hjob] at hsame
      cases hsame
      refine ⟨job', htransfer.after, htransfer.ledger (.inl hattempts), ?_⟩
      rw [htransfer.totals, hout, htransfer.output, htransfer.accounted]
      change Number.int _ = _
      congr 1
      push_cast
      ring
  -- every later step
  intro e' he'
  rcases List.mem_cons.1 he' with rfl | he'
  · exact hstart
  · rw [hpost] at he'
    exact ((invariant (I := fun db => Inv db ∧ Balance opening jobId db.store)
      (fun db request h => ⟨inv_moved h.1 (perform_moved h.1 request), balance_moved h.1 h.2 (perform_moved h.1 request)⟩)
      ⟨(inv_moves requests e hmem).2, hstart⟩).1 e' he').2.2

end PromptForge.Intakes
