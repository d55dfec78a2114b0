import PromptForge.Jobs

namespace PromptForge.Jobs
open Json Numbers Runs Tables

variable {host : Host}

abbrev Move := Entry Db Request (Except JobError Reply)

variable (host) in
abbrev moves (requests : List Request) : List Move := trace (perform host) .initial requests

def FirstReservation (e : Move) (identity : String) : Prop :=
  (∀ r ∈ e.before.attempts, r.jobId ≠ identity) ∧ ∃ r ∈ e.after.attempts, r.jobId = identity

/-- From its first reservation on, a job that had consumed an `opening` number of
    tokens has consumed that and what its attempts account for. -/
def Balanced (opening : Number → Prop) (es : List Move) : Prop :=
  ∀ pre e post, es = pre ++ e :: post → ∀ identity, FirstReservation e identity →
    ∀ value, job? e.before identity = some value → opening (value.consumed .outputTokens) →
      ∀ e' ∈ e :: post, ∃ value', job? e'.after identity = some value' ∧
        (value'.consumed .outputTokens).toRat = (value.consumed .outputTokens).toRat +
          (attemptAccounting e'.after identity).actualCompletedOutputTokens +
          (attemptAccounting e'.after identity).unresolvedOutputTokens

def Reserves (e : Move) (attemptId : String) (c : Charges) : Prop :=
  ∃ identity runId charges freshId now name totals,
    e.action = .reserve identity runId charges freshId now ∧
    validateAttemptCharges charges = .ok (c, name) ∧ name.getD freshId = attemptId ∧
    e.outcome = .ok (.reserved totals)

def Settles (e : Move) (attemptId : String) : Prop :=
  ∃ identity actualOutput now totals,
    e.action = .settle identity attemptId actualOutput now ∧ e.outcome = .ok (.consumed totals)

def Charged (e : Move) (attemptId : String) (c : Charges) : Prop :=
  ∃ row value value', e.after.attempts = e.before.attempts ++ [row] ∧ row.attemptId = attemptId ∧
    row.reservedOutput = c.outputTokens ∧ job? e.before row.jobId = some value ∧
    job? e.after row.jobId = some value' ∧
    ∀ d ∈ charged, value'.consumed d = (value.consumed d).add (.int (c.of d))

structure ChargedOnce (es : List Move) : Prop where
  rows : ∀ e ∈ es, (e.after.attempts.map Attempt.attemptId).Nodup
  first : ∀ e ∈ es, ∀ attemptId c, Reserves e attemptId c →
    attempt? e.before attemptId = none → Charged e attemptId c
  reserved : es.Pairwise fun e e' => ∀ attemptId c c', Reserves e attemptId c → Reserves e' attemptId c' →
    e'.after = e'.before
  settled : es.Pairwise fun e e' => ∀ attemptId, Settles e attemptId → Settles e' attemptId →
    e'.after = e'.before

def Growing (es : List Move) : Prop :=
  ∀ e ∈ es, ∀ identity value, job? e.before identity = some value →
    ∃ value', job? e.after identity = some value' ∧ value.consumed .requests ≤ value'.consumed .requests ∧
      value.consumed .inputBytes ≤ value'.consumed .inputBytes

def Within (value : Job) : Prop := ∀ d ∈ charged, value.consumed d ≤ .int (value.limits d)

/-- A reservation that raises changes neither the job nor the attempts; one that
    succeeds leaves the job within its limits, except a step that is spared. -/
def Bounded (spared : Move → Prop) (es : List Move) : Prop :=
  ∀ e ∈ es, ∀ identity runId charges freshId now,
    e.action = .reserve identity runId charges freshId now →
      (∃ totals, e.outcome = .ok (.reserved totals) ∧
        ((∃ value, job? e.after identity = some value ∧ Within value) ∨ spared e)) ∨
      (∃ error, e.outcome = .error error ∧ e.after.jobs = e.before.jobs ∧ e.after.attempts = e.before.attempts)

def Replays (e : Move) : Prop :=
  ∃ attemptId c, Reserves e attemptId c ∧ (attempt? e.before attemptId).isSome ∧ e.after = e.before

structure Conserved (es : List Move) : Prop where
  balanced : Balanced (fun opening => ∃ n, opening = .int n) es
  once : ChargedOnce es
  growing : Growing es
  bounded : Bounded Replays es

structure Keeps (value value' : Job) : Prop where
  jobId : value'.jobId = value.jobId
  ledger : value.attemptLedger = true → value'.attemptLedger = true
  output : value.attemptLedger = true → value'.consumed .outputTokens = value.consumed .outputTokens
  requests : value.consumed .requests ≤ value'.consumed .requests
  inputBytes : value.consumed .inputBytes ≤ value'.consumed .inputBytes

structure Reservation (value value' : Job) (row : Attempt) (c : Charges) : Prop where
  jobId : value'.jobId = value.jobId
  rowJob : row.jobId = value.jobId
  ledger : value'.attemptLedger = true
  unresolved : row.status = .unresolved
  reserved : row.reservedOutput = c.outputTokens
  consumed : ∀ d ∈ charged, value'.consumed d = (value.consumed d).add (.int (c.of d))
  within : Within value'

structure Settlement (value value' : Job) (row : Attempt) (actual : ℕ) : Prop where
  jobId : value'.jobId = value.jobId
  rowJob : row.jobId = value.jobId
  ledger : value'.attemptLedger = value.attemptLedger
  unresolved : row.status = .unresolved
  output : value'.consumed .outputTokens =
    (value.consumed .outputTokens).sub (.int (row.reservedOutput - actual))
  requests : value'.consumed .requests = value.consumed .requests
  inputBytes : value'.consumed .inputBytes = value.consumed .inputBytes

def Attempt.settledWith (actual : ℕ) (now : ℚ) (r : Attempt) : Attempt := { r with status := .completed actual now }

def settle (row : Attempt) (actual : ℕ) (now : ℚ) (db : Db) : Db :=
  { db with
    attempts := updateWhere (fun r => decide (r.attemptId = row.attemptId)) (.settledWith actual now) db.attempts }

inductive Effect (db : Db) : Db → Prop where
  | same : Effect db db
  | opens (value : Job) (hnew : job? db value.jobId = none) : Effect db (put value db)
  | keeps (value value' : Job) (requests : List JobRequest) (hjob : job? db value.jobId = some value)
      (hk : Keeps value value') : Effect db (put value' { db with requests := requests })
  | reserves (value value' : Job) (row : Attempt) (c : Charges) (hjob : job? db value.jobId = some value)
      (hrow : attempt? db row.attemptId = none) (hr : Reservation value value' row c) :
      Effect db (put value' { db with attempts := db.attempts ++ [row] })
  | settles (value value' : Job) (row : Attempt) (actual : ℕ) (now : ℚ)
      (hjob : job? db value.jobId = some value) (hrow : attempt? db row.attemptId = some row)
      (hs : Settlement value value' row actual) :
      Effect db (put value' (settle row actual now db))

lemma job?_put (value : Job) (db : Db) (identity : String) :
    job? (put value db) identity = if identity = value.jobId then some value else job? db identity :=
  lookup_replaceRow value db.jobs identity

structure Frame (value value' : Job) : Prop where
  jobId : value'.jobId = value.jobId
  consumed : value'.consumed = value.consumed
  ledger : value'.attemptLedger = value.attemptLedger

lemma frame_refl (value : Job) : Frame value value := ⟨rfl, rfl, rfl⟩

lemma frame_trans {a b c : Job} (hab : Frame a b) (hbc : Frame b c) : Frame a c :=
  ⟨hbc.jobId.trans hab.jobId, hbc.consumed.trans hab.consumed, hbc.ledger.trans hab.ledger⟩

variable {value : Job}

lemma keeps_of_frame {value' : Job} (h : Frame value value') : Keeps value value' where
  jobId := h.jobId
  ledger hl := h.ledger.trans hl
  output _ := by rw [h.consumed]
  requests := by rw [h.consumed]
  inputBytes := by rw [h.consumed]

lemma keeps_trans {a b c : Job} (hab : Keeps a b) (hbc : Keeps b c) : Keeps a c where
  jobId := hbc.jobId.trans hab.jobId
  ledger hl := hbc.ledger (hab.ledger hl)
  output hl := (hbc.output (hab.ledger hl)).trans (hab.output hl)
  requests := hab.requests.trans hbc.requests
  inputBytes := hab.inputBytes.trans hbc.inputBytes

lemma frame_finishWait (now : ℚ) (value : Job) : Frame value (finishWait now value) := by
  unfold finishWait
  split
  · exact frame_refl value
  · exact ⟨rfl, rfl, rfl⟩

lemma frame_recordStatus (run : RunView) (milestones : List Value) (now : ℚ) (value : Job) :
    Frame value (recordStatus run milestones now value) := by
  unfold recordStatus
  dsimp only
  split
  · have hwait (value' : Job) (h : Frame value value') : Frame value (finishWait now value') :=
      frame_trans h (frame_finishWait now value')
    refine frame_trans (hwait _ ?_) ⟨rfl, rfl, rfl⟩
    exact ⟨rfl, rfl, rfl⟩
  · exact ⟨rfl, rfl, rfl⟩

lemma frame_recordTrust (run : RunView) (trusted : Bool) (now : ℚ) (value : Job) :
    Frame value (recordTrust run trusted now value) := by
  unfold recordTrust
  split
  · exact frame_trans (frame_finishWait now value) ⟨rfl, rfl, rfl⟩
  · exact frame_refl value

lemma frame_recordOutage (run : RunView) (jitter now : ℚ) (value : Job) :
    Frame value (recordOutage run jitter now value) := by
  unfold recordOutage
  split
  · dsimp only
    split <;> exact ⟨rfl, rfl, rfl⟩
  · exact frame_refl value

lemma frame_recordTimeReserve (run : RunView) (value : Job) : Frame value (recordTimeReserve run value) := by
  unfold recordTimeReserve
  split
  · exact ⟨rfl, rfl, rfl⟩
  · exact frame_refl value

lemma frame_recordBudget (run : RunView) (value : Job) : Frame value (recordBudget run value) := by
  unfold recordBudget
  split
  · exact ⟨rfl, rfl, rfl⟩
  · exact frame_refl value

lemma frame_reportRun (run : RunView) (trusted : Bool) (jitter now : ℚ) (value : Job) :
    Frame value (reportRun run trusted jitter now value) := by
  unfold reportRun
  split
  · exact frame_trans (frame_finishWait now value) ⟨rfl, rfl, rfl⟩
  · exact frame_trans (frame_recordTrust run trusted now value)
      (frame_trans (frame_recordOutage run jitter now _)
        (frame_trans (frame_recordTimeReserve run _) (frame_recordBudget run _)))

lemma keeps_recordUsage (saved provider : Dict) (value : Job) : Keeps value (recordUsage saved provider value) := by
  have hgrows (d : Dimension) : value.consumed d ≤ (recordUsage saved provider value).consumed d := by
    unfold recordUsage
    dsimp only
    split
    · exact le_refl _
    · split
      · exact le_refl _
      · exact Number.le_max_left _ _
  exact ⟨rfl, id, fun hl => if_pos ⟨rfl, hl⟩, hgrows .requests, hgrows .inputBytes⟩

lemma keeps_save {previous : Job} (hid : value.jobId = previous.jobId) (limits : Limits) (reserved : ℤ)
    (now : ℚ) : Keeps previous { value with
      consumed := fun d => if d = .outputTokens ∧ previous.attemptLedger = true then previous.consumed d
        else (value.consumed d).max (previous.consumed d)
      limits := limits
      attemptLedger := previous.attemptLedger || value.attemptLedger
      outputTokensReserved := reserved
      updatedAt := now } where
  jobId := hid
  ledger hl := by
    change (previous.attemptLedger || value.attemptLedger) = true
    rw [hl, Bool.true_or]
  output hl := if_pos ⟨rfl, hl⟩
  requests := by
    dsimp only
    rw [if_neg (by simp)]
    exact Number.le_max_right _ _
  inputBytes := by
    dsimp only
    rw [if_neg (by simp)]
    exact Number.le_max_right _ _

section Calls
variable {db db' : Db} {identity : String} {now : ℚ}

lemma jobId_of_job? {value : Job} (h : job? db identity = some value) : value.jobId = identity := lookup_key h

lemma effect_keeps {value value' : Job} (h : job? db identity = some value) (hk : Keeps value value')
    (requests : List JobRequest) : Effect db (put value' { db with requests := requests }) := by
  refine .keeps value value' requests ?_ hk
  rw [jobId_of_job? h, h]

variable {result : Job}

lemma effect_save {value : Job} (h : save value now db = .ok (result, db')) : Effect db db' := by
  unfold save at h
  dsimp only at h
  obtain ⟨-, rfl⟩ := Prod.mk.inj (Except.ok.inj h)
  rcases hprior : job? db value.jobId with _ | previous
  · exact .opens _ hprior
  · exact effect_keeps hprior (keeps_save (jobId_of_job? hprior).symm _ _ now) db.requests

lemma effect_mutate {change : Job → Except JobError Job}
    (hchange : ∀ value value', change value = .ok value' → Keeps value value')
    (h : mutate host identity now change db = .ok (result, db')) : Effect db db' := by
  unfold mutate at h
  rcases hjob : job? db identity with _ | job
  · rw [hjob] at h
    cases h
  · rw [hjob] at h
    dsimp only at h
    rcases hvalue : change job with error | value
    · rw [hvalue] at h
      cases h
    · rw [hvalue] at h
      dsimp only at h
      split at h
      · obtain ⟨-, rfl⟩ := Prod.mk.inj (Except.ok.inj h)
        exact .same
      · obtain ⟨-, rfl⟩ := Prod.mk.inj (Except.ok.inj h)
        refine effect_keeps hjob ?_ db.requests
        exact keeps_trans (hchange job value hvalue) (keeps_of_frame ⟨rfl, rfl, rfl⟩)

lemma effect_attach {runId : String}
    (h : attach host identity runId now db = .ok (result, db')) : Effect db db' := by
  refine effect_mutate (fun value value' hv => ?_) h
  rw [← Except.ok.inj hv]
  exact keeps_of_frame (frame_trans (frame_finishWait now value) ⟨rfl, rfl, rfl⟩)

lemma effect_updateRun {run : RunView} {checkpoint : Option Dict} {trusted : Bool} {jitter : ℚ}
    (h : updateRun host identity run checkpoint trusted jitter now db = .ok (result, db')) : Effect db db' := by
  refine effect_mutate (fun value value' hv => ?_) h
  split at hv
  · rw [← Except.ok.inj hv]
    exact keeps_of_frame (frame_refl value)
  · obtain ⟨saved, -, hv⟩ := ok_of_bind hv
    obtain ⟨provider, -, hv⟩ := ok_of_bind hv
    obtain ⟨milestones, -, hv⟩ := ok_of_bind hv
    rw [← Except.ok.inj hv]
    exact keeps_trans (keeps_recordUsage saved provider value)
      (keeps_of_frame (frame_trans (frame_recordStatus run milestones now _) (frame_reportRun run _ _ _ _)))

lemma effect_recordElapsed {elapsed : Number} {result : Unit}
    (h : recordElapsed identity elapsed now db = .ok (result, db')) : Effect db db' := by
  unfold recordElapsed at h
  split at h
  · cases h
  · rename_i value hjob
    obtain ⟨-, rfl⟩ := Prod.mk.inj (Except.ok.inj h)
    refine effect_keeps hjob ?_ db.requests
    exact ⟨rfl, id, fun _ => rfl, le_refl _, le_refl _⟩

lemma effect_extendBudget {extension : Dict} {requestKey : String}
    (h : extendBudget host identity extension requestKey now db = .ok (result, db')) : Effect db db' := by
  unfold extendBudget at h
  split at h
  · cases h
  · dsimp only at h
    split at h
    · cases h
    · rename_i value hjob
      split at h
      · split at h
        · cases h
        · obtain ⟨-, rfl⟩ := Prod.mk.inj (Except.ok.inj h)
          exact .same
      · obtain ⟨-, rfl⟩ := Prod.mk.inj (Except.ok.inj h)
        refine effect_keeps hjob ?_ _
        exact keeps_of_frame ⟨rfl, rfl, rfl⟩

lemma effect_chargeTool {operationId : String} {result : Unit}
    (h : chargeTool identity operationId now db = .ok (result, db')) : Effect db db' := by
  unfold chargeTool at h
  dsimp only at h
  split at h
  · obtain ⟨-, rfl⟩ := Prod.mk.inj (Except.ok.inj h)
    exact .same
  · split at h
    · cases h
    · rename_i value hjob
      split at h
      · cases h
      · obtain ⟨-, rfl⟩ := Prod.mk.inj (Except.ok.inj h)
        refine effect_keeps hjob ?_ _
        exact ⟨rfl, id, fun _ => rfl, le_refl _, le_refl _⟩

lemma spend_eq {value : Job} {c : Charges} {d : Dimension} {total : Number}
    (h : spend value c d = .ok total) :
    total = (value.consumed d).add (.int (c.of d)) ∧ total ≤ .int (value.limits d) := by
  unfold spend at h
  dsimp only at h
  split at h
  · cases h
  · rename_i hle
    rw [← Except.ok.inj h]
    exact ⟨rfl, Number.le_of_not_lt hle⟩

lemma reserve_spec {runId : String} {charges : Dict} {freshId : String} {totals : Reserved}
    (h : reserveProviderAttempt identity runId charges freshId now db = .ok (totals, db')) :
    ∃ c name value, validateAttemptCharges charges = .ok (c, name) ∧ job? db identity = some value ∧
      (((attempt? db (name.getD freshId)).isSome ∧ db' = db) ∨
        ∃ row value', attempt? db row.attemptId = none ∧ row.attemptId = name.getD freshId ∧
          Reservation value value' row c ∧ db' = put value' { db with attempts := db.attempts ++ [row] }) := by
  unfold reserveProviderAttempt at h
  obtain ⟨⟨c, name⟩, hv, h⟩ := ok_of_bind h
  dsimp only at h
  rcases hjob : job? db identity with _ | value
  · rw [hjob] at h
    cases h
  · rw [hjob] at h
    dsimp only at h
    refine ⟨c, name, value, hv, rfl, ?_⟩
    split at h
    · cases h
    · rcases hrow : attempt? db (name.getD freshId) with _ | previous
      · rw [hrow] at h
        dsimp only at h
        obtain ⟨requests, hr, h⟩ := ok_of_bind h
        obtain ⟨output, ho, h⟩ := ok_of_bind h
        obtain ⟨input, hi, h⟩ := ok_of_bind h
        obtain ⟨-, rfl⟩ := Prod.mk.inj (Except.ok.inj h)
        obtain ⟨hreq, hreqle⟩ := spend_eq hr
        obtain ⟨hout, houtle⟩ := spend_eq ho
        obtain ⟨hin, hinle⟩ := spend_eq hi
        refine .inr ⟨_, value.charged ⟨requests, output, input⟩ c now, hrow, rfl, ?_, rfl⟩
        refine ⟨rfl, (jobId_of_job? hjob).symm, rfl, rfl, rfl, fun d hd => ?_, fun d hd => ?_⟩
        · cases d with
          | requests => exact hreq
          | outputTokens => exact hout
          | inputBytes => exact hin
          | elapsedSeconds => simp [charged] at hd
          | toolCallsUsed => simp [charged] at hd
        · cases d with
          | requests => exact hreqle
          | outputTokens => exact houtle
          | inputBytes => exact hinle
          | elapsedSeconds => simp [charged] at hd
          | toolCallsUsed => simp [charged] at hd
      · rw [hrow] at h
        dsimp only at h
        split at h
        · cases h
        · obtain ⟨-, rfl⟩ := Prod.mk.inj (Except.ok.inj h)
          exact .inl ⟨rfl, rfl⟩

lemma settle_spec {attemptId : String} {actualOutput : Value} {totals : Totals}
    (h : settleProviderAttempt identity attemptId actualOutput now db = .ok (totals, db')) :
    ∃ row value, attempt? db attemptId = some row ∧ job? db identity = some value ∧
      ((row.status ≠ .unresolved ∧ db' = db) ∨
        ∃ actual value', actual ≤ row.reservedOutput ∧ Settlement value value' row actual ∧
          db' = put value' (settle row actual now db)) := by
  unfold settleProviderAttempt at h
  split at h
  · rename_i actual row hactual hrow
    obtain ⟨hfound, hrowJob⟩ := Option.filter_eq_some_iff.1 hrow
    split at h
    · cases h
    · rename_i hle
      split at h
      · cases h
      · rename_i value hjob
        refine ⟨row, value, hfound, hjob, ?_⟩
        have hid : row.jobId = value.jobId := by
          rw [jobId_of_job? hjob]
          simpa using hrowJob
        split at h
        · rename_i settled stamp hstatus
          split at h
          · cases h
          · obtain ⟨-, rfl⟩ := Prod.mk.inj (Except.ok.inj h)
            exact .inl ⟨by rw [hstatus]; nofun, rfl⟩
        · rename_i hstatus
          obtain ⟨-, rfl⟩ := Prod.mk.inj (Except.ok.inj h)
          refine .inr ⟨actual, value.released (row.reservedOutput - actual) now, not_lt.1 hle, ?_, ?_⟩
          · exact ⟨rfl, hid, rfl, hstatus, rfl, rfl, rfl⟩
          · have hkey : row.attemptId = attemptId := lookup_key hfound
            unfold settle
            rw [hkey]
            rfl
  · cases h

end Calls

variable {τ : Type}

lemma commit_cases (f : τ → Reply) (tx : Tx τ) (db : Db) :
    (∃ error, commit f tx db = (.error error, db)) ∨
    ∃ a db', tx db = .ok (a, db') ∧ commit f tx db = (.ok (f a), db') := by
  unfold commit
  rcases htx : tx db with error | ⟨a, db'⟩
  · exact .inl ⟨error, rfl⟩
  · exact .inr ⟨a, db', rfl, rfl⟩

lemma commit_ok {f : τ → Reply} {tx : Tx τ} {db : Db} {reply : Reply}
    (h : (commit f tx db).1 = .ok reply) : ∃ a, tx db = .ok (a, (commit f tx db).2) ∧ f a = reply := by
  rcases commit_cases f tx db with ⟨error, hc⟩ | ⟨a, db', hok, hc⟩
  · rw [hc] at h
    cases h
  · rw [hc] at h ⊢
    exact ⟨a, hok, Except.ok.inj h⟩

lemma commit_error {f : τ → Reply} {tx : Tx τ} {db : Db} {error : JobError}
    (h : (commit f tx db).1 = .error error) : (commit f tx db).2 = db := by
  rcases commit_cases f tx db with ⟨error', hc⟩ | ⟨a, db', hok, hc⟩
  · rw [hc]
  · rw [hc] at h
    cases h

lemma effect_commit {tx : Tx τ} {db : Db}
    (htx : ∀ a db', tx db = .ok (a, db') → Effect db db') (f : τ → Reply) :
    Effect db (commit f tx db).2 := by
  rcases commit_cases f tx db with ⟨error, hc⟩ | ⟨a, db', hok, hc⟩
  · rw [hc]
    exact .same
  · rw [hc]
    exact htx a db' hok

lemma effect_reserve {db db' : Db} {identity runId : String} {charges : Dict} {freshId : String} {now : ℚ}
    {totals : Reserved} (h : reserveProviderAttempt identity runId charges freshId now db = .ok (totals, db')) :
    Effect db db' := by
  obtain ⟨c, name, value, -, hjob, ⟨-, rfl⟩ | ⟨row, value', hrow, -, hr, rfl⟩⟩ := reserve_spec h
  · exact .same
  · refine .reserves value value' row c ?_ hrow hr
    rw [jobId_of_job? hjob, hjob]

variable {attemptId : String}

lemma effect_settle {db db' : Db} {identity : String} {actualOutput : Value} {now : ℚ}
    {totals : Totals} (h : settleProviderAttempt identity attemptId actualOutput now db = .ok (totals, db')) :
    Effect db db' := by
  obtain ⟨row, value, hrow, hjob, ⟨-, rfl⟩ | ⟨actual, value', -, hs, rfl⟩⟩ := settle_spec h
  · exact .same
  · refine .settles value value' row actual now ?_ ?_ hs
    · rw [jobId_of_job? hjob, hjob]
    · have hkey : row.attemptId = attemptId := lookup_key hrow
      rw [hkey, hrow]

lemma effect_perform (db : Db) (r : Request) : Effect db (perform host db r).2 := by
  cases r with
  | create identity projectId sessionId workspaceRoot runId manual executionProfile now =>
    refine effect_commit (fun value db' h => ?_) .job
    unfold create at h
    split at h
    · cases h
    · dsimp only at h
      rcases hsave : save _ now db with error | ⟨result, db''⟩
      · rw [hsave] at h
        cases h
      · rw [hsave] at h
        obtain ⟨-, rfl⟩ := Prod.mk.inj (Except.ok.inj h)
        exact effect_save hsave
  | save value now => exact effect_commit (fun _ _ h => effect_save h) .job
  | attach identity runId now => exact effect_commit (fun _ _ h => effect_attach h) .job
  | updateRun identity run checkpoint trusted jitter now =>
    exact effect_commit (fun _ _ h => effect_updateRun h) .job
  | recordElapsed identity elapsed now => exact effect_commit (fun _ _ h => effect_recordElapsed h) _
  | extendBudget identity extension requestKey now =>
    exact effect_commit (fun _ _ h => effect_extendBudget h) .job
  | reserve identity runId charges freshId now => exact effect_commit (fun _ _ h => effect_reserve h) .reserved
  | settle identity attemptId actualOutput now => exact effect_commit (fun _ _ h => effect_settle h) .consumed
  | chargeTool identity operationId now => exact effect_commit (fun _ _ h => effect_chargeTool h) _

structure Sound (db : Db) : Prop where
  ids : (db.attempts.map Attempt.attemptId).Nodup
  /-- A job with an attempt counts its output in the ledger. -/
  ledgered : ∀ r ∈ db.attempts, ∃ value, job? db r.jobId = some value ∧ value.attemptLedger = true

lemma sound_initial : Sound .initial := ⟨List.nodup_nil, fun _ h => (List.not_mem_nil h).elim⟩

lemma ledgered_put {db : Db} {identity : String} {value' : Job}
    (h : ∃ value, job? db identity = some value ∧ value.attemptLedger = true)
    (hkeep : value'.jobId = identity → value'.attemptLedger = true) :
    ∃ value, job? (put value' db) identity = some value ∧ value.attemptLedger = true := by
  rw [job?_put]
  by_cases hid : identity = value'.jobId
  · rw [if_pos hid]
    exact ⟨value', rfl, hkeep hid.symm⟩
  · rw [if_neg hid]
    exact h

lemma sound_effect {db db' : Db} (h : Sound db) (he : Effect db db') : Sound db' := by
  cases he with
  | same => exact h
  | opens value hnew =>
    refine ⟨h.ids, fun r hr => ledgered_put (h.ledgered r hr) fun hid => ?_⟩
    obtain ⟨old, hold, -⟩ := h.ledgered r hr
    rw [← hid, hnew] at hold
    cases hold
  | keeps value value' requests hjob hk =>
    refine ⟨h.ids, fun r hr => ledgered_put (h.ledgered r hr) fun hid => hk.ledger ?_⟩
    obtain ⟨old, hold, hledger⟩ := h.ledgered r hr
    rw [← hid, hk.jobId, hjob] at hold
    rwa [Option.some.inj hold]
  | reserves value value' row c hjob hrow hr =>
    refine ⟨nodup_insertRow (insertRow_of_fresh hrow) h.ids, fun r hmem => ?_⟩
    rcases List.mem_append.1 hmem with hmem | hmem
    · exact ledgered_put (h.ledgered r hmem) fun _ => hr.ledger
    · rw [List.mem_singleton.1 hmem, job?_put, if_pos (hr.rowJob.trans hr.jobId.symm)]
      exact ⟨value', rfl, hr.ledger⟩
  | settles value value' row actual now hjob hrow hs =>
    refine ⟨nodup_updateWhere (f := Attempt.settledWith actual now) (fun _ => rfl) h.ids, fun r hmem => ?_⟩
    obtain ⟨old, hold, rfl⟩ := mem_updateWhere.1 hmem
    have hid : (if decide (old.attemptId = row.attemptId) = true then old.settledWith actual now
        else old).jobId = old.jobId := by
      split <;> rfl
    rw [hid]
    refine ledgered_put (h.ledgered old hold) fun hjobId => ?_
    obtain ⟨found, hfound, hledger⟩ := h.ledgered old hold
    rw [← hjobId, hs.jobId, hjob] at hfound
    rw [hs.ledger, Option.some.inj hfound]
    exact hledger

lemma grows_effect {db db' : Db} (he : Effect db db') {identity : String}
    (hjob : job? db identity = some value) : ∃ value', job? db' identity = some value' ∧
      value.consumed .requests ≤ value'.consumed .requests ∧
      value.consumed .inputBytes ≤ value'.consumed .inputBytes := by
  -- a row put in the place of the one that was found
  have hput {old new : Job} {attempts : List Attempt} {requests : List JobRequest}
      (hold : job? db old.jobId = some old) (hid : new.jobId = old.jobId)
      (hr : old.consumed .requests ≤ new.consumed .requests)
      (hi : old.consumed .inputBytes ≤ new.consumed .inputBytes) :
      ∃ value', job? (put new ⟨db.jobs, attempts, requests⟩) identity = some value' ∧
        value.consumed .requests ≤ value'.consumed .requests ∧
        value.consumed .inputBytes ≤ value'.consumed .inputBytes := by
    rw [job?_put]
    by_cases hsame : identity = new.jobId
    · rw [if_pos hsame]
      rw [hsame, hid, hold] at hjob
      rw [← Option.some.inj hjob]
      exact ⟨new, rfl, hr, hi⟩
    · rw [if_neg hsame]
      exact ⟨value, hjob, le_refl _, le_refl _⟩
  cases he with
  | same => exact ⟨value, hjob, le_refl _, le_refl _⟩
  | opens new hnew =>
    refine ⟨value, ?_, le_refl _, le_refl _⟩
    rw [job?_put, if_neg, hjob]
    rintro rfl
    rw [hnew] at hjob
    cases hjob
  | keeps old new requests hold hk => exact hput hold hk.jobId hk.requests hk.inputBytes
  | reserves old new row c hold hrow hr =>
    refine hput hold hr.jobId ?_ ?_
    · rw [hr.consumed .requests (by simp [charged])]
      exact Number.le_add_int _ (Int.natCast_nonneg _)
    · rw [hr.consumed .inputBytes (by simp [charged])]
      exact Number.le_add_int _ (Int.natCast_nonneg _)
  | settles old new row actual now hold hrow hs =>
    exact hput hold hs.jobId (by rw [hs.requests]) (by rw [hs.inputBytes])

def accounted (db : Db) (identity : String) : ℕ :=
  (attemptAccounting db identity).actualCompletedOutputTokens +
    (attemptAccounting db identity).unresolvedOutputTokens

variable {row : Attempt}

lemma accounted_reserve {db : Db} (hun : row.status = .unresolved) (value : Job)
    (identity : String) : accounted (put value { db with attempts := db.attempts ++ [row] }) identity =
      accounted db identity + if row.jobId = identity then row.reservedOutput else 0 := by
  have hactual : row.actual = 0 := by
    unfold Attempt.actual
    rw [hun]
  have hheld : row.held = row.reservedOutput := by
    unfold Attempt.held
    rw [hun]
  simp only [accounted, attemptAccounting, put, List.filter_append, List.map_append, List.sum_append]
  by_cases hid : row.jobId = identity
  · simp only [List.filter_cons, List.filter_nil, hid, decide_true, if_true, List.map_cons, List.map_nil,
      List.sum_cons, List.sum_nil, hactual, hheld]
    omega
  · simp [hid]

lemma accounted_settle {db : Db} (h : Sound db) (hrow : attempt? db row.attemptId = some row)
    (hun : row.status = .unresolved) (value : Job) (actual : ℕ) (now : ℚ) (identity : String) :
    accounted (put value (settle row actual now db)) identity +
        (if row.jobId = identity then row.reservedOutput else 0) =
      accounted db identity + if row.jobId = identity then actual else 0 := by
  have hsum := fun g => sum_updateWhere h.ids hrow (q := fun r => decide (r.jobId = identity))
    (f := Attempt.settledWith actual now) rfl g
  have hused := hsum Attempt.actual
  have hheld := hsum Attempt.held
  have hstatus : row.actual = 0 ∧ row.held = row.reservedOutput := by
    unfold Attempt.actual Attempt.held
    rw [hun]
    exact ⟨rfl, rfl⟩
  have hsettled : (row.settledWith actual now).actual = actual ∧ (row.settledWith actual now).held = 0 :=
    ⟨rfl, rfl⟩
  rw [hstatus.1, hsettled.1] at hused
  rw [hstatus.2, hsettled.2] at hheld
  simp only [decide_eq_true_eq] at hused hheld
  change _ + _ + _ = _
  simp only [accounted, attemptAccounting, put, settle]
  by_cases hid : row.jobId = identity
  · simp only [hid, if_true] at hused hheld ⊢
    omega
  · simp only [hid, if_false] at hused hheld ⊢
    omega

def Balance (opening : ℤ) (identity : String) (db : Db) : Prop :=
  ∃ value, job? db identity = some value ∧ value.attemptLedger = true ∧
    value.consumed .outputTokens = .int (opening + accounted db identity)

lemma balance_effect {db db' : Db} (h : Sound db) (he : Effect db db') {opening : ℤ} {identity : String}
    (hb : Balance opening identity db) : Balance opening identity db' := by
  obtain ⟨value, hjob, hledger, hout⟩ := hb
  cases he with
  | same => exact ⟨value, hjob, hledger, hout⟩
  | opens new hnew =>
    refine ⟨value, ?_, hledger, hout⟩
    rw [job?_put, if_neg, hjob]
    rintro rfl
    rw [hnew] at hjob
    cases hjob
  | keeps old new requests hold hk =>
    unfold Balance
    rw [job?_put]
    by_cases hid : identity = new.jobId
    · rw [if_pos hid]
      rw [hid, hk.jobId, hold] at hjob
      have hsame := Option.some.inj hjob
      subst hsame
      exact ⟨new, rfl, hk.ledger hledger, (hk.output hledger).trans hout⟩
    · rw [if_neg hid]
      exact ⟨value, hjob, hledger, hout⟩
  | reserves old new row c hold hrow hr =>
    unfold Balance
    rw [accounted_reserve hr.unresolved, job?_put]
    by_cases hid : identity = new.jobId
    · rw [if_pos hid, if_pos (hr.rowJob.trans (hr.jobId.symm.trans hid.symm))]
      rw [hid, hr.jobId, hold] at hjob
      have hsame := Option.some.inj hjob
      subst hsame
      refine ⟨new, rfl, hr.ledger, ?_⟩
      rw [hr.consumed .outputTokens (by simp [charged]), hout, hr.reserved]
      change Number.int _ = _
      congr 1
      change _ + (c.outputTokens : ℤ) = _
      push_cast
      ring
    · rw [if_neg hid, if_neg fun hrow => hid (hrow.symm.trans (hr.rowJob.trans hr.jobId.symm)), add_zero]
      exact ⟨value, hjob, hledger, hout⟩
  | settles old new row actual now hold hrow hs =>
    have hsum := accounted_settle h hrow hs.unresolved new actual now identity
    unfold Balance
    rw [job?_put]
    by_cases hid : identity = new.jobId
    · rw [if_pos hid]
      have hrowJob : row.jobId = identity := hs.rowJob.trans (hs.jobId.symm.trans hid.symm)
      rw [if_pos hrowJob, if_pos hrowJob] at hsum
      rw [hid, hs.jobId, hold] at hjob
      have hsame := Option.some.inj hjob
      subst hsame
      refine ⟨new, rfl, hs.ledger.trans hledger, ?_⟩
      rw [hs.output, hout]
      change Number.int _ = _
      congr 1
      omega
    · rw [if_neg hid]
      have hrowJob : row.jobId ≠ identity := fun heq => hid (heq.symm.trans (hs.rowJob.trans hs.jobId.symm))
      rw [if_neg hrowJob, if_neg hrowJob, add_zero, add_zero] at hsum
      rw [hsum]
      exact ⟨value, hjob, hledger, hout⟩

lemma balance_first {db db' : Db} (he : Effect db db') {identity : String}
    (hnone : ∀ r ∈ db.attempts, r.jobId ≠ identity) (hsome : ∃ r ∈ db'.attempts, r.jobId = identity)
    (hjob : job? db identity = some value) {opening : ℤ}
    (hout : value.consumed .outputTokens = .int opening) : Balance opening identity db' := by
  obtain ⟨r, hr, hid⟩ := hsome
  cases he with
  | same => exact absurd hid (hnone r hr)
  | opens new => exact absurd hid (hnone r hr)
  | keeps old new => exact absurd hid (hnone r hr)
  | reserves old new row c hold _ hres =>
    have hrow : row.jobId = identity := by
      rcases List.mem_append.1 hr with hmem | hmem
      · exact absurd hid (hnone r hmem)
      · rwa [List.mem_singleton.1 hmem] at hid
    have hsame : identity = new.jobId := hrow.symm.trans (hres.rowJob.trans hres.jobId.symm)
    have hzero : accounted db identity = 0 := by
      have hfilter : db.attempts.filter (fun r => decide (r.jobId = identity)) = [] :=
        List.filter_eq_nil_iff.2 fun r hmem => by simpa using hnone r hmem
      unfold accounted attemptAccounting
      rw [hfilter]
      rfl
    unfold Balance
    rw [accounted_reserve hres.unresolved, hzero, if_pos hrow, job?_put, if_pos hsame]
    rw [hsame, hres.jobId, hold] at hjob
    have heq := Option.some.inj hjob
    subst heq
    refine ⟨new, rfl, hres.ledger, ?_⟩
    rw [hres.consumed .outputTokens (by simp [charged]), hout, hres.reserved, zero_add]
    rfl
  | settles old new row actual now =>
    obtain ⟨r₀, hr₀, rfl⟩ := mem_updateWhere.1 hr
    refine absurd ?_ (hnone r₀ hr₀)
    rw [← hid]
    split <;> rfl

lemma attempt_effect {db db' : Db} (he : Effect db db')
    (hrow : attempt? db attemptId = some row) : ∃ row', attempt? db' attemptId = some row' ∧
      (row.status ≠ .unresolved → row' = row) := by
  cases he with
  | same => exact ⟨row, hrow, fun _ => rfl⟩
  | opens value => exact ⟨row, hrow, fun _ => rfl⟩
  | keeps value value' => exact ⟨row, hrow, fun _ => rfl⟩
  | reserves value value' new =>
    refine ⟨row, ?_, fun _ => rfl⟩
    have hfound : lookup Attempt.attemptId db.attempts attemptId = some row := hrow
    change lookup Attempt.attemptId (db.attempts ++ [new]) attemptId = some row
    rw [lookup_append, hfound]
    rfl
  | settles value value' settled actual now hjob hsettled hs =>
    refine ⟨if decide (row.attemptId = settled.attemptId) then row.settledWith actual now else row, ?_, ?_⟩
    · exact (lookup_updateWhere (f := Attempt.settledWith actual now) (fun _ => rfl) db.attempts attemptId).trans
        (congrArg _ hrow)
    · intro hdone
      refine if_neg fun hid => hdone ?_
      have hid : row.attemptId = settled.attemptId := by simpa using hid
      have hkey : row.attemptId = attemptId := lookup_key hrow
      have hsame : settled = row := by
        rw [← hid, hkey, hrow] at hsettled
        exact (Option.some.inj hsettled).symm
      rw [← hsame]
      exact hs.unresolved

variable {e : Move}

lemma sound_moves {requests : List Request} (he : e ∈ moves host requests) :
    Sound e.before ∧ Sound e.after :=
  have hrun := @invariant _ _ _ (perform host) Sound (fun db r h => sound_effect h (effect_perform db r))
    .initial requests sound_initial
  hrun.1 e he

lemma effect_move {requests : List Request} (he : e ∈ moves host requests) :
    Effect e.before e.after := by
  have hentry := entry_eq_of_mem he
  rw [hentry]
  exact effect_perform e.before e.action

lemma balanced_moves (requests : List Request) :
    Balanced (fun opening => ∃ n, opening = .int n) (moves host requests) := by
  intro pre e post hes identity ⟨hnone, hsome⟩ value hjob ⟨opening, hopen⟩
  have he : e ∈ moves host requests := by
    rw [hes]
    exact List.mem_append_right _ (List.mem_cons_self ..)
  have hfirst := balance_first (effect_move he) hnone hsome hjob hopen
  have hbalance : ∀ e' ∈ e :: post, Balance opening identity e'.after := by
    intro e' he'
    rcases List.mem_cons.1 he' with rfl | he'
    · exact hfirst
    · obtain ⟨as₁, a, as₂, -, -, -, hpost⟩ := trace_split hes
      rw [hpost] at he'
      have hrun := @invariant _ _ _ (perform host) (fun db => Sound db ∧ Balance opening identity db)
        (fun db r h => ⟨sound_effect h.1 (effect_perform db r), balance_effect h.1 (effect_perform db r) h.2⟩)
        e.after as₂ ⟨(sound_moves he).2, hfirst⟩
      exact (hrun.1 e' he').2.2
  intro e' he'
  obtain ⟨value', hjob', -, hout'⟩ := hbalance e' he'
  refine ⟨value', hjob', ?_⟩
  rw [hout', hopen]
  unfold accounted
  change ((opening + _ : ℤ) : ℚ) = (opening : ℚ) + _ + _
  push_cast
  ring

variable (he : e = entry (perform host) e.before e.action)

include he in
lemma reserves_spec {c : Charges} (h : Reserves e attemptId c) :
    ((attempt? e.before attemptId).isSome ∧ e.after = e.before) ∨
      ∃ row value value', attempt? e.before attemptId = none ∧ row.attemptId = attemptId ∧
        job? e.before row.jobId = some value ∧ Reservation value value' row c ∧
        e.after = put value' { e.before with attempts := e.before.attempts ++ [row] } := by
  obtain ⟨identity, runId, charges, freshId, now, name, totals, ha, hv, rfl, hout⟩ := h
  rw [ha] at he
  have hafter := congrArg Entry.after he
  rw [he] at hout
  obtain ⟨a, hok, -⟩ := commit_ok hout
  obtain ⟨c', name', value, hv', hjob, hcase⟩ := reserve_spec hok
  obtain ⟨rfl, rfl⟩ := Prod.mk.inj (Except.ok.inj (hv'.symm.trans hv))
  rcases hcase with ⟨hsome, hsame⟩ | ⟨row, value', hnone, hid, hr, hdb⟩
  · exact .inl ⟨hsome, hafter.trans hsame⟩
  · refine .inr ⟨row, value, value', hid ▸ hnone, hid, ?_, hr, hafter.trans hdb⟩
    rw [hr.rowJob, jobId_of_job? hjob, hjob]

include he in
lemma settles_spec (h : Settles e attemptId) : ∃ row, attempt? e.before attemptId = some row ∧
      ((row.status ≠ .unresolved ∧ e.after = e.before) ∨
        row.status = .unresolved ∧
          ∃ actual now value', e.after = put value' (settle row actual now e.before)) := by
  obtain ⟨identity, actualOutput, now, totals, ha, hout⟩ := h
  rw [ha] at he
  have hafter := congrArg Entry.after he
  rw [he] at hout
  obtain ⟨a, hok, -⟩ := commit_ok hout
  obtain ⟨row, value, hrow, -, ⟨hdone, hsame⟩ | ⟨actual, value', -, hs, hdb⟩⟩ := settle_spec hok
  · exact ⟨row, hrow, .inl ⟨hdone, hafter.trans hsame⟩⟩
  · exact ⟨row, hrow, .inr ⟨hs.unresolved, actual, now, value', hafter.trans hdb⟩⟩

include he in
lemma reserved_after {c : Charges} (h : Reserves e attemptId c) : ∃ row, attempt? e.after attemptId = some row := by
  rcases reserves_spec he h with ⟨hsome, hsame⟩ | ⟨row, value, value', hnone, rfl, -, -, hdb⟩
  · rw [hsame]
    exact Option.isSome_iff_exists.1 hsome
  · rw [hdb]
    exact ⟨row, (lookup_insertRow (insertRow_of_fresh hnone) row.attemptId).trans (if_pos rfl)⟩

include he in
lemma settled_after (h : Settles e attemptId) :
    ∃ row, attempt? e.after attemptId = some row ∧ row.status ≠ .unresolved := by
  obtain ⟨row, hrow, ⟨hdone, hsame⟩ | ⟨-, actual, now, value', hdb⟩⟩ := settles_spec he h
  · rw [hsame]
    exact ⟨row, hrow, hdone⟩
  · refine ⟨row.settledWith actual now, ?_, nofun⟩
    have hkey : row.attemptId = attemptId := lookup_key hrow
    rw [hdb]
    refine (lookup_updateWhere (f := Attempt.settledWith actual now) (fun _ => rfl) _ attemptId).trans ?_
    rw [show lookup Attempt.attemptId e.before.attempts attemptId = some row from hrow]
    simp

lemma once_moves (requests : List Request) : ChargedOnce (moves host requests) where
  rows e he := (sound_moves he).2.ids
  first e he attemptId c h hnone := by
    rcases reserves_spec (entry_eq_of_mem he) h with ⟨hsome, -⟩ | ⟨row, value, value', -, hid, hjob, hr, hdb⟩
    · rw [hnone] at hsome
      cases hsome
    · rw [Charged, hdb]
      refine ⟨row, value, value', rfl, hid, hr.reserved, hjob, ?_, hr.consumed⟩
      rw [job?_put, if_pos (hr.rowJob.trans hr.jobId.symm)]
  reserved := by
    refine @pairwise_of _ _ _ (perform host) (fun _ => True) (fun _ => True)
      (fun e db => ∀ attemptId c, Reserves e attemptId c → ∃ row, attempt? db attemptId = some row) _
      (fun _ _ _ _ => trivial) (fun db r _ _ attemptId c h => reserved_after rfl h) ?_ ?_ .initial requests
      trivial fun _ _ => trivial
    · intro e db r _ _ hp attemptId c h
      obtain ⟨row, hrow⟩ := hp attemptId c h
      obtain ⟨row', hrow', -⟩ := attempt_effect (effect_perform db r) hrow
      exact ⟨row', hrow'⟩
    · intro e db r _ _ hp attemptId c c' h h'
      obtain ⟨row, hrow⟩ := hp attemptId c h
      rcases reserves_spec rfl h' with ⟨-, hsame⟩ | ⟨-, -, -, hnone, -⟩
      · exact hsame
      · rw [entry_before, hrow] at hnone
        cases hnone
  settled := by
    refine @pairwise_of _ _ _ (perform host) (fun _ => True) (fun _ => True)
      (fun e db => ∀ attemptId, Settles e attemptId →
        ∃ row, attempt? db attemptId = some row ∧ row.status ≠ .unresolved) _
      (fun _ _ _ _ => trivial) (fun db r _ _ attemptId h => settled_after rfl h) ?_ ?_ .initial requests
      trivial fun _ _ => trivial
    · intro e db r _ _ hp attemptId h
      obtain ⟨row, hrow, hdone⟩ := hp attemptId h
      obtain ⟨row', hrow', hkeep⟩ := attempt_effect (effect_perform db r) hrow
      exact ⟨row', hrow', hkeep hdone ▸ hdone⟩
    · intro e db r _ _ hp attemptId h h'
      obtain ⟨row, hrow, hdone⟩ := hp attemptId h
      obtain ⟨row', hrow', ⟨-, hsame⟩ | ⟨hopen, -⟩⟩ := settles_spec rfl h'
      · exact hsame
      · rw [entry_before, hrow] at hrow'
        exact absurd (Option.some.inj hrow' ▸ hopen) hdone

lemma growing_moves (requests : List Request) : Growing (moves host requests) :=
  fun _ he _ _ hjob => grows_effect (effect_move he) hjob

lemma bounded_moves (requests : List Request) : Bounded Replays (moves host requests) := by
  intro e he identity runId charges freshId now ha
  have hentry := entry_eq_of_mem he
  have houtcome : e.outcome = (commit .reserved (reserveProviderAttempt identity runId charges freshId now)
      e.before).1 := by
    have := congrArg Entry.outcome hentry
    rwa [ha] at this
  have hafter : e.after = (commit .reserved (reserveProviderAttempt identity runId charges freshId now)
      e.before).2 := by
    have := congrArg Entry.after hentry
    rwa [ha] at this
  rcases commit_cases .reserved (reserveProviderAttempt identity runId charges freshId now) e.before with
    ⟨error, hc⟩ | ⟨totals, db', hok, hc⟩
  · rw [hc] at houtcome hafter
    rw [hafter]
    exact .inr ⟨error, houtcome, rfl, rfl⟩
  · rw [hc] at houtcome hafter
    refine .inl ⟨totals, houtcome, ?_⟩
    obtain ⟨c, name, value, hv, hjob, ⟨hsome, hsame⟩ | ⟨row, value', -, -, hr, hdb⟩⟩ := reserve_spec hok
    · refine .inr ⟨_, c, ⟨identity, runId, charges, freshId, now, name, totals, ha, hv, rfl, houtcome⟩, hsome, ?_⟩
      exact hafter.trans hsame
    · refine .inl ⟨value', ?_, hr.within⟩
      rw [hafter, hdb, job?_put, if_pos ((jobId_of_job? hjob).symm.trans hr.jobId.symm)]

/-- Whatever the order of the calls, the ledger of every job is conserved. -/
theorem conserved_moves (host : Host) (requests : List Request) : Conserved (moves host requests) where
  balanced := balanced_moves requests
  once := once_moves requests
  growing := growing_moves requests
  bounded := bounded_moves requests

def plainHost : Host := ⟨fun value => value.status ++ value.pausedBy.getD "", fun _ => ""⟩

def createJob : Request := .create "job" "project" "session" "/workspace" "run" false "standard" 0

def reportTotals (totals : Dict) : Request :=
  .updateRun "job" ⟨"run", [], "queued", "", none, none, none, none, false, 0⟩ (some totals) true 1 0

def reserveOne : Request := .reserve "job" "run" [("requests", .int 1), ("output_tokens", .int 1),
  ("input_bytes", .int 1), ("_attempt_id", .str "attempt")] "" 0

def fraction : List Request := [createJob, reportTotals [("output_tokens", .float (1 / 2 ^ 53))], reserveOne]

def overLimit : List Request :=
  [createJob, reserveOne, reportTotals [("requests", .int 1000)], .attach "job" "run" 0, reserveOne]

def totalOf (db : Db) (d : Dimension) : Option ℚ := (job? db "job").map fun value => (value.consumed d).toRat

lemma totalOf_of_job? {db : Db} (h : job? db "job" = some value) (d : Dimension) :
    totalOf db d = some (value.consumed d).toRat := congrArg (Option.map _) h

/-- Fractions are rounded, so the sum is not exact; and a replay does not look at the limits. -/
theorem fraction_rounded_replay_over_limit :
    (¬ ∀ host requests, Balanced (fun _ => True) (moves host requests)) ∧
      ¬ ∀ host requests, Bounded (fun _ => False) (moves host requests) := by
  constructor
  · intro h
    let before := final (perform plainHost) .initial (fraction.take 2)
    obtain ⟨value, hvalue⟩ := Option.isSome_iff_exists.1
      (show (job? before "job").isSome = true by decide +kernel)
    let e := entry (perform plainHost) before reserveOne
    obtain ⟨value', hvalue', htotal⟩ := h plainHost fraction ((moves plainHost fraction).take 2) e [] rfl "job"
      ⟨by decide +kernel, by decide +kernel⟩ value hvalue trivial e (List.mem_singleton_self e)
    have hopening : totalOf before .outputTokens = some (1 / 2 ^ 53) := by decide +kernel
    have hclosing : totalOf e.after .outputTokens = some 1 := by decide +kernel
    have haccounts : (attemptAccounting e.after "job").actualCompletedOutputTokens = 0 ∧
        (attemptAccounting e.after "job").unresolvedOutputTokens = 1 := by decide +kernel
    rw [totalOf_of_job? hvalue] at hopening
    rw [totalOf_of_job? hvalue'] at hclosing
    rw [Option.some.inj hopening, Option.some.inj hclosing, haccounts.1, haccounts.2] at htotal
    norm_num at htotal
  · intro h
    let before := final (perform plainHost) .initial (overLimit.take 4)
    let e := entry (perform plainHost) before reserveOne
    have hmem : e ∈ moves plainHost overLimit := by
      change e ∈ (moves plainHost overLimit).take 4 ++ [e]
      exact List.mem_append_right _ (List.mem_singleton_self e)
    have hok : e.outcome.isOk = true := by decide +kernel
    rcases h plainHost overLimit e hmem "job" "run" _ "" 0 rfl with
      ⟨totals, -, ⟨value, hvalue, hwithin⟩ | hfalse⟩ | ⟨error, herror, -⟩
    · have hover : totalOf e.after .requests = some 1000 := by decide +kernel
      have hlimit : (job? e.after "job").map (fun value => value.limits .requests) = some 120 := by
        decide +kernel
      rw [totalOf_of_job? hvalue] at hover
      rw [hvalue] at hlimit
      have hle : (value.consumed .requests).toRat ≤ (value.limits .requests : ℚ) :=
        hwithin .requests (by simp [charged])
      have hequal : value.limits .requests = 120 := Option.some.inj hlimit
      rw [Option.some.inj hover, hequal] at hle
      norm_num at hle
    · exact hfalse
    · rw [herror] at hok
      cases hok

end PromptForge.Jobs
