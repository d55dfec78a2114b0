import PromptForge.JobsConservation
import PromptForge.Recovery

namespace PromptForge.Recovery
open Json Numbers Runs Tables Jobs

variable {host : Host} {identity : String}

abbrev Move := Entry Db Request (Except JobError Reply)

def granted (identity : String) (request : Request) (outcome : Except JobError Reply) : Bool :=
  match request, outcome with
  | .claimRecovery other _ _, .ok (.claimed true) => decide (other = identity)
  | _, _ => false

def grants (identity : String) (e : Move) : Bool := granted identity e.action e.outcome

def attaches (identity : String) (e : Move) : Prop := ∃ runId now, e.action = .attach identity runId now

structure Automatic (identity : String) (request : Request) : Prop where
  noManual : ∀ now, request ≠ .beginManualRecovery identity now
  noSettled : ∀ runId event now text, request = .recordRetry identity runId event now →
    eventType? event = .ok text → lastPart text ≠ "settled"

def Guarded (identity : String) (e : Move) : Prop :=
  ∀ owner now value, e.action = .claimRecovery identity owner now → job? e.before identity = some value →
    recoverable value → due value now → value.outage = none → value.autoRecoveryCount < maxRecoveryCycles

/-- A claim is not granted while an earlier one is in force: it has expired, or an
    attach has taken it up. -/
def Exclusive (identity : String) (es : List Move) : Prop :=
  ∀ pre e mid e' post, es = pre ++ e :: (mid ++ e' :: post) → grants identity e = true → grants identity e' = true →
    e.action.now + claimSeconds ≤ e'.action.now ∨ ∃ x ∈ mid, attaches identity x

def LetsExpire (identity : String) (e : Move) : Prop :=
  ∀ runId now value claim, e.action = .attach identity runId now → job? e.before identity = some value →
    value.recoveryClaim = some claim → claim.expiresAt ≤ now

def InTime (es : List Move) : Prop := es.Pairwise fun e e' => e.action.now ≤ e'.action.now

def Apart (identity : String) (es : List Move) : Prop :=
  es.Pairwise fun e e' => grants identity e = true → grants identity e' = true →
    e.action.now + claimSeconds ≤ e'.action.now

structure Recovered (identity : String) (es : List Move) : Prop where
  bounded : (∀ e ∈ es, Guarded identity e) ↔ es.countP (grants identity) ≤ maxRecoveryCycles
  exclusive : Exclusive identity es
  apart : (∀ e ∈ es, LetsExpire identity e) → InTime es → Apart identity es

def Counted (value : Job) : Prop := ∀ outage, value.outage = some outage → outage.cycles = value.autoRecoveryCount

structure Tracks (value value' : Job) : Prop where
  jobId : value'.jobId = value.jobId
  count : value'.autoRecoveryCount = value.autoRecoveryCount
  claim : value'.recoveryClaim = value.recoveryClaim
  counted : Counted value → Counted value'

lemma tracks_of_same {value value' : Job} (hid : value'.jobId = value.jobId)
    (hcount : value'.autoRecoveryCount = value.autoRecoveryCount) (hclaim : value'.recoveryClaim = value.recoveryClaim)
    (houtage : value'.outage = value.outage ∨ value'.outage = none) : Tracks value value' := by
  refine ⟨hid, hcount, hclaim, fun hc outage ho => ?_⟩
  rcases houtage with hsame | hnone
  · rw [hsame] at ho
    rw [hcount]
    exact hc outage ho
  · rw [hnone] at ho
    cases ho

lemma tracks_refl (value : Job) : Tracks value value := ⟨rfl, rfl, rfl, id⟩

lemma tracks_trans {a b c : Job} (hab : Tracks a b) (hbc : Tracks b c) : Tracks a c :=
  ⟨hbc.jobId.trans hab.jobId, hbc.count.trans hab.count, hbc.claim.trans hab.claim, fun h => hbc.counted (hab.counted h)⟩

lemma tracks_finishWait (now : ℚ) (value : Job) : Tracks value (finishWait now value) := by
  unfold finishWait
  split
  · exact tracks_refl value
  · exact tracks_of_same rfl rfl rfl (.inl rfl)

lemma tracks_recordStatus (run : RunView) (milestones : List Value) (now : ℚ) (value : Job) :
    Tracks value (recordStatus run milestones now value) := by
  unfold recordStatus
  dsimp only
  split
  · refine tracks_trans (tracks_trans ?_ (tracks_finishWait now _)) (tracks_of_same rfl rfl rfl (.inr rfl))
    exact tracks_of_same rfl rfl rfl (.inl rfl)
  · exact tracks_of_same rfl rfl rfl (.inl rfl)

lemma tracks_recordTrust (run : RunView) (trusted : Bool) (now : ℚ) (value : Job) : Tracks value (recordTrust run trusted now value) := by
  unfold recordTrust
  split
  · exact tracks_trans (tracks_finishWait now value) (tracks_of_same rfl rfl rfl (.inl rfl))
  · exact tracks_refl value

lemma tracks_recordOutage (run : RunView) (jitter now : ℚ) (value : Job) : Tracks value (recordOutage run jitter now value) := by
  unfold recordOutage
  split
  · dsimp only
    split
    all_goals
      refine ⟨rfl, rfl, rfl, fun hc outage ho => ?_⟩
      have hopened := Option.some.inj ho
      rw [← hopened]
      rcases hprior : value.outage with _ | prior
      · rfl
      · exact hc prior hprior
  · exact tracks_refl value

lemma tracks_recordTimeReserve (run : RunView) (value : Job) : Tracks value (recordTimeReserve run value) := by
  unfold recordTimeReserve
  split
  · exact tracks_of_same rfl rfl rfl (.inl rfl)
  · exact tracks_refl value

lemma tracks_recordBudget (run : RunView) (value : Job) : Tracks value (recordBudget run value) := by
  unfold recordBudget
  split
  · exact tracks_of_same rfl rfl rfl (.inl rfl)
  · exact tracks_refl value

lemma tracks_reportRun (run : RunView) (trusted : Bool) (jitter now : ℚ) (value : Job) :
    Tracks value (reportRun run trusted jitter now value) := by
  unfold reportRun
  split
  · exact tracks_trans (tracks_finishWait now value) (tracks_of_same rfl rfl rfl (.inl rfl))
  · exact tracks_trans (tracks_recordTrust run trusted now value)
      (tracks_trans (tracks_recordOutage run jitter now _)
        (tracks_trans (tracks_recordTimeReserve run _) (tracks_recordBudget run _)))

lemma tracks_recordPhase {phase : String} (hphase : phase ≠ "settled") (event : Dict) (now : ℚ) (value : Job) :
    Tracks value (recordPhase phase event now value) := by
  unfold recordPhase
  rw [if_neg hphase]
  exact tracks_of_same rfl rfl rfl (.inl rfl)

/-- The outcomes of `mutate`: nothing is written, or the changed row with a new date. -/
lemma mutate_spec {db db' : Db} {now : ℚ} {change : Job → Except JobError Job} {result : Job} {other : String}
    (h : mutate host other now change db = .ok (result, db')) :
    ∃ value value', job? db other = some value ∧ change value = .ok value' ∧
      (db' = db ∧ host.encode value' = host.encode value ∨ db' = Jobs.put { value' with updatedAt := now } db) := by
  unfold mutate at h
  rcases hjob : job? db other with _ | value
  · rw [hjob] at h
    cases h
  · rw [hjob] at h
    dsimp only at h
    rcases hvalue : change value with error | value'
    · rw [hvalue] at h
      cases h
    · rw [hvalue] at h
      dsimp only at h
      refine ⟨value, value', rfl, hvalue, ?_⟩
      split at h
      · rename_i hsame
        obtain ⟨-, rfl⟩ := Prod.mk.inj (Except.ok.inj h)
        exact .inl ⟨rfl, hsame⟩
      · obtain ⟨-, rfl⟩ := Prod.mk.inj (Except.ok.inj h)
        exact .inr rfl

lemma tracks_updated {value value' : Job} (h : Tracks value value') (now : ℚ) : Tracks value { value' with updatedAt := now } :=
  tracks_trans h (tracks_of_same rfl rfl rfl (.inl rfl))

lemma tracks_put {db : Db} {value row row' : Job} (hvalue : job? db identity = some value) {other : String}
    (hrow : job? db other = some row) (ht : Tracks row row') :
    ∃ value', job? (Jobs.put row' db) identity = some value' ∧ Tracks value value' := by
  rw [job?_put]
  by_cases hid : identity = row'.jobId
  · have hsame : identity = other := hid.trans (ht.jobId.trans (jobId_of_job? hrow))
    subst hsame
    rw [hvalue] at hrow
    cases hrow
    exact ⟨row', if_pos hid, ht⟩
  · exact ⟨value, (if_neg hid).trans hvalue, tracks_refl value⟩

lemma tracks_mutate {db db' : Db} {value result : Job} {now : ℚ} {change : Job → Except JobError Job} {other : String}
    (hvalue : job? db identity = some value)
    (hchange : other = identity → ∀ row', change value = .ok row' → Tracks value row')
    (hother : other ≠ identity → ∀ row row', change row = .ok row' → row'.jobId = row.jobId)
    (h : mutate host other now change db = .ok (result, db')) :
    ∃ value', job? db' identity = some value' ∧ Tracks value value' := by
  obtain ⟨row, row', hrow, hrow', ⟨rfl, -⟩ | rfl⟩ := mutate_spec h
  · exact ⟨value, hvalue, tracks_refl value⟩
  · by_cases hsame : other = identity
    · have hfound := hrow
      rw [hsame, hvalue] at hfound
      cases hfound
      exact tracks_put hvalue hrow (tracks_updated (hchange hsame row' hrow') now)
    · refine ⟨value, ?_, tracks_refl value⟩
      rw [job?_put]
      refine (if_neg fun hid => hsame ?_).trans hvalue
      exact (hid.trans ((hother hsame row row' hrow').trans (jobId_of_job? hrow))).symm

lemma jobId_finishWait (now : ℚ) (value : Job) : (finishWait now value).jobId = value.jobId :=
  (tracks_finishWait now value).jobId

inductive Turn (host : Host) (identity : String) (db : Db) (request : Request) (value value' : Job) : Prop where
  | keeps (ht : Tracks value value') (hno : granted identity request (perform host db request).1 = false)
  | attaches (runId : String) (now : ℚ) (ha : request = .attach identity runId now)
      (hcount : value'.autoRecoveryCount = value.autoRecoveryCount) (hcounted : Counted value → Counted value')
  | claims (owner : String) (now : ℚ) (hr : request = .claimRecovery identity owner now) (hrec : recoverable value)
      (hblock : outageBlock value now = none) (hdue : due value now)
      (hyes : granted identity request (perform host db request).1 = true)
      (hvalue : value' = { Job.claimed owner now value with updatedAt := now })

section Turns
variable {db : Db} {value : Job} {request : Request}

lemma jobId_recordPhase (phase : String) (event : Dict) (now : ℚ) (value : Job) :
    (recordPhase phase event now value).jobId = value.jobId := by
  unfold recordPhase settledRetry
  split
  · exact jobId_finishWait now _
  · rfl

lemma claimChange_true {owner : String} {now : ℚ} (h : (claimChange owner now value).1 = true) :
    recoverable value ∧ outageBlock value now = none ∧ due value now ∧
      (claimChange owner now value).2 = Job.claimed owner now value := by
  unfold claimChange at h ⊢
  split at h
  · rename_i hrec
    rw [if_pos hrec]
    split at h
    · cases h
    · rename_i hblock
      rw [hblock]
      split at h
      · rename_i hdue
        exact ⟨hrec, rfl, hdue, by rw [if_pos hdue]⟩
      · cases h
  · cases h

lemma claimChange_of_due {owner : String} {now : ℚ} (hrec : recoverable value) (hblock : outageBlock value now = none)
    (hdue : due value now) : (claimChange owner now value).1 = true := by
  unfold claimChange
  rw [if_pos hrec, hblock]
  dsimp only
  rw [if_pos hdue]

lemma tracks_claimChange {owner : String} {now : ℚ} (h : (claimChange owner now value).1 = false) :
    Tracks value (claimChange owner now value).2 := by
  unfold claimChange at h ⊢
  split at h
  · rename_i hrec
    rw [if_pos hrec]
    split at h
    · exact tracks_of_same rfl rfl rfl (.inl rfl)
    · split at h
      · cases h
      · rename_i hdue
        rw [if_neg hdue]
        exact tracks_refl value
  · rename_i hrec
    rw [if_neg hrec]
    exact tracks_refl value

lemma jobId_claimChange (owner : String) (now : ℚ) (value : Job) : (claimChange owner now value).2.jobId = value.jobId := by
  rcases h : (claimChange owner now value).1 with _ | _
  · exact (tracks_claimChange h).jobId
  · rw [(claimChange_true h).2.2.2]
    rfl

abbrev Turns (host : Host) (identity : String) (db : Db) (value : Job) (request : Request) : Prop :=
  ∃ value', job? (perform host db request).2 identity = some value' ∧ Turn host identity db request value value'

variable (hvalue : job? db identity = some value)
include hvalue

lemma turn_of_tracks {τ : Type} {f : τ → Reply} {tx : Tx τ} (hperform : perform host db request = atomic f tx db)
    (hno : ∀ outcome, granted identity request outcome = false)
    (h : ∀ a db', tx db = .ok (a, db') → ∃ value', job? db' identity = some value' ∧ Tracks value value') :
    Turns host identity db value request := by
  obtain ⟨value', hvalue', ht⟩ : ∃ value', job? (perform host db request).2 identity = some value' ∧
      Tracks value value' := by
    rw [hperform]
    exact atomic_keeps (P := fun db : Db => ∃ value', job? db identity = some value' ∧ Tracks value value')
      ⟨value, hvalue, tracks_refl value⟩ h
  exact ⟨value', hvalue', .keeps ht (hno _)⟩

lemma turn_updateRun (other : String) (run : RunView) (checkpoint : Option Dict) (trusted : Bool) (jitter now : ℚ) :
    Turns host identity db value (.updateRun other run checkpoint trusted jitter now) := by
  refine turn_of_tracks (f := Reply.job) hvalue rfl (fun _ => rfl) fun result db' h => ?_
  have hchange : ∀ row row', (if row.currentRunId ≠ run.runId then (.ok row : Except JobError Job) else do
      let saved ← savedState checkpoint
      let provider ← providerBudget saved
      let milestones ← planOf run saved
      .ok (reportRun run trusted jitter now
        (recordStatus run milestones now (recordUsage saved provider row)))) = .ok row' → Tracks row row' := by
    intro row row' hrow
    split at hrow
    · rw [← Except.ok.inj hrow]
      exact tracks_refl row
    · obtain ⟨saved, -, hrow⟩ := ok_of_bind hrow
      obtain ⟨provider, -, hrow⟩ := ok_of_bind hrow
      obtain ⟨milestones, -, hrow⟩ := ok_of_bind hrow
      rw [← Except.ok.inj hrow]
      refine tracks_trans ?_ (tracks_trans (tracks_recordStatus run milestones now _) (tracks_reportRun run _ _ _ _))
      exact tracks_of_same rfl rfl rfl (.inl rfl)
  exact tracks_mutate hvalue (fun _ => hchange value) (fun _ row row' hrow => (hchange row row' hrow).jobId) h

lemma turn_recordRetry (other runId : String) (event : Dict) (now : ℚ)
    (hauto : Automatic identity (.recordRetry other runId event now)) :
    Turns host identity db value (.recordRetry other runId event now) := by
  refine turn_of_tracks (f := Reply.job) hvalue rfl (fun _ => rfl) fun result db' h => ?_
  refine tracks_mutate hvalue (fun hsame row' hrow => ?_) (fun _ row row' hrow => ?_) h
  · split at hrow
    · rw [← Except.ok.inj hrow]
      exact tracks_refl value
    · obtain ⟨text, htext, hrow⟩ := ok_of_bind hrow
      rw [← Except.ok.inj hrow]
      rw [hsame] at hauto
      exact tracks_recordPhase (hauto.noSettled runId event now text rfl htext) event now value
  · split at hrow
    · rw [← Except.ok.inj hrow]
    · obtain ⟨text, -, hrow⟩ := ok_of_bind hrow
      rw [← Except.ok.inj hrow]
      exact jobId_recordPhase ..

lemma turn_manual (other : String) (now : ℚ) (hother : other ≠ identity) :
    Turns host identity db value (.beginManualRecovery other now) := by
  refine turn_of_tracks (f := Reply.job) hvalue rfl (fun _ => rfl) fun result db' h => ?_
  refine tracks_mutate hvalue (fun hsame => absurd hsame hother) (fun _ row row' hrow => ?_) h
  rw [← Except.ok.inj hrow]
  exact jobId_finishWait now row

lemma turn_extendBudget (other : String) (extension : Dict) (requestKey : String) (now : ℚ) :
    Turns host identity db value (.extendBudget other extension requestKey now) := by
  refine turn_of_tracks (f := Reply.job) hvalue rfl (fun _ => rfl) fun result db' h => ?_
  unfold extendBudget at h
  split at h
  · cases h
  · dsimp only at h
    split at h
    · cases h
    · rename_i row hrow
      split at h
      · split at h
        · cases h
        · obtain ⟨-, rfl⟩ := Prod.mk.inj (Except.ok.inj h)
          exact ⟨value, hvalue, tracks_refl value⟩
      · obtain ⟨-, rfl⟩ := Prod.mk.inj (Except.ok.inj h)
        have hvalue' : job? ⟨db.jobs, db.attempts, _⟩ identity = some value := hvalue
        exact tracks_put hvalue' hrow (tracks_of_same rfl rfl rfl (.inl rfl))

lemma turn_attach (other runId : String) (now : ℚ) : Turns host identity db value (.attach other runId now) := by
  by_cases hsame : other = identity
  · subst hsame
    obtain ⟨value', hvalue', hcount, hcounted⟩ : ∃ value', job? (perform host db (.attach other runId now)).2 other =
        some value' ∧ value'.autoRecoveryCount = value.autoRecoveryCount ∧ (Counted value → Counted value') := by
      refine atomic_keeps (P := fun db : Db => ∃ value', job? db other = some value' ∧
        value'.autoRecoveryCount = value.autoRecoveryCount ∧ (Counted value → Counted value'))
        ⟨value, hvalue, rfl, id⟩ fun result db' h => ?_
      obtain ⟨row, row', hrow, hrow', ⟨rfl, -⟩ | rfl⟩ := mutate_spec h
      · exact ⟨value, hvalue, rfl, id⟩
      · rw [hvalue] at hrow
        cases hrow
        rw [← Except.ok.inj hrow', job?_put]
        have hwait := tracks_finishWait now value
        exact ⟨_, if_pos ((hwait.jobId.trans (jobId_of_job? hvalue)).symm), hwait.count, hwait.counted⟩
    exact ⟨value', hvalue', .attaches runId now rfl hcount hcounted⟩
  · refine turn_of_tracks (f := Reply.job) hvalue rfl (fun _ => rfl) fun result db' h => ?_
    refine tracks_mutate hvalue (fun heq => absurd heq hsame) (fun _ row row' hrow => ?_) h
    rw [← Except.ok.inj hrow]
    exact jobId_finishWait now row

lemma claim_spec (host : Host) (owner : String) (now : ℚ) :
    ∃ db', claimRecovery host identity owner now db = .ok ((claimChange owner now value).1, db') ∧
      (db' = db ∧ host.encode (claimChange owner now value).2 = host.encode value ∨
        db' = Jobs.put { (claimChange owner now value).2 with updatedAt := now } db) := by
  unfold claimRecovery mutate
  rw [hvalue]
  dsimp only [Option.elim]
  by_cases hsame : host.encode (claimChange owner now value).2 = host.encode value
  · refine ⟨db, ?_, .inl ⟨rfl, hsame⟩⟩
    rw [if_pos hsame]
    rfl
  · refine ⟨_, ?_, .inr rfl⟩
    rw [if_neg hsame]
    rfl

variable (hencode : ∀ a b, host.encode a = host.encode b → a.autoRecoveryCount = b.autoRecoveryCount)
include hencode

lemma turn_claim (other owner : String) (now : ℚ) : Turns host identity db value (.claimRecovery other owner now) := by
  by_cases hsame : other = identity
  · subst hsame
    obtain ⟨db', hclaim, hdb'⟩ := claim_spec hvalue host owner now
    have hperform : perform host db (.claimRecovery other owner now) =
        (.ok (.claimed (claimChange owner now value).1), db') := atomic_of_ok hclaim
    rcases hanswer : (claimChange owner now value).1 with _ | _
    · have ht := tracks_claimChange hanswer
      obtain ⟨value', hvalue', htracks⟩ : ∃ value', job? db' other = some value' ∧ Tracks value value' := by
        rcases hdb' with ⟨rfl, -⟩ | rfl
        · exact ⟨value, hvalue, tracks_refl value⟩
        · exact tracks_put hvalue hvalue (tracks_updated ht now)
      refine ⟨value', ?_, .keeps htracks ?_⟩
      · rw [hperform]
        exact hvalue'
      · rw [hperform, hanswer]
        rfl
    · obtain ⟨hrec, hblock, hdue, hchange⟩ := claimChange_true hanswer
      rcases hdb' with ⟨-, hencoded⟩ | hdb'
      · -- a claim changes the counter, so its row is written
        have hcount := hencode _ _ hencoded
        rw [hchange] at hcount
        exact absurd hcount (Nat.succ_ne_self _)
      · rw [hchange] at hdb'
        refine ⟨{ Job.claimed owner now value with updatedAt := now }, ?_,
          .claims owner now rfl hrec hblock hdue ?_ rfl⟩
        · rw [hperform, hdb', job?_put]
          exact if_pos (jobId_of_job? hvalue).symm
        · rw [hperform, hanswer]
          exact decide_eq_true rfl
  · refine turn_of_tracks (f := Reply.claimed) hvalue rfl (fun outcome => ?_) fun answer db' h => ?_
    · rcases outcome with error | (job | _ | _)
      · rfl
      · rfl
      · rfl
      · exact decide_eq_false hsame
    · unfold claimRecovery at h
      obtain ⟨row, -, h⟩ := ok_of_bind h
      obtain ⟨⟨result, db''⟩, hmutate, h⟩ := ok_of_bind h
      obtain ⟨-, rfl⟩ := Prod.mk.inj (Except.ok.inj h)
      refine tracks_mutate hvalue (fun heq => absurd heq hsame) (fun _ row row' hrow => ?_) hmutate
      rw [← Except.ok.inj hrow]
      exact jobId_claimChange owner now row

lemma turn (hauto : Automatic identity request) : Turns host identity db value request := by
  cases request with
  | updateRun other run checkpoint trusted jitter now =>
    exact turn_updateRun hvalue other run checkpoint trusted jitter now
  | recordRetry other runId event now => exact turn_recordRetry hvalue other runId event now hauto
  | claimRecovery other owner now => exact turn_claim hvalue hencode other owner now
  | attach other runId now => exact turn_attach hvalue other runId now
  | extendBudget other extension requestKey now => exact turn_extendBudget hvalue other extension requestKey now
  | beginManualRecovery other now =>
    refine turn_manual hvalue other now fun hsame => ?_
    subst hsame
    exact hauto.noManual now rfl

end Turns

section Runs
variable {db : Db} {value : Job} {request : Request}

lemma granted_of_due (host : Host) {owner : String} {now : ℚ} (hvalue : job? db identity = some value)
    (hrec : recoverable value) (hblock : outageBlock value now = none) (hdue : due value now) :
    granted identity (.claimRecovery identity owner now) (perform host db (.claimRecovery identity owner now)).1 =
      true := by
  obtain ⟨db', hclaim, -⟩ := claim_spec hvalue host owner now
  have hperform : perform host db (.claimRecovery identity owner now) =
      (.ok (.claimed (claimChange owner now value).1), db') := atomic_of_ok hclaim
  rw [hperform, claimChange_of_due hrec hblock hdue]
  exact decide_eq_true rfl

lemma guarded_of_refused (h : granted identity request (perform host db request).1 = false) :
    Guarded identity (entry (perform host) db request) := by
  intro owner now value haction hvalue hrec hdue hnone
  change request = _ at haction
  change job? db identity = _ at hvalue
  subst haction
  have hblock : outageBlock value now = none := by
    unfold outageBlock
    rw [hnone]
  rw [granted_of_due host hvalue hrec hblock hdue] at h
  cases h

lemma counted_claimed (owner : String) (now : ℚ) (h : Counted value) : Counted (Job.claimed owner now value) := by
  intro outage ho
  obtain ⟨prior, hprior, rfl⟩ := Option.map_eq_some_iff.1 ho
  exact congrArg (· + 1) (h prior hprior)

lemma guarded_iff_of_granted (host : Host) (owner : String) {now : ℚ} (hcounted : Counted value)
    (hvalue : job? db identity = some value) (hrec : recoverable value) (hblock : outageBlock value now = none)
    (hdue : due value now) : Guarded identity (entry (perform host) db (.claimRecovery identity owner now)) ↔
      value.autoRecoveryCount < maxRecoveryCycles := by
  constructor
  · intro hguarded
    rcases houtage : value.outage with _ | outage
    · exact hguarded owner now value rfl hvalue hrec hdue houtage
    · have hcycles := hcounted outage houtage
      unfold outageBlock at hblock
      rw [houtage] at hblock
      dsimp only at hblock
      rw [← hcycles]
      by_contra hreached
      rw [if_pos (Nat.le_of_not_lt hreached)] at hblock
      cases hblock
  · intro hbelow owner' now' found haction hfound _ _ _
    change job? db identity = _ at hfound
    rw [hvalue] at hfound
    cases hfound
    exact hbelow

def Tally (identity : String) (es : List Move) (db : Db) : Prop :=
  ∃ value, job? db identity = some value ∧ Counted value ∧
    es.countP (grants identity) = value.autoRecoveryCount ∧
    ((∀ e ∈ es, Guarded identity e) ↔ es.countP (grants identity) ≤ maxRecoveryCycles)

lemma tally_quiet {es : List Move} {db' : Db} {value' : Job} {e : Move} (hes : (∀ e ∈ es, Guarded identity e) ↔
      es.countP (grants identity) ≤ maxRecoveryCycles) (htally : es.countP (grants identity) = value.autoRecoveryCount)
    (hno : grants identity e = false) (hguarded : Guarded identity e) (hvalue' : job? db' identity = some value')
    (hcounted : Counted value') (hcount : value'.autoRecoveryCount = value.autoRecoveryCount) :
    Tally identity (es ++ [e]) db' := by
  have hsum : (es ++ [e]).countP (grants identity) = es.countP (grants identity) := by
    rw [List.countP_append, List.countP_singleton, hno]
    exact Nat.add_zero _
  refine ⟨value', hvalue', hcounted, ?_, ?_⟩
  · rw [hsum, htally, hcount]
  · rw [hsum, ← hes, List.forall_mem_append, List.forall_mem_singleton]
    exact ⟨fun h => h.1, fun h => ⟨h, hguarded⟩⟩

def Holds (identity : String) (time : ℚ) (db : Db) : Prop :=
  ∃ value claim, job? db identity = some value ∧ value.recoveryClaim = some claim ∧ time ≤ claim.expiresAt

variable (hencode : ∀ a b, host.encode a = host.encode b → a.autoRecoveryCount = b.autoRecoveryCount)
include hencode

lemma tally_step {es : List Move} (h : Tally identity es db) (hauto : Automatic identity request) :
    Tally identity (es ++ [entry (perform host) db request]) (perform host db request).2 := by
  obtain ⟨value, hvalue, hcounted, htally, hes⟩ := h
  obtain ⟨value', hvalue', hturn⟩ := turn hvalue hencode hauto
  cases hturn with
  | keeps ht hno =>
    exact tally_quiet hes htally hno (guarded_of_refused hno) hvalue' (ht.counted hcounted) ht.count
  | attaches runId now ha hcount hcounted' =>
    subst ha
    exact tally_quiet hes htally rfl (guarded_of_refused rfl) hvalue' (hcounted' hcounted) hcount
  | claims owner now hr hrec hblock hdue hyes hclaimed =>
    subst hr
    have hguarded := guarded_iff_of_granted host owner hcounted hvalue hrec hblock hdue
    have hsum : (es ++ [entry (perform host) db (.claimRecovery identity owner now)]).countP (grants identity) =
        es.countP (grants identity) + 1 := by
      rw [List.countP_append, List.countP_singleton]
      exact congrArg (es.countP (grants identity) + ·) (if_pos hyes)
    refine ⟨value', hvalue', ?_, ?_, ?_⟩
    · rw [hclaimed]
      exact counted_claimed owner now hcounted
    · rw [hsum, htally, hclaimed]
      rfl
    · rw [hsum, List.forall_mem_append, List.forall_mem_singleton, hes, hguarded, htally]
      omega

lemma holds_step {time : ℚ} (h : Holds identity time db) (hauto : Automatic identity request)
    (hno : ∀ runId now, request ≠ .attach identity runId now) : Holds identity time (perform host db request).2 ∧
      (granted identity request (perform host db request).1 = true → time ≤ request.now) := by
  obtain ⟨value, claim, hvalue, hclaim, htime⟩ := h
  obtain ⟨value', hvalue', hturn⟩ := turn hvalue hencode hauto
  cases hturn with
  | keeps ht hrefused =>
    refine ⟨⟨value', claim, hvalue', ht.claim.trans hclaim, htime⟩, fun hyes => ?_⟩
    rw [hrefused] at hyes
    cases hyes
  | attaches runId now ha hcount hcounted => exact absurd ha (hno runId now)
  | claims owner now hr hrec hblock hdue hyes hclaimed =>
    subst hr
    have hexpired : claim.expiresAt ≤ now := hdue.2 claim hclaim
    have hreached : time ≤ now := htime.trans hexpired
    refine ⟨⟨value', ⟨owner, now + claimSeconds⟩, hvalue', by rw [hclaimed]; rfl, ?_⟩, fun _ => hreached⟩
    exact hreached.trans (le_add_of_nonneg_right (by unfold claimSeconds; norm_num))

lemma holds_of_granted (hvalue : job? db identity = some value) (hauto : Automatic identity request)
    (hyes : granted identity request (perform host db request).1 = true) :
    Holds identity (request.now + claimSeconds) (perform host db request).2 := by
  obtain ⟨value', hvalue', hturn⟩ := turn hvalue hencode hauto
  cases hturn with
  | keeps ht hno =>
    rw [hno] at hyes
    cases hyes
  | attaches runId now ha hcount hcounted =>
    subst ha
    cases hyes
  | claims owner now hr hrec hblock hdue _ hclaimed =>
    subst hr
    exact ⟨value', ⟨owner, now + claimSeconds⟩, hvalue', by rw [hclaimed]; rfl, le_refl _⟩

lemma expires_of_holds {time : ℚ}
    {as : List Request} (h : Holds identity time db)
    (hauto : ∀ e ∈ trace (perform host) db as, Automatic identity e.action)
    (hexpire : ∀ e ∈ trace (perform host) db as, LetsExpire identity e) (htime : InTime (trace (perform host) db as)) :
    ∀ e ∈ trace (perform host) db as, grants identity e = true → time ≤ e.action.now := by
  induction as generalizing db with
  | nil => exact fun e he => (List.not_mem_nil he).elim
  | cons request as ih =>
    have hhead := hauto _ (List.mem_cons_self ..)
    have hmono := List.pairwise_cons.1 htime
    intro e he hyes
    by_cases hattach : ∃ runId now, request = .attach identity runId now
    · -- what is attached has expired, and the clock does not go back
      obtain ⟨runId, now, rfl⟩ := hattach
      obtain ⟨value, claim, hvalue, hclaim, hlate⟩ := h
      have hexpired := hexpire _ (List.mem_cons_self ..) runId now value claim rfl hvalue hclaim
      rcases List.mem_cons.1 he with rfl | he
      · cases hyes
      · exact (hlate.trans hexpired).trans (hmono.1 e he)
    · obtain ⟨hnext, hgrant⟩ := holds_step hencode h hhead fun runId now ha => hattach ⟨runId, now, ha⟩
      rcases List.mem_cons.1 he with rfl | he
      · exact hgrant hyes
      · exact ih hnext (fun e he => hauto e (List.mem_cons_of_mem _ he))
          (fun e he => hexpire e (List.mem_cons_of_mem _ he)) hmono.2 e he hyes

lemma apart_of_expires {as : List Request}
    (hvalue : job? db identity = some value) (hauto : ∀ e ∈ trace (perform host) db as, Automatic identity e.action)
    (hexpire : ∀ e ∈ trace (perform host) db as, LetsExpire identity e) (htime : InTime (trace (perform host) db as)) :
    Apart identity (trace (perform host) db as) := by
  induction as generalizing db value with
  | nil => exact List.Pairwise.nil
  | cons request as ih =>
    have hhead := hauto _ (List.mem_cons_self ..)
    have hmono := List.pairwise_cons.1 htime
    obtain ⟨value', hvalue', -⟩ := turn hvalue hencode hhead
    have hautoTail : ∀ e ∈ trace (perform host) (perform host db request).2 as, Automatic identity e.action :=
      fun e he => hauto e (List.mem_cons_of_mem _ he)
    have hexpireTail : ∀ e ∈ trace (perform host) (perform host db request).2 as, LetsExpire identity e :=
      fun e he => hexpire e (List.mem_cons_of_mem _ he)
    refine List.Pairwise.cons (fun e he hyes hyes' => ?_) (ih hvalue' hautoTail hexpireTail hmono.2)
    exact expires_of_holds hencode (holds_of_granted hencode hvalue hhead hyes) hautoTail hexpireTail hmono.2 e he hyes'

lemma job_moves {as : List Request} (hvalue : job? db identity = some value)
    (hauto : ∀ e ∈ trace (perform host) db as, Automatic identity e.action) :
    ∃ value, job? (final (perform host) db as) identity = some value :=
  (invariant_of (I := fun db : Db => ∃ value, job? db identity = some value)
    (K := fun e : Move => Automatic identity e.action) (fun db request h ha => by
      obtain ⟨value, hvalue⟩ := h
      obtain ⟨value', hvalue', -⟩ := turn hvalue hencode ha
      exact ⟨value', hvalue'⟩) ⟨value, hvalue⟩ hauto).2

lemma exclusive_moves {as : List Request}
    (hvalue : job? db identity = some value) (hauto : ∀ e ∈ trace (perform host) db as, Automatic identity e.action) :
    Exclusive identity (trace (perform host) db as) := by
  intro pre e mid e' post hsplit hyes hyes'
  have hmem : ∀ x ∈ e :: (mid ++ e' :: post), Automatic identity x.action :=
    fun x hx => hauto x (hsplit ▸ List.mem_append_right _ hx)
  obtain ⟨as₁, request, as₂, -, hpre, he, hpost⟩ := trace_split hsplit
  obtain ⟨bs₁, request', bs₂, -, hmid, he', -⟩ := trace_split hpost.symm
  by_cases hattach : ∃ x ∈ mid, attaches identity x
  · exact .inr hattach
  · left
    have hautoPre : ∀ x ∈ trace (perform host) db as₁, Automatic identity x.action := by
      rw [← hpre]
      exact fun x hx => hauto x (hsplit ▸ List.mem_append_left _ hx)
    obtain ⟨found, hfound⟩ := job_moves hencode hvalue hautoPre
    have hhead := hmem e (List.mem_cons_self ..)
    rw [he] at hhead hyes
    have hstart : Holds identity (request.now + claimSeconds) e.after := by
      rw [he]
      exact holds_of_granted hencode hfound hhead hyes
    -- the claim stays in force up to the second one
    have hkept := (invariant_of (I := Holds identity (request.now + claimSeconds))
      (K := fun x : Move => Automatic identity x.action ∧ ¬ attaches identity x)
      (fun db r h hk => (holds_step hencode h hk.1 fun runId now ha => hk.2 ⟨runId, now, ha⟩).1) hstart
      (fun x hx => by
        rw [← hmid] at hx
        exact ⟨hmem x (List.mem_cons_of_mem _ (List.mem_append_left _ hx)), fun ha => hattach ⟨x, hx, ha⟩⟩)).2
    have hlast : Automatic identity e'.action :=
      hmem e' (List.mem_cons_of_mem _ (List.mem_append_right _ (List.mem_cons_self ..)))
    rw [he'] at hlast hyes' ⊢
    rw [he]
    refine (holds_step hencode hkept hlast fun runId now ha => ?_).2 hyes'
    change request' = _ at ha
    rw [ha] at hyes'
    cases hyes'

end Runs

lemma create_spec {db₀ db : Db} {projectId sessionId workspaceRoot runId profile : String} {manual : Bool} {now : ℚ}
    {value : Job} (hnew : job? db₀ identity = none)
    (h : create identity projectId sessionId workspaceRoot runId manual profile now db₀ = .ok (value, db)) :
    ∃ value, job? db identity = some value ∧ value.outage = none ∧ value.autoRecoveryCount = 0 := by
  unfold create at h
  split at h
  · cases h
  · dsimp only at h
    unfold save at h
    dsimp only at h
    rw [hnew] at h
    obtain ⟨-, rfl⟩ := Prod.mk.inj (Except.ok.inj h)
    rw [job?_put]
    exact ⟨_, if_pos rfl, rfl, rfl⟩

def noteHost : Host where
  encode job := String.ofList (List.replicate job.autoRecoveryCount '1' ++ ',' :: job.status.toList)
  fingerprint _ := ""

lemma noteHost_encode (a b : Job) (h : noteHost.encode a = noteHost.encode b) : a.autoRecoveryCount = b.autoRecoveryCount := by
  have hlength (job : Job) : ((noteHost.encode job).toList.takeWhile fun c => decide (c = '1')).length =
      job.autoRecoveryCount := by
    unfold noteHost
    rw [String.toList_ofList, List.takeWhile_append_of_pos]
    · simp
    · intro c hc
      exact decide_eq_true (List.eq_of_mem_replicate hc)
  rw [← hlength a, ← hlength b, h]

def stoppedRun : RunView where
  runId := "run-1"
  agentPlan := []
  status := "failed"
  classification := "AGENT_RUNTIME_INTERRUPTED"
  providerId := none
  modelId := none
  httpStatus := none
  lastFailureOrigin := none
  requestReachedProvider := false
  retryAfterMs := 0

def stoppedDb : Db :=
  (Jobs.perform noteHost .initial (.create "job-1" "project" "session" "/w" "run-1" false "standard" 0)).2

lemma create_stoppedDb : ∃ value, create "job-1" "project" "session" "/w" "run-1" false "standard" 0 .initial =
    .ok (value, stoppedDb) := ⟨_, rfl⟩

def interruption : Request := .updateRun "job-1" stoppedRun none true 1 0

lemma automatic_of_claims {requests : List Request}
    (h : ∀ r ∈ requests, r = interruption ∨ ∃ now, r = .claimRecovery "job-1" "scheduler" now) :
    ∀ e ∈ trace (perform noteHost) stoppedDb requests, Automatic "job-1" e.action := by
  intro e he
  rcases h e.action (action_mem he) with hr | ⟨now, hr⟩ <;> rw [hr] <;> exact ⟨nofun, nofun⟩

end PromptForge.Recovery
