import PromptForge.Intakes
import PromptForge.JournalHealth

/-!
# The start of a run

A start takes the lease of its session, gives the job a new run, registers the run in
memory and in the table of runs, journals the first event and schedules the task, one
after the other.
-/
namespace PromptForge.RunStart
open Json Numbers Tables Runs Store
open Jobs (given Job RunView)

/-- The calls that may raise for a reason of their own, before they take effect. -/
inductive Stage where
  | workspace
  | factory
  | lease
  | job
  | intake
  | publicView
  | choices
  | node (nodeId : String)
  | run
  | event
  | task
deriving DecidableEq

inductive StartError where
  | workspace
  | bindingMismatch
  | store (error : StoreError)
  | intake (error : Intakes.IntakeError)
  | raised (stage : Stage)

structure RunRow where
  runId : String
  sessionId : String
  projectId : String
  status : String

structure Run where
  runId : String
  jobId : String

/-- The databases, and below them what the orchestrator keeps in memory. -/
structure World where
  journal : Store.State
  intakes : Intakes.Db
  nodes : List (String × String)
  table : List RunRow
  runs : List Run
  leases : List (String × LeaseGrant)
  tasks : List String

/-- `workspaceRoot` is what `resolve(strict=True)` finds, if anything. -/
structure StartRequest where
  projectId : String
  workspaceRoot : Option String
  providerId : String
  modelId : Option String
  sessionId : Option String
  contract : Option Dict
  retryOfRunId : Option String
  reservedRunId : Option String
  jobId : Option String
  intakeId : Option String
  executionProfile : String

structure Moment where
  process : Process
  ttlSeconds : ℤ
  now : Time
  stamp : String
  runHex : String
  eventId : String
  jobIdentity : String
  manual : Bool
  trusted : Bool
  jitter : ℚ
  jobNow : ℚ
  elapsed : Number
  faults : Stage → Bool

structure Host where
  store : Store.Host
  jobs : Jobs.Host
  activityFields : Dict → Dict

abbrev Start := ExceptT StartError (StateM World)

section Calls
variable {τ : Type}

def boundary (m : Moment) (stage : Stage) : Start Unit :=
  if m.faults stage then throw (.raised stage) else pure ()

def onJournal (call : Store.Call τ) : Start τ := fun w =>
  ((call w.journal).1.mapError .store, { w with journal := (call w.journal).2 })

def onIntakes (tx : Intakes.Tx τ) : Start τ := fun w =>
  match tx w.intakes with
  | .error error => (.error (.intake error), w)
  | .ok (a, db) => (.ok a, { w with intakes := db })

def onJobs (tx : Jobs.Tx τ) : Start τ := onIntakes fun db =>
  match tx db.store with
  | .error error => .error (.job error)
  | .ok (a, store) => .ok (a, { db with store := store })

def atomically (body : Start τ) : Start τ := fun w =>
  match body w with
  | (.ok a, w') => (.ok a, w')
  | (.error error, w') => (.error error, { w' with
      journal := { w'.journal with db := w.journal.db }
      intakes := w.intakes
      table := w.table })

end Calls

def orText (text : Option String) (default : String) : String := if given text then text.getD "" else default

def runIdOf (m : Moment) (r : StartRequest) : String := orText r.reservedRunId ("agent-run-" ++ m.runHex)

def sessionKey (m : Moment) (r : StartRequest) : String := orText r.sessionId ("run:" ++ runIdOf m r)

def isBound (r : StartRequest) (workspace : String) : Bool :=
  r.contract.all fun contract => isText (contract.get "project_id") (some r.projectId) &&
    isText (contract.get "workspace_root") (some workspace) && isText (contract.get "session_id") r.sessionId

variable (host : Host) (m : Moment) (r : StartRequest)

def buildRun (workspace : String) : Start Unit := do
  boundary m .factory
  if isBound r workspace then pure () else throw .bindingMismatch

def acquire : Start LeaseGrant := do
  boundary m .lease
  onJournal (acquireLease host.store m.process (sessionKey m r) (runIdOf m r) m.ttlSeconds m.now)

def attachJob (workspace : String) : Start Job := do
  boundary m .job
  if given r.jobId then onJobs (Jobs.attach host.jobs (r.jobId.getD "") (runIdOf m r) m.jobNow)
  else onJobs (Jobs.create m.jobIdentity r.projectId (sessionKey m r) workspace (runIdOf m r) m.manual
    r.executionProfile m.jobNow)

def attachIntake (job : Job) : Start Job :=
  if given r.intakeId && !given r.retryOfRunId then do
    boundary m .intake
    onIntakes (Intakes.attach (r.intakeId.getD "") job.jobId)
  else pure job

def rememberChoices : Start Unit :=
  if r.contract.any (!·.isEmpty) && given r.sessionId then boundary m .choices else pure ()

def register (grant : LeaseGrant) (run : Run) : Start Unit := modify fun w =>
  { w with runs := w.runs ++ [run], leases := replaceRow Prod.fst (run.runId, grant) w.leases }

def initialGraph : List String := ["planning", "implementation", "validation", "review", "apply", "flash"]

def saveNode (run : Run) (nodeId : String) : Start Unit := do
  boundary m (.node nodeId)
  modify fun w => { w with nodes := if (run.runId, nodeId) ∈ w.nodes then w.nodes else w.nodes ++ [(run.runId, nodeId)] }

/-- A conflict on the run's id leaves its session and its project. -/
def saveRun (run : Run) : Start Unit := modify fun w =>
  match lookup RunRow.runId w.table run.runId with
  | some row => { w with table := updateRow RunRow.runId { row with status := "queued" } w.table }
  | none => { w with table := w.table ++ [⟨run.runId, sessionKey m r, r.projectId, "queued"⟩] }

def queuedView (run : Run) : RunView where
  runId := run.runId
  agentPlan := []
  status := "queued"
  classification := ""
  providerId := some r.providerId
  modelId := r.modelId
  httpStatus := none
  lastFailureOrigin := none
  requestReachedProvider := false
  retryAfterMs := 0

def persistRunTransaction (run : Run) : Start Unit := do
  let _ ← onJobs (Jobs.recordElapsed run.jobId m.elapsed m.jobNow)
  let _ ← onJobs (Jobs.updateRun host.jobs run.jobId (queuedView r run) none m.trusted m.jitter m.jobNow)
  saveRun m r run

def persistGraph (run : Run) : Start Unit := do
  initialGraph.forM (saveNode m run)
  atomically do
    boundary m .run
    persistRunTransaction host m r run

def queuedPayload (run : Run) : Dict :=
  [("stage", .str "planning"), ("message", .str "Action run queued"), ("event_type", .str "runtime.queued"),
    ("run_id", .str run.runId)]

def queuedEvent (grant : LeaseGrant) (run : Run) : Start Unit := atomically do
  boundary m .event
  persistRunTransaction host m r run
  let _ ← onJournal (appendEvent host.store m.process
    { sessionId := sessionKey m r
      payload := (host.activityFields (queuedPayload run)).foldl (fun d e => d.set e.1 e.2) (queuedPayload run)
      grant := some grant
      idempotencyKey := none
      eventVersion := 1
      now := m.now
      stamp := m.stamp
      eventId := m.eventId
      refusal := none })
  saveRun m r run

def launch (workspace : String) (grant : LeaseGrant) : Start Run := do
  let job ← attachJob host m r workspace
  let run : Run := ⟨runIdOf m r, job.jobId⟩
  let _ ← attachIntake m r job
  boundary m .publicView
  rememberChoices m r
  register grant run
  persistGraph host m r run
  queuedEvent host m r grant run
  boundary m .task
  modify fun w => { w with tasks := w.tasks ++ [run.runId] }
  return run

def startRun : Start Run := do
  boundary m .workspace
  match r.workspaceRoot with
  | none => throw .workspace
  | some workspace =>
    match (← get).runs.find? fun run => decide (run.runId = runIdOf m r) with
    | some run => return run
    | none => do
      buildRun m r workspace
      let grant ← acquire host m r
      launch host m r workspace grant

/-- When a start comes to hold the lease of its session. -/
structure Acquires (w : World) : Prop where
  resolved : m.faults .workspace = false ∧ ∃ workspace, r.workspaceRoot = some workspace ∧ isBound r workspace = true
  fresh : ∀ run ∈ w.runs, run.runId ≠ runIdOf m r
  reached : m.faults .factory = false ∧ m.faults .lease = false
  healthy : Healthy host.store (sessionKey m r) w.journal.db
  trusted : isQuarantined m.process (sessionKey m r) w.journal = false
  unheld : ∀ row, lease? w.journal.db (sessionKey m r) = some row → row.expiresAt ≤ m.now ∨ row.ownerId = runIdOf m r

/-- What a start that raises has to leave as it was. -/
structure NothingLeft (w w' : World) : Prop where
  lease : (∀ row, lease? w'.journal.db (sessionKey m r) = some row → row.expiresAt ≤ m.now) ∨
    lease? w'.journal.db (sessionKey m r) = lease? w.journal.db (sessionKey m r)
  memory : ∀ run ∈ w'.runs, run ∈ w.runs ∨ run.runId ∈ w'.tasks
  table : ∀ row ∈ w'.table, row ∈ w.table ∨ row.runId ∈ w'.tasks
  jobs : ∀ job ∈ w'.intakes.store.jobs, ∃ old ∈ w.intakes.store.jobs, old.jobId = job.jobId
  previous : ∀ jobId ∈ r.jobId, (Jobs.job? w'.intakes.store jobId).map Job.currentRunId =
    (Jobs.job? w.intakes.store jobId).map Job.currentRunId
  restart : ∀ m' r', sessionKey m' r' = sessionKey m r → Acquires host m' r' w → Acquires host m' r' w'

section Frames
variable {τ ρ : Type} {leases : List SessionLease}

lemma bind_apply (x : Start τ) (f : τ → Start ρ) (w : World) : (x >>= f) w =
    match x w with
    | (.ok a, w') => f a w'
    | (.error error, w') => (.error error, w') := by
  change (match x w with | (out, w') => ExceptT.bindCont f out w') = _
  rcases x w with ⟨error | a, w'⟩ <;> rfl

/-- However the call ends, it leaves the table of leases. -/
def Keeps (leases : List SessionLease) (x : Start τ) : Prop :=
  ∀ w, w.journal.db.leases = leases → (x w).2.journal.db.leases = leases

lemma keeps_bind {x : Start τ} {f : τ → Start ρ} (hx : Keeps leases x) (hf : ∀ a, Keeps leases (f a)) :
    Keeps leases (x >>= f) := by
  intro w hw
  have h := hx w hw
  rw [bind_apply]
  rcases hxw : x w with ⟨error | a, w'⟩ <;> rw [hxw] at h
  · exact h
  · exact hf a w' h

lemma keeps_pure (a : τ) : Keeps leases (pure a) := fun _ h => h

lemma keeps_modify {f : World → World} (h : ∀ w, (f w).journal = w.journal) : Keeps leases (modify f) :=
  fun w hw => (congrArg (·.db.leases) (h w)).trans hw

lemma keeps_boundary (stage : Stage) : Keeps leases (boundary m stage) := by
  intro w hw
  unfold boundary
  split <;> exact hw

lemma keeps_onIntakes (tx : Intakes.Tx τ) : Keeps leases (onIntakes tx) := by
  intro w hw
  unfold onIntakes
  split <;> exact hw

lemma keeps_atomically {body : Start τ} (h : Keeps leases body) : Keeps leases (atomically body) := by
  intro w hw
  have hbody := h w hw
  unfold atomically
  rcases hb : body w with ⟨error | a, w'⟩ <;> rw [hb] at hbody
  · exact hw
  · exact hbody

lemma keeps_append (req : AppendRequest) : Keeps leases (onJournal (appendEvent host.store m.process req)) := by
  intro w hw
  have hdoes : Does host.store _ _ _ _ := does_perform w.journal (.append m.process req)
  change (appendEvent host.store m.process req w.journal).2.db.leases = leases
  rw [← hw]
  generalize hout : Store.perform host.store w.journal (.append m.process req) = out at hdoes
  have hs : (appendEvent host.store m.process req w.journal).2 = out.2 := by rw [← hout]; rfl
  rw [hs]
  generalize out.1 = reply, out.2 = s at hdoes
  cases hdoes with
  | nothing _ _ hdb _ => rw [hdb]
  | quarantines _ _ _ _ hdb => rw [hdb]; rfl
  | stores _ _ _ _ _ happ => exact happ.leases

end Frames

variable {host m r} {leases : List SessionLease}

lemma keeps_persistRunTransaction (run : Run) : Keeps leases (persistRunTransaction host m r run) := by
  refine keeps_bind (keeps_onIntakes _) fun _ => keeps_bind (keeps_onIntakes _) fun _ => keeps_modify fun w => ?_
  split <;> rfl

lemma keeps_persistGraph (run : Run) : Keeps leases (persistGraph host m r run) := by
  have hnode : ∀ nodeId, Keeps leases (saveNode m run nodeId) := fun nodeId =>
    keeps_bind (keeps_boundary m _) fun _ => keeps_modify fun _ => rfl
  have hnodes : ∀ nodes : List String, Keeps leases (nodes.forM (saveNode m run)) := by
    intro nodes
    induction nodes with
    | nil => exact keeps_pure ()
    | cons nodeId nodes ih => exact keeps_bind (hnode nodeId) fun _ => ih
  exact keeps_bind (hnodes _) fun _ =>
    keeps_atomically (keeps_bind (keeps_boundary m _) fun _ => keeps_persistRunTransaction run)

lemma keeps_queuedEvent (grant : LeaseGrant) (run : Run) : Keeps leases (queuedEvent host m r grant run) := by
  refine keeps_atomically (keeps_bind (keeps_boundary m _) fun _ => keeps_bind (keeps_persistRunTransaction run)
    fun _ => keeps_bind (keeps_append host m _) fun _ => keeps_modify fun w => ?_)
  split <;> rfl

/-- There is no step back: nothing that follows gives the lease up. -/
lemma keeps_launch (workspace : String) (grant : LeaseGrant) : Keeps leases (launch host m r workspace grant) := by
  have hattach : Keeps leases (attachJob host m r workspace) := by
    refine keeps_bind (keeps_boundary m _) fun _ => ?_
    split <;> exact keeps_onIntakes _
  have hintake : ∀ job, Keeps leases (attachIntake m r job) := by
    intro job
    unfold attachIntake
    split
    · exact keeps_bind (keeps_boundary m _) fun _ => keeps_onIntakes _
    · exact keeps_pure job
  have hchoices : Keeps leases (rememberChoices m r) := by
    unfold rememberChoices
    split
    · exact keeps_boundary m _
    · exact keeps_pure ()
  exact keeps_bind hattach fun job => keeps_bind (hintake job) fun _ => keeps_bind (keeps_boundary m _) fun _ =>
    keeps_bind hchoices fun _ => keeps_bind (keeps_modify fun _ => rfl) fun _ =>
    keeps_bind (keeps_persistGraph _) fun _ => keeps_bind (keeps_queuedEvent grant _) fun _ =>
    keeps_bind (keeps_boundary m _) fun _ => keeps_bind (keeps_modify fun _ => rfl) fun _ => keeps_pure _

variable (host m r) in
/-- A start that raises before it holds the lease can only have found the journal damaged. -/
def Untouched (w w' : World) : Prop :=
  w' = w ∨ ¬ Healthy host.store (sessionKey m r) w.journal.db ∧
    ∃ journal, w' = { w with journal := journal } ∧ journal.db.leases = w.journal.db.leases

lemma nothingLeft_untouched {w w' : World} (h : Untouched host m r w w') :
    NothingLeft host m r w w' := by
  rcases h with rfl | ⟨hsick, journal, rfl, hleases⟩
  · exact ⟨.inr rfl, fun _ h => .inl h, fun _ h => .inl h, fun job h => ⟨job, h, rfl⟩, fun _ _ => rfl,
      fun _ _ _ h => h⟩
  · refine ⟨.inr ?_, fun _ h => .inl h, fun _ h => .inl h, fun job h => ⟨job, h, rfl⟩, fun _ _ => rfl,
      fun m' r' hkey h => absurd (hkey ▸ h.healthy) hsick⟩
    unfold lease?
    rw [hleases]

lemma boundary_apply (stage : Stage) (w : World) :
    boundary m stage w = (if m.faults stage then .error (.raised stage) else .ok (), w) := by
  unfold boundary
  split <;> rfl

variable (m r) in
/-- The lease row of a session whose start came to hold it. -/
def Held (w w' : World) : Prop :=
  lease? w'.journal.db (sessionKey m r) = some ⟨sessionKey m r, runIdOf m r,
    (lease? w.journal.db (sessionKey m r)).elim 0 SessionLease.leaseEpoch + 1, expiry m.now m.ttlSeconds⟩

lemma not_unheld_iff (row : Option SessionLease) (now : Time) (owner : String) :
    (row.any fun row => decide (now < row.expiresAt ∧ row.ownerId ≠ owner)) = true ↔
      ¬ ∀ held, row = some held → held.expiresAt ≤ now ∨ held.ownerId = owner := by
  cases row <;> simp

lemma acquire_cases (w : World) :
    (∃ error w', acquire host m r w = (.error error, w') ∧ Untouched host m r w w' ∧ ¬ Acquires host m r w) ∨
    ∃ grant w', acquire host m r w = (.ok grant, w') ∧
      ((m.faults .workspace = false ∧ ∃ workspace, r.workspaceRoot = some workspace ∧ isBound r workspace = true) →
        (∀ run ∈ w.runs, run.runId ≠ runIdOf m r) → m.faults .factory = false → Acquires host m r w) ∧
      Held m r w w' := by
  rw [show acquire host m r w = _ from bind_apply .., boundary_apply]
  by_cases hlease : m.faults .lease = true
  · rw [if_pos hlease]
    exact .inl ⟨_, w, rfl, .inl rfl, fun h => Bool.noConfusion (hlease.symm.trans h.reached.2)⟩
  rw [if_neg hlease]
  dsimp only [onJournal, acquireLease, requireHealthyJournal]
  rcases hverify : verifySnapshot host.store (sessionKey m r) w.journal.db with reason | result
  · have hsick : ¬ Healthy host.store (sessionKey m r) w.journal.db := fun ⟨_, h⟩ => by cases hverify.symm.trans h
    exact .inl ⟨_, _, rfl, .inr ⟨hsick, _, rfl, rfl⟩, fun h => hsick h.healthy⟩
  dsimp only
  by_cases htrusted : isQuarantined m.process (sessionKey m r) w.journal = true
  · rw [if_pos htrusted]
    exact .inl ⟨_, w, rfl, .inl rfl, fun h => Bool.noConfusion (htrusted.symm.trans h.trusted)⟩
  rw [if_neg htrusted]
  dsimp only [commit, acquireTx]
  have hiff := not_unheld_iff (lease? w.journal.db (sessionKey m r)) m.now (runIdOf m r)
  split_ifs with hheld
  · exact .inl ⟨_, w, rfl, .inl rfl, fun h => hiff.1 hheld h.unheld⟩
  · refine .inr ⟨_, _, rfl, fun hresolved hfresh hfactory => ⟨hresolved, hfresh, ⟨hfactory,
      Bool.eq_false_of_not_eq_true hlease⟩, ⟨result, hverify⟩, Bool.eq_false_of_not_eq_true htrusted, ?_⟩,
      (lookup_replaceRow _ _ _).trans (if_pos rfl)⟩
    exact not_not.1 (mt hiff.2 hheld)

/-- A start returns a run it knows, raises without having the lease, or goes on with it. -/
lemma startRun_cases (w : World) :
    (∃ run, startRun host m r w = (.ok run, w)) ∨
    Untouched host m r w (startRun host m r w).2 ∧ ¬ Acquires host m r w ∨
    Acquires host m r w ∧ ∃ workspace grant w', startRun host m r w = launch host m r workspace grant w' ∧
      Held m r w w' := by
  unfold startRun
  rw [bind_apply, boundary_apply]
  by_cases hworkspace : m.faults .workspace = true
  · rw [if_pos hworkspace]
    exact .inr (.inl ⟨.inl rfl, fun h => Bool.noConfusion (hworkspace.symm.trans h.resolved.1)⟩)
  rw [if_neg hworkspace]
  rcases hroot : r.workspaceRoot with _ | workspace
  · refine .inr (.inl ⟨.inl rfl, fun h => ?_⟩)
    obtain ⟨_, hsome, -⟩ := h.resolved.2
    cases hroot.symm.trans hsome
  dsimp only
  rw [bind_apply, show (get : Start World) w = (.ok w, w) from rfl]
  dsimp only
  rcases hfind : w.runs.find? fun run => decide (run.runId = runIdOf m r) with _ | run
  · have hnew : ∀ run ∈ w.runs, run.runId ≠ runIdOf m r := fun run hrun heq =>
      List.find?_eq_none.1 hfind run hrun (decide_eq_true heq)
    simp only [hfind]
    rw [bind_apply, show buildRun m r workspace w = _ from bind_apply .., boundary_apply]
    by_cases hfactory : m.faults .factory = true
    · rw [if_pos hfactory]
      exact .inr (.inl ⟨.inl rfl, fun h => Bool.noConfusion (hfactory.symm.trans h.reached.1)⟩)
    rw [if_neg hfactory]
    dsimp only
    by_cases hbound : isBound r workspace = true
    · rw [if_pos hbound]
      change (∃ run, (acquire host m r >>= launch host m r workspace) w = (.ok run, w)) ∨
        Untouched host m r w ((acquire host m r >>= launch host m r workspace) w).2 ∧ _ ∨ _ ∧ ∃ workspace grant w',
          (acquire host m r >>= launch host m r _) w = launch host m r workspace grant w' ∧ _
      rw [bind_apply]
      rcases acquire_cases w with ⟨error, w', hacquire, hleft, hno⟩ | ⟨grant, w', hacquire, hyes, hheld⟩ <;> rw [hacquire]
      · exact .inr (.inl ⟨hleft, hno⟩)
      · exact .inr (.inr ⟨hyes ⟨Bool.eq_false_of_not_eq_true hworkspace, workspace, hroot, hbound⟩ hnew
          (Bool.eq_false_of_not_eq_true hfactory), workspace, grant, w', rfl, hheld⟩)
    · rw [if_neg hbound]
      refine .inr (.inl ⟨.inl rfl, fun h => ?_⟩)
      obtain ⟨_, hsome, h⟩ := h.resolved.2
      cases hroot.symm.trans hsome
      exact hbound h
  · simp only [hfind]
    exact .inl ⟨run, rfl⟩

/-- A start that raises leaves nothing behind exactly if it had not come to hold the lease. -/
theorem nothingLeft_iff {w : World} {error : StartError} (hraises : (startRun host m r w).1 = .error error) :
    NothingLeft host m r w (startRun host m r w).2 ↔ ¬ Acquires host m r w := by
  rcases @startRun_cases host m r w with ⟨run, h⟩ | ⟨hleft, hno⟩ | ⟨hyes, workspace, grant, w', h, hheld⟩
  · rw [h] at hraises
    cases hraises
  · exact iff_of_true (nothingLeft_untouched hleft) hno
  · refine iff_of_false (fun hleft => ?_) (not_not.2 hyes)
    have hrow : Held m r w (startRun host m r w).2 := by
      rw [h]
      unfold Held lease?
      rw [keeps_launch workspace grant w' rfl]
      exact hheld
    rcases hleft.lease with hfree | hsame
    · have hpos : 0 < clampTtl m.ttlSeconds := lt_of_lt_of_le (by decide) (le_max_left 5 _)
      exact not_le.2 (lt_add_of_pos_right m.now (mul_pos hpos (by decide))) (hfree _ hrow)
    · exact Nat.succ_ne_self _ (congrArg (fun row => row.elim 0 SessionLease.leaseEpoch) (hrow.symm.trans hsame))

/-- Nothing fails by itself. -/
def sampleMoment (hex : String) : Moment :=
  ⟨0, 20, 0, "now", hex, "event", "job-1", false, true, 1, 0, .int 0, fun _ => false⟩

def sampleRequest (root intakeId : Option String) : StartRequest :=
  ⟨"project", root, "provider", none, some "session", none, none, none, none, intakeId, "standard"⟩

def sampleWorld : World := ⟨.initial, .initial, [], [], [], [], []⟩

/-- The workspace is gone. -/
theorem nothingLeft_missing : (∀ host, ¬ Acquires host (sampleMoment "a") (sampleRequest none none) sampleWorld) ∧
    ∀ host, NothingLeft host (sampleMoment "a") (sampleRequest none none) sampleWorld
      (startRun host (sampleMoment "a") (sampleRequest none none) sampleWorld).2 := by
  have hno : ∀ host, ¬ Acquires host (sampleMoment "a") (sampleRequest none none) sampleWorld := fun host h => by
    obtain ⟨_, hroot, -⟩ := h.resolved.2
    cases hroot
  exact ⟨hno, fun host => (@nothingLeft_iff host _ _ _ .workspace rfl).2 (hno host)⟩

def sampleHost : Host :=
  ⟨⟨id, fun _ => "", fun _ => "", fun _ => .ok 0, fun _ => .ok "", fun _ _ => .ok none⟩, ⟨fun _ => "", fun _ => ""⟩,
    fun _ => []⟩

/-- The intake is unknown: its job stays, and the session is leased to a run that never was. -/
theorem start_leaves_lease : ∃ w', startRun sampleHost (sampleMoment "a") (sampleRequest (some "/w") (some "intake"))
      sampleWorld = (.error (.intake (.value "AGENT_INTAKE_NOT_FOUND")), w') ∧
    ¬ NothingLeft sampleHost (sampleMoment "a") (sampleRequest (some "/w") (some "intake")) sampleWorld w' ∧
    (startRun sampleHost (sampleMoment "b") (sampleRequest (some "/w") none) w').1 = .error (.store .leaseHeld) := by
  refine ⟨_, rfl, fun h => ?_, rfl⟩
  obtain ⟨_, hold, -⟩ := h.jobs _ (.head _)
  cases hold

end PromptForge.RunStart
