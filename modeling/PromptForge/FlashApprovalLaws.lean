import PromptForge.ApprovalsSingleUse
import PromptForge.FlashApproval

namespace PromptForge.FlashApproval
open Runs Tables Json
open Approvals (find Table fingerprintOf Row Kept rowOf)

lemma present_cases (build : Dict) (key : String) :
    (Dict.get build key = .null ∧ present build key = none) ∨ present build key = some (key, Dict.get build key) := by
  unfold present
  split
  · rename_i h
    exact Or.inl ⟨h, rfl⟩
  · exact Or.inr rfl

lemma get_cons (k : String) (v : Value) (d : Dict) (key : String) :
    Dict.get ((k, v) :: d) key = if k = key then v else Dict.get d key := by
  unfold Dict.get Dict.get?
  rw [lookup_cons]
  split <;> rfl

lemma get_present (build : Dict) (keys : List String) (key : String) :
    Dict.get (keys.filterMap (present build)) key = if key ∈ keys then Dict.get build key else .null := by
  induction keys with
  | nil => rfl
  | cons k keys ih =>
    by_cases hk : k = key
    · subst hk
      rw [if_pos (List.mem_cons_self ..)]
      rcases present_cases build k with ⟨hnull, hp⟩ | hp
      · -- an absent key is not found among the others either
        rw [List.filterMap_cons_none hp, ih, hnull, ite_self]
      · rw [List.filterMap_cons_some hp, get_cons, if_pos rfl]
    · have hmem : key ∈ k :: keys ↔ key ∈ keys := by simp [Ne.symm hk]
      simp only [hmem]
      rcases present_cases build k with ⟨-, hp⟩ | hp
      · rw [List.filterMap_cons_none hp, ih]
      · rw [List.filterMap_cons_some hp, get_cons, if_neg hk, ih]

lemma get_artifact (build : Dict) {key : String} (h : key ∈ artifactKeys) :
    Dict.get (artifactIdentity build) key = Dict.get build key := by
  unfold artifactIdentity
  rw [get_present, if_pos h]

lemma approvedArtifactHash_artifact (build : Dict) :
    approvedArtifactHash (artifactIdentity build) = approvedArtifactHash build := by
  unfold approvedArtifactHash Dict.getOr
  rw [get_artifact build (by decide), get_artifact build (by decide), get_artifact build (by decide)]

lemma flashBinding_ok {run : Run} {detected : List Board} {revision : String} {binding : Binding}
    (h : flashBinding run detected revision = .ok binding) : binding = bindingOf run detected revision := by
  unfold flashBinding finalize at h
  obtain ⟨-, -, h⟩ := ok_of_bind h
  obtain ⟨-, -, h⟩ := ok_of_bind h
  obtain ⟨-, -, h⟩ := ok_of_bind h
  exact (Except.ok.inj h).symm

structure Carries (run : Run) (binding : Binding) : Prop where
  runId : binding.runId = run.runId
  projectId : binding.projectId = run.projectId
  port : binding.port = run.flashPort
  boardType : binding.boardType = run.flashBoardType
  environment : binding.environment = run.flashEnvironment
  startMonitor : binding.startMonitorAfterFlash = run.startMonitorAfterFlash
  artifact : binding.artifact = artifactIdentity run.build

lemma carries_bindingOf (run : Run) (detected : List Board) (revision : String) :
    Carries run (bindingOf run detected revision) := ⟨rfl, rfl, rfl, rfl, rfl, rfl, rfl⟩

structure FromBinding (request : FlashRequest) (binding : Binding) : Prop where
  runId : request.runId = binding.runId
  projectId : request.projectId = binding.projectId
  port : request.port = binding.port
  boardType : request.boardType = binding.boardType
  environment : request.environment = binding.environment
  startMonitor : request.startMonitorAfterFlash = binding.startMonitorAfterFlash
  artifactHash : request.expectedArtifactHash = approvedArtifactHash binding.artifact
  manifest : request.artifactManifest = Dict.get binding.artifact "artifact_manifest"

lemma fromBinding_of_carries {run : Run} {binding : Binding} (h : Carries run binding) :
    FromBinding (requestOf run) binding where
  runId := h.runId.symm
  projectId := h.projectId.symm
  port := h.port.symm
  boardType := h.boardType.symm
  environment := h.environment.symm
  startMonitor := h.startMonitor.symm
  artifactHash := by rw [h.artifact, approvedArtifactHash_artifact]; rfl
  manifest := by rw [h.artifact, get_artifact _ (by decide)]; rfl

section Spec
variable (host : Host)

def SameBinding (b b' : Binding) : Prop :=
  b = b' ∨ (b ≠ b' ∧ host.sha256 ("flash", b) = host.sha256 ("flash", b'))

lemma sameBinding_of_fingerprint {b b' : Binding}
    (h : fingerprintOf host.sha256 "flash" b = fingerprintOf host.sha256 "flash" b') :
    SameBinding host b b' := by
  by_cases hb : b = b'
  · exact Or.inl hb
  · exact Or.inr ⟨hb, h⟩

/-- Every start of the executor has an approval of its own, whose binding it was confirmed
    with and which says all that it is asked to flash. -/
structure AsApproved (s : System) : Prop where
  once : (s.started.map Started.approvalId).Nodup
  bound : ∀ x ∈ s.started, ∃ y ∈ s.issued, y.approvalId = x.approvalId ∧
    SameBinding host x.confirmed y.binding ∧ FromBinding x.request x.confirmed

structure Ready (s : System) (run : Run) (now : Time) : Prop where
  found : s.runs run.runId = some run
  waits : run.status = .awaitingFlashConfirmation
  task : s.tasks run.runId = none
  lease : s.leaseFree run.sessionId run.runId now = true

structure Proposes (s : System) (run : Run) (approvalId : String) (arguments : Arguments) (detected : List Board)
    (revision : String) (fault : Fault) (binding : Binding) : Prop where
  executor : host.flashExecutor = true
  approval : run.approvalId = some approvalId
  early : fault ≠ .early
  fenced : s.fenced run.runId = false
  proposed : flashBinding (run.with arguments) detected revision = .ok binding
  operation : fault ≠ .operation

structure Due (s : System) (run : Run) (y : Issued) (arguments : Arguments) (detected : List Board)
    (revision : String) (now : Time) : Prop where
  ready : Ready s run now
  issued : y ∈ s.issued
  proposes : Proposes host s run y.approvalId arguments detected revision .none y.binding
  unexpired : ∀ row, find s.approvals y.approvalId = some row → now < row.payload.expiresAt

def Confirmable (s : System) : Prop :=
  ∀ (run : Run) (y : Issued) (arguments : Arguments) (detected : List Board) (revision : String) (now stamp : Time),
    Due host s run y arguments detected revision now →
    (step host s (.confirm run.runId arguments detected revision now stamp .none)).1 = .accepted

def Action.isConfirm : Action → Bool
  | .confirm .. => true
  | _ => false

def NoEffect (s : System) (action : Action) : Prop :=
  action.isConfirm = true → (step host s action).1 ≠ .accepted →
    ∀ (run : Run) (y : Issued) (arguments : Arguments) (detected : List Board) (revision : String) (now stamp : Time),
      Due host s run y arguments detected revision now →
      (step host (step host s action).2 (.confirm run.runId arguments detected revision now stamp .none)).1 = .accepted

/-- What is recorded first for an approval is its binding, and a confirmation that consumes the
    approval does not raise after that. -/
def Safe (s : System) : Action → Prop
  | .confirm runId arguments detected revision now _ fault =>
    ∀ run y binding, s.runs runId = some run → Ready s run now → y ∈ s.issued →
      Proposes host s run y.approvalId arguments detected revision fault binding →
      (lookup FlashOperation.operationId s.operations ⟨run.runId, y.approvalId⟩ = none → binding = y.binding) ∧
      (fault = .event → ∀ row, find s.approvals y.approvalId = some row →
        row.fingerprint = fingerprintOf host.sha256 "flash" binding → row.payload.expiresAt ≤ now)
  | _ => True

end Spec

variable {fingerprint : String}

lemma recordOperation_ok {id : OperationId} {status : Operations.OperationStatus}
    {rows rows' : List FlashOperation} (h : recordOperation id status fingerprint rows = .ok rows') :
    (∃ row, lookup FlashOperation.operationId rows' id = some row ∧ row.fingerprint = fingerprint ∧
        row.status = status) ∧
      ∀ id', id' ≠ id → lookup FlashOperation.operationId rows' id' = lookup FlashOperation.operationId rows id' := by
  unfold recordOperation at h
  split at h
  · rename_i row hrow
    split_ifs at h with hfp hsettled
    rw [not_not] at hfp
    obtain rfl := Except.ok.inj h
    have hkey := lookup_key hrow
    constructor
    · refine ⟨{ row with status := status }, ?_, hfp, rfl⟩
      rw [lookup_updateRow, hrow, Option.map_some, if_pos rfl]
    · intro id' hne
      rw [lookup_updateRow]
      rcases hl : lookup FlashOperation.operationId rows id' with _ | x
      · rfl
      · rw [Option.map_some, if_neg]
        rw [lookup_key hl, show FlashOperation.operationId { row with status := status } = id from hkey]
        exact hne
  · rename_i hnone
    split_ifs at h
    obtain rfl := Except.ok.inj h
    constructor
    · refine ⟨⟨id, fingerprint, status⟩, ?_, rfl, rfl⟩
      rw [lookup_append, hnone, lookup_cons, if_pos rfl]
      rfl
    · intro id' hne
      rw [lookup_append, lookup_cons, if_neg (Ne.symm hne), lookup_nil, Option.or_none]

lemma recordOperation_prepared {id : OperationId} {rows : List FlashOperation}
    (h : ∀ row, lookup FlashOperation.operationId rows id = some row → row.fingerprint = fingerprint ∧
      row.status = .prepared) : ∃ rows', recordOperation id .prepared fingerprint rows = .ok rows' := by
  unfold recordOperation
  rcases hrow : lookup FlashOperation.operationId rows id with _ | row
  · exact ⟨_, if_pos (Or.inl rfl)⟩
  · obtain ⟨hfp, hst⟩ := h row hrow
    refine ⟨updateRow FlashOperation.operationId { row with status := .prepared } rows, ?_⟩
    simp [hfp, hst]

section Inv
variable (host : Host)

def Recorded (approvals : Table) (y : Issued) : Prop :=
  ∃ row, find approvals y.approvalId = some row ∧
    row.fingerprint = fingerprintOf host.sha256 "flash" y.binding

def Spent (approvals : Table) (approvalId : String) : Prop :=
  ∃ row, find approvals approvalId = some row ∧ row.status ≠ .pending

def Pending (approvals : Table) (approvalId : String) : Prop :=
  ∃ row, find approvals approvalId = some row ∧ row.status = .pending

def Open (operations : List FlashOperation) (y : Issued) : Prop :=
  ∀ row, lookup FlashOperation.operationId operations ⟨y.runId, y.approvalId⟩ = some row →
    row.fingerprint = host.digest y.binding ∧ row.status = .prepared

/-- A run that waits has an approval of its own that is pending, and in a safe run an
    operation that does not stand in its way. -/
def AwaitOk (safe : Prop) (approvals : Table) (issued : List Issued) (operations : List FlashOperation)
    (run : Run) : Prop :=
  ∃ y ∈ issued, run.approvalId = some y.approvalId ∧ y.runId = run.runId ∧ Pending approvals y.approvalId ∧
    (safe → Open host operations y)

def Idle (run : Run) : Prop := run.status ≠ .completed ∧ run.status ≠ .awaitingFlashConfirmation

/-- A task that flashes has an approval of its run, spent for a binding with its fingerprint;
    before the executor starts the run still carries that binding. -/
def TaskOk (approvals : Table) (issued : List Issued) (started : List Started) (runs : String → Option Run)
    (runId approvalId : String) (binding : Binding) (begun : Bool) : Prop :=
  (∃ y ∈ issued, y.approvalId = approvalId ∧ y.runId = runId ∧
      fingerprintOf host.sha256 "flash" binding = fingerprintOf host.sha256 "flash" y.binding) ∧
    Spent approvals approvalId ∧
    (begun = false → ∀ x ∈ started, x.approvalId ≠ approvalId) ∧
    ∃ run, runs runId = some run ∧ Idle run ∧ (begun = false → Carries run binding)

def StartedOk (approvals : Table) (issued : List Issued) (x : Started) : Prop :=
  Spent approvals x.approvalId ∧ (∃ y ∈ issued, y.approvalId = x.approvalId ∧
    fingerprintOf host.sha256 "flash" x.confirmed = fingerprintOf host.sha256 "flash" y.binding) ∧
    FromBinding x.request x.confirmed

structure Inv (safe : Prop) (s : System) : Prop where
  ids : ∀ id run, s.runs id = some run → run.runId = id
  rowIds : ∀ id run, s.rows id = some run → run.runId = id
  keys : (s.approvals.map Row.approvalId).Nodup
  issuedOnce : (s.issued.map Issued.approvalId).Nodup
  recorded : ∀ y ∈ s.issued, Recorded host s.approvals y
  once : (s.started.map Started.approvalId).Nodup
  started : ∀ x ∈ s.started, StartedOk host s.approvals s.issued x
  operations : ∀ id row, lookup FlashOperation.operationId s.operations id = some row →
    ∃ y ∈ s.issued, y.approvalId = id.approvalId
  tasks : ∀ id approvalId binding begun, s.tasks id = some (.flash approvalId binding begun) →
    TaskOk host s.approvals s.issued s.started s.runs id approvalId binding begun
  awaiting : ∀ id run, s.runs id = some run → run.status = .awaitingFlashConfirmation →
    AwaitOk host safe s.approvals s.issued s.operations run

end Inv

section Changes
variable {host : Host} {safe : Prop} {s : System}

lemma inv_initial : Inv host safe .initial where
  ids _ _ h := by cases h
  rowIds _ _ h := by cases h
  keys := List.nodup_nil
  issuedOnce := List.nodup_nil
  recorded _ h := by cases h
  once := List.nodup_nil
  started _ h := by cases h
  operations _ _ h := by cases h
  tasks _ _ _ _ h := by cases h
  awaiting _ _ h := by cases h

variable {t : Table} {approvalId : String}

lemma Spent.kept {t' : Table} (h : Spent t approvalId) (hk : Kept t t') :
    Spent t' approvalId := by
  obtain ⟨row, hrow, hst⟩ := h
  obtain ⟨row', hrow', -, -, hback⟩ := hk approvalId row hrow
  exact ⟨row', hrow', fun hp => hst (hback hp)⟩

variable {y : Issued}

lemma Recorded.kept {t' : Table} (h : Recorded host t y) (hk : Kept t t') :
    Recorded host t' y := by
  obtain ⟨row, hrow, hfp⟩ := h
  obtain ⟨row', hrow', hfp', -, -⟩ := hk y.approvalId row hrow
  exact ⟨row', hrow', hfp'.trans hfp⟩

lemma Pending.not_spent (h : Pending t approvalId) :
    ¬ Spent t approvalId := by
  rintro ⟨row', hrow', hne⟩
  obtain ⟨row, hrow, hst⟩ := h
  rw [hrow] at hrow'
  obtain rfl := Option.some.inj hrow'
  exact hne hst

variable (h : Inv host safe s)

include h in
lemma Inv.issued_eq {y' : Issued} (hy : y ∈ s.issued) (hy' : y' ∈ s.issued)
    (hid : y.approvalId = y'.approvalId) : y = y' := List.inj_on_of_nodup_map h.issuedOnce hy hy' hid

include h in
lemma Inv.setRun {run : Run}
    (hawait : run.status = .awaitingFlashConfirmation → AwaitOk host safe s.approvals s.issued s.operations run)
    (htask : ∀ approvalId binding begun, s.tasks run.runId = some (.flash approvalId binding begun) →
      Idle run ∧ (begun = false → Carries run binding)) : Inv host safe (s.setRun run) := by
  refine { h with ids := ?_, tasks := ?_, awaiting := ?_ }
  · intro id run' hrun
    rcases of_update hrun with ⟨rfl, hsame⟩ | ⟨-, hrun⟩
    · rw [← Option.some.inj hsame]
    · exact h.ids id run' hrun
  · intro id approvalId binding begun ht
    obtain ⟨hy, hspent, hfresh, run', hrun, hrest⟩ := h.tasks id approvalId binding begun ht
    refine ⟨hy, hspent, hfresh, ?_⟩
    by_cases hid : id = run.runId
    · subst hid
      exact ⟨run, Function.update_self .., htask approvalId binding begun ht⟩
    · exact ⟨run', (Function.update_of_ne hid ..).trans hrun, hrest⟩
  · intro id run' hrun hst
    rcases of_update hrun with ⟨rfl, hsame⟩ | ⟨-, hrun⟩
    · obtain rfl := Option.some.inj hsame
      exact hawait hst
    · exact h.awaiting id run' hrun hst

include h in
lemma Inv.persist (run : Run) : Inv host safe (s.persist run) := by
  refine { h with rowIds := ?_ }
  intro id run' hrun
  rcases of_update hrun with ⟨rfl, hsame⟩ | ⟨-, hrun⟩
  · rw [← Option.some.inj hsame]
  · exact h.rowIds id run' hrun

section Event
variable (run : Run) (fault : Fault)

@[simp] lemma event_runs : (s.event run fault).runs = s.runs := by unfold System.event; split <;> rfl

@[simp] lemma event_approvals : (s.event run fault).approvals = s.approvals := by unfold System.event; split <;> rfl

@[simp] lemma event_issued : (s.event run fault).issued = s.issued := by unfold System.event; split <;> rfl

@[simp] lemma event_started : (s.event run fault).started = s.started := by unfold System.event; split <;> rfl

end Event

include h in
lemma Inv.event (run : Run) (fault : Fault) : Inv host safe (s.event run fault) := by
  unfold System.event
  split
  · exact h
  · exact h.persist run

include h in
lemma Inv.setTask (runId : String) {task : Option Task}
    (htask : ∀ approvalId binding begun, task = some (.flash approvalId binding begun) →
      TaskOk host s.approvals s.issued s.started s.runs runId approvalId binding begun) :
    Inv host safe (s.setTask runId task) := by
  refine { h with tasks := ?_ }
  intro id approvalId binding begun ht
  rcases of_update ht with ⟨rfl, hsame⟩ | ⟨-, ht⟩
  · exact htask approvalId binding begun hsame
  · exact h.tasks id approvalId binding begun ht

variable {operations : List FlashOperation}

include h in
lemma Inv.setOperations (hissued : ∀ id row, lookup FlashOperation.operationId operations id = some row →
      ∃ y ∈ s.issued, y.approvalId = id.approvalId)
    (hopen : ∀ id run y, s.runs id = some run → run.status = .awaitingFlashConfirmation → y ∈ s.issued →
      run.approvalId = some y.approvalId → y.runId = id → safe → Open host s.operations y → Open host operations y) :
    Inv host safe { s with operations := operations } := by
  refine { h with operations := hissued, awaiting := ?_ }
  intro id run hrun hst
  obtain ⟨y, hy, hid, hrunId, hpending, hop⟩ := h.awaiting id run hrun hst
  exact ⟨y, hy, hid, hrunId, hpending, fun hs =>
    hopen id run y hrun hst hy hid (hrunId.trans (h.ids id run hrun)) hs (hop hs)⟩

lemma lookup_interrupt (runId : String) (id : OperationId) {row' : FlashOperation}
    (h : lookup FlashOperation.operationId (s.interrupt runId).operations id = some row') :
    ∃ row, lookup FlashOperation.operationId s.operations id = some row ∧ row'.fingerprint = row.fingerprint ∧
      (row.status = .prepared → row'.status = .prepared) := by
  have hkey : ∀ r : FlashOperation, FlashOperation.operationId { r with status := .unknown } = r.operationId :=
    fun _ => rfl
  change lookup FlashOperation.operationId (updateWhere _ _ s.operations) id = some row' at h
  rw [lookup_updateWhere hkey] at h
  obtain ⟨row, hrow, rfl⟩ := Option.map_eq_some_iff.1 h
  refine ⟨row, hrow, ?_, ?_⟩
  · split <;> rfl
  · intro hp
    split
    · rename_i hw
      rw [(of_decide_eq_true hw).2] at hp
      cases hp
    · exact hp

include h in
lemma Inv.interrupt (runId : String) : Inv host safe (s.interrupt runId) := by
  apply h.setOperations
  · intro id row' hrow'
    obtain ⟨row, hrow, -⟩ := lookup_interrupt runId id hrow'
    exact h.operations id row hrow
  · intro id run y _ _ _ _ _ _ hopen row' hrow'
    obtain ⟨row, hrow, hfp, hst⟩ := lookup_interrupt runId _ hrow'
    obtain ⟨hfp', hst'⟩ := hopen row hrow
    exact ⟨hfp.trans hfp', hst hst'⟩

structure IsIssued (s s' : System) (run : Run) (approvalId : String) (binding : Binding) (approvals : Table) :
    Prop where
  system : s' = { s with approvals := approvals, issued := s.issued ++ [⟨approvalId, run.runId, binding⟩] }
  fresh : find s.approvals approvalId = none
  keys : (s.approvals.map Row.approvalId).Nodup → (approvals.map Row.approvalId).Nodup
  row : ∃ row, find approvals approvalId = some row ∧
    row.fingerprint = fingerprintOf host.sha256 "flash" binding ∧ row.status = .pending
  old : ∀ id row, find s.approvals id = some row → find approvals id = some row

variable {binding : Binding} {s' : System}

lemma issue_ok {run : Run} {now : Time}
    (h : issue host s run approvalId binding now = .ok s') :
    ∃ approvals, @IsIssued host s s' run approvalId binding approvals := by
  unfold issue at h
  dsimp only at h
  generalize hr : host.service.request host.sha256 approvalId run.runId "flash" binding
    "Flash the latest verified firmware artifact to the selected device once." now = request at h
  have hid : request.approvalId = approvalId := by rw [← hr]; rfl
  have hfp : request.fingerprint = fingerprintOf host.sha256 "flash" binding := by rw [← hr]; rfl
  have hst : request.status = .pending := by rw [← hr]; rfl
  rcases Approvals.saveApproval_cases request s.approvals with hsave | ⟨hfresh, hsave⟩ <;> rw [hsave] at h
  · cases h
  · rw [hid] at hfresh
    refine ⟨_, (Except.ok.inj h).symm, hfresh, ?_, ?_, ?_⟩
    · intro hn
      have hkey : lookup Row.approvalId s.approvals (rowOf request).approvalId = none := by
        change find s.approvals request.approvalId = none
        rw [hid, hfresh]
      have hinsert : insertRow Row.approvalId (rowOf request) s.approvals =
          some (s.approvals ++ [rowOf request]) := insertRow_of_fresh hkey
      exact nodup_insertRow hinsert hn
    · refine ⟨rowOf request, ?_, hfp, hst⟩
      rw [find, lookup_append, show lookup Row.approvalId s.approvals approvalId = none from hfresh,
        lookup_cons, if_pos (show (rowOf request).approvalId = approvalId from hid)]
      rfl
    · intro id row hrow
      rw [find, lookup_append, show lookup Row.approvalId s.approvals id = some row from hrow]
      rfl

lemma kept_of_old {t' : Table} (h : ∀ id row, find t id = some row → find t' id = some row) :
    Kept t t' := fun id row hrow => ⟨row, h id row hrow, rfl, rfl, fun hp => hp⟩

lemma StartedOk.kept {t' : Table} {issued : List Issued} {x : Started} (h : StartedOk host t issued x)
    (hk : Kept t t') : StartedOk host t' issued x := ⟨h.1.kept hk, h.2⟩

variable {begun : Bool}

lemma TaskOk.kept {t' : Table} {issued : List Issued} {started : List Started}
    {runs : String → Option Run} {runId : String}
    (h : TaskOk host t issued started runs runId approvalId binding begun) (hk : Kept t t') :
    TaskOk host t' issued started runs runId approvalId binding begun := ⟨h.1, h.2.1.kept hk, h.2.2⟩

variable {approvals : Table}

include h in
lemma Inv.issue {run : Run}
    (hi : @IsIssued host s s' run approvalId binding approvals) :
    Inv host safe s' ∧ ∀ run' : Run, run'.runId = run.runId →
      AwaitOk host safe s'.approvals s'.issued s'.operations (FlashApproval.awaiting run' approvalId) := by
  obtain ⟨rfl, hfresh, hkeys, ⟨row, hrow, hfp, hst⟩, hold⟩ := hi
  have hkept := kept_of_old hold
  have hnew : ∀ y ∈ s.issued, y.approvalId ≠ approvalId := by
    intro y hy hid
    obtain ⟨row', hrow', -⟩ := h.recorded y hy
    rw [hid, hfresh] at hrow'
    cases hrow'
  have hmem : ∀ {y : Issued}, y ∈ s.issued → y ∈ s.issued ++ [⟨approvalId, run.runId, binding⟩] :=
    fun hy => List.mem_append_left _ hy
  constructor
  · exact {
      ids := h.ids
      rowIds := h.rowIds
      keys := hkeys h.keys
      issuedOnce := by
        exact nodup_map_concat h.issuedOnce hnew
      recorded := by
        intro y hy
        rcases mem_concat.1 hy with hy | rfl
        · exact (h.recorded y hy).kept hkept
        · exact ⟨row, hrow, hfp⟩
      once := h.once
      started := by
        intro x hx
        obtain ⟨hspent, ⟨y, hy, hrest⟩, hfrom⟩ := h.started x hx
        exact ⟨hspent.kept hkept, ⟨y, hmem hy, hrest⟩, hfrom⟩
      operations := by
        intro id op hop
        obtain ⟨y, hy, hid⟩ := h.operations id op hop
        exact ⟨y, hmem hy, hid⟩
      tasks := by
        intro id a b begun ht
        obtain ⟨⟨y, hy, hrest⟩, hspent, hrest'⟩ := h.tasks id a b begun ht
        exact ⟨⟨y, hmem hy, hrest⟩, hspent.kept hkept, hrest'⟩
      awaiting := by
        intro id run' hrun hst'
        obtain ⟨y, hy, hid, hrunId, ⟨row', hrow', hst''⟩, hopen⟩ := h.awaiting id run' hrun hst'
        exact ⟨y, hmem hy, hid, hrunId, ⟨row', hold _ _ hrow', hst''⟩, hopen⟩ }
  · intro run' hrun'
    refine ⟨⟨approvalId, run.runId, binding⟩, List.mem_append_right _ (List.mem_singleton_self _), rfl, hrun'.symm,
      ⟨row, hrow, hst⟩, ?_⟩
    -- nothing was recorded for an approval that did not exist
    intro _ op hop
    obtain ⟨y, hy, hid⟩ := h.operations _ op hop
    exact absurd hid (hnew y hy)

lemma find_updateWhere_of_ne {id : String} {f : Row → Row}
    {q : Row → Prop} [DecidablePred q] (hkey : ∀ r, (f r).approvalId = r.approvalId)
    (hne : id ≠ approvalId) (hq : ∀ r, q r → r.approvalId = approvalId) :
    find (updateWhere (fun r => decide (q r)) f t) id = find t id := by
  unfold find
  rw [lookup_updateWhere hkey]
  rcases hl : lookup Row.approvalId t id with _ | row
  · rfl
  · have hnot : ¬ decide (q row) = true := fun h =>
      hne ((lookup_key hl).symm.trans (hq row (of_decide_eq_true h)))
    rw [Option.map_some, if_neg hnot]

variable {fingerprint : String}

include h in
lemma Inv.consume (hy : y ∈ s.issued)
    (hrun : ∀ run, s.runs y.runId = some run → run.status ≠ .awaitingFlashConfirmation)
    {now stamp : Time} {payload : Approvals.Payload}
    (hc : Approvals.consumeApproval y.approvalId fingerprint now stamp s.approvals = (.ok payload, approvals)) :
    Inv host safe { s with approvals := approvals } ∧ Spent approvals y.approvalId ∧
      fingerprint = fingerprintOf host.sha256 "flash" y.binding := by
  rcases Approvals.consumeApproval_cases y.approvalId fingerprint now stamp s.approvals with
    ⟨refusal, hr⟩ | ⟨row, hrow, hst, hfp, -, hr⟩ <;> rw [hr] at hc
  · cases hc
  · have hkept : Kept s.approvals approvals := by
      have hk := Approvals.kept_consumeApproval y.approvalId fingerprint now stamp h.keys
      rwa [hr, (Prod.mk.inj hc).2] at hk
    have hkeys : (approvals.map Row.approvalId).Nodup := by
      have hn := Approvals.consumeApproval_nodup y.approvalId fingerprint now stamp h.keys
      rwa [hr, (Prod.mk.inj hc).2] at hn
    obtain ⟨-, rfl⟩ := Prod.mk.inj hc
    refine ⟨?_, ?_, ?_⟩
    · refine { h with
        keys := hkeys
        recorded := fun y' hy' => (h.recorded y' hy').kept hkept
        started := fun x hx => (h.started x hx).kept hkept
        tasks := fun id a b begun ht => (h.tasks id a b begun ht).kept hkept
        awaiting := ?_ }
      intro id run' hrun' hst'
      obtain ⟨y', hy', hid', hrunId', ⟨row', hrow', hst''⟩, hopen⟩ := h.awaiting id run' hrun' hst'
      have hne : y'.approvalId ≠ y.approvalId := by
        intro heq
        obtain rfl := h.issued_eq hy' hy heq
        rw [hrunId', h.ids id run' hrun'] at hrun
        exact hrun run' hrun' hst'
      refine ⟨y', hy', hid', hrunId', ⟨row', ?_, hst''⟩, hopen⟩
      have hsame := @find_updateWhere_of_ne s.approvals y.approvalId y'.approvalId
        (Approvals.markConsumed (Approvals.consumedPayload stamp row.payload))
        (fun r => r.approvalId = y.approvalId ∧ r.status = .pending) _ (Approvals.markConsumed_approvalId _) hne
        fun r hr => hr.1
      exact hsame.trans hrow'
    · refine ⟨Approvals.markConsumed (Approvals.consumedPayload stamp row.payload) row, ?_, nofun⟩
      rw [find, lookup_updateWhere (Approvals.markConsumed_approvalId _),
        show lookup Row.approvalId s.approvals y.approvalId = some row from hrow, Option.map_some, if_pos]
      exact decide_eq_true ⟨lookup_key hrow, hst⟩
    · obtain ⟨row', hrow', hfp'⟩ := h.recorded y hy
      rw [hrow] at hrow'
      obtain rfl := Option.some.inj hrow'
      exact hfp.symm.trans hfp'

lemma Carries.of_run {run run' : Run} (h : Carries run binding) (hid : run'.runId = run.runId)
    (hproject : run'.projectId = run.projectId) (hport : run'.flashPort = run.flashPort)
    (hboard : run'.flashBoardType = run.flashBoardType) (henv : run'.flashEnvironment = run.flashEnvironment)
    (hmonitor : run'.startMonitorAfterFlash = run.startMonitorAfterFlash) (hbuild : run'.buildResult = run.buildResult) :
    Carries run' binding where
  runId := h.runId.trans hid.symm
  projectId := h.projectId.trans hproject.symm
  port := h.port.trans hport.symm
  boardType := h.boardType.trans hboard.symm
  environment := h.environment.trans henv.symm
  startMonitor := h.startMonitor.trans hmonitor.symm
  artifact := by
    rw [h.artifact]
    unfold Run.build
    rw [hbuild]

include h in
lemma Inv.flashing {runId : String} {run : Run}
    (hrun : s.runs runId = some run) (ht : s.tasks runId = some (.flash approvalId binding begun)) :
    Idle run ∧ (begun = false → Carries run binding) := by
  obtain ⟨-, -, -, run', hrun', hidle, hcarries⟩ := h.tasks runId approvalId binding begun ht
  rw [hrun] at hrun'
  obtain rfl := Option.some.inj hrun'
  exact ⟨hidle, hcarries⟩

include h in
lemma Inv.settle {runId : String} {run : Run} (hrun : s.runs runId = some run) (status : RunStatus)
    (classification : String) (cancelRequested : Bool)
    (hstatus : status ≠ .completed ∧ status ≠ .awaitingFlashConfirmation) :
    Inv host safe (s.setRun { run with
      status := status, classification := classification, cancelRequested := cancelRequested }) := by
  have hid := h.ids runId run hrun
  apply h.setRun
  · intro hawait
    exact absurd hawait hstatus.2
  · intro approvalId binding begun ht
    change s.tasks run.runId = _ at ht
    rw [hid] at ht
    exact ⟨hstatus, fun hb => ((h.flashing hrun ht).2 hb).of_run rfl rfl rfl rfl rfl rfl rfl⟩

lemma event_setTask (run : Run) (fault : Fault) (runId : String) (task : Option Task) :
    (s.event run fault).setTask runId task = (s.setTask runId task).event run fault := by
  unfold System.event
  split <;> rfl

include h in
lemma Inv.over {run : Run} (hst : run.status ≠ .awaitingFlashConfirmation) (fault : Fault) :
    Inv host safe (((s.setRun run).event run fault).setTask run.runId none) := by
  rw [event_setTask]
  apply Inv.event
  change Inv host safe ((s.setTask run.runId none).setRun run)
  apply (h.setTask run.runId fun _ _ _ ht => by cases ht).setRun
  · exact fun h => absurd h hst
  · intro approvalId binding begun ht
    change Function.update s.tasks run.runId none run.runId = _ at ht
    rw [Function.update_self] at ht
    cases ht

include h in
lemma Inv.endTask (run : Run) {status : RunStatus}
    (hstatus : status ≠ .awaitingFlashConfirmation) (classification : String) (fault : Fault) :
    Inv host safe (endTask s run status classification fault) := by
  have hst : (if s.cancelling run.runId = true then RunStatus.cancelling else status) ≠ .awaitingFlashConfirmation := by
    split
    · decide
    · exact hstatus
  have hover := @Inv.over host safe s h { run with
    status := if s.cancelling run.runId then .cancelling else status, classification := classification } hst fault
  exact { hover with }

include h in
lemma inv_create (run : Run) : Inv host safe (create s run).2 := by
  unfold create
  split
  · rename_i hrun _
    refine ((h.setRun (fun hw => by cases hw) ?_).persist _).setTask _ fun _ _ _ ht => by cases ht
    intro approvalId binding begun ht
    obtain ⟨-, -, -, run', hrun', -⟩ := h.tasks run.runId approvalId binding begun ht
    rw [hrun] at hrun'
    cases hrun'
  · exact h

include h in
lemma Inv.built {run : Run} (htask : s.tasks run.runId = some .build)
    (hawait : run.status = .awaitingFlashConfirmation → AwaitOk host safe s.approvals s.issued s.operations run) :
    Inv host safe (((s.setRun run).persist run).setTask run.runId none) := by
  have hset := h.setRun hawait fun approvalId binding begun ht => by
    rw [htask] at ht
    cases ht
  exact (hset.persist run).setTask run.runId fun _ _ _ ht => by cases ht

lemma issue_tasks {run : Run}
    (hi : @IsIssued host s s' run approvalId binding approvals) : s'.tasks = s.tasks := by
  rw [hi.system]

include h in
lemma inv_built {run : Run} (htask : s.tasks run.runId = some .build) (build : Dict)
    (outcome : BuildOutcome) (classification : String) :
    Inv host safe (built host s run build outcome classification).2 := by
  unfold FlashApproval.built
  cases outcome with
  | completed => exact h.built htask fun hw => by cases hw
  | failed => exact h.built htask fun hw => by cases hw
  | awaitFlash approvalId detected revision now =>
    dsimp only
    split
    · exact h.built htask fun hw => by cases hw
    · split
      · exact h.built htask fun hw => by cases hw
      · rename_i s' hissue
        obtain ⟨binding, -, hissue⟩ := ok_of_bind hissue
        obtain ⟨approvals, hi⟩ := issue_ok hissue
        obtain ⟨hinv, hawait⟩ := h.issue hi
        apply hinv.built
        · rw [issue_tasks hi]
          exact htask
        · exact fun _ => hawait _ rfl

lemma Inv.ite {p : Prop} [Decidable p] {a b : Outcome × System} (ha : p → Inv host safe a.2)
    (hb : ¬ p → Inv host safe b.2) : Inv host safe (if p then a else b).2 := by
  split
  · rename_i hp
    exact ha hp
  · rename_i hp
    exact hb hp

include h in
lemma inv_prepare {run : Run} (hrun : s.runs run.runId = some run) (arguments : Arguments)
    (approvalId : String) (detected : List Board) (built revision : String) (now : Time) (fault : Fault) :
    Inv host safe (prepare host s run arguments approvalId detected built revision now fault).2 := by
  unfold prepare
  apply Inv.ite (fun _ => h)
  intro hawaiting
  apply Inv.ite (fun _ => h)
  intro hcompleted
  rw [ne_eq, not_not] at hcompleted
  -- a completed run has no flash under way
  have hfree : ∀ a b begun, s.tasks run.runId ≠ some (.flash a b begun) :=
    fun a b begun ht => (h.flashing hrun ht).1.1 hcompleted
  have hset : Inv host safe (s.setRun (run.with arguments)) :=
    h.setRun (fun hw => absurd hw hawaiting) fun a b begun ht => absurd ht (hfree a b begun)
  iterate 5
    apply Inv.ite fun _ => h
    intro _
  dsimp only
  split
  · exact hset
  · rename_i binding hbinding
    by_cases hfault : fault = .approval
    · rw [if_pos hfault]
      exact hset
    rw [if_neg hfault]
    split
    · exact hset
    · rename_i s' hissue
      obtain ⟨approvals, hi⟩ := issue_ok hissue
      obtain ⟨hinv, hawait⟩ := hset.issue hi
      have hdone : Inv host safe (s'.setRun (awaiting (run.with arguments) approvalId)) := by
        apply hinv.setRun
        · exact fun _ => hawait _ rfl
        · intro a b begun ht
          rw [issue_tasks hi] at ht
          exact absurd ht (hfree a b begun)
      split
      · exact hdone.event _ fault
      · exact hdone.event _ fault

include h in
lemma Inv.recordTask {run : Run} (hrun : s.runs run.runId = some run)
    (ht : s.tasks run.runId = some (.flash approvalId binding begun))
    {status : Operations.OperationStatus}
    (hop : recordOperation ⟨run.runId, approvalId⟩ status fingerprint s.operations = .ok operations) :
    Inv host safe { s with operations := operations } := by
  obtain ⟨⟨y, hy, hid, -⟩, -⟩ := h.tasks run.runId approvalId binding begun ht
  obtain ⟨-, hothers⟩ := recordOperation_ok hop
  apply h.setOperations
  · intro id row' hrow'
    by_cases hne : id = ⟨run.runId, approvalId⟩
    · exact ⟨y, hy, by rw [hid, hne]⟩
    · rw [hothers id hne] at hrow'
      exact h.operations id row' hrow'
  · intro id run' y' hrun' hst _ _ hrunId' _ hopen row' hrow'
    have hne : (⟨y'.runId, y'.approvalId⟩ : OperationId) ≠ ⟨run.runId, approvalId⟩ := by
      intro heq
      -- this run is being flashed, so it does not wait
      have hsame : id = run.runId := hrunId'.symm.trans (congrArg OperationId.runId heq)
      rw [hsame, hrun] at hrun'
      obtain rfl := Option.some.inj hrun'
      exact (h.flashing hrun ht).1.2 hst
    rw [hothers _ hne] at hrow'
    exact hopen row' hrow'

include h in
lemma inv_start {run : Run} (hrun : s.runs run.runId = some run)
    (ht : s.tasks run.runId = some (.flash approvalId binding false)) (fault : Fault) :
    Inv host safe (start host s run approvalId binding fault).2 := by
  unfold start
  split_ifs with hcancel hfault
  · exact (h.interrupt run.runId).endTask run (by decide) _ fault
  · exact (h.interrupt run.runId).endTask run (by decide) _ fault
  · split
    · exact (h.interrupt run.runId).endTask run (by decide) _ fault
    · rename_i operations hop
      obtain ⟨⟨y, hy, hid, hrunId, hfp⟩, hspent, hfresh, run', hrun', hidle, hcarries⟩ :=
        h.tasks run.runId approvalId binding false ht
      rw [hrun] at hrun'
      obtain rfl := Option.some.inj hrun'
      have hops : Inv host safe { s with operations := operations } := h.recordTask hrun ht hop
      have hstarted : Inv host safe { s with
          operations := operations, started := s.started ++ [⟨approvalId, requestOf run, binding⟩]
          tasks := Function.update s.tasks run.runId (some (.flash approvalId binding true)) } := by
        refine { hops with once := ?_, started := ?_, tasks := ?_ }
        · exact nodup_map_concat h.once (hfresh rfl)
        · intro x hx
          rcases mem_concat.1 hx with hx | rfl
          · exact h.started x hx
          · exact ⟨hspent, ⟨y, hy, hid, hfp⟩, fromBinding_of_carries (hcarries rfl)⟩
        · intro id a b begun ht'
          by_cases hsame : id = run.runId
          · subst hsame
            change Function.update s.tasks run.runId _ run.runId = _ at ht'
            rw [Function.update_self] at ht'
            cases ht'
            exact ⟨⟨y, hy, hid, hrunId, hfp⟩, hspent, nofun, run, hrun, hidle, nofun⟩
          · change Function.update s.tasks run.runId _ id = _ at ht'
            rw [Function.update_of_ne hsame] at ht'
            obtain ⟨⟨y', hy', hid', hrunId', hfp'⟩, hspent', hfresh', hrest⟩ := h.tasks id a b begun ht'
            refine ⟨⟨y', hy', hid', hrunId', hfp'⟩, hspent', ?_, hrest⟩
            intro hb x hx
            rcases mem_concat.1 hx with hx | rfl
            · exact hfresh' hb x hx
            · -- two runs have no approval in common
              intro heq
              have hyy : y = y' := h.issued_eq hy hy' (hid.trans (heq.trans hid'.symm))
              rw [hyy, hrunId'] at hrunId
              exact hsame hrunId
      exact hstarted

lemma recordOperation_same {id : OperationId} {status : Operations.OperationStatus}
    {rows rows' : List FlashOperation} (h : recordOperation id status fingerprint rows = .ok rows') {row : FlashOperation}
    (hrow : lookup FlashOperation.operationId rows id = some row) : row.fingerprint = fingerprint := by
  unfold recordOperation at h
  rw [hrow] at h
  by_contra hne
  simp [hne] at h

include h in
lemma Inv.record (hy : y ∈ s.issued)
    (hop : recordOperation ⟨y.runId, y.approvalId⟩ .prepared (host.digest binding) s.operations = .ok operations)
    (hsafe : safe → lookup FlashOperation.operationId s.operations ⟨y.runId, y.approvalId⟩ = none →
      binding = y.binding) : Inv host safe { s with operations := operations } := by
  obtain ⟨⟨row, hrow, hfp, hst⟩, hothers⟩ := recordOperation_ok hop
  apply h.setOperations
  · intro id row' hrow'
    by_cases hid : id = ⟨y.runId, y.approvalId⟩
    · exact ⟨y, hy, by rw [hid]⟩
    · rw [hothers id hid] at hrow'
      exact h.operations id row' hrow'
  · intro id run y' _ _ hy' _ _ hs hopen row' hrow'
    by_cases hid : (⟨y'.runId, y'.approvalId⟩ : OperationId) = ⟨y.runId, y.approvalId⟩
    · obtain rfl := h.issued_eq hy' hy (congrArg OperationId.approvalId hid)
      rw [hrow] at hrow'
      obtain rfl := Option.some.inj hrow'
      refine ⟨?_, hst⟩
      rw [hfp]
      rcases hold : lookup FlashOperation.operationId s.operations ⟨y'.runId, y'.approvalId⟩ with _ | old
      · rw [hsafe hs hold]
      · -- what was recorded before is the approved binding already
        exact (recordOperation_same hop hold).symm.trans (hopen old hold).1
    · rw [hothers _ hid] at hrow'
      exact hopen row' hrow'

include h in
lemma Inv.confirmed {run : Run} (hy : y ∈ s.issued) (hrunId : y.runId = run.runId)
    (hpending : Pending s.approvals y.approvalId) (hfree : s.tasks run.runId = none) (arguments : Arguments)
    (detected : List Board) (revision : String) {now stamp : Time} {payload : Approvals.Payload}
    (hbinding : flashBinding (run.with arguments) detected revision = .ok binding)
    (hc : Approvals.consumeApproval y.approvalId (fingerprintOf host.sha256 "flash" binding) now stamp
      s.approvals = (.ok payload, approvals)) (fault : Fault) :
    let running : Run := { run.with arguments with status := .running }
    let s' := ({ s with approvals := approvals }.setRun running).event running fault
    Inv host safe s' ∧ Inv host safe (s'.setTask run.runId (some (.flash y.approvalId binding false))) := by
  intro running s'
  have hset : Inv host safe (s.setRun running) := by
    apply h.setRun
    · intro hw
      cases hw
    · intro a b begun ht
      rw [show s.tasks running.runId = none from hfree] at ht
      cases ht
  have hruns : (s.setRun running).runs run.runId = some running := Function.update_self (f := s.runs) ..
  have hwaits : ∀ run', (s.setRun running).runs y.runId = some run' → run'.status ≠ .awaitingFlashConfirmation := by
    intro run' hrun'
    rw [hrunId, hruns] at hrun'
    obtain rfl := Option.some.inj hrun'
    exact fun hw => by cases hw
  obtain ⟨hinv, hspent, hfp⟩ := hset.consume hy hwaits hc
  have hevent : Inv host safe s' := hinv.event running fault
  refine ⟨hevent, hevent.setTask _ ?_⟩
  intro a b begun ht
  cases ht
  rw [event_approvals, event_issued, event_started, event_runs]
  refine ⟨⟨y, hy, rfl, hrunId, hfp⟩, hspent, ?_, running, hruns, ?_, ?_⟩
  · -- an approval that is pending has started nothing
    intro _ x hx heq
    have hx' := (h.started x hx).1
    rw [heq] at hx'
    exact hpending.not_spent hx'
  · constructor
    · exact RunStatus.noConfusion
    · exact RunStatus.noConfusion
  · intro _
    rw [flashBinding_ok hbinding]
    exact (carries_bindingOf _ detected revision).of_run rfl rfl rfl rfl rfl rfl rfl

lemma confirmImpl_cases (s : System) (run : Run) (arguments : Arguments) (detected : List Board) (revision : String)
    (now stamp : Time) (fault : Fault) :
    (∃ error, confirmImpl host s run arguments detected revision now stamp fault = (.error error, s)) ∨
    ∃ approvalId binding operations, Proposes host s run approvalId arguments detected revision fault binding ∧
      recordOperation ⟨run.runId, approvalId⟩ .prepared (host.digest binding) s.operations = .ok operations ∧
      ((∃ error, confirmImpl host s run arguments detected revision now stamp fault =
          (.error error, { s with operations := operations })) ∨
        ∃ row payload approvals, find s.approvals approvalId = some row ∧
          row.fingerprint = fingerprintOf host.sha256 "flash" binding ∧ now < row.payload.expiresAt ∧
          Approvals.consumeApproval approvalId (fingerprintOf host.sha256 "flash" binding) now stamp
            s.approvals = (.ok payload, approvals) ∧
          let running : Run := { run.with arguments with status := .running }
          let s' := ({ s with operations := operations, approvals := approvals }.setRun running).event running fault
          confirmImpl host s run arguments detected revision now stamp fault =
            if fault = .event then (.error .fault, s')
            else (.ok (), s'.setTask run.runId (some (.flash approvalId binding false)))) := by
  unfold confirmImpl
  by_cases hexecutor : host.flashExecutor = true
  swap
  · exact Or.inl ⟨.confirmationUnavailable, by simp [hexecutor]⟩
  rcases happroval : run.approvalId with _ | approvalId
  · exact Or.inl ⟨.approvalRequired, by simp [hexecutor]⟩
  by_cases hearly : fault = .early
  · exact Or.inl ⟨.fault, by simp [hexecutor, hearly]⟩
  by_cases hfenced : s.fenced run.runId = true
  · exact Or.inl ⟨.runFenced, by simp [hexecutor, hearly, hfenced]⟩
  rw [Bool.not_eq_true] at hfenced
  rcases hbinding : flashBinding (run.with arguments) detected revision with error | binding
  · exact Or.inl ⟨error, by simp [hexecutor, hearly, hfenced, hbinding]⟩
  by_cases hoperation : fault = .operation
  · exact Or.inl ⟨.fault, by simp [hexecutor, hfenced, hbinding, hoperation]⟩
  rcases hop : recordOperation ⟨run.runId, approvalId⟩ .prepared (host.digest binding) s.operations with
    error | operations
  · exact Or.inl ⟨.operation error, by simp [hexecutor, hearly, hfenced, hbinding, hoperation, hop]⟩
  refine Or.inr ⟨approvalId, binding, operations, ⟨hexecutor, happroval, hearly, hfenced, hbinding, hoperation⟩, hop, ?_⟩
  simp only [hexecutor, hearly, hfenced, hbinding, hoperation, hop, Bool.not_true, Bool.false_eq_true, if_false]
  by_cases hfault : fault = .approval
  · exact Or.inl ⟨.fault, if_pos hfault⟩
  rw [if_neg hfault]
  rcases Approvals.consumeApproval_cases approvalId (fingerprintOf host.sha256 "flash" binding) now stamp
    s.approvals with ⟨refusal, hr⟩ | ⟨row, hrow, -, hfp, hexpires, hr⟩
  · exact Or.inl ⟨.approval refusal, by rw [hr]⟩
  · refine Or.inr ⟨row, _, _, hrow, hfp, hexpires, hr, ?_⟩
    simp only [hr]
    rfl

include h in
lemma inv_confirmImpl {run : Run} (hrun : s.runs run.runId = some run)
    (hwaits : run.status = .awaitingFlashConfirmation) (hfree : s.tasks run.runId = none) (arguments : Arguments)
    (detected : List Board) (revision : String) (now stamp : Time) (fault : Fault)
    (hsafe : safe → ∀ y binding, y ∈ s.issued →
      Proposes host s run y.approvalId arguments detected revision fault binding →
      lookup FlashOperation.operationId s.operations ⟨run.runId, y.approvalId⟩ = none → binding = y.binding) :
    Inv host safe (confirmImpl host s run arguments detected revision now stamp fault).2 := by
  obtain ⟨y, hy, happroval, hrunId, hpending, -⟩ := h.awaiting run.runId run hrun hwaits
  rcases @confirmImpl_cases host s run arguments detected revision now stamp fault with
    ⟨error, heq⟩ | ⟨approvalId, binding, operations, hproposes, hop, hcases⟩
  · rw [heq]
    exact h
  obtain rfl := Option.some.inj (happroval.symm.trans hproposes.approval)
  have hrecorded : Inv host safe { s with operations := operations } := by
    apply h.record hy
    · rw [hrunId]
      exact hop
    · intro hs hfirst
      rw [hrunId] at hfirst
      exact hsafe hs y binding hy hproposes hfirst
  rcases hcases with ⟨error, heq⟩ | ⟨row, payload, approvals, -, -, -, hc, heq⟩
  · rw [heq]
    exact hrecorded
  · obtain ⟨hevent, hdone⟩ :=
      hrecorded.confirmed hy hrunId hpending hfree arguments detected revision hproposes.proposed hc fault
    rw [heq]
    split
    · exact hevent
    · exact hdone

include h in
lemma Inv.setLease (sessionId : String) (lease : Option Lease) :
    Inv host safe (s.setLease sessionId lease) := { h with }

include h in
lemma inv_confirm {run : Run} (hrun : s.runs run.runId = some run) (arguments : Arguments)
    (detected : List Board) (revision : String) (now stamp : Time) (fault : Fault)
    (hsafe : safe → Safe host s (.confirm run.runId arguments detected revision now stamp fault)) :
    Inv host safe (confirm host s run arguments detected revision now stamp fault).2 := by
  unfold confirm
  apply Inv.ite (fun _ => h)
  intro hwaits
  rw [ne_eq, not_not] at hwaits
  apply Inv.ite (fun _ => h)
  intro hfree
  rw [Option.not_isSome_iff_eq_none] at hfree
  apply Inv.ite (fun _ => h)
  intro hlease
  rw [Bool.not_eq_true, Bool.not_eq_false'] at hlease
  have himpl : Inv host safe (confirmImpl host (s.setLease run.sessionId (some ⟨run.runId, now + host.leaseTtl⟩)) run
      arguments detected revision now stamp fault).2 := by
    apply inv_confirmImpl (h.setLease run.sessionId _) hrun hwaits hfree
    intro hs y binding hy hproposes hfirst
    exact (hsafe hs run y binding hrun ⟨hrun, hwaits, hfree, hlease⟩ hy { hproposes with }).1 hfirst
  split
  · rename_i heq
    rwa [heq] at himpl
  · rename_i heq
    rw [heq] at himpl
    exact himpl.setLease run.sessionId none

include h in
lemma inv_result {run : Run} (hrun : s.runs run.runId = some run)
    (ht : s.tasks run.runId = some (.flash approvalId binding true)) (success : Bool) (build : Dict)
    (classification : String) (fault : Fault) :
    Inv host safe (result host s run approvalId binding success build classification fault).2 := by
  unfold result
  apply Inv.ite
  · intro _
    exact (h.interrupt run.runId).endTask _ (by decide) _ fault
  · intro _
    split
    · exact (h.interrupt run.runId).endTask _ (by decide) _ fault
    · rename_i operations hop
      apply (h.recordTask hrun ht hop).endTask
      split <;> decide

include h in
lemma inv_cancel {run : Run} (hrun : s.runs run.runId = some run) (fault : Fault) :
    Inv host safe (cancel s run fault).2 := by
  unfold cancel
  apply Inv.ite (fun _ => h)
  intro _
  have hset := h.settle hrun .cancelling run.classification true (by decide)
  apply Inv.ite
  · intro _
    exact { hset with }
  · intro _
    exact { hset.persist { run with status := .cancelling, cancelRequested := true } with }

include h in
lemma inv_cancelled {run : Run} (hrun : s.runs run.runId = some run) (cleanupFailed pause : Bool)
    (fault : Fault) : Inv host safe (cancelled s run cleanupFailed pause fault).2 := by
  unfold cancelled
  apply Inv.event
  have hset := fun status classification => (h.interrupt run.runId).settle hrun status classification run.cancelRequested
  refine { hset _ _ ?_ with }
  split
  · decide
  · split <;> decide

include h in
lemma inv_loseLease {run : Run} (hrun : s.runs run.runId = some run) (fault : Fault) :
    Inv host safe (loseLease s run fault).2 := by
  unfold loseLease
  have hset := (h.interrupt run.runId).settle hrun .blocked "AGENT_RECOVERY_OUTCOME_UNKNOWN" true (by decide)
  have hfenced : Inv host safe { (s.interrupt run.runId).setRun { run with
      status := .blocked, classification := "AGENT_RECOVERY_OUTCOME_UNKNOWN", cancelRequested := true } with
    fenced := Function.update s.fenced run.runId true } := { hset with }
  exact (hfenced.event _ fault).setTask _ fun _ _ _ ht => by cases ht

lemma restore_runId (run : Run) : (restore run).runId = run.runId := by
  unfold restore
  split <;> rfl

lemma restore_settled (run : Run) : (restore run).status ≠ .awaitingFlashConfirmation := by
  unfold restore
  split
  · rename_i hterminal
    intro hw
    rw [show run.status = .awaitingFlashConfirmation from hw] at hterminal
    cases hterminal
  · exact RunStatus.noConfusion

include h in
lemma inv_restart (stamp : Time) : Inv host safe (restart s stamp) := by
  have hids : ∀ id run, (s.rows id).map restore = some run → run.runId = id := by
    intro id run hrun
    obtain ⟨row, hrow, rfl⟩ := Option.map_eq_some_iff.1 hrun
    rw [restore_runId]
    exact h.rowIds id row hrow
  have hkept : Kept s.approvals (restart s stamp).approvals :=
    Approvals.kept_updateWhere s.approvals (fun _ => rfl) (fun _ => rfl) (fun _ _ _ => rfl)
      (fun _ => Approvals.Status.noConfusion)
  exact {
    ids := hids
    rowIds := hids
    keys := nodup_updateWhere (Approvals.markInvalidated_approvalId _ stamp) h.keys
    issuedOnce := h.issuedOnce
    recorded := fun y hy => (h.recorded y hy).kept hkept
    once := h.once
    started := fun x hx => (h.started x hx).kept hkept
    operations := by
      intro id row hrow
      have hkey : ∀ r : FlashOperation, FlashOperation.operationId { r with status := .unknown } = r.operationId :=
        fun _ => rfl
      change lookup FlashOperation.operationId (updateWhere _ _ s.operations) id = some row at hrow
      rw [lookup_updateWhere hkey] at hrow
      obtain ⟨old, hold, -⟩ := Option.map_eq_some_iff.1 hrow
      exact h.operations id old hold
    tasks := fun _ _ _ _ ht => by cases ht
    awaiting := by
      intro id run hrun hst
      obtain ⟨row, -, rfl⟩ := Option.map_eq_some_iff.1 hrun
      exact absurd hst (restore_settled row) }

include h in
lemma Inv.withRun (runId : String) {go : Run → Outcome × System}
    (hgo : ∀ run, runId = run.runId → s.runs run.runId = some run → Inv host safe (go run).2) :
    Inv host safe (withRun s runId go).2 := by
  unfold FlashApproval.withRun
  split
  · rename_i run hrun
    have hid := h.ids runId run hrun
    apply hgo run hid.symm
    rw [hid]
    exact hrun
  · exact h

include h in
lemma Inv.withTask (runId : String) {go : Run → Task → Outcome × System}
    (hgo : ∀ run task, s.runs run.runId = some run → s.tasks run.runId = some task → Inv host safe (go run task).2) :
    Inv host safe (withTask s runId go).2 := by
  unfold FlashApproval.withTask
  split
  · rename_i run task hrun ht
    have hid := h.ids runId run hrun
    rw [← hid] at hrun ht
    exact hgo run task hrun ht
  · exact h

include h in
lemma inv_step (action : Action) (hsafe : safe → Safe host s action) :
    Inv host safe (step host s action).2 := by
  cases action with
  | create run => exact inv_create h run
  | built runId build outcome classification =>
    apply h.withTask
    intro run task _ ht
    cases task with
    | build => exact inv_built h ht build outcome classification
    | flash => exact h
  | prepare runId arguments approvalId detected built revision now fault =>
    apply h.withRun
    intro run _ hrun
    exact inv_prepare h hrun arguments approvalId detected built revision now fault
  | confirm runId arguments detected revision now stamp fault =>
    apply h.withRun
    rintro run rfl hrun
    exact inv_confirm h hrun arguments detected revision now stamp fault hsafe
  | start runId fault =>
    apply h.withTask
    intro run task hrun ht
    match task, ht with
    | .build, _ => exact h
    | .flash _ _ true, _ => exact h
    | .flash _ _ false, ht => exact inv_start h hrun ht fault
  | result runId success build classification fault =>
    apply h.withTask
    intro run task hrun ht
    match task, ht with
    | .build, _ => exact h
    | .flash _ _ false, _ => exact h
    | .flash _ _ true, ht => exact inv_result h hrun ht success build classification fault
  | cancel runId fault =>
    apply h.withRun
    intro run _ hrun
    exact inv_cancel h hrun fault
  | cancelled runId cleanupFailed pause fault =>
    apply h.withRun
    intro run _ hrun
    apply Inv.ite
    · exact fun _ => inv_cancelled h hrun cleanupFailed pause fault
    · exact fun _ => h
  | loseLease runId fault =>
    apply h.withTask
    intro run task hrun _
    exact inv_loseLease h hrun fault
  | lease sessionId ownerId now =>
    apply Inv.ite
    · exact fun _ => h.setLease sessionId _
    · exact fun _ => h
  | release sessionId => exact h.setLease sessionId none
  | restart stamp => exact inv_restart h stamp

end Changes

lemma consumeApproval_of_pending {t : Table} {approvalId : String} {now : Time} (stamp : Time)
    {row : Row} (hrow : find t approvalId = some row) (hst : row.status = .pending)
    (hfp : row.fingerprint = fingerprint) (hexpires : now < row.payload.expiresAt) :
    ∃ payload approvals, Approvals.consumeApproval approvalId fingerprint now stamp t = (.ok payload, approvals) := by
  refine ⟨Approvals.consumedPayload stamp row.payload,
    updateWhere (fun r => decide (r.approvalId = approvalId ∧ r.status = .pending))
      (Approvals.markConsumed (Approvals.consumedPayload stamp row.payload)) t, transaction_commits ?_⟩
  simp only [hrow, hst, hfp, not_le.2 hexpires, ne_eq, not_true_eq_false, if_false]

section Runs
variable {host : Host} {s : System}

lemma asApproved_of_inv {safe : Prop} (h : Inv host safe s) : AsApproved host s where
  once := h.once
  bound := by
    intro x hx
    obtain ⟨-, ⟨y, hy, hid, hfp⟩, hfrom⟩ := h.started x hx
    exact ⟨y, hy, hid, sameBinding_of_fingerprint host hfp, hfrom⟩

lemma confirmable_of_inv (h : Inv host True s) : Confirmable host s := by
  intro run y arguments detected revision now stamp hdue
  obtain ⟨⟨hrun, hwaits, hfree, hlease⟩, hy, hproposes, hunexpired⟩ := hdue
  obtain ⟨y', hy', happroval, hrunId, ⟨row, hrow, hst⟩, hopen⟩ := h.awaiting run.runId run hrun hwaits
  obtain rfl : y' = y := by
    apply h.issued_eq hy' hy
    exact Option.some.inj (happroval.symm.trans hproposes.approval)
  obtain ⟨row', hrow', hfp⟩ := h.recorded y' hy
  rw [hrow] at hrow'
  obtain rfl := Option.some.inj hrow'
  have hexpires := hunexpired row hrow
  obtain ⟨operations, hop⟩ : ∃ operations, recordOperation ⟨run.runId, y'.approvalId⟩ .prepared (host.digest y'.binding)
      s.operations = .ok operations := by
    apply recordOperation_prepared
    rw [← hrunId]
    exact hopen trivial
  obtain ⟨payload, approvals, hc⟩ := consumeApproval_of_pending stamp hrow hst hfp hexpires
  obtain ⟨hexecutor, -, -, hfenced, hproposed, -⟩ := hproposes
  have hrun' : step host s (.confirm run.runId arguments detected revision now stamp .none) =
      confirm host s run arguments detected revision now stamp .none := by
    change withRun s run.runId _ = _
    unfold withRun
    rw [hrun]
  rw [hrun']
  simp [confirm, confirmImpl, hwaits, hfree, hlease, hexecutor, happroval, hfenced, hproposed, hop, hc, System.setLease]

structure Keeps (s s' : System) : Prop where
  runs : s'.runs = s.runs
  tasks : s'.tasks = s.tasks
  fenced : s'.fenced = s.fenced
  issued : s'.issued = s.issued
  approvals : s'.approvals = s.approvals
  lease : ∀ sessionId ownerId now, s.leaseFree sessionId ownerId now = true →
    s'.leaseFree sessionId ownerId now = true

lemma keeps_refl (s : System) : Keeps s s := ⟨rfl, rfl, rfl, rfl, rfl, fun _ _ _ h => h⟩

lemma Due.keeps {s' : System} {run : Run} {y : Issued} {arguments : Arguments} {detected : List Board}
    {revision : String} {now : Time} (h : Due host s run y arguments detected revision now) (hk : Keeps s s') :
    Due host s' run y arguments detected revision now where
  ready := {
    found := by rw [hk.runs]; exact h.ready.found
    waits := h.ready.waits
    task := by rw [hk.tasks]; exact h.ready.task
    lease := hk.lease _ _ _ h.ready.lease }
  issued := by rw [hk.issued]; exact h.issued
  proposes := { h.proposes with fenced := by rw [hk.fenced]; exact h.proposes.fenced }
  unexpired := by rw [hk.approvals]; exact h.unexpired

lemma leaseFree_released (s : System) (lease : Option Lease) (sessionId : String) {sessionId' ownerId : String}
    {now : Time} (h : s.leaseFree sessionId' ownerId now = true) :
    ((s.setLease sessionId lease).setLease sessionId none).leaseFree sessionId' ownerId now = true := by
  unfold System.leaseFree System.setLease
  dsimp only
  by_cases hs : sessionId' = sessionId
  · rw [hs, Function.update_self]
  · rw [Function.update_of_ne hs, Function.update_of_ne hs]
    exact h

lemma confirm_keeps {safe : Prop} (h : Inv host safe s) {run : Run} (hrun : s.runs run.runId = some run)
    {arguments : Arguments} {detected : List Board} {revision : String} {now stamp : Time} {fault : Fault}
    (hsafe : Safe host s (.confirm run.runId arguments detected revision now stamp fault))
    (href : (confirm host s run arguments detected revision now stamp fault).1 ≠ .accepted) :
    Keeps s (confirm host s run arguments detected revision now stamp fault).2 := by
  unfold confirm at href ⊢
  by_cases hwaits : run.status = .awaitingFlashConfirmation
  swap
  · rw [if_pos hwaits]
    exact keeps_refl s
  by_cases hfree : (s.tasks run.runId).isSome = true
  · rw [if_neg (not_not.2 hwaits), if_pos hfree]
    exact keeps_refl s
  by_cases hlease : s.leaseFree run.sessionId run.runId now = true
  swap
  · rw [if_neg (not_not.2 hwaits), if_neg hfree, if_pos (by simpa using hlease)]
    exact keeps_refl s
  rw [if_neg (not_not.2 hwaits), if_neg hfree, if_neg (by simpa using hlease)] at href ⊢
  rw [Option.not_isSome_iff_eq_none] at hfree
  obtain ⟨y, hy, happroval, -⟩ := h.awaiting run.runId run hrun hwaits
  have hback := fun sessionId' ownerId now' =>
    @leaseFree_released s (some ⟨run.runId, now + host.leaseTtl⟩) run.sessionId sessionId' ownerId now'
  rcases @confirmImpl_cases host (s.setLease run.sessionId (some ⟨run.runId, now + host.leaseTtl⟩)) run arguments detected
    revision now stamp fault with ⟨error, heq⟩ | ⟨approvalId, binding, operations, hproposes, -, hcases⟩
  · rw [heq]
    exact ⟨rfl, rfl, rfl, rfl, rfl, hback⟩
  obtain rfl := Option.some.inj (happroval.symm.trans hproposes.approval)
  rcases hcases with ⟨error, heq⟩ | ⟨row, payload, approvals, hrow, hfp, hexpires, -, heq⟩
  · rw [heq]
    exact ⟨rfl, rfl, rfl, rfl, rfl, hback⟩
  · have hevent : fault ≠ .event := by
      intro hfault
      have hlate := (hsafe run y binding hrun ⟨hrun, hwaits, hfree, hlease⟩ hy { hproposes with }).2 hfault row hrow hfp
      exact absurd hexpires (not_lt.2 hlate)
    rw [heq, if_neg hevent] at href
    exact absurd rfl href

lemma noEffect_of_inv (h : Inv host True s) {action : Action} (hsafe : Safe host s action) :
    NoEffect host s action := by
  intro hconfirm href run y arguments detected revision now stamp hdue
  cases action with
  | confirm runId arguments' detected' revision' now' stamp' fault =>
    have hinv := inv_step h (.confirm runId arguments' detected' revision' now' stamp' fault) fun _ => hsafe
    apply confirmable_of_inv hinv run y
    apply hdue.keeps
    rcases hfound : s.runs runId with _ | run'
    · have hidle : step host s (.confirm runId arguments' detected' revision' now' stamp' fault) = (.idle, s) := by
        change withRun s runId _ = _
        unfold withRun
        rw [hfound]
      rw [hidle]
      exact keeps_refl s
    · have hstep : step host s (.confirm runId arguments' detected' revision' now' stamp' fault) =
          confirm host s run' arguments' detected' revision' now' stamp' fault := by
        change withRun s runId _ = _
        unfold withRun
        rw [hfound]
      rw [hstep] at href ⊢
      obtain rfl := h.ids runId run' hfound
      exact confirm_keeps h hfound hsafe href
  | _ => cases hconfirm

def benchHost : Host where
  sha256 a := a.1 ++ a.2.port.getD "" ++ a.2.deviceIdentity.stableId
  digest b := b.port.getD "" ++ b.deviceIdentity.stableId
  service := Approvals.ApprovalService.new 300
  leaseTtl := 30
  flashExecutor := true

def bench : List Board := [⟨"COM3", none, none, none, "uno"⟩]

def firmware : Dict := [("firmware_hash", .str "a1b2"), ("artifact_manifest", .obj [])]

def sketch : Run where
  runId := "r1"
  projectId := "p1"
  sessionId := "s1"
  status := .completed
  classification := "BUILD_COMPLETED"
  flashPort := some "COM3"
  flashBoardType := some "uno"
  flashEnvironment := some "uno"
  startMonitorAfterFlash := false
  buildResult := some firmware
  approvalId := none
  cancelRequested := false

def asBefore : Arguments := ⟨none, none, none, none⟩

def sketchBinding : Binding := bindingOf sketch bench "rev1"

def upToPrepare : List Action :=
  [.create sketch, .built "r1" firmware .completed "BUILD_COMPLETED",
    .prepare "r1" asBefore "a1" bench "rev1" "rev1" 0 .none]

def confirmAt (arguments : Arguments) (now : Time) : Action := .confirm "r1" arguments bench "rev1" now now .none

def waiting : System := final (step benchHost) .initial upToPrepare

def issuedSketch : Issued := ⟨"a1", "r1", sketchBinding⟩

lemma waiting_run : waiting.runs "r1" = some (awaiting sketch "a1") := rfl

lemma waiting_issued : waiting.issued = [issuedSketch] := rfl

lemma sketch_proposed : flashBinding ((awaiting sketch "a1").with asBefore) bench "rev1" = .ok sketchBinding := rfl

lemma waiting_due : Due benchHost waiting (awaiting sketch "a1") issuedSketch asBefore bench "rev1" 10 where
  ready := ⟨waiting_run, rfl, rfl, rfl⟩
  issued := by rw [waiting_issued]; exact List.mem_singleton_self _
  proposes := ⟨rfl, rfl, by decide, rfl, sketch_proposed, by decide⟩
  unexpired := by
    intro row hrow
    have hexpires : (find waiting.approvals "a1").map (fun r => r.payload.expiresAt) = some 300000000 := rfl
    rw [show find waiting.approvals "a1" = some row from hrow, Option.map_some] at hexpires
    rw [Option.some.inj hexpires]
    decide

lemma waiting_safe : Safe benchHost waiting (confirmAt asBefore 10) := by
  intro run y binding hrun _ hy hproposes
  rw [waiting_run] at hrun
  obtain rfl := Option.some.inj hrun
  rw [waiting_issued, List.mem_singleton] at hy
  obtain rfl := hy
  have hbinding := hproposes.proposed
  rw [sketch_proposed] at hbinding
  exact ⟨fun _ => (Except.ok.inj hbinding).symm, Fault.noConfusion⟩

end Runs

end PromptForge.FlashApproval
