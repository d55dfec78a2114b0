import PromptForge.JobRequests

namespace PromptForge.JobRequests
open Json Jobs Runs Tables

variable {host : Host}

lemma keys_of_valid {extension : Dict} (h : (increments? extension).isSome = true) :
    ∀ e ∈ extension, e.1 = "elapsed_seconds" ∨ e.1 = "tool_calls_used" ∨ e.1 = "requests" := by
  unfold increments? at h
  induction extension with
  | nil => exact fun e he => (List.not_mem_nil he).elim
  | cons x xs ih =>
    rw [List.mapM_cons] at h
    obtain ⟨increments, h⟩ := Option.isSome_iff_exists.1 h
    obtain ⟨increment, hx, h⟩ := Option.bind_eq_some_iff.1 h
    obtain ⟨rest, hxs, -⟩ := Option.bind_eq_some_iff.1 h
    intro e he
    rcases List.mem_cons.1 he with rfl | he
    · unfold increment? at hx
      split at hx
      · rename_i d n hd _
        have htext : d.text = e.1 := by simpa using List.find?_some hd
        have hmem := List.mem_of_find?_eq_some hd
        simp only [extensible, List.mem_cons, List.not_mem_nil, or_false] at hmem
        rcases hmem with rfl | rfl | rfl
        · exact .inl htext.symm
        · exact .inr (.inl htext.symm)
        · exact .inr (.inr htext.symm)
      · cases hx
    · exact ih (by rw [hxs]; rfl) e he

lemma write_entries (style : JsonText.Style) (k : String) (v : Value) (rest : Dict) :
    ∃ tail, JsonText.write style (.obj ((k, v) :: rest)) =
      '\x7b' :: '"' :: (k.toList.flatMap JsonText.escapeChar ++ '"' :: tail) := by
  cases rest with
  | nil => exact ⟨_, by simp [JsonText.write, JsonText.writeEntries, JsonText.writeString]; rfl⟩
  | cons e rest =>
    obtain ⟨k', v'⟩ := e
    exact ⟨_, by simp [JsonText.write, JsonText.writeEntries, JsonText.writeString]; rfl⟩

lemma canon_pair (selection checkpointId : Value) :
    JsonText.canon (.obj [("selection", selection), ("checkpoint_id", checkpointId)]) =
      .obj [("checkpoint_id", JsonText.canon checkpointId), ("selection", JsonText.canon selection)] := by
  have hle : ¬ ("selection" ≤ "checkpoint_id") := by decide
  simp [JsonText.canon, JsonText.canonEntries, JsonText.sortEntries, List.orderedInsert, hle]

def third (text : String) : Option Char := text.toList[2]?

lemma third_resume (selection checkpointId : Value) :
    third ((Demand.resume selection checkpointId).text host) = some 's' ∨
    third ((Demand.resume selection checkpointId).text host) = some 'c' := by
  simp only [Demand.text]
  split
  · exact .inl (by decide)
  · obtain ⟨tail, htail⟩ := write_entries host.compact "checkpoint_id" (JsonText.canon checkpointId)
      [("selection", JsonText.canon selection)]
    refine .inr ?_
    unfold third JsonText.dumps
    rw [canon_pair, htail, String.toList_ofList]
    rfl

lemma third_extension {extension : Dict} (h : (increments? extension).isSome = true) :
    third ((Demand.extend extension).text host) ∈ [none, some 'e', some 't', some 'r'] := by
  have hkeys : ∀ e ∈ JsonText.sortEntries (JsonText.canonEntries extension),
      e.1 = "elapsed_seconds" ∨ e.1 = "tool_calls_used" ∨ e.1 = "requests" := by
    intro e he
    have hmem := (JsonText.perm_sortEntries _).mem_iff.1 he
    rw [JsonText.canonEntries_eq_map] at hmem
    obtain ⟨x, hx, rfl⟩ := List.mem_map.1 hmem
    exact keys_of_valid h x hx
  change third (String.ofList (JsonText.write host.spaced
    (.obj (JsonText.sortEntries (JsonText.canonEntries extension))))) ∈ _
  unfold third
  rw [String.toList_ofList]
  cases hsorted : JsonText.sortEntries (JsonText.canonEntries extension) with
  | nil => exact List.mem_cons_self ..
  | cons e rest =>
    obtain ⟨k, v⟩ := e
    obtain ⟨tail, htail⟩ := write_entries host.spaced k v rest
    rw [htail]
    have hk := hkeys (k, v) (hsorted ▸ List.mem_cons_self ..)
    simp only at hk
    rcases hk with rfl | rfl | rfl
    · exact List.mem_cons_of_mem _ (List.mem_cons_self ..)
    · exact List.mem_cons_of_mem _ (List.mem_cons_of_mem _ (List.mem_cons_self ..))
    · exact List.mem_cons_of_mem _ (List.mem_cons_of_mem _ (List.mem_cons_of_mem _ (List.mem_cons_self ..)))

lemma text_ne {extension : Dict} (h : (increments? extension).isSome = true) (selection checkpointId : Value) :
    (Demand.extend extension).text host ≠ (Demand.resume selection checkpointId).text host := by
  intro heq
  have hmem := @third_extension host extension h
  rw [heq] at hmem
  rcases @third_resume host selection checkpointId with hr | hr <;> rw [hr] at hmem <;> simp at hmem

lemma fingerprint_ne_tool (d : Demand) : d.fingerprint host ≠ "tool" := by
  intro h
  have hlength := host.length_sha256 (d.text host)
  rw [show host.sha256 (d.text host) = "tool" from h] at hlength
  exact absurd hlength (by decide)

lemma requests_commit {τ : Type} {f : τ → Jobs.Reply} {tx : Tx τ} {db : Db}
    (h : ∀ a db', tx db = .ok (a, db') → db'.requests = db.requests) :
    (commit f tx db).2.requests = db.requests := by
  rcases commit_cases f tx db with ⟨error, hc⟩ | ⟨a, db', hok, hc⟩ <;> rw [hc]
  exact h a db' hok

lemma requests_save {value result : Job} {now : ℚ} {db db' : Db} (h : save value now db = .ok (result, db')) :
    db'.requests = db.requests := by
  obtain ⟨-, rfl⟩ := Prod.mk.inj (Except.ok.inj h)
  rfl

lemma requests_mutate {h' : Jobs.Host} {identity : String} {now : ℚ} {change : Job → Except JobError Job}
    {db db' : Db} {result : Job} (h : mutate h' identity now change db = .ok (result, db')) :
    db'.requests = db.requests := by
  unfold mutate at h
  split at h
  · cases h
  · split at h
    · cases h
    · split at h
      · obtain ⟨-, rfl⟩ := Prod.mk.inj (Except.ok.inj h)
        rfl
      · obtain ⟨-, rfl⟩ := Prod.mk.inj (Except.ok.inj h)
        rfl

lemma requests_perform {r : Jobs.Request} (hask : (Action.job r).asks = none)
    (hcharge : (Action.job r).charges = none) (db : Db) :
    (perform host.jobs db r).2.requests = db.requests := by
  cases r with
  | create identity projectId sessionId workspaceRoot runId manual executionProfile now =>
    refine requests_commit fun value db' h => ?_
    unfold create at h
    split at h
    · cases h
    · dsimp only at h
      cases hsave : save _ now db with
      | error error =>
        rw [hsave] at h
        cases h
      | ok result =>
        rw [hsave] at h
        obtain ⟨-, rfl⟩ := Prod.mk.inj (Except.ok.inj h)
        exact requests_save hsave
  | save => exact requests_commit fun _ _ h => requests_save h
  | attach => exact requests_commit fun _ _ h => requests_mutate h
  | updateRun => exact requests_commit fun _ _ h => requests_mutate h
  | recordElapsed identity elapsed now =>
    refine requests_commit fun value db' h => ?_
    unfold recordElapsed at h
    split at h
    · cases h
    · obtain ⟨-, rfl⟩ := Prod.mk.inj (Except.ok.inj h)
      rfl
  | reserve =>
    refine requests_commit fun value db' h => ?_
    obtain ⟨c, name, job, -, -, ⟨-, rfl⟩ | ⟨row, value', -, -, -, rfl⟩⟩ := reserve_spec h
    · rfl
    · rfl
  | settle =>
    refine requests_commit fun value db' h => ?_
    obtain ⟨row, job, -, -, ⟨-, rfl⟩ | ⟨actual, value', -, -, rfl⟩⟩ := settle_spec h
    · rfl
    · rfl
  | extendBudget => cases hask
  | chargeTool => cases hcharge

def Replies (s : State) (identity requestKey : String) (d : Demand) (answer : Answer) : Prop :=
  match d with
  | .extend _ => ∃ value, answer = .job (.job value)
  | .resume _ _ => ∃ source, source? s identity requestKey = some source ∧ answer = .source source.sourceRunId

inductive Asked (host : Host) (a : Action) (s : State) (identity requestKey : String) (d : Demand) :
    Except JobError Answer → State → Prop where
  | invalid (error : JobError) (hvalid : d.valid = false) : Asked host a s identity requestKey d (.error error) s
  | unknown (error : JobError) (hjob : job? s.db identity = none) :
      Asked host a s identity requestKey d (.error error) s
  | conflict {row : JobRequest} (hrow : request? s.db identity requestKey = some row)
      (hfp : row.fingerprint ≠ d.fingerprint host) :
      Asked host a s identity requestKey d (.error (.value "AGENT_JOB_REQUEST_CONFLICT")) s
  | sourceless {row : JobRequest} (error : JobError) (hrow : request? s.db identity requestKey = some row)
      (hfp : row.fingerprint = d.fingerprint host) (hsource : source? s identity requestKey = none)
      (hresume : ∃ selection checkpointId, d = .resume selection checkpointId) :
      Asked host a s identity requestKey d (.error error) s
  | replayed {row : JobRequest} {answer : Answer} (hrow : request? s.db identity requestKey = some row)
      (hfp : row.fingerprint = d.fingerprint host) (hvalid : d.valid = true)
      (hreply : Replies s identity requestKey d answer) : Asked host a s identity requestKey d (.ok answer) s
  | granted {answer : Answer} {s' : State} (hrow : request? s.db identity requestKey = none)
      (hvalid : d.valid = true) (hrequests : s'.db.requests =
        s.db.requests ++ [⟨identity, requestKey, d.fingerprint host⟩])
      (hsources : ∃ extra, s'.sources = s.sources ++ extra ∧
        ∀ r ∈ extra, r.jobId = identity ∧ r.requestKey = requestKey)
      (hperformed : Performed ⟨s, a, .ok answer, s'⟩ identity d)
      (hreply : source? s identity requestKey = none → Replies s' identity requestKey d answer) :
      Asked host a s identity requestKey d (.ok answer) s'

lemma asked_extend (s : State) (identity : String) (extension : Dict) (requestKey : String) (now : ℚ) :
    let a := Action.job (.extendBudget identity extension requestKey now)
    Asked host a s identity requestKey (.extend extension) (step host s a).1 (step host s a).2 := by
  intro a
  change Asked host a s identity requestKey (.extend extension)
    ((commit .job (extendBudget host.jobs identity extension requestKey now) s.db).1.map .job)
    { s with db := (commit .job (extendBudget host.jobs identity extension requestKey now) s.db).2 }
  unfold commit extendBudget
  cases hinc : increments? extension with
  | none => exact .invalid _ (by simp [Demand.valid, hinc])
  | some increments =>
    have hvalid : (Demand.extend extension).valid = true := by simp [Demand.valid, hinc]
    cases hjob : job? s.db identity with
    | none => exact .unknown _ hjob
    | some value =>
      cases hrow : request? s.db identity requestKey with
      | some row =>
        by_cases hfp : row.fingerprint = (Demand.extend extension).fingerprint host
        · have hsame : row.fingerprint = host.jobs.fingerprint extension := hfp
          simp only [hsame, ne_eq, not_true_eq_false, if_false]
          exact .replayed hrow hfp hvalid ⟨value, rfl⟩
        · have hdiff : row.fingerprint ≠ host.jobs.fingerprint extension := hfp
          simp only [hdiff, ne_eq, not_false_eq_true, if_true]
          exact .conflict hrow hfp
      | none =>
        have hid := jobId_of_job? hjob
        refine .granted hrow hvalid rfl ⟨[], (List.append_nil _).symm, fun r hr => ?_⟩ ?_ fun _ => ⟨_, rfl⟩
        · cases hr
        · refine ⟨increments, value, now, hinc, hjob, ?_⟩
          simp only [job?_put, hid, if_true]

lemma asked_resume (s : State) (identity requestKey : String) (selection checkpointId : Value) :
    let a := Action.resume identity requestKey selection checkpointId
    Asked host a s identity requestKey (.resume selection checkpointId) (step host s a).1 (step host s a).2 := by
  intro a
  change Asked host a s identity requestKey (.resume selection checkpointId)
    (atomic Answer.source (reserveResume host identity requestKey selection checkpointId) s).1
    (atomic Answer.source (reserveResume host identity requestKey selection checkpointId) s).2
  unfold atomic reserveResume
  cases hrow : request? s.db identity requestKey with
  | some row =>
    by_cases hfp : row.fingerprint = (Demand.resume selection checkpointId).fingerprint host
    · simp only [hfp, ne_eq, not_true_eq_false, if_false]
      cases hsource : source? s identity requestKey with
      | none => exact .sourceless _ hrow hfp hsource ⟨selection, checkpointId, rfl⟩
      | some source => exact .replayed hrow hfp rfl ⟨source, hsource, rfl⟩
    · simp only [hfp, ne_eq, not_false_eq_true, if_true]
      exact .conflict hrow hfp
  | none =>
    cases hjob : job? s.db identity with
    | none => exact .unknown _ hjob
    | some job =>
      refine .granted hrow rfl rfl ⟨_, rfl, fun r hr => ?_⟩ ⟨job, hjob, rfl, rfl⟩ fun hsource => ?_
      · rw [List.mem_singleton.1 hr]
        exact ⟨rfl, rfl⟩
      · refine ⟨⟨identity, requestKey, job.currentRunId⟩, ?_, rfl⟩
        unfold source? at hsource ⊢
        rw [List.find?_append, hsource, Option.none_or]
        simp

lemma asked_step {s : State} {a : Action} {identity requestKey : String} {d : Demand}
    (h : a.asks = some (identity, requestKey, d)) :
    Asked host a s identity requestKey d (step host s a).1 (step host s a).2 := by
  cases a with
  | job r =>
    cases r with
    | extendBudget identity' extension requestKey' now =>
      cases h
      exact asked_extend s identity extension requestKey now
    | create | save | attach | updateRun | recordElapsed | reserve | settle | chargeTool => cases h
  | resume =>
    cases h
    exact asked_resume s identity requestKey _ _

inductive ChargeDoes (a : Action) (s : State) (identity operationId : String) :
    Except JobError Answer → State → Prop where
  | refused (error : JobError) (hrow : request? s.db identity ("tool:" ++ operationId) = none) :
      ChargeDoes a s identity operationId (.error error) s
  | replayed {row : JobRequest} {answer : Answer}
      (hrow : request? s.db identity ("tool:" ++ operationId) = some row) :
      ChargeDoes a s identity operationId (.ok answer) s
  | charged {answer : Answer} {s' : State} (hrow : request? s.db identity ("tool:" ++ operationId) = none)
      (hrequests : s'.db.requests = s.db.requests ++ [⟨identity, "tool:" ++ operationId, "tool"⟩])
      (hsources : s'.sources = s.sources) (hone : ChargedOne ⟨s, a, .ok answer, s'⟩ identity) :
      ChargeDoes a s identity operationId (.ok answer) s'

lemma charge_step {s : State} {a : Action} {identity operationId : String}
    (h : a.charges = some (identity, operationId)) :
    ChargeDoes a s identity operationId (step host s a).1 (step host s a).2 := by
  cases a with
  | resume => cases h
  | job r =>
    cases r with
    | create | save | attach | updateRun | recordElapsed | reserve | settle | extendBudget => cases h
    | chargeTool identity' operationId' now =>
      cases h
      change ChargeDoes (.job (.chargeTool identity operationId now)) s identity operationId
        ((commit (fun _ => .done) (chargeTool identity operationId now) s.db).1.map .job)
        { s with db := (commit (fun _ => .done) (chargeTool identity operationId now) s.db).2 }
      unfold commit chargeTool
      cases hrow : request? s.db identity ("tool:" ++ operationId) with
      | some row =>
        simp only [hrow]
        exact .replayed hrow
      | none =>
        simp only [hrow]
        cases hjob : job? s.db identity with
        | none => exact .refused _ hrow
        | some value =>
          by_cases hover : Numbers.Number.int (value.limits .toolCallsUsed) ≤ value.consumed .toolCallsUsed
          · simp only [hover, if_true]
            exact .refused _ hrow
          · simp only [hover, if_false]
            refine .charged hrow rfl rfl ⟨value, now, hjob, ?_⟩
            have hid := jobId_of_job? hjob
            simp only [job?_put, hid, if_true]

lemma step_tables (s : State) (a : Action) :
    ∃ rows sources, (step host s a).2.db.requests = s.db.requests ++ rows ∧
      (step host s a).2.sources = s.sources ++ sources ∧
      ∀ r ∈ sources, ∃ row ∈ rows, row.jobId = r.jobId ∧ row.requestKey = r.requestKey := by
  have kept {s' : State} (h : s'.db.requests = s.db.requests) (h' : s'.sources = s.sources) :
      ∃ rows sources, s'.db.requests = s.db.requests ++ rows ∧ s'.sources = s.sources ++ sources ∧
        ∀ r ∈ sources, ∃ row ∈ rows, row.jobId = r.jobId ∧ row.requestKey = r.requestKey :=
    ⟨[], [], h.trans (List.append_nil _).symm, h'.trans (List.append_nil _).symm, fun r hr => by cases hr⟩
  cases hask : a.asks with
  | some ask =>
    have hasked := @asked_step host s a ask.1 ask.2.1 ask.2.2 hask
    generalize step host s a = r at hasked ⊢
    obtain ⟨outcome, s'⟩ := r
    cases hasked with
    | invalid | unknown | conflict | sourceless | replayed => exact kept rfl rfl
    | granted _ _ hrequests hsources =>
      obtain ⟨extra, hextra, hkeys⟩ := hsources
      refine ⟨_, extra, hrequests, hextra, fun r hr => ⟨_, List.mem_singleton_self _, ?_⟩⟩
      exact ⟨(hkeys r hr).1.symm, (hkeys r hr).2.symm⟩
  | none =>
    cases hcharge : a.charges with
    | some charge =>
      have hcharged := @charge_step host s a charge.1 charge.2 hcharge
      generalize step host s a = r at hcharged ⊢
      obtain ⟨outcome, s'⟩ := r
      cases hcharged with
      | refused | replayed => exact kept rfl rfl
      | charged _ hrequests hsources =>
        exact ⟨_, [], hrequests, hsources.trans (List.append_nil _).symm, fun r hr => by cases hr⟩
    | none =>
      cases a with
      | resume => cases hask
      | job r => exact kept (requests_perform hask hcharge s.db) rfl

lemma request_kept {s : State} {identity requestKey : String} {row : JobRequest}
    (h : request? s.db identity requestKey = some row) (a : Action) :
    request? (step host s a).2.db identity requestKey = some row := by
  obtain ⟨rows, sources, hrows, -, -⟩ := @step_tables host s a
  unfold request? at h ⊢
  rw [hrows, List.find?_append, h]
  rfl

lemma source_kept {s : State} {identity requestKey : String} {source : Source}
    (h : source? s identity requestKey = some source) (a : Action) :
    source? (step host s a).2 identity requestKey = some source := by
  obtain ⟨rows, sources, -, hsources, -⟩ := @step_tables host s a
  unfold source? at h ⊢
  rw [hsources, List.find?_append, h]
  rfl

lemma job_kept {s : State} {identity : String} (h : (job? s.db identity).isSome = true) (a : Action) :
    (job? (step host s a).2.db identity).isSome = true := by
  obtain ⟨value, hvalue⟩ := Option.isSome_iff_exists.1 h
  cases a with
  | job r =>
    obtain ⟨value', hvalue', -⟩ := grows_effect (@effect_perform host.jobs s.db r) hvalue
    exact Option.isSome_iff_exists.2 ⟨value', hvalue'⟩
  | resume identity' requestKey selection checkpointId =>
    change (job? (atomic Answer.source (reserveResume host identity' requestKey selection checkpointId) s).2.db
      identity).isSome = true
    refine @atomic_keeps _ _ _ _ Answer.source _ s (fun s' => (job? s'.db identity).isSome = true) h
      fun runId s' htx => ?_
    unfold reserveResume at htx
    dsimp only at htx
    split at htx
    · split at htx
      · cases htx
      · split at htx
        · cases htx
        · cases htx
          exact h
    · split at htx
      · cases htx
      · cases htx
        exact h

lemma request?_append {db db' : Db} {r : JobRequest} (h : db'.requests = db.requests ++ [r])
    (identity requestKey : String) : request? db' identity requestKey =
      (request? db identity requestKey).or
        (if r.jobId = identity ∧ r.requestKey = requestKey then some r else none) := by
  unfold request?
  rw [h, List.find?_append, List.find?_singleton]
  simp

inductive Origin (host : Host) (e : Move) (identity requestKey : String) (row : JobRequest) : Prop where
  | asked (d : Demand) (hgrants : Grants e identity requestKey d) (hfp : row.fingerprint = d.fingerprint host)
  | charged (operationId : String) (hkey : requestKey = "tool:" ++ operationId)
      (hcharges : Charges e identity operationId) (hfp : row.fingerprint = "tool")

lemma request_origin {s : State} {a : Action} {identity requestKey : String} {row : JobRequest}
    (h : request? (step host s a).2.db identity requestKey = some row) :
    request? s.db identity requestKey = some row ∨
    (Origin host (entry (step host) s a) identity requestKey row ∧ (job? s.db identity).isSome = true) := by
  -- a row is the old one under its key, or the one that was added
  have split {r : JobRequest} {s' : State} (hrequests : s'.db.requests = s.db.requests ++ [r])
      (hrow : request? s'.db identity requestKey = some row) :
      request? s.db identity requestKey = some row ∨
        (r = row ∧ r.jobId = identity ∧ r.requestKey = requestKey) := by
    rw [request?_append hrequests] at hrow
    cases hold : request? s.db identity requestKey with
    | some old =>
      rw [hold] at hrow
      exact .inl hrow
    | none =>
      rw [hold, Option.none_or] at hrow
      split at hrow
      · rename_i hkey
        exact .inr ⟨Option.some.inj hrow, hkey⟩
      · cases hrow
  cases hask : a.asks with
  | some ask =>
    obtain ⟨identity', requestKey', d⟩ := ask
    have hasked := @asked_step host s a identity' requestKey' d hask
    have hentry : (entry (step host) s a).outcome = (step host s a).1 := rfl
    have haction : (entry (step host) s a).action = a := rfl
    generalize entry (step host) s a = e at hentry haction ⊢
    generalize step host s a = r at hasked hentry h
    obtain ⟨outcome, s'⟩ := r
    cases hasked with
    | invalid | unknown | conflict | sourceless | replayed => exact .inl h
    | @granted answer s' hrow hvalid hrequests hsources hperformed hreply =>
      refine (split hrequests h).imp id ?_
      intro ⟨heq, hid, hkey⟩
      simp only at hid hkey
      subst hid hkey heq
      refine ⟨.asked d ⟨by rw [Asks, haction, hask], answer, hentry⟩ rfl, ?_⟩
      cases d with
      | extend extension =>
        obtain ⟨increments, value, now, -, hjob, -⟩ := hperformed
        exact Option.isSome_of_eq_some hjob
      | resume =>
        obtain ⟨value, hjob, -⟩ := hperformed
        exact Option.isSome_of_eq_some hjob
  | none =>
    cases hcharge : a.charges with
    | some charge =>
      obtain ⟨identity', operationId⟩ := charge
      have hcharged := @charge_step host s a identity' operationId hcharge
      have hentry : (entry (step host) s a).outcome = (step host s a).1 := rfl
      have haction : (entry (step host) s a).action = a := rfl
      generalize entry (step host) s a = e at hentry haction ⊢
      generalize step host s a = r at hcharged hentry h
      obtain ⟨outcome, s'⟩ := r
      cases hcharged with
      | refused | replayed => exact .inl h
      | @charged answer s' hrow hrequests hsources hone =>
        refine (split hrequests h).imp id ?_
        intro ⟨heq, hid, hkey⟩
        simp only at hid hkey
        subst hid heq
        obtain ⟨value, now, hjob, -⟩ := hone
        exact ⟨.charged operationId hkey.symm ⟨by rw [haction, hcharge], answer, hentry⟩ rfl,
          Option.isSome_of_eq_some hjob⟩
    | none =>
      cases a with
      | resume => cases hask
      | job r =>
        left
        change request? (perform host.jobs s.db r).2 identity requestKey = some row at h
        unfold request? at h ⊢
        rwa [requests_perform hask hcharge s.db] at h

structure Sound (s : State) : Prop where
  housed : ∀ identity requestKey row, request? s.db identity requestKey = some row →
    (job? s.db identity).isSome = true
  sourced : ∀ identity requestKey source, source? s identity requestKey = some source →
    (request? s.db identity requestKey).isSome = true

lemma sound_initial : Sound .initial where
  housed _ _ _ h := by cases h
  sourced _ _ _ h := by cases h

lemma sound_step {s : State} (h : Sound s) (a : Action) : Sound (step host s a).2 := by
  constructor
  · intro identity requestKey row hrow
    rcases request_origin hrow with hold | ⟨-, hjob⟩
    · exact job_kept (h.housed identity requestKey row hold) a
    · exact job_kept hjob a
  · intro identity requestKey source hsource
    cases hold : source? s identity requestKey with
    | some old =>
      obtain ⟨row, hrow⟩ := Option.isSome_iff_exists.1 (h.sourced identity requestKey old hold)
      exact Option.isSome_of_eq_some (request_kept hrow a)
    | none =>
      obtain ⟨rows, sources, hrows, hsources, hkeys⟩ := @step_tables host s a
      unfold source? at hsource hold
      rw [hsources, List.find?_append, hold, Option.none_or] at hsource
      obtain ⟨hid, hkey⟩ : source.jobId = identity ∧ source.requestKey = requestKey := by
        simpa using List.find?_some hsource
      obtain ⟨row, hmem, hrowId, hrowKey⟩ := hkeys source (List.mem_of_find?_eq_some hsource)
      unfold request?
      rw [hrows, List.find?_isSome]
      refine ⟨row, List.mem_append_right _ hmem, ?_⟩
      simp [hrowId, hrowKey, hid, hkey]

lemma rows_of_run (actions : List Action) {identity requestKey : String} {row : JobRequest}
    (h : request? (final (step host) .initial actions).db identity requestKey = some row) :
    ∃ e ∈ trace (step host) .initial actions, Origin host e identity requestKey row := by
  refine (@history_of _ _ _ (step host) (fun es s => ∀ identity requestKey row,
    request? s.db identity requestKey = some row → ∃ e ∈ es, Origin host e identity requestKey row)
    (fun _ => True) ?_ .initial actions ?_ fun _ _ => trivial) identity requestKey row h
  · intro es s a hes _ identity requestKey row hrow
    rcases request_origin hrow with hold | ⟨horigin, -⟩
    · obtain ⟨e, he, horigin⟩ := hes identity requestKey row hold
      exact ⟨e, List.mem_append_left _ he, horigin⟩
    · exact ⟨_, List.mem_append_right _ (List.mem_singleton_self _), horigin⟩
  · intro identity requestKey row hrow
    cases hrow

structure Holds (host : Host) (e : Move) (identity requestKey : String) (d : Demand) (s : State) : Prop where
  row : ∃ row, request? s.db identity requestKey = some row ∧ row.fingerprint = d.fingerprint host
  source : ∀ runId, e.outcome = .ok (.source runId) →
    ∃ source, source? s identity requestKey = some source ∧ source.sourceRunId = runId
  kind : (∃ runId, e.outcome = .ok (.source runId)) ↔ ∃ selection checkpointId, d = .resume selection checkpointId
  valid : d.valid = true
  job : (job? s.db identity).isSome = true

lemma holds_step {e : Move} {identity requestKey : String} {d : Demand} {s : State}
    (h : Holds host e identity requestKey d s) (a : Action) :
    Holds host e identity requestKey d (step host s a).2 where
  row := by
    obtain ⟨row, hrow, hfp⟩ := h.row
    exact ⟨row, request_kept hrow a, hfp⟩
  source runId hout := by
    obtain ⟨source, hsource, hrun⟩ := h.source runId hout
    exact ⟨source, source_kept hsource a, hrun⟩
  kind := h.kind
  valid := h.valid
  job := job_kept h.job a

lemma holds_of_grants {s : State} (hs : Sound s) {a : Action} {identity requestKey : String} {d : Demand}
    (h : Grants (entry (step host) s a) identity requestKey d) :
    Holds host (entry (step host) s a) identity requestKey d (step host s a).2 := by
  obtain ⟨hask, answer, hout⟩ := h
  have hasked := @asked_step host s a identity requestKey d hask
  have hsound := @sound_step host s hs a
  have hentry : (entry (step host) s a).outcome = (step host s a).1 := rfl
  generalize entry (step host) s a = e at hentry hout ⊢
  generalize step host s a = r at hasked hentry hsound ⊢
  obtain ⟨outcome, s'⟩ := r
  -- the reply of a demand tells its kind
  have holds (hvalid : d.valid = true) (hreply : Replies s' identity requestKey d answer)
      (hrow : ∃ row, request? s'.db identity requestKey = some row ∧ row.fingerprint = d.fingerprint host) :
      Holds host e identity requestKey d s' := by
    have hjob : (job? s'.db identity).isSome = true := by
      obtain ⟨row, hrow, -⟩ := hrow
      exact hsound.housed identity requestKey row hrow
    cases d with
    | extend extension =>
      obtain ⟨value, hvalue⟩ := hreply
      rw [hvalue] at hout
      refine ⟨hrow, fun runId hrun => ?_, ⟨fun ⟨runId, hrun⟩ => ?_, fun ⟨_, _, hd⟩ => ?_⟩, hvalid, hjob⟩
      · rw [hout] at hrun
        cases hrun
      · rw [hout] at hrun
        cases hrun
      · cases hd
    | resume selection checkpointId =>
      obtain ⟨source, hsource, hanswer⟩ := hreply
      rw [hanswer] at hout
      refine ⟨hrow, fun runId hrun => ?_, ⟨fun _ => ⟨_, _, rfl⟩, fun _ => ⟨_, hout⟩⟩, hvalid, hjob⟩
      rw [hout] at hrun
      cases hrun
      exact ⟨source, hsource, rfl⟩
  cases hasked with
  | invalid | unknown | conflict | sourceless =>
    rw [hentry] at hout
    cases hout
  | replayed hrow hfp hvalid hreply =>
    rw [hentry] at hout
    cases hout
    exact holds hvalid hreply ⟨_, hrow, hfp⟩
  | granted hrow hvalid hrequests hsources hperformed hreply =>
    rw [hentry] at hout
    cases hout
    refine holds hvalid (hreply ?_) ⟨⟨identity, requestKey, d.fingerprint host⟩, ?_, rfl⟩
    · cases hsource : source? s identity requestKey with
      | none => rfl
      | some source =>
        have hsome := hs.sourced identity requestKey source hsource
        rw [hrow] at hsome
        cases hsome
    · rw [request?_append hrequests, hrow, Option.none_or, if_pos ⟨rfl, rfl⟩]

section Runs
variable {actions : List Action} {e : Move}

lemma asked_of_mem (he : e ∈ trace (step host) .initial actions) {identity requestKey : String} {d : Demand}
    (h : Asks e identity requestKey d) : Asked host e.action e.before identity requestKey d e.outcome e.after := by
  rw [entry_eq_of_mem he]
  exact asked_step h

lemma charge_of_mem (he : e ∈ trace (step host) .initial actions) {identity operationId : String}
    (h : e.action.charges = some (identity, operationId)) :
    ChargeDoes e.action e.before identity operationId e.outcome e.after := by
  rw [entry_eq_of_mem he]
  exact charge_step h

def CollisionFree (host : Host) (actions : List Action) : Prop :=
  ∀ a ∈ actions, ∀ a' ∈ actions, ∀ ask ask', a.asks = some ask → a'.asks = some ask' →
    ask.2.2.fingerprint host = ask'.2.2.fingerprint host → ask.2.2.text host = ask'.2.2.text host

lemma pairwise_holds (actions : List Action) :
    (trace (step host) .initial actions).Pairwise fun e e' => ∀ identity requestKey d,
      Grants e identity requestKey d → Holds host e identity requestKey d e'.before :=
  @pairwise_of _ _ _ (step host) Sound (fun _ => True)
    (fun e s => ∀ identity requestKey d, Grants e identity requestKey d → Holds host e identity requestKey d s) _
    (fun _ a hs _ => sound_step hs a) (fun _ _ hs _ _ _ _ h => holds_of_grants hs h)
    (fun _ _ a _ _ hk identity requestKey d h => holds_step (hk identity requestKey d h) a)
    (fun _ _ _ _ _ hk => hk) .initial actions sound_initial fun _ _ => trivial

lemma charged_row {s : State} {a : Action} {identity operationId : String}
    (h : Charges (entry (step host) s a) identity operationId) :
    (request? (step host s a).2.db identity ("tool:" ++ operationId)).isSome = true := by
  obtain ⟨hcharge, answer, hout⟩ := h
  have hcharged := @charge_step host s a identity operationId hcharge
  change (step host s a).1 = .ok answer at hout
  generalize step host s a = r at hcharged hout ⊢
  obtain ⟨outcome, s'⟩ := r
  cases hcharged with
  | refused => cases hout
  | replayed hrow => exact Option.isSome_of_eq_some hrow
  | charged hrow hrequests =>
    rw [request?_append hrequests, hrow, Option.none_or, if_pos ⟨rfl, rfl⟩]
    rfl

lemma pairwise_charged (actions : List Action) :
    (trace (step host) .initial actions).Pairwise fun e e' => ∀ identity operationId,
      Charges e identity operationId →
        (request? e'.before.db identity ("tool:" ++ operationId)).isSome = true := by
  refine @pairwise_of _ _ _ (step host) (fun _ => True) (fun _ => True)
    (fun e s => ∀ identity operationId, Charges e identity operationId →
      (request? s.db identity ("tool:" ++ operationId)).isSome = true) _
    (fun _ _ _ _ => trivial) (fun _ _ _ _ _ _ h => charged_row h) ?_
    (fun _ _ _ _ _ hk => hk) .initial actions trivial fun _ _ => trivial
  intro e s a _ _ hk identity operationId h
  obtain ⟨row, hrow⟩ := Option.isSome_iff_exists.1 (hk identity operationId h)
  exact Option.isSome_of_eq_some (request_kept hrow a)

lemma same_kind {d d' : Demand} (hd : d.valid = true) (hd' : d'.valid = true)
    (h : d.text host = d'.text host) :
    (∃ selection checkpointId, d = .resume selection checkpointId) ↔
      ∃ selection checkpointId, d' = .resume selection checkpointId := by
  cases d with
  | extend extension =>
    cases d' with
    | extend extension' => exact iff_of_false (fun ⟨_, _, hx⟩ => by cases hx) (fun ⟨_, _, hx⟩ => by cases hx)
    | resume selection checkpointId => exact absurd h (text_ne hd selection checkpointId)
  | resume selection checkpointId =>
    cases d' with
    | extend extension' => exact absurd h.symm (text_ne hd' selection checkpointId)
    | resume selection' checkpointId' => exact iff_of_true ⟨_, _, rfl⟩ ⟨_, _, rfl⟩

lemma repeated_of_holds {e' : Move} (he' : e' ∈ trace (step host) .initial actions)
    {identity requestKey : String} {d d' : Demand} (hholds : Holds host e identity requestKey d e'.before)
    (hask : Asks e' identity requestKey d') (htext : d.text host = d'.text host) (hvalid : d'.valid = true) :
    e'.after = e'.before ∧ (∃ answer, e'.outcome = .ok answer) ∧
      ∀ runId, e.outcome = .ok (.source runId) → e'.outcome = .ok (.source runId) := by
  obtain ⟨row, hrow, hfp⟩ := hholds.row
  have hkind := same_kind hholds.valid hvalid htext
  have hfp' : row.fingerprint = d'.fingerprint host := by
    rw [hfp, Demand.fingerprint, htext]
    rfl
  have hasked := asked_of_mem he' hask
  generalize houtcome : e'.outcome = outcome at hasked ⊢
  generalize hafter : e'.after = after at hasked ⊢
  cases hasked with
  | invalid _ hinvalid => exact absurd hvalid (by simp [hinvalid])
  | unknown _ hjob => exact absurd hholds.job (by simp [hjob])
  | conflict hrow' hne =>
    rw [hrow] at hrow'
    exact absurd (Option.some.inj hrow' ▸ hfp') hne
  | sourceless _ _ _ hsource hresume =>
    obtain ⟨runId, hout⟩ := hholds.kind.2 (hkind.2 hresume)
    obtain ⟨source, hfound, -⟩ := hholds.source runId hout
    rw [hsource] at hfound
    cases hfound
  | replayed _ _ _ hreply =>
    refine ⟨rfl, ⟨_, rfl⟩, fun runId hout => ?_⟩
    obtain ⟨source, hfound, hrun⟩ := hholds.source runId hout
    obtain ⟨selection, checkpointId, hd'⟩ := hkind.1 (hholds.kind.1 ⟨runId, hout⟩)
    subst hd'
    obtain ⟨source', hfound', hanswer⟩ := hreply
    rw [hfound] at hfound'
    rw [hanswer, ← Option.some.inj hfound', hrun]
  | granted hnone =>
    rw [hrow] at hnone
    cases hnone

lemma conflict_of_holds {e' : Move} (he' : e' ∈ trace (step host) .initial actions)
    {identity requestKey : String} {d d' : Demand} (hholds : Holds host e identity requestKey d e'.before)
    (hask : Asks e' identity requestKey d') (hne : d.fingerprint host ≠ d'.fingerprint host)
    (hvalid : d'.valid = true) :
    e'.outcome = .error (.value "AGENT_JOB_REQUEST_CONFLICT") ∧ e'.after = e'.before := by
  obtain ⟨row, hrow, hfp⟩ := hholds.row
  have hrows {row' : JobRequest} (hrow' : request? e'.before.db identity requestKey = some row')
      (hfp' : row'.fingerprint = d'.fingerprint host) : False := by
    rw [hrow] at hrow'
    exact hne (hfp.symm.trans (Option.some.inj hrow' ▸ hfp'))
  have hasked := asked_of_mem he' hask
  generalize houtcome : e'.outcome = outcome at hasked ⊢
  generalize hafter : e'.after = after at hasked ⊢
  cases hasked with
  | invalid _ hinvalid => exact absurd hvalid (by simp [hinvalid])
  | unknown _ hjob => exact absurd hholds.job (by simp [hjob])
  | conflict => exact ⟨rfl, rfl⟩
  | sourceless _ hrow' hfp' => exact absurd (hrows hrow' hfp') id
  | replayed hrow' hfp' => exact absurd (hrows hrow' hfp') id
  | granted hnone =>
    rw [hrow] at hnone
    cases hnone

lemma step_error {s : State} {a : Action} {error : JobError} (h : (step host s a).1 = .error error) :
    (step host s a).2 = s := by
  cases a with
  | job r =>
    have hperform : ∃ error, (perform host.jobs s.db r).1 = .error error := by
      change (perform host.jobs s.db r).1.map Answer.job = _ at h
      cases hout : (perform host.jobs s.db r).1 with
      | error error => exact ⟨error, rfl⟩
      | ok reply =>
        rw [hout] at h
        cases h
    obtain ⟨error, herror⟩ := hperform
    have hdb : (perform host.jobs s.db r).2 = s.db := by cases r <;> exact commit_error herror
    change { s with db := (perform host.jobs s.db r).2 } = s
    rw [hdb]
  | resume => exact atomic_error h

lemma first_of_rows {s : State} {a : Action} {pre : List Move}
    (hrows : ∀ identity requestKey row, request? s.db identity requestKey = some row →
      ∃ e ∈ pre, Origin host e identity requestKey row)
    (hun : Unmixed (entry (step host) s a)) {identity requestKey : String} {d : Demand}
    (hask : Asks (entry (step host) s a) identity requestKey d)
    (hnew : ∀ e₀ ∈ pre, ∀ d₀, ¬ Grants e₀ identity requestKey d₀) (hvalid : d.valid = true)
    (hjob : (job? s.db identity).isSome = true) :
    (∃ answer, (entry (step host) s a).outcome = .ok answer) ∧ Performed (entry (step host) s a) identity d := by
  have hnone {row : JobRequest} (hrow : request? s.db identity requestKey = some row) : False := by
    obtain ⟨e₀, he₀, horigin⟩ := hrows identity requestKey row hrow
    cases horigin with
    | asked d₀ hgrants => exact hnew e₀ he₀ d₀ hgrants
    | charged operationId _ _ hfp => exact hun.ask identity requestKey d row hask hrow hfp
  have hasked := @asked_step host s a identity requestKey d hask
  unfold entry
  generalize step host s a = r at hasked ⊢
  obtain ⟨outcome, s'⟩ := r
  cases hasked with
  | invalid _ hinvalid => exact absurd hvalid (by simp [hinvalid])
  | unknown _ hunknown => exact absurd hjob (by simp [hunknown])
  | conflict hrow | sourceless _ hrow | replayed hrow => exact absurd (hnone hrow) id
  | granted _ _ _ _ hperformed => exact ⟨⟨_, rfl⟩, hperformed⟩

lemma charged_of_rows {s : State} {a : Action} {pre : List Move}
    (hrows : ∀ identity requestKey row, request? s.db identity requestKey = some row →
      ∃ e ∈ pre, Origin host e identity requestKey row)
    (hun : Unmixed (entry (step host) s a)) {identity operationId : String}
    (hcharge : Charges (entry (step host) s a) identity operationId)
    (hnew : ∀ e₀ ∈ pre, ¬ Charges e₀ identity operationId) :
    ChargedOne (entry (step host) s a) identity := by
  obtain ⟨hcharge, answer, hout⟩ := hcharge
  have hcharged := @charge_step host s a identity operationId hcharge
  change (step host s a).1 = .ok answer at hout
  unfold entry
  generalize step host s a = r at hcharged hout ⊢
  obtain ⟨outcome, s'⟩ := r
  cases hcharged with
  | refused => cases hout
  | charged _ _ _ hone => exact hone
  | @replayed row _ hrow =>
    have htool := hun.charge identity operationId row hcharge hrow
    obtain ⟨e₀, he₀, horigin⟩ := hrows identity _ row hrow
    cases horigin with
    | asked d₀ _ hfp => exact absurd (hfp.symm.trans htool) (fingerprint_ne_tool d₀)
    | charged operationId' hkey hcharges =>
      have hid : operationId = operationId' := by
        have hlist := congrArg String.toList hkey
        rw [String.toList_append, String.toList_append] at hlist
        exact String.toList_inj.1 (List.append_cancel_left hlist)
      exact absurd (hid ▸ hcharges) (hnew e₀ he₀)

lemma unmixed_of_apart (h : ∀ a ∈ actions, ∀ a' ∈ actions, ∀ identity requestKey d operationId,
    a.asks = some (identity, requestKey, d) → a'.charges = some (identity, operationId) →
    requestKey ≠ "tool:" ++ operationId) : ∀ e ∈ trace (step host) .initial actions, Unmixed e := by
  intro e he
  obtain ⟨as₁, a, as₂, has, he'⟩ : ∃ as₁ a as₂, actions = as₁ ++ a :: as₂ ∧
      e = entry (step host) (final (step host) .initial as₁) a := by
    obtain ⟨as₁, as₂, has, he'⟩ := mem_trace he
    exact ⟨as₁, e.action, as₂, has, he'⟩
  subst he'
  have hmem {e₀ : Move} (he₀ : e₀ ∈ trace (step host) .initial as₁) : e₀.action ∈ actions :=
    has ▸ List.mem_append_left _ (action_mem he₀)
  have ha : a ∈ actions := has ▸ List.mem_append_right _ (List.mem_cons_self ..)
  constructor
  · intro identity operationId row hcharge hrow
    obtain ⟨e₀, he₀, horigin⟩ := rows_of_run as₁ hrow
    cases horigin with
    | charged _ _ _ hfp => exact hfp
    | asked d hgrants => exact absurd rfl (h e₀.action (hmem he₀) a ha _ _ d operationId hgrants.1 hcharge)
  · intro identity requestKey d row hask hrow
    obtain ⟨e₀, he₀, horigin⟩ := rows_of_run as₁ hrow
    cases horigin with
    | asked d₀ _ hfp => exact hfp ▸ fingerprint_ne_tool d₀
    | charged operationId hkey hcharges =>
      exact absurd hkey (h a ha e₀.action (hmem he₀) _ _ d operationId hask hcharges.1)

/-- Keys are honoured in every run where no call meets a row of the other kind. -/
theorem once_of_unmixed (actions : List Action) (hfree : CollisionFree host actions)
    (hun : ∀ e ∈ trace (step host) .initial actions, Unmixed e) :
    Once host (trace (step host) .initial actions) := by
  have hholds := @pairwise_holds host actions
  constructor
  · refine List.Pairwise.imp_of_mem (fun {e e'} _ he' hk => ?_) hholds
    intro identity requestKey d d' hgrants hask htext hvalid
    exact repeated_of_holds he' (hk identity requestKey d hgrants) hask htext hvalid
  · refine List.Pairwise.imp_of_mem (fun {e e'} he he' hk => ?_) hholds
    intro identity requestKey d d' hgrants hask htext hvalid
    refine conflict_of_holds he' (hk identity requestKey d hgrants) hask (fun hfp => htext ?_) hvalid
    exact hfree e.action (action_mem he) e'.action (action_mem he') _ _ hgrants.1 hask hfp
  · intro pre e post hsplit identity requestKey d hask hnew hvalid hjob
    have he : e ∈ trace (step host) .initial actions := by simp [hsplit]
    obtain ⟨as₁, a, as₂, -, rfl, rfl, -⟩ := trace_split hsplit
    exact first_of_rows (fun _ _ _ hrow => rows_of_run as₁ hrow) (hun _ he) hask hnew hvalid hjob
  · intro pre e post hsplit identity operationId hcharge hnew
    have he : e ∈ trace (step host) .initial actions := by simp [hsplit]
    obtain ⟨as₁, a, as₂, -, rfl, rfl, -⟩ := trace_split hsplit
    exact charged_of_rows (fun _ _ _ hrow => rows_of_run as₁ hrow) (hun _ he) hcharge hnew
  · refine List.Pairwise.imp_of_mem (fun {e e'} _ he' hk => ?_) (pairwise_charged actions)
    intro identity operationId hcharges hcharge
    obtain ⟨row, hrow⟩ := Option.isSome_iff_exists.1 (hk identity operationId hcharges)
    have hcharged := charge_of_mem he' hcharge
    generalize houtcome : e'.outcome = outcome at hcharged ⊢
    generalize hafter : e'.after = after at hcharged ⊢
    cases hcharged with
    | replayed => exact ⟨rfl, _, rfl⟩
    | refused _ hnone | charged hnone =>
      rw [hrow] at hnone
      cases hnone
  · intro e he error hout
    rw [entry_eq_of_mem he] at hout ⊢
    exact step_error hout

end Runs

def sampleHost : Host where
  encode _ := ""
  sha256 text := String.ofList (List.replicate 64 (if text = "resume" then 'b' else 'a'))
  length_sha256 text := by simp
  spaced := JsonText.exactStyle [' '] JsonText.blank_space
  compact := JsonText.exactStyle [] JsonText.blank_nil

def createJob : Action := .job (.create "job" "project" "session" "/workspace" "run" false "standard" 0)
def chargeRead : Action := .job (.chargeTool "job" "run:call-1" 1)
def extendUnder (requestKey : String) : Action := .job (.extendBudget "job" [("requests", .int 120)] requestKey 1)

def extendedState : State := final (step sampleHost) .initial [createJob, extendUnder "tool:run:call-1"]

/-- The charge finds the client's row and charges nothing. -/
theorem charge_skipped : ¬ ∀ (host : Host) (actions : List Action), CollisionFree host actions →
    Once host (trace (step host) .initial actions) := by
  intro h
  have hfree : CollisionFree sampleHost [createJob, extendUnder "tool:run:call-1", chargeRead] := by
    intro a ha a' ha' ask ask' hask hask' _
    simp only [List.mem_cons, List.not_mem_nil, or_false] at ha ha'
    rcases ha with rfl | rfl | rfl <;> cases hask
    rcases ha' with rfl | rfl | rfl <;> cases hask'
    rfl
  have hcharged := (h sampleHost _ hfree).charged
    (trace (step sampleHost) .initial [createJob, extendUnder "tool:run:call-1"])
    (entry (step sampleHost) extendedState chargeRead) [] rfl "job" "run:call-1"
  have hrow : (request? extendedState.db "job" ("tool:" ++ "run:call-1")).isSome = true := by decide +kernel
  obtain ⟨row, hrow⟩ := Option.isSome_iff_exists.1 hrow
  have hdoes := @charge_step sampleHost extendedState chargeRead "job" "run:call-1" rfl
  have hsame : (step sampleHost extendedState chargeRead).2 = extendedState ∧
      ∃ answer, (step sampleHost extendedState chargeRead).1 = .ok answer := by
    generalize step sampleHost extendedState chargeRead = r at hdoes ⊢
    obtain ⟨outcome, s'⟩ := r
    cases hdoes with
    | replayed => exact ⟨rfl, _, rfl⟩
    | refused _ hnone | charged hnone =>
      rw [hrow] at hnone
      cases hnone
  obtain ⟨value, now, hbefore, hafter⟩ := hcharged ⟨rfl, hsame.2⟩ (by
    intro e he hcharges
    rw [trace_cons, trace_cons, trace_nil] at he
    simp only [List.mem_cons, List.not_mem_nil, or_false] at he
    rcases he with rfl | rfl <;> exact absurd hcharges.1 (by intro hc; cases hc))
  change job? extendedState.db "job" = some value at hbefore
  change job? (step sampleHost extendedState chargeRead).2.db "job" = _ at hafter
  rw [hsame.1, hbefore] at hafter
  have hzero : value.consumed .toolCallsUsed = .int 0 := by
    have hstart : (job? extendedState.db "job").map (fun v => v.consumed .toolCallsUsed) = some (.int 0) := by rfl
    rw [hbefore] at hstart
    exact Option.some.inj hstart
  have hone := congrArg (fun v => v.consumed .toolCallsUsed) (Option.some.inj hafter)
  simp only [if_true, hzero] at hone
  exact absurd hone (by decide)

theorem once_of_unmixed_sample : Once sampleHost (trace (step sampleHost) .initial
    [createJob, chargeRead, chargeRead, extendUnder "extend-1", extendUnder "extend-1"]) := by
  refine once_of_unmixed _ ?_ (unmixed_of_apart ?_)
  · intro a ha a' ha' ask ask' hask hask' _
    simp only [List.mem_cons, List.not_mem_nil, or_false] at ha ha'
    rcases ha with rfl | rfl | rfl | rfl | rfl <;> cases hask <;>
      rcases ha' with rfl | rfl | rfl | rfl | rfl <;> cases hask' <;> rfl
  · intro a ha a' ha' identity requestKey d operationId hask hcharge heq
    simp only [List.mem_cons, List.not_mem_nil, or_false] at ha
    have hkey : requestKey = "extend-1" := by
      rcases ha with rfl | rfl | rfl | rfl | rfl <;> cases hask <;> rfl
    have hlist := congrArg (fun text => text.toList.head?) (hkey.symm.trans heq)
    simp at hlist

end PromptForge.JobRequests
