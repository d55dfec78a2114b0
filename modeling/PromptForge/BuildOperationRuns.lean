import PromptForge.BuildOperations

namespace PromptForge.BuildOperations
open Runs Tables

variable {δ : Type} {fingerprint : Fingerprint δ} {actions : List Action} {s : State δ}

def rowOf (s : State δ) (id : String) : Option (Row δ) := lookup Row.operationId s.rows id
def taskOf (s : State δ) (id : String) : Option Task := lookup Task.id s.tasks id

structure RowOk (fingerprint : Fingerprint δ) (actions : List Action) (s : State δ) (id : String) (r : Row δ) : Prop where
  named : r.payload.operationId = id
  digest : r.fingerprint = fingerprint r.payload.projectId r.payload.environment
  asked : ∃ now, .accept id r.payload.projectId r.payload.environment r.payload.sourceRevision now ∈ actions
  passed : r.payload.state = .passed → ∃ build ∈ s.builds, build.operationId = id ∧
    build.revision = r.payload.sourceRevision ∧ succeeded build.response = some true

structure TaskOk (s : State δ) (id : String) (t : Task) : Prop where
  row : ∃ r, rowOf s id = some r ∧ r.payload = t.value
  waiting : t.phase = .waiting → t.value.state = .queued ∧ id ∉ s.started
  executing : t.phase = .executing → t.value.state = .running

structure Inv (fingerprint : Fingerprint δ) (actions : List Action) (s : State δ) : Prop where
  rows : ∀ id r, rowOf s id = some r → RowOk fingerprint actions s id r
  tasks : ∀ id t, taskOf s id = some t → t.phase ≠ .ended → TaskOk s id t
  listed : ∀ id t, taskOf s id = some t → (rowOf s id).isSome
  keys : (s.tasks.map Task.id).Nodup
  once : s.started.Nodup
  known : ∀ id ∈ s.started, (rowOf s id).isSome
  exclusive : ∀ id id' t t', taskOf s id = some t → taskOf s id' = some t' → t.phase = .executing → t'.phase = .executing →
    t.value.projectId = t'.value.projectId → id = id'

structure Same (value later : Operation) : Prop where
  operationId : later.operationId = value.operationId
  projectId : later.projectId = value.projectId
  environment : later.environment = value.environment
  sourceRevision : later.sourceRevision = value.sourceRevision

lemma task?_eq {id : String} {phase : Phase} {value : Operation} (h : task? s id phase = some value) :
    taskOf s id = some ⟨value, phase⟩ := by
  obtain ⟨t, ht, hvalue⟩ := Option.bind_eq_some_iff.mp h
  split at hvalue
  next hphase =>
    cases hvalue
    subst hphase
    exact ht
  next => cases hvalue

lemma taskOf_id {id : String} {t : Task} (h : taskOf s id = some t) : t.value.operationId = id :=
  @lookup_key _ _ _ Task.id _ _ _ h

lemma lookup_save {rows : List (Row δ)} {value : Operation} {r : Row δ}
    (h : lookup Row.operationId rows value.operationId = some r) (id : String) :
    lookup Row.operationId (save rows value) id =
      if id = value.operationId then some { r with payload := value } else lookup Row.operationId rows id := by
  unfold save
  rw [@lookup_updateWhere _ _ _ Row.operationId _ (fun r => { r with payload := value }) fun _ => rfl]
  by_cases hid : id = value.operationId
  · subst hid
    have hkey : r.operationId = value.operationId := lookup_key h
    simp [h, hkey]
  · rw [if_neg hid]
    cases hr : lookup Row.operationId rows id with
    | none => rfl
    | some other =>
      have hkey : other.operationId = id := lookup_key hr
      simp [hkey, hid]

lemma lookup_task {tasks : List Task} {t t' : Task} (h : lookup Task.id tasks t'.id = some t) (id : String) :
    lookup Task.id (updateRow Task.id t' tasks) id = if id = t'.id then some t' else lookup Task.id tasks id := by
  rw [lookup_updateRow]
  by_cases hid : id = t'.id
  · subst hid
    simp [h, lookup_key h]
  · rw [if_neg hid]
    cases ht : lookup Task.id tasks id with
    | none => rfl
    | some other => simp [lookup_key ht, hid]

structure Change (s s' : State δ) (id : String) (row : Option (Row δ)) (task : Option Task) : Prop where
  rows : ∀ k, rowOf s' k = if k = id then row else rowOf s k
  tasks : ∀ k, taskOf s' k = if k = id then task else taskOf s k
  started : ∀ k, k ≠ id → (k ∈ s'.started ↔ k ∈ s.started)
  builds : ∀ build ∈ s.builds, build ∈ s'.builds
  keys : (s'.tasks.map Task.id).Nodup
  once : s'.started.Nodup

lemma RowOk.mono {s s' : State δ} {id : String} {r : Row δ} (h : RowOk fingerprint actions s id r)
    (hbuilds : ∀ build ∈ s.builds, build ∈ s'.builds) : RowOk fingerprint actions s' id r where
  named := h.named
  digest := h.digest
  asked := h.asked
  passed := fun hpassed => by
    obtain ⟨build, hbuild, hrest⟩ := h.passed hpassed
    exact ⟨build, hbuilds build hbuild, hrest⟩

variable (h : Inv fingerprint actions s)

include h in
lemma Inv.change {s' : State δ} {id : String} {row : Option (Row δ)} {task : Option Task}
    (hc : Change s s' id row task) (hrow : ∀ r, row = some r → RowOk fingerprint actions s' id r)
    (htask : ∀ t, task = some t → t.phase ≠ .ended → TaskOk s' id t) (hlisted : task.isSome → row.isSome) (hknown : id ∈ s'.started → row.isSome)
    (hexclusive : ∀ t, task = some t → t.phase = .executing → ∀ k t', k ≠ id → taskOf s k = some t' →
      t'.phase = .executing → t.value.projectId ≠ t'.value.projectId) : Inv fingerprint actions s' where
  rows := by
    intro k r hr
    rw [hc.rows] at hr
    split at hr
    next hk => exact hk ▸ hrow r hr
    next => exact (h.rows k r hr).mono hc.builds
  tasks := by
    intro k t ht hphase
    rw [hc.tasks] at ht
    split at ht
    next hk => exact hk ▸ htask t ht hphase
    next hk =>
      have hold := h.tasks k t ht hphase
      obtain ⟨r, hr, hpayload⟩ := hold.row
      refine ⟨⟨r, ?_, hpayload⟩, fun hwaiting => ?_, hold.executing⟩
      · rwa [hc.rows, if_neg hk]
      · exact ⟨(hold.waiting hwaiting).1, fun hstarted => (hold.waiting hwaiting).2 ((hc.started k hk).mp hstarted)⟩
  listed := by
    intro k t ht
    rw [hc.tasks] at ht
    rw [hc.rows]
    split at ht
    next hk => rw [if_pos hk]; exact hlisted (ht ▸ rfl)
    next hk => rw [if_neg hk]; exact h.listed k t ht
  keys := hc.keys
  once := hc.once
  known := by
    intro k hk
    rw [hc.rows]
    split
    next hid => exact hknown (hid ▸ hk)
    next hid => exact h.known k ((hc.started k hid).mp hk)
  exclusive := by
    intro k k' t t' ht ht' hphase hphase' hproject
    rw [hc.tasks] at ht ht'
    by_cases hk : k = id
    · by_cases hk' : k' = id
      · rw [hk, hk']
      · rw [if_pos hk] at ht
        rw [if_neg hk'] at ht'
        exact absurd hproject (hexclusive t ht hphase k' t' hk' ht' hphase')
    · rw [if_neg hk] at ht
      by_cases hk' : k' = id
      · rw [if_pos hk'] at ht'
        exact absurd hproject.symm (hexclusive t' ht' hphase' k t hk ht hphase)
      · rw [if_neg hk'] at ht'
        exact h.exclusive k k' t t' ht ht' hphase hphase' hproject

lemma inv_initial : Inv fingerprint actions (.initial : State δ) where
  rows := by
    intro id r hr
    cases hr
  tasks := by
    intro id t ht
    cases ht
  listed := by
    intro id t ht
    cases ht
  keys := List.nodup_nil
  once := List.nodup_nil
  known := by simp [State.initial]
  exclusive := by
    intro id id' t t' ht
    cases ht

lemma same_settled (value : Operation) (outcome : Outcome) : Same value (settled value outcome) := by
  cases outcome with
  | returned response revision =>
    simp only [settled]
    split
    · exact ⟨rfl, rfl, rfl, rfl⟩
    · split <;> exact ⟨rfl, rfl, rfl, rfl⟩
  | raised code => exact ⟨rfl, rfl, rfl, rfl⟩
  | cancelled => exact ⟨rfl, rfl, rfl, rfl⟩

lemma settled_passed {value : Operation} {outcome : Outcome} (h : (settled value outcome).state = .passed) :
    ∃ response, outcome = .returned response value.sourceRevision ∧ succeeded response = some true := by
  cases outcome with
  | raised code => cases h
  | cancelled => cases h
  | returned response revision =>
    simp only [settled] at h
    split at h
    · cases h
    · rename_i hrevision
      split at h
      · cases h
      · rename_i success hsuccess
        cases success
        · cases h
        · exact ⟨response, by simpa using hrevision, hsuccess⟩

lemma RowOk.save {s' : State δ} {value later : Operation} {r : Row δ} (h : RowOk fingerprint actions s value.operationId r)
    (hr : r.payload = value) (hsame : Same value later)
    (hpassed : later.state = .passed → ∃ build ∈ s'.builds, build.operationId = value.operationId ∧
      build.revision = value.sourceRevision ∧ succeeded build.response = some true) :
    RowOk fingerprint actions s' value.operationId { r with payload := later } where
  named := hsame.operationId
  digest := by
    change r.fingerprint = fingerprint later.projectId later.environment
    rw [hsame.projectId, hsame.environment, ← hr]
    exact h.digest
  asked := by
    change ∃ now, .accept value.operationId later.projectId later.environment later.sourceRevision now ∈ actions
    rw [hsame.projectId, hsame.environment, hsame.sourceRevision, ← hr]
    exact hr ▸ h.asked
  passed := fun h => by
    obtain ⟨build, hbuild, hid, hrevision, hsuccess⟩ := hpassed h
    exact ⟨build, hbuild, hid, hrevision.trans hsame.sourceRevision.symm, hsuccess⟩

include h in
lemma inv_over {value later : Operation} {phase : Phase} (builds : List Build)
    (ht : taskOf s value.operationId = some ⟨value, phase⟩) (hid : later.operationId = value.operationId) :
    Inv fingerprint actions
      { s with builds := s.builds ++ builds, tasks := updateRow Task.id ⟨later, .ended⟩ s.tasks } := by
  have htask := @lookup_task s.tasks _ ⟨later, .ended⟩ (hid.symm ▸ ht)
  simp only [Task.id, hid] at htask
  refine h.change (?_ : Change s _ value.operationId (rowOf s value.operationId) (some ⟨later, .ended⟩)) (fun r hr => ?_)
    (fun t hsome hphase => ?_) (fun _ => h.listed _ _ ht) (h.known _) fun t hsome hphase => ?_
  · refine ⟨fun k => ?_, htask, fun _ _ => Iff.rfl, fun _ => List.mem_append_left _, ?_, h.once⟩
    · split
      next hk => rw [hk]; rfl
      next => rfl
    · rw [map_key_updateRow]
      exact h.keys
  · exact (h.rows _ r hr).mono fun _ => List.mem_append_left _
  · exact absurd (Option.some.inj hsome ▸ rfl) hphase
  · obtain rfl := Option.some.inj hsome
    cases hphase

include h in
lemma inv_saved {value later : Operation} {phase : Phase} (builds : List Build)
    (ht : taskOf s value.operationId = some ⟨value, phase⟩) (hphase : phase ≠ .ended) (hsame : Same value later)
    (hpassed : later.state = .passed → ∃ build ∈ s.builds ++ builds, build.operationId = value.operationId ∧
      build.revision = value.sourceRevision ∧ succeeded build.response = some true) :
    Inv fingerprint actions
      { s with
        builds := s.builds ++ builds
        rows := save s.rows later
        tasks := deleteRow Task.id later.operationId s.tasks } := by
  obtain ⟨r, hr, hpayload⟩ := (h.tasks _ _ ht hphase).row
  have hid := hsame.operationId
  have hsave := @lookup_save _ s.rows later r (hid.symm ▸ hr)
  refine h.change (?_ : Change s _ value.operationId (some { r with payload := later }) none) (fun r' hsome => ?_)
    (fun t ht => by cases ht) (fun _ => rfl) (fun _ => rfl) (fun t ht => by cases ht)
  · refine ⟨?_, fun k => ?_, fun _ _ => Iff.rfl, fun _ => List.mem_append_left _, nodup_deleteRow h.keys _, h.once⟩
    · rw [hid] at hsave
      exact hsave
    · exact hid ▸ lookup_deleteRow later.operationId s.tasks k
  · obtain rfl := Option.some.inj hsome
    exact (h.rows _ r hr).save hpayload hsame hpassed

include h in
lemma inv_conclude {value later : Operation} {phase : Phase} (builds : List Build)
    (ht : taskOf s value.operationId = some ⟨value, phase⟩) (hphase : phase ≠ .ended) (hsame : Same value later)
    (hpassed : later.state = .passed → ∃ build ∈ s.builds ++ builds, build.operationId = value.operationId ∧
      build.revision = value.sourceRevision ∧ succeeded build.response = some true) (stored : Bool) :
    Inv fingerprint actions (conclude { s with builds := s.builds ++ builds } later stored) := by
  cases stored with
  | false => exact inv_over h builds ht hsame.operationId
  | true => exact inv_saved h builds ht hphase hsame hpassed

lemma not_held {projectId : String} (hfree : held s projectId = false) {id : String} {t : Task} (ht : taskOf s id = some t)
    (hphase : t.phase = .executing) : projectId ≠ t.value.projectId := by
  rintro rfl
  have hmem : t ∈ s.tasks := lookup_mem ht
  simp only [held, List.any_eq_false, decide_eq_true_eq] at hfree
  exact hfree t hmem ⟨hphase, rfl⟩

include h in
lemma inv_running {value later : Operation} (ht : taskOf s value.operationId = some ⟨value, .waiting⟩)
    (hfree : held s value.projectId = false) (hsame : Same value later) (hrunning : later.state = .running) :
    Inv fingerprint actions
      { s with
        rows := save s.rows later
        tasks := updateRow Task.id ⟨later, .executing⟩ s.tasks
        started := s.started ++ [value.operationId] } := by
  obtain ⟨r, hr, hpayload⟩ := (h.tasks _ _ ht (by rintro ⟨⟩)).row
  obtain ⟨-, hnew⟩ := (h.tasks _ _ ht (by rintro ⟨⟩)).waiting rfl
  have hid := hsame.operationId
  have hsave := @lookup_save _ s.rows later r (hid.symm ▸ hr)
  have htask := @lookup_task s.tasks _ ⟨later, .executing⟩ (hid.symm ▸ ht)
  simp only [Task.id, hid] at htask
  rw [hid] at hsave
  refine h.change (?_ : Change s _ value.operationId (some { r with payload := later }) (some ⟨later, .executing⟩))
    (fun r' hsome => ?_) (fun t hsome hphase => ?_) (fun _ => rfl) (fun _ => rfl) fun t hsome hphase k t' hk ht' hphase' => ?_
  · refine ⟨hsave, htask, fun k hk => ?_, fun _ => id, ?_, ?_⟩
    · change k ∈ s.started ++ [value.operationId] ↔ _
      simp [hk]
    · rw [map_key_updateRow]
      exact h.keys
    · exact List.nodup_append.mpr ⟨h.once, List.nodup_singleton _, fun a ha b hb hab =>
        hnew (List.mem_singleton.mp hb ▸ hab ▸ ha)⟩
  · obtain rfl := Option.some.inj hsome
    exact (h.rows _ r hr).save hpayload hsame fun hpassed => by simp [hrunning] at hpassed
  · obtain rfl := Option.some.inj hsome
    refine ⟨⟨{ r with payload := later }, ?_, rfl⟩, by rintro ⟨⟩, fun _ => hrunning⟩
    exact (hsave _).trans (if_pos rfl)
  · obtain rfl := Option.some.inj hsome
    change later.projectId ≠ _
    rw [hsame.projectId]
    exact not_held hfree ht' hphase'

include h in
lemma inv_begin {value : Operation} (ht : taskOf s value.operationId = some ⟨value, .waiting⟩)
    (hfree : held s value.projectId = false) (stored storedAfter : Bool) (now : ℤ) :
    Inv fingerprint actions (begin s value stored storedAfter now) := by
  cases stored with
  | false =>
    have hsame : Same value (unavailable { value with state := .running, updatedAt := now } none) := ⟨rfl, rfl, rfl, rfl⟩
    have hconclude := inv_conclude h [] ht nofun hsame nofun storedAfter
    rwa [List.append_nil] at hconclude
  | true => exact inv_running h ht hfree ⟨rfl, rfl, rfl, rfl⟩ rfl

lemma rowOf_reopen (s : State δ) (now : ℤ) (id : String) :
    rowOf { s with rows := reopen s.rows now, tasks := [] } id =
      (rowOf s id).map fun r => if r.payload.state.terminal then r else lost now r := by
  have hrow := @lookup_updateWhere _ _ _ Row.operationId (fun r => !r.payload.state.terminal) (lost now) (fun _ => rfl) s.rows id
  refine hrow.trans (congrArg (fun f => (rowOf s id).map f) ?_)
  funext r
  cases r.payload.state.terminal <;> rfl

include h in
lemma inv_restart (now : ℤ) :
    Inv fingerprint actions { s with rows := reopen s.rows now, tasks := [] } where
  rows := by
    intro id r' hr'
    rw [rowOf_reopen] at hr'
    obtain ⟨r, hr, rfl⟩ := Option.map_eq_some_iff.mp hr'
    have hold := h.rows id r hr
    split
    · exact hold.mono fun _ hbuild => hbuild
    · exact ⟨hold.named, hold.digest, hold.asked, nofun⟩
  tasks := by
    intro id t ht
    cases ht
  listed := by
    intro id t ht
    cases ht
  keys := List.nodup_nil
  once := h.once
  known := by
    intro id hid
    rw [rowOf_reopen, Option.isSome_map]
    exact h.known id hid
  exclusive := by
    intro id id' t t' ht
    cases ht

variable [DecidableEq δ]

include h in
lemma inv_accept {id projectId sourceRevision : String} {environment : Option String} {now : ℤ}
    (hasked : .accept id projectId environment sourceRevision now ∈ actions) :
    Inv fingerprint actions (accept fingerprint s (accepted id projectId environment sourceRevision now)).2 := by
  unfold accept
  split
  next prior hprior =>
    split <;> exact h
  next hnone =>
    have hrow : rowOf s id = none := hnone
    have htask : taskOf s id = none := by
      by_contra hsome
      obtain ⟨t, ht⟩ := Option.ne_none_iff_exists'.mp hsome
      have hlisted := h.listed id t ht
      simp [hrow] at hlisted
    have hrows := @insertRow_of_fresh _ _ _ Row.operationId
      ⟨id, fingerprint projectId environment, accepted id projectId environment sourceRevision now⟩ _ hrow
    have htasks := @insertRow_of_fresh _ _ _ Task.id ⟨accepted id projectId environment sourceRevision now, .waiting⟩ _ htask
    have hnew : id ∉ s.started := fun hstarted => by
      have hknown := h.known id hstarted
      simp [hrow] at hknown
    refine h.change (?_ : Change s _ id
      (some ⟨id, fingerprint projectId environment, accepted id projectId environment sourceRevision now⟩)
      (some ⟨accepted id projectId environment sourceRevision now, .waiting⟩)) (fun r hsome => ?_) (fun t hsome hphase => ?_)
      (fun _ => rfl) (fun _ => rfl) fun t hsome hphase => ?_
    · refine ⟨fun k => ?_, fun k => ?_, fun _ _ => Iff.rfl, fun _ hmem => hmem, nodup_insertRow htasks h.keys, h.once⟩
      · exact (lookup_insertRow hrows k).trans (if_congr eq_comm rfl rfl)
      · exact (lookup_insertRow htasks k).trans (if_congr eq_comm rfl rfl)
    · obtain rfl := Option.some.inj hsome
      exact ⟨rfl, rfl, ⟨now, hasked⟩, nofun⟩
    · obtain rfl := Option.some.inj hsome
      exact ⟨⟨_, (lookup_insertRow hrows id).trans (if_pos rfl), rfl⟩, fun _ => ⟨rfl, hnew⟩, nofun⟩
    · obtain rfl := Option.some.inj hsome
      cases hphase

include h in
lemma inv_step {a : Action} (ha : a ∈ actions) : Inv fingerprint actions (step fingerprint s a).2 := by
  cases a with
  | accept id projectId environment sourceRevision now => exact inv_accept h ha
  | begin id stored storedAfter now =>
    simp only [step]
    split
    next => exact h
    next value hvalue =>
      have ht := task?_eq hvalue
      obtain rfl := taskOf_id ht
      by_cases hfree : held s value.projectId = true
      · rw [if_pos hfree]
        exact h
      · rw [if_neg hfree]
        exact inv_begin h ht (by simpa using hfree) stored storedAfter now
  | finish id outcome stored now =>
    simp only [step]
    split
    next => exact h
    next value hvalue =>
      have ht := task?_eq hvalue
      obtain rfl := taskOf_id ht
      have hsettled := same_settled value outcome
      have hsame : Same value { settled value outcome with updatedAt := now } :=
        ⟨hsettled.operationId, hsettled.projectId, hsettled.environment, hsettled.sourceRevision⟩
      refine inv_conclude h (returnedBuild value.operationId outcome) ht nofun hsame (fun hpassed => ?_) stored
      obtain ⟨response, rfl, hsuccess⟩ := settled_passed hpassed
      exact ⟨_, List.mem_append_right _ (List.mem_singleton_self _), rfl, rfl, hsuccess⟩
  | cancel id atLock stored now =>
    simp only [step]
    split
    next => exact h
    next value hvalue =>
      have ht := task?_eq hvalue
      obtain rfl := taskOf_id ht
      cases atLock with
      | true =>
        have hsame : Same value { interrupted value with updatedAt := now } := ⟨rfl, rfl, rfl, rfl⟩
        have hconclude := inv_conclude h [] ht nofun hsame nofun stored
        rwa [List.append_nil] at hconclude
      | false =>
        have hover := inv_over h [] ht rfl
        rwa [List.append_nil] at hover
  | restart now => exact inv_restart h now

omit [DecidableEq δ] in
lemma get_eq_some {id : String} {value : Operation} (h : get s id = some value) : ∃ r, rowOf s id = some r ∧ r.payload = value :=
  Option.map_eq_some_iff.mp h

omit [DecidableEq δ] in
lemma not_terminal (h : Inv fingerprint actions s) {value : Operation} {phase : Phase}
    (ht : taskOf s value.operationId = some ⟨value, phase⟩) (hphase : phase ≠ .ended) :
    ∃ r, rowOf s value.operationId = some r ∧ r.payload.state.terminal = false := by
  have htask := h.tasks _ _ ht hphase
  obtain ⟨r, hr, hpayload⟩ := htask.row
  refine ⟨r, hr, ?_⟩
  rw [hpayload]
  cases phase with
  | waiting =>
    have hqueued : value.state = .queued := (htask.waiting rfl).1
    exact congrArg BuildState.terminal hqueued
  | executing =>
    have hrunning : value.state = .running := htask.executing rfl
    exact congrArg BuildState.terminal hrunning
  | ended => exact absurd rfl hphase

omit [DecidableEq δ] in
lemma get_save (h : Inv fingerprint actions s) {value later other : Operation} {phase : Phase} {id : String}
    (ht : taskOf s value.operationId = some ⟨value, phase⟩) (hphase : phase ≠ .ended)
    (hlater : later.operationId = value.operationId) (hget : get s id = some other) (hterminal : other.state.terminal = true) :
    (lookup Row.operationId (save s.rows later) id).map Row.payload = some other := by
  obtain ⟨r, hr, hrunning⟩ := not_terminal h ht hphase
  have hne : id ≠ later.operationId := by
    rintro rfl
    obtain ⟨r', hr', rfl⟩ := get_eq_some hget
    rw [hlater] at hr'
    obtain rfl := Option.some.inj (hr.symm.trans hr')
    simp [hrunning] at hterminal
  rw [@lookup_save _ s.rows later r (hlater.symm ▸ hr), if_neg hne]
  exact hget

omit [DecidableEq δ] in
lemma get_conclude (h : Inv fingerprint actions s) (later : Operation) {value other : Operation} {phase : Phase} {id : String}
    (ht : taskOf s value.operationId = some ⟨value, phase⟩) (hphase : phase ≠ .ended)
    (hlater : later.operationId = value.operationId) (hget : get s id = some other) (hterminal : other.state.terminal = true)
    (builds : List Build) (stored : Bool) : get (conclude { s with builds := builds } later stored) id = some other := by
  cases stored with
  | false => exact hget
  | true => exact get_save h ht hphase hlater hget hterminal

include h in
lemma get_step (a : Action) {id : String} {other : Operation} (hget : get s id = some other)
    (hterminal : other.state.terminal = true) : get (step fingerprint s a).2 id = some other := by
  cases a with
  | accept operationId projectId environment sourceRevision now =>
    simp only [step, accept]
    split
    next => split <;> exact hget
    next =>
      obtain ⟨r, hr, rfl⟩ := get_eq_some hget
      have hr : lookup Row.operationId s.rows id = some r := hr
      simp [get, lookup_append, hr]
  | begin operationId stored storedAfter now =>
    simp only [step]
    split
    next => exact hget
    next value hvalue =>
      have ht := task?_eq hvalue
      obtain rfl := taskOf_id ht
      split
      · exact hget
      · cases stored with
        | false =>
          exact get_conclude h (unavailable { value with state := .running, updatedAt := now } none) ht (by rintro ⟨⟩) rfl hget hterminal
            s.builds storedAfter
        | true => exact get_save h ht (by rintro ⟨⟩) rfl hget hterminal
  | finish operationId outcome stored now =>
    simp only [step]
    split
    next => exact hget
    next value hvalue =>
      have ht := task?_eq hvalue
      obtain rfl := taskOf_id ht
      exact get_conclude h { settled value outcome with updatedAt := now } ht (by rintro ⟨⟩) (same_settled value outcome).operationId hget hterminal _ stored
  | cancel operationId atLock stored now =>
    simp only [step]
    split
    next => exact hget
    next value hvalue =>
      have ht := task?_eq hvalue
      obtain rfl := taskOf_id ht
      cases atLock with
      | true => exact get_conclude h { interrupted value with updatedAt := now } ht (by rintro ⟨⟩) rfl hget hterminal s.builds stored
      | false => exact hget
  | restart now =>
    obtain ⟨r, hr, rfl⟩ := get_eq_some hget
    have hrow := rowOf_reopen s now id
    rw [hr, Option.map_some, if_pos hterminal] at hrow
    exact congrArg (Option.map Row.payload) hrow

lemma inv_run {as : List Action} (has : ∀ a ∈ as, a ∈ actions) (hs : Inv fingerprint actions s) :
    (∀ e ∈ trace (step fingerprint) s as, Inv fingerprint actions e.before) ∧
      Inv fingerprint actions (final (step fingerprint) s as) := by
  obtain ⟨hsteps, hfinal⟩ := @invariant_of _ _ _ (step fingerprint) (Inv fingerprint actions) (fun e => e.action ∈ actions)
    (fun s a h ha => inv_step h ha) s as hs fun e he => has _ (action_mem he)
  exact ⟨fun e he => (hsteps e he).1, hfinal⟩

lemma get_final {as : List Action} (has : ∀ a ∈ as, a ∈ actions) (hs : Inv fingerprint actions s) {id : String}
    {value : Operation} (hget : get s id = some value) (hterminal : value.state.terminal = true) :
    get (final (step fingerprint) s as) id = some value := by
  have hkeeps := @monotone_of _ _ _ (step fingerprint) (Inv fingerprint actions) (fun e => e.action ∈ actions)
    (fun s s' => get s id = some value → get s' id = some value) (fun _ h => h) (fun _ _ _ h h' hget => h' (h hget))
    (fun s a h ha => inv_step h ha) (fun s a h _ hget => get_step h a hget hterminal) s as hs fun e he => has _ (action_mem he)
  exact hkeeps hget

include h in
lemma refused (hfree : CollisionFree fingerprint actions)
    {operationId projectId sourceRevision : String} {environment : Option String} {now : ℤ} {value : Operation}
    (ha : .accept operationId projectId environment sourceRevision now ∈ actions) (hget : get s operationId = some value)
    (hne : (value.projectId, value.environment) ≠ (projectId, environment)) :
    step fingerprint s (.accept operationId projectId environment sourceRevision now) = (.conflict, s) := by
  obtain ⟨r, hr, rfl⟩ := get_eq_some hget
  have hrow := h.rows _ r hr
  have hr : lookup Row.operationId s.rows operationId = some r := hr
  have hdigest : r.fingerprint ≠ fingerprint projectId environment := fun hsame => by
    obtain ⟨then', hthen⟩ := hrow.asked
    exact hne (hfree _ hthen _ ha _ _ rfl rfl (hrow.digest ▸ hsame))
  simp [step, accept, accepted, hr, hdigest]

/-- Two builds of one project; the second is asked for again under another project, a restart
    finds it running. -/
def twoBuilds : List Action :=
  [.accept "a" "p" none "r1" 0, .accept "b" "p" none "r1" 1, .begin "a" true true 2, .begin "b" true true 3,
    .finish "a" (.returned (.obj [("result", .obj [("success", .bool true)])]) "r1") true 4, .begin "b" true true 5,
    .accept "b" "q" none "r1" 6, .restart 7, .accept "b" "p" none "r1" 8, .begin "b" true true 9]

example : (final (step Prod.mk) .initial twoBuilds).started = ["a", "b"] := by decide

end PromptForge.BuildOperations
