import PromptForge.HarnessRequestLaws

namespace PromptForge.HarnessRequests
open Runs

section
variable {host : Host} {R : Request → Prop} {s : State}

lemma record_kept (h : Inv host R s) {a : Action} {key saved : String} {status : Status}
    (hfile : s.files key = some (.record saved status)) :
    ∃ status', (step host s a).2.files key = some (.record saved status') ∧
      ∀ result, status = .completed result → status' = .completed result := by
  cases a with
  | request r =>
    refine ⟨status, ?_, fun _ hstatus => hstatus⟩
    change (arrive host s r).2.files key = _
    rcases @arrive_cases host s r with ⟨heq, -⟩ | ⟨-, task, -, ⟨-, heq⟩ | ⟨-, heq⟩⟩ | ⟨-, -, heq⟩ <;> rw [heq] <;> exact hfile
  | crash cuts => exact ⟨status, hfile, fun _ hstatus => hstatus⟩
  | advance k time =>
    change ∃ status', (advance host s k time).2.files key = _ ∧ _
    have hcases := @advance_cases host s k time
    generalize (advance host s k time).1 = outcome at hcases
    generalize (advance host s k time).2 = s' at hcases
    by_cases hk : key = k
    · subst hk
      cases hcases with
      | reserve _ hnone =>
        rw [hnone] at hfile
        cases hfile
      | write hpending =>
        rw [h.reserved key _ hpending] at hfile
        cases hfile
      | @receipt r result hpending =>
        rw [h.recording key r result hpending] at hfile
        cases hfile
        refine ⟨.completed result, ?_, fun _ hstatus => by cases hstatus⟩
        rw [setPending_files, setFile_files, Function.update_self]
      | _ => exact ⟨status, hfile, fun _ hstatus => hstatus⟩
    · refine ⟨status, ?_, fun _ hstatus => hstatus⟩
      cases hcases with
      | reserve _ _ =>
        rw [setPending_files, setFile_files, Function.update_of_ne hk]
        exact hfile
      | write _ =>
        rw [setPending_files, setFile_files, Function.update_of_ne hk]
        exact hfile
      | receipt _ =>
        rw [setPending_files, setFile_files, Function.update_of_ne hk]
        exact hfile
      | _ => exact hfile

lemma step_grows (a : Action) (sessionId : String) : Grows (s.logs sessionId) ((step host s a).2.logs sessionId) := by
  cases a with
  | request r =>
    change Grows _ ((arrive host s r).2.logs sessionId)
    rcases @arrive_cases host s r with ⟨heq, -⟩ | ⟨-, task, -, ⟨-, heq⟩ | ⟨-, heq⟩⟩ | ⟨-, -, heq⟩ <;> rw [heq] <;>
      exact Grows.refl _
  | crash cuts => exact crash_grows s cuts sessionId
  | advance key time =>
    change Grows _ ((advance host s key time).2.logs sessionId)
    have hcases := @advance_cases host s key time
    generalize (advance host s key time).1 = outcome at hcases
    generalize (advance host s key time).2 = s' at hcases
    cases hcases with
    | run _ hinvoke => exact invoke_grows hinvoke sessionId
    | _ => exact Grows.refl _

def Changes (key : String) (e : Runs.Entry State Action Outcome) : Prop :=
  ∃ sessionId, e.after.logs sessionId ≠ e.before.logs sessionId ∧
    match e.action with
    | .request _ => False
    | .advance k _ => k = key
    | .crash cuts => ∃ cut, cuts sessionId = some cut ∧ cut.key = key

def Distinct (host : Host) (R : Request → Prop) : Prop :=
  ∀ r r', R r → R r' → r.fingerprint host = r'.fingerprint host → r.method = r'.method ∧ r.params = r'.params

def Spent (host : Host) (R : Request → Prop) (key : String) (s : State) : Prop :=
  ∃ r e status, R r ∧ r.key = key ∧ s.files key = some (.record (r.fingerprint host) status) ∧
    entryOf host r = .ok e ∧ Landed host key (s.logs e.sessionId)

lemma spent_kept (h : Inv host R s) {key : String} (hspent : Spent host R key s) (a : Action) :
    Spent host R key (step host s a).2 := by
  obtain ⟨r, e, status, hr, hkey, hfile, hentry, hlanded⟩ := hspent
  obtain ⟨status', hfile', -⟩ := @record_kept host R s h a key _ status hfile
  exact ⟨r, e, status', hr, hkey, hfile', hentry, hlanded.grows (step_grows a e.sessionId)⟩

lemma request_eq {r r' : Request} (hdistinct : Distinct host R) (hr : R r) (hr' : R r') (hkey : r.key = r'.key)
    (h : r.fingerprint host = r'.fingerprint host) : r = r' := by
  obtain ⟨hmethod, hparams⟩ := hdistinct r r' hr hr' h
  cases r
  cases r'
  simp_all

lemma changes_cases (h : Inv host R s) {a : Action} {key : String} (hchanges : Changes key (entry (step host) s a)) :
    ∃ (r : Request) (e : HarnessRequests.Entry), s.pending key = some ⟨r, .operating⟩ ∧ entryOf host r = .ok e ∧ ¬ Landed host key (s.logs e.sessionId) ∧
      Landed host key ((step host s a).2.logs e.sessionId) := by
  obtain ⟨sessionId, hlogs, hby⟩ := hchanges
  cases a with
  | request r => exact hby.elim
  | advance k time =>
    have hk : k = key := hby
    subst hk
    change (advance host s k time).2.logs sessionId ≠ s.logs sessionId at hlogs
    change ∃ (r : Request) (e : HarnessRequests.Entry), _ ∧ _ ∧ _ ∧ Landed host k ((advance host s k time).2.logs e.sessionId)
    have hcases := @advance_cases host s k time
    generalize (advance host s k time).1 = outcome at hcases
    generalize (advance host s k time).2 = s' at hcases hlogs ⊢
    cases hcases with
    | @run r result logs hpending hinvoke =>
      obtain ⟨-, hkey, -⟩ := h.task k _ hpending
      change r.key = k at hkey
      rcases invoke_ok hinvoke with heq | ⟨e, event, -, hentry, hid, hbroken, hnew, heq⟩
      · rw [heq] at hlogs
        exact absurd rfl hlogs
      · rw [hkey] at hid hnew
        refine ⟨r, e, hpending, hentry, ?_, ?_⟩
        · rintro (htail | ⟨saved, hsaved, hsavedId⟩)
          · exact hbroken htail
          · exact hnew saved hsaved hsavedId
        · refine .inr ⟨event, ?_, hid⟩
          rw [heq, setPending_logs]
          change event ∈ (Function.update s.logs e.sessionId _ e.sessionId).events
          rw [Function.update_self]
          exact List.mem_append_right _ (List.mem_singleton_self _)
    | _ => exact absurd rfl hlogs
  | crash cuts =>
    obtain ⟨cut, hcut, hkey⟩ := hby
    have hafter : (step host s (.crash cuts)).2.logs sessionId = cutLog host s sessionId cut := by
      simp only [step, crash, hcut]
    change (step host s (.crash cuts)).2.logs sessionId ≠ s.logs sessionId at hlogs
    rw [hafter] at hlogs
    rcases @cutLog_cases host s sessionId cut with hsame | ⟨r, e, hpending, -, hentry, hsession, hlanded, -, hlands⟩
    · exact absurd hsame hlogs
    · rw [hkey] at hpending hlands
      obtain ⟨-, hrkey, -⟩ := h.task key _ hpending
      change r.key = key at hrkey
      rw [hrkey] at hlanded
      refine ⟨r, e, hpending, hentry, ?_, ?_⟩
      · rw [hsession]
        exact hlanded
      · rw [hsession, hafter]
        exact hlands hrkey

lemma spent_of_changes (h : Inv host R s) {a : Action} {key : String}
    (hchanges : Changes key (entry (step host) s a)) : Spent host R key (step host s a).2 := by
  obtain ⟨r, e, hpending, hentry, -, hlanded⟩ := changes_cases h hchanges
  obtain ⟨hr, hkey, -⟩ := h.task key _ hpending
  obtain ⟨status, hfile, -⟩ := @record_kept host R s h a key _ _ (h.operating key r hpending)
  exact ⟨r, e, status, hr, hkey, hfile, hentry, hlanded⟩

lemma not_changes_of_spent (hdistinct : Distinct host R) (h : Inv host R s) {key : String}
    (hspent : Spent host R key s) (a : Action) : ¬ Changes key (entry (step host) s a) := by
  intro hchanges
  obtain ⟨r, e, hpending, hentry, hlanded, -⟩ := changes_cases h hchanges
  obtain ⟨r', e', status, hr', hkey', hfile, hentry', hlanded'⟩ := hspent
  obtain ⟨hr, hkey, -⟩ := h.task key _ hpending
  rw [h.operating key r hpending] at hfile
  have hsame : r = r' := request_eq hdistinct hr hr' (hkey.trans hkey'.symm) (by
    simp only [Option.some.injEq, File.record.injEq] at hfile
    exact hfile.1)
  rw [← hsame, hentry] at hentry'
  cases hentry'
  exact hlanded hlanded'

lemma changes_once (hdistinct : Distinct host R) {actions : List Action} (hasks : ∀ a ∈ actions, Asks R a)
    (key : String) : (trace (step host) initial actions).Pairwise fun e e' => ¬ (Changes key e ∧ Changes key e') := by
  apply @pairwise_of _ _ _ (step host) (Inv host R) (fun e => Asks R e.action)
    (fun e s => Changes key e → Spent host R key s)
  · intro s a h ha
    exact inv_step h ha
  · intro s a h _ hchanges
    exact spent_of_changes h hchanges
  · intro e s a h _ hspent hchanges
    exact spent_kept h (hspent hchanges) a
  · rintro e s a h - hspent ⟨hchanges, hchanges'⟩
    exact not_changes_of_spent hdistinct h (hspent hchanges) a hchanges'
  · exact inv_initial R
  · exact fun e he => hasks _ (action_mem he)

lemma receipt_of_answer {a : Action} {key : String} {result : Result}
    (hanswer : (step host s a).1 = .answered key (.ok result)) :
    ∃ saved, (step host s a).2.files key = some (.record saved (.completed result)) := by
  cases a with
  | request r =>
    change (arrive host s r).1 = _ at hanswer
    rcases @arrive_cases host s r with ⟨heq, -⟩ | ⟨-, task, -, ⟨-, heq⟩ | ⟨-, heq⟩⟩ | ⟨-, -, heq⟩ <;>
      (rw [heq] at hanswer; cases hanswer)
  | crash cuts => cases hanswer
  | advance k time =>
    change (advance host s k time).1 = _ at hanswer
    change ∃ saved, (advance host s k time).2.files key = _
    have hcases := @advance_cases host s k time
    rw [hanswer] at hcases
    generalize (advance host s k time).2 = s' at hcases
    cases hcases with
    | replay _ hfile => exact ⟨_, hfile⟩
    | @receipt r _ _ =>
      refine ⟨r.fingerprint host, ?_⟩
      rw [setPending_files, setFile_files, Function.update_self]

lemma answers_agree {actions : List Action} (hasks : ∀ a ∈ actions, Asks R a) (key : String) :
    (trace (step host) initial actions).Pairwise fun e e' => ∀ result result',
      e.outcome = .answered key (.ok result) → e'.outcome = .answered key (.ok result') → result = result' := by
  apply @pairwise_of _ _ _ (step host) (Inv host R) (fun e => Asks R e.action)
    (fun e s => ∀ result, e.outcome = .answered key (.ok result) →
      ∃ saved, s.files key = some (.record saved (.completed result)))
  · intro s a h ha
    exact inv_step h ha
  · intro s a _ _ result hanswer
    exact receipt_of_answer hanswer
  · intro e s a h _ hsaved result hanswer
    obtain ⟨saved, hfile⟩ := hsaved result hanswer
    obtain ⟨status, hfile', hstatus⟩ := @record_kept host R s h a key saved _ hfile
    exact ⟨saved, by rw [hfile', hstatus result rfl]⟩
  · intro e s a h _ hsaved result result' hanswer hanswer'
    obtain ⟨saved, hfile⟩ := hsaved result hanswer
    obtain ⟨status, hfile', hstatus⟩ := @record_kept host R s h a key saved _ hfile
    obtain ⟨saved', hfile''⟩ := receipt_of_answer hanswer'
    rw [hfile', hstatus result rfl] at hfile''
    cases hfile''
    rfl
  · exact inv_initial R
  · exact fun e he => hasks _ (action_mem he)

def Differs (r r' : Request) : Prop := r.method ≠ r'.method ∨ r.params ≠ r'.params

lemma fingerprint_ne {r r' : Request} (hdistinct : Distinct host R) (hr : R r) (hr' : R r') (h : Differs r r') :
    r.fingerprint host ≠ r'.fingerprint host := by
  intro hsame
  obtain ⟨hmethod, hparams⟩ := hdistinct r r' hr hr' hsame
  rcases h with h | h
  · exact h hmethod
  · exact h hparams

lemma refused_while_pending (hdistinct : Distinct host R) (h : Inv host R s) {r : Request} {t : Task} (hr : R r)
    (hpending : s.pending r.key = some t) (hdiffers : Differs t.request r) :
    step host s (.request r) = (.refused .conflict, s) := by
  obtain ⟨ht, -, hvalid⟩ := h.task r.key t hpending
  change arrive host s r = _
  rcases @arrive_cases host s r with ⟨-, hinvalid⟩ | ⟨-, task, htask, ⟨hsame, -⟩ | ⟨-, heq⟩⟩ | ⟨-, hnone, -⟩
  · rw [hvalid] at hinvalid
    cases hinvalid
  · rw [hpending] at htask
    cases htask
    exact absurd hsame (fingerprint_ne hdistinct ht hr hdiffers)
  · exact heq
  · rw [hpending] at hnone
    cases hnone

lemma refused_by_record (hdistinct : Distinct host R) (h : Inv host R s) {r r' : Request} {stage : Stage}
    {status : Status} {key : String} (hr' : R r') (hpending : s.pending key = some ⟨r, stage⟩)
    (hfile : s.files key = some (.record (r'.fingerprint host) status)) (hdiffers : Differs r r') (time : String) :
    step host s (.advance key time) = (.answered key (.error .conflict), s.setPending key none) := by
  obtain ⟨hr, -, -⟩ := h.task key _ hpending
  have hne := fingerprint_ne hdistinct hr hr' hdiffers
  change advance host s key time = _
  cases stage with
  | reading =>
    unfold advance
    simp only [hpending, hfile, if_pos (Ne.symm hne)]
  | reserved =>
    rw [h.reserved key r hpending] at hfile
    cases hfile
  | operating =>
    rw [h.operating key r hpending] at hfile
    simp only [Option.some.injEq, File.record.injEq] at hfile
    exact absurd hfile.1 hne
  | recording result =>
    rw [h.recording key r result hpending] at hfile
    simp only [Option.some.injEq, File.record.injEq] at hfile
    exact absurd hfile.1 hne

def Quiet (s : State) : Prop := ∀ key, s.pending key = none

def retry (host : Host) (s : State) (r : Request) (time : String) : List Outcome :=
  (trace (step host) s (.request r :: List.replicate 4 (.advance r.key time))).map fun e => e.outcome

def AnswersWell (host : Host) (s : State) (r : Request) (time : String) : Prop :=
  ∃ answer, Outcome.answered r.key answer ∈ retry host s r time ∧
    ∀ failure, answer = .error failure → failure.refuses = false

/-- A step that leaves every key with an answer. -/
def Clean (host : Host) (e : Runs.Entry State Action Outcome) : Prop :=
  match e.action with
  | .request _ => True
  | .advance key time => ∀ r failure, e.before.pending key = some ⟨r, .operating⟩ → mutating r.method = false →
      invoke host e.before.logs r time ≠ .error failure
  | .crash _ => ∀ key t, e.before.pending key = some t → t.stage ≠ .reserved ∧
      (mutating t.request.method = false → t.stage = .reading)

def Stuck (host : Host) (R : Request → Prop) (r : Request) (s : State) : Prop :=
  R r ∧ isKey r.key = true ∧ (∀ t, s.pending r.key = some t → t.stage = .reading) ∧
    (s.files r.key = some .torn ∨
      (mutating r.method = false ∧ s.files r.key = some (.record (r.fingerprint host) .started)))

lemma advance_other {key k : String} (hk : key ≠ k) (time : String) :
    (advance host s k time).2.files key = s.files key ∧ (advance host s k time).2.pending key = s.pending key := by
  have hcases := @advance_cases host s k time
  generalize (advance host s k time).1 = outcome at hcases
  generalize (advance host s k time).2 = s' at hcases
  cases hcases <;> simp [hk]

lemma stuck_kept (hdistinct : Distinct host R) (h : Inv host R s) {r : Request} (hstuck : Stuck host R r s)
    (a : Action) : Stuck host R r (step host s a).2 := by
  obtain ⟨hr, hvalid, hstage, hfile⟩ := hstuck
  refine ⟨hr, hvalid, ?_⟩
  cases a with
  | crash cuts => exact ⟨fun t ht => (by cases ht), hfile⟩
  | request r' =>
    change (∀ t, (arrive host s r').2.pending r.key = some t → t.stage = .reading) ∧
      ((arrive host s r').2.files r.key = _ ∨ _ ∧ (arrive host s r').2.files r.key = _)
    rcases @arrive_cases host s r' with ⟨heq, -⟩ | ⟨-, task, -, ⟨-, heq⟩ | ⟨-, heq⟩⟩ | ⟨-, -, heq⟩ <;> rw [heq]
    · exact ⟨hstage, hfile⟩
    · exact ⟨hstage, hfile⟩
    · exact ⟨hstage, hfile⟩
    · refine ⟨?_, hfile⟩
      intro t ht
      by_cases hkey : r.key = r'.key
      · rw [hkey, setPending_pending, Function.update_self] at ht
        cases ht
        rfl
      · rw [setPending_pending, Function.update_of_ne hkey] at ht
        exact hstage t ht
  | advance k time =>
    change (∀ t, (advance host s k time).2.pending r.key = some t → t.stage = .reading) ∧
      ((advance host s k time).2.files r.key = _ ∨ _ ∧ (advance host s k time).2.files r.key = _)
    by_cases hkey : r.key = k
    · subst hkey
      have hcases := @advance_cases host s r.key time
      generalize (advance host s r.key time).1 = outcome at hcases
      generalize (advance host s r.key time).2 = s' at hcases
      have hcleared : (∀ t, (s.setPending r.key none).pending r.key = some t → t.stage = .reading) ∧
          ((s.setPending r.key none).files r.key = some .torn ∨ mutating r.method = false ∧
            (s.setPending r.key none).files r.key = some (.record (r.fingerprint host) .started)) := by
        refine ⟨fun t ht => ?_, hfile⟩
        rw [setPending_pending, Function.update_self] at ht
        cases ht
      cases hcases with
      | idle hnone => exact ⟨hstage, hfile⟩
      | reserve _ hnone =>
        rw [hnone] at hfile
        simp at hfile
      | reconcile hpending hstarted hmutating =>
        rcases hfile with htorn | ⟨hreads, hsame⟩
        · rw [hstarted] at htorn
          cases htorn
        · rw [hstarted] at hsame
          simp only [Option.some.injEq, File.record.injEq, and_true] at hsame
          obtain ⟨hr', -, -⟩ := h.task r.key _ hpending
          rw [(hdistinct _ _ hr' hr hsame).1, hreads] at hmutating
          cases hmutating
      | write hpending => cases hstage _ hpending
      | run hpending _ => cases hstage _ hpending
      | receipt hpending => cases hstage _ hpending
      | _ => exact hcleared
    · obtain ⟨hfiles, hpendings⟩ := @advance_other host s r.key k hkey time
      rw [hfiles, hpendings]
      exact ⟨hstage, hfile⟩

lemma stuck_of_not_clean (h : Inv host R s) {a : Action} (hclean : ¬ Clean host (entry (step host) s a)) :
    ∃ r, Stuck host R r (step host s a).2 := by
  cases a with
  | request r => exact absurd trivial hclean
  | advance key time =>
    change ¬ ∀ r failure, s.pending key = some ⟨r, .operating⟩ → mutating r.method = false →
      invoke host s.logs r time ≠ .error failure at hclean
    simp only [not_forall, ne_eq, not_not] at hclean
    obtain ⟨r, failure, hpending, hreads, hinvoke⟩ := hclean
    obtain ⟨hr, hkey, hvalid⟩ := h.task key _ hpending
    change r.key = key at hkey
    subst hkey
    have hstep : (step host s (.advance r.key time)).2 = s.setPending r.key none := by
      change (advance host s r.key time).2 = _
      unfold advance
      simp only [hpending, hinvoke]
    refine ⟨r, hr, hvalid, ?_, .inr ⟨hreads, ?_⟩⟩
    · rw [hstep, setPending_pending, Function.update_self]
      intro t ht
      cases ht
    · rw [hstep]
      exact h.operating r.key r hpending
  | crash cuts =>
    change ¬ ∀ key t, s.pending key = some t → t.stage ≠ .reserved ∧
      (mutating t.request.method = false → t.stage = .reading) at hclean
    simp only [not_forall] at hclean
    obtain ⟨key, ⟨r, stage⟩, hpending, hbad⟩ := hclean
    obtain ⟨hr, hkey, hvalid⟩ := h.task key _ hpending
    change r.key = key at hkey
    subst hkey
    refine ⟨r, hr, hvalid, fun t ht => (by cases ht), ?_⟩
    change s.files r.key = _ ∨ _ ∧ s.files r.key = _
    cases stage with
    | reserved => exact .inl (h.reserved r.key r hpending)
    | reading => exact absurd ⟨by simp, fun _ => rfl⟩ hbad
    | operating =>
      refine .inr ⟨?_, h.operating r.key r hpending⟩
      by_contra hmutating
      exact hbad ⟨by simp, fun hreads => absurd hreads hmutating⟩
    | recording result =>
      refine .inr ⟨?_, h.recording r.key r result hpending⟩
      by_contra hmutating
      exact hbad ⟨by simp, fun hreads => absurd hreads hmutating⟩

/-- What clean steps keep. -/
structure Sound (host : Host) (R : Request → Prop) (s : State) : Prop where
  torn : ∀ key, s.files key = some .torn → ∃ r, s.pending key = some ⟨r, .reserved⟩
  started : ∀ key saved, s.files key = some (.record saved .started) →
    (∃ r, R r ∧ saved = r.fingerprint host ∧ mutating r.method = true) ∨ ∃ r stage,
      s.pending key = some ⟨r, stage⟩ ∧ mutating r.method = false ∧ (stage = .operating ∨ ∃ result, stage = .recording result)

lemma sound_initial : Sound host R initial := by
  constructor <;> simp [initial]

structure SoundAt (host : Host) (R : Request → Prop) (file : Option File) (task : Option Task) : Prop where
  torn : file = some .torn → ∃ r, task = some ⟨r, .reserved⟩
  started : ∀ saved, file = some (.record saved .started) →
    (∃ r, R r ∧ saved = r.fingerprint host ∧ mutating r.method = true) ∨ ∃ r stage,
      task = some ⟨r, stage⟩ ∧ mutating r.method = false ∧ (stage = .operating ∨ ∃ result, stage = .recording result)

lemma sound_iff : Sound host R s ↔ ∀ key, SoundAt host R (s.files key) (s.pending key) :=
  ⟨fun h key => ⟨h.torn key, h.started key⟩, fun h => ⟨fun key => (h key).torn, fun key => (h key).started⟩⟩

lemma SoundAt.giveUp {file : Option File} {task : Option Task} (h : SoundAt host R file task)
    (htask : ∀ t, task = some t → t.stage ≠ .reserved ∧ (mutating t.request.method = false → t.stage = .reading))
    (task' : Option Task) : SoundAt host R file task' where
  torn hfile := by
    obtain ⟨r, hr⟩ := h.torn hfile
    exact absurd rfl (htask _ hr).1
  started saved hfile := by
    rcases h.started saved hfile with hmutating | ⟨r, stage, hr, hreads, hstage⟩
    · exact .inl hmutating
    · have hreading := (htask _ hr).2 hreads
      change stage = .reading at hreading
      rw [hreading] at hstage
      simp at hstage

lemma SoundAt.stopReading {file : Option File} {r : Request} (h : SoundAt host R file (some ⟨r, .reading⟩))
    (task : Option Task) : SoundAt host R file task := by
  refine h.giveUp (fun t ht => ?_) task
  obtain rfl := Option.some.inj ht
  exact ⟨by simp, fun _ => rfl⟩

lemma soundAt_started {r : Request} {task : Option Task} (hr : R r)
    (htask : mutating r.method = false → ∃ stage, task = some ⟨r, stage⟩ ∧ (stage = .operating ∨ ∃ result, stage = .recording result)) :
    SoundAt host R (some (.record (r.fingerprint host) .started)) task where
  torn hfile := by cases hfile
  started saved hfile := by
    simp only [Option.some.injEq, File.record.injEq, and_true] at hfile
    cases hmutating : mutating r.method with
    | true => exact .inl ⟨r, hr, hfile.symm, hmutating⟩
    | false =>
      obtain ⟨stage, hstage, hends⟩ := htask hmutating
      exact .inr ⟨r, stage, hstage, hmutating, hends⟩

lemma sound_advance (h : Inv host R s) {k : String} (hsound : SoundAt host R (s.files k) (s.pending k)) {time : String}
    (hclean : Clean host (entry (step host) s (.advance k time))) :
    SoundAt host R ((advance host s k time).2.files k) ((advance host s k time).2.pending k) := by
  have hbefore : ∀ r failure, s.pending k = some ⟨r, .operating⟩ → mutating r.method = false →
    invoke host s.logs r time ≠ .error failure := hclean
  have hcases := @advance_cases host s k time
  generalize (advance host s k time).1 = outcome at hcases
  generalize (advance host s k time).2 = s' at hcases
  -- what a task that is read and let go leaves
  have hlet : ∀ r : Request, s.pending k = some ⟨r, .reading⟩ → ∀ task : Option Task,
      SoundAt host R ((s.setPending k task).files k) ((s.setPending k task).pending k) := by
    intro r hpending task
    rw [hpending] at hsound
    exact hsound.stopReading _
  cases hcases with
  | idle hnone => exact hsound
  | @reserve r _ _ =>
    rw [setPending_files, setFile_files, Function.update_self, setPending_pending, Function.update_self]
    exact ⟨fun _ => ⟨r, rfl⟩, fun saved hfile => by cases hfile⟩
  | torn hpending _ => exact hlet _ hpending _
  | conflict hpending _ _ => exact hlet _ hpending _
  | replay hpending _ => exact hlet _ hpending _
  | reconcile hpending _ _ => exact hlet _ hpending _
  | unknown hpending _ _ => exact hlet _ hpending _
  | @write r hpending =>
    rw [setPending_files, setFile_files, Function.update_self, setPending_pending, Function.update_self]
    exact soundAt_started (h.task k _ hpending).1 fun _ => ⟨.operating, rfl, .inl rfl⟩
  | @fail r failure hpending hinvoke =>
    rw [setPending_files, h.operating k r hpending]
    exact soundAt_started (h.task k _ hpending).1 fun hmutating => absurd hinvoke (hbefore r failure hpending hmutating)
  | @run r result logs hpending _ =>
    rw [setPending_files, setPending_pending, Function.update_self]
    change SoundAt host R (s.files k) _
    rw [h.operating k r hpending]
    exact soundAt_started (h.task k _ hpending).1 fun _ => ⟨.recording result, rfl, .inr ⟨result, rfl⟩⟩
  | receipt _ =>
    rw [setPending_files, setFile_files, Function.update_self]
    exact ⟨fun hfile => (by cases hfile), fun saved hfile => by cases hfile⟩

lemma sound_step (h : Inv host R s) (hsound : Sound host R s) {a : Action}
    (hclean : Clean host (entry (step host) s a)) : Sound host R (step host s a).2 := by
  rw [sound_iff] at hsound ⊢
  intro key
  cases a with
  | request r =>
    change SoundAt host R ((arrive host s r).2.files key) ((arrive host s r).2.pending key)
    rcases @arrive_cases host s r with ⟨heq, -⟩ | ⟨-, task, -, ⟨-, heq⟩ | ⟨-, heq⟩⟩ | ⟨-, hnone, heq⟩ <;> rw [heq]
    · exact hsound key
    · exact hsound key
    · exact hsound key
    · by_cases hkey : key = r.key
      · subst hkey
        exact (hsound r.key).giveUp (fun t ht => by cases hnone.symm.trans ht) _
      · rw [setPending_pending, Function.update_of_ne hkey]
        exact hsound key
  | crash cuts => exact (hsound key).giveUp (fun t ht => hclean key t ht) none
  | advance k time =>
    change SoundAt host R ((advance host s k time).2.files key) ((advance host s k time).2.pending key)
    by_cases hkey : key = k
    · subst hkey
      exact sound_advance h (hsound key) hclean
    · obtain ⟨hfiles, hpending⟩ := advance_other hkey time
      rw [hfiles, hpending]
      exact hsound key

lemma own_of_entry {r : Request} {failure : Failure} (h : entryOf host r = .error failure) :
    failure.refuses = false := by
  have hrequired : ∀ name, requiredText r.params name = .error failure → failure.refuses = false := by
    intro name hname
    unfold requiredText at hname
    rcases htext : text r.params name with _ | s
    · rw [htext] at hname
      cases hname
      rfl
    · rw [htext] at hname
      cases hname
  unfold entryOf at h
  by_cases hcreate : r.method = "sessions.create"
  · rw [if_pos hcreate] at h
    cases h
  · rw [if_neg hcreate] at h
    rcases hsession : requiredText r.params "sessionId" with failure' | sessionId
    · rw [hsession] at h
      cases h
      exact hrequired _ hsession
    · rcases htype : requiredText r.params "type" with failure' | type
      · rw [hsession, htype] at h
        cases h
        exact hrequired _ htype
      · rw [hsession, htype] at h
        simp only [bind, Except.bind] at h
        split at h
        · cases h
        · cases h
          rfl

lemma own_of_append {logs : Logs} {e : HarnessRequests.Entry} {key time : String} {failure : Failure}
    (h : append host logs e key time = .error failure) : failure.refuses = false := by
  unfold append at h
  by_cases hsession : isSessionId e.sessionId = false
  · rw [if_pos hsession] at h
    cases h
    rfl
  · rw [if_neg hsession] at h
    by_cases htype : isEventType e.type = false
    · rw [if_pos htype] at h
      cases h
      rfl
    · rw [if_neg htype] at h
      by_cases hbroken : (logs e.sessionId).tail = .broken
      · simp only [hbroken, if_true] at h
        cases h
        rfl
      · simp only [if_neg hbroken] at h
        rcases hfind : (logs e.sessionId).events.find? fun saved => decide (saved.eventId = host.digest key) with _ | saved
        · simp only [hfind] at h
          cases h
        · simp only [hfind] at h
          split at h
          · cases h
          · cases h
            rfl

lemma own_of_invoke {logs : Logs} {r : Request} {time : String} {failure : Failure}
    (h : invoke host logs r time = .error failure) : failure.refuses = false := by
  unfold invoke at h
  by_cases hmutating : mutating r.method = true
  · rw [if_pos hmutating] at h
    rcases hentry : entryOf host r with failure' | e
    · rw [hentry] at h
      cases h
      exact own_of_entry hentry
    · simp only [hentry] at h
      rcases happend : append host logs e r.key time with failure' | ⟨event, logs'⟩
      · rw [happend] at h
        cases h
        exact own_of_append happend
      · simp only [happend] at h
        cases h
  · rw [if_neg hmutating] at h
    rcases hview : host.view r.method r.params logs with failure' | answer
    · rw [hview] at h
      cases h
      exact failure'.2
    · rw [hview] at h
      cases h

def Soon (host : Host) (s : State) (key time : String) (steps : ℕ) : Prop :=
  ∃ answer, Outcome.answered key answer ∈
    (trace (step host) s (List.replicate steps (.advance key time))).map (fun e => e.outcome) ∧
    ∀ failure, answer = .error failure → failure.refuses = false

lemma soon_now {key time : String} {steps : ℕ} {answer : Except Failure Result}
    (hanswer : (advance host s key time).1 = .answered key answer)
    (hwell : ∀ failure, answer = .error failure → failure.refuses = false) : Soon host s key time (steps + 1) := by
  refine ⟨answer, ?_, hwell⟩
  rw [List.replicate_succ, trace_cons, List.map_cons]
  exact List.mem_cons.2 (.inl hanswer.symm)

lemma soon_later {key time : String} {steps : ℕ} (h : Soon host (advance host s key time).2 key time steps) :
    Soon host s key time (steps + 1) := by
  obtain ⟨answer, hmem, hwell⟩ := h
  refine ⟨answer, ?_, hwell⟩
  rw [List.replicate_succ, trace_cons, List.map_cons]
  exact List.mem_cons_of_mem _ hmem

lemma soon_of_operating {key time : String} {r : Request} {steps : ℕ} (hpending : s.pending key = some ⟨r, .operating⟩) :
    Soon host s key time (steps + 2) := by
  rcases hinvoke : invoke host s.logs r time with failure | ⟨result, logs⟩
  · refine @soon_now host s key time (steps + 1) (.error failure) ?_ fun other hother => ?_
    · unfold advance
      simp only [hpending, hinvoke]
    · cases hother
      exact own_of_invoke hinvoke
  · apply soon_later
    refine @soon_now host _ key time steps (.ok result) ?_ fun other hother => by cases hother
    unfold advance
    simp only [hpending, hinvoke, setPending_pending, Function.update_self]

lemma soon_of_reserved {key time : String} {r : Request} {steps : ℕ} (hpending : s.pending key = some ⟨r, .reserved⟩) :
    Soon host s key time (steps + 3) := by
  apply soon_later
  apply @soon_of_operating host _ key time r steps
  unfold advance
  simp only [hpending, setPending_pending, Function.update_self]

lemma soon_of_reading {key time : String} {r : Request} (hpending : s.pending key = some ⟨r, .reading⟩)
    (htorn : s.files key ≠ some .torn)
    (hstarted : s.files key = some (.record (r.fingerprint host) .started) → mutating r.method = true) :
    Soon host s key time 4 := by
  rcases hfile : s.files key with _ | file
  · apply soon_later
    apply @soon_of_reserved host _ key time r 0
    unfold advance
    simp only [hpending, hfile, setPending_pending, Function.update_self]
  · cases file with
    | torn => exact absurd hfile htorn
    | record saved status =>
      by_cases hsaved : saved ≠ r.fingerprint host
      · refine @soon_now host s key time 3 (.error .conflict) ?_ fun other hother => ?_
        · unfold advance
          simp only [hpending, hfile, if_pos hsaved]
        · cases hother
          rfl
      · have hsame := not_not.1 hsaved
        cases status with
        | completed result =>
          refine @soon_now host s key time 3 (.ok result) ?_ fun other hother => by cases hother
          unfold advance
          simp only [hpending, hfile, if_neg hsaved]
        | started =>
          have hmutating := hstarted (by rw [hfile, hsame])
          apply soon_later
          apply @soon_of_operating host _ key time r 1
          unfold advance
          simp only [hpending, hfile, if_neg hsaved, if_pos hmutating, setPending_pending, Function.update_self]

lemma begun_of_quiet {r : Request} (hvalid : isKey r.key = true) (hquiet : Quiet s) :
    step host s (.request r) = (.begun, s.setPending r.key (some ⟨r, .reading⟩)) := by
  change arrive host s r = _
  unfold arrive
  simp [hvalid, hquiet r.key]

lemma answersWell_of_sound (hdistinct : Distinct host R) (hsound : Sound host R s) (hquiet : Quiet s) {r : Request}
    (hr : R r) (hvalid : isKey r.key = true) (time : String) : AnswersWell host s r time := by
  have hsoon : Soon host (s.setPending r.key (some ⟨r, .reading⟩)) r.key time 4 := by
    apply soon_of_reading
    · rw [setPending_pending, Function.update_self]
    · intro htorn
      obtain ⟨r', hr'⟩ := hsound.torn r.key htorn
      rw [hquiet r.key] at hr'
      cases hr'
    · intro hfile
      rcases hsound.started r.key _ hfile with ⟨r', hr', hsame, hmutating⟩ | ⟨r', stage, hr', -⟩
      · rw [(hdistinct r r' hr hr' hsame).1]
        exact hmutating
      · rw [hquiet r.key] at hr'
        cases hr'
  obtain ⟨answer, hmem, hwell⟩ := hsoon
  refine ⟨answer, ?_, hwell⟩
  unfold retry
  rw [trace_cons, begun_of_quiet hvalid hquiet, List.map_cons]
  exact List.mem_cons_of_mem _ hmem

lemma trace_idle {key time : String} (hpending : s.pending key = none) (steps : ℕ) (outcome : Outcome)
    (h : outcome ∈ (trace (step host) s (List.replicate steps (.advance key time))).map (fun e => e.outcome)) :
    outcome = .idle := by
  induction steps with
  | zero => cases h
  | succ steps ih =>
    have hidle : step host s (.advance key time) = (.idle, s) := by
      change advance host s key time = _
      unfold advance
      simp only [hpending]
    rw [List.replicate_succ, trace_cons, List.map_cons, hidle, List.mem_cons] at h
    rcases h with h | h
    · rw [h, entry_outcome, hidle]
    · exact ih h

lemma not_answersWell_of_stuck (hquiet : Quiet s) {r : Request} (h : Stuck host R r s) (time : String) :
    ¬ AnswersWell host s r time := by
  obtain ⟨-, hvalid, -, hfile⟩ := h
  have hrefused : ∃ failure, failure.refuses = true ∧
      advance host (s.setPending r.key (some ⟨r, .reading⟩)) r.key time =
        (.answered r.key (.error failure), (s.setPending r.key (some ⟨r, .reading⟩)).setPending r.key none) := by
    unfold advance
    rcases hfile with htorn | ⟨hreads, hstarted⟩
    · exact ⟨.recordInvalid, rfl, by
        simp only [setPending_pending, setPending_files, Function.update_self, htorn]⟩
    · exact ⟨.outcomeUnknown, rfl, by
        simp [setPending_pending, setPending_files, Function.update_self, hstarted, hreads]⟩
  obtain ⟨failure, hrefuses, hadvance⟩ := hrefused
  rintro ⟨answer, hmem, hwell⟩
  unfold retry at hmem
  rw [trace_cons, begun_of_quiet hvalid hquiet, List.map_cons, List.mem_cons] at hmem
  rcases hmem with hmem | hmem
  · rw [entry_outcome, begun_of_quiet hvalid hquiet] at hmem
    cases hmem
  · have hstep : step host (s.setPending r.key (some ⟨r, .reading⟩)) (.advance r.key time) = _ := hadvance
    rw [List.replicate_succ, trace_cons, hstep, List.map_cons, List.mem_cons] at hmem
    rcases hmem with hmem | hmem
    · rw [entry_outcome, hstep] at hmem
      cases hmem
      rw [hwell failure rfl] at hrefuses
      cases hrefuses
    · have hidle := trace_idle (by rw [setPending_pending, Function.update_self]) 3 _ hmem
      cases hidle

lemma clean_iff (hdistinct : Distinct host R) {actions : List Action} (hasks : ∀ a ∈ actions, Asks R a)
    (hquiet : Quiet (final (step host) initial actions)) :
    (∀ e ∈ trace (step host) initial actions, Clean host e) ↔ ∀ r, R r → isKey r.key = true → ∀ time,
      AnswersWell host (final (step host) initial actions) r time := by
  constructor
  · intro hclean r hr hvalid time
    have hrun := @invariant_of _ _ _ (step host) (fun s => Inv host R s ∧ Sound host R s)
      (fun e => Asks R e.action ∧ Clean host e)
      (fun s a h hk => ⟨inv_step h.1 hk.1, sound_step h.1 h.2 hk.2⟩) initial actions ⟨inv_initial R, sound_initial⟩
      fun e he => ⟨hasks _ (action_mem he), hclean e he⟩
    exact answersWell_of_sound hdistinct hrun.2.2 hquiet hr hvalid time
  · intro hanswers e he
    by_contra hclean
    obtain ⟨pre, post, hactions, heq⟩ := mem_trace he
    have hpre : Inv host R (final (step host) initial pre) := by
      apply (@invariant_of _ _ _ (step host) (Inv host R) (fun e => Asks R e.action)
        (fun s a h ha => inv_step h ha) initial pre (inv_initial R) ?_).2
      intro e' he'
      apply hasks
      rw [hactions]
      exact List.mem_append_left _ (action_mem he')
    rw [heq] at hclean
    obtain ⟨r, hstuck⟩ := stuck_of_not_clean hpre hclean
    have hpost := @invariant_of _ _ _ (step host) (fun s => Inv host R s ∧ Stuck host R r s) (fun e => Asks R e.action)
      (fun s a h ha => ⟨inv_step h.1 ha, stuck_kept hdistinct h.1 h.2 a⟩)
      (step host (final (step host) initial pre) e.action).2 post
      ⟨inv_step hpre (hasks _ (by rw [hactions]; simp)), hstuck⟩ fun e' he' => hasks _ (by
        rw [hactions]
        exact List.mem_append_right _ (List.mem_cons_of_mem _ (action_mem he')))
    have hfinal : final (step host) initial actions =
        final (step host) (step host (final (step host) initial pre) e.action).2 post := by
      rw [hactions, final_append, final_cons]
    rw [← hfinal] at hpost
    exact not_answersWell_of_stuck hquiet hpost.2.2 "" (hanswers r hpost.2.2.1 hpost.2.2.2.1 "")

end

/-- Requests take effect once for each key, and stay answerable over clean steps. -/
theorem requests_take_effect_once (host : Host) (actions : List Action)
    (hdistinct : Distinct host fun r => Action.request r ∈ actions) :
    (∀ key, (trace (step host) initial actions).Pairwise fun e e' => ¬ (Changes key e ∧ Changes key e')) ∧
    (∀ key, (trace (step host) initial actions).Pairwise fun e e' => ∀ result result',
      e.outcome = .answered key (.ok result) → e'.outcome = .answered key (.ok result') → result = result') ∧
    (∀ e ∈ trace (step host) initial actions, ∀ r, Action.request r ∈ actions →
      (∀ t, e.action = .request r → e.before.pending r.key = some t → Differs t.request r →
        e.outcome = .refused .conflict ∧ e.after = e.before) ∧
      ∀ r' stage status time, Action.request r' ∈ actions → e.action = .advance r.key time →
        e.before.pending r.key = some ⟨r, stage⟩ → e.before.files r.key = some (.record (r'.fingerprint host) status) →
        Differs r r' → e.outcome = .answered r.key (.error .conflict) ∧ e.after.files = e.before.files ∧
          e.after.logs = e.before.logs) ∧
    (Quiet (final (step host) initial actions) → ((∀ e ∈ trace (step host) initial actions, Clean host e) ↔
      ∀ r, Action.request r ∈ actions → isKey r.key = true → ∀ time,
        AnswersWell host (final (step host) initial actions) r time)) := by
  have hasks : ∀ a ∈ actions, Asks (fun r => Action.request r ∈ actions) a := by
    intro a ha
    cases a with
    | request r => exact ha
    | _ => trivial
  refine ⟨changes_once hdistinct hasks, answers_agree hasks, ?_, clean_iff hdistinct hasks⟩
  intro e he r hr
  have hinv : Inv host (fun r => Action.request r ∈ actions) e.before := by
    apply ((@invariant_of _ _ _ (step host) (Inv host fun r => Action.request r ∈ actions)
      (fun e => Asks (fun r => Action.request r ∈ actions) e.action) (fun s a h ha => inv_step h ha) initial actions
      (inv_initial _) fun e he => hasks _ (action_mem he)).1 e he).1
  have hentry := entry_eq_of_mem he
  constructor
  · intro t haction hpending hdiffers
    have hstep := refused_while_pending hdistinct hinv hr hpending hdiffers
    rw [hentry, haction, entry_outcome, entry_after, hstep]
    exact ⟨rfl, rfl⟩
  · intro r' stage status time hr' haction hpending hfile hdiffers
    have hstep := refused_by_record hdistinct hinv hr' hpending hfile hdiffers time
    rw [hentry, haction, entry_outcome, entry_after, hstep]
    exact ⟨rfl, rfl, rfl⟩

def plainHost : Host where
  digest := id
  fingerprint method _ := method
  stringify s := s
  view _ _ _ := .error ⟨.methodNotFound, rfl⟩

def createRequest : Request := ⟨"request-0001", "sessions.create", []⟩

def unknownRequest : Request := ⟨"request-0002", "sessions.rename", []⟩

lemma quiet_of_one {host : Host} {r : Request} {actions : List Action} (hasks : ∀ a ∈ actions, Asks (· = r) a)
    (h : (final (step host) initial actions).pending r.key = none) : Quiet (final (step host) initial actions) := by
  have hinv : Inv host (· = r) (final (step host) initial actions) :=
    (@invariant_of _ _ _ (step host) (Inv host (· = r)) (fun e => Asks (· = r) e.action)
      (fun s a h ha => inv_step h ha) initial actions (inv_initial _) fun e he => hasks _ (action_mem he)).2
  intro key
  rcases hpending : (final (step host) initial actions).pending key with _ | t
  · rfl
  · obtain ⟨hr, hkey, -⟩ := hinv.task key t hpending
    rw [hr] at hkey
    rw [← hkey, h] at hpending
    cases hpending

/-- A crash between the creation of the reservation and its record, and a keyed request for an unknown
    method: both are refused for ever after. -/
theorem reserved_for_ever :
    (Quiet (final (step plainHost) initial [.request createRequest, .advance "request-0001" "", .crash fun _ => none]) ∧
      ∀ time, ¬ AnswersWell plainHost
        (final (step plainHost) initial [.request createRequest, .advance "request-0001" "", .crash fun _ => none])
        createRequest time) ∧
    (Quiet (final (step plainHost) initial (.request unknownRequest :: List.replicate 3 (.advance "request-0002" ""))) ∧
      ∀ time, ¬ AnswersWell plainHost
        (final (step plainHost) initial (.request unknownRequest :: List.replicate 3 (.advance "request-0002" "")))
        unknownRequest time) := by
  have hquiet : Quiet (final (step plainHost) initial
      [.request createRequest, .advance "request-0001" "", .crash fun _ => none]) := fun _ => rfl
  have hquiet' : Quiet (final (step plainHost) initial
      (.request unknownRequest :: List.replicate 3 (.advance "request-0002" ""))) := by
    apply @quiet_of_one plainHost unknownRequest
    · simp [Asks, List.replicate]
    · exact Option.isNone_iff_eq_none.1 (by decide +kernel)
  refine ⟨⟨hquiet, fun time => ?_⟩, hquiet', fun time => ?_⟩
  · apply @not_answersWell_of_stuck plainHost (fun _ => True) _ hquiet
    exact ⟨trivial, by decide +kernel, fun t ht => (by cases ht), .inl (by decide +kernel)⟩
  · apply @not_answersWell_of_stuck plainHost (fun _ => True) _ hquiet'
    refine ⟨trivial, by decide +kernel, fun t ht => ?_, .inr ⟨by decide +kernel, by decide +kernel⟩⟩
    rw [hquiet' _] at ht
    cases ht

def createdOnce : List Action := .request createRequest :: List.replicate 4 (.advance "request-0001" "now")

lemma createdOnce_quiet : Quiet (final (step plainHost) initial createdOnce) := by
  apply @quiet_of_one plainHost createRequest
  · simp [createdOnce, Asks, List.replicate]
  · exact Option.isNone_iff_eq_none.1 (by decide +kernel)

theorem createdOnce_answers :
    (∀ e ∈ trace (step plainHost) initial createdOnce, Clean plainHost e) ↔
      ∀ r, Action.request r ∈ createdOnce → isKey r.key = true → ∀ time,
        AnswersWell plainHost (final (step plainHost) initial createdOnce) r time :=
  (requests_take_effect_once plainHost createdOnce (by
    intro r r' hr hr' _
    simp only [createdOnce, List.replicate, List.mem_cons, Action.request.injEq, reduceCtorEq, List.not_mem_nil, or_self,
      or_false] at hr hr'
    rw [hr, hr']
    exact ⟨rfl, rfl⟩)).2.2.2 createdOnce_quiet

end PromptForge.HarnessRequests
