import Mathlib.Tactic
import PromptForge.HarnessRequests

namespace PromptForge.HarnessRequests
open Runs

section
variable {host : Host}

lemma append_ok {logs logs' : Logs} {e : Entry} {key time : String} {event : Event}
    (h : append host logs e key time = .ok (event, logs')) :
    (logs e.sessionId).tail ≠ .broken ∧ event.eventId = host.digest key ∧
      ((logs' = logs ∧ event ∈ (logs e.sessionId).events) ∨
        ((∀ saved ∈ (logs e.sessionId).events, saved.eventId ≠ host.digest key) ∧
          logs' = Function.update logs e.sessionId ⟨(logs e.sessionId).events ++ [event],
            if (logs e.sessionId).tail = .clean then .clean else .broken⟩)) := by
  unfold append at h
  by_cases hsession : isSessionId e.sessionId = false
  · rw [if_pos hsession] at h
    cases h
  · rw [if_neg hsession] at h
    by_cases htype : isEventType e.type = false
    · rw [if_pos htype] at h
      cases h
    · rw [if_neg htype] at h
      by_cases hbroken : (logs e.sessionId).tail = .broken
      · simp only [hbroken, if_true] at h
        cases h
      · simp only [if_neg hbroken] at h
        refine ⟨hbroken, ?_⟩
        rcases hfind : (logs e.sessionId).events.find? fun saved => decide (saved.eventId = host.digest key) with _ | saved
        · simp only [hfind] at h
          cases h
          refine ⟨rfl, .inr ⟨?_, rfl⟩⟩
          intro saved hsaved
          have hnot := List.find?_eq_none.1 hfind saved hsaved
          simpa using hnot
        · simp only [hfind] at h
          by_cases hsame : saved.type = e.type ∧ saved.runId = e.runId ∧ saved.payload = e.payload
          · rw [if_pos hsame] at h
            cases h
            exact ⟨by simpa using List.find?_some hfind, .inl ⟨rfl, List.mem_of_find?_eq_some hfind⟩⟩
          · rw [if_neg hsame] at h
            cases h

lemma invoke_ok {logs logs' : Logs} {r : Request} {time : String} {result : Result}
    (h : invoke host logs r time = .ok (result, logs')) :
    logs' = logs ∨ ∃ e event, mutating r.method = true ∧ entryOf host r = .ok e ∧ event.eventId = host.digest r.key ∧
      (logs e.sessionId).tail ≠ .broken ∧ (∀ saved ∈ (logs e.sessionId).events, saved.eventId ≠ host.digest r.key) ∧
      logs' = Function.update logs e.sessionId ⟨(logs e.sessionId).events ++ [event],
        if (logs e.sessionId).tail = .clean then .clean else .broken⟩ := by
  unfold invoke at h
  by_cases hmutating : mutating r.method = true
  · rw [if_pos hmutating] at h
    rcases hentry : entryOf host r with failure | e
    · rw [hentry] at h
      cases h
    · simp only [hentry] at h
      rcases happend : append host logs e r.key time with failure | ⟨event, logs''⟩
      · rw [happend] at h
        cases h
      · simp only [happend] at h
        cases h
        obtain ⟨hbroken, hid, ⟨hsame, -⟩ | ⟨hnew, hlogs⟩⟩ := append_ok happend
        · exact .inl hsame
        · exact .inr ⟨e, event, hmutating, rfl, hid, hbroken, hnew, hlogs⟩
  · rw [if_neg hmutating] at h
    rcases hview : host.view r.method r.params logs with failure | answer
    · rw [hview] at h
      cases h
    · simp only [hview] at h
      cases h
      exact .inl rfl

structure Grows (a b : Log) : Prop where
  events : ∀ event ∈ a.events, event ∈ b.events
  tail : a.tail = .broken → b.tail = .broken

lemma Grows.refl (a : Log) : Grows a a := ⟨fun _ h => h, id⟩

lemma invoke_grows {logs logs' : Logs} {r : Request} {time : String} {result : Result}
    (h : invoke host logs r time = .ok (result, logs')) (sessionId : String) :
    Grows (logs sessionId) (logs' sessionId) := by
  rcases invoke_ok h with rfl | ⟨e, event, -, -, -, hbroken, -, rfl⟩
  · exact Grows.refl _
  · by_cases hsession : sessionId = e.sessionId
    · rw [hsession, Function.update_self]
      exact ⟨fun _ hevent => List.mem_append_left _ hevent, fun htail => absurd htail hbroken⟩
    · rw [Function.update_of_ne hsession]
      exact Grows.refl _

def Landed (host : Host) (key : String) (log : Log) : Prop :=
  log.tail = .broken ∨ ∃ event ∈ log.events, event.eventId = host.digest key

lemma Landed.grows {key : String} {a b : Log} (h : Landed host key a) (hgrows : Grows a b) : Landed host key b := by
  rcases h with htail | ⟨event, hevent, hid⟩
  · exact .inl (hgrows.tail htail)
  · exact .inr ⟨event, hgrows.events event hevent, hid⟩

lemma cutLog_cases (s : State) (sessionId : String) (cut : Cut) :
    cutLog host s sessionId cut = s.logs sessionId ∨
      ∃ r e, s.pending cut.key = some ⟨r, .operating⟩ ∧ mutating r.method = true ∧ entryOf host r = .ok e ∧
        e.sessionId = sessionId ∧ ¬ Landed host r.key (s.logs sessionId) ∧ Grows (s.logs sessionId) (cutLog host s sessionId cut) ∧
        (r.key = cut.key → Landed host cut.key (cutLog host s sessionId cut)) := by
  unfold cutLog
  rcases hpending : s.pending cut.key with _ | ⟨r, stage⟩
  · exact .inl rfl
  · cases stage with
    | operating =>
      rcases hinvoke : invoke host s.logs r cut.time with failure | ⟨result, logs⟩
      · exact .inl (by simp only [hinvoke])
      · simp only [hinvoke]
        by_cases hsame : logs sessionId = s.logs sessionId
        · exact .inl (by simp only [if_pos hsame])
        · rcases invoke_ok hinvoke with heq | ⟨e, event, hmutating, hentry, hid, hbroken, hnew, hlogs⟩
          · exact absurd (congrFun heq sessionId) hsame
          · have hsession : e.sessionId = sessionId := by
              by_contra hne
              rw [hlogs, Function.update_of_ne (Ne.symm hne)] at hsame
              exact hsame rfl
            refine .inr ⟨r, e, rfl, hmutating, hentry, hsession, ?_⟩
            have hafter : logs sessionId = ⟨(s.logs sessionId).events ++ [event],
                if (s.logs sessionId).tail = .clean then .clean else .broken⟩ := by
              rw [hlogs, hsession, Function.update_self]
            rw [hsession] at hbroken hnew
            have hlanded : ¬ Landed host r.key (s.logs sessionId) := by
              rintro (htail | ⟨saved, hsaved, hsavedId⟩)
              · exact hbroken htail
              · exact hnew saved hsaved hsavedId
            refine ⟨hlanded, ?_⟩
            simp only [if_neg hsame]
            cases cut.tear with
            | part => exact ⟨⟨fun _ h => h, fun _ => rfl⟩, fun _ => .inl rfl⟩
            | line =>
              refine ⟨⟨?_, fun htail => absurd htail hbroken⟩, fun hkey => .inr ⟨event, ?_, hkey ▸ hid⟩⟩
              · intro old hold
                rw [hafter]
                exact List.mem_append_left _ hold
              · rw [hafter]
                exact List.mem_append_right _ (List.mem_singleton_self _)
            | whole =>
              rw [hafter]
              refine ⟨⟨fun _ hold => List.mem_append_left _ hold, fun htail => absurd htail hbroken⟩, fun hkey => .inr
                ⟨event, List.mem_append_right _ (List.mem_singleton_self _), hkey ▸ hid⟩⟩
    | _ => exact .inl rfl

lemma crash_grows (s : State) (cuts : String → Option Cut) (sessionId : String) :
    Grows (s.logs sessionId) ((crash host s cuts).logs sessionId) := by
  unfold crash
  rcases hcut : cuts sessionId with _ | cut
  · simp only [hcut]
    exact Grows.refl _
  · simp only [hcut]
    rcases @cutLog_cases host s sessionId cut with hsame | ⟨r, e, -, -, -, -, -, hgrows, -⟩
    · rw [hsame]
      exact Grows.refl _
    · exact hgrows

end

@[simp] lemma setFile_files (s : State) (key : String) (file : File) :
    (s.setFile key file).files = Function.update s.files key (some file) := rfl
@[simp] lemma setFile_logs (s : State) (key : String) (file : File) : (s.setFile key file).logs = s.logs := rfl
@[simp] lemma setFile_pending (s : State) (key : String) (file : File) : (s.setFile key file).pending = s.pending := rfl
@[simp] lemma setPending_files (s : State) (key : String) (task : Option Task) : (s.setPending key task).files = s.files := rfl
@[simp] lemma setPending_logs (s : State) (key : String) (task : Option Task) : (s.setPending key task).logs = s.logs := rfl
@[simp] lemma setPending_pending (s : State) (key : String) (task : Option Task) :
    (s.setPending key task).pending = Function.update s.pending key task := rfl

section
variable {host : Host}

inductive Advances (host : Host) (s : State) (key time : String) : Outcome → State → Prop
  | idle : s.pending key = none → Advances host s key time .idle s
  | reserve {r : Request} : s.pending key = some ⟨r, .reading⟩ → s.files key = none →
    Advances host s key time .moved ((s.setFile key .torn).setPending key (some ⟨r, .reserved⟩))
  | torn {r : Request} : s.pending key = some ⟨r, .reading⟩ → s.files key = some .torn →
    Advances host s key time (.answered key (.error .recordInvalid)) (s.setPending key none)
  | conflict {r : Request} {saved : String} {status : Status} : s.pending key = some ⟨r, .reading⟩ →
    s.files key = some (.record saved status) → saved ≠ r.fingerprint host →
    Advances host s key time (.answered key (.error .conflict)) (s.setPending key none)
  | replay {r : Request} {result : Result} : s.pending key = some ⟨r, .reading⟩ →
    s.files key = some (.record (r.fingerprint host) (.completed result)) →
    Advances host s key time (.answered key (.ok result)) (s.setPending key none)
  | reconcile {r : Request} : s.pending key = some ⟨r, .reading⟩ →
    s.files key = some (.record (r.fingerprint host) .started) → mutating r.method = true →
    Advances host s key time .moved (s.setPending key (some ⟨r, .operating⟩))
  | unknown {r : Request} : s.pending key = some ⟨r, .reading⟩ →
    s.files key = some (.record (r.fingerprint host) .started) → mutating r.method = false →
    Advances host s key time (.answered key (.error .outcomeUnknown)) (s.setPending key none)
  | write {r : Request} : s.pending key = some ⟨r, .reserved⟩ →
    Advances host s key time .moved
      ((s.setFile key (.record (r.fingerprint host) .started)).setPending key (some ⟨r, .operating⟩))
  | fail {r : Request} {failure : Failure} : s.pending key = some ⟨r, .operating⟩ →
    invoke host s.logs r time = .error failure →
    Advances host s key time (.answered key (.error failure)) (s.setPending key none)
  | run {r : Request} {result : Result} {logs : Logs} : s.pending key = some ⟨r, .operating⟩ →
    invoke host s.logs r time = .ok (result, logs) →
    Advances host s key time .moved ({ s with logs := logs }.setPending key (some ⟨r, .recording result⟩))
  | receipt {r : Request} {result : Result} : s.pending key = some ⟨r, .recording result⟩ →
    Advances host s key time (.answered key (.ok result))
      ((s.setFile key (.record (r.fingerprint host) (.completed result))).setPending key none)

lemma advance_cases (s : State) (key time : String) :
    Advances host s key time (advance host s key time).1 (advance host s key time).2 := by
  unfold advance
  rcases hpending : s.pending key with _ | ⟨r, stage⟩
  · exact .idle hpending
  · cases stage with
    | reading =>
      rcases hfile : s.files key with _ | file
      · simp only
        exact .reserve hpending hfile
      · cases file with
        | torn =>
          simp only
          exact .torn hpending hfile
        | record saved status =>
          simp only
          by_cases hsaved : saved ≠ r.fingerprint host
          · rw [if_pos hsaved]
            exact .conflict hpending hfile hsaved
          · rw [if_neg hsaved]
            rw [not_not.1 hsaved] at hfile
            cases status with
            | completed result => exact .replay hpending hfile
            | started =>
              by_cases hmutating : mutating r.method = true
              · simp only [if_pos hmutating]
                exact .reconcile hpending hfile hmutating
              · simp only [if_neg hmutating]
                exact .unknown hpending hfile (by simpa using hmutating)
    | reserved => exact .write hpending
    | operating =>
      rcases hinvoke : invoke host s.logs r time with failure | ⟨result, logs⟩
      · simp only [hinvoke]
        exact .fail hpending hinvoke
      · simp only [hinvoke]
        exact .run hpending hinvoke
    | recording result => exact .receipt hpending

lemma arrive_cases (s : State) (r : Request) :
    (arrive host s r = (.refused .keyInvalid, s) ∧ isKey r.key = false) ∨
    (isKey r.key = true ∧ ∃ task, s.pending r.key = some task ∧
      ((task.request.fingerprint host = r.fingerprint host ∧ arrive host s r = (.joined, s)) ∨
        (task.request.fingerprint host ≠ r.fingerprint host ∧ arrive host s r = (.refused .conflict, s)))) ∨
    (isKey r.key = true ∧ s.pending r.key = none ∧
      arrive host s r = (.begun, s.setPending r.key (some ⟨r, .reading⟩))) := by
  unfold arrive
  cases hkey : isKey r.key with
  | false => exact .inl ⟨by simp, rfl⟩
  | true =>
    rcases hpending : s.pending r.key with _ | task
    · exact .inr (.inr ⟨rfl, rfl, by simp⟩)
    · refine .inr (.inl ⟨rfl, task, rfl, ?_⟩)
      by_cases hsame : task.request.fingerprint host = r.fingerprint host
      · exact .inl ⟨hsame, by simp [hsame]⟩
      · exact .inr ⟨hsame, by simp [hsame]⟩

structure Inv (host : Host) (R : Request → Prop) (s : State) : Prop where
  task : ∀ key t, s.pending key = some t → R t.request ∧ t.request.key = key ∧ isKey key = true
  reserved : ∀ key r, s.pending key = some ⟨r, .reserved⟩ → s.files key = some .torn
  operating : ∀ key r, s.pending key = some ⟨r, .operating⟩ → s.files key = some (.record (r.fingerprint host) .started)
  recording : ∀ key r result, s.pending key = some ⟨r, .recording result⟩ →
    s.files key = some (.record (r.fingerprint host) .started)
  record : ∀ key saved status, s.files key = some (.record saved status) →
    ∃ r, R r ∧ r.key = key ∧ saved = r.fingerprint host

lemma inv_initial (R : Request → Prop) : Inv host R initial := by
  constructor <;> simp [initial]

variable {R : Request → Prop} {s : State}

lemma Inv.setPending (h : Inv host R s) {key : String} {task : Option Task}
    (htask : ∀ t, task = some t → R t.request ∧ t.request.key = key ∧ isKey key = true)
    (hreserved : ∀ r, task = some ⟨r, .reserved⟩ → s.files key = some .torn)
    (hoperating : ∀ r, task = some ⟨r, .operating⟩ → s.files key = some (.record (r.fingerprint host) .started))
    (hrecording : ∀ r result, task = some ⟨r, .recording result⟩ →
      s.files key = some (.record (r.fingerprint host) .started)) : Inv host R (s.setPending key task) := by
  refine ⟨?_, ?_, ?_, ?_, h.record⟩
  · intro k t ht
    rcases of_update ht with ⟨rfl, hsame⟩ | ⟨-, ht⟩
    · exact htask t hsame
    · exact h.task k t ht
  · intro k r hr
    rcases of_update hr with ⟨rfl, hsame⟩ | ⟨-, hr⟩
    · exact hreserved r hsame
    · exact h.reserved k r hr
  · intro k r hr
    rcases of_update hr with ⟨rfl, hsame⟩ | ⟨-, hr⟩
    · exact hoperating r hsame
    · exact h.operating k r hr
  · intro k r result hr
    rcases of_update hr with ⟨rfl, hsame⟩ | ⟨-, hr⟩
    · exact hrecording r result hsame
    · exact h.recording k r result hr

lemma Inv.clear (h : Inv host R s) (key : String) : Inv host R (s.setPending key none) :=
  h.setPending (fun _ ht => by cases ht) (fun _ ht => by cases ht) (fun _ ht => by cases ht) (fun _ _ ht => by cases ht)

lemma Inv.setFile (h : Inv host R s) {key : String} {file : File} {task : Option Task}
    (htask : ∀ t, task = some t → R t.request ∧ t.request.key = key ∧ isKey key = true)
    (hreserved : ∀ r, task = some ⟨r, .reserved⟩ → file = .torn)
    (hoperating : ∀ r, task = some ⟨r, .operating⟩ → file = .record (r.fingerprint host) .started)
    (hrecording : ∀ r result, task ≠ some ⟨r, .recording result⟩)
    (hrecord : ∀ saved status, file = .record saved status → ∃ r, R r ∧ r.key = key ∧ saved = r.fingerprint host) :
    Inv host R ((s.setFile key file).setPending key task) := by
  refine ⟨?_, ?_, ?_, ?_, ?_⟩
  · intro k t ht
    rcases of_update ht with ⟨rfl, hsame⟩ | ⟨-, ht⟩
    · exact htask t hsame
    · exact h.task k t ht
  · intro k r hr
    rcases of_update hr with ⟨rfl, hsame⟩ | ⟨hk, hr⟩
    · rw [setPending_files, setFile_files, Function.update_self, hreserved r hsame]
    · rw [setPending_files, setFile_files, Function.update_of_ne hk]
      exact h.reserved k r hr
  · intro k r hr
    rcases of_update hr with ⟨rfl, hsame⟩ | ⟨hk, hr⟩
    · rw [setPending_files, setFile_files, Function.update_self, hoperating r hsame]
    · rw [setPending_files, setFile_files, Function.update_of_ne hk]
      exact h.operating k r hr
  · intro k r result hr
    rcases of_update hr with ⟨rfl, hsame⟩ | ⟨hk, hr⟩
    · exact absurd hsame (hrecording r result)
    · rw [setPending_files, setFile_files, Function.update_of_ne hk]
      exact h.recording k r result hr
  · intro k saved status hfile
    rcases of_update hfile with ⟨rfl, hsame⟩ | ⟨-, hfile⟩
    · exact hrecord saved status (Option.some.inj hsame)
    · exact h.record k saved status hfile

def Asks (R : Request → Prop) : Action → Prop
  | .request r => R r
  | _ => True

lemma inv_advance (h : Inv host R s) (key time : String) :
    Inv host R (advance host s key time).2 := by
  have hcases := @advance_cases host s key time
  generalize (advance host s key time).1 = outcome at hcases
  generalize (advance host s key time).2 = s' at hcases
  cases hcases with
  | idle => exact h
  | reserve hpending _ =>
    apply h.setFile
    · intro t ht
      cases ht
      have htask := h.task key _ hpending
      exact htask
    · intro _ _
      rfl
    · intro _ ht
      cases ht
    · intro _ _ ht
      cases ht
    · intro _ _ hfile
      cases hfile
  | reconcile hpending hfile _ =>
    apply h.setPending
    · intro t ht
      cases ht
      have htask := h.task key _ hpending
      exact htask
    · intro _ ht
      cases ht
    · intro _ ht
      cases ht
      exact hfile
    · intro _ _ ht
      cases ht
  | write hpending =>
    obtain ⟨hr, hkey, hvalid⟩ := h.task key _ hpending
    apply h.setFile
    · intro t ht
      cases ht
      exact ⟨hr, hkey, hvalid⟩
    · intro _ ht
      cases ht
    · intro _ ht
      cases ht
      rfl
    · intro _ _ ht
      cases ht
    · intro _ _ hfile
      cases hfile
      exact ⟨_, hr, hkey, rfl⟩
  | @run _ _ logs hpending hinvoke =>
    have hlogs : Inv host R { s with logs := logs } := ⟨h.task, h.reserved, h.operating, h.recording, h.record⟩
    apply hlogs.setPending
    · intro t ht
      cases ht
      have htask := h.task key _ hpending
      exact htask
    · intro _ ht
      cases ht
    · intro _ ht
      cases ht
    · intro _ _ ht
      cases ht
      exact h.operating key _ hpending
  | receipt hpending =>
    obtain ⟨hr, hkey, hvalid⟩ := h.task key _ hpending
    apply h.setFile
    · intro t ht
      cases ht
    · intro _ ht
      cases ht
    · intro _ ht
      cases ht
    · intro _ _ ht
      cases ht
    · intro _ _ hfile
      cases hfile
      exact ⟨_, hr, hkey, rfl⟩
  | _ => exact h.clear key

lemma inv_step (h : Inv host R s) {a : Action} (ha : Asks R a) :
    Inv host R (step host s a).2 := by
  cases a with
  | request r =>
    change Inv host R (arrive host s r).2
    rcases @arrive_cases host s r with ⟨heq, -⟩ | ⟨-, task, -, ⟨-, heq⟩ | ⟨-, heq⟩⟩ | ⟨hkey, -, heq⟩ <;> rw [heq]
    · exact h
    · exact h
    · exact h
    · apply h.setPending
      · intro t ht
        cases ht
        exact ⟨ha, rfl, hkey⟩
      · intro _ ht
        cases ht
      · intro _ ht
        cases ht
      · intro _ _ ht
        cases ht
  | advance key time => exact inv_advance h key time
  | crash cuts =>
    refine ⟨?_, ?_, ?_, ?_, h.record⟩ <;> simp [step, crash]

end

end PromptForge.HarnessRequests
