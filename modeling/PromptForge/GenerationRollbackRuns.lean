import PromptForge.GenerationRollback

namespace PromptForge.GenerationRollback
open Runs Tables

variable {δ : Type} {digest : Bytes → δ} {s : State δ}

def Tracked.node (t : Tracked δ) : Option Node := t.original.map .file

def Untouched (s : State δ) (t : Tracked δ) : Prop := t.node = s.user t.path

def Remembered (s : State δ) (path : String) : Prop := ∃ t ∈ s.tracked, t.path = path ∧ Untouched s t

def Undisturbed [DecidableEq δ] (digest : Bytes → δ) (e : Entry (State δ) Action (Outcome δ)) : Prop :=
  match e.action, e.before.phase with
  -- the user does not edit a file that a rollback has checked and not yet restored
  | .edit path _, .checking checked _ => ∀ t ∈ checked, t.path ≠ path
  | .edit path _, .restoring _ rest => ∀ t ∈ rest, t.path ≠ path
  -- `write_file` does not write over what the user wrote since the file was remembered
  | .next, .replacing file target _ => Remembered e.before target ∨ e.before.user target = some (.file file.content)
  -- the user did not write to a remembered file just what was generated there
  | .next, .checking _ (t :: _) => Untouched e.before t ∨ agrees digest e.before.user t = false
  -- no fault hits a rollback after it restored a file that was changed by the generation
  | .fault, .restoring restored _ => ∀ t ∈ restored, t.original.map digest = t.expected
  | _, _ => True

lemma tracks_eq_false {path : String} (h : tracks s path = false) : ∀ t ∈ s.tracked, t.path ≠ path := by
  refine lookup_eq_none.mp ?_
  unfold tracks at h
  simpa using h

lemma not_remembered {path : String} (h : ∀ t ∈ s.tracked, t.path ≠ path) : ¬ Remembered s path := by
  rintro ⟨t, ht, hpath, -⟩
  exact h t ht hpath

lemma setExpected_path (path : String) (value : δ) (t : Tracked δ) : (setExpected path value t).path = t.path := by
  unfold setExpected
  split <;> rfl

lemma setExpected_node (path : String) (value : δ) (t : Tracked δ) : (setExpected path value t).node = t.node := by
  unfold setExpected
  split <;> rfl

lemma restoreFile_self {disk : Disk} {t : Tracked δ} (h : isSymlink (disk t.path) = false) :
    restoreFile disk t t.path = t.node := by
  unfold restoreFile Tracked.node
  cases t.original with
  | some content => simp
  | none =>
    cases hnode : disk t.path with
    | none => simp [bytesOf, hnode]
    | some node =>
      cases node with
      | file content => simp [bytesOf]
      | symlink reads => simp [hnode, isSymlink] at h

lemma restoreFile_of_ne (disk : Disk) {t : Tracked δ} {path : String} (h : path ≠ t.path) :
    restoreFile disk t path = disk path := by
  unfold restoreFile
  cases t.original with
  | some content => exact Function.update_of_ne h ..
  | none =>
    simp only
    split
    · exact Function.update_of_ne h ..
    · rfl

lemma rest_path_ne {restored rest : List (Tracked δ)} {t x : Tracked δ} (hkeys : (s.tracked.map Tracked.path).Nodup)
    (hlist : (restored ++ t :: rest).reverse = s.tracked) (hx : x ∈ restored ++ rest) : x.path ≠ t.path := by
  rw [← hlist, List.map_reverse, List.nodup_reverse, List.map_append, List.map_cons, List.nodup_middle, List.nodup_cons,
    ← List.map_append] at hkeys
  rintro hpath
  exact hkeys.1 (List.mem_map.mpr ⟨x, hx, hpath⟩)

section Invariant
variable [DecidableEq δ]

structure Passed (digest : Bytes → δ) (s : State δ) (t : Tracked δ) : Prop where
  untouched : Untouched s t
  agrees : agrees digest s.disk t = true

def Progress (digest : Bytes → δ) (s : State δ) : Prop :=
  match s.phase with
  | .checking checked rest =>
    s.finished = false ∧ checked ++ rest = s.tracked ∧ s.disk = s.unrolled ∧ ∀ t ∈ checked, Passed digest s t
  | .restoring restored rest =>
    s.finished = false ∧ (restored ++ rest).reverse = s.tracked ∧ (∀ t ∈ restored, s.disk t.path = s.user t.path) ∧
      ∀ t ∈ rest, Passed digest s t
  | _ => True

structure Inv (digest : Bytes → δ) (s : State δ) : Prop where
  keys : (s.tracked.map Tracked.path).Nodup
  closed : s.finished = true → s.tracked = []
  work : ∀ path, s.disk path = s.user path ∨ Remembered s path
  progress : Progress digest s

lemma inv_initial (disk : Disk) : Inv digest (.initial disk) where
  keys := List.nodup_nil
  closed := fun _ => rfl
  work := fun _ => .inl rfl
  progress := trivial

lemma Inv.setPhase (h : Inv digest s) (phase : Phase δ) (hphase : Progress digest { s with phase }) :
    Inv digest { s with phase } :=
  ⟨h.keys, h.closed, h.work, hphase⟩

lemma Inv.ended (h : Inv digest s) : Inv digest (ended s) := h.setPhase .idle trivial

lemma agrees_congr {disk disk' : Disk} {t : Tracked δ} (h : disk t.path = disk' t.path) :
    GenerationRollback.agrees digest disk t = GenerationRollback.agrees digest disk' t := by
  unfold GenerationRollback.agrees
  rw [h]

lemma Passed.congr {s' : State δ} {t : Tracked δ} (h : Passed digest s t) (hdisk : s'.disk t.path = s.disk t.path)
    (huser : s'.user t.path = s.user t.path) : Passed digest s' t where
  untouched := h.untouched.trans huser.symm
  agrees := (agrees_congr hdisk).trans h.agrees

lemma inv_edit (h : Inv digest s) (path : String) (node : Option Node)
    (hok : Undisturbed digest (entry (step digest) s (.edit path node))) :
    Inv digest (step digest s (.edit path node)).2 where
  keys := h.keys
  closed := h.closed
  work := by
    intro k
    change Function.update s.disk path node k = Function.update s.user path node k ∨ _
    by_cases hk : k = path
    · subst hk
      simp
    · rcases h.work k with hsame | ⟨t, ht, rfl, huntouched⟩
      · simp [hk, hsame]
      · refine .inr ⟨t, ht, rfl, huntouched.trans ?_⟩
        exact (Function.update_of_ne hk ..).symm
  progress := by
    have hkeep : ∀ t : Tracked δ, t.path ≠ path → Passed digest s t → Passed digest (step digest s (.edit path node)).2 t := by
      intro t hne hpassed
      exact hpassed.congr (Function.update_of_ne hne ..) (Function.update_of_ne hne ..)
    have hp := h.progress
    unfold Progress at hp ⊢
    change match s.phase with | .checking checked rest => _ | .restoring restored rest => _ | _ => _
    unfold Undisturbed at hok
    cases hphase : s.phase with
    | checking checked rest =>
      simp only [hphase, entry_before, entry_action] at hp hok ⊢
      obtain ⟨hopen, hlist, hdisk, hpassed⟩ := hp
      refine ⟨hopen, hlist, ?_, fun t ht => hkeep t (hok t ht) (hpassed t ht)⟩
      change Function.update s.disk path node = Function.update s.unrolled path node
      rw [hdisk]
    | restoring restored rest =>
      simp only [hphase, entry_before, entry_action] at hp hok ⊢
      obtain ⟨hopen, hlist, hdone, hpassed⟩ := hp
      refine ⟨hopen, hlist, fun t ht => ?_, fun t ht => hkeep t (hok t ht) (hpassed t ht)⟩
      change Function.update s.disk path node t.path = Function.update s.user path node t.path
      by_cases hk : t.path = path
      · simp [hk]
      · simp [hk, hdone t ht]
    | _ => trivial

lemma inv_remember {s' : State δ} {target : String} (h : Inv digest s) (hr : remember digest s target = .ok s') :
    Inv digest (ended s') := by
  unfold remember at hr
  split at hr
  · cases hr
    exact h.ended
  · rename_i hfresh
    split at hr
    · cases hr
    · rename_i hlink
      cases hr
      simp only [Bool.or_eq_true, not_or, Bool.not_eq_true] at hfresh hlink
      obtain ⟨hopen, hnew⟩ := hfresh
      have hnone := tracks_eq_false hnew
      have hsame : s.disk target = s.user target := (h.work target).resolve_right (not_remembered hnone)
      refine ⟨?_, fun hclosed => ?_, fun path => ?_, trivial⟩
      · exact nodup_map_concat h.keys hnone
      · exact absurd (hopen.symm.trans hclosed) nofun
      · rcases h.work path with hwork | ⟨t, ht, hpath, huntouched⟩
        · exact .inl hwork
        · exact .inr ⟨t, List.mem_append_left _ ht, hpath, huntouched⟩

lemma inv_recordWritten {s' : State δ} {target : String} {value : δ} (h : Inv digest s)
    (hr : recordWritten s target value = .ok s') : Inv digest (ended s') := by
  unfold recordWritten at hr
  split at hr
  · cases hr
  · rename_i hopen
    cases hr
    simp only [Bool.or_eq_true, not_or, Bool.not_eq_true] at hopen
    refine ⟨?_, fun hclosed => ?_, fun path => ?_, trivial⟩
    · change ((s.tracked.map (setExpected target value)).map Tracked.path).Nodup
      have hmap : Tracked.path ∘ setExpected target value = Tracked.path := funext fun t => setExpected_path target value t
      rw [List.map_map, hmap]
      exact h.keys
    · exact absurd (hopen.1.symm.trans hclosed) nofun
    · rcases h.work path with hwork | ⟨t, ht, hpath, huntouched⟩
      · exact .inl hwork
      · refine .inr ⟨setExpected target value t, List.mem_map_of_mem ht, ?_, ?_⟩
        · rw [setExpected_path, hpath]
        · unfold Untouched
          rw [setExpected_path, setExpected_node]
          exact huntouched

lemma inv_replace (h : Inv digest s) {file : GeneratedFile} {target : String} (previous : Option δ)
    (hok : Remembered s target ∨ s.user target = some (.file file.content)) :
    Inv digest { s with disk := Function.update s.disk target (some (.file file.content)), phase := .recording file target previous } where
  keys := h.keys
  closed := h.closed
  work := by
    intro path
    change Function.update s.disk target _ path = s.user path ∨ _
    by_cases hpath : path = target
    · subst hpath
      rw [Function.update_self]
      exact hok.symm.imp_left Eq.symm
    · rw [Function.update_of_ne hpath]
      exact h.work path
  progress := trivial

lemma not_symlink {disk : Disk} {t : Tracked δ} (h : agrees digest disk t = true) : isSymlink (disk t.path) = false := by
  unfold agrees at h
  simp only [Bool.and_eq_true, Bool.not_eq_true'] at h
  exact h.1

lemma untouched_of_agrees (h : Inv digest s) {t : Tracked δ} (ht : t ∈ s.tracked) (hagrees : agrees digest s.disk t = true)
    (hok : Untouched s t ∨ agrees digest s.user t = false) : Untouched s t := by
  rcases h.work t.path with hsame | ⟨t', ht', hpath, huntouched⟩
  · refine hok.resolve_right fun hfalse => ?_
    rw [agrees_congr hsame, hfalse] at hagrees
    cases hagrees
  · obtain rfl : t' = t := List.inj_on_of_nodup_map h.keys ht' ht hpath
    exact huntouched

lemma inv_check (h : Inv digest s) {t : Tracked δ} {checked rest : List (Tracked δ)} (hphase : s.phase = .checking checked (t :: rest))
    (hagrees : agrees digest s.disk t = true) (hok : Untouched s t ∨ agrees digest s.user t = false) :
    Inv digest { s with phase := .checking (checked ++ [t]) rest } := by
  have hp := h.progress
  simp only [Progress, hphase] at hp
  obtain ⟨hopen, hlist, hdisk, hpassed⟩ := hp
  have ht : t ∈ s.tracked := hlist ▸ List.mem_append_right _ (List.mem_cons_self ..)
  refine h.setPhase _ ⟨hopen, ?_, hdisk, fun x hx => ?_⟩
  · rw [List.append_assoc]
    exact hlist
  · rcases mem_concat.1 hx with hx | rfl
    · exact (hpassed x hx).congr rfl rfl
    · exact ⟨untouched_of_agrees h ht hagrees hok, hagrees⟩

lemma inv_restore (h : Inv digest s) {t : Tracked δ} {restored rest : List (Tracked δ)}
    (hphase : s.phase = .restoring restored (t :: rest)) :
    Inv digest { s with disk := restoreFile s.disk t, phase := .restoring (restored ++ [t]) rest } := by
  have hp := h.progress
  simp only [Progress, hphase] at hp
  obtain ⟨hopen, hlist, hdone, hpassed⟩ := hp
  have hne := fun x hx => @rest_path_ne _ s restored rest t x h.keys hlist hx
  obtain ⟨huntouched, hagrees⟩ := hpassed t (List.mem_cons_self ..)
  have hself : restoreFile s.disk t t.path = s.user t.path := (restoreFile_self (not_symlink hagrees)).trans huntouched
  refine ⟨h.keys, h.closed, fun path => ?_, hopen, ?_, fun x hx => ?_, fun x hx => ?_⟩
  · by_cases hpath : path = t.path
    · exact .inl (hpath ▸ hself)
    · change restoreFile s.disk t path = _ ∨ _
      rw [restoreFile_of_ne _ hpath]
      exact h.work path
  · rw [List.append_assoc]
    exact hlist
  · rcases mem_concat.1 hx with hx | rfl
    · exact (restoreFile_of_ne _ (hne x (List.mem_append_left _ hx))).trans (hdone x hx)
    · exact hself
  · exact (hpassed x (List.mem_cons_of_mem _ hx)).congr (restoreFile_of_ne _ (hne x (List.mem_append_right _ hx))) rfl

lemma disk_eq_user (h : Inv digest s) {restored : List (Tracked δ)} (hphase : s.phase = .restoring restored [])
    (path : String) : s.disk path = s.user path := by
  have hp := h.progress
  simp only [Progress, hphase, List.append_nil] at hp
  obtain ⟨-, hlist, hdone, -⟩ := hp
  rcases h.work path with hsame | ⟨t, ht, rfl, -⟩
  · exact hsame
  · rw [← hlist, List.mem_reverse] at ht
    exact hdone t ht

lemma inv_finish (h : Inv digest s) {restored : List (Tracked δ)} (hphase : s.phase = .restoring restored []) :
    Inv digest { s with tracked := [], finished := true, phase := .idle } where
  keys := List.nodup_nil
  closed := fun _ => rfl
  work := fun path => .inl (disk_eq_user h hphase path)
  progress := trivial

lemma inv_next (h : Inv digest s) (hok : Undisturbed digest (entry (step digest) s .next)) :
    Inv digest (next digest s).2 := by
  simp only [Undisturbed, entry_action, entry_before] at hok
  unfold next
  cases hphase : s.phase with
  | idle => exact h
  | remembering file target =>
    simp only
    cases hr : remember digest s target with
    | ok s' => exact (inv_remember h hr).setPhase (.hashing file target) trivial
    | error error => exact h.ended
  | hashing file target => exact h.setPhase _ trivial
  | replacing file target previous =>
    simp only [hphase] at hok
    exact inv_replace h previous hok
  | recording file target previous =>
    simp only
    cases hr : recordWritten s target (digest file.content) with
    | ok s' => exact inv_recordWritten h hr
    | error error => exact h.ended
  | checking checked rest =>
    cases rest with
    | nil =>
      have hp := h.progress
      simp only [Progress, hphase, List.append_nil] at hp
      obtain ⟨hopen, hlist, -, hpassed⟩ := hp
      refine h.setPhase _ ⟨hopen, ?_, fun _ ht => (List.not_mem_nil ht).elim, fun t ht => ?_⟩
      · simpa using hlist
      · exact (hpassed t (List.mem_reverse.mp ht)).congr rfl rfl
    | cons t rest =>
      simp only [hphase] at hok
      simp only
      split
      next hagrees => exact inv_check h hphase hagrees hok
      next => exact h.ended
  | restoring restored rest =>
    cases rest with
    | nil => exact inv_finish h hphase
    | cons t rest => exact inv_restore h hphase

lemma inv_step (a : Action) (h : Inv digest s) (hok : Undisturbed digest (entry (step digest) s a)) :
    Inv digest (step digest s a).2 := by
  cases a with
  | edit path node => exact inv_edit h path node hok
  | next => exact inv_next h hok
  | writeFile file =>
    simp only [step]
    split
    · unfold writeFile
      split
      · exact h
      · split
        · exact h
        · exact h.setPhase _ trivial
    · exact h
  | rollback =>
    simp only [step]
    split
    · unfold rollback
      split
      · exact h
      · rename_i hopen
        exact ⟨h.keys, h.closed, h.work, by simpa using hopen, rfl, rfl, fun _ ht => (List.not_mem_nil ht).elim⟩
    · exact h
  | fault =>
    simp only [step]
    split
    · exact h
    · exact h.ended

def Checking (s : State δ) : Prop := ∃ checked rest, s.phase = .checking checked rest

/-- A rollback that raises early has changed no file, and whatever the user has is there or remembered. -/
structure Kept (e : Entry (State δ) Action (Outcome δ)) : Prop where
  raises : e.outcome = .raised .conflict ∨ e.outcome = .failed ∧ Checking e.before → e.after.disk = e.after.unrolled
  completes : ∀ changed, e.outcome = .rolledBack changed → ∀ path, e.after.disk path = e.after.user path
  work : ∀ path, e.after.disk path = e.after.user path ∨ Remembered e.after path

omit [DecidableEq δ] in
lemma remember_error {target : String} {error : Raised} (h : remember digest s target = .error error) : error ≠ .conflict := by
  unfold remember at h
  split at h
  · cases h
  · split at h <;> cases h
    exact nofun

omit [DecidableEq δ] in
lemma recordWritten_error {target : String} {value : δ} {error : Raised} (h : recordWritten s target value = .error error) :
    error ≠ .conflict := by
  unfold recordWritten at h
  split at h <;> cases h
  exact nofun

lemma Inv.unrolled (h : Inv digest s) (hphase : Checking s) : s.disk = s.unrolled := by
  obtain ⟨checked, rest, hphase⟩ := hphase
  have hp := h.progress
  simp only [Progress, hphase] at hp
  exact hp.2.2.1

lemma next_conflict (h : (next digest s).1 = .raised .conflict) : Checking s ∧ (next digest s).2 = ended s := by
  unfold next at h ⊢
  cases hphase : s.phase with
  | remembering file target =>
    simp only [hphase] at h
    cases hr : remember digest s target with
    | ok s' => simp [hr, settle] at h
    | error error =>
      simp only [hr, settle, Outcome.raised.injEq] at h
      exact absurd h (remember_error hr)
  | recording file target previous =>
    simp only [hphase] at h
    cases hr : recordWritten s target (digest file.content) with
    | ok s' => simp [hr] at h
    | error error =>
      simp only [hr, Outcome.raised.injEq] at h
      exact absurd h (recordWritten_error hr)
  | checking checked rest =>
    refine ⟨⟨checked, rest, hphase⟩, ?_⟩
    cases rest with
    | nil => simp [hphase] at h
    | cons t rest =>
      simp only [hphase] at h ⊢
      split at h
      · cases h
      · rename_i hagrees
        rw [if_neg hagrees]
  | restoring restored rest => cases rest <;> simp [hphase] at h
  | _ => simp [hphase] at h

lemma next_rolledBack {changed : Bool} (h : (next digest s).1 = .rolledBack changed) :
    (∃ restored, s.phase = .restoring restored []) ∧ (next digest s).2.tracked = [] := by
  unfold next at h ⊢
  cases hphase : s.phase with
  | remembering file target =>
    simp only [hphase] at h
    cases hr : remember digest s target <;> simp [hr, settle] at h
  | recording file target previous =>
    simp only [hphase] at h
    cases hr : recordWritten s target (digest file.content) <;> simp [hr] at h
  | checking checked rest =>
    cases rest with
    | nil => simp [hphase] at h
    | cons t rest =>
      simp only [hphase] at h
      split at h <;> cases h
  | restoring restored rest =>
    cases rest with
    | nil => exact ⟨⟨restored, rfl⟩, rfl⟩
    | cons t rest => simp [hphase] at h
  | _ => simp [hphase] at h

lemma step_raises (a : Action) (h : Inv digest s)
    (hraises : (step digest s a).1 = .raised .conflict ∨ (step digest s a).1 = .failed ∧ Checking s) :
    (step digest s a).2.disk = (step digest s a).2.unrolled := by
  suffices hended : Checking s ∧ (step digest s a).2 = ended s by
    rw [hended.2]
    exact h.unrolled hended.1
  cases a with
  | edit path node => simp [step] at hraises
  | next =>
    rcases hraises with hconflict | ⟨hfailed, checked, rest, hphase⟩
    · exact next_conflict hconflict
    · simp only [step, next] at hfailed
      cases rest with
      | nil => simp [hphase] at hfailed
      | cons t rest =>
        simp only [hphase] at hfailed
        split at hfailed <;> cases hfailed
  | writeFile file =>
    simp only [step, writeFile] at hraises
    split at hraises
    · split at hraises
      · simp at hraises
      · split at hraises <;> simp at hraises
    · simp at hraises
  | rollback =>
    simp only [step, rollback] at hraises
    split at hraises
    · split at hraises <;> simp at hraises
    · simp at hraises
  | fault =>
    rcases hraises with hconflict | ⟨-, checked, rest, hphase⟩
    · simp only [step] at hconflict
      split at hconflict <;> cases hconflict
    · exact ⟨⟨checked, rest, hphase⟩, by simp [step, hphase]⟩

lemma step_rolledBack {a : Action} {changed : Bool} (h : Inv digest s) (hr : (step digest s a).1 = .rolledBack changed) :
    (step digest s a).2.tracked = [] := by
  cases a with
  | edit path node => cases hr
  | next => exact (next_rolledBack hr).2
  | writeFile file =>
    simp only [step, writeFile] at hr
    split at hr
    · split at hr
      · cases hr
      · split at hr <;> cases hr
    · cases hr
  | rollback =>
    simp only [step, rollback] at hr ⊢
    split at hr
    · split at hr
      · rename_i hclosed
        simp [hclosed, h.closed hclosed]
      · cases hr
    · cases hr
  | fault =>
    simp only [step] at hr
    split at hr <;> cases hr

lemma kept_step (a : Action) (h : Inv digest s) (hok : Undisturbed digest (entry (step digest) s a)) :
    Kept (entry (step digest) s a) where
  raises := step_raises a h
  completes := by
    intro changed hchanged path
    refine ((inv_step a h hok).work path).resolve_right (not_remembered fun t ht => ?_)
    rw [step_rolledBack h hchanged] at ht
    cases ht
  work := (inv_step a h hok).work

def edit (disk : Disk) : Action → Disk
  | .edit path node => Function.update disk path node
  | _ => disk

def userDisk (disk : Disk) (actions : List Action) : Disk := actions.foldl edit disk

omit [DecidableEq δ] in
lemma remember_user {s' : State δ} {target : String} (h : remember digest s target = .ok s') : s'.user = s.user := by
  unfold remember at h
  split at h
  · cases h
    rfl
  · split at h <;> cases h
    rfl

omit [DecidableEq δ] in
lemma recordWritten_user {s' : State δ} {target : String} {value : δ} (h : recordWritten s target value = .ok s') :
    s'.user = s.user := by
  unfold recordWritten at h
  split at h <;> cases h
  rfl

lemma next_user : (next digest s).2.user = s.user := by
  unfold next
  cases s.phase with
  | remembering file target =>
    simp only
    cases hr : remember digest s target with
    | ok s' =>
      have huser := remember_user hr
      exact huser
    | error error => rfl
  | recording file target previous =>
    simp only
    cases hr : recordWritten s target (digest file.content) with
    | ok s' =>
      have huser := recordWritten_user hr
      exact huser
    | error error => rfl
  | checking checked rest =>
    cases rest with
    | nil => rfl
    | cons t rest =>
      simp only
      split <;> rfl
  | restoring restored rest => cases rest <;> rfl
  | _ => rfl

lemma step_user (a : Action) : (step digest s a).2.user = edit s.user a := by
  cases a with
  | edit path node => rfl
  | next => exact next_user
  | writeFile file =>
    simp only [step, writeFile, edit]
    split
    · split
      · rfl
      · split <;> rfl
    · rfl
  | rollback =>
    simp only [step, rollback, edit]
    split
    · split <;> rfl
    · rfl
  | fault =>
    simp only [step, edit]
    split <;> rfl

lemma final_user (s : State δ) (actions : List Action) : (final (step digest) s actions).user = userDisk s.user actions := by
  induction actions generalizing s with
  | nil => rfl
  | cons a actions ih =>
    rw [final_cons, ih, step_user]
    rfl

lemma userDisk_of_not_edited (disk : Disk) {actions : List Action} {path : String}
    (h : ∀ node, .edit path node ∉ actions) : userDisk disk actions path = disk path := by
  induction actions generalizing disk with
  | nil => rfl
  | cons a actions ih =>
    refine (ih (edit disk a) fun node hnode => h node (List.mem_cons_of_mem _ hnode)).trans ?_
    cases a with
    | edit other node =>
      refine Function.update_of_ne (fun hpath => h node ?_) ..
      rw [hpath]
      exact List.mem_cons_self ..
    | _ => rfl

lemma checks_run (s : State δ) (checked rest : List (Tracked δ)) (h : ∀ t ∈ rest, agrees digest s.disk t = true) :
    final (step digest) { s with phase := .checking checked rest } (List.replicate rest.length .next) =
      { s with phase := .checking (checked ++ rest) [] } := by
  induction rest generalizing checked with
  | nil => simp
  | cons t rest ih =>
    have hfirst : (step digest { s with phase := .checking checked (t :: rest) } .next).2 =
        { s with phase := .checking (checked ++ [t]) rest } := by
      simp [step, next, h t (List.mem_cons_self ..)]
    rw [List.length_cons, List.replicate_succ, final_cons, hfirst, ih _ fun x hx => h x (List.mem_cons_of_mem _ hx)]
    simp

lemma restores_run {restored rest : List (Tracked δ)} (h : Inv digest s) (hphase : s.phase = .restoring restored rest) :
    (final (step digest) s (List.replicate (rest.length + 1) .next)).finished = true ∧
      ∀ path, (final (step digest) s (List.replicate (rest.length + 1) .next)).disk path = s.user path := by
  induction rest generalizing s restored with
  | nil =>
    have hlast : (step digest s .next).2 = { s with tracked := [], finished := true, phase := .idle } := by
      simp [step, next, hphase]
    simp only [List.length_nil, Nat.zero_add, List.replicate_one, final_cons, final_nil, hlast]
    exact ⟨trivial, disk_eq_user h hphase⟩
  | cons t rest ih =>
    have hfirst : (step digest s .next).2 =
        { s with disk := restoreFile s.disk t, phase := .restoring (restored ++ [t]) rest } := by
      simp [step, next, hphase]
    rw [List.length_cons, List.replicate_succ, final_cons, hfirst]
    exact ih (inv_restore h hphase) rfl

lemma rollback_completes (h : Inv digest s) (hphase : s.phase = .idle) (hopen : s.finished = false)
    (hpassed : ∀ t ∈ s.tracked, Passed digest s t) : ∃ n,
      (final (step digest) s (.rollback :: List.replicate n .next)).finished = true ∧
      ∀ path, (final (step digest) s (.rollback :: List.replicate n .next)).disk path = s.user path := by
  have hcall : (step digest s .rollback).2 = { s with unrolled := s.disk, phase := .checking [] s.tracked } := by
    simp [step, rollback, hphase, hopen]
  have hchecks := checks_run { s with unrolled := s.disk } [] s.tracked fun t ht => (hpassed t ht).agrees
  rw [List.nil_append] at hchecks
  have hrestoring : Inv digest { s with unrolled := s.disk, phase := .restoring [] s.tracked.reverse } := by
    refine ⟨h.keys, h.closed, h.work, hopen, by simp, fun _ ht => (List.not_mem_nil ht).elim, fun t ht => ?_⟩
    exact (hpassed t (List.mem_reverse.mp ht)).congr rfl rfl
  refine ⟨s.tracked.length + (1 + (s.tracked.reverse.length + 1)), ?_⟩
  rw [final_cons, hcall, List.replicate_add, List.replicate_add, final_append, hchecks, final_append]
  exact restores_run hrestoring rfl

def Steady (s : State δ) : Prop :=
  ∀ restored rest, s.phase = .restoring restored rest → ∀ t ∈ restored, s.disk t.path = t.node ∧ Untouched s t

lemma steady_next (h : Inv digest s) (hsteady : Steady s) : Steady (next digest s).2 := by
  intro restored rest hafter x hx
  unfold next at hafter ⊢
  cases hphase : s.phase with
  | remembering file target =>
    simp only [hphase] at hafter
    cases hr : remember digest s target <;> simp [hr, settle, ended] at hafter
  | recording file target previous =>
    simp only [hphase] at hafter
    cases hr : recordWritten s target (digest file.content) <;> simp [hr, ended] at hafter
  | checking checked todo =>
    cases todo with
    | nil =>
      simp only [hphase, Phase.restoring.injEq] at hafter
      rw [← hafter.1] at hx
      cases hx
    | cons t todo =>
      simp only [hphase] at hafter
      split at hafter <;> simp [ended] at hafter
  | restoring done todo =>
    cases todo with
    | nil => simp [hphase] at hafter
    | cons t todo =>
      have hp := h.progress
      simp only [Progress, hphase] at hp
      obtain ⟨-, hlist, -, hpassed⟩ := hp
      obtain ⟨huntouched, hagrees⟩ := hpassed t (List.mem_cons_self ..)
      simp only [hphase, Phase.restoring.injEq] at hafter ⊢
      rw [← hafter.1] at hx
      rcases mem_concat.1 hx with hx | rfl
      · obtain ⟨hnode, hsame⟩ := hsteady done _ hphase x hx
        have hne := rest_path_ne h.keys hlist (List.mem_append_left _ hx)
        exact ⟨(restoreFile_of_ne _ hne).trans hnode, hsame⟩
      · exact ⟨restoreFile_self (not_symlink hagrees), huntouched⟩
  | _ => simp [hphase] at hafter

lemma steady_step {a : Action} (h : Inv digest s) (hsteady : Steady s) (ha : ∀ path node, a ≠ .edit path node) :
    Steady (step digest s a).2 := by
  cases a with
  | edit path node => exact absurd rfl (ha path node)
  | next => exact steady_next h hsteady
  | writeFile file =>
    simp only [step, writeFile]
    split
    · split
      · exact hsteady
      · split
        · exact hsteady
        · exact nofun
    · exact hsteady
  | rollback =>
    simp only [step, rollback]
    split
    · split
      · exact hsteady
      · exact nofun
    · exact hsteady
  | fault =>
    simp only [step]
    split
    · exact hsteady
    · exact nofun

lemma steady_run {s : State δ} {actions : List Action} (h : Inv digest s) (hsteady : Steady s)
    (hedit : ∀ path node, .edit path node ∉ actions) (hok : ∀ e ∈ trace (step digest) s actions, Undisturbed digest e) :
    Steady (final (step digest) s actions) := by
  induction actions generalizing s with
  | nil => exact hsteady
  | cons a actions ih =>
    have hfirst : Undisturbed digest (entry (step digest) s a) := hok _ (List.mem_cons_self ..)
    refine ih (inv_step a h hfirst) (steady_step h hsteady fun path node ha => ?_) (fun path node hmem => ?_) fun e he => ?_
    · exact hedit path node (ha ▸ List.mem_cons_self ..)
    · exact hedit path node (List.mem_cons_of_mem _ hmem)
    · exact hok e (List.mem_cons_of_mem _ he)

lemma passed_of_fault (h : Inv digest s) (hsteady : Steady s) {restored rest : List (Tracked δ)}
    (hphase : s.phase = .restoring restored rest) (hsame : ∀ t ∈ restored, t.original.map digest = t.expected) :
    ∀ t ∈ s.tracked, Passed digest s t := by
  have hp := h.progress
  simp only [Progress, hphase] at hp
  obtain ⟨-, hlist, -, hpassed⟩ := hp
  intro t ht
  rw [← hlist, List.mem_reverse, List.mem_append] at ht
  rcases ht with ht | ht
  · obtain ⟨hnode, huntouched⟩ := hsteady restored rest hphase t ht
    refine ⟨huntouched, ?_⟩
    unfold agrees
    rw [hnode, ← hsame t ht, Tracked.node]
    cases t.original <;> simp [isSymlink, bytesOf]
  · exact hpassed t ht

/-- A rollback that failed after it began to restore completes when it is called again, if the
    user edited nothing since it was called. -/
def Resumes (digest : Bytes → δ) (disk : Disk) (actions : List Action) : Prop :=
  ∀ first attempt, actions = first ++ .rollback :: (attempt ++ [.fault]) →
    (final (step digest) (.initial disk) first).phase = .idle →
    (∀ path node, .edit path node ∉ attempt) →
    (∃ restored rest, (final (step digest) (.initial disk) (first ++ .rollback :: attempt)).phase = .restoring restored rest) →
    ∃ n, (final (step digest) (final (step digest) (.initial disk) actions) (.rollback :: List.replicate n .next)).finished = true ∧
      ∀ path, (final (step digest) (final (step digest) (.initial disk) actions) (.rollback :: List.replicate n .next)).disk path =
        userDisk disk actions path

lemma resumes {disk : Disk} {actions : List Action}
    (hok : ∀ e ∈ trace (step digest) (.initial disk) actions, Undisturbed digest e) : Resumes digest disk actions := by
  rintro first attempt rfl hidle hedit ⟨restored, rest, hphase⟩
  have hsplit : first ++ .rollback :: (attempt ++ [.fault]) = (first ++ .rollback :: attempt) ++ [.fault] := by simp
  rw [hsplit, trace_append] at hok
  have hbefore := fun e he => hok e (List.mem_append_left _ he)
  have hinv := (invariant_of (fun _ a => inv_step a) (inv_initial disk) hbefore).2
  rw [trace_append] at hbefore
  have hfirst := (invariant_of (fun _ a => inv_step a) (inv_initial disk) fun e he => hbefore e (List.mem_append_left _ he)).2
  have hsteady : Steady (final (step digest) (.initial disk) (first ++ .rollback :: attempt)) := by
    rw [final_append]
    refine steady_run hfirst (fun _ _ hrestoring => ?_) (fun path node hmem => ?_) fun e he => hbefore e (List.mem_append_right _ he)
    · rw [hidle] at hrestoring
      cases hrestoring
    · rcases List.mem_cons.mp hmem with hmem | hmem
      · cases hmem
      · exact hedit path node hmem
  have hfault := hok _ (List.mem_append_right _ (List.mem_cons_self ..))
  simp only [Undisturbed, entry_action, entry_before, hphase] at hfault
  have hpassed := passed_of_fault hinv hsteady hphase hfault
  have hp := hinv.progress
  simp only [Progress, hphase] at hp
  have hafter : final (step digest) (.initial disk) (first ++ .rollback :: (attempt ++ [.fault])) =
      ended (final (step digest) (.initial disk) (first ++ .rollback :: attempt)) := by
    rw [hsplit, final_append]
    simp [step, hphase]
  rw [hafter]
  obtain ⟨n, hfinished, hdisk⟩ := rollback_completes hinv.ended rfl hp.1 fun t ht => (hpassed t ht).congr rfl rfl
  refine ⟨n, hfinished, fun path => (hdisk path).trans ?_⟩
  have huser := @final_user _ digest _ (.initial disk) (first ++ .rollback :: attempt)
  refine (congrFun huser path).trans (congrFun ?_ path)
  rw [hsplit]
  simp [userDisk, edit, State.initial]

end Invariant

/-- Where no step reaches one of the places where work is lost, a rollback loses none and can be called again. -/
theorem rollback_keeps_work [DecidableEq δ] (digest : Bytes → δ) (disk : Disk) (actions : List Action)
    (hok : ∀ e ∈ trace (step digest) (.initial disk) actions, Undisturbed digest e) :
    (∀ e ∈ trace (step digest) (.initial disk) actions, Kept e) ∧
    (final (step digest) (.initial disk) actions).user = userDisk disk actions ∧
    (∀ path, (∀ node, .edit path node ∉ actions) → userDisk disk actions path = disk path) ∧
    Resumes digest disk actions := by
  refine ⟨fun e he => ?_, final_user _ _, fun path => userDisk_of_not_edited disk, resumes hok⟩
  have hinv := (invariant_of (fun _ a => inv_step a) (inv_initial disk) hok).1 e he
  have hentry := entry_eq_of_mem he
  have hundisturbed := hok e he
  rw [hentry] at hundisturbed ⊢
  exact kept_step e.action hinv.1 hundisturbed

def failedOnce : List Action :=
  [.writeFile ⟨"main.cpp", some "main.cpp", [1]⟩, .next, .next, .next, .next, .rollback, .next, .next, .fault]

theorem failedOnce_resumes : Resumes id (fun _ => none) failedOnce := by
  refine (rollback_keeps_work id _ failedOnce fun e he => ?_).2.2.2
  simp [failedOnce, trace, entry, step, writeFile, next, settle, remember, recordWritten, tracks, lookup, State.initial,
    bytesOf, isSymlink, rollback, setExpected, agrees, ended, Function.update] at he
  rcases he with rfl | rfl | rfl | rfl | rfl | rfl | rfl | rfl | rfl <;>
    simp [Undisturbed, Remembered, Untouched, Tracked.node]

def failedMidway : List Action :=
  [.writeFile ⟨"a", some "a", [1]⟩, .next, .next, .next, .next, .writeFile ⟨"b", some "b", [2]⟩, .next, .next, .next, .next,
    .rollback, .next, .next, .next, .next, .fault]

lemma final_idle {δ : Type} [DecidableEq δ] {digest : Bytes → δ} {s : State δ} (h : s.phase = .idle) (n : ℕ) :
    final (step digest) s (List.replicate n .next) = s := by
  induction n with
  | zero => rfl
  | succ n ih =>
    have hstep : (step digest s .next).2 = s := by simp [step, next, h]
    rw [List.replicate_succ, final_cons, hstep, ih]

/-- The second call takes the file it has restored itself for an edit of the user. -/
theorem failedMidway_never_completes : ¬ Resumes id (fun _ => none) failedMidway := by
  intro h
  obtain ⟨n, hfinished, -⟩ := h (failedMidway.take 10) [.next, .next, .next, .next] rfl rfl (by simp) ⟨_, _, rfl⟩
  have hopen : ∀ n < 3, (final (step id) (final (step id) (.initial fun _ => none) failedMidway)
      (.rollback :: List.replicate n .next)).finished = false := by decide
  rcases Nat.lt_or_ge n 2 with hn | hn
  · rw [hopen n (by omega)] at hfinished
    cases hfinished
  · obtain ⟨m, rfl⟩ := Nat.exists_eq_add_of_le hn
    rw [List.replicate_add, ← List.cons_append, final_append, final_idle (by rfl), hopen 2 (by omega)] at hfinished
    cases hfinished

end PromptForge.GenerationRollback
