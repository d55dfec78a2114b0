import PromptForge.ChangeSetLaws

namespace PromptForge.ChangeSets
open Runs Tables

variable {p : Setting} {s s' : State} {base : Disk} {jobs : List Job}

def Safe (jobs : List Job) (s : State) : Prop :=
  (s.journal = false → s.stored = .pending → Original jobs s.disk) ∧
    (s.journal = true → Original jobs s.disk ∨ Backed jobs s.undo)

def Fresh (s : State) : Prop := s.stored = .pending → s.journal = false → s.undo = none

def Steady (s : State) : Prop := Fresh s ∧ (s.stored = .pending → s.journal = false)

def Restoring (jobs : List Job) (job : Job) : Prop := ∃ i ∈ jobs, job.path = i.path ∧ job.content = i.original

def Work (jobs : List Job) (s : State) (done rest : List Job) : Kind → Prop
  | .publish => s.stored = .pending ∧ s.journal = true ∧ Backed jobs s.undo ∧ done ++ rest = jobs ∧
      (∀ j ∈ done, node s.disk j.path = j.content.map .file) ∧ ∀ j ∈ rest, node s.disk j.path = j.original.map .file
  | .rollback => s.stored = .pending ∧ (∀ job ∈ rest, Restoring jobs job) ∧ (rest ≠ [] → s.journal = true ∧ Backed jobs s.undo)
  | .recover _ => s.journal = true ∧ (∀ job ∈ rest, Restoring jobs job) ∧
      (∀ i ∈ jobs, node s.disk i.path = i.original.map .file ∨ ∃ job ∈ rest, job.path = i.path) ∧ (rest ≠ [] → Backed jobs s.undo)

def Waits (rest : List Job) (temp : Option Path) : Prop :=
  ∀ t, temp = some t → t ≠ [] ∧ isSafe t = false ∧ ∀ job, rest.head? = some job → job.content.isSome = true

def Marks (jobs : List Job) (s : State) (status : Status) : After → Prop
  | .raise _ | .resume _ => status ≠ .pending
  | .recovery => status = .failed
  | .clear _ => Original jobs s.disk ∧ s.journal = true
  | .close => status = .applied ∧ s.journal = true

def Stage (jobs : List Job) (s : State) : Phase → Prop
  | .down => Fresh s
  | .idle | .checking => Steady s
  | .makingUndo jobs' => jobs' = jobs ∧ s.stored = .pending ∧ s.journal = false ∧ s.undo = none
  | .backingUp rest jobs' => jobs' = jobs ∧ s.stored = .pending ∧ s.journal = false ∧ (∀ j ∈ rest, j ∈ jobs) ∧
      ∃ rows, s.undo = some rows ∧ ∀ j ∈ jobs, ∀ content, j.original = some content →
        j ∈ rest ∨ lookup Prod.fst rows j.path = some (j.path, content)
  | .journaling jobs' => jobs' = jobs ∧ s.stored = .pending ∧ s.journal = false ∧ Backed jobs s.undo
  | .working kind done rest temp => Work jobs s done rest kind ∧ Waits rest temp
  | .marking status after => Marks jobs s status after
  | .clearing _ => Original jobs s.disk ∧ s.journal = true
  | .closing none => s.stored = .applied ∧ s.journal = true
  | .closing (some _) => s.journal = true ∧ (s.stored = .pending → s.undo = none ∧ Original jobs s.disk)

structure Inv (p : Setting) (base : Disk) (s : State) : Prop where
  shape : Shape (jobsOf p base) base s.disk
  safe : Safe (jobsOf p base) s
  stage : Stage (jobsOf p base) s s.phase

lemma work_backed {done rest : List Job} {job : Job} {kind : Kind} (h : Work jobs s done (job :: rest) kind) :
    s.journal = true ∧ Backed jobs s.undo := by
  cases kind with
  | publish => exact ⟨h.2.1, h.2.2.1⟩
  | rollback => exact h.2.2 (List.cons_ne_nil _ _)
  | recover caller => exact ⟨h.1, h.2.2.2 (List.cons_ne_nil _ _)⟩

lemma work_job {done rest : List Job} {job : Job} {kind : Kind} (h : Work jobs s done (job :: rest) kind) :
    ∃ i ∈ jobs, job.path = i.path ∧ (job.content = i.original ∨ job.content = i.content) := by
  cases kind with
  | publish =>
    have hmem : job ∈ jobs := by
      rw [← h.2.2.2.1]
      exact List.mem_append_right _ (List.mem_cons_self ..)
    exact ⟨job, hmem, rfl, .inr rfl⟩
  | rollback =>
    obtain ⟨i, hi, hpath, hcontent⟩ := h.2.1 job (List.mem_cons_self ..)
    exact ⟨i, hi, hpath, .inl hcontent⟩
  | recover caller =>
    obtain ⟨i, hi, hpath, hcontent⟩ := h.2.1 job (List.mem_cons_self ..)
    exact ⟨i, hi, hpath, .inl hcontent⟩

lemma safe_of_backed (h : s.journal = true ∧ Backed jobs s.undo) : Safe jobs s :=
  ⟨fun hj => absurd (h.1.symm.trans hj) (by simp), fun _ => .inr h.2⟩

lemma work_same {done rest : List Job} {kind : Kind} {disk : Disk} {phase : Phase}
    (h : Work jobs s done rest kind) (hsame : ∀ i ∈ jobs, node disk i.path = node s.disk i.path) :
    Work jobs { s with disk, phase } done rest kind := by
  cases kind with
  | publish =>
    obtain ⟨hpending, hjournal, hbacked, hall, hdone, hrest⟩ := h
    refine ⟨hpending, hjournal, hbacked, hall, fun j hj => ?_, fun j hj => ?_⟩
    · exact (hsame j (hall ▸ List.mem_append_left _ hj)).trans (hdone j hj)
    · exact (hsame j (hall ▸ List.mem_append_right _ hj)).trans (hrest j hj)
  | rollback => exact h
  | recover caller =>
    obtain ⟨hjournal, hrestoring, hcovers, hbacked⟩ := h
    refine ⟨hjournal, hrestoring, fun i hi => ?_, hbacked⟩
    exact (hcovers i hi).imp_left fun hnode => (hsame i hi).trans hnode

lemma work_written {done rest : List Job} {job : Job} {kind : Kind} {disk : Disk} {phase : Phase} (hfine : Fine jobs base)
    (h : Work jobs s done (job :: rest) kind) (hnode : node disk job.path = job.content.map .file)
    (hsame : ∀ i ∈ jobs, i.path ≠ job.path → node disk i.path = node s.disk i.path) :
    Work jobs { s with disk, phase } (done ++ [job]) rest kind := by
  cases kind with
  | publish =>
    obtain ⟨hpending, hjournal, hbacked, hall, hdone, hrest⟩ := h
    have hpaths := hfine.paths
    rw [← hall] at hpaths
    obtain ⟨hbefore, hafter⟩ := apart_of_split hpaths
    refine ⟨hpending, hjournal, hbacked, by rw [← hall]; simp, fun j hj => ?_, fun j hj => ?_⟩
    · rcases mem_concat.1 hj with hj | rfl
      · exact (hsame j (hall ▸ List.mem_append_left _ hj) (hbefore j hj)).trans (hdone j hj)
      · exact hnode
    · have hmem : j ∈ jobs := hall ▸ List.mem_append_right _ (List.mem_cons_of_mem _ hj)
      exact (hsame j hmem (hafter j hj)).trans (hrest j (List.mem_cons_of_mem _ hj))
  | rollback =>
    obtain ⟨hpending, hrestoring, hbacked⟩ := h
    exact ⟨hpending, fun j hj => hrestoring j (List.mem_cons_of_mem _ hj), fun _ => hbacked (List.cons_ne_nil _ _)⟩
  | recover caller =>
    obtain ⟨hjournal, hrestoring, hcovers, hbacked⟩ := h
    refine ⟨hjournal, fun j hj => hrestoring j (List.mem_cons_of_mem _ hj), fun i hi => ?_, fun _ => hbacked (List.cons_ne_nil _ _)⟩
    by_cases hne : i.path = job.path
    · -- the job was the one of this file
      obtain ⟨i', hi', hpath, hcontent⟩ := hrestoring job (List.mem_cons_self ..)
      obtain rfl : i = i' := List.inj_on_of_nodup_map hfine.paths hi hi' (hne.trans hpath)
      exact .inl (by rw [hne, ← hcontent]; exact hnode)
    · rcases hcovers i hi with hold | ⟨job', hjob', hpath⟩
      · exact .inl ((hsame i hi hne).trans hold)
      · rcases List.mem_cons.mp hjob' with rfl | hjob'
        · exact absurd hpath.symm hne
        · exact .inr ⟨job', hjob', hpath⟩

section Jobs
variable {done rest : List Job} {job : Job} {kind : Kind} {temp : Option Path} {disk : Disk}

def Touches (disk disk' : Disk) (job : Job) : Prop := Quiet disk disk' job.path ∨ Written disk disk' job.path job.content

lemma shape_touches (hfine : Fine jobs base) (hshape : Shape jobs base s.disk) (h : Work jobs s done (job :: rest) kind)
    (htouches : Touches s.disk disk job) : Shape jobs base disk := by
  obtain ⟨i, hi, hpath, hcontent⟩ := work_job h
  unfold Touches at htouches
  rw [hpath] at htouches
  rcases htouches with hquiet | hwritten
  · exact (hshape.quiet hfine hi hquiet).1
  · exact (hshape.written hfine hi hwritten hcontent).1

lemma inv_abort (hshape : Shape (jobsOf p base) base s.disk) (hsafe : Safe (jobsOf p base) s) (hpending : s.stored = .pending)
    (hdone : ∀ j ∈ done, j ∈ jobsOf p base) (hbacked : done ≠ [] → s.journal = true ∧ Backed (jobsOf p base) s.undo) :
    Inv p base (abort s done).2 := by
  refine ⟨hshape, hsafe, ⟨hpending, fun job hjob => ?_, fun hne => hbacked ?_⟩, fun t ht => by cases ht⟩
  · obtain ⟨j, hj, rfl⟩ := List.mem_map.mp hjob
    exact ⟨j, hdone j (List.mem_reverse.mp hj), rfl, rfl⟩
  · rintro rfl
    exact hne rfl

lemma inv_failJob (hfine : Fine (jobsOf p base) base) (hshape : Shape (jobsOf p base) base s.disk)
    (h : Work (jobsOf p base) s done (job :: rest) kind) (htouches : Touches s.disk disk job) :
    Inv p base (failJob { s with disk } kind done rest).2 := by
  have hbacked := work_backed h
  have hshape' : Shape (jobsOf p base) base disk := shape_touches hfine hshape h htouches
  have hsafe : Safe (jobsOf p base) { s with disk } := safe_of_backed hbacked
  cases kind with
  | publish =>
    refine inv_abort hshape' hsafe h.1 (fun j hj => ?_) fun _ => hbacked
    rw [← h.2.2.2.1]
    exact List.mem_append_left _ hj
  | rollback =>
    obtain ⟨hpending, hrestoring, hbacked'⟩ := h
    exact ⟨hshape', safe_of_backed hbacked, ⟨hpending, fun j hj => hrestoring j (List.mem_cons_of_mem _ hj), fun _ => hbacked⟩,
      fun t ht => by cases ht⟩
  | recover caller =>
    refine ⟨hshape', safe_of_backed hbacked, ?_⟩
    cases caller <;> simp [failJob, go, Stage, Marks, Caller.failureStatus]

lemma inv_finishJob (hfine : Fine (jobsOf p base) base) (hshape : Shape (jobsOf p base) base s.disk)
    (h : Work (jobsOf p base) s done (job :: rest) kind) (hwritten : Written s.disk disk job.path job.content) :
    Inv p base (finishJob { s with disk } kind done job rest).2 := by
  obtain ⟨i, hi, hpath, hcontent⟩ := work_job h
  have hwritten' : Written s.disk disk i.path job.content := hpath ▸ hwritten
  obtain ⟨hshape', hsame⟩ := hshape.written hfine hi hwritten' hcontent
  have hbacked := work_backed h
  have hdone : Work (jobsOf p base) { s with disk, phase := .working kind (done ++ [job]) rest none } (done ++ [job]) rest kind :=
    work_written hfine h hwritten.1 fun i' hi' hne => hsame i' hi' (by rwa [← hpath])
  exact ⟨hshape', safe_of_backed hbacked, hdone, fun t ht => by cases ht⟩

lemma inv_quiet (hfine : Fine (jobsOf p base) base) (hshape : Shape (jobsOf p base) base s.disk)
    (h : Work (jobsOf p base) s done (job :: rest) kind) (hquiet : Quiet s.disk disk job.path)
    (htemp : Waits (job :: rest) temp) :
    Inv p base { s with disk, phase := .working kind done (job :: rest) temp } := by
  obtain ⟨i, hi, hpath, -⟩ := work_job h
  obtain ⟨hshape', hsame⟩ := hshape.quiet hfine hi (hpath ▸ hquiet)
  have hbacked := work_backed h
  exact ⟨hshape', safe_of_backed hbacked, work_same h hsame, htemp⟩

lemma job_ne_nil (hfine : Fine jobs base) (h : Work jobs s done (job :: rest) kind) : job.path ≠ [] := by
  obtain ⟨i, hi, hpath, -⟩ := work_job h
  rw [hpath]
  exact isSafe_ne_nil (hfine.safe i hi)

lemma written_nothing (hnode : node disk job.path = none) (hcontent : job.content = none) :
    Written disk disk job.path job.content := ⟨by rw [hnode, hcontent]; rfl, fun _ _ _ => .inl rfl⟩

lemma tempPath_ne_nil (path : Path) (random : String) : tempPath path random ≠ [] := by simp [tempPath]

lemma inv_startJob (hfine : Fine (jobsOf p base) base) (h : Inv p base s) (hphase : s.phase = .working kind done (job :: rest) none)
    (random : String) : Inv p base (startJob s kind done job rest random).2 := by
  have hwork : Work (jobsOf p base) s done (job :: rest) kind := by
    have hstage := h.stage
    rw [hphase] at hstage
    exact hstage.1
  have hne := job_ne_nil hfine hwork
  unfold startJob
  split
  · rename_i hcontent
    split
    · exact inv_finishJob hfine h.shape hwork (hcontent ▸ written_delete hne)
    · exact inv_failJob hfine h.shape hwork (.inl (.refl _ _))
    · rename_i hnode
      split
      · exact inv_failJob hfine h.shape hwork (.inl (.refl _ _))
      · exact inv_finishJob hfine h.shape hwork (written_nothing hnode hcontent)
  · rename_i content hcontent
    split
    · rename_i dir hdir
      split
      · exact inv_failJob hfine h.shape hwork (.inl (.refl _ _))
      · rename_i hnone
        have hquiet := quiet_directory hdir (by simpa using hnone) hne
        have hinv := @inv_quiet p s base done rest job kind none _ hfine h.shape hwork hquiet fun t ht => by cases ht
        rwa [← hphase] at hinv
    · dsimp only
      split
      · exact h
      · rename_i hnone
        refine inv_quiet hfine h.shape hwork (quiet_temp (by simpa using hnone) (tempPath_hidden _ _)) fun t ht => ?_
        obtain rfl := Option.some.inj ht
        refine ⟨tempPath_ne_nil _ _, tempPath_hidden _ _, fun job' hjob' => ?_⟩
        obtain rfl := Option.some.inj hjob'
        simp [hcontent]

lemma inv_placeJob (hfine : Fine (jobsOf p base) base) (h : Inv p base s) {t : Path}
    (hphase : s.phase = .working kind done (job :: rest) (some t)) : Inv p base (placeJob s kind done job rest t).2 := by
  have hstage := h.stage
  rw [hphase] at hstage
  obtain ⟨hwork, htemp⟩ := hstage
  obtain ⟨hnil, hhidden, hsome⟩ := htemp t rfl
  unfold placeJob
  split
  · exact inv_failJob hfine h.shape hwork (.inl (quiet_delete hnil hhidden))
  · refine inv_finishJob hfine h.shape hwork ?_
    obtain ⟨content, hcontent⟩ := Option.isSome_iff_exists.mp (hsome job rfl)
    rw [hcontent]
    exact written_place content (job_ne_nil hfine hwork) hnil hhidden

lemma touches_leave (hne : job.path ≠ []) (htemp : Waits (job :: rest) temp) (left : Left) :
    Touches disk (leave disk job temp left) job := by
  cases left with
  | nothing =>
    cases temp with
    | none => exact .inl (.refl _ _)
    | some t => exact .inl (quiet_delete (htemp t rfl).1 (htemp t rfl).2.1)
  | temp => exact .inl (.refl _ _)
  | effect =>
    unfold leave
    cases hcontent : job.content with
    | none =>
      simp only
      split
      · exact .inl (.refl _ _)
      · exact .inr (by rw [hcontent]; exact written_delete hne)
    | some content =>
      cases temp with
      | none => exact .inl (.refl _ _)
      | some t =>
        simp only
        split
        · exact .inl (.refl _ _)
        · exact .inr (by rw [hcontent]; exact written_place content hne (htemp t rfl).1 (htemp t rfl).2.1)

end Jobs

lemma backed_next {jobs rest : List Job} {job : Job} {rows : List (Path × Bytes)} (hpaths : (jobs.map Job.path).Nodup) (hjob : job ∈ jobs)
    (hrows : ∀ j ∈ jobs, ∀ content, j.original = some content → j ∈ job :: rest ∨ lookup Prod.fst rows j.path = some (j.path, content)) :
    ∀ j ∈ jobs, ∀ content, j.original = some content →
      j ∈ rest ∨ lookup Prod.fst (replaceRow Prod.fst (job.path, job.original.getD []) rows) j.path = some (j.path, content) := by
  intro j hj content hcontent
  rw [lookup_replaceRow]
  by_cases hsame : j.path = job.path
  · obtain rfl : j = job := List.inj_on_of_nodup_map hpaths hj hjob hsame
    exact .inr (by simp [hcontent])
  · rw [if_neg hsame]
    refine (hrows j hj content hcontent).imp_left fun hmem => ?_
    exact (List.mem_cons.mp hmem).resolve_left fun heq => hsame (by rw [heq])

section Steps
variable (hprepared : Prepared p base) (hwritable : Writable p base)
include hprepared hwritable

omit hwritable in
lemma inv_recover (hshape : Shape (jobsOf p base) base s.disk) (hsafe : Safe (jobsOf p base) s) (hjournal : s.journal = true)
    (caller : Caller) : Inv p base (recover p s caller).2 := by
  unfold recover
  split
  · rename_i happlied
    refine ⟨hshape, hsafe, hjournal, fun hpending => ?_⟩
    cases happlied.symm.trans hpending
  · obtain ⟨found, hfound, hrestores⟩ := recoveryJobs hprepared hshape (hsafe.2 hjournal)
    obtain ⟨hjobs, hcovers⟩ := restores_jobs hrestores
    simp only [hfound]
    refine ⟨hshape, hsafe, ⟨hjournal, fun job hjob => ?_, fun i hi => ?_, fun hne => ?_⟩, fun t ht => by cases ht⟩
    · obtain ⟨item, hitem, hpath, hcontent, -⟩ := hjobs job hjob
      exact ⟨_, List.mem_map_of_mem hitem, hpath, hcontent⟩
    · obtain ⟨item, hitem, rfl⟩ := List.mem_map.mp hi
      exact hcovers item hitem
    · obtain ⟨job, hjob⟩ := List.exists_mem_of_ne_nil _ hne
      obtain ⟨item, hitem, -, -, hnot⟩ := hjobs job hjob
      exact (hsafe.2 hjournal).resolve_left fun horiginal => hnot (horiginal _ (List.mem_map_of_mem hitem))

omit hprepared hwritable in
lemma inv_resume (hshape : Shape (jobsOf p base) base s.disk) (hsafe : Safe (jobsOf p base) s) (hsteady : Steady s)
    (caller : Caller) : Inv p base (resume s caller).2 := by
  cases caller <;> exact ⟨hshape, hsafe, hsteady⟩

omit hwritable in
lemma inv_marked (hshape : Shape (jobsOf p base) base s.disk) (hsafe : Safe (jobsOf p base) s) {status : Status} {after : After}
    (hmarks : Marks (jobsOf p base) s status after) : Inv p base (marked p { s with stored := status } after).2 := by
  have hother : status ≠ .pending → Safe (jobsOf p base) { s with stored := status } := fun hne =>
    ⟨fun _ hpending => absurd hpending hne, hsafe.2⟩
  cases after with
  | raise problem =>
    exact ⟨hshape, hother hmarks, fun hpending => absurd hpending hmarks, fun hpending => absurd hpending hmarks⟩
  | recovery =>
    obtain rfl : status = .failed := hmarks
    have hsafe' := hother (by decide)
    simp only [marked]
    split
    · rename_i hjournal
      exact @inv_recover p { s with stored := .failed } base hprepared hshape hsafe' hjournal _
    · exact ⟨hshape, hsafe', fun hpending => (by cases hpending), fun hpending => (by cases hpending)⟩
  | clear caller =>
    obtain ⟨horiginal, hjournal⟩ := hmarks
    exact ⟨hshape, ⟨fun _ _ => horiginal, fun _ => .inl horiginal⟩, horiginal, hjournal⟩
  | close =>
    obtain ⟨rfl, hjournal⟩ := hmarks
    exact ⟨hshape, ⟨fun _ hpending => (by cases hpending), hsafe.2⟩, rfl, hjournal⟩
  | resume caller =>
    have hsteady : Steady { s with stored := status } :=
      ⟨fun hpending => absurd hpending hmarks, fun hpending => absurd hpending hmarks⟩
    exact @inv_resume p { s with stored := status } base hshape (hother hmarks) hsteady caller

lemma inv_next (h : Inv p base s) (hlimit : entries s.disk ≤ maxEntries) (random : String) : Inv p base (next p s random).2 := by
  have hfine := fine_jobsOf hprepared hwritable
  have hshape := h.shape
  have hsafe := h.safe
  have hstage := h.stage
  unfold next
  cases hphase : s.phase with
  | down => exact h
  | idle => exact h
  | checking =>
    rw [hphase] at hstage
    simp only
    split
    · exact ⟨hshape, hsafe, hstage⟩
    · rename_i hpending
      have hpending : s.stored = .pending := by simpa using hpending
      have hjournal := hstage.2 hpending
      rw [check_ok hprepared hwritable hshape (hsafe.1 hjournal hpending) hlimit]
      exact ⟨hshape, hsafe, rfl, hpending, hjournal, hstage.1 hpending hjournal⟩
  | makingUndo jobs =>
    rw [hphase] at hstage
    obtain ⟨rfl, hpending, hjournal, hundo⟩ := hstage
    simp only [hundo, Option.isSome_none, Bool.false_eq_true, if_false]
    refine ⟨hshape, ⟨hsafe.1, fun hj => ?_⟩, rfl, hpending, hjournal, fun j hj => (List.mem_filter.mp hj).1, [], rfl,
      fun j hj content hcontent => .inl ?_⟩
    · cases hjournal.symm.trans hj
    · exact List.mem_filter.mpr ⟨hj, by simp [hcontent]⟩
  | backingUp rest jobs =>
    rw [hphase] at hstage
    obtain ⟨rfl, hpending, hjournal, hrest, rows, hundo, hrows⟩ := hstage
    have hnone : s.journal = true → False := fun hj => by cases hjournal.symm.trans hj
    cases rest with
    | nil =>
      refine ⟨hshape, ⟨hsafe.1, fun hj => (hnone hj).elim⟩, rfl, hpending, hjournal, rows, hundo, fun j hj content hcontent => ?_⟩
      exact (hrows j hj content hcontent).resolve_left List.not_mem_nil
    | cons job rest =>
      refine ⟨hshape, ⟨hsafe.1, fun hj => (hnone hj).elim⟩, rfl, hpending, hjournal,
        fun j hj => hrest j (List.mem_cons_of_mem _ hj), replaceRow Prod.fst (job.path, job.original.getD []) rows, ?_, ?_⟩
      · simp [go, hundo]
      · exact backed_next hfine.paths (hrest job (List.mem_cons_self ..)) hrows
  | journaling jobs =>
    rw [hphase] at hstage
    obtain ⟨rfl, hpending, hjournal, hbacked⟩ := hstage
    simp only [hjournal, Bool.false_eq_true, if_false]
    exact ⟨hshape, safe_of_backed ⟨rfl, hbacked⟩, ⟨hpending, rfl, hbacked, rfl, fun j hj => (by cases hj), hsafe.1 hjournal hpending⟩,
      fun t ht => by cases ht⟩
  | working kind done rest temp =>
    cases rest with
    | nil =>
      rw [hphase] at hstage
      obtain ⟨hwork, -⟩ := hstage
      cases kind with
      | publish => exact ⟨hshape, hsafe, rfl, hwork.2.1⟩
      | rollback => exact ⟨hshape, hsafe, rfl⟩
      | recover caller =>
        refine ⟨hshape, hsafe, fun i hi => (hwork.2.2.1 i hi).resolve_right ?_, hwork.1⟩
        rintro ⟨job, hjob, -⟩
        cases hjob
    | cons job rest =>
      cases temp with
      | none => exact inv_startJob hfine h hphase random
      | some t => exact inv_placeJob hfine h hphase
  | marking status after =>
    rw [hphase] at hstage
    exact inv_marked hprepared hshape hsafe hstage
  | clearing caller =>
    rw [hphase] at hstage
    obtain ⟨horiginal, hjournal⟩ := hstage
    have hsafe' : ∀ s' : State, s'.disk = s.disk → Safe (jobsOf p base) s' := fun s' hdisk =>
      ⟨fun _ _ => by rwa [hdisk], fun _ => .inl (by rwa [hdisk])⟩
    simp only
    split
    · rename_i hundo
      exact ⟨hshape, hsafe' _ rfl, hjournal, fun _ => ⟨hundo, horiginal⟩⟩
    · exact ⟨hshape, hsafe' _ rfl, horiginal, hjournal⟩
    · exact ⟨hshape, hsafe' _ rfl, horiginal, hjournal⟩
  | closing caller =>
    rw [hphase] at hstage
    cases caller with
    | none =>
      obtain ⟨happlied, hjournal⟩ := hstage
      have hnot : s.stored = .pending → False := fun hpending => by cases happlied.symm.trans hpending
      exact ⟨hshape, ⟨fun _ hpending => (hnot hpending).elim, fun hj => by cases hj⟩, fun hpending => (hnot hpending).elim, fun _ => rfl⟩
    | some caller =>
      obtain ⟨hjournal, hclosed⟩ := hstage
      have hsafe' : Safe (jobsOf p base) { s with journal := false } := ⟨fun _ hpending => (hclosed hpending).2, fun hj => by cases hj⟩
      exact @inv_resume p { s with journal := false } base hshape hsafe' ⟨fun hpending _ => (hclosed hpending).1, fun _ => rfl⟩ caller

lemma inv_fault (h : Inv p base s) (left : Left) : Inv p base (fault s left).2 := by
  have hfine := fine_jobsOf hprepared hwritable
  have hshape := h.shape
  have hsafe := h.safe
  have hstage := h.stage
  unfold fault
  cases hphase : s.phase with
  | down => exact h
  | idle => exact h
  | checking =>
    rw [hphase] at hstage
    exact ⟨hshape, hsafe, hstage⟩
  | makingUndo jobs =>
    rw [hphase] at hstage
    exact inv_abort hshape hsafe hstage.2.1 (fun j hj => by cases hj) fun hne => absurd rfl hne
  | backingUp rest jobs =>
    rw [hphase] at hstage
    exact inv_abort hshape hsafe hstage.2.1 (fun j hj => by cases hj) fun hne => absurd rfl hne
  | journaling jobs =>
    rw [hphase] at hstage
    exact inv_abort hshape hsafe hstage.2.1 (fun j hj => by cases hj) fun hne => absurd rfl hne
  | working kind done rest temp =>
    cases rest with
    | nil => exact h
    | cons job rest =>
      rw [hphase] at hstage
      obtain ⟨hwork, hwaits⟩ := hstage
      exact inv_failJob hfine hshape hwork (touches_leave (job_ne_nil hfine hwork) hwaits left)
  | marking status after => exact h
  | clearing caller =>
    refine ⟨hshape, hsafe, ?_⟩
    cases caller <;> simp [go, Stage, Marks, Caller.failureStatus]
  | closing caller =>
    rw [hphase] at hstage
    cases caller with
    | none =>
      obtain ⟨happlied, hjournal⟩ := hstage
      have hnot : s.stored = .pending → False := fun hpending => by cases happlied.symm.trans hpending
      exact ⟨hshape, ⟨fun _ hpending => (hnot hpending).elim, fun _ => hsafe.2 hjournal⟩,
        fun hpending => (hnot hpending).elim, fun hpending => (hnot hpending).elim⟩
    | some caller =>
      obtain ⟨hjournal, hclosed⟩ := hstage
      refine ⟨hshape, ⟨fun _ hpending => (hclosed hpending).2, fun _ => hsafe.2 hjournal⟩, ?_⟩
      cases caller <;> simp [go, Stage, Marks, Caller.failureStatus]

lemma inv_step (h : Inv p base s) (hlimit : entries s.disk ≤ maxEntries) (a : Action) (hclean : Clean (entry (step p) s a)) :
    Inv p base (step p s a).2 := by
  cases a with
  | apply =>
    simp only [step]
    split
    · rename_i hidle
      have hstage := h.stage
      split
      · rename_i hjournal
        exact inv_recover hprepared h.shape h.safe hjournal _
      · refine ⟨h.shape, h.safe, ?_⟩
        cases hphase : s.phase <;> simp only [hphase, isIdle, Bool.false_eq_true] at hidle
        rw [hphase] at hstage
        exact hstage
    · exact h
  | next random => exact inv_next hprepared hwritable h hlimit random
  | fault left => exact inv_fault hprepared hwritable h left
  | crash =>
    simp only [step]
    split
    · exact h
    · refine ⟨h.shape, h.safe, fun hpending hjournal => ?_⟩
      cases hundo : s.undo with
      | none => simpa [go] using hundo
      | some rows => exact absurd ⟨by simp [hundo], hjournal, hpending⟩ hclean.2
  | restart =>
    simp only [step]
    split
    · rename_i hdown
      split
      · rename_i hjournal
        exact inv_recover hprepared h.shape h.safe hjournal _
      · rename_i hjournal
        have hstage := h.stage
        refine ⟨h.shape, h.safe, ?_, fun _ => by simpa [go] using hjournal⟩
        cases hphase : s.phase <;> simp only [hphase, isDown, Bool.false_eq_true] at hdown
        rw [hphase] at hstage
        exact hstage
    · exact h

lemma inv_final (actions : List Action) (hclean : ∀ e ∈ trace (step p) (.initial base none) actions, Clean e) :
    Inv p base (final (step p) (.initial base none) actions) ∧ entries (final (step p) (.initial base none) actions).disk ≤ maxEntries := by
  have hfine := fine_jobsOf hprepared hwritable
  refine (@invariant_of _ _ _ (step p) (fun s => Inv p base s ∧ entries s.disk ≤ maxEntries) Clean
    (fun s a h ha => ⟨inv_step hprepared hwritable h.1 h.2 a ha, ha.1⟩) _ actions ⟨?_, hprepared.limit⟩ hclean).2
  refine ⟨fine_shape hfine, ⟨fun _ _ => hfine.before, fun hj => by cases hj⟩, fun _ _ => rfl, fun _ => rfl⟩

end Steps

def Leads (p : Setting) (s s' : State) : Prop := ∃ randoms : List String, final (step p) s (randoms.map .next) = s'

lemma Leads.refl (s : State) : Leads p s s := ⟨[], rfl⟩

lemma Leads.trans {s'' : State} (h : Leads p s s') (h' : Leads p s' s'') : Leads p s s'' := by
  obtain ⟨randoms, rfl⟩ := h
  obtain ⟨randoms', rfl⟩ := h'
  exact ⟨randoms ++ randoms', by rw [List.map_append, final_append]⟩

lemma leads_next (random : String) (h : (next p s random).2 = s') : Leads p s s' := ⟨[random], h⟩

lemma exists_free (disk : Disk) (path : Path) : ∃ random, node disk (tempPath path random) = none := by
  have hinj : Function.Injective (tempPath path) := by
    intro a b h
    have hlast := List.append_cancel_left h
    simpa using hlast
  obtain ⟨random, hfree⟩ := Infinite.exists_notMem_finset ((disk.map Prod.fst).toFinset.preimage (tempPath path) hinj.injOn)
  refine ⟨random, ?_⟩
  rw [node_of_ne (tempPath_ne_nil _ _), lookup_eq_none.mpr, Option.map_none]
  intro row hrow hkey
  exact hfree (Finset.mem_preimage.mpr (List.mem_toFinset.mpr (hkey ▸ List.mem_map_of_mem hrow)))

section Publication
variable {done rest : List Job} {job : Job}

lemma leads_directories {content : Bytes} (hcontent : job.content = some content) (hne : job.path ≠ []) {made above : List Path}
    (hall : job.path.dropLast.inits = made ++ above) (hphase : s.phase = .working .publish done (job :: rest) none)
    (hmade : ∀ dir ∈ made, node s.disk dir = some .directory)
    (habove : ∀ dir ∈ above, node s.disk dir = none ∨ node s.disk dir = some .directory) :
    ∃ disk, Leads p s { s with disk } ∧ Quiet s.disk disk job.path ∧ ∀ dir ∈ job.path.dropLast.inits, node disk dir = some .directory := by
  induction above generalizing s made with
  | nil =>
    refine ⟨s.disk, .refl s, .refl _ _, fun dir hdir => hmade dir ?_⟩
    simpa [hall] using hdir
  | cons dir above ih =>
    have hsplit : job.path.dropLast.inits = (made ++ [dir]) ++ above := by rw [hall, List.append_assoc, List.singleton_append]
    rcases habove dir (List.mem_cons_self ..) with hnone | hdir
    · -- the directory is the first that is missing
      have hmissing : missing s.disk job.path = some dir := by
        unfold missing
        rw [hall, List.find?_append, List.find?_eq_none.mpr (by simpa using hmade), Option.none_or, List.find?_cons_of_pos]
        simp [hnone]
      have hnext : (next p s "").2 = { s with disk := s.disk ++ [(dir, .directory)] } := by
        simp [next, hphase, startJob, hcontent, hmissing, hnone]
      have hnode : ∀ q, node (s.disk ++ [(dir, .directory)]) q = if q = dir then some .directory else node s.disk q :=
        fun q => node_append hnone
      obtain ⟨disk, hleads, hquiet, hdirs⟩ := @ih { s with disk := s.disk ++ [(dir, .directory)] } (made ++ [dir]) hsplit hphase
        (fun d hd => by
          rw [hnode]
          split
          · rfl
          · rename_i hnot
            exact hmade d ((List.mem_append.mp hd).resolve_right fun h => hnot (List.mem_singleton.mp h)))
        (fun d hd => by
          rw [hnode]
          split
          · exact .inr rfl
          · exact habove d (List.mem_cons_of_mem _ hd))
      exact ⟨disk, (leads_next "" hnext).trans hleads, (quiet_directory hmissing hnone hne).trans hquiet, hdirs⟩
    · exact ih hsplit hphase
        (fun d hd => (List.mem_append.mp hd).elim (hmade d) fun h => by rwa [List.mem_singleton.mp h])
        (fun d hd => habove d (List.mem_cons_of_mem _ hd))

lemma missing_none {disk : Disk} {path : Path} (h : ∀ dir ∈ path.dropLast.inits, node disk dir = some .directory) :
    missing disk path = none := by
  unfold missing
  rw [List.find?_eq_none]
  simpa using h

lemma leads_job (hfine : Fine jobs base) (hshape : Shape jobs base s.disk) (hjob : job ∈ jobs)
    (hphase : s.phase = .working .publish done (job :: rest) none) (hnode : node s.disk job.path = job.original.map .file)
    (hchange : job.content = none → job.original ≠ none) :
    ∃ disk, Leads p s { s with disk, phase := .working .publish (done ++ [job]) rest none } ∧
      Written s.disk disk job.path job.content := by
  have hsafe := hfine.safe job hjob
  have hne := isSafe_ne_nil hsafe
  cases hcontent : job.content with
  | none =>
    obtain ⟨content, horiginal⟩ := Option.ne_none_iff_exists'.mp (hchange hcontent)
    rw [horiginal] at hnode
    refine ⟨_, leads_next "" ?_, written_delete hne⟩
    simp [next, hphase, startJob, hcontent, hnode, finishJob, go]
  | some content =>
    have habove : ∀ dir ∈ job.path.dropLast.inits, node s.disk dir = none ∨ node s.disk dir = some .directory := by
      intro dir hdir
      obtain ⟨hbelow, hdirne⟩ := (mem_above hne).mp hdir
      exact hshape.above hfine hjob hbelow hdirne
    obtain ⟨disk, hleads, hquiet, hdirs⟩ := @leads_directories p s done rest job content hcontent hne [] _ rfl hphase
      (fun dir hdir => by cases hdir) habove
    obtain ⟨random, hfree⟩ := exists_free disk job.path
    have htarget : node (disk ++ [(tempPath job.path random, .file content)]) job.path ≠ some .directory := by
      have hsame := (hquiet.trans (quiet_temp (n := .file content) hfree (tempPath_hidden _ _))).same hsafe
      rw [hsame]
      exact hshape.not_directory hjob
    have hopened : (next p { s with disk } random).2 = { s with
        disk := disk ++ [(tempPath job.path random, .file content)]
        phase := .working .publish done (job :: rest) (some (tempPath job.path random)) } := by
      simp [next, hphase, startJob, hcontent, missing_none hdirs, hfree]
    have hplaced : (next p { s with
        disk := disk ++ [(tempPath job.path random, .file content)]
        phase := .working .publish done (job :: rest) (some (tempPath job.path random)) } random).2 = { s with
        disk := replaceRow Prod.fst (job.path, .file content)
          (deleteRow Prod.fst (tempPath job.path random) (disk ++ [(tempPath job.path random, .file content)]))
        phase := .working .publish (done ++ [job]) rest none } := by
      simp [next, placeJob, htarget, finishJob, go, hcontent]
    refine ⟨_, (hleads.trans (leads_next random hopened)).trans (leads_next random hplaced), ?_⟩
    exact (hquiet.trans (quiet_temp hfree (tempPath_hidden _ _))).written
      (written_place content hne (tempPath_ne_nil _ _) (tempPath_hidden _ _))

lemma leads_jobs (hfine : Fine jobs base) (hshape : Shape jobs base s.disk) (hall : done ++ rest = jobs)
    (hphase : s.phase = .working .publish done rest none) (hdone : ∀ j ∈ done, node s.disk j.path = j.content.map .file)
    (hrest : ∀ j ∈ rest, node s.disk j.path = j.original.map .file) (hchange : ∀ j ∈ jobs, j.content = none → j.original ≠ none) :
    ∃ disk, Leads p s { s with disk, phase := .working .publish jobs [] none } ∧ ∀ j ∈ jobs, node disk j.path = j.content.map .file := by
  induction rest generalizing s done with
  | nil =>
    rw [List.append_nil] at hall
    subst hall
    refine ⟨s.disk, ?_, hdone⟩
    rw [← hphase]
    exact .refl s
  | cons job rest ih =>
    have hmem : job ∈ jobs := hall ▸ List.mem_append_right _ (List.mem_cons_self ..)
    obtain ⟨disk, hleads, hwritten⟩ := @leads_job p s base jobs done rest job hfine hshape hmem hphase
      (hrest job (List.mem_cons_self ..)) (hchange job hmem)
    obtain ⟨hshape', hsame⟩ := hshape.written hfine hmem hwritten (.inr rfl)
    have hpaths := hfine.paths
    rw [← hall] at hpaths
    obtain ⟨hbefore, hafter⟩ := apart_of_split hpaths
    have hall' : (done ++ [job]) ++ rest = jobs := by rw [List.append_assoc, List.singleton_append, hall]
    obtain ⟨disk', hleads', hplaced⟩ := @ih { s with disk, phase := .working .publish (done ++ [job]) rest none } (done ++ [job]) hshape' hall'
      rfl (fun j hj => by
        rcases mem_concat.1 hj with hj | rfl
        · exact (hsame j (hall ▸ List.mem_append_left _ hj) (hbefore j hj)).trans (hdone j hj)
        · exact hwritten.1)
      (fun j hj => (hsame j (hall ▸ List.mem_append_right _ (List.mem_cons_of_mem _ hj)) (hafter j hj)).trans
        (hrest j (List.mem_cons_of_mem _ hj)))
    exact ⟨disk', hleads.trans hleads', hplaced⟩

lemma leads_backups (rest jobs : List Job) {rows : List (Path × Bytes)} (hphase : s.phase = .backingUp rest jobs)
    (hundo : s.undo = some rows) : ∃ undo, Leads p s { s with undo, phase := .journaling jobs } := by
  induction rest generalizing s rows with
  | nil =>
    refine ⟨s.undo, leads_next "" ?_⟩
    simp [next, hphase, go]
  | cons job rest ih =>
    obtain ⟨undo, hleads⟩ := @ih { s with
      undo := some (replaceRow Prod.fst (job.path, job.original.getD []) rows), phase := .backingUp rest jobs } _ rfl rfl
    refine ⟨undo, (leads_next "" ?_).trans hleads⟩
    simp [next, hphase, go, hundo]

end Publication

lemma succeeds_of_inv (hprepared : Prepared p base) (hwritable : Writable p base) (h : Inv p base s) (hlimit : entries s.disk ≤ maxEntries)
    (hidle : isIdle s.phase = true) (hpending : s.stored = .pending) : Succeeds p s := by
  have hfine := fine_jobsOf hprepared hwritable
  have hphase : s.phase = .idle := by
    cases hphase : s.phase <;> simp [hphase, isIdle] at hidle
    rfl
  have hstage := h.stage
  rw [hphase] at hstage
  obtain ⟨hfresh, hnojournal⟩ := hstage
  have hjournal := hnojournal hpending
  have hundo := hfresh hpending hjournal
  have horiginal := h.safe.1 hjournal hpending
  have hchecked : (step p s .apply).2 = { s with phase := .checking } := by simp [step, hidle, hjournal, go]
  have hready : Leads p { s with phase := .checking } { s with phase := .makingUndo (jobsOf p base) } := by
    refine leads_next "" ?_
    simp [next, hpending, check_ok hprepared hwritable h.shape horiginal hlimit, go]
  have hmade : Leads p { s with phase := .makingUndo (jobsOf p base) } { s with
      undo := some [], phase := .backingUp ((jobsOf p base).filter fun job => job.original.isSome) (jobsOf p base) } := by
    refine leads_next "" ?_
    simp [next, hundo, go]
  obtain ⟨undo, hbacked⟩ := @leads_backups p { s with
      undo := some [], phase := .backingUp ((jobsOf p base).filter fun job => job.original.isSome) (jobsOf p base) } _ _ _ rfl rfl
  have hjournaled : Leads p { s with undo, phase := .journaling (jobsOf p base) }
      { s with undo, journal := true, phase := .working .publish [] (jobsOf p base) none } := by
    refine leads_next "" ?_
    simp [next, hjournal, go]
  have hchange : ∀ j ∈ jobsOf p base, j.content = none → j.original ≠ none := by
    intro j hj
    obtain ⟨item, hitem, rfl⟩ := List.mem_map.mp hj
    obtain ⟨hnew, hprevious, hne⟩ := hashes_of (hprepared.files item hitem).2
    intro hcontent hnone
    refine hne ?_
    rw [hnew, hprevious]
    simp only [jobOf] at hcontent hnone
    rw [hcontent, hnone]
  obtain ⟨disk, hpublished, hplaced⟩ := @leads_jobs p { s with undo, journal := true, phase := .working .publish [] (jobsOf p base) none } base
    (jobsOf p base) [] (jobsOf p base) hfine h.shape rfl rfl (fun j hj => by cases hj) horiginal hchange
  have hmarked : Leads p { s with disk, undo, journal := true, phase := .working .publish (jobsOf p base) [] none }
      { s with disk, undo, journal := true, phase := .marking .applied .close } := leads_next "" rfl
  have hclosing : Leads p { s with disk, undo, journal := true, phase := .marking .applied .close }
      { s with disk, undo, journal := true, stored := .applied, phase := .closing none } := leads_next "" rfl
  have hclosed : Leads p { s with disk, undo, journal := true, stored := .applied, phase := .closing none }
      { s with disk, undo, journal := false, stored := .applied, phase := .idle } := leads_next "" rfl
  obtain ⟨randoms, hfinal⟩ :=
    ((((((hready.trans hmade).trans hbacked).trans hjournaled).trans hpublished).trans hmarked).trans hclosing).trans hclosed
  refine ⟨randoms, ?_⟩
  rw [final_cons, hchecked, hfinal]
  refine ⟨rfl, rfl, fun item hitem => ?_⟩
  have hnode := hplaced _ (List.mem_map_of_mem hitem)
  simp only [jobOf] at hnode
  rw [hnode]
  cases contentOf (p.stage item.path) <;> rfl

/-- A change set that is pending after crashes and recoveries is applied by a fresh `apply`, if no
    process stopped between the making of `__undo__` and the journal. -/
theorem stays_applicable (p : Setting) (disk : Disk) (hprepared : Prepared p disk) (hwritable : Writable p disk) (actions : List Action)
    (hclean : ∀ e ∈ trace (step p) (.initial disk none) actions, Clean e)
    (hidle : isIdle (final (step p) (.initial disk none) actions).phase = true)
    (hpending : (final (step p) (.initial disk none) actions).stored = .pending) :
    Succeeds p (final (step p) (.initial disk none) actions) := by
  obtain ⟨hinv, hlimit⟩ := inv_final hprepared hwritable actions hclean
  exact succeeds_of_inv hprepared hwritable hinv hlimit hidle hpending

/-- An empty file is added to an empty workspace. -/
def exampleSetting : Setting where
  changedFiles := [⟨["main.cpp"], .created, none, some "e3b0c44298fc1c149afbf4c8996fb92427ae41e4649b934ca495991b7852b855"⟩]
  baseWorkspaceHash := "e3b0c44298fc1c149afbf4c8996fb92427ae41e4649b934ca495991b7852b855"
  stagedManifestHash := "638ba1605db7b57dc437a6b7ffdead6b90c976dfa9bf168a8c6ece5bca7f7b87"
  stage := fun path => if path = [] then some .directory else if path = ["main.cpp"] then some (.file []) else none
  hash := fun _ => "e3b0c44298fc1c149afbf4c8996fb92427ae41e4649b934ca495991b7852b855"
  treeHash := fun _ => "e3b0c44298fc1c149afbf4c8996fb92427ae41e4649b934ca495991b7852b855"
  manifestHash := fun _ => "638ba1605db7b57dc437a6b7ffdead6b90c976dfa9bf168a8c6ece5bca7f7b87"

lemma isTree_empty : IsTree (node []) := by
  intro path above _ _ hsome
  by_cases hnil : path = []
  · subst hnil
    simp_all
  · simp [node, hnil] at hsome

lemma exampleSetting_prepared : Prepared exampleSetting [] where
  workspace := isTree_empty
  stage := by
    intro path above habove hne hsome
    simp only [exampleSetting] at hsome ⊢
    split at hsome
    · rename_i hnil
      subst hnil
      exact absurd (List.prefix_nil.mp habove) hne
    · split at hsome
      · rename_i hmain
        subst hmain
        rcases List.prefix_cons_iff.mp habove with rfl | ⟨rest, rfl, hrest⟩
        · rfl
        · exact absurd (by rw [List.prefix_nil.mp hrest]) hne
      · exact absurd rfl hsome
  limit := Nat.zero_le _
  tree := rfl
  manifest := fun _ _ => rfl
  files := by
    intro item hitem
    obtain rfl := List.mem_singleton.mp hitem
    exact ⟨by decide, [], rfl, rfl, rfl, rfl⟩
  paths := List.nodup_singleton _

lemma exampleSetting_writable : Writable exampleSetting [] where
  outsideUndo := by
    intro item hitem
    obtain rfl := List.mem_singleton.mp hitem
    decide
  noDirectory := by
    intro item hitem
    obtain rfl := List.mem_singleton.mp hitem
    decide
  belowDirectories := by
    intro item _ above _ _
    by_cases hnil : above = [] <;> simp [node, hnil, contentOf]

def stoppedMidway : List Action :=
  [.apply, .next "", .next "", .next "", .next "", .next "a", .crash, .restart, .next "", .next "", .next "", .next "", .next ""]

theorem stoppedMidway_succeeds : Succeeds exampleSetting (final (step exampleSetting) (.initial [] none) stoppedMidway) := by
  refine stays_applicable exampleSetting [] exampleSetting_prepared exampleSetting_writable stoppedMidway (fun e he => ?_) rfl rfl
  simp only [stoppedMidway, trace_cons, trace_nil, List.mem_cons, List.not_mem_nil, or_false] at he
  rcases he with rfl | rfl | rfl | rfl | rfl | rfl | rfl | rfl | rfl | rfl | rfl | rfl | rfl
  case inr.inr.inr.inr.inr.inr.inl => exact ⟨by decide, fun h => by cases h.2.1⟩
  all_goals exact ⟨by decide, trivial⟩

def stoppedEarly : List Action := [.apply, .next "", .next "", .crash, .restart]

lemma final_idle (h : s.phase = .idle) (randoms : List String) : final (step p) s (randoms.map .next) = s := by
  induction randoms with
  | nil => rfl
  | cons random randoms ih =>
    rw [List.map_cons, final_cons]
    have hsame : (step p s (.next random)).2 = s := by simp [step, next, h]
    rwa [hsame]

theorem stoppedEarly_fails : (final (step exampleSetting) (.initial [] none) stoppedEarly).stored = .pending ∧
    isIdle (final (step exampleSetting) (.initial [] none) stoppedEarly).phase = true ∧
    ¬ Succeeds exampleSetting (final (step exampleSetting) (.initial [] none) stoppedEarly) := by
  refine ⟨rfl, rfl, ?_⟩
  rintro ⟨randoms, hidle, happlied, -⟩
  match randoms with
  | [] => cases hidle
  | [_] => cases hidle
  | [_, _] => cases hidle
  | [_, _, _] => cases hidle
  | a :: b :: c :: d :: randoms =>
    -- the change set is marked failed
    have hfailed : final (step exampleSetting) (final (step exampleSetting) (.initial [] none) stoppedEarly)
        [.apply, .next a, .next b, .next c, .next d] = ⟨[], some [], false, .failed, .idle⟩ := rfl
    have hlast : final (step exampleSetting) (final (step exampleSetting) (.initial [] none) stoppedEarly)
        (.apply :: (a :: b :: c :: d :: randoms).map .next) = ⟨[], some [], false, .failed, .idle⟩ := by
      rw [show (Action.apply :: (a :: b :: c :: d :: randoms).map .next) =
        [.apply, .next a, .next b, .next c, .next d] ++ randoms.map .next from rfl, final_append, hfailed]
      exact final_idle rfl randoms
    rw [hlast] at happlied
    cases happlied

end PromptForge.ChangeSets
