import PromptForge.ChangeSetCreationLaws
import PromptForge.ChangeSetUndoRuns

namespace PromptForge.ChangeSetRoundTrip
open Runs Tables ChangeSets ChangeSetUndo ChangeSetCreation

variable {p : Setting} {base disk disk' : Disk} {s : State} {item : ChangedFile}

structure Checked (p : Setting) (base : Disk) : Prop where
  files : ∀ item ∈ p.changedFiles, isSafe item.path = true ∧ Describes p base item ∧ node base item.path ≠ some .directory
  paths : (p.changedFiles.map ChangedFile.path).Nodup
  stage : IsTree p.stage
  workspace : IsTree (node base)

lemma checkTarget_sound {content : Option Bytes} {job : Job} (h : checkTarget p base item content = .ok job) :
    job = ⟨item.path, content, contentOf (node base item.path)⟩ ∧ node base item.path ≠ some .directory ∧
      item.previousHash = (contentOf (node base item.path)).map p.hash := by
  unfold checkTarget at h
  cases hnode : node base item.path with
  | none =>
    rw [hnode] at h
    simp only at h
    split at h
    · rename_i hprevious
      cases h
      exact ⟨rfl, by simp, by simpa using hprevious⟩
    · cases h
  | some n =>
    rw [hnode] at h
    cases n with
    | directory => cases h
    | file current =>
      simp only at h
      split at h
      · rename_i hprevious
        cases h
        exact ⟨rfl, by simp, by simpa using hprevious⟩
      · cases h

lemma stagedFile_sound {path : Path} {content : Bytes} (h : stagedFile p path = .ok content) : p.stage path = some (.file content) := by
  unfold stagedFile at h
  split at h
  · rename_i hstage
    cases h
    exact hstage
  · cases h
  · cases h

lemma file_of_isSome {n : Option Node} (h : n ≠ some .directory) (hsome : (contentOf n).isSome = true) :
    ∃ content, n = some (.file content) ∧ contentOf n = some content := by
  obtain ⟨content, hcontent⟩ := Option.isSome_iff_exists.mp hsome
  refine ⟨content, ?_, hcontent⟩
  rw [content_of_not_directory h, hcontent]
  rfl

lemma checkFile_sound (hformed : Formed item) {job : Job} (h : checkFile p base item = .ok job) :
    job = jobOf p base item ∧ isSafe item.path = true ∧ Describes p base item ∧ node base item.path ≠ some .directory := by
  unfold checkFile at h
  split at h
  · cases h
  · split at h
    · cases h
    · rename_i hproblem
      have hsafe : isSafe item.path = true := by simp [isSafe, hproblem]
      split at h
      · rename_i hdeleted
        split at h
        · cases h
        · rename_i hstage
          obtain ⟨rfl, hdirectory, hprevious⟩ := checkTarget_sound h
          have hnothing : p.stage item.path = none := by
            cases hfound : p.stage item.path <;> simp [hfound] at hstage ⊢
          simp only [Formed, hdeleted] at hformed
          obtain ⟨before, hnode, hcontent⟩ := file_of_isSome hdirectory (by simpa [hprevious] using hformed.1)
          refine ⟨by simp [jobOf, hnothing], hsafe, ?_, hdirectory⟩
          simp only [Describes, hdeleted]
          exact ⟨hnothing, hformed.2, before, hnode, by rw [hprevious, hcontent]; rfl⟩
      · rename_i hwritten
        split at h
        · cases h
        · rename_i content hstaged
          have hstage := stagedFile_sound hstaged
          split at h
          · rename_i hnew
            obtain ⟨rfl, hdirectory, hprevious⟩ := checkTarget_sound h
            refine ⟨by simp [jobOf, hstage], hsafe, ?_, hdirectory⟩
            unfold Formed at hformed
            unfold Describes
            cases htype : item.changeType with
            | deleted => exact absurd htype hwritten
            | created =>
              simp only [htype] at hformed ⊢
              refine ⟨content, hstage, hnew, hformed.1, ?_⟩
              rw [hformed.1] at hprevious
              simpa using hprevious.symm
            | modified =>
              simp only [htype] at hformed ⊢
              obtain ⟨before, hnode, hcontent⟩ := file_of_isSome hdirectory (by simpa [hprevious] using hformed.1)
              have hbefore : item.previousHash = some (p.hash before) := by rw [hprevious, hcontent]; rfl
              refine ⟨content, before, hstage, hnew, hnode, hbefore, fun hsame => hformed.2.2 ?_⟩
              rw [hbefore, hnew, hsame]
          · cases h

lemma check_sound (hpaths : (p.changedFiles.map ChangedFile.path).Nodup) (hformed : ∀ item ∈ p.changedFiles, Formed item)
    (hstage : IsTree p.stage) (hworkspace : IsTree (node base)) {jobs : List Job} (h : check p base = .ok jobs) :
    jobs = jobsOf p base ∧ Checked p base := by
  have hfiles : p.changedFiles.mapM (checkFile p base) = .ok jobs := by
    unfold check at h
    split at h
    · cases h
    · split at h
      · cases h
      · split at h
        · cases h
        · split at h
          · cases h
          · exact h
  have hsound : ∀ item ∈ p.changedFiles, checkFile p base item = .ok (jobOf p base item) ∧ isSafe item.path = true ∧
      Describes p base item ∧ node base item.path ≠ some .directory := by
    intro item hitem
    obtain ⟨job, -, hjob⟩ := (mapM_mem hfiles).2 item hitem
    obtain ⟨rfl, hrest⟩ := checkFile_sound (hformed item hitem) hjob
    exact ⟨hjob, hrest⟩
  refine ⟨?_, fun item hitem => (hsound item hitem).2, hpaths, hstage, hworkspace⟩
  rw [mapM_ok fun item hitem => (hsound item hitem).1] at hfiles
  exact (Except.ok.inj hfiles).symm

lemma check_mark {problem : Problem} {status : Status} (h : check p disk = .error ⟨problem, some status⟩) : status ≠ .applied := by
  have hfiles : ∀ items : List ChangedFile, items.mapM (checkFile p disk) = .error ⟨problem, some status⟩ → status ≠ .applied := by
    intro items hitems
    induction items with
    | nil => cases hitems
    | cons item items ih =>
      rw [List.mapM_cons] at hitems
      cases hitem : checkFile p disk item with
      | ok job =>
        rw [hitem] at hitems
        cases hrest : items.mapM (checkFile p disk) with
        | ok jobs =>
          rw [hrest] at hitems
          cases hitems
        | error reject =>
          rw [hrest] at hitems
          cases hitems
          exact ih hrest
      | error reject =>
        rw [hitem] at hitems
        cases hitems
        rintro rfl
        unfold checkFile checkTarget at hitem
        repeat' split at hitem
        all_goals cases hitem
  unfold check at h
  split at h
  · cases h
  · split at h
    · cases h
      exact Status.noConfusion
    · split at h
      · cases h
      · split at h
        · cases h
          exact Status.noConfusion
        · exact hfiles _ h

lemma Checked.apart (h : Checked p base) {x y : ChangedFile} (hx : x ∈ p.changedFiles) (hy : y ∈ p.changedFiles)
    (habove : x.path <+: y.path) : x.path = y.path := by
  by_contra hne
  have hdescribes := (h.files y hy).2.1
  by_cases hdeleted : y.changeType = .deleted
  · simp only [Describes, hdeleted] at hdescribes
    obtain ⟨-, -, content, hnode, -⟩ := hdescribes
    exact (h.files x hx).2.2 (h.workspace y.path x.path habove hne (by simp [hnode]))
  · obtain ⟨content, hcontent⟩ := staged_file hdescribes hdeleted
    have hdirectory : p.stage x.path = some .directory := h.stage y.path x.path habove hne fun hnone => by
      rw [hnone] at hcontent
      cases hcontent
    by_cases hgone : x.changeType = .deleted
    · have hx' := (h.files x hx).2.1
      simp only [Describes, hgone] at hx'
      rw [hx'.1] at hdirectory
      cases hdirectory
    · obtain ⟨content', hcontent'⟩ := staged_file (h.files x hx).2.1 hgone
      rw [hdirectory] at hcontent'
      cases hcontent'

lemma Checked.jobs_apart (h : Checked p base) {i j : Job} (hi : i ∈ jobsOf p base) (hj : j ∈ jobsOf p base) (habove : i.path <+: j.path) :
    i.path = j.path := by
  obtain ⟨x, hx, rfl⟩ := List.mem_map.mp hi
  obtain ⟨y, hy, rfl⟩ := List.mem_map.mp hj
  exact h.apart hx hy habove

lemma Checked.jobs_paths (h : Checked p base) : ((jobsOf p base).map Job.path).Nodup := by
  have hpaths := h.paths
  simpa [jobsOf, jobOf, Function.comp_def] using hpaths

lemma Checked.job (h : Checked p base) {j : Job} (hj : j ∈ jobsOf p base) : isSafe j.path = true ∧ node base j.path = j.original.map .file := by
  obtain ⟨item, hitem, rfl⟩ := List.mem_map.mp hj
  exact ⟨(h.files item hitem).1, content_of_not_directory (h.files item hitem).2.2⟩

structure Along (p : Setting) (base : Disk) (done rest : List Job) (disk : Disk) : Prop where
  outside : ∀ q, (∀ j ∈ jobsOf p base, j.path ≠ q) → node disk q = node base q ∨ node base q = none ∧ node disk q = some .directory
  written : ∀ j ∈ done, node disk j.path = j.content.map .file
  waiting : ∀ j ∈ rest, node disk j.path = j.original.map .file
  way : ∀ j ∈ done, ∀ dir, dir <+: j.path → dir ≠ j.path → node disk dir = some .directory

variable {done rest : List Job} {job : Job}

lemma along_start (h : Checked p base) : Along p base [] (jobsOf p base) base :=
  ⟨fun _ _ => .inl rfl, by simp, fun _ hj => (h.job hj).2, by simp⟩

lemma Unchanged.directory {path q : Path} (h : Unchanged disk disk' path q) (hdirectory : node disk q = some .directory) :
    node disk' q = some .directory := by
  rcases h with h | ⟨hnone, -⟩
  · rw [h, hdirectory]
  · rw [hdirectory] at hnone
    cases hnone

variable (h : Along p base done (job :: rest) disk)

include h in
lemma Along.others (hchecked : Checked p base) (hall : done ++ job :: rest = jobsOf p base)
    (hframe : ∀ q, q ≠ job.path → Unchanged disk disk' job.path q) :
    (∀ q, (∀ j ∈ jobsOf p base, j.path ≠ q) → node disk' q = node base q ∨ node base q = none ∧ node disk' q = some .directory) ∧
      (∀ j ∈ jobsOf p base, j.path ≠ job.path → node disk' j.path = node disk j.path) ∧
      ∀ j ∈ done, ∀ dir, dir <+: j.path → dir ≠ j.path → node disk' dir = some .directory := by
  have hjob : job ∈ jobsOf p base := hall ▸ List.mem_append_right _ (List.mem_cons_self ..)
  have hdone : ∀ j ∈ done, j ∈ jobsOf p base := fun j hj => hall ▸ List.mem_append_left _ hj
  refine ⟨fun q hout => outside_unchanged (hframe q (hout job hjob).symm) (h.outside q hout), fun j hj hne => ?_, fun j hj dir hdir hne => ?_⟩
  · exact (hframe j.path hne).resolve_right fun hr => hne (hchecked.jobs_apart hj hjob hr.2.2.1)
  · refine Unchanged.directory (hframe dir ?_) (h.way j hj dir hdir hne)
    rintro rfl
    exact hne (hchecked.jobs_apart hjob (hdone j hj) hdir)

include h in
lemma Along.unchanged (hchecked : Checked p base) (hall : done ++ job :: rest = jobsOf p base)
    (hframe : ∀ q, Unchanged disk disk' job.path q) : Along p base done (job :: rest) disk' := by
  obtain ⟨houtside, hothers, hway⟩ := h.others hchecked hall fun q _ => hframe q
  have hsame : ∀ j ∈ jobsOf p base, node disk' j.path = node disk j.path := fun j hj => by
    by_cases hne : j.path = job.path
    · rw [hne]
      exact (hframe job.path).resolve_right fun hr => hr.2.2.2 rfl
    · exact hothers j hj hne
  refine ⟨houtside, fun j hj => ?_, fun j hj => ?_, hway⟩
  · rw [hsame j (hall ▸ List.mem_append_left _ hj)]
    exact h.written j hj
  · rw [hsame j (hall ▸ List.mem_append_right _ hj)]
    exact h.waiting j hj

include h in
lemma Along.placed (hchecked : Checked p base) (hall : done ++ job :: rest = jobsOf p base)
    (hplaced : Placed disk disk' job.path job.content) (hway : ∀ dir, dir <+: job.path → dir ≠ job.path → node disk dir = some .directory) :
    Along p base (done ++ [job]) rest disk' := by
  obtain ⟨houtside, hothers, hdirs⟩ := h.others hchecked hall hplaced.1
  have hnodup := hchecked.jobs_paths
  rw [← hall] at hnodup
  obtain ⟨hbefore, hafter⟩ := apart_of_split hnodup
  refine ⟨houtside, fun j hj => ?_, fun j hj => ?_, fun j hj dir hdir hne => ?_⟩
  · rcases mem_concat.1 hj with hj | rfl
    · rw [hothers j (hall ▸ List.mem_append_left _ hj) (hbefore j hj)]
      exact h.written j hj
    · exact hplaced.2
  · rw [hothers j (hall ▸ List.mem_append_right _ (List.mem_cons_of_mem _ hj)) (hafter j hj)]
    exact h.waiting j (List.mem_cons_of_mem _ hj)
  · rcases mem_concat.1 hj with hj | rfl
    · exact hdirs j hj dir hdir hne
    · exact Unchanged.directory (hplaced.1 dir hne) (hway dir hdir hne)

structure Done (p : Setting) (base : Disk) (s : State) : Prop where
  checked : Checked p base
  along : Along p base (jobsOf p base) [] s.disk
  backed : Backed (jobsOf p base) s.undo

structure Going (p : Setting) (base : Disk) (s : State) (done rest : List Job) : Prop where
  pending : s.stored = .pending
  checked : Checked p base
  all : done ++ rest = jobsOf p base
  backed : Backed (jobsOf p base) s.undo

def OnWay (p : Setting) (base : Disk) (s : State) : Phase → Prop
  | .checking => s.stored = .pending ∧ s.disk = base
  | .makingUndo jobs => s.stored = .pending ∧ s.disk = base ∧ jobs = jobsOf p base ∧ Checked p base
  | .backingUp rest jobs => s.stored = .pending ∧ s.disk = base ∧ jobs = jobsOf p base ∧ Checked p base ∧ (∀ j ∈ rest, j ∈ jobs) ∧
      ∃ rows, s.undo = some rows ∧ ∀ j ∈ jobs, ∀ content, j.original = some content →
        j ∈ rest ∨ lookup Prod.fst rows j.path = some (j.path, content)
  | .journaling jobs => s.stored = .pending ∧ s.disk = base ∧ jobs = jobsOf p base ∧ Checked p base ∧ Backed jobs s.undo
  | .working .publish done rest none => Going p base s done rest ∧ Along p base done rest s.disk
  | .working .publish done (job :: rest) (some temp) => Going p base s done (job :: rest) ∧ ∃ content plain, job.content = some content ∧
      s.disk = plain ++ [(temp, .file content)] ∧ node plain temp = none ∧ temp ≠ job.path ∧ missing plain job.path = none ∧
      Along p base done (job :: rest) plain
  | .marking status .close => status = .applied ∧ Done p base s
  | .closing none | .idle => s.stored = .applied ∧ Done p base s
  | _ => False

def Repairs : Kind → Prop
  | .rollback | .recover .handler => True
  | _ => False

def Astray : Phase → Prop
  | .idle | .clearing .handler | .closing (some .handler) => True
  | .working kind _ _ _ => Repairs kind
  | .marking status (.raise _) | .marking status .recovery | .marking status (.clear .handler) | .marking status (.resume .handler) =>
    status ≠ .applied
  | _ => False

/-- An `apply` that failed will not say that it was applied. -/
structure Strays (s : State) : Prop where
  stored : s.stored ≠ .applied
  phase : Astray s.phase

def Follows (p : Setting) (base : Disk) (s : State) : Prop := OnWay p base s s.phase ∨ Strays s

lemma strays_failJob {kind : Kind} (hstored : s.stored ≠ .applied) (hrepairs : Repairs kind) : Strays (failJob s kind done rest).2 := by
  cases kind with
  | publish => exact hrepairs.elim
  | rollback => exact ⟨hstored, trivial⟩
  | recover caller =>
    cases caller with
    | handler => exact ⟨hstored, Status.noConfusion⟩
    | startup => exact hrepairs.elim
    | apply => exact hrepairs.elim

lemma strays_abort (hpending : s.stored = .pending) (jobs : List Job) : Strays (abort s jobs).2 :=
  ⟨by simp [abort, go, hpending], trivial⟩

lemma strays_raise (hstored : s.stored ≠ .applied) (problem : Problem) : Strays (raise s problem).2 := ⟨hstored, trivial⟩

lemma strays_startJob {kind : Kind} (hstored : s.stored ≠ .applied) (hrepairs : Repairs kind) (hphase : s.phase = .working kind done (job :: rest) none)
    (random : String) : Strays (startJob s kind done job rest random).2 := by
  have hstay : Astray s.phase := by
    rw [hphase]
    exact hrepairs
  unfold startJob
  split
  · split
    · exact ⟨hstored, hrepairs⟩
    · exact strays_failJob hstored hrepairs
    · split
      · exact strays_failJob hstored hrepairs
      · exact ⟨hstored, hrepairs⟩
  · split
    · split
      · exact strays_failJob hstored hrepairs
      · exact ⟨hstored, hstay⟩
    · dsimp only
      split
      · exact ⟨hstored, hstay⟩
      · exact ⟨hstored, hrepairs⟩

lemma strays_placeJob {kind : Kind} (hstored : s.stored ≠ .applied) (hrepairs : Repairs kind) (temp : Path) :
    Strays (placeJob s kind done job rest temp).2 := by
  unfold placeJob
  split
  · exact strays_failJob hstored hrepairs
  · exact ⟨hstored, hrepairs⟩

lemma strays_recover (hstored : s.stored ≠ .applied) : Strays (recover p s .handler).2 := by
  unfold recover
  rw [if_neg hstored]
  split
  · exact ⟨hstored, Status.noConfusion⟩
  · exact ⟨hstored, trivial⟩

lemma strays_next (h : Strays s) (random : String) : Strays (next p s random).2 := by
  have hstored := h.stored
  have hastray := h.phase
  unfold next
  cases hphase : s.phase with
  | down => exact h
  | idle => exact h
  | checking | makingUndo | backingUp | journaling =>
    rw [hphase] at hastray
    exact hastray.elim
  | working kind done rest temp =>
    rw [hphase] at hastray
    cases rest with
    | nil =>
      cases kind with
      | publish => exact hastray.elim
      | rollback => exact ⟨hstored, Status.noConfusion⟩
      | recover caller =>
        cases caller with
        | handler => exact ⟨hstored, Status.noConfusion⟩
        | startup => exact hastray.elim
        | apply => exact hastray.elim
    | cons job rest =>
      cases temp with
      | none => exact strays_startJob hstored hastray hphase random
      | some temp => exact strays_placeJob hstored hastray temp
  | marking status after =>
    rw [hphase] at hastray
    cases after with
    | raise problem => exact strays_raise (by exact hastray) problem
    | recovery =>
      simp only [marked]
      split
      · exact strays_recover (by exact hastray)
      · exact strays_raise (by exact hastray) _
    | clear caller =>
      cases caller with
      | handler => exact ⟨hastray, trivial⟩
      | startup => exact hastray.elim
      | apply => exact hastray.elim
    | close => exact hastray.elim
    | resume caller =>
      cases caller with
      | handler => exact strays_raise (by exact hastray) _
      | startup => exact hastray.elim
      | apply => exact hastray.elim
  | clearing caller =>
    rw [hphase] at hastray
    cases caller with
    | handler =>
      simp only
      split
      · exact ⟨hstored, trivial⟩
      · exact ⟨hstored, trivial⟩
      · exact ⟨hstored, trivial⟩
    | startup => exact hastray.elim
    | apply => exact hastray.elim
  | closing caller =>
    rw [hphase] at hastray
    cases caller with
    | none => exact hastray.elim
    | some caller =>
      cases caller with
      | handler => exact @strays_raise { s with journal := false } hstored .applyFailed
      | startup => exact hastray.elim
      | apply => exact hastray.elim

lemma way_of_missing {path : Path} (hpath : path ≠ []) (h : missing disk path = none) {dir : Path} (hdir : dir <+: path) (hne : dir ≠ path) :
    node disk dir = some .directory := by
  have hall := List.find?_eq_none.mp h dir ((mem_above hpath).mpr ⟨hdir, hne⟩)
  simpa using hall

lemma tempPath_ne {path : Path} (hsafe : isSafe path = true) (random : String) : tempPath path random ≠ path := by
  intro hsame
  have hhidden := tempPath_hidden path random
  rw [hsame, hsafe] at hhidden
  cases hhidden

include h in
lemma Along.way_of_file (hchecked : Checked p base) (hall : done ++ job :: rest = jobsOf p base)
    {content : Bytes} (hnode : node disk job.path = some (.file content)) {dir : Path} (hdir : dir <+: job.path) (hne : dir ≠ job.path) :
    node disk dir = some .directory := by
  have hjob : job ∈ jobsOf p base := hall ▸ List.mem_append_right _ (List.mem_cons_self ..)
  have hbase : node base job.path ≠ none := by
    rw [(hchecked.job hjob).2, ← h.waiting job (List.mem_cons_self ..), hnode]
    simp
  have hdirectory := hchecked.workspace job.path dir hdir hne hbase
  rcases h.outside dir fun j hj hsame => hne (hsame ▸ hchecked.jobs_apart hj hjob (hsame ▸ hdir)) with hsame | ⟨hnone, -⟩
  · rw [hsame, hdirectory]
  · rw [hdirectory] at hnone
    cases hnone

lemma follows_startJob (hgoing : Going p base s done (job :: rest)) (halong : Along p base done (job :: rest) s.disk)
    (hphase : s.phase = .working .publish done (job :: rest) none) (random : String) :
    Follows p base (startJob s .publish done job rest random).2 := by
  have hjob : job ∈ jobsOf p base := hgoing.all ▸ List.mem_append_right _ (List.mem_cons_self ..)
  obtain ⟨hsafe, -⟩ := hgoing.checked.job hjob
  have hne := isSafe_ne_nil hsafe
  have hall : (done ++ [job]) ++ rest = jobsOf p base := by rw [← hgoing.all, List.append_assoc]; rfl
  unfold startJob
  split
  · rename_i hcontent
    split
    · rename_i content hnode
      have hplaced : Placed s.disk (deleteRow Prod.fst job.path s.disk) job.path job.content := hcontent ▸ placed_nothing hne
      exact .inl ⟨⟨hgoing.pending, hgoing.checked, hall, hgoing.backed⟩, halong.placed hgoing.checked hgoing.all hplaced
        fun dir hdir hdirne => halong.way_of_file hgoing.checked hgoing.all hnode hdir hdirne⟩
    · exact .inr (strays_abort hgoing.pending _)
    · exact .inr (strays_abort hgoing.pending _)
  · rename_i content hcontent
    split
    · rename_i dir hmissing
      split
      · exact .inr (strays_abort hgoing.pending _)
      · rename_i hnone
        have habove := (mem_above hne).mp (List.mem_of_find?_eq_some hmissing)
        refine .inl ?_
        simp only [hphase]
        exact ⟨⟨hgoing.pending, hgoing.checked, hgoing.all, hgoing.backed⟩, halong.unchanged hgoing.checked hgoing.all
          (unchanged_directory (by simpa using hnone) habove.1 habove.2)⟩
    · rename_i hmissing
      dsimp only
      split
      · refine .inl ?_
        rw [hphase]
        exact ⟨hgoing, halong⟩
      · rename_i hfree
        exact .inl ⟨⟨hgoing.pending, hgoing.checked, hgoing.all, hgoing.backed⟩, content, s.disk, hcontent, rfl, by simpa using hfree,
          tempPath_ne hsafe random, hmissing, halong⟩

lemma follows_placeJob {temp : Path} (h : OnWay p base s (.working .publish done (job :: rest) (some temp))) :
    Follows p base (placeJob s .publish done job rest temp).2 := by
  obtain ⟨hgoing, content, plain, hcontent, hdisk, hfree, hne, hmissing, halong⟩ := h
  have hjob : job ∈ jobsOf p base := hgoing.all ▸ List.mem_append_right _ (List.mem_cons_self ..)
  obtain ⟨hsafe, -⟩ := hgoing.checked.job hjob
  have hpath := isSafe_ne_nil hsafe
  have htemp : temp ≠ [] := ne_nil_of_none hfree
  have hall : (done ++ [job]) ++ rest = jobsOf p base := by rw [← hgoing.all, List.append_assoc]; rfl
  unfold placeJob
  split
  · exact .inr (@strays_abort { s with disk := deleteRow Prod.fst temp s.disk } hgoing.pending done)
  · -- without the temporary file the disk is as before
    have hplain : ∀ q, Unchanged plain (deleteRow Prod.fst temp s.disk) job.path q := by
      intro q
      refine .inl ?_
      rw [node_deleteRow htemp, hdisk, node_append hfree]
      split
      · rename_i hq
        rw [hq, hfree]
      · rfl
    have hplaced : Placed plain (replaceRow Prod.fst (job.path, .file (job.content.getD [])) (deleteRow Prod.fst temp s.disk)) job.path
        job.content := by
      rw [hcontent]
      exact placed_file hpath hplain
    exact .inl ⟨⟨hgoing.pending, hgoing.checked, hall, hgoing.backed⟩, halong.placed hgoing.checked hgoing.all hplaced
      fun dir hdir hdirne => way_of_missing hpath hmissing hdir hdirne⟩

lemma onWay_step (hpaths : (p.changedFiles.map ChangedFile.path).Nodup) (hformed : ∀ item ∈ p.changedFiles, Formed item)
    (hstage : IsTree p.stage) (hworkspace : IsTree (node base)) (h : OnWay p base s s.phase) (random : String) :
    Follows p base (next p s random).2 := by
  unfold next
  cases hphase : s.phase with
  | down =>
    rw [hphase] at h
    exact h.elim
  | idle => exact .inl h
  | checking =>
    rw [hphase] at h
    obtain ⟨hpending, hdisk⟩ := h
    simp only [hpending, ne_eq, not_true_eq_false, if_false]
    cases hcheck : check p s.disk with
    | ok jobs =>
      obtain ⟨hjobs, hchecked⟩ := check_sound hpaths hformed hstage hworkspace (hdisk ▸ hcheck)
      exact .inl ⟨hpending, hdisk, hjobs, hchecked⟩
    | error reject =>
      obtain ⟨problem, mark⟩ := reject
      cases mark with
      | none => exact .inr (strays_raise (by simp [hpending]) _)
      | some status =>
        refine .inr ⟨by simp [go, hpending], ?_⟩
        exact check_mark hcheck
  | makingUndo jobs =>
    rw [hphase] at h
    obtain ⟨hpending, hdisk, rfl, hchecked⟩ := h
    simp only
    split
    · exact .inr (strays_abort hpending _)
    · refine .inl ⟨hpending, hdisk, rfl, hchecked, fun j hj => (List.mem_filter.mp hj).1, [], rfl, fun j hj content hcontent => .inl ?_⟩
      exact List.mem_filter.mpr ⟨hj, by simp [hcontent]⟩
  | backingUp rest jobs =>
    rw [hphase] at h
    obtain ⟨hpending, hdisk, rfl, hchecked, hrest, rows, hundo, hrows⟩ := h
    cases rest with
    | nil =>
      refine .inl ⟨hpending, hdisk, rfl, hchecked, rows, hundo, fun j hj content hcontent => ?_⟩
      exact (hrows j hj content hcontent).resolve_left List.not_mem_nil
    | cons job rest =>
      refine .inl ⟨hpending, hdisk, rfl, hchecked, fun j hj => hrest j (List.mem_cons_of_mem _ hj),
        replaceRow Prod.fst (job.path, job.original.getD []) rows, by simp [go, hundo], ?_⟩
      exact backed_next hchecked.jobs_paths (hrest job (List.mem_cons_self ..)) hrows
  | journaling jobs =>
    rw [hphase] at h
    obtain ⟨hpending, hdisk, rfl, hchecked, hbacked⟩ := h
    simp only
    split
    · exact .inr (strays_abort hpending _)
    · refine .inl ⟨⟨hpending, hchecked, rfl, hbacked⟩, ?_⟩
      simp only [go, hdisk]
      exact along_start hchecked
  | working kind done rest temp =>
    rw [hphase] at h
    cases kind with
    | rollback => exact h.elim
    | recover caller => exact h.elim
    | publish =>
      cases rest with
      | nil =>
        cases temp with
        | some temp => exact h.elim
        | none =>
          obtain ⟨hgoing, halong⟩ := h
          obtain rfl : done = jobsOf p base := by simpa using hgoing.all
          exact .inl ⟨rfl, hgoing.checked, halong, hgoing.backed⟩
      | cons job rest =>
        cases temp with
        | none => exact follows_startJob h.1 h.2 hphase random
        | some temp => exact follows_placeJob h
  | marking status after =>
    rw [hphase] at h
    cases after with
    | close =>
      obtain ⟨rfl, hdone⟩ := h
      exact .inl ⟨rfl, hdone.checked, hdone.along, hdone.backed⟩
    | raise problem => exact h.elim
    | recovery => exact h.elim
    | clear caller => exact h.elim
    | resume caller => exact h.elim
  | clearing caller =>
    rw [hphase] at h
    exact h.elim
  | closing caller =>
    rw [hphase] at h
    cases caller with
    | some caller => exact h.elim
    | none => exact .inl ⟨h.1, h.2.checked, h.2.along, h.2.backed⟩

def applyRun (p : Setting) (disk : Disk) (undo : Option (List (Path × Bytes))) (randoms : List String) : State :=
  final (step p) (.initial disk undo) (.apply :: randoms.map .next)

lemma follows_run (hpaths : (p.changedFiles.map ChangedFile.path).Nodup) (hformed : ∀ item ∈ p.changedFiles, Formed item)
    (hstage : IsTree p.stage) (hworkspace : IsTree (node base)) (undo : Option (List (Path × Bytes))) (randoms : List String) :
    Follows p base (applyRun p base undo randoms) := by
  have hstart : Follows p base (step p (.initial base undo) .apply).2 := .inl ⟨rfl, rfl⟩
  unfold applyRun
  rw [final_cons]
  generalize (step p (.initial base undo) .apply).2 = s at hstart
  induction randoms generalizing s with
  | nil => exact hstart
  | cons random randoms ih =>
    apply ih
    rcases hstart with hway | hstrays
    · exact onWay_step hpaths hformed hstage hworkspace hway random
    · exact .inr (strays_next hstrays random)

def standing : Status → Standing
  | .pending => .pending
  | .applied => .applied
  | .conflicted => .conflicted
  | .failed => .failed

def published (s : State) : World :=
  ⟨s.disk, s.undo, if s.journal then some .apply else none, standing s.stored, standing s.stored, true⟩

lemma applied_of_done (hsome : p.changedFiles ≠ []) (h : Done p base s) (hstored : s.stored = .applied) : Applied p base (published s) where
  some_file := hsome
  files := fun item hitem => ⟨(h.checked.files item hitem).1, (h.checked.files item hitem).2.1⟩
  paths := h.checked.paths
  apart := fun _ hx _ hy habove => h.checked.apart hx hy habove
  content := fun _ hitem => h.along.written _ (List.mem_map_of_mem hitem)
  above := fun item hitem dir hdir hne => by
    change contentOf (node s.disk dir) = none
    rw [h.along.way _ (List.mem_map_of_mem hitem) dir hdir hne]
    rfl
  backups := h.backed
  stored := by simp [published, hstored, standing]
  known := by simp [published, hstored, standing]
  journal := by
    unfold published
    cases s.journal <;> simp
  stage := rfl

lemma Done.others (h : Done p base s) {path : Path} (hout : ∀ item ∈ p.changedFiles, item.path ≠ path) :
    contentOf (node s.disk path) = contentOf (node base path) := by
  have hjobs : ∀ j ∈ jobsOf p base, j.path ≠ path := by
    intro j hj
    obtain ⟨item, hitem, rfl⟩ := List.mem_map.mp hj
    exact hout item hitem
  rcases h.along.outside path hjobs with hsame | ⟨hnone, hmade⟩
  · rw [hsame]
  · rw [hnone, hmade]
    rfl

def Holds (stage : Path → Option Node) (disk : Disk) (item : ChangedFile) : Prop :=
  match item.changeType with
  | .deleted => node disk item.path = none
  | _ => ∃ content, stage item.path = some (.file content) ∧ node disk item.path = some (.file content)

lemma Done.holds (h : Done p base s) (hitem : item ∈ p.changedFiles) : Holds p.stage s.disk item := by
  have hnode : node s.disk item.path = staged p item := h.along.written _ (List.mem_map_of_mem hitem)
  have hdescribes := (h.checked.files item hitem).2.1
  unfold Describes at hdescribes
  unfold Holds
  cases htype : item.changeType <;> simp only [htype] at hdescribes ⊢
  · obtain ⟨content, hstage, -⟩ := hdescribes
    exact ⟨content, hstage, by simp [hnode, staged, hstage]⟩
  · obtain ⟨content, _, hstage, -⟩ := hdescribes
    exact ⟨content, hstage, by simp [hnode, staged, hstage]⟩
  · simp [hnode, staged, hdescribes.1]

/-- `apply` changes just the files of the change set, and `undo` after it puts back the content of
    every file. -/
theorem apply_undo (host : Host) (active : String) (stage workspace : Disk) (baseline : Snapshot) (authorized deleted : List Path)
    (p : Setting) (hcreate : createFromStage host active stage baseline authorized deleted = .ok p)
    (hstage : IsTree (node (keyed host stage))) (hworkspace : IsTree (node workspace)) (undo : Option (List (Path × Bytes)))
    (randoms : List String) (hidle : isIdle (applyRun p workspace undo randoms).phase = true)
    (happlied : (applyRun p workspace undo randoms).stored = .applied) :
    (∀ item ∈ p.changedFiles, Holds (node (keyed host stage)) (applyRun p workspace undo randoms).disk item ∧
      contentOf (node (applyRun p workspace undo randoms).disk item.path) ≠ contentOf (node workspace item.path)) ∧
    (∀ path, (∀ item ∈ p.changedFiles, item.path ≠ path) →
      contentOf (node (applyRun p workspace undo randoms).disk path) = contentOf (node workspace path)) ∧
    raises (ChangeSetUndo.undo p none (published (applyRun p workspace undo randoms))) = false ∧
    ∀ path, contentOf (node (ChangeSetUndo.undo p none (published (applyRun p workspace undo randoms))).2.disk path) =
      contentOf (node workspace path) := by
  have haccepted := accepted hcreate
  have hfollows := follows_run haccepted.paths haccepted.formed (haccepted.stage ▸ hstage) hworkspace undo randoms
  generalize applyRun p workspace undo randoms = s at hidle happlied hfollows ⊢
  have hphase : s.phase = .idle := by
    cases hphase : s.phase <;> rw [hphase] at hidle <;> first | rfl | cases hidle
  have hdone : Done p workspace s := by
    rcases hfollows with hway | hstrays
    · rw [hphase] at hway
      exact hway.2
    · exact absurd happlied hstrays.stored
  have hpublished := applied_of_done haccepted.some_file hdone happlied
  obtain ⟨hraises, hitems, hothers⟩ := undo_restores hpublished
  refine ⟨fun item hitem => ⟨haccepted.stage ▸ hdone.holds hitem, fun hsame => ?_⟩, fun path hout => hdone.others hout, hraises, fun path => ?_⟩
  · apply not_staged (hdone.checked.files item hitem).2.1
    have hnode : node s.disk item.path = staged p item := hpublished.content item hitem
    rw [original, ← hsame, hnode, staged]
    cases contentOf (p.stage item.path) <;> rfl
  · by_cases hout : ∀ item ∈ p.changedFiles, item.path ≠ path
    · exact (hothers path hout).trans (hdone.others hout)
    · simp only [not_forall, Decidable.not_not] at hout
      obtain ⟨item, hitem, rfl⟩ := hout
      exact hitems item hitem

def exampleHost : Host where
  normcase := id
  alike := by simp
  hash := fun content =>
    if content = [97] then "ca978112ca1bbdcafac231b39a23dc4da786eff8147c4e72b9807785afee48bb"
    else "3e23e8160039594a33894f6564e1b1348bbd7a0088d42c4acb73eeaed59c009d"
  treeHash := fun _ => "5754d39e24f5c56a7ab2a1b83bd0d4b6a47c9a431f667de1f236ee719c331fc0"
  manifestHash := fun _ => "8b9d7cdeb3589f58923f2d76ddcf70fff6f46f0109d9f44be4ab126b0098ffbf"

def exampleWorkspace : Disk := [(["edit.txt"], .file [97]), (["old.txt"], .file [97])]

def exampleStage : Disk := [(["edit.txt"], .file [98]), (["new.txt"], .file [98])]

def exampleBaseline : Snapshot :=
  ⟨"/work", [(["edit.txt"], exampleHost.hash [97]), (["old.txt"], exampleHost.hash [97])], exampleHost.treeHash (shown exampleWorkspace)⟩

def exampleChanged : List ChangedFile :=
  [⟨["edit.txt"], .modified, some (exampleHost.hash [97]), some (exampleHost.hash [98])⟩,
    ⟨["new.txt"], .created, none, some (exampleHost.hash [98])⟩, ⟨["old.txt"], .deleted, some (exampleHost.hash [97]), none⟩]

def exampleCreated : Setting :=
  { settingOf exampleHost exampleStage exampleBaseline exampleChanged with stagedManifestHash := exampleHost.manifestHash [] }

lemma isTree_flat (h : ∀ row ∈ disk, row.1.length = 1) : IsTree (node disk) := by
  intro path above habove hne hsome
  by_cases hpath : path = []
  · subst hpath
    exact absurd (List.prefix_nil.mp habove) hne
  · rw [node_of_ne hpath] at hsome
    cases hrow : lookup Prod.fst disk path with
    | none => simp [hrow] at hsome
    | some row =>
      have hkey : row.1 = path := lookup_key hrow
      have hlength : path.length = 1 := hkey ▸ h row (lookup_mem hrow)
      have hnil : above = [] := by
        by_contra hnil
        have hpos := List.length_pos_iff.mpr hnil
        exact hne (habove.eq_of_length_le (by omega))
      rw [hnil]
      rfl

lemma exampleCreated_made : createFromStage exampleHost "/work" exampleStage exampleBaseline [["edit.txt"], ["new.txt"], ["old.txt"]]
    [["old.txt"]] = .ok exampleCreated := by
  rfl

def exampleRandoms : List String := List.replicate 18 "a"

theorem apply_undo_example : contentOf (node (ChangeSetUndo.undo exampleCreated none
    (published (applyRun exampleCreated exampleWorkspace none exampleRandoms))).2.disk ["old.txt"]) = some [97] :=
  (apply_undo exampleHost "/work" exampleStage exampleWorkspace exampleBaseline [["edit.txt"], ["new.txt"], ["old.txt"]] [["old.txt"]]
    exampleCreated exampleCreated_made (isTree_flat (by decide)) (isTree_flat (by decide)) none exampleRandoms (by decide +kernel)
    (by decide +kernel)).2.2.2 ["old.txt"]

end PromptForge.ChangeSetRoundTrip
