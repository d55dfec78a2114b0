import PromptForge.ChangeSetRuns
import PromptForge.ChangeSetUndoLaws

namespace PromptForge.ChangeSetUndo
open Runs Tables ChangeSets

variable {p : Setting} {fault : Option Step} {disk start base : Disk} {w : World} {item : ChangedFile}

lemma staged_file (hdescribes : Describes p base item) (htype : item.changeType ≠ .deleted) :
    ∃ content, contentOf (p.stage item.path) = some content := by
  unfold Describes at hdescribes
  cases hkind : item.changeType <;> simp only [hkind] at hdescribes
  · obtain ⟨content, hstage, -⟩ := hdescribes
    exact ⟨content, by rw [hstage]; rfl⟩
  · obtain ⟨content, _, hstage, -⟩ := hdescribes
    exact ⟨content, by rw [hstage]; rfl⟩
  · exact absurd hkind htype

lemma original_created (hdescribes : Describes p base item) (htype : item.changeType = .created) :
    contentOf (node base item.path) = none := by
  simp only [Describes, htype] at hdescribes
  exact hdescribes.choose_spec.2.2.2

lemma original_file (hdescribes : Describes p base item) (htype : item.changeType ≠ .created) :
    ∃ content, contentOf (node base item.path) = some content := by
  unfold Describes at hdescribes
  cases hkind : item.changeType <;> simp only [hkind] at hdescribes
  · exact absurd hkind htype
  · obtain ⟨_, before, -, -, hnode, -⟩ := hdescribes
    exact ⟨before, by rw [hnode]; rfl⟩
  · obtain ⟨-, -, before, hnode, -⟩ := hdescribes
    exact ⟨before, by rw [hnode]; rfl⟩

def Backs (p : Setting) (base : Disk) (target : ChangedFile × Bytes) : Prop :=
  target.1 ∈ p.changedFiles ∧ (target.1.changeType ≠ .created → contentOf (node base target.1.path) = some target.2)

lemma readFile_staged {content : Bytes} (hready : Ready p base start) (hitem : item ∈ p.changedFiles)
    (hstaged : node disk item.path = staged p item) (hcontent : contentOf (p.stage item.path) = some content) :
    readFile disk item.path = .ok content := by
  simp [readFile, problem_of_safe (hready.files item hitem).1, hstaged, staged, hcontent]

lemma takesBack_restored {q : Progress} (h : TakesBack p q) (hitem : item ∈ p.changedFiles) {content : Option Bytes}
    (hcontent : content = contentOf (p.stage item.path)) (disk : Disk) :
    TakesBack p { q with disk, restored := q.restored ++ [(item.path, content)] } := by
  refine ⟨fun row hrow => ?_, h.2⟩
  rcases mem_concat.1 hrow with hrow | rfl
  · exact h.1 row hrow
  · exact ⟨item, hitem, rfl, hcontent⟩

lemma takesBack_removed {q : Progress} (h : TakesBack p q) (hitem : item ∈ p.changedFiles) {content : Bytes}
    (hcontent : contentOf (p.stage item.path) = some content) (disk : Disk) :
    TakesBack p { q with disk, removed := q.removed ++ [(item.path, content)] } := by
  refine ⟨h.1, fun row hrow => ?_⟩
  rcases mem_concat.1 hrow with hrow | rfl
  · exact h.2 row hrow
  · exact ⟨item, hitem, rfl, hcontent.symm⟩

def FailsAt (fault : Option Step) (path : Path) : Prop := ∃ touch, fault = some (.own (.file path touch))

lemma writeFile_outcome (hready : Ready p base start) (h : Sides p base start disk) (hitem : item ∈ p.changedFiles) (content : Bytes) :
    (∃ disk', writeFile fault (fun touch => .own (.file item.path touch)) disk item.path content = .ok disk' ∧
        Placed disk disk' item.path (some content)) ∨
      ∃ disk', writeFile fault (fun touch => .own (.file item.path touch)) disk item.path content = .error disk' ∧
        Touched disk disk' item.path (some content) ∧ FailsAt fault item.path := by
  by_cases hfault : FailsAt fault item.path
  · rcases @writeFile_result fault (fun touch => .own (.file item.path touch)) disk item.path content (hready.ne_nil hitem) with hok | ⟨disk', hwrite, htouched⟩
    · exact .inl hok
    · exact .inr ⟨disk', hwrite, htouched, hfault⟩
  · exact .inl (writeFile_ok (fun touch htouch => hfault ⟨touch, htouch⟩) (hready.ne_nil hitem)
      (fun dir hdir hne => h.above hready hitem hdir hne) (h.not_directory hitem))

lemma removeFile_outcome (hready : Ready p base start) (h : Sides p base start disk) (hitem : item ∈ p.changedFiles)
    (hthere : node disk item.path ≠ none) :
    (∃ disk', removeFile fault (fun touch => .own (.file item.path touch)) false disk item.path = .ok disk' ∧
        Placed disk disk' item.path none) ∨
      ∃ disk', removeFile fault (fun touch => .own (.file item.path touch)) false disk item.path = .error disk' ∧
        Touched disk disk' item.path none ∧ FailsAt fault item.path := by
  by_cases hfault : FailsAt fault item.path
  · rcases @removeFile_result fault (fun touch => .own (.file item.path touch)) disk item.path false (hready.ne_nil hitem) with hok | ⟨disk', hremove, htouched⟩
    · exact .inl hok
    · exact .inr ⟨disk', hremove, htouched, hfault⟩
  · exact .inl (removeFile_ok (fun touch htouch => hfault ⟨touch, htouch⟩) (hready.ne_nil hitem) (h.not_directory hitem)
      fun hnone => absurd hnone hthere)

lemma undoFile_outcome (hready : Ready p base start) {q : Progress} (h : Sides p base start q.disk) (hrows : TakesBack p q)
    {target : ChangedFile × Bytes} (htarget : Backs p base target) (hstaged : node q.disk target.1.path = staged p target.1) :
    (∃ q', undoFile fault q target = .ok q' ∧ Placed q.disk q'.disk target.1.path (contentOf (node base target.1.path)) ∧ TakesBack p q') ∨
      ∃ problem q', undoFile fault q target = .error (problem, q') ∧
        Touched q.disk q'.disk target.1.path (contentOf (node base target.1.path)) ∧ TakesBack p q' ∧ FailsAt fault target.1.path := by
  obtain ⟨item, bytes⟩ := target
  obtain ⟨hitem, hbacks⟩ := htarget
  simp only at hitem hbacks hstaged ⊢
  obtain ⟨hsafe, hdescribes⟩ := hready.files item hitem
  unfold undoFile
  simp only
  split
  · rename_i hread
    exact .inr ⟨_, q, rfl, touched_same fun _ => .inl rfl, hrows, .read, hread⟩
  · cases htype : item.changeType with
    | created =>
      obtain ⟨content, hcontent⟩ := staged_file hdescribes (by simp [htype])
      have hthere : node q.disk item.path ≠ none := by simp [hstaged, staged, hcontent]
      rw [original_created hdescribes htype]
      simp only [readFile_staged hready hitem hstaged hcontent]
      rcases @removeFile_outcome p fault q.disk start base item hready h hitem hthere with ⟨disk', hremove, hplaced⟩ | ⟨disk', hremove, htouched, hfault⟩
      · exact .inl ⟨_, by rw [hremove], hplaced, takesBack_removed hrows hitem hcontent disk'⟩
      · exact .inr ⟨_, { q with disk := disk' }, by rw [hremove], htouched, hrows, hfault⟩
    | modified =>
      obtain ⟨content, hcontent⟩ := staged_file hdescribes (by simp [htype])
      rw [hbacks (by simp [htype])]
      simp only [readFile_staged hready hitem hstaged hcontent]
      rcases @writeFile_outcome p fault q.disk start base item hready h hitem bytes with ⟨disk', hwrite, hplaced⟩ | ⟨disk', hwrite, htouched, hfault⟩
      · exact .inl ⟨_, by rw [hwrite], hplaced, takesBack_restored hrows hitem hcontent.symm disk'⟩
      · exact .inr ⟨_, { q with disk := disk' }, by rw [hwrite], htouched, hrows, hfault⟩
    | deleted =>
      have hnothing : none = contentOf (p.stage item.path) := by
        simp only [Describes, htype] at hdescribes
        rw [hdescribes.1]
        rfl
      rw [hbacks (by simp [htype])]
      simp only [problem_of_safe hsafe]
      rcases @writeFile_outcome p fault q.disk start base item hready h hitem bytes with ⟨disk', hwrite, hplaced⟩ | ⟨disk', hwrite, htouched, hfault⟩
      · exact .inl ⟨_, by rw [hwrite], hplaced, takesBack_restored hrows hitem hnothing disk'⟩
      · exact .inr ⟨_, { q with disk := disk' }, by rw [hwrite], htouched, hrows, hfault⟩

lemma undoFiles_outcome (hready : Ready p base start) {targets : List (ChangedFile × Bytes)} (htargets : ∀ target ∈ targets, Backs p base target)
    (hpaths : (targets.map fun target => target.1.path).Nodup) {q : Progress} (h : Sides p base start q.disk) (hrows : TakesBack p q)
    (hstaged : ∀ target ∈ targets, node q.disk target.1.path = staged p target.1) :
    (∃ q', targets.foldlM (undoFile fault) q = .ok q' ∧ Sides p base start q'.disk ∧
        (∀ target ∈ targets, node q'.disk target.1.path = original base target.1) ∧
        ∀ item ∈ p.changedFiles, (∀ target ∈ targets, target.1.path ≠ item.path) → node q'.disk item.path = node q.disk item.path) ∨
      ∃ problem q', targets.foldlM (undoFile fault) q = .error (problem, q') ∧ Sides p base start q'.disk ∧ TakesBack p q' ∧
        ∃ path, FailsAt fault path := by
  induction targets generalizing q with
  | nil => exact .inl ⟨q, rfl, h, by simp, fun _ _ _ => rfl⟩
  | cons target targets ih =>
    obtain ⟨htarget, hrest⟩ := List.forall_mem_cons.mp htargets
    obtain ⟨hhead, htail⟩ := List.forall_mem_cons.mp hstaged
    obtain ⟨hfresh, hnodup⟩ := List.nodup_cons.mp hpaths
    have hapart : ∀ other ∈ targets, other.1.path ≠ target.1.path := fun other hother hsame =>
      hfresh (List.mem_map.mpr ⟨other, hother, hsame⟩)
    rw [List.foldlM_cons]
    rcases @undoFile_outcome p fault start base hready q h hrows target htarget hhead with
      ⟨q₁, hfile, hplaced, hrows₁⟩ | ⟨problem, q₁, hfile, htouched, hrows₁, hfault⟩
    · rw [hfile]
      have h₁ : Sides p base start q₁.disk := h.touch hready htarget.1 hplaced.touched (.inr rfl)
      have hsame : ∀ x ∈ p.changedFiles, x.path ≠ target.1.path → node q₁.disk x.path = node q.disk x.path := fun x hx hne =>
        Sides.unchanged hready htarget.1 hplaced.1 hx hne
      have hstaged₁ : ∀ other ∈ targets, node q₁.disk other.1.path = staged p other.1 := fun other hother =>
        (hsame other.1 (hrest other hother).1 (hapart other hother)).trans (htail other hother)
      rcases ih hrest hnodup h₁ hrows₁ hstaged₁ with ⟨q', hfiles, hsides, hdone, hkeeps⟩ | hfailed
      · refine .inl ⟨q', hfiles, hsides, List.forall_mem_cons.mpr ⟨?_, hdone⟩, fun x hx hout => ?_⟩
        · rw [hkeeps target.1 htarget.1 hapart, hplaced.2]
          rfl
        · obtain ⟨hne, hothers⟩ := List.forall_mem_cons.mp hout
          rw [hkeeps x hx hothers, hsame x hx (Ne.symm hne)]
      · exact .inr hfailed
    · rw [hfile]
      exact .inr ⟨problem, q₁, rfl, h.touch hready htarget.1 htouched (.inr rfl), hrows₁, _, hfault⟩

def targets (p : Setting) (base : Disk) : List (ChangedFile × Bytes) :=
  p.changedFiles.map fun item => (item, if item.changeType = .created then [] else (contentOf (node base item.path)).getD [])

variable (h : Applied p base w)

include h in
lemma checkBackup_ok (hitem : item ∈ p.changedFiles) :
    checkBackup p w item = .ok (item, if item.changeType = .created then [] else (contentOf (node base item.path)).getD []) := by
  obtain ⟨hsafe, hdescribes⟩ := h.files item hitem
  obtain ⟨-, hprevious, -⟩ := hashes_of hdescribes
  obtain ⟨rows, hrows, hbacked⟩ := h.backups
  by_cases htype : item.changeType = .created
  · simp [checkBackup, htype]
  · obtain ⟨content, hcontent⟩ := original_file hdescribes htype
    have hrow : lookup Prod.fst rows item.path = some (item.path, content) := hbacked _ (List.mem_map_of_mem hitem) content hcontent
    unfold checkBackup
    cases hkind : item.changeType <;> simp_all

include h in
lemma checkApplied_ok (hitem : item ∈ p.changedFiles) : checkApplied p w.disk item = .ok () := by
  obtain ⟨hsafe, hdescribes⟩ := h.files item hitem
  obtain ⟨hnew, -, -⟩ := hashes_of hdescribes
  unfold checkApplied
  rw [problem_of_safe hsafe, h.content item hitem]
  cases htype : item.changeType with
  | deleted =>
    simp only [Describes, htype] at hdescribes
    simp [staged, hdescribes.1]
  | created =>
    obtain ⟨content, hcontent⟩ := staged_file hdescribes (by simp [htype])
    simp [staged, hcontent, hnew]
  | modified =>
    obtain ⟨content, hcontent⟩ := staged_file hdescribes (by simp [htype])
    simp [staged, hcontent, hnew]

include h in
lemma undoKnown_eq (hlook : fault ≠ some (.own .look)) (hbackup : fault ≠ some (.own .backup)) :
    undoKnown p fault w = putBack p fault w (targets p base) := by
  have hchecked : p.changedFiles.mapM (checkBackup p w) = .ok (targets p base) := mapM_ok fun item hitem => checkBackup_ok h hitem
  simp only [undoKnown, h.known, h.stage, hlook, hbackup, hchecked, forM_iff.mpr fun item hitem => checkApplied_ok h hitem]
  simp

include h in
lemma targets_back : ∀ target ∈ (targets p base).reverse, Backs p base target := by
  intro target htarget
  obtain ⟨item, hitem, rfl⟩ := List.mem_map.mp (List.mem_reverse.mp htarget)
  refine ⟨hitem, fun htype => ?_⟩
  obtain ⟨content, hcontent⟩ := original_file (h.files item hitem).2 htype
  simp only at htype
  simp [htype, hcontent]

include h in
lemma targets_nodup : ((targets p base).reverse.map fun target => target.1.path).Nodup := by
  rw [List.map_reverse, List.nodup_reverse, targets, List.map_map]
  exact h.paths

lemma mem_targets (hitem : item ∈ p.changedFiles) : ∃ target ∈ (targets p base).reverse, target.1 = item :=
  ⟨_, List.mem_reverse.mpr (List.mem_map_of_mem hitem), rfl⟩

structure TakenBack (p : Setting) (base : Disk) (w w' : World) : Prop where
  sides : Sides p base w.disk w'.disk
  content : ∀ item ∈ p.changedFiles, node w'.disk item.path = staged p item
  backups : w'.backups = w.backups
  journal : w'.journal = none
  stored : w'.stored = .applied
  known : w'.known = .applied
  stage : w'.stageThere = true

def PutBack (p : Setting) (base : Disk) (w w' : World) : Prop :=
  Sides p base w.disk w'.disk ∧ ∀ item ∈ p.changedFiles, node w'.disk item.path = original base item

include h in
lemma TakenBack.applied {w' : World} (htaken : TakenBack p base w w') : Applied p base w' where
  some_file := h.some_file
  files := h.files
  paths := h.paths
  apart := h.apart
  content := htaken.content
  above := fun _ hitem _ hdir hne => htaken.sides.above h.ready hitem hdir hne
  backups := htaken.backups ▸ h.backups
  stored := htaken.stored
  known := htaken.known
  journal := by simp [htaken.journal]
  stage := htaken.stage

lemma PutBack.restored {w' : World} (h : PutBack p base w w') : Restored p base w.disk w'.disk := by
  constructor
  · intro item hitem
    rw [h.2 item hitem, original]
    cases contentOf (node base item.path) <;> rfl
  · intro path hout
    rcases h.1.outside path hout with hsame | ⟨hnone, hmade⟩
    · rw [hsame]
    · rw [hnone, hmade]
      rfl

lemma not_staged (hdescribes : Describes p base item) : original base item ≠ staged p item := by
  intro hsame
  apply (hashes_of hdescribes).2.2
  rw [← content_staged hdescribes, ← content_original hdescribes, hsame]

include h in
lemma PutBack.loses {w' : World} (hput : PutBack p base w w') : ¬ LosesNothing p base w w' := by
  rintro ⟨hstaged, -⟩
  obtain ⟨item, hitem⟩ := List.exists_mem_of_ne_nil _ h.some_file
  apply not_staged (h.files item hitem).2
  rw [← hput.2 item hitem, hstaged item hitem]

include h in
lemma failUndo_taken (hfault : ∀ place, fault ≠ some (.recovery place)) {w₁ : World} {problem : UndoProblem}
    (hsides : Sides p base w.disk w₁.disk) (hbackups : w₁.backups = w.backups) (hjournal : w₁.journal = some .undo)
    (hknown : w₁.known = .applied) (hstage : w₁.stageThere = true) :
    raises (failUndo p fault w₁ problem) = true ∧ TakenBack p base w (failUndo p fault w₁ problem).2 := by
  obtain ⟨disk', hrecover, hsides', hstaged⟩ := recover_undo h.ready hfault hsides hjournal hknown hstage
  rw [failUndo, hrecover]
  exact ⟨rfl, hsides', hstaged, hbackups, rfl, rfl, rfl, hstage⟩

lemma failUndo_lost (hfault : ∀ place, fault ≠ some (.recovery place)) {problem : UndoProblem} (hjournal : w.journal = none) :
    raises (failUndo p fault w problem) = true ∧ (failUndo p fault w problem).2.stored = .conflicted := by
  have htried : tryRecover p fault w = .error w := by simp [tryRecover, hjournal]
  rw [failUndo, recoverPublish, htried]
  simp only [mark_ok fun part => hfault _]
  exact ⟨rfl, trivial⟩

lemma mark_outcome (place : Part → Step) (w : World) (status : Standing) :
    ∃ w', (mark fault place w status = .ok w' ∨ mark fault place w status = .error w') ∧ w'.disk = w.disk := by
  unfold mark
  rcases @replaces_cases fault _ place w { w with stored := status } with ⟨-, hr⟩ | ⟨-, hr⟩ | ⟨-, hr⟩ <;> rw [hr]
  · exact ⟨_, .inl rfl, rfl⟩
  · exact ⟨_, .inr rfl, rfl⟩
  · exact ⟨_, .inr rfl, rfl⟩

lemma finishPublish_outcome (place : Place → Step) (w : World) :
    ∃ w', (finishPublish fault place w = .ok w' ∨ finishPublish fault place w = .error w') ∧ w'.disk = w.disk := by
  unfold finishPublish
  split
  · exact ⟨w, .inr rfl, rfl⟩
  · split
    · exact ⟨_, .inr rfl, rfl⟩
    · exact ⟨_, .inl rfl, rfl⟩

lemma finishUndo_disk (w : World) : (finishUndo fault w).2.disk = w.disk := by
  unfold finishUndo
  obtain ⟨w₁, hmark | hmark, hdisk₁⟩ := @mark_outcome fault (fun part => .own (.status part)) w .undone
  · rw [hmark]
    simp only
    obtain ⟨w₂, hfinish | hfinish, hdisk₂⟩ := @finishPublish_outcome fault .own w₁ <;> rw [hfinish] <;>
      exact hdisk₂.trans hdisk₁
  · rw [hmark]
    exact hdisk₁

def Ends : Step → Prop
  | .own (.status _) | .own .close | .own .closeSync => True
  | _ => False

lemma finishUndo_raises (w : World) : raises (finishUndo fault w) = true ↔ ∃ step, fault = some step ∧ Ends step := by
  unfold finishUndo mark
  rcases @replaces_cases fault _ (fun part => .own (.status part)) w { w with stored := .undone } with
    ⟨hstatus, hr⟩ | ⟨⟨part, -, hfault⟩, hr⟩ | ⟨hfault, hr⟩ <;> rw [hr] <;> simp only
  · by_cases hclose : fault = some (.own .close)
    · simp [finishPublish, hclose, raises, Ends]
    · by_cases hsync : fault = some (.own .closeSync)
      · simp [finishPublish, hsync, raises, Ends]
      · rw [finishPublish_ok hclose hsync]
        simp only [raises, Bool.false_eq_true, false_iff]
        rintro ⟨step, rfl, hends⟩
        unfold Ends at hends
        split at hends
        · exact hstatus _ rfl
        · exact hclose rfl
        · exact hsync rfl
        · exact hends
  · simp [raises, hfault, Ends]
  · simp [raises, hfault, Ends]

def Opens (fault : Option Step) : Prop := fault = some (.own .journalCheck) ∨ ∃ part, part ≠ .sync ∧ fault = some (.own (.journal part))

lemma not_recovery {place : Place} (h : fault = some (.own place)) : ∀ place, fault ≠ some (.recovery place) := by
  rintro place' rfl
  cases h

lemma beginPublish_cases (hjournal : w.journal = none) :
    ¬ Opens fault ∧ beginPublish fault w .undo = .ok { w with journal := some .undo } ∨
      Opens fault ∧ beginPublish fault w .undo = .error (.os, w) ∨
      fault = some (.own (.journal .sync)) ∧ beginPublish fault w .undo = .error (.os, { w with journal := some .undo }) := by
  unfold beginPublish
  split
  · rename_i hcheck
    exact .inr (.inl ⟨.inl hcheck, rfl⟩)
  · rename_i hcheck
    rw [hjournal]
    rcases @replaces_cases fault _ (fun part => .own (.journal part)) w { w with journal := some .undo } with
      ⟨hok, hr⟩ | ⟨hbefore, hr⟩ | ⟨hsync, hr⟩
    · refine .inl ⟨?_, by simp [hr]⟩
      rintro (hopens | ⟨part, -, hopens⟩)
      · exact hcheck hopens
      · exact hok part hopens
    · exact .inr (.inl ⟨.inr hbefore, by simp [hr]⟩)
    · exact .inr (.inr ⟨hsync, by simp [hr]⟩)

def Harmless (fault : Option Step) : Prop :=
  fault = some (.own .arrival) ∨ fault = some (.own .look) ∨ fault = some (.own .backup) ∨ fault = some (.own (.journal .sync)) ∨
    ∃ path, FailsAt fault path

def Outcome (p : Setting) (fault : Option Step) (base : Disk) (w : World) (result : Except UndoProblem Unit × World) : Prop :=
  Opens fault ∧ raises result = true ∧ result.2.stored = .conflicted ∨
    Harmless fault ∧ raises result = true ∧ TakenBack p base w result.2 ∨
    ¬ Opens fault ∧ (raises result = true ↔ ∃ step, fault = some step ∧ Ends step) ∧ PutBack p base w result.2

include h in
lemma putBack_outcome (hjournal : w.journal = none) :
    Outcome p fault base w (putBack p fault w (targets p base)) := by
  unfold putBack
  rcases @beginPublish_cases fault w hjournal with ⟨hopens, hbegin⟩ | ⟨hopens, hbegin⟩ | ⟨hsync, hbegin⟩ <;> rw [hbegin] <;> simp only
  · have hstaged : ∀ target ∈ (targets p base).reverse, node w.disk target.1.path = staged p target.1 := fun target htarget =>
      h.content target.1 (targets_back h target htarget).1
    rcases @undoFiles_outcome p fault w.disk base h.ready _ (targets_back h) (targets_nodup h) ⟨w.disk, [], []⟩ h.sides
      (by simp [TakesBack]) hstaged with ⟨q, hfiles, hsides, hdone, -⟩ | ⟨problem, q, hfiles, hsides, hrows, path, hfails⟩
    · rw [hfiles]
      refine .inr (.inr ⟨hopens, finishUndo_raises _, ?_⟩)
      unfold PutBack
      rw [finishUndo_disk]
      refine ⟨hsides, fun item hitem => ?_⟩
      obtain ⟨target, htarget, rfl⟩ := mem_targets hitem
      exact hdone target htarget
    · rw [hfiles]
      have hown := hfails
      obtain ⟨touch, hown⟩ := hown
      obtain ⟨hraises, htaken⟩ := @failUndo_taken p fault base w h (not_recovery hown)
        { w with journal := some .undo, disk := takeBack q } problem (sides_takeBack h.ready hsides hrows) rfl rfl h.known h.stage
      exact .inr (.inl ⟨.inr (.inr (.inr (.inr ⟨path, hfails⟩))), hraises, htaken⟩)
  · have hown : ∀ place, fault ≠ some (.recovery place) := by
      rcases hopens with hcheck | ⟨part, -, hpart⟩
      · exact not_recovery hcheck
      · exact not_recovery hpart
    obtain ⟨hraises, hstored⟩ := @failUndo_lost p fault w hown .os hjournal
    exact .inl ⟨hopens, hraises, hstored⟩
  · obtain ⟨hraises, htaken⟩ := @failUndo_taken p fault base w h (not_recovery hsync) { w with journal := some .undo } .os
      h.sides rfl rfl h.known h.stage
    exact .inr (.inl ⟨.inr (.inr (.inr (.inl hsync))), hraises, htaken⟩)

include h in
lemma Applied.takenBack (hjournal : w.journal = none) : TakenBack p base w w :=
  ⟨h.sides, h.content, rfl, hjournal, h.stored, h.known, h.stage⟩

include h in
lemma undoKnown_outcome (hjournal : w.journal = none) : Outcome p fault base w (undoKnown p fault w) := by
  by_cases hlook : fault = some (.own .look)
  · have hraised : undoKnown p fault w = (.error .os, w) := by simp [undoKnown, h.known, hlook]
    rw [hraised]
    exact .inr (.inl ⟨.inr (.inl hlook), rfl, h.takenBack hjournal⟩)
  · by_cases hbackup : fault = some (.own .backup)
    · have hraised : undoKnown p fault w = (.error .backupInvalid, w) := by simp [undoKnown, h.known, h.stage, hbackup]
      rw [hraised]
      exact .inr (.inl ⟨.inr (.inr (.inl hbackup)), rfl, h.takenBack hjournal⟩)
    · rw [undoKnown_eq h hlook hbackup]
      exact putBack_outcome h hjournal

include h in
lemma Applied.closed : Applied p base { w with journal := none } :=
  { h with journal := by simp }

include h in
/-- The journal that `apply` left is removed first, if that succeeds. -/
lemma recover_applied (hjournal : w.journal = some .apply) :
    (∀ place, place = .look ∨ place = .close ∨ place = .closeSync → fault ≠ some (.recovery place)) ∧
        recoverPublish p fault w = .ok { w with journal := none } ∨
      (∃ place, (place = .look ∨ place = .close ∨ place = .closeSync) ∧ fault = some (.recovery place)) ∧
        ∃ w', recoverPublish p fault w = .ok w' ∧ w'.stored = .conflicted ∧ w'.known = .conflicted := by
  have hgiveUp : ∀ {place}, place = Place.look ∨ place = .close ∨ place = .closeSync → fault = some (.recovery place) →
      ∀ {w₁}, tryRecover p fault w = .error w₁ →
        ∃ w', recoverPublish p fault w = .ok w' ∧ w'.stored = .conflicted ∧ w'.known = .conflicted := by
    intro place hplace hfault w₁ htried
    rw [recoverPublish, htried]
    simp only
    rw [mark_ok]
    · exact ⟨_, rfl, rfl, rfl⟩
    · intro part hpart
      rw [hfault] at hpart
      rcases hplace with rfl | rfl | rfl <;> cases hpart
  by_cases hlook : fault = some (.recovery .look)
  · have htried : tryRecover p fault w = .error w := by simp [tryRecover, hjournal, hlook]
    exact .inr ⟨⟨_, .inl rfl, hlook⟩, hgiveUp (.inl rfl) hlook htried⟩
  · have htry : tryRecover p fault w = finishPublish fault .recovery w := by
      simp [tryRecover, hjournal, hlook, h.known, Operation.committed]
    by_cases hclose : fault = some (.recovery .close)
    · have htried : tryRecover p fault w = .error w := by rw [htry, finishPublish, if_pos hclose]
      exact .inr ⟨⟨_, .inr (.inl rfl), hclose⟩, hgiveUp (.inr (.inl rfl)) hclose htried⟩
    · by_cases hsync : fault = some (.recovery .closeSync)
      · have htried : tryRecover p fault w = .error { w with journal := none } := by
          rw [htry, finishPublish, if_neg hclose, if_pos hsync]
        exact .inr ⟨⟨_, .inr (.inr rfl), hsync⟩, hgiveUp (.inr (.inr rfl)) hsync htried⟩
      · refine .inl ⟨?_, by rw [recoverPublish, htry, finishPublish_ok hclose hsync]⟩
        rintro place (rfl | rfl | rfl)
        · exact hlook
        · exact hclose
        · exact hsync

include h in
lemma undo_restores : raises (undo p none w) = false ∧ Restored p base w.disk (undo p none w).2.disk := by
  have hknown : ∀ w₁ : World, Applied p base w₁ → w₁.journal = none → w₁.disk = w.disk →
      raises (undoKnown p none w₁) = false ∧ Restored p base w.disk (undoKnown p none w₁).2.disk := by
    intro w₁ h₁ hjournal₁ hdisk
    rcases @undoKnown_outcome p none base w₁ h₁ hjournal₁ with ⟨hopens, -⟩ | ⟨hharmless, -⟩ | ⟨-, hraises, hput⟩
    · simp [Opens] at hopens
    · simp [Harmless, FailsAt] at hharmless
    · exact ⟨by simpa using hraises, hdisk ▸ hput.restored⟩
  unfold undo
  rw [if_neg (by simp)]
  cases hjournal : w.journal with
  | none => exact hknown w h hjournal rfl
  | some operation =>
    cases operation with
    | undo => exact absurd hjournal h.journal
    | apply =>
      rcases @recover_applied p none base w h hjournal with ⟨-, hrecover⟩ | ⟨⟨_, _, hfault⟩, -⟩
      · rw [hrecover]
        exact hknown _ h.closed rfl rfl
      · cases hfault

include h in
lemma TakenBack.losesNothing {w' : World} (htaken : TakenBack p base w w') : LosesNothing p base w w' := by
  obtain ⟨hraises, hitems, hothers⟩ := undo_restores (htaken.applied h)
  refine ⟨htaken.content, htaken.stored, hraises, hitems, fun path hout => ?_⟩
  rw [hothers path hout]
  rcases htaken.sides.outside path hout with hsame | ⟨hnone, hmade⟩
  · rw [hsame]
  · rw [hnone, hmade]
    rfl

include h in
lemma Applied.losesNothing : LosesNothing p base w w := ⟨h.content, h.stored, undo_restores h⟩

lemma not_conflicted {w' : World} (hstored : w'.stored = .conflicted) : ¬ LosesNothing p base w w' := by
  rintro ⟨-, happlied, -⟩
  rw [hstored] at happlied
  cases happlied

lemma harmless_step {step : Step} (h : Harmless (some step)) : ¬ Opens (some step) ∧ ¬ Ends step := by
  rcases h with h | h | h | h | ⟨path, touch, h⟩ <;> obtain rfl := Option.some.inj h <;> simp [Opens, Ends]

include h in
lemma Outcome.loses_iff {step : Step} {result : Except UndoProblem Unit × World}
    (hout : Outcome p (some step) base w result) :
    (raises result = true → LosesNothing p base w result.2) ↔ ¬ Opens (some step) ∧ ¬ Ends step := by
  rcases hout with ⟨hopens, hraises, hstored⟩ | ⟨hharmless, -, htaken⟩ | ⟨hopens, hraises, hput⟩
  · constructor
    · intro hkept
      exact absurd (hkept hraises) (not_conflicted hstored)
    · intro hnot
      exact absurd hopens hnot.1
  · exact ⟨fun _ => harmless_step hharmless, fun _ _ => htaken.losesNothing h⟩
  · constructor
    · intro hkept
      exact ⟨hopens, fun hends => hput.loses h (hkept (hraises.mpr ⟨step, rfl, hends⟩))⟩
    · rintro ⟨-, hends⟩ hraised
      obtain ⟨_, hsome, hend⟩ := hraises.mp hraised
      obtain rfl := Option.some.inj hsome
      exact absurd hend hends

lemma loses_opens {step : Step} (h : Opens (some step) ∨ Ends step) : Loses w step := by
  rcases h with h | h
  · rcases h with h | ⟨part, hpart, h⟩ <;> obtain rfl := Option.some.inj h
    · trivial
    · exact hpart
  · unfold Ends at h
    split at h
    · trivial
    · trivial
    · trivial
    · exact h.elim

lemma loses_cases {step : Step} (h : Loses w step) : (Opens (some step) ∨ Ends step) ∨
    w.journal = some .apply ∧ ∃ place, (place = .look ∨ place = .close ∨ place = .closeSync) ∧ step = .recovery place := by
  unfold Loses at h
  split at h
  · exact .inl (.inl (.inl rfl))
  · exact .inl (.inr trivial)
  · exact .inl (.inr trivial)
  · exact .inl (.inr trivial)
  · exact .inl (.inl (.inr ⟨_, h, rfl⟩))
  · exact .inr ⟨h, _, .inl rfl, rfl⟩
  · exact .inr ⟨h, _, .inr (.inl rfl), rfl⟩
  · exact .inr ⟨h, _, .inr (.inr rfl), rfl⟩
  · exact h.elim

/-- For every applied change set and every operation that may fail: an undo that raises loses
    nothing just where it is not the writing of the journal, or the end of the undo. -/
theorem undo_loses_nothing (p : Setting) (base : Disk) (w : World) (h : Applied p base w) (step : Step) :
    (raises (undo p (some step) w) = true → LosesNothing p base w (undo p (some step) w).2) ↔ ¬ Loses w step := by
  by_cases harrival : some step = some (.own .arrival)
  · obtain rfl := Option.some.inj harrival
    have hraised : undo p (some (.own .arrival)) w = (.error .os, w) := by simp [undo]
    rw [hraised]
    exact ⟨fun _ hloses => hloses, fun _ _ => h.losesNothing⟩
  · cases hjournal : w.journal with
    | none =>
      have hknown : undo p (some step) w = undoKnown p (some step) w := by rw [undo, if_neg harrival, hjournal]; rfl
      rw [hknown, (undoKnown_outcome h hjournal).loses_iff h, ← not_or]
      refine not_congr ⟨loses_opens, fun hloses => (loses_cases hloses).resolve_right fun hleft => ?_⟩
      rw [hjournal] at hleft
      cases hleft.1
    | some operation =>
      cases operation with
      | undo => exact absurd hjournal h.journal
      | apply =>
        rcases @recover_applied p (some step) base w h hjournal with ⟨hgood, hrecover⟩ | ⟨⟨place, hplace, hfault⟩, w', hrecover, hstored, hknown'⟩
        · have hknown : undo p (some step) w = undoKnown p (some step) { w with journal := none } := by
            simp only [undo, harrival, if_false, hjournal, Option.isSome_some, if_true, hrecover]
          rw [hknown]
          refine ((undoKnown_outcome h.closed rfl).loses_iff h.closed).trans ?_
          rw [← not_or]
          refine not_congr ⟨loses_opens, fun hloses => (loses_cases hloses).resolve_right ?_⟩
          rintro ⟨-, place, hplace, rfl⟩
          exact hgood place hplace rfl
        · -- the status is no longer what an undo starts from
          have hraised : undo p (some step) w = (.error .notApplied, w') := by
            simp [undo, harrival, hjournal, hrecover, undoKnown, hknown']
          rw [hraised]
          obtain rfl := Option.some.inj hfault
          constructor
          · intro hkept
            exact absurd (hkept rfl) (not_conflicted hstored)
          · rcases hplace with rfl | rfl | rfl
            · exact fun hnot => absurd hjournal hnot
            · exact fun hnot => absurd hjournal hnot
            · exact fun hnot => absurd hjournal hnot

def exampleWorld : World := ⟨[(["main.cpp"], .file [])], some [], none, .applied, .applied, true⟩

lemma exampleWorld_applied : Applied exampleSetting [] exampleWorld where
  some_file := by decide
  files := exampleSetting_prepared.files
  paths := exampleSetting_prepared.paths
  apart := by
    intro x hx y hy _
    rw [List.mem_singleton.mp hx, List.mem_singleton.mp hy]
  content := by
    intro item hitem
    obtain rfl := List.mem_singleton.mp hitem
    decide
  above := by
    intro item hitem dir hdir hne
    obtain rfl := List.mem_singleton.mp hitem
    rcases List.prefix_cons_iff.mp hdir with rfl | ⟨rest, rfl, hrest⟩
    · rfl
    · exact absurd (by rw [List.prefix_nil.mp hrest]) hne
  backups := by
    refine ⟨[], rfl, fun j hj content hcontent => ?_⟩
    obtain rfl := List.mem_singleton.mp hj
    cases hcontent
  stored := rfl
  known := rfl
  journal := by decide
  stage := rfl

/-- The removal of the file fails: it is there again, and can be removed. -/
theorem undo_loses_nothing_removal : LosesNothing exampleSetting [] exampleWorld
    (undo exampleSetting (some (.own (.file ["main.cpp"] .remove))) exampleWorld).2 :=
  (undo_loses_nothing exampleSetting [] exampleWorld exampleWorld_applied (.own (.file ["main.cpp"] .remove))).mpr id (by decide +kernel)

/-- The temporary file of the journal cannot be made: the change set is conflicted, and cannot be undone. -/
theorem journal_lost : Applied exampleSetting [] exampleWorld ∧
    raises (undo exampleSetting (some (.own (.journal .temporary))) exampleWorld) = true ∧
    (undo exampleSetting (some (.own (.journal .temporary))) exampleWorld).2.stored = .conflicted ∧
    raises (undo exampleSetting none (undo exampleSetting (some (.own (.journal .temporary))) exampleWorld).2) = true ∧
    ¬ LosesNothing exampleSetting [] exampleWorld (undo exampleSetting (some (.own (.journal .temporary))) exampleWorld).2 := by
  have hstored : (undo exampleSetting (some (.own (.journal .temporary))) exampleWorld).2.stored = .conflicted := by decide +kernel
  exact ⟨exampleWorld_applied, by decide +kernel, hstored, by decide +kernel, not_conflicted hstored⟩

end PromptForge.ChangeSetUndo
