import PromptForge.ChangeSetRoundTrip
import PromptForge.RecoveryDraftLaws

namespace PromptForge.RecoveryDrafts
open Runs Tables ChangeSets ChangeSetCreation ChangeSetUndo

variable {host : Host} {disk disk' stage workspace compact : Disk} {baseline : Snapshot} {path : Path} {root : String}

section Draft
variable (hexact : ∀ name, host.normcase name = name) (hbaseline : inspectWorkspace host root workspace = .ok baseline)
  (hstage : IsTree (node stage))

lemma mem_changed : path ∈ changedPaths host stage baseline ↔ path ∈ filesOf stage ∧ isChanged host stage baseline path = true :=
  List.mem_filter

lemma changed_apart (hstage : IsTree (node stage)) : Apart (changedPaths host stage baseline) := by
  intro x hx y hy habove
  by_contra hne
  have hx := (file_of_mem (mem_changed.mp hx).1).1
  have hy := (file_of_mem (mem_changed.mp hy).1).1
  rw [hstage y x habove hne (by simp [hy])] at hx
  cases hx

lemma changed_kept (path : Path) (h : path ∈ changedPaths host stage baseline) : path ∈ filesOf stage := (mem_changed.mp h).1

include hbaseline in
lemma mem_deleted : path ∈ deletedPaths stage baseline ↔ path ∈ filesOf workspace ∧ isSafeRelative path = true ∧ path ∉ filesOf stage := by
  unfold deletedPaths
  rw [List.mem_filter, (snapshot_paths hbaseline).2.2 path]
  simp [and_assoc]

lemma internal_unsafe (hsafe : isSafeRelative path = true) : path ∉ internalFiles := by
  intro hmem
  obtain rfl := List.mem_singleton.mp hmem
  revert hsafe
  decide

lemma isChanged_iff (hbaseline : inspectWorkspace host root workspace = .ok baseline) (hsafe : isSafeRelative path = true) :
    isChanged host stage baseline path = true ↔ ¬ (path ∈ filesOf workspace ∧ host.hash (contentAt workspace path) = host.hash (contentAt stage path)) := by
  have hinternal := internal_unsafe hsafe
  unfold isChanged
  rw [hashOf_snapshot hbaseline]
  simp only [hinternal, not_false_eq_true, decide_true, Bool.true_and, decide_eq_true_eq, hsafe, and_true]
  split
  · rename_i hmem
    simp [hmem]
  · rename_i hmem
    simp [hmem]

lemma compact_made (hstage : IsTree (node stage)) : ∃ compact, Compact stage (changedPaths host stage baseline) compact ∧
    (changedPaths host stage baseline).foldlM (fun disk path => copyTo disk path (contentAt stage path)) [] = .ok compact := by
  have hpaths : ∀ path ∈ changedPaths host stage baseline, path ≠ [] := fun path hpath => (file_of_mem (changed_kept path hpath)).2.2
  obtain ⟨compact, hcopies, hcompact⟩ := (compact_empty stage).copies (changed_apart hstage) hpaths
  exact ⟨compact, hcompact, hcopies⟩

lemma createReviewDraft_of (hstage : IsTree (node stage)) (hlimits : WithinLimits host stage baseline)
    (hbaseline : inspectWorkspace host root workspace = .ok baseline)
    (hsafe : ∀ path ∈ changedPaths host stage baseline, isSafeRelative path = true) :
    ∃ compact, Compact stage (changedPaths host stage baseline) compact ∧
      ∀ p, createFromStage host root compact baseline (changedPaths host stage baseline ++ deletedPaths stage baseline)
        (deletedPaths stage baseline) = .ok p → createReviewDraft host root stage baseline = .ok ⟨root, p⟩ := by
  obtain ⟨compact, hcompact, hcopies⟩ := @compact_made host stage baseline hstage
  refine ⟨compact, hcompact, fun p hp => ?_⟩
  have hdeleted : ∀ path ∈ deletedPaths stage baseline, isSafeRelative path = true := fun path hpath =>
    ((mem_deleted hbaseline).mp hpath).2.1
  unfold createReviewDraft
  rw [bind_ok (walk_within hlimits.entries), draftPaths_files hlimits, if_pos hsafe, bind_ok rfl]
  simp only
  rw [require_bind ⟨hlimits.paths, hdeleted⟩, bind_ok hcopies, bind_ok hp]

lemma createReviewDraft_ok (hstage : IsTree (node stage)) {draft : ReviewDraft} (h : createReviewDraft host root stage baseline = .ok draft) :
    (∀ path ∈ changedPaths host stage baseline, isSafeRelative path = true) ∧ ∃ compact,
      Compact stage (changedPaths host stage baseline) compact ∧
      createFromStage host root compact baseline (changedPaths host stage baseline ++ deletedPaths stage baseline)
        (deletedPaths stage baseline) = .ok draft.changes := by
  unfold createReviewDraft at h
  obtain ⟨walked, hwalk, h⟩ := ok_of_bind h
  obtain ⟨paths, hpaths, h⟩ := ok_of_bind h
  simp only at h
  obtain ⟨_, -, h⟩ := ok_of_bind h
  obtain ⟨compact, hcopies, h⟩ := ok_of_bind h
  obtain ⟨p, hp, h⟩ := ok_of_bind h
  cases h
  obtain rfl : walked = filesOf stage := (walk_ok (mapError_ok.mp hwalk)).2
  obtain ⟨hresult, hsafe⟩ := draftPaths_ok hpaths
  obtain rfl : paths = changedPaths host stage baseline := hresult
  obtain ⟨compact', hcompact, hcopies'⟩ := @compact_made host stage baseline hstage
  rw [hcopies] at hcopies'
  cases hcopies'
  exact ⟨hsafe, compact, hcompact, hp⟩

end Draft

section Names
variable {changed : List ChangedFile} {item : ChangedFile}

variable (hexact : ∀ name, host.normcase name = name)

include hexact in
lemma canonical_same {known paths : List Path}
    (h : ∀ path ∈ paths, isSafeRelative path = true ∧ strip path = path) : paths.mapM (canonical host known) = .ok paths := by
  have hnamed : paths.mapM (canonical host known) = .ok (paths.map id) := mapM_ok fun path hpath => by
    rw [canonical_exact hexact (h path hpath).1, (h path hpath).2]
    rfl
  rwa [List.map_id] at hnamed

include hexact in
lemma stagedChange_kept (hcompact : Compact stage (changedPaths host stage baseline) compact)
    (hpath : path ∈ changedPaths host stage baseline) (hsafe : isSafeRelative path = true) :
    ∃ item, stagedChange host compact baseline path = .ok (some item) := by
  have hdiffers : baseline.hashOf path ≠ some (host.hash (contentAt stage path)) := by
    have hchanged := (mem_changed.mp hpath).2
    simp only [isChanged, Bool.and_eq_true, decide_eq_true_eq] at hchanged
    exact hchanged.2
  unfold stagedChange
  rw [keyed_exact hexact, key_exact hexact, hcompact.files path hpath, hsafe]
  simp only [Bool.not_true, Bool.false_eq_true, if_false]
  cases hprevious : baseline.hashOf path with
  | none => exact ⟨_, rfl⟩
  | some previous =>
    rw [hprevious] at hdiffers
    exact ⟨_, if_neg fun hsame => hdiffers (by rw [hsame])⟩

lemma deletedChange_gone (hbaseline : inspectWorkspace host root workspace = .ok baseline) (hpath : path ∈ deletedPaths stage baseline) :
    ∃ item, deletedChange baseline path = some item := by
  obtain ⟨hfile, hsafe, -⟩ := (mem_deleted hbaseline).mp hpath
  exact ⟨_, by rw [deletedChange, hashOf_snapshot hbaseline, if_pos ⟨hfile, hsafe⟩]; rfl⟩

include hexact in
lemma settingOf_exact (changed : List ChangedFile) :
    (settingOf host compact baseline changed).changedFiles = changed ∧ (settingOf host compact baseline changed).stage = node compact := by
  constructor
  · simp [settingOf, key_exact hexact]
  · simp [settingOf, keyed_exact hexact]

structure Named (stage : Disk) (kept gone : List Path) (changed : List ChangedFile) : Prop where
  items : ∀ item ∈ changed, item.changeType ≠ .deleted ∧ item.path ∈ kept ∨ item.changeType = .deleted ∧ item.path ∈ gone
  keeps : ∀ path ∈ kept, ∃ item ∈ changed, item.path = path ∧ item.changeType ≠ .deleted
  deletes : ∀ path ∈ gone, ∃ item ∈ changed, item.path = path ∧ item.changeType = .deleted
  paths : (changed.map ChangedFile.path).Nodup

variable {found staged gone : List Path} {written : List (Option ChangedFile)}

lemma staged_type {relative : Path} (h : stagedChange host compact baseline relative = .ok (some item)) : item.changeType ≠ .deleted := by
  obtain ⟨_, -, -, -, -, ⟨htype, -⟩ | ⟨htype, -⟩⟩ := stagedChange_ok h <;> simp [htype]

include hexact in
lemma made_items (hcompact : Compact stage (changedPaths host stage baseline) compact)
    (hmade : Made host compact baseline (changedPaths host stage baseline ++ deletedPaths stage baseline) (deletedPaths stage baseline) changed
      found staged gone written) (hitem : item ∈ changed) :
    item.changeType ≠ .deleted ∧ (∃ path ∈ changedPaths host stage baseline, item.path = strip path) ∨
      item.changeType = .deleted ∧ ∃ path ∈ deletedPaths stage baseline, item.path = strip path := by
  obtain ⟨walked, hwalk, hfound⟩ := hmade.walked
  rcases hmade.cases hitem with ⟨relative, hrelative, hchange⟩ | ⟨relative, hrelative, hchange⟩
  · obtain ⟨path, hpath, hcanonical⟩ := (mapM_mem hmade.named).1 _ hrelative
    obtain ⟨-, -, hsame, -⟩ := stagedChange_ok hchange
    rw [hfound, (walk_ok hwalk).2] at hpath
    exact .inl ⟨staged_type hchange, path, (hcompact.filesOf_iff changed_kept).mp (List.mem_filter.mp hpath).1,
      hsame.trans (strip_of_canonical hexact hcanonical).2⟩
  · obtain ⟨path, hpath, hcanonical⟩ := (mapM_mem hmade.deletes).1 _ hrelative
    obtain ⟨hsame, htype, -⟩ := deletedChange_ok hchange
    exact .inr ⟨htype, path, hpath, hsame.trans (strip_of_canonical hexact hcanonical).2⟩

include hexact in
lemma made_named (hbaseline : inspectWorkspace host root workspace = .ok baseline)
    (hcompact : Compact stage (changedPaths host stage baseline) compact)
    (hsafe : ∀ path ∈ changedPaths host stage baseline, isSafeRelative path = true)
    (hblanks : ∀ path ∈ changedPaths host stage baseline ++ deletedPaths stage baseline, strip path = path)
    (hmade : Made host compact baseline (changedPaths host stage baseline ++ deletedPaths stage baseline) (deletedPaths stage baseline) changed
      found staged gone written) : Named stage (changedPaths host stage baseline) (deletedPaths stage baseline) changed := by
  obtain ⟨walked, hwalk, hfound⟩ := hmade.walked
  refine ⟨fun item hitem => ?_, fun path hpath => ?_, fun path hpath => ?_, hmade.paths⟩
  · rcases made_items hexact hcompact hmade hitem with ⟨htype, path, hpath, hsame⟩ | ⟨htype, path, hpath, hsame⟩
    · rw [hblanks path (List.mem_append_left _ hpath)] at hsame
      exact .inl ⟨htype, hsame ▸ hpath⟩
    · rw [hblanks path (List.mem_append_right _ hpath)] at hsame
      exact .inr ⟨htype, hsame ▸ hpath⟩
  · have hmem : path ∈ found := by
      rw [hfound, (walk_ok hwalk).2]
      have hchanged := (mem_changed.mp hpath).2
      simp only [isChanged, Bool.and_eq_true, decide_eq_true_eq] at hchanged
      exact List.mem_filter.mpr ⟨(hcompact.filesOf_iff changed_kept).mpr hpath, by simpa using hchanged.1⟩
    obtain ⟨relative, hrelative, hcanonical⟩ := (mapM_mem hmade.named).2 path hmem
    obtain ⟨-, hsame⟩ := strip_of_canonical hexact hcanonical
    rw [hblanks path (List.mem_append_left _ hpath)] at hsame
    obtain ⟨item, hitem⟩ := stagedChange_kept hexact hcompact hpath (hsafe path hpath)
    obtain ⟨y, hy, hchange⟩ := (mapM_mem hmade.writes).2 path (mem_sorted.mpr (hsame ▸ hrelative))
    rw [hitem] at hchange
    cases hchange
    refine ⟨item, ?_, (stagedChange_ok hitem).choose_spec.2.1, staged_type hitem⟩
    rw [hmade.items]
    exact List.mem_append_left _ (List.mem_filterMap.mpr ⟨_, hy, rfl⟩)
  · obtain ⟨relative, hrelative, hcanonical⟩ := (mapM_mem hmade.deletes).2 path hpath
    obtain ⟨-, hsame⟩ := strip_of_canonical hexact hcanonical
    rw [hblanks path (List.mem_append_right _ hpath)] at hsame
    obtain ⟨item, hitem⟩ := deletedChange_gone hbaseline hpath
    obtain ⟨hpathOf, htype, -⟩ := deletedChange_ok hitem
    refine ⟨item, ?_, hpathOf, htype⟩
    rw [hmade.items]
    exact List.mem_append_right _ (List.mem_filterMap.mpr ⟨path, mem_sorted.mpr (hsame ▸ hrelative), hitem⟩)

lemma filter_safe {paths : List Path} (h : ∀ path ∈ paths, isSafeRelative path = true) :
    paths.filter (fun path => decide (path ∉ internalFiles)) = paths :=
  List.filter_eq_self.mpr fun path hpath => by simpa using internal_unsafe (h path hpath)

structure Sound (host : Host) (workspace stage : Disk) (baseline : Snapshot) : Prop where
  safe : ∀ path ∈ changedPaths host stage baseline ++ deletedPaths stage baseline, isSafeRelative path = true
  blanks : ∀ path ∈ changedPaths host stage baseline ++ deletedPaths stage baseline, strip path = path
  places : ∀ path ∈ changedPaths host stage baseline, node workspace path ≠ some .directory ∧
    ∀ dir, dir <+: path → dir ≠ path → contentOf (node workspace dir) = none

lemma sound_of (hbaseline : inspectWorkspace host root workspace = .ok baseline) (h : Recoverable host workspace stage baseline) :
    Sound host workspace stage baseline := by
  refine ⟨fun path hpath => ?_, h.blanks, h.places⟩
  rcases List.mem_append.mp hpath with hpath | hpath
  · obtain ⟨hfile, hchanged⟩ := mem_changed.mp hpath
    simp only [isChanged, Bool.and_eq_true, decide_eq_true_eq] at hchanged
    exact h.safe path hfile hchanged.1
  · exact ((mem_deleted hbaseline).mp hpath).2.1

include hexact in
lemma changesOf_of (hstage : IsTree (node stage)) (hlimits : WithinLimits host stage baseline)
    (hbaseline : inspectWorkspace host root workspace = .ok baseline) (hsound : Sound host workspace stage baseline)
    (hsome : changedPaths host stage baseline ≠ [] ∨ deletedPaths stage baseline ≠ [])
    (hcompact : Compact stage (changedPaths host stage baseline) compact) :
    ∃ changed, changesOf host compact baseline (changedPaths host stage baseline ++ deletedPaths stage baseline) (deletedPaths stage baseline) =
      .ok changed := by
  have hkept : ∀ path, path ∈ filesOf compact ↔ path ∈ changedPaths host stage baseline := fun path => hcompact.filesOf_iff changed_kept
  have hsafe : ∀ path ∈ filesOf compact, isSafeRelative path = true := fun path hpath =>
    hsound.safe path (List.mem_append_left _ ((hkept path).mp hpath))
  have hgone : ∀ path ∈ deletedPaths stage baseline, path ∉ filesOf compact := fun path hpath hfile =>
    ((mem_deleted hbaseline).mp hpath).2.2 (changed_kept path ((hkept path).mp hfile))
  obtain ⟨written, hwritten⟩ : ∃ written, (sorted (filesOf compact)).mapM (stagedChange host compact baseline) = .ok written := by
    refine mapM_exists fun path hpath => ?_
    have hfile := mem_sorted.mp hpath
    obtain ⟨item, hitem⟩ := stagedChange_kept hexact hcompact ((hkept path).mp hfile) (hsafe path hfile)
    exact ⟨_, hitem⟩
  have hchanged : written.filterMap id ++ (sorted (deletedPaths stage baseline)).filterMap (deletedChange baseline) ≠ [] := by
    rcases hsome with hsome | hsome
    · obtain ⟨path, hpath⟩ := List.exists_mem_of_ne_nil _ hsome
      have hfile := (hkept path).mpr hpath
      obtain ⟨y, hy, hchange⟩ := (mapM_mem hwritten).2 path (mem_sorted.mpr hfile)
      obtain ⟨item, hitem⟩ := stagedChange_kept hexact hcompact hpath (hsafe path hfile)
      rw [hitem] at hchange
      cases hchange
      have hmem : item ∈ written.filterMap id := List.mem_filterMap.mpr ⟨some item, hy, rfl⟩
      exact List.append_ne_nil_of_left_ne_nil (List.ne_nil_of_mem hmem) _
    · obtain ⟨path, hpath⟩ := List.exists_mem_of_ne_nil _ hsome
      obtain ⟨item, hitem⟩ := deletedChange_gone hbaseline hpath
      exact List.append_ne_nil_of_right_ne_nil _ (List.ne_nil_of_mem (List.mem_filterMap.mpr ⟨path, mem_sorted.mpr hpath, hitem⟩))
  have hextra : filesOf compact ⊆ changedPaths host stage baseline ++ deletedPaths stage baseline := fun path hpath =>
    List.mem_append_left _ ((hkept path).mp hpath)
  refine ⟨written.filterMap id ++ (sorted (deletedPaths stage baseline)).filterMap (deletedChange baseline), ?_⟩
  have hnames : ∀ known, (filesOf compact).mapM (canonical host known) = .ok (filesOf compact) := fun known =>
    canonical_same hexact fun path hpath => ⟨hsafe path hpath, hsound.blanks path (List.mem_append_left _ ((hkept path).mp hpath))⟩
  have hallowed : ∀ known, (changedPaths host stage baseline ++ deletedPaths stage baseline).mapM (canonical host known) =
      .ok (changedPaths host stage baseline ++ deletedPaths stage baseline) := fun known =>
    canonical_same hexact fun path hpath => ⟨hsound.safe path hpath, hsound.blanks path hpath⟩
  have hremoved : ∀ known, (deletedPaths stage baseline).mapM (canonical host known) = .ok (deletedPaths stage baseline) := fun known =>
    canonical_same hexact fun path hpath =>
      ⟨hsound.safe path (List.mem_append_right _ hpath), hsound.blanks path (List.mem_append_right _ hpath)⟩
  unfold changesOf
  rw [bind_ok (walk_within (le_trans (hcompact.entries_le changed_kept hstage) hlimits.entries))]
  simp only [filter_safe hsafe, filter_safe hsound.safe]
  rw [bind_ok (hnames _), bind_ok (hallowed _), bind_ok (hremoved _), require_bind ⟨List.subset_append_right _ _, hgone⟩,
    require_bind hextra, bind_ok hwritten, require_bind hchanged]

lemma deleted_gone (hcompact : Compact stage (changedPaths host stage baseline) compact)
    (hbaseline : inspectWorkspace host root workspace = .ok baseline) (hsound : Sound host workspace stage baseline)
    (hpath : path ∈ deletedPaths stage baseline) : node compact path = none := by
  obtain ⟨hfile, -, hgone⟩ := (mem_deleted hbaseline).mp hpath
  obtain ⟨hnode, -, hne⟩ := file_of_mem hfile
  cases hfound : node compact path with
  | none => rfl
  | some n =>
    rcases hcompact.nodes path n hfound with hnil | ⟨hkept, -⟩ | ⟨-, other, hother, habove, hother'⟩
    · exact absurd hnil hne
    · exact absurd (changed_kept path hkept) hgone
    · -- a file of the workspace would be above a changed one
      have hnothing := (hsound.places other hother).2 path habove hother'
      rw [hnode] at hnothing
      cases hnothing

lemma manifest_of {p : Setting} (hcompact : Compact stage (changedPaths host stage baseline) compact)
    (hbaseline : inspectWorkspace host root workspace = .ok baseline) (hsound : Sound host workspace stage baseline) (hreads : p.stage = node compact)
    (hnamed : Named stage (changedPaths host stage baseline) (deletedPaths stage baseline) p.changedFiles) : ∃ files, manifest p = .ok files := by
  have hproblem : ∀ path ∈ changedPaths host stage baseline ++ deletedPaths stage baseline, pathProblem path = none := fun path hpath => by
    have hsafe := problem_of_safe (hsound.safe path hpath)
    rwa [hsound.blanks path hpath] at hsafe
  refine mapM_exists fun item hitem => ?_
  rcases hnamed.items item hitem with ⟨htype, hpath⟩ | ⟨htype, hpath⟩
  · rw [hproblem _ (List.mem_append_left _ hpath)]
    have hnode : p.stage item.path = some (.file (contentAt stage item.path)) := by rw [hreads, hcompact.files _ hpath]
    cases hkind : item.changeType with
    | deleted => exact absurd hkind htype
    | created => exact ⟨_, by simp [stagedFile, hnode]; rfl⟩
    | modified => exact ⟨_, by simp [stagedFile, hnode]; rfl⟩
  · rw [hproblem _ (List.mem_append_right _ hpath)]
    have hnode : p.stage item.path = none := by rw [hreads, deleted_gone hcompact hbaseline hsound hpath]
    exact ⟨_, by simp [htype, hnode]; rfl⟩

structure Drafted (host : Host) (compact : Disk) (baseline : Snapshot) (authorized deleted : List Path) (p : Setting) : Prop where
  made : ∃ found staged gone written, Made host compact baseline authorized deleted p.changedFiles found staged gone written
  reads : p.stage = node compact
  base : p.baseWorkspaceHash = baseline.treeHash
  digest : ∃ files, manifest p = .ok files ∧ p.stagedManifestHash = host.manifestHash files

include hexact in
lemma createFromStage_ok {authorized deleted : List Path} {p : Setting}
    (h : createFromStage host root compact baseline authorized deleted = .ok p) : Drafted host compact baseline authorized deleted p := by
  unfold createFromStage at h
  obtain ⟨_, -, h⟩ := ok_of_bind h
  obtain ⟨changed, hchanged, h⟩ := ok_of_bind h
  obtain ⟨files, hfiles, h⟩ := ok_of_bind h
  cases h
  obtain ⟨hitems, hreads⟩ := @settingOf_exact host compact baseline hexact changed
  refine ⟨?_, hreads, rfl, files, mapError_ok.mp hfiles, rfl⟩
  change ∃ found staged gone written, Made host compact baseline authorized deleted (settingOf host compact baseline changed).changedFiles _ _ _ _
  rw [hitems]
  exact changesOf_ok hchanged

include hexact in
lemma createFromStage_of (hstage : IsTree (node stage)) (hlimits : WithinLimits host stage baseline)
    (hbaseline : inspectWorkspace host root workspace = .ok baseline) (hsound : Sound host workspace stage baseline)
    (hsome : changedPaths host stage baseline ≠ [] ∨ deletedPaths stage baseline ≠ [])
    (hcompact : Compact stage (changedPaths host stage baseline) compact) :
    ∃ p, createFromStage host root compact baseline (changedPaths host stage baseline ++ deletedPaths stage baseline)
      (deletedPaths stage baseline) = .ok p := by
  obtain ⟨changed, hchanged⟩ := changesOf_of hexact hstage hlimits hbaseline hsound hsome hcompact
  obtain ⟨found, staged, gone, written, hmade⟩ := changesOf_ok hchanged
  obtain ⟨hitems, hreads⟩ := @settingOf_exact host compact baseline hexact changed
  have hnamed := made_named hexact hbaseline hcompact (fun path hpath => hsound.safe path (List.mem_append_left _ hpath)) hsound.blanks hmade
  obtain ⟨files, hfiles⟩ := manifest_of hcompact hbaseline hsound hreads (hitems.symm ▸ hnamed)
  refine ⟨{ settingOf host compact baseline changed with stagedManifestHash := host.manifestHash files }, ?_⟩
  unfold createFromStage
  rw [require_bind (snapshot_paths hbaseline).1, bind_ok hchanged]
  simp only
  rw [bind_ok (mapError_ok.mpr hfiles)]

lemma materialize_fold {authorized deleted : List Path} {p : Setting} {target : Disk} (h : Drafted host compact baseline authorized deleted p)
    (hbaseline : inspectWorkspace host root workspace = .ok baseline) :
    materializeReviewDraft host ⟨root, p⟩ root workspace target = p.changedFiles.foldlM (materializeFile p) target := by
  obtain ⟨files, hfiles, hdigest⟩ := h.digest
  unfold materializeReviewDraft
  rw [require_bind rfl, bind_ok (mapError_ok.mpr hbaseline)]
  simp only
  rw [require_bind h.base.symm, bind_ok (mapError_ok.mpr hfiles), require_bind hdigest.symm]

end Names

section Frames
variable {p : Setting} {item : ChangedFile} {items : List ChangedFile}

variable (h : materializeFile p disk item = .ok disk')

include h in
lemma materializeFile_ok : pathProblem item.path = none ∧
    (item.changeType = .deleted ∧ node disk item.path ≠ some .directory ∧ disk' = deleteRow Prod.fst item.path disk ∨
      item.changeType ≠ .deleted ∧ ∃ content, stagedFile p item.path = .ok content ∧ copyTo disk item.path content = .ok disk') := by
  unfold materializeFile at h
  split at h
  · cases h
  · rename_i hproblem
    refine ⟨hproblem, ?_⟩
    split at h
    · rename_i htype
      split at h
      · cases h
      · rename_i hnode
        cases h
        exact .inl ⟨htype, hnode, rfl⟩
    · rename_i htype
      split at h
      · cases h
      · rename_i content hstaged
        exact .inr ⟨htype, content, hstaged, h⟩

lemma ne_nil_of_problem (h : pathProblem path = none) : path ≠ [] := isSafe_ne_nil (by simp [isSafe, h])

lemma unchanged_content {q : Path} (h : Unchanged disk disk' path q) : contentOf (node disk' q) = contentOf (node disk q) := by
  rcases h with h | ⟨hnone, hdirectory, -⟩
  · rw [h]
  · rw [hnone, hdirectory]
    rfl

lemma copyTarget_cases (disk : Disk) (path : Path) : copyTarget disk path = path ∨ copyTarget disk path = path ++ [path.getLast?.getD ""] := by
  unfold copyTarget
  split
  · exact .inr rfl
  · exact .inl rfl

include h in
lemma materializeFile_content {q : Path} (hq : q ≠ item.path)
    (hbelow : q ≠ item.path ++ [item.path.getLast?.getD ""]) : contentOf (node disk' q) = contentOf (node disk q) := by
  obtain ⟨hproblem, ⟨-, -, rfl⟩ | ⟨-, content, -, hcopy⟩⟩ := materializeFile_ok h
  · rw [node_deleteRow (ne_nil_of_problem hproblem), if_neg hq]
  · have hcopied := copyTo_copied (ne_nil_of_problem hproblem) hcopy
    refine unchanged_content (hcopied.others q ?_)
    rcases copyTarget_cases disk item.path with htarget | htarget
    · rwa [htarget]
    · rwa [htarget]

include h in
lemma materializeFile_directory {q : Path} (hq : node disk q = some .directory) :
    node disk' q = some .directory := by
  obtain ⟨hproblem, ⟨-, hnode, rfl⟩ | ⟨-, content, -, hcopy⟩⟩ := materializeFile_ok h
  · rw [node_deleteRow (ne_nil_of_problem hproblem), if_neg]
    · exact hq
    · rintro rfl
      exact hnode hq
  · have hcopied := copyTo_copied (ne_nil_of_problem hproblem) hcopy
    have hother : q ≠ copyTarget disk item.path := by
      rintro rfl
      exact hcopied.place hq
    rcases hcopied.others q hother with hsame | ⟨hnone, -⟩
    · rw [hsame, hq]
    · rw [hq] at hnone
      cases hnone

include h in
lemma materializeFile_file {q : Path} (hq : q ≠ item.path)
    (hfile : (contentOf (node disk q)).isSome = true) : (contentOf (node disk' q)).isSome = true := by
  obtain ⟨hproblem, ⟨-, -, rfl⟩ | ⟨-, content, -, hcopy⟩⟩ := materializeFile_ok h
  · rwa [node_deleteRow (ne_nil_of_problem hproblem), if_neg hq]
  · have hcopied := copyTo_copied (ne_nil_of_problem hproblem) hcopy
    by_cases htarget : q = copyTarget disk item.path
    · rw [htarget, hcopied.file]
      rfl
    · rwa [unchanged_content (hcopied.others q htarget)]

end Frames

end PromptForge.RecoveryDrafts
