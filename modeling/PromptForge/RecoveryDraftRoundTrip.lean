import PromptForge.RecoveryDraftRuns

namespace PromptForge.RecoveryDrafts
open Runs Tables ChangeSets ChangeSetCreation ChangeSetUndo

variable {host : Host} {disk disk' stage workspace compact : Disk} {baseline : Snapshot} {path : Path} {root : String}

section Seeds
variable {p : Setting} {kept gone : List Path} {item : ChangedFile} {done rest : List ChangedFile}

/-- A draft with the files of the stage, of a workspace in which there is room for them. -/
structure Fit (workspace stage : Disk) (kept gone : List Path) (p : Setting) : Prop where
  named : Named stage kept gone p.changedFiles
  problem : ∀ path ∈ kept ++ gone, pathProblem path = none
  staged : ∀ path ∈ kept, p.stage path = some (.file (contentAt stage path))
  apart : Apart kept
  places : ∀ path ∈ kept, node workspace path ≠ some .directory ∧
    ∀ dir, dir <+: path → dir ≠ path → contentOf (node workspace dir) = none
  removed : ∀ path ∈ gone, (contentOf (node workspace path)).isSome = true

structure Seeded (workspace stage : Disk) (done : List ChangedFile) (disk : Disk) : Prop where
  files : ∀ item ∈ done, item.changeType ≠ .deleted → node disk item.path = some (.file (contentAt stage item.path))
  gone : ∀ item ∈ done, item.changeType = .deleted → node disk item.path = none
  others : ∀ q, (∀ item ∈ done, item.path ≠ q) → node disk q = node workspace q ∨ node workspace q = none ∧
    node disk q = some .directory ∧ ∃ item ∈ done, item.changeType ≠ .deleted ∧ q <+: item.path ∧ q ≠ item.path

lemma seeded_empty (workspace stage : Disk) : Seeded workspace stage [] workspace := ⟨by simp, by simp, fun _ _ => .inl rfl⟩

lemma Fit.path_kept (h : Fit workspace stage kept gone p) (hitem : item ∈ p.changedFiles) (htype : item.changeType ≠ .deleted) : item.path ∈ kept := by
  rcases h.named.items item hitem with ⟨-, hpath⟩ | ⟨hdeleted, -⟩
  · exact hpath
  · exact absurd hdeleted htype

lemma Fit.path_gone (h : Fit workspace stage kept gone p) (hitem : item ∈ p.changedFiles) (htype : item.changeType = .deleted) : item.path ∈ gone := by
  rcases h.named.items item hitem with ⟨hdeleted, -⟩ | ⟨-, hpath⟩
  · exact absurd htype hdeleted
  · exact hpath

lemma Fit.fresh (h : Fit workspace stage kept gone p) (hall : done ++ item :: rest = p.changedFiles) : ∀ other ∈ done, other.path ≠ item.path := by
  have hpaths := h.named.paths
  rw [← hall, List.map_append, List.nodup_append] at hpaths
  intro other hother hsame
  exact hpaths.2.2 other.path (List.mem_map_of_mem hother) item.path (by simp) hsame

lemma Seeded.way (h : Seeded workspace stage done disk) (hfit : Fit workspace stage kept gone p) (hall : done ++ item :: rest = p.changedFiles)
    (htype : item.changeType ≠ .deleted) : node disk item.path ≠ some .directory ∧
      ∀ dir, dir <+: item.path → dir ≠ item.path → contentOf (node disk dir) = none := by
  have hmem : ∀ other ∈ done, other ∈ p.changedFiles := fun other hother => hall ▸ List.mem_append_left _ hother
  have hpath : item.path ∈ kept := hfit.path_kept (by simp [← hall]) htype
  obtain ⟨hplace, hway⟩ := hfit.places item.path hpath
  constructor
  · rcases h.others item.path (hfit.fresh hall) with hsame | ⟨-, -, other, hother, hkind, habove, hne⟩
    · rwa [hsame]
    · exact absurd (hfit.apart item.path hpath other.path (hfit.path_kept (hmem other hother) hkind) habove) hne
  · intro dir hdir hne
    by_cases hout : ∀ other ∈ done, other.path ≠ dir
    · rcases h.others dir hout with hsame | ⟨-, hmade, -⟩
      · rw [hsame]
        exact hway dir hdir hne
      · rw [hmade]
        rfl
    · simp only [not_forall, Decidable.not_not] at hout
      obtain ⟨other, hother, rfl⟩ := hout
      by_cases hkind : other.changeType = .deleted
      · rw [h.gone other hother hkind]
        rfl
      · exact absurd (hfit.apart other.path (hfit.path_kept (hmem other hother) hkind) item.path hpath hdir) hne

lemma Seeded.step (h : Seeded workspace stage done disk) (hfit : Fit workspace stage kept gone p) (hall : done ++ item :: rest = p.changedFiles)
    (hplaced : Placed disk disk' item.path (if item.changeType = .deleted then none else some (contentAt stage item.path)))
    (hnot : item.changeType = .deleted → ∀ q, q ≠ item.path → node disk' q = node disk q) :
    Seeded workspace stage (done ++ [item]) disk' := by
  have hmem : ∀ other ∈ done, other ∈ p.changedFiles := fun other hother => hall ▸ List.mem_append_left _ hother
  have hitem : item ∈ p.changedFiles := by simp [← hall]
  refine ⟨fun other hother htype => ?_, fun other hother htype => ?_, fun q hout => ?_⟩
  · rcases mem_concat.1 hother with hother | rfl
    · rcases hplaced.1 other.path (hfit.fresh hall other hother) with hsame | ⟨hnone, -⟩
      · rw [hsame, h.files other hother htype]
      · rw [h.files other hother htype] at hnone
        cases hnone
    · rw [hplaced.2, if_neg htype]
      rfl
  · rcases mem_concat.1 hother with hother | rfl
    · rcases hplaced.1 other.path (hfit.fresh hall other hother) with hsame | ⟨-, -, habove, hne⟩
      · rw [hsame, h.gone other hother htype]
      · by_cases hkind : item.changeType = .deleted
        · rw [hnot hkind other.path (hfit.fresh hall other hother), h.gone other hother htype]
        · -- a file that was removed is not above one that is put
          have hremoved := hfit.removed other.path (hfit.path_gone (hmem other hother) htype)
          rw [(hfit.places item.path (hfit.path_kept hitem hkind)).2 other.path habove hne] at hremoved
          cases hremoved
    · rw [hplaced.2, if_pos htype]
      rfl
  · have hq : q ≠ item.path := fun hsame => hout item (by simp) hsame.symm
    rcases h.others q fun other hother => hout other (List.mem_append_left _ hother) with hsame | ⟨hnone, hmade, other, hother, hkind, hbelow⟩
    · rcases hplaced.1 q hq with hkept | ⟨hnone, hmade, habove, hne⟩
      · exact .inl (hkept.trans hsame)
      · by_cases hkind : item.changeType = .deleted
        · exact .inl ((hnot hkind q hq).trans hsame)
        · exact .inr ⟨hsame ▸ hnone, hmade, item, by simp, hkind, habove, hne⟩
    · rcases hplaced.1 q hq with hkept | ⟨hmissing, -⟩
      · exact .inr ⟨hnone, hkept.trans hmade, other, List.mem_append_left _ hother, hkind, hbelow⟩
      · rw [hmade] at hmissing
        cases hmissing

lemma seeds_file (h : Seeded workspace stage done disk) (hfit : Fit workspace stage kept gone p) (hall : done ++ item :: rest = p.changedFiles) :
    ∃ disk', materializeFile p disk item = .ok disk' ∧ Seeded workspace stage (done ++ [item]) disk' := by
  have hitem : item ∈ p.changedFiles := by simp [← hall]
  by_cases htype : item.changeType = .deleted
  · have hpath := hfit.path_gone hitem htype
    have hproblem := hfit.problem item.path (List.mem_append_right _ hpath)
    have hne := ne_nil_of_problem hproblem
    have hnode : node disk item.path ≠ some .directory := by
      rcases h.others item.path (hfit.fresh hall) with hsame | ⟨hnone, -⟩
      · have hremoved := hfit.removed item.path hpath
        rintro hdirectory
        rw [← hsame, hdirectory] at hremoved
        cases hremoved
      · have hremoved := hfit.removed item.path hpath
        rw [hnone] at hremoved
        cases hremoved
    refine ⟨deleteRow Prod.fst item.path disk, ?_, h.step hfit hall ?_ fun _ q hq => by rw [node_deleteRow hne, if_neg hq]⟩
    · unfold materializeFile
      rw [hproblem, htype]
      simp only
    · rw [if_pos htype]
      exact placed_nothing hne
  · have hpath := hfit.path_kept hitem htype
    have hproblem := hfit.problem item.path (List.mem_append_left _ hpath)
    obtain ⟨hplace, hway⟩ := h.way hfit hall htype
    obtain ⟨disk', hcopy, hplaced⟩ := @copyTo_ok disk item.path (contentAt stage item.path) (ne_nil_of_problem hproblem) hway hplace
    refine ⟨disk', ?_, h.step hfit hall (by rwa [if_neg htype]) fun hkind => absurd hkind htype⟩
    have hstaged : stagedFile p item.path = .ok (contentAt stage item.path) := by
      unfold stagedFile
      rw [hfit.staged item.path hpath]
    unfold materializeFile
    rw [hproblem]
    simp only [hstaged]
    cases hkind : item.changeType with
    | deleted => exact absurd hkind htype
    | created => exact hcopy
    | modified => exact hcopy

lemma seeds_files (h : Seeded workspace stage done disk) (hfit : Fit workspace stage kept gone p) (hall : done ++ rest = p.changedFiles) :
    ∃ fresh, rest.foldlM (materializeFile p) disk = .ok fresh ∧ Seeded workspace stage p.changedFiles fresh := by
  induction rest generalizing done disk with
  | nil => exact ⟨disk, rfl, by simpa [← hall] using h⟩
  | cons item rest ih =>
    obtain ⟨made, hmade, hseeded⟩ := seeds_file h hfit hall
    obtain ⟨fresh, hfresh, hall'⟩ := ih hseeded (by simpa using hall)
    refine ⟨fresh, ?_, hall'⟩
    rw [List.foldlM_cons, bind_ok hmade]
    exact hfresh

lemma Seeded.same (h : Seeded workspace stage p.changedFiles disk) (hnamed : Named stage kept gone p.changedFiles) (hkept : path ∉ kept)
    (hgone : path ∉ gone) : contentOf (node disk path) = contentOf (node workspace path) := by
  have hout : ∀ item ∈ p.changedFiles, item.path ≠ path := by
    rintro item hitem rfl
    rcases hnamed.items item hitem with ⟨-, hpath⟩ | ⟨-, hpath⟩
    · exact hkept hpath
    · exact hgone hpath
  rcases h.others path hout with hsame | ⟨hnone, hmade, -⟩
  · rw [hsame]
  · rw [hnone, hmade]
    rfl

end Seeds

lemma mem_files_iff (hcounted : isCounted path = true) : path ∈ filesOf disk ↔ (contentOf (node disk path)).isSome = true := by
  constructor
  · exact fun h => (mem_filesOf.mp h).2.2
  · intro h
    have hdirectory : node disk path ≠ some .directory := by
      intro hdirectory
      rw [hdirectory] at h
      cases h
    obtain ⟨content, hnode, -⟩ := ChangeSetRoundTrip.file_of_isSome hdirectory h
    exact mem_files hnode hcounted

lemma content_of_mem (h : path ∈ filesOf disk) : contentOf (node disk path) = some (contentAt disk path) := by
  rw [(file_of_mem h).1]
  rfl

section RoundTrip
variable {p : Setting} {fresh : Disk}

lemma kept_of_changed (hbaseline : inspectWorkspace host root workspace = .ok baseline) (hsafe : isSafeRelative path = true)
    (hstage : path ∈ filesOf stage) (hkept : path ∉ changedPaths host stage baseline) :
    path ∈ filesOf workspace ∧ host.hash (contentAt workspace path) = host.hash (contentAt stage path) := by
  by_contra hdiffers
  exact hkept (mem_changed.mpr ⟨hstage, (isChanged_iff hbaseline hsafe).mpr hdiffers⟩)

lemma fit_of (hbaseline : inspectWorkspace host root workspace = .ok baseline) (hstage : IsTree (node stage))
    (hsound : Sound host workspace stage baseline) (hcompact : Compact stage (changedPaths host stage baseline) compact)
    (hreads : p.stage = node compact) (hnamed : Named stage (changedPaths host stage baseline) (deletedPaths stage baseline) p.changedFiles) :
    Fit workspace stage (changedPaths host stage baseline) (deletedPaths stage baseline) p where
  named := hnamed
  problem := fun path hpath => by
    have hproblem := problem_of_safe (hsound.safe path hpath)
    rwa [hsound.blanks path hpath] at hproblem
  staged := fun path hpath => by rw [hreads, hcompact.files path hpath]
  apart := changed_apart hstage
  places := hsound.places
  removed := fun path hpath => (mem_filesOf.mp ((mem_deleted hbaseline).mp hpath).1).2.2

lemma seeded_shown (hbaseline : inspectWorkspace host root workspace = .ok baseline)
    (hnamed : Named stage (changedPaths host stage baseline) (deletedPaths stage baseline) p.changedFiles)
    (hseeded : Seeded workspace stage p.changedFiles fresh)
    (hdigests : ∀ path, isShown path = true → ∀ before after, node workspace path = some (.file before) →
      node stage path = some (.file after) → host.hash before = host.hash after → before = after) :
    shown fresh = shown stage := by
  funext path
  unfold shown
  split
  · rename_i hshown
    obtain ⟨hsafe, hcounted⟩ := Bool.and_eq_true_iff.mp hshown
    by_cases hkept : path ∈ changedPaths host stage baseline
    · obtain ⟨item, hitem, rfl, htype⟩ := hnamed.keeps path hkept
      rw [hseeded.files item hitem htype, content_of_mem (changed_kept _ hkept)]
      rfl
    · by_cases hgone : path ∈ deletedPaths stage baseline
      · obtain ⟨item, hitem, rfl, htype⟩ := hnamed.deletes path hgone
        have hmissing := ((mem_deleted hbaseline).mp hgone).2.2
        rw [mem_files_iff hcounted] at hmissing
        rw [hseeded.gone item hitem htype]
        simpa using Eq.symm (by simpa using hmissing)
      · rw [hseeded.same hnamed hkept hgone]
        by_cases hstage : path ∈ filesOf stage
        · obtain ⟨hworkspace, hhash⟩ := kept_of_changed hbaseline hsafe hstage hkept
          rw [content_of_mem hworkspace, content_of_mem hstage,
            hdigests path hshown _ _ (file_of_mem hworkspace).1 (file_of_mem hstage).1 hhash]
        · have hworkspace : path ∉ filesOf workspace := fun hworkspace =>
            hgone ((mem_deleted hbaseline).mpr ⟨hworkspace, hsafe, hstage⟩)
          rw [mem_files_iff hcounted] at hstage hworkspace
          rw [Option.not_isSome_iff_eq_none.mp hstage, Option.not_isSome_iff_eq_none.mp hworkspace]
  · rfl

lemma comes_back (hexact : ∀ name, host.normcase name = name) (hstage : IsTree (node stage)) (hlimits : WithinLimits host stage baseline)
    (hbaseline : inspectWorkspace host root workspace = .ok baseline) (h : Recoverable host workspace stage baseline) :
    RoundTrips host root workspace stage baseline := by
  have hsound := sound_of hbaseline h
  have hsafe : ∀ path ∈ changedPaths host stage baseline, isSafeRelative path = true := fun path hpath =>
    hsound.safe path (List.mem_append_left _ hpath)
  obtain ⟨compact, hcompact, hcreate⟩ := createReviewDraft_of hstage hlimits hbaseline hsafe
  obtain ⟨p, hp⟩ := createFromStage_of hexact hstage hlimits hbaseline hsound h.changed hcompact
  have hdrafted := createFromStage_ok hexact hp
  obtain ⟨found, staged, gone, written, hmade⟩ := hdrafted.made
  have hnamed := made_named hexact hbaseline hcompact hsafe hsound.blanks hmade
  obtain ⟨fresh, hfresh, hseeded⟩ := seeds_files (seeded_empty workspace stage)
    (fit_of hbaseline hstage hsound hcompact hdrafted.reads hnamed) (List.nil_append _)
  refine ⟨⟨root, p⟩, fresh, hcreate p hp, ?_, seeded_shown hbaseline hnamed hseeded h.digests⟩
  rw [materialize_fold hdrafted hbaseline]
  exact hfresh

structure Tripped (host : Host) (workspace stage compact : Disk) (baseline : Snapshot) (p : Setting) (fresh : Disk) : Prop where
  safe : ∀ path ∈ changedPaths host stage baseline, isSafeRelative path = true
  copies : Compact stage (changedPaths host stage baseline) compact
  drafted : Drafted host compact baseline (changedPaths host stage baseline ++ deletedPaths stage baseline) (deletedPaths stage baseline) p
  files : p.changedFiles.foldlM (materializeFile p) workspace = .ok fresh
  shown : shown fresh = shown stage

lemma tripped (hexact : ∀ name, host.normcase name = name) (hstage : IsTree (node stage))
    (hbaseline : inspectWorkspace host root workspace = .ok baseline) (h : RoundTrips host root workspace stage baseline) :
    ∃ compact p fresh, Tripped host workspace stage compact baseline p fresh := by
  obtain ⟨⟨draftRoot, p⟩, fresh, hcreate, hfresh, hshown⟩ := h
  obtain ⟨hsafe, compact, hcompact, hp⟩ := createReviewDraft_ok hstage hcreate
  have hdrafted := createFromStage_ok hexact hp
  obtain rfl : draftRoot = root := by
    unfold materializeReviewDraft at hfresh
    obtain ⟨_, hroot, -⟩ := ok_of_bind hfresh
    exact of_require hroot
  rw [materialize_fold hdrafted hbaseline] at hfresh
  exact ⟨compact, p, fresh, hsafe, hcompact, hdrafted, hfresh, hshown⟩

lemma shown_of (hsafe : isSafeRelative path = true) (hcounted : isCounted path = true) : shown disk path = contentOf (node disk path) := by
  unfold shown isShown
  rw [hsafe, hcounted]
  rfl

section Trip
variable (h : Tripped host workspace stage compact baseline p fresh)
include h

lemma Tripped.place (hpath : path ∈ changedPaths host stage baseline) :
    node workspace path ≠ some .directory := by
  intro hdirectory
  have hstays : node fresh path = some .directory :=
    (@foldlM_keeps _ _ _ (fun d => node d path = some .directory) _ _ _ _ h.files hdirectory
      fun item hitem d d' hd hfile => materializeFile_directory hfile hd).1
  have hfile := changed_kept path hpath
  have hcounted := (file_of_mem hfile).2.1
  have hshown := congrFun h.shown path
  rw [shown_of (h.safe path hpath) hcounted, shown_of (h.safe path hpath) hcounted, hstays, content_of_mem hfile] at hshown
  cases hshown

lemma Tripped.missing {item : ChangedFile} (hitem : item ∈ p.changedFiles)
    (htype : item.changeType = .deleted) : p.stage item.path ≠ some .directory := by
  intro hdirectory
  obtain ⟨files, hfiles, -⟩ := h.drafted.digest
  obtain ⟨entry, -, hentry⟩ := (mapM_mem hfiles).2 item hitem
  rw [htype, hdirectory] at hentry
  split at hentry <;> cases hentry

variable (hexact : ∀ name, host.normcase name = name)
include hexact

lemma Tripped.items {item : ChangedFile} (hitem : item ∈ p.changedFiles) :
    item.changeType ≠ .deleted ∧ (∃ path ∈ changedPaths host stage baseline, item.path = strip path) ∨
      item.changeType = .deleted ∧ ∃ path ∈ deletedPaths stage baseline, item.path = strip path := by
  obtain ⟨found, staged, gone, written, hmade⟩ := h.drafted.made
  exact made_items hexact h.copies hmade hitem

lemma Tripped.stripped {item : ChangedFile} (hitem : item ∈ p.changedFiles) : strip item.path = item.path := by
  rcases h.items hexact hitem with ⟨-, path, -, hpath⟩ | ⟨-, path, -, hpath⟩
  · rw [hpath, strip_strip]
  · rw [hpath, strip_strip]

lemma Tripped.unwritten (hpath : strip path ≠ path) : contentOf (node fresh path) = contentOf (node workspace path) := by
  refine (@foldlM_keeps _ _ _ (fun d => contentOf (node d path) = contentOf (node workspace path)) _ _ _ _ h.files rfl
    fun item hitem d d' hsame hfile => ?_).1
  have hstripped := h.stripped hexact hitem
  have hne := ne_nil_of_problem (materializeFile_ok hfile).1
  refine (materializeFile_content hfile ?_ ?_).trans hsame
  · rintro rfl
    exact hpath hstripped
  · rintro rfl
    exact hpath (strip_twice hstripped hne)

variable (hbaseline : inspectWorkspace host root workspace = .ok baseline)
include hbaseline

lemma Tripped.blanks : ∀ path ∈ changedPaths host stage baseline ++ deletedPaths stage baseline, strip path = path := by
  intro path hpath
  by_contra hblank
  have hsame := h.unwritten hexact hblank
  have hshown := congrFun h.shown path
  rcases List.mem_append.mp hpath with hpath | hpath
  · obtain ⟨hfile, hchanged⟩ := mem_changed.mp hpath
    have hsafe := h.safe path hpath
    have hcounted := (file_of_mem hfile).2.1
    rw [shown_of hsafe hcounted, shown_of hsafe hcounted, hsame, content_of_mem hfile] at hshown
    have hworkspace : path ∈ filesOf workspace := (mem_files_iff hcounted).mpr (by rw [hshown]; rfl)
    rw [content_of_mem hworkspace] at hshown
    exact (isChanged_iff hbaseline hsafe).mp hchanged ⟨hworkspace, by rw [Option.some.inj hshown]⟩
  · obtain ⟨hfile, hsafe, hgone⟩ := (mem_deleted hbaseline).mp hpath
    have hcounted := (file_of_mem hfile).2.1
    rw [shown_of hsafe hcounted, shown_of hsafe hcounted, hsame, content_of_mem hfile] at hshown
    exact hgone ((mem_files_iff hcounted).mpr (by rw [← hshown]; rfl))

lemma Tripped.named : Named stage (changedPaths host stage baseline) (deletedPaths stage baseline) p.changedFiles := by
  obtain ⟨found, staged, gone, written, hmade⟩ := h.drafted.made
  exact made_named hexact hbaseline h.copies h.safe (h.blanks hexact hbaseline) hmade

lemma Tripped.way (hstage : IsTree (node stage))
    (hpath : path ∈ changedPaths host stage baseline) {dir : Path} (hdir : dir <+: path) (hne : dir ≠ path) :
    contentOf (node workspace dir) = none := by
  by_contra hsome
  have hsome := Option.ne_none_iff_isSome.mp hsome
  obtain ⟨hnode, hcounted, -⟩ := file_of_mem (changed_kept path hpath)
  have hdirectory : node stage dir = some .directory := hstage path dir hdir hne (by rw [hnode]; simp)
  have hworkspace : dir ∈ filesOf workspace := (mem_files_iff (counted_above hdir hcounted)).mpr hsome
  have hmissing : dir ∉ filesOf stage := by
    rw [mem_files_iff (counted_above hdir hcounted), hdirectory]
    simp [contentOf]
  have hnamed := h.named hexact hbaseline
  by_cases hsafe : isSafeRelative dir = true
  · -- the file is deleted, and the small stage has a directory there
    obtain ⟨item, hitem, hsame, htype⟩ := hnamed.deletes dir ((mem_deleted hbaseline).mpr ⟨hworkspace, hsafe, hmissing⟩)
    apply h.missing hitem htype
    rw [h.drafted.reads, hsame]
    exact h.copies.above path hpath dir hdir hne
  · -- no change is about the file, and no directory can be made there
    obtain ⟨item, hitem, rfl, htype⟩ := hnamed.keeps path hpath
    have hkeeps := (@foldlM_keeps _ _ _ (fun d => (contentOf (node d dir)).isSome = true) _ _ _ _ h.files hsome
      fun other hother d d' hd hfile => materializeFile_file hfile (by
        rintro rfl
        apply hsafe
        unfold isSafeRelative
        rw [h.stripped hexact hother]
        simp [isSafe, (materializeFile_ok hfile).1]) hd).2
    obtain ⟨d, d', hd, hfile⟩ := hkeeps item hitem
    obtain ⟨hproblem, ⟨hdeleted, -⟩ | ⟨-, content, -, hcopy⟩⟩ := materializeFile_ok hfile
    · exact htype hdeleted
    · rw [(copyTo_copied (ne_nil_of_problem hproblem) hcopy).way dir hdir hne] at hd
      cases hd

end Trip

lemma recoverable_of (hexact : ∀ name, host.normcase name = name) (hstage : IsTree (node stage))
    (hbaseline : inspectWorkspace host root workspace = .ok baseline) (h : RoundTrips host root workspace stage baseline) :
    Recoverable host workspace stage baseline := by
  obtain ⟨compact, p, fresh, htrip⟩ := tripped hexact hstage hbaseline h
  have hblanks := htrip.blanks hexact hbaseline
  have hnamed := htrip.named hexact hbaseline
  have hplaces : ∀ path ∈ changedPaths host stage baseline, node workspace path ≠ some .directory ∧
      ∀ dir, dir <+: path → dir ≠ path → contentOf (node workspace dir) = none := fun path hpath =>
    ⟨htrip.place hpath, fun dir hdir hne => htrip.way hexact hbaseline hstage hpath hdir hne⟩
  have hsound : Sound host workspace stage baseline := by
    refine ⟨fun path hpath => ?_, hblanks, hplaces⟩
    rcases List.mem_append.mp hpath with hpath | hpath
    · exact htrip.safe path hpath
    · exact ((mem_deleted hbaseline).mp hpath).2.1
  refine ⟨fun path hfile hinternal => ?_, ?_, hblanks, hplaces, fun path hshown before after hbefore hafter hhash => ?_⟩
  · by_cases hchanged : isChanged host stage baseline path = true
    · exact htrip.safe path (mem_changed.mpr ⟨hfile, hchanged⟩)
    · -- what is not changed is in the snapshot
      simp only [isChanged, hinternal, not_false_eq_true, decide_true, Bool.true_and, decide_eq_true_eq, Decidable.not_not] at hchanged
      rw [hashOf_snapshot hbaseline] at hchanged
      split at hchanged
      · rename_i hmem
        exact hmem.2
      · cases hchanged
  · obtain ⟨found, staged, gone, written, hmade⟩ := htrip.drafted.made
    obtain ⟨item, hitem⟩ := List.exists_mem_of_ne_nil _ hmade.some_file
    rcases htrip.items hexact hitem with ⟨-, path, hpath, -⟩ | ⟨-, path, hpath, -⟩
    · exact .inl (List.ne_nil_of_mem hpath)
    · exact .inr (List.ne_nil_of_mem hpath)
  · obtain ⟨hsafe, hcounted⟩ := Bool.and_eq_true_iff.mp hshown
    obtain ⟨last, hlast, hseeded⟩ := seeds_files (seeded_empty workspace stage)
      (fit_of hbaseline hstage hsound htrip.copies htrip.drafted.reads hnamed) (List.nil_append _)
    obtain rfl : last = fresh := Except.ok.inj (hlast.symm.trans htrip.files)
    have hfile := mem_files hafter hcounted
    have hworkspace := mem_files hbefore hcounted
    have hkept : path ∉ changedPaths host stage baseline := by
      intro hpath
      refine (isChanged_iff hbaseline hsafe).mp (mem_changed.mp hpath).2 ⟨hworkspace, ?_⟩
      simpa [contentAt, hbefore, hafter] using hhash
    have hgone : path ∉ deletedPaths stage baseline := fun hpath => ((mem_deleted hbaseline).mp hpath).2.2 hfile
    have hsame := congrFun htrip.shown path
    rw [shown_of hsafe hcounted, shown_of hsafe hcounted, hseeded.same hnamed hkept hgone, hbefore, hafter] at hsame
    exact Option.some.inj hsame

lemma round_trips_iff (hexact : ∀ name, host.normcase name = name) (hstage : IsTree (node stage)) (hlimits : WithinLimits host stage baseline)
    (hbaseline : inspectWorkspace host root workspace = .ok baseline) :
    RoundTrips host root workspace stage baseline ↔ Recoverable host workspace stage baseline :=
  ⟨recoverable_of hexact hstage hbaseline, comes_back hexact hstage hlimits hbaseline⟩

end RoundTrip

lemma unsafe_changed (hbaseline : inspectWorkspace host root workspace = .ok baseline) (hfile : path ∈ filesOf stage)
    (hinternal : path ∉ internalFiles) (hodd : isSafeRelative path = false) : path ∈ changedPaths host stage baseline := by
  refine mem_changed.mpr ⟨hfile, ?_⟩
  unfold isChanged
  rw [hashOf_snapshot hbaseline, if_neg (by simp [hodd])]
  simp [hinternal]

lemma unsafe_refused (hlimits : WithinLimits host stage baseline) (hbaseline : inspectWorkspace host root workspace = .ok baseline)
    (hfile : path ∈ filesOf stage) (hinternal : path ∉ internalFiles) (hodd : isSafeRelative path = false) :
    createReviewDraft host root stage baseline = .error (.path .pathForbidden) := by
  have hnot : ¬ ∀ path ∈ changedPaths host stage baseline, isSafeRelative path = true := fun hsafe => by
    cases hodd.symm.trans (hsafe path (unsafe_changed hbaseline hfile hinternal hodd))
  unfold createReviewDraft
  rw [bind_ok (walk_within hlimits.entries), draftPaths_files hlimits, if_neg hnot]
  rfl

lemma unchanged_refused (hlimits : WithinLimits host stage baseline) (hbaseline : inspectWorkspace host root workspace = .ok baseline)
    (hkept : changedPaths host stage baseline = []) (hgone : deletedPaths stage baseline = []) :
    createReviewDraft host root stage baseline = .error .noChanges := by
  have hempty : createFromStage host root [] baseline [] [] = .error .noChanges := by
    unfold createFromStage
    rw [require_bind (snapshot_paths hbaseline).1]
    rfl
  unfold createReviewDraft
  rw [bind_ok (walk_within hlimits.entries), draftPaths_files hlimits, hkept, if_pos (by simp), bind_ok rfl]
  simp only [hgone]
  rw [require_bind ⟨by simp, by simp⟩]
  change (createFromStage host root [] baseline [] [] >>= fun changes => .ok (ReviewDraft.mk root changes)) = _
  rw [hempty]
  rfl

open ChangeSetRoundTrip in
def hiddenWorkspace : Disk := ([".gitignore"], .file [97]) :: exampleWorkspace

/-- A copy of it in which a safe file is edited and another is gone; and the safe files as they are. -/
def hiddenStage : Disk := [([".gitignore"], .file [97]), (["edit.txt"], .file [98])]

open ChangeSetRoundTrip in
lemma exampleStage_recoverable : Recoverable exampleHost hiddenWorkspace exampleStage exampleBaseline := by
  have hkept : changedPaths exampleHost exampleStage exampleBaseline = [["edit.txt"], ["new.txt"]] := by decide +kernel
  have hgone : deletedPaths exampleStage exampleBaseline = [["old.txt"]] := by decide +kernel
  refine ⟨by decide +kernel, by simp [hkept], by rw [hkept, hgone]; decide +kernel, ?_, ?_⟩
  · rw [hkept]
    intro path hpath
    have hlength : path.length = 1 := by
      revert path
      decide
    refine ⟨by revert path; decide +kernel, fun dir hdir hne => ?_⟩
    have hnil : dir = [] := by
      by_contra hnil
      have hpos := List.length_pos_iff.mpr hnil
      exact hne (hdir.eq_of_length_le (by omega))
    rw [hnil]
    rfl
  · intro path _ before after hbefore hafter hhash
    have hsame : before = [97] := by
      have hmem := mem_disk hbefore (by rintro rfl; cases hbefore)
      simp only [hiddenWorkspace, exampleWorkspace, List.mem_cons, Prod.mk.injEq, Node.file.injEq, List.not_mem_nil, or_false] at hmem
      rcases hmem with ⟨-, hcontent⟩ | ⟨-, hcontent⟩ | ⟨-, hcontent⟩ <;> exact hcontent
    have hother : after = [98] := by
      have hmem := mem_disk hafter (by rintro rfl; cases hafter)
      simp only [exampleStage, List.mem_cons, Prod.mk.injEq, Node.file.injEq, List.not_mem_nil, or_false] at hmem
      rcases hmem with ⟨-, hcontent⟩ | ⟨-, hcontent⟩ <;> exact hcontent
    rw [hsame, hother] at hhash
    exact absurd hhash (by decide +kernel)

end PromptForge.RecoveryDrafts
