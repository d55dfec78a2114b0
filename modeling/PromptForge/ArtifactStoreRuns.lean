import PromptForge.ArtifactStoreLaws

namespace PromptForge.ArtifactStore
open Runs Json Tables
open FirmwareManifest (Bytes)
open JsonText (canon)

variable {p : Host} {s : State}

def Intact (e : Entry State Action Outcome) : Prop :=
  match e.action, e.before.phase with
  | .fault _, .removing artifactId | .crash, .removing artifactId =>
    ∀ d, directory e.before.dirs artifactId = some d → d.payload.isSome ∧ d.manifest.isSome
  | _, _ => True

def Whole (p : Host) (s : State) (d : Directory) : Prop :=
  ∃ r ∈ s.requests, ∃ now m, candidate p r now = .ok m ∧ d = whole p r m

structure Left (d d' : Directory) : Prop where
  name : d.name = d'.name
  payload : d.payload = none ∨ d.payload = d'.payload
  manifest : d.manifest = none ∨ d.manifest = d'.manifest

structure Writing (p : Host) (s : State) (stage : String) (r : Request) (m : ArtifactMetadata) (d : Directory) : Prop where
  asked : r ∈ s.requests
  made : ∃ now, candidate p r now = .ok m
  hidden : isHidden stage = true
  free : directory s.dirs m.artifactId = none
  there : directory s.dirs stage = some d

def Progress (p : Host) (s : State) : Prop :=
  match s.phase with
  | .idle => True
  | .staged stage r m => Writing p s stage r m ⟨stage, none, none⟩
  | .payloadWritten stage r m => Writing p s stage r m ⟨stage, some r.payload, none⟩
  | .manifestWritten stage r m => Writing p s stage r m ⟨stage, some r.payload, some (canon (manifestFor p m))⟩
  | .removing artifactId => ∃ d d', directory s.dirs artifactId = some d ∧ Whole p s d' ∧ Left d d'

structure Inv (p : Host) (s : State) : Prop where
  names : (s.dirs.map Directory.name).Nodup
  whole : ∀ name d, isHidden name = false → s.phase ≠ .removing name → directory s.dirs name = some d → Whole p s d
  progress : Progress p s

lemma inv_initial : Inv p .initial where
  names := List.nodup_nil
  whole := by
    intro name d _ _ hd
    cases hd
  progress := trivial

lemma Whole.mono {s' : State} {d : Directory} (h : Whole p s d) (hrequests : s.requests ⊆ s'.requests) : Whole p s' d := by
  obtain ⟨r, hr, hrest⟩ := h
  exact ⟨r, hrequests hr, hrest⟩

variable {stage : String}

lemma name_ne_stage {name : String} (hstage : isHidden stage = true) (hname : isHidden name = false) : name ≠ stage := by
  rintro rfl
  rw [hstage] at hname
  cases hname

lemma Inv.hide {s' : State} (h : Inv p s) (hidle : ∀ name, s.phase ≠ .removing name) (hnames : (s'.dirs.map Directory.name).Nodup)
    (hrequests : s.requests ⊆ s'.requests) (hdirs : ∀ name, isHidden name = false → directory s'.dirs name = directory s.dirs name)
    (hprogress : Progress p s') : Inv p s' where
  names := hnames
  whole := by
    intro name d hname _ hd
    rw [hdirs name hname] at hd
    exact (h.whole name d hname (hidle name) hd).mono hrequests
  progress := hprogress

lemma inv_asked (h : Inv p s) (hidle : s.phase = .idle) (r : Request) : Inv p { s with requests := s.requests ++ [r] } := by
  refine h.hide (by simp [hidle]) h.names (List.subset_append_left ..) (fun _ _ => rfl) ?_
  unfold Progress
  rw [hidle]
  trivial

lemma inv_saveSync (h : Inv p s) (hidle : s.phase = .idle) (r : Request) (now : ℤ) (stage : String) :
    Inv p (saveSync p s r now stage).2 := by
  have hasked := inv_asked h hidle r
  unfold saveSync
  cases hm : candidate p r now with
  | error text => exact h
  | ok m =>
    simp only
    cases hd : directory s.dirs m.artifactId with
    | some d =>
      simp only
      cases readMetadata p d with
      | error error => exact hasked
      | ok existing =>
        simp only
        split
        · cases readPayload p d <;> exact hasked
        · exact hasked
    | none =>
      simp only
      cases hstage : directory s.dirs (stageName stage) with
      | some d => exact h
      | none =>
        have happend := directory_append s.dirs ⟨stageName stage, none, none⟩
        refine h.hide (by simp [hidle]) (nodup_append_directory h.names hstage) (List.subset_append_left ..)
          (fun name hname => ?_) ⟨List.mem_append_right _ (List.mem_singleton_self r), ⟨now, hm⟩, stage_hidden stage, ?_, ?_⟩
        · exact (happend name hstage).trans (if_neg (name_ne_stage (stage_hidden stage) hname))
        · exact (happend m.artifactId hstage).trans
            ((if_neg (name_ne_stage (stage_hidden stage) (candidate_not_hidden hm))).trans hd)
        · exact (happend (stageName stage) hstage).trans (if_pos rfl)

variable {r : Request} {m : ArtifactMetadata}

lemma inv_write {d : Directory} {phase : Phase} (h : Inv p s)
    (hwriting : Writing p s stage r m d) (hidle : ∀ name, s.phase ≠ .removing name) {f : Directory → Directory}
    (hf : ∀ d, (f d).name = d.name)
    (hprogress : ∀ s', Writing p s' stage r m (f d) → s'.phase = phase → Progress p s') :
    Inv p { s with dirs := updateDirectory s.dirs stage f, phase } := by
  have hupdate := @directory_update s.dirs stage f hf
  refine h.hide hidle ?_ (fun _ hr => hr) (fun name hname => ?_) (hprogress _ ⟨hwriting.asked, hwriting.made, hwriting.hidden, ?_, ?_⟩ rfl)
  · change ((updateWhere (fun d => decide (d.name = stage)) f s.dirs).map Directory.name).Nodup
    exact nodup_updateWhere hf h.names
  · exact (hupdate name).trans (if_neg (name_ne_stage hwriting.hidden hname))
  · obtain ⟨now, hm⟩ := hwriting.made
    refine (hupdate m.artifactId).trans ((if_neg (name_ne_stage hwriting.hidden (candidate_not_hidden hm))).trans hwriting.free)
  · refine (hupdate stage).trans ((if_pos rfl).trans ?_)
    rw [hwriting.there]
    rfl

lemma directory_publish
    (hwriting : Writing p s stage r m ⟨stage, some r.payload, some (canon (manifestFor p m))⟩) (name : String) :
    directory (rename s.dirs stage m.artifactId) name =
      if name = m.artifactId then some (ArtifactStore.whole p r m) else if name = stage then none else directory s.dirs name :=
  directory_rename hwriting.there hwriting.free name

lemma inv_publish (h : Inv p s)
    (hwriting : Writing p s stage r m ⟨stage, some r.payload, some (canon (manifestFor p m))⟩) (hidle : ∀ name, s.phase ≠ .removing name) :
    Inv p { s with dirs := rename s.dirs stage m.artifactId, phase := .idle } where
  names := nodup_rename h.names hwriting.free
  whole := by
    intro name d hname _ hd
    have hpublish := (directory_publish hwriting name).symm.trans hd
    obtain ⟨now, hm⟩ := hwriting.made
    split at hpublish
    · cases hpublish
      exact ⟨r, hwriting.asked, now, m, hm, rfl⟩
    · rw [if_neg (name_ne_stage hwriting.hidden hname)] at hpublish
      exact h.whole name d hname (hidle name) hpublish
  progress := trivial

variable {artifactId : String}

lemma inv_unlink (h : Inv p s) (hphase : s.phase = .removing artifactId) {f : Directory → Directory}
    (hf : ∀ d, (f d).name = d.name) (hleft : ∀ d d', Left d d' → Left (f d) d') :
    Inv p { s with dirs := updateDirectory s.dirs artifactId f } := by
  have hupdate := @directory_update s.dirs artifactId f hf
  have hp := h.progress
  simp only [Progress, hphase] at hp
  obtain ⟨d, d', hd, hwhole, hld⟩ := hp
  refine ⟨?_, fun name x hname hremoving hx => ?_, ?_⟩
  · change ((updateWhere (fun d => decide (d.name = artifactId)) f s.dirs).map Directory.name).Nodup
    exact nodup_updateWhere hf h.names
  · have hne : name ≠ artifactId := fun hname => hremoving (hname ▸ hphase)
    have hlookup := (hupdate name).symm.trans hx
    rw [if_neg hne] at hlookup
    exact h.whole name x hname hremoving hlookup
  · unfold Progress
    simp only [hphase]
    refine ⟨f d, d', ?_, hwhole, hleft d d' hld⟩
    refine (hupdate artifactId).trans ((if_pos rfl).trans ?_)
    rw [hd]
    rfl

lemma inv_removed (h : Inv p s) (hphase : s.phase = .removing artifactId) :
    Inv p { s with dirs := deleteRow Directory.name artifactId s.dirs, phase := .idle } where
  names := nodup_deleteRow h.names artifactId
  whole := by
    intro name d hname _ hd
    have hlookup := (lookup_deleteRow artifactId s.dirs name).symm.trans hd
    split at hlookup
    · cases hlookup
    · rename_i hne
      refine h.whole name d hname (fun hremoving => hne ?_) hlookup
      rw [hphase, Phase.removing.injEq] at hremoving
      exact hremoving.symm
  progress := trivial

lemma inv_interrupted (h : Inv p s) (hphase : s.phase = .removing artifactId)
    (hintact : ∀ d, directory s.dirs artifactId = some d → d.payload.isSome ∧ d.manifest.isSome) : Inv p { s with phase := .idle } where
  names := h.names
  whole := by
    intro name d hname _ hd
    by_cases hremoving : s.phase = .removing name
    · have hp := h.progress
      rw [hphase, Phase.removing.injEq] at hremoving
      subst hremoving
      simp only [Progress, hphase] at hp
      obtain ⟨x, d', hx, hwhole, hleft⟩ := hp
      obtain rfl : x = d := Option.some.inj (hx.symm.trans hd)
      obtain ⟨hpayload, hmanifest⟩ := hintact x hx
      have hsame : x = d' := by
        have hpay := hleft.payload.resolve_left (Option.isSome_iff_ne_none.mp hpayload)
        have hman := hleft.manifest.resolve_left (Option.isSome_iff_ne_none.mp hmanifest)
        calc x = ⟨x.name, x.payload, x.manifest⟩ := rfl
          _ = ⟨d'.name, d'.payload, d'.manifest⟩ := by rw [hleft.name, hpay, hman]
      exact hsame ▸ hwhole
    · exact h.whole name d hname hremoving hd
  progress := trivial

lemma inv_next (h : Inv p s) : Inv p (next p s).2 := by
  have hp := h.progress
  unfold Progress at hp
  unfold next
  cases hphase : s.phase with
  | idle => exact h
  | staged stage r m =>
    simp only [hphase] at hp
    refine inv_write h hp (by simp [hphase]) (fun _ => rfl) fun s' hwriting hphase' => ?_
    unfold Progress
    rw [hphase']
    exact hwriting
  | payloadWritten stage r m =>
    simp only [hphase] at hp
    refine inv_write h hp (by simp [hphase]) (fun _ => rfl) fun s' hwriting hphase' => ?_
    unfold Progress
    rw [hphase']
    exact hwriting
  | manifestWritten stage r m =>
    simp only [hphase] at hp
    have hpublish := inv_publish h hp (by simp [hphase])
    simp only [published]
    split
    · exact hpublish
    · split <;> exact hpublish
  | removing artifactId =>
    simp only
    split
    · exact inv_removed h hphase
    · exact h

lemma inv_call (h : Inv p s) (hidle : s.phase = .idle) (a : Action) : Inv p (call p s a).2 := by
  cases a with
  | save artifactType name content artifactId contentType metadata now stage =>
    simp only [call]
    split
    · exact h
    · exact inv_saveSync h hidle _ now stage
  | archive ids name artifactId metadata now stage =>
    simp only [call]
    split
    · exact h
    · split
      · exact h
      · exact inv_saveSync h hidle _ now stage
  | load artifactId =>
    simp only [call]
    split
    · exact h
    · split <;> exact h
  | list artifactType =>
    simp only [call]
    split <;> exact h
  | delete artifactId =>
    simp only [call]
    split
    · exact h
    · rename_i id hid
      unfold deleteSync
      cases hd : directory s.dirs id with
      | none => exact h
      | some d =>
        have hvisible : isHidden id = false := by
          simp only [validateArtifactId, str?] at hid
          split at hid
          · cases hid
            exact not_hidden ‹_›
          · cases hid
        have hwhole := h.whole id d hvisible (by simp [hidle]) hd
        refine ⟨h.names, fun name x hname _ hx => h.whole name x hname (by simp [hidle]) hx, d, d, hd, hwhole, ?_⟩
        exact ⟨rfl, .inr rfl, .inr rfl⟩
  | _ => exact h

lemma inv_abandoned (h : Inv p s) (hidle : ∀ name, s.phase ≠ .removing name) {dirs : Root} (hdirs : dirs = s.dirs ∨
    ∃ stage, isHidden stage = true ∧ dirs = deleteRow Directory.name stage s.dirs) : Inv p { s with dirs, phase := .idle } := by
  rcases hdirs with rfl | ⟨stage, hstage, rfl⟩
  · exact h.hide hidle h.names (fun _ hr => hr) (fun _ _ => rfl) trivial
  · refine h.hide hidle (nodup_deleteRow h.names stage) (fun _ hr => hr) (fun name hname => ?_) trivial
    exact (lookup_deleteRow stage s.dirs name).trans (if_neg (name_ne_stage hstage hname))

lemma inv_fault (h : Inv p s) (removed : Bool) (hok : Intact (entry (step p) s (.fault removed))) :
    Inv p (fault s removed).2 := by
  have hp := h.progress
  unfold Progress at hp
  unfold fault
  simp only [Intact, entry_action, entry_before] at hok
  cases hphase : s.phase with
  | idle => exact h
  | removing artifactId =>
    simp only [hphase] at hok
    exact inv_interrupted h hphase hok
  | staged stage r m | payloadWritten stage r m | manifestWritten stage r m =>
    simp only [hphase] at hp
    refine inv_abandoned h (by simp [hphase]) ?_
    cases removed with
    | false => exact .inl rfl
    | true => exact .inr ⟨stage, hp.hidden, rfl⟩

lemma inv_crash (h : Inv p s) (hok : Intact (entry (step p) s .crash)) : Inv p { s with phase := .idle } := by
  simp only [Intact, entry_action, entry_before] at hok
  cases hphase : s.phase with
  | removing artifactId =>
    simp only [hphase] at hok
    exact inv_interrupted h hphase hok
  | _ => exact inv_abandoned h (by simp [hphase]) (.inl rfl)

lemma inv_step (a : Action) (h : Inv p s) (hok : Intact (entry (step p) s a)) : Inv p (step p s a).2 := by
  cases a with
  | next => exact inv_next h
  | unlink payload =>
    simp only [step, unlink]
    split
    · rename_i artifactId hphase
      refine inv_unlink h hphase (fun d => ?_) fun d d' hleft => ?_
      · split <;> rfl
      · split
        · exact ⟨hleft.name, .inl rfl, hleft.manifest⟩
        · exact ⟨hleft.name, hleft.payload, .inl rfl⟩
    · exact h
  | fault removed => exact inv_fault h removed hok
  | crash => exact inv_crash h hok
  | _ =>
    simp only [step]
    split
    · exact inv_call h ‹_› _
    · exact h

end PromptForge.ArtifactStore
