import PromptForge.ArtifactStoreRuns

namespace PromptForge.ArtifactStore
open Runs Json Tables
open FirmwareManifest (Bytes)
open JsonText (canon Proper ProperEntries)

variable {p : Host} {s : State}

def Idle (s : State) : Prop := s.phase = .idle

def Listed (p : Host) (s : State) (m : ArtifactMetadata) : Prop := ∃ items, listArtifacts p s.dirs none = .ok items ∧ m ∈ items

/-- The artifact `m` is the one that the request asks for. -/
structure Agrees (p : Host) (s : State) (m : ArtifactMetadata) (r : Request) : Prop where
  payload : load p s.dirs m.artifactId = .ok r.payload
  artifactType : m.artifactType = r.artifactType
  name : m.name = r.name
  contentType : m.contentType = r.contentType
  metadata : same (.obj m.metadata) (.obj r.metadata.entries) = true

def asked (p : Host) (s : State) : Action → Option (Request × ℤ × String)
  | .save artifactType name content artifactId contentType metadata now stage =>
    match saveRequest artifactType name content artifactId contentType metadata with
    | .ok r => some (r, now, stage)
    | .error _ => none
  | .archive ids name artifactId metadata now stage =>
    match checkArchive ids name artifactId metadata with
    | .ok ids =>
      match archiveRequest p s.dirs ids name artifactId metadata with
      | .ok r => some (r, now, stage)
      | .error _ => none
    | .error _ => none
  | _ => none

def Collisionless (p : Host) (requests : List Request) : Prop :=
  ∀ r ∈ requests, ∀ r' ∈ requests, p.sha256 r.payload = p.sha256 r'.payload → r.payload = r'.payload

variable {a : Action} {r : Request} {now : ℤ} {stage : String}

lemma step_asked (hidle : Idle s) (ha : asked p s a = some (r, now, stage)) :
    step p s a = saveSync p s r now stage := by
  unfold Idle at hidle
  cases a with
  | save artifactType name content artifactId contentType metadata now' stage' =>
    simp only [asked] at ha
    split at ha
    · rename_i hr
      cases ha
      simp only [step, hidle, call, hr]
    · cases ha
  | archive ids name artifactId metadata now' stage' =>
    simp only [asked] at ha
    split at ha
    · rename_i hids
      split at ha
      · rename_i hr
        cases ha
        simp only [step, hidle, call, hids, hr]
      · cases ha
    · cases ha
  | _ => cases ha

structure Published (p : Host) (s : State) (r : Request) (m : ArtifactMetadata) : Prop where
  asked : r ∈ s.requests
  made : ∃ now, candidate p r now = .ok m
  there : directory s.dirs m.artifactId = some (whole p r m)

lemma Idle.not_removing (h : Idle s) (name : String) : s.phase ≠ .removing name := by
  unfold Idle at h
  simp [h]

variable {d : Directory}

lemma readable (h : Inv p s) (hidle : Idle s) (hd : d ∈ s.dirs) (hvisible : isHidden d.name = false) :
    ∃ r m, Published p s r m ∧ d = whole p r m := by
  have hlookup : directory s.dirs d.name = some d := lookup_of_mem h.names hd
  obtain ⟨r, hr, now, m, hm, rfl⟩ := h.whole d.name d hvisible (hidle.not_removing _) hlookup
  exact ⟨r, m, ⟨hr, ⟨now, hm⟩, hlookup⟩, rfl⟩

lemma list_ok (h : Inv p s) (hidle : Idle s) (artifactType : Option ArtifactType) :
    ∃ items, listArtifacts p s.dirs artifactType = .ok items ∧
      ∀ m, m ∈ items ↔ Shows p s.dirs m ∧ artifactType.all (· = m.artifactType) = true := by
  refine listArtifacts_ok fun d hd hvisible => ?_
  obtain ⟨r, m, ⟨-, ⟨now, hm⟩, -⟩, rfl⟩ := readable h hidle hd hvisible
  exact ⟨stored m, readMetadata_whole hm⟩

variable {m : ArtifactMetadata}

lemma listed_iff (h : Inv p s) (hidle : Idle s) :
    Listed p s m ↔ ∃ r m', Published p s r m' ∧ m = stored m' := by
  obtain ⟨items, hitems, hmem⟩ := list_ok h hidle none
  have hlisted : Listed p s m ↔ Shows p s.dirs m := by
    unfold Listed
    rw [hitems]
    simp [hmem]
  rw [hlisted]
  constructor
  · rintro ⟨d, hd, hvisible, -, hread⟩
    obtain ⟨r, m', hpublished, rfl⟩ := readable h hidle hd hvisible
    obtain ⟨now, hm⟩ := hpublished.made
    rw [readMetadata_whole hm] at hread
    exact ⟨r, m', hpublished, (Except.ok.inj hread).symm⟩
  · rintro ⟨r, m', ⟨-, ⟨now, hm⟩, hthere⟩, rfl⟩
    exact ⟨_, lookup_mem hthere, candidate_not_hidden hm, rfl, readMetadata_whole hm⟩

lemma Published.load (h : Published p s r m) :
    load p s.dirs m.artifactId = .ok r.payload := by
  obtain ⟨now, hm⟩ := h.made
  unfold ArtifactStore.load
  rw [h.there]
  exact readPayload_whole hm

lemma Published.agrees (h : Published p s r m) : Agrees p s (stored m) r := by
  obtain ⟨now, hm⟩ := h.made
  obtain ⟨rfl, -⟩ := candidate_ok hm
  exact ⟨h.load, rfl, rfl, rfl, same_stored r.metadata⟩

lemma sameArtifact_of_agrees {r' : Request} {m' : ArtifactMetadata} (h : Published p s r' m')
    (hm : candidate p r now = .ok m) (hagrees : Agrees p s (stored m') r) : sameArtifact (stored m') m = true := by
  have hpayload : r'.payload = r.payload := Except.ok.inj (h.load.symm.trans hagrees.payload)
  obtain ⟨now', hm'⟩ := h.made
  obtain ⟨rfl, -⟩ := candidate_ok hm
  obtain ⟨rfl, -⟩ := candidate_ok hm'
  refine sameArtifact_iff.mpr ⟨hagrees.artifactType, hagrees.name, hagrees.contentType, ?_, ?_, hagrees.metadata⟩
  · change (r'.payload.length : ℤ) = r.payload.length
    rw [hpayload]
  · change (p.sha256 r'.payload).text = (p.sha256 r.payload).text
    rw [hpayload]

lemma agrees_of_sameArtifact {r' : Request} {m' : ArtifactMetadata} (h : Published p s r' m')
    (hm : candidate p r now = .ok m) (hdigest : p.sha256 r'.payload = p.sha256 r.payload → r'.payload = r.payload)
    (hsame : sameArtifact (stored m') m = true) : Agrees p s (stored m') r := by
  obtain ⟨htype, hname, hcontent, -, hsha, hmetadata⟩ := sameArtifact_iff.mp hsame
  have hload := h.load
  obtain ⟨now', hm'⟩ := h.made
  obtain ⟨rfl, -⟩ := candidate_ok hm
  obtain ⟨rfl, -⟩ := candidate_ok hm'
  refine ⟨?_, htype, hname, hcontent, hmetadata⟩
  have hsame : p.sha256 r'.payload = p.sha256 r.payload := by
    change (p.sha256 r'.payload).text = (p.sha256 r.payload).text at hsha
    cases hr' : p.sha256 r'.payload
    cases hr : p.sha256 r.payload
    simpa [hr', hr] using hsha
  rw [← hdigest hsame]
  exact hload

lemma saveSync_there {r' : Request} {m' : ArtifactMetadata} (h : Published p s r' m')
    (hm : candidate p r now = .ok m) (hid : m'.artifactId = m.artifactId) (stage : String) :
    saveSync p s r now stage =
      (if sameArtifact (stored m') m then .saved r (stored m') else .raised (.conflict m.artifactId),
        { s with requests := s.requests ++ [r] }) := by
  obtain ⟨now', hm'⟩ := h.made
  have hthere := h.there
  rw [hid] at hthere
  simp only [saveSync, hm, hthere, readMetadata_whole hm', readPayload_whole hm']
  split <;> rfl

lemma not_there (h : Inv p s) (hidle : Idle s) (hm : candidate p r now = .ok m)
    (hfree : ∀ m', Listed p s m' → m'.artifactId ≠ m.artifactId) : directory s.dirs m.artifactId = none := by
  cases hd : directory s.dirs m.artifactId with
  | none => rfl
  | some d =>
    obtain ⟨r', hr', now', m', hm', rfl⟩ := h.whole m.artifactId d (candidate_not_hidden hm) (hidle.not_removing _) hd
    have hid : m'.artifactId = m.artifactId := @lookup_key _ _ _ Directory.name _ _ _ hd
    have hpublished : Published p s r' m' := ⟨hr', ⟨now', hm'⟩, hid ▸ hd⟩
    exact absurd hid (hfree (stored m') ((listed_iff h hidle).mpr ⟨r', m', hpublished, rfl⟩))

def started (s : State) (r : Request) (m : ArtifactMetadata) (stage : String) : State :=
  { s with
    dirs := s.dirs ++ [⟨stageName stage, none, none⟩]
    phase := .staged (stageName stage) r m
    requests := s.requests ++ [r] }

lemma saveSync_free (hm : candidate p r now = .ok m)
    (hfree : directory s.dirs m.artifactId = none) (hstage : directory s.dirs (stageName stage) = none) :
    saveSync p s r now stage = (.running, started s r m stage) := by
  simp only [saveSync, hm, hfree, hstage]
  rfl

lemma next_publishes (h : Inv p s)
    (hphase : s.phase = .manifestWritten stage r m) :
    next p s = (.saved r (stored m), { s with dirs := rename s.dirs stage m.artifactId, phase := .idle }) ∧
      Published p (next p s).2 r m := by
  have hp := h.progress
  simp only [Progress, hphase] at hp
  have hthere := (directory_publish hp m.artifactId).trans (if_pos rfl)
  obtain ⟨now, hm⟩ := hp.made
  have hnext : next p s = (.saved r (stored m), { s with dirs := rename s.dirs stage m.artifactId, phase := .idle }) := by
    simp only [next, hphase, published, hthere, readMetadata_whole hm]
  rw [hnext]
  exact ⟨rfl, hp.asked, hp.made, hthere⟩

lemma save_completes (h : Inv p (started s r m stage)) :
    (step p (final (step p) (started s r m stage) [.next, .next]) .next).1 = .saved r (stored m) := by
  have hfirst := inv_next h
  have hsecond := inv_next hfirst
  exact congrArg Prod.fst (next_publishes hsecond rfl).1

/-- A list succeeds between two operations, and what it holds loads as it was saved. -/
structure Kept (p : Host) (e : Entry State Action Outcome) : Prop where
  lists : Idle e.after → ∀ artifactType, ∃ items, listArtifacts p e.after.dirs artifactType = .ok items
  loads : Idle e.after → ∀ m, Listed p e.after m → ∃ r ∈ e.after.requests, resolvedId p r = m.artifactId ∧ Agrees p e.after m r
  again : ∀ r now stage m m', Idle e.before → asked p e.before e.action = some (r, now, stage) → candidate p r now = .ok m →
    Listed p e.before m' → m'.artifactId = m.artifactId → Agrees p e.before m' r →
    e.outcome = .saved r m' ∧ e.after.dirs = e.before.dirs
  refused : ∀ r now stage m m', Idle e.before → asked p e.before e.action = some (r, now, stage) → candidate p r now = .ok m →
    Listed p e.before m' → m'.artifactId = m.artifactId → ¬ Agrees p e.before m' r →
    e.outcome = .raised (.conflict m.artifactId) ∧ e.after.dirs = e.before.dirs
  fresh : ∀ r now stage m, Idle e.before → asked p e.before e.action = some (r, now, stage) → candidate p r now = .ok m →
    (∀ m', Listed p e.before m' → m'.artifactId ≠ m.artifactId) → directory e.before.dirs (stageName stage) = none →
    e.outcome = .running ∧ (step p (final (step p) e.after [.next, .next]) .next).1 = .saved r (stored m)
  saved : ∀ r m, e.outcome = .saved r m → Idle e.after ∧ Listed p e.after m ∧ Agrees p e.after m r
  deleted : ∀ artifactId existed, e.outcome = .deleted artifactId existed →
    Idle e.after ∧ ∀ m, Listed p e.after m → m.artifactId ≠ artifactId

lemma loads_ok (h : Inv p s) (hidle : Idle s) (hm : Listed p s m) :
    ∃ r ∈ s.requests, resolvedId p r = m.artifactId ∧ Agrees p s m r := by
  obtain ⟨r, m', hpublished, rfl⟩ := (listed_iff h hidle).mp hm
  obtain ⟨now, hmade⟩ := hpublished.made
  refine ⟨r, hpublished.asked, ?_, hpublished.agrees⟩
  obtain ⟨rfl, -⟩ := candidate_ok hmade
  rfl

lemma requests_saveSync (r : Request) (now : ℤ) (stage : String) : s.requests ⊆ (saveSync p s r now stage).2.requests := by
  unfold saveSync
  split
  · exact List.Subset.refl _
  · simp only
    split
    · split
      · exact List.subset_append_left ..
      · split
        · split <;> exact List.subset_append_left ..
        · exact List.subset_append_left ..
    · split
      · exact List.Subset.refl _
      · exact List.subset_append_left ..

lemma saveSync_saved {r' : Request} (h : (saveSync p s r now stage).1 = .saved r' m) :
    r' = r ∧ (saveSync p s r now stage).2 = { s with requests := s.requests ++ [r] } ∧
      ∃ m' d, candidate p r now = .ok m' ∧ directory s.dirs m'.artifactId = some d ∧ readMetadata p d = .ok m ∧
        sameArtifact m m' = true := by
  cases hm : candidate p r now with
  | error text => simp [saveSync, hm] at h
  | ok m' =>
    cases hd : directory s.dirs m'.artifactId with
    | none =>
      simp only [saveSync, hm, hd] at h
      split at h <;> cases h
    | some d =>
      simp only [saveSync, hm, hd] at h ⊢
      cases hread : readMetadata p d with
      | error error => simp [hread] at h
      | ok existing =>
        simp only [hread] at h ⊢
        split at h
        · rename_i hsame
          cases hpayload : readPayload p d with
          | error error => simp [hpayload] at h
          | ok payload =>
            simp only [hpayload, Outcome.saved.injEq] at h ⊢
            obtain ⟨rfl, rfl⟩ := h
            rw [if_pos hsame]
            exact ⟨rfl, rfl, m', d, rfl, hd, hread, hsame⟩
        · cases h

lemma call_saved (h : (call p s a).1 = .saved r m) :
    ∃ now stage, call p s a = saveSync p s r now stage := by
  cases a with
  | save artifactType name content artifactId contentType metadata now stage =>
    simp only [call] at h ⊢
    split at h
    · cases h
    · obtain ⟨rfl, -⟩ := saveSync_saved h
      exact ⟨now, stage, rfl⟩
  | archive ids name artifactId metadata now stage =>
    simp only [call] at h ⊢
    split at h
    · cases h
    · split at h
      · cases h
      · obtain ⟨rfl, -⟩ := saveSync_saved h
        exact ⟨now, stage, rfl⟩
  | load artifactId =>
    simp only [call] at h
    split at h
    · cases h
    · split at h <;> cases h
  | list artifactType =>
    simp only [call] at h
    split at h <;> cases h
  | delete artifactId =>
    simp only [call] at h
    split at h
    · cases h
    · unfold deleteSync at h
      split at h <;> cases h
  | _ => cases h

lemma step_saved (h : (step p s a).1 = .saved r m) :
    (∃ now stage, Idle s ∧ step p s a = saveSync p s r now stage) ∨
      ∃ stage r' m', s.phase = .manifestWritten stage r' m' ∧ step p s a = next p s := by
  cases a with
  | next =>
    change (next p s).1 = _ at h
    unfold next at h
    cases hphase : s.phase with
    | manifestWritten stage r' m' => exact .inr ⟨stage, r', m', rfl, rfl⟩
    | removing artifactId =>
      simp only [hphase] at h
      split at h <;> cases h
    | _ => simp [hphase] at h
  | unlink payload =>
    simp only [step, unlink] at h
    split at h <;> cases h
  | fault removed =>
    simp only [step, fault] at h
    split at h <;> cases h
  | crash => cases h
  | _ =>
    simp only [step] at h ⊢
    split at h
    · rename_i hidle
      obtain ⟨now, stage, hcall⟩ := call_saved h
      rw [hidle]
      exact .inl ⟨now, stage, hidle, hcall⟩
    · cases h

lemma saved_ok (h : Inv p s) (hafter : Inv p (step p s a).2) (hdigest : Collisionless p (step p s a).2.requests)
    (hsaved : (step p s a).1 = .saved r m) :
    Idle (step p s a).2 ∧ Listed p (step p s a).2 m ∧ Agrees p (step p s a).2 m r := by
  rcases step_saved hsaved with ⟨now, stage, hidle, hstep⟩ | ⟨stage, r', m', hphase, hstep⟩
  · rw [hstep] at hsaved hafter hdigest ⊢
    obtain ⟨-, hsame, m', d, hm, hd, hread, hartifact⟩ := saveSync_saved hsaved
    rw [hsame] at hafter hdigest ⊢
    obtain ⟨r', hr', now', m'', hm'', rfl⟩ := h.whole _ d (candidate_not_hidden hm) (hidle.not_removing _) hd
    have hid : m''.artifactId = m'.artifactId := @lookup_key _ _ _ Directory.name _ _ _ hd
    rw [readMetadata_whole hm''] at hread
    obtain rfl := Except.ok.inj hread
    have hpublished : Published p { s with requests := s.requests ++ [r] } r' m'' :=
      ⟨List.mem_append_left _ hr', ⟨now', hm''⟩, hid ▸ hd⟩
    refine ⟨hidle, (listed_iff hafter hidle).mpr ⟨r', m'', hpublished, rfl⟩, agrees_of_sameArtifact hpublished hm ?_ hartifact⟩
    exact hdigest r' (List.mem_append_left _ hr') r (List.mem_append_right _ (List.mem_singleton_self r))
  · rw [hstep] at hsaved hafter ⊢
    obtain ⟨hnext, hpublished⟩ := next_publishes h hphase
    have hidle : Idle (next p s).2 := by rw [hnext]; rfl
    rw [hnext] at hsaved
    obtain ⟨rfl, rfl⟩ : r' = r ∧ stored m' = m := by simpa using hsaved
    exact ⟨hidle, (listed_iff hafter hidle).mpr ⟨r', m', hpublished, rfl⟩, hpublished.agrees⟩

lemma saveSync_not_deleted (r : Request) (now : ℤ) (stage artifactId : String) (existed : Bool) :
    (saveSync p s r now stage).1 ≠ .deleted artifactId existed := by
  unfold saveSync
  split
  · exact nofun
  · simp only
    split
    · split
      · exact nofun
      · split
        · split <;> exact nofun
        · exact nofun
    · split <;> exact nofun

lemma call_deleted {artifactId : String} {existed : Bool} (h : (call p s a).1 = .deleted artifactId existed) :
    (call p s a).2 = s ∧ directory s.dirs artifactId = none := by
  cases a with
  | save artifactType name content id contentType metadata now stage =>
    simp only [call] at h
    split at h
    · cases h
    · exact (saveSync_not_deleted _ _ _ _ _ h).elim
  | archive ids name id metadata now stage =>
    simp only [call] at h
    split at h
    · cases h
    · split at h
      · cases h
      · exact (saveSync_not_deleted _ _ _ _ _ h).elim
  | load id =>
    simp only [call] at h
    split at h
    · cases h
    · split at h <;> cases h
  | list artifactType =>
    simp only [call] at h
    split at h <;> cases h
  | delete id =>
    simp only [call] at h ⊢
    split at h
    · cases h
    · unfold deleteSync at h ⊢
      split at h
      · rename_i hnone
        simp only [Outcome.deleted.injEq] at h
        exact ⟨rfl, h.1 ▸ hnone⟩
      · cases h
  | _ => cases h

lemma deleted_free {artifactId : String} {existed : Bool} (h : (step p s a).1 = .deleted artifactId existed) :
    Idle (step p s a).2 ∧ directory (step p s a).2.dirs artifactId = none := by
  cases a with
  | next =>
    change (next p s).1 = _ at h
    change Idle (next p s).2 ∧ directory (next p s).2.dirs artifactId = none
    unfold next at h ⊢
    cases hphase : s.phase with
    | manifestWritten stage r m =>
      simp only [hphase, published] at h
      split at h
      · cases h
      · split at h <;> cases h
    | removing id =>
      simp only [hphase] at h ⊢
      split at h
      · simp only [Outcome.deleted.injEq] at h
        refine ⟨rfl, (lookup_deleteRow id s.dirs artifactId).trans ?_⟩
        rw [if_pos h.1.symm]
      · cases h
    | _ => simp [hphase] at h
  | unlink payload =>
    simp only [step, unlink] at h
    split at h <;> cases h
  | fault removed =>
    simp only [step, fault] at h
    split at h <;> cases h
  | crash => cases h
  | _ =>
    simp only [step] at h ⊢
    split at h
    · rename_i hidle
      obtain ⟨hsame, hnone⟩ := call_deleted h
      simp only [hsame]
      exact ⟨hidle, hnone⟩
    · cases h

lemma kept_step (a : Action) (h : Inv p s) (hok : Intact (entry (step p) s a))
    (hdigest : Collisionless p (step p s a).2.requests) : Kept p (entry (step p) s a) := by
  have hafter := inv_step a h hok
  constructor
  case lists =>
    intro hidle artifactType
    obtain ⟨items, hitems, -⟩ := list_ok hafter hidle artifactType
    exact ⟨items, hitems⟩
  case loads =>
    intro hidle m hm
    exact loads_ok hafter hidle hm
  case again =>
    intro r now stage m m' hidle ha hm hlisted hid hagrees
    obtain ⟨r', m'', hpublished, rfl⟩ := (listed_iff h hidle).mp hlisted
    have hstep := (step_asked hidle ha).trans (saveSync_there hpublished hm hid stage)
    rw [sameArtifact_of_agrees hpublished hm hagrees, if_pos rfl] at hstep
    exact ⟨congrArg Prod.fst hstep, congrArg (fun o => o.2.dirs) hstep⟩
  case refused =>
    intro r now stage m m' hidle ha hm hlisted hid hagrees
    obtain ⟨r', m'', hpublished, rfl⟩ := (listed_iff h hidle).mp hlisted
    have hstep := (step_asked hidle ha).trans (saveSync_there hpublished hm hid stage)
    have hrequests : (step p s a).2.requests = s.requests ++ [r] := congrArg (fun o => o.2.requests) hstep
    rw [hrequests] at hdigest
    have hdifferent : ¬ sameArtifact (stored m'') m = true := fun hsame => hagrees <|
      agrees_of_sameArtifact hpublished hm (hdigest r' (List.mem_append_left _ hpublished.asked) r
        (List.mem_append_right _ (List.mem_singleton_self r))) hsame
    rw [if_neg hdifferent] at hstep
    exact ⟨congrArg Prod.fst hstep, congrArg (fun o => o.2.dirs) hstep⟩
  case fresh =>
    intro r now stage m hidle ha hm hfree hstage
    have hstep := (step_asked hidle ha).trans (saveSync_free hm (not_there h hidle hm hfree) hstage)
    have hstarted : (step p s a).2 = started s r m stage := congrArg Prod.snd hstep
    rw [hstarted] at hafter
    refine ⟨congrArg Prod.fst hstep, ?_⟩
    simp only [entry_after, hstarted]
    exact save_completes hafter
  case saved =>
    intro r m hsaved
    exact saved_ok h hafter hdigest hsaved
  case deleted =>
    intro artifactId existed hdeleted
    obtain ⟨hidle, hnone⟩ := deleted_free hdeleted
    refine ⟨hidle, fun m hm hid => ?_⟩
    obtain ⟨r, m', hpublished, rfl⟩ := (listed_iff hafter hidle).mp hm
    have hthere := hpublished.there
    change m'.artifactId = artifactId at hid
    rw [hid] at hthere
    exact absurd (hthere.symm.trans hnone) nofun

structure Stays (s : State) (name : String) (d : Directory) : Prop where
  there : directory s.dirs name = some d
  phase : s.phase ≠ .removing name

variable {name : String}

lemma stays_saveSync (hvisible : isHidden name = false) (hd : directory s.dirs name = some d)
    (hphase : s.phase ≠ .removing name) (r : Request) (now : ℤ) (stage : String) : Stays (saveSync p s r now stage).2 name d := by
  constructor
  · unfold saveSync
    split
    · exact hd
    · simp only
      split
      · split
        · exact hd
        · split
          · split <;> exact hd
          · exact hd
      · split
        · exact hd
        · rename_i hstage
          refine (directory_append s.dirs ⟨stageName stage, none, none⟩ name hstage).trans ?_
          rw [if_neg (name_ne_stage (stage_hidden stage) hvisible)]
          exact hd
  · unfold saveSync
    split
    · exact hphase
    · simp only
      split
      · split
        · exact hphase
        · split
          · split <;> exact hphase
          · exact hphase
      · split
        · exact hphase
        · exact nofun

lemma stays_call (hvisible : isHidden name = false) (hd : directory s.dirs name = some d)
    (hphase : s.phase ≠ .removing name) (ha : a ≠ .delete name) : Stays (call p s a).2 name d := by
  have hsame : Stays s name d := ⟨hd, hphase⟩
  cases a with
  | save artifactType name' content artifactId contentType metadata now stage =>
    simp only [call]
    split
    · exact hsame
    · exact stays_saveSync hvisible hd hphase _ now stage
  | archive ids name' artifactId metadata now stage =>
    simp only [call]
    split
    · exact hsame
    · split
      · exact hsame
      · exact stays_saveSync hvisible hd hphase _ now stage
  | load artifactId =>
    simp only [call]
    split
    · exact hsame
    · split <;> exact hsame
  | list artifactType =>
    simp only [call]
    split <;> exact hsame
  | delete artifactId =>
    simp only [call]
    split
    · exact hsame
    · rename_i id hid
      obtain rfl := validateArtifactId_eq hid
      unfold deleteSync
      split
      · exact hsame
      · refine ⟨hd, fun hremoving => ha ?_⟩
        rw [Phase.removing.injEq] at hremoving
        rw [hremoving]
  | _ => exact hsame

lemma stays_next (h : Inv p s) (hvisible : isHidden name = false)
    (hd : directory s.dirs name = some d) (hphase : s.phase ≠ .removing name) : Stays (next p s).2 name d := by
  have hp := h.progress
  unfold Progress at hp
  cases hs : s.phase with
  | idle =>
    simp only [next, hs]
    exact ⟨hd, hphase⟩
  | staged stage r m | payloadWritten stage r m =>
    simp only [hs] at hp
    simp only [next, hs]
    refine ⟨?_, by rintro ⟨⟩⟩
    change directory (updateDirectory s.dirs stage _) name = _
    rw [directory_update, if_neg (name_ne_stage hp.hidden hvisible)]
    · exact hd
    · exact fun _ => rfl
  | manifestWritten stage r m =>
    rw [(next_publishes h hs).1]
    simp only [hs] at hp
    refine ⟨(directory_publish hp name).trans ?_, by rintro ⟨⟩⟩
    have hne : name ≠ m.artifactId := fun hname => absurd ((hname ▸ hd).symm.trans hp.free) (Option.some_ne_none _)
    rw [if_neg hne, if_neg (name_ne_stage hp.hidden hvisible)]
    exact hd
  | removing artifactId =>
    simp only [next, hs]
    split
    · have hne : name ≠ artifactId := by
        rintro rfl
        exact hphase hs
      exact ⟨(lookup_deleteRow artifactId s.dirs name).trans ((if_neg hne).trans hd), by rintro ⟨⟩⟩
    · exact ⟨hd, hphase⟩

lemma stays_step (h : Inv p s) (hvisible : isHidden name = false)
    (hd : directory s.dirs name = some d) (hphase : s.phase ≠ .removing name) (ha : a ≠ .delete name) :
    Stays (step p s a).2 name d := by
  have hp := h.progress
  unfold Progress at hp
  cases a with
  | next => exact stays_next h hvisible hd hphase
  | unlink payload =>
    simp only [step, unlink]
    split
    · rename_i artifactId hs
      have hne : name ≠ artifactId := by
        rintro rfl
        exact hphase hs
      refine ⟨?_, hphase⟩
      change directory (updateDirectory s.dirs artifactId _) name = _
      rw [directory_update, if_neg hne]
      · exact hd
      · intro x
        split <;> rfl
    · exact ⟨hd, hphase⟩
  | fault removed =>
    simp only [step, fault]
    cases hs : s.phase with
    | idle => exact ⟨hd, hphase⟩
    | removing artifactId => exact ⟨hd, by rintro ⟨⟩⟩
    | staged stage r m | payloadWritten stage r m | manifestWritten stage r m =>
      simp only [hs] at hp
      refine ⟨?_, by rintro ⟨⟩⟩
      cases removed with
      | false => exact hd
      | true => exact (lookup_deleteRow stage s.dirs name).trans ((if_neg (name_ne_stage hp.hidden hvisible)).trans hd)
  | crash => exact ⟨hd, by rintro ⟨⟩⟩
  | _ =>
    simp only [step]
    split
    · exact stays_call hvisible hd hphase ha
    · exact ⟨hd, hphase⟩

lemma requests_call (a : Action) : s.requests ⊆ (call p s a).2.requests := by
  have hsame := List.Subset.refl s.requests
  cases a with
  | save artifactType name content artifactId contentType metadata now stage =>
    simp only [call]
    split
    · exact hsame
    · exact requests_saveSync ..
  | archive ids name artifactId metadata now stage =>
    simp only [call]
    split
    · exact hsame
    · split
      · exact hsame
      · exact requests_saveSync ..
  | load artifactId =>
    simp only [call]
    split
    · exact hsame
    · split <;> exact hsame
  | list artifactType =>
    simp only [call]
    split <;> exact hsame
  | delete artifactId =>
    simp only [call]
    split
    · exact hsame
    · unfold deleteSync
      split <;> exact hsame
  | _ => exact hsame

lemma requests_step (a : Action) : s.requests ⊆ (step p s a).2.requests := by
  have hsame := List.Subset.refl s.requests
  cases a with
  | next =>
    simp only [step, next]
    split
    · exact hsame
    · exact hsame
    · exact hsame
    · unfold published
      split
      · exact hsame
      · split <;> exact hsame
    · split <;> exact hsame
  | unlink payload =>
    simp only [step, unlink]
    split <;> exact hsame
  | fault removed =>
    simp only [step, fault]
    split <;> exact hsame
  | crash => exact hsame
  | _ =>
    simp only [step]
    split
    · exact requests_call _
    · exact hsame

lemma requests_final (s : State) (actions : List Action) : s.requests ⊆ (final (step p) s actions).requests := by
  induction actions generalizing s with
  | nil => exact List.Subset.refl _
  | cons a actions ih => exact List.Subset.trans (requests_step a) (ih _)

lemma Collisionless.mono {requests requests' : List Request} (h : Collisionless p requests') (hsubset : requests ⊆ requests') :
    Collisionless p requests :=
  fun r hr r' hr' => h r (hsubset hr) r' (hsubset hr')

variable {actions : List Action}

lemma kept_run (hok : ∀ e ∈ trace (step p) .initial actions, Intact e)
    (hdigest : Collisionless p (final (step p) .initial actions).requests) :
    ∀ e ∈ trace (step p) .initial actions, Kept p e := by
  intro e he
  have hinv := (invariant_of (fun _ a => inv_step a) inv_initial hok).1 e he
  obtain ⟨before, after, rfl, hentry⟩ := mem_trace he
  rw [final_append, final_cons] at hdigest
  have hintact := hok e he
  rw [hentry] at hinv hintact ⊢
  exact kept_step e.action hinv.1 hintact (hdigest.mono (requests_final _ after))

lemma stays_run (hvisible : isHidden name = false) {s : State} (h : Inv p s)
    (hstays : Stays s name d) (hok : ∀ e ∈ trace (step p) s actions, Intact e) (hdelete : .delete name ∉ actions) :
    Stays (final (step p) s actions) name d := by
  induction actions generalizing s with
  | nil => exact hstays
  | cons a actions ih =>
    have hfirst : Intact (entry (step p) s a) := hok _ (List.mem_cons_self ..)
    have hne : a ≠ .delete name := fun ha => hdelete (ha ▸ List.mem_cons_self ..)
    exact ih (inv_step a h hfirst) (stays_step h hvisible hstays.there hstays.phase hne)
      (fun e he => hok e (List.mem_cons_of_mem _ he)) fun hmem => hdelete (List.mem_cons_of_mem _ hmem)

def RecordsStay (p : Host) (actions : List Action) : Prop :=
  ∀ first a rest r m, actions = first ++ a :: rest → (step p (final (step p) .initial first) a).1 = .saved r m →
    .delete m.artifactId ∉ rest → Idle (final (step p) .initial actions) →
    Listed p (final (step p) .initial actions) m ∧ Agrees p (final (step p) .initial actions) m r

lemma records_stay (hok : ∀ e ∈ trace (step p) .initial actions, Intact e)
    (hdigest : Collisionless p (final (step p) .initial actions).requests) : RecordsStay p actions := by
  rintro first a rest r m rfl hsaved hdelete hidle
  have hfinal := (invariant_of (fun _ a => inv_step a) inv_initial hok).2
  rw [trace_append, trace_cons] at hok
  rw [final_append, final_cons] at hdigest hidle hfinal ⊢
  have hbefore := (invariant_of (fun _ a => inv_step a) inv_initial fun e he => hok e (List.mem_append_left _ he)).2
  have hafter := inv_step a hbefore (hok _ (List.mem_append_right _ (List.mem_cons_self ..)))
  obtain ⟨hidle', hlisted, hagrees⟩ := saved_ok hbefore hafter (hdigest.mono (requests_final _ rest)) hsaved
  obtain ⟨r', m', hpublished, rfl⟩ := (listed_iff hafter hidle').mp hlisted
  obtain ⟨now, hm⟩ := hpublished.made
  have hstays := stays_run (candidate_not_hidden hm) hafter ⟨hpublished.there, hidle'.not_removing _⟩
    (fun e he => hok e (List.mem_append_right _ (List.mem_cons_of_mem _ he))) hdelete
  have hlater : Published p (final (step p) (step p (final (step p) .initial first) a).2 rest) r' m' :=
    ⟨requests_final _ rest hpublished.asked, hpublished.made, hstays.there⟩
  refine ⟨(listed_iff hfinal hidle).mpr ⟨r', m', hlater, rfl⟩, ?_, hagrees.artifactType, hagrees.name, hagrees.contentType,
    hagrees.metadata⟩
  have hpayload : r'.payload = r.payload := Except.ok.inj (hpublished.load.symm.trans hagrees.payload)
  exact hlater.load.trans (congrArg Except.ok hpayload)

/-- Where no removal is cut short, what was saved is listed and loads as it was saved, at every point of every run. -/
theorem store_integrity (p : Host) (actions : List Action) (hok : ∀ e ∈ trace (step p) .initial actions, Intact e)
    (hdigest : Collisionless p (final (step p) .initial actions).requests) :
    (∀ e ∈ trace (step p) .initial actions, Kept p e) ∧ RecordsStay p actions :=
  ⟨kept_run hok hdigest, records_stay hok hdigest⟩

def exampleFormat (t : ℤ) : String :=
  if t = 0 then "1970-01-01T00:00:00Z"
  else if 0 < t then String.ofList (List.replicate t.toNat '+')
  else String.ofList (List.replicate (-t).toNat '-')

def exampleParse (text : String) : Option ℤ :=
  match text.toList with
  | '+' :: cs => some (cs.length + 1)
  | '-' :: cs => some (-(cs.length + 1))
  | _ => if text = "1970-01-01T00:00:00Z" then some 0 else none

def exampleHost : Host where
  -- the digest of no bytes
  sha256 := fun _ => ⟨"e3b0c44298fc1c149afbf4c8996fb92427ae41e4649b934ca495991b7852b855", FirmwareManifest.isDigest_ofList (by decide +kernel)⟩
  format := exampleFormat
  parse := exampleParse
  parse_format := by
    intro t
    unfold exampleFormat
    split
    · subst t
      rfl
    · split
      · obtain ⟨n, rfl⟩ : ∃ n : ℕ, t = n + 1 := ⟨t.toNat - 1, by omega⟩
        simp [exampleParse, List.replicate_succ]
      · obtain ⟨n, rfl⟩ : ∃ n : ℕ, t = -(n + 1) := ⟨(-t).toNat - 1, by omega⟩
        simp [exampleParse, List.replicate_succ]
  archive := fun _ => []
  root := "/artifacts"

def emptyLog : Action :=
  .save .buildLog "build.log" [] (some "log") none ⟨[], by simp [Proper, ProperEntries]⟩ 0 "0"

def savedAgain : List Action :=
  [emptyLog, .next, .next, .next, .delete "log", .unlink true, .unlink false, .next, emptyLog, .next, .next, .next]

theorem savedAgain_integrity :
    (∀ e ∈ trace (step exampleHost) .initial savedAgain, Kept exampleHost e) ∧ RecordsStay exampleHost savedAgain := by
  refine store_integrity exampleHost savedAgain (fun e he => ?_) fun r hr r' hr' _ => ?_
  · have haction := action_mem he
    simp only [savedAgain, emptyLog, List.mem_cons, List.not_mem_nil, or_false] at haction
    unfold Intact
    rcases haction with h | h | h | h | h | h | h | h | h | h | h | h <;> simp [h]
  · have hpayload : (final (step exampleHost) .initial savedAgain).requests.map Request.payload = [[], []] := by decide +kernel
    have hempty : ∀ r ∈ (final (step exampleHost) .initial savedAgain).requests, r.payload = [] := by
      intro r hr
      simpa [hpayload] using List.mem_map_of_mem (f := Request.payload) hr
    rw [hempty r hr, hempty r' hr']

def payloadRemoved : List Action := [emptyLog, .next, .next, .next, .delete "log", .unlink true, .crash]

theorem payloadRemoved_listed : ¬ ∀ e ∈ trace (step exampleHost) .initial payloadRemoved, Kept exampleHost e := by
  intro h
  have hread : (listArtifacts exampleHost (final (step exampleHost) .initial payloadRemoved).dirs none).toOption.map
      (·.map ArtifactMetadata.artifactId) = some ["log"] ∧
      (load exampleHost (final (step exampleHost) .initial payloadRemoved).dirs "log").toOption = none := by decide +kernel
  obtain ⟨hlist, hload⟩ := hread
  have hlast : entry (step exampleHost) (final (step exampleHost) .initial payloadRemoved.dropLast) .crash ∈
      trace (step exampleHost) .initial (payloadRemoved.dropLast ++ [.crash]) := by
    rw [trace_append]
    exact List.mem_append_right _ (List.mem_cons_self ..)
  rcases hitems : listArtifacts exampleHost (final (step exampleHost) .initial payloadRemoved).dirs none with _ | ms <;> rw [hitems] at hlist
  · cases hlist
  · obtain ⟨m, hm, hid⟩ := List.mem_map.mp (Option.some.inj hlist ▸ List.mem_singleton_self "log")
    obtain ⟨r, -, -, hagrees⟩ := (h _ hlast).loads rfl m ⟨ms, hitems, hm⟩
    have hpayload := hagrees.payload
    rw [hid] at hpayload
    cases (congrArg Except.toOption hpayload).symm.trans hload

end PromptForge.ArtifactStore
