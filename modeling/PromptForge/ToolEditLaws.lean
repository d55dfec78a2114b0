import PromptForge.ToolEdits

namespace PromptForge.ToolEdits
open Occurrences Runs Tables

variable {host : Host} {s : Executor} {overlay overlay' : Overlay} {path : String} {oldText newText content current : Text}

lemma published (h : writeStage host overlay path content = .ok overlay') : overlayFile host overlay' path = some (fileOf content) ∧
    ∀ other, host.normcase other ≠ host.normcase path → overlayFile host overlay' other = overlayFile host overlay other := by
  obtain ⟨-, h⟩ := require_iff.mp h
  obtain ⟨-, h⟩ := require_iff.mp h
  obtain ⟨-, h⟩ := require_iff.mp h
  obtain ⟨-, h⟩ := require_iff.mp h
  obtain ⟨-, h⟩ := require_iff.mp h
  cases h
  constructor
  · have hkept : host.normcase path ∉ (overlay.deleted.filter fun old => host.normcase old ≠ host.normcase path).map host.normcase := by
      simp
    simp only [overlayFile, if_neg hkept, fileAt, lookup_replaceRow, if_true, Option.map_some, Option.some_or]
  · intro other hother
    have hdeleted : host.normcase other ∈ (overlay.deleted.filter fun old => host.normcase old ≠ host.normcase path).map host.normcase ↔
        host.normcase other ∈ overlay.deleted.map host.normcase := by
      simp only [List.mem_map, List.mem_filter, decide_eq_true_eq]
      constructor
      · rintro ⟨old, ⟨hold, -⟩, hsame⟩
        exact ⟨old, hold, hsame⟩
      · rintro ⟨old, hold, hsame⟩
        exact ⟨old, ⟨hold, hsame ▸ hother⟩, hsame⟩
    simp only [overlayFile, hdeleted, fileAt, lookup_replaceRow, if_neg hother]

lemma text_of_read (h : readOverlayText host overlay path = .ok current) :
    ∃ file, overlayFile host overlay path = some file ∧ file.text = some current := by
  unfold readOverlayText at h
  split at h
  · cases h
  · split at h
    · cases h
    · rename_i file hfile
      split at h
      · cases h
      · split at h
        · cases h
        · rename_i text htext
          split at h
          · cases h
          · split at h
            · cases h
            · cases h
              exact ⟨file, hfile, htext⟩

def Overlapping (word text : Text) : Prop :=
  ∃ i, OccursAt word text i ∧ (∃ j, OccursAt word text j ∧ j ≠ i) ∧ ∀ k, OccursAt word text k → i ≤ k ∧ k < i + word.length

structure GoesThrough (host : Host) (s : Executor) (path : String) (oldText newText current : Text) (overlay' : Overlay) : Prop where
  admitted : host.admits s.overlay (.editFileSimple path oldText newText) = none
  read : readOverlayText host s.overlay path = .ok current
  unrequired : path ∉ s.editReadRequired
  changes : newText ≠ oldText
  stage : writeStage host s.overlay path (replaceFirst oldText newText current) = .ok overlay'

def Once (word text : Text) : Prop := ∃ i, OccursAt word text i ∧ ∀ k, OccursAt word text k → i ≤ k ∧ k < i + word.length

lemma once_nonempty (h : Once oldText current) : oldText ≠ [] := by
  obtain ⟨i, hi, hall⟩ := h
  have hwithin := (hall i hi).2
  intro hempty
  rw [hempty, List.length_nil] at hwithin
  omega

lemma matchCount_eq_one_iff : matchCount oldText current = 1 ↔ Once oldText current := by
  unfold matchCount
  by_cases hword : oldText = []
  · rw [if_pos hword]
    constructor
    · intro h
      cases h
    · exact fun h => absurd hword (once_nonempty h)
  · rw [if_neg hword]
    exact count_eq_one_iff hword

lemma edit_cases (host : Host) (s : Executor) (path : String) (oldText newText : Text) :
    ((execute host s (.editFileSimple path oldText newText)).2.overlay = s.overlay) ∨
    ∃ current overlay', GoesThrough host s path oldText newText current overlay' ∧ Once oldText current ∧
      execute host s (.editFileSimple path oldText newText) =
        (.ok (.edited true (textBytes (replaceFirst oldText newText current)) path), { s with overlay := overlay' }) := by
  unfold execute
  cases hadmits : host.admits s.overlay (.editFileSimple path oldText newText) with
  | some reason => exact .inl rfl
  | none =>
    simp only [editFileSimple]
    cases hread : readOverlayText host s.overlay path with
    | error refusal => exact .inl rfl
    | ok current =>
      by_cases hrefuse : matchCount oldText current ≠ 1 ∨ path ∈ s.editReadRequired
      · exact .inl (by simp only [if_pos hrefuse])
      · simp only [if_neg hrefuse]
        obtain ⟨hcount, hfree⟩ := not_or.mp hrefuse
        have honce := matchCount_eq_one_iff.mp (not_not.mp hcount)
        by_cases hchanged : replaceFirst oldText newText current = current
        · exact .inl (by simp [hchanged, publish, keeping, Except.map])
        · cases hstage : writeStage host s.overlay path (replaceFirst oldText newText current) with
          | error refusal => exact .inl (by simp [hchanged, publish, hstage, keeping, Except.map])
          | ok overlay' =>
            refine .inr ⟨current, overlay', ⟨hadmits, hread, hfree, ?_, hstage⟩, honce, by simp [hchanged, publish, hstage, keeping, Except.map]⟩
            rintro rfl
            obtain ⟨i, hi, hall⟩ := honce
            obtain ⟨before, after, htext, -, hreplaced⟩ := replaceFirst_eq hi fun k hk => (hall k hk).1
            exact hchanged (hreplaced.trans htext.symm)

lemma edit_of_goesThrough (h : GoesThrough host s path oldText newText current overlay') (honce : Once oldText current) :
    execute host s (.editFileSimple path oldText newText) =
      (.ok (.edited true (textBytes (replaceFirst oldText newText current)) path), { s with overlay := overlay' }) ∧
    replaceFirst oldText newText current ≠ current := by
  have hcount := matchCount_eq_one_iff.mpr honce
  obtain ⟨i, hi, hall⟩ := honce
  obtain ⟨before, after, htext, -, hreplaced⟩ := @replaceFirst_eq _ _ oldText current newText i hi fun k hk => (hall k hk).1
  have hchanged : replaceFirst oldText newText current ≠ current := fun hsame => by
    rw [hreplaced, htext, List.append_assoc, List.append_assoc, List.append_cancel_left_eq, List.append_cancel_right_eq] at hsame
    exact h.changes hsame
  refine ⟨?_, hchanged⟩
  simp only [execute, h.admitted, editFileSimple, h.read, hcount, ne_eq, not_true_eq_false, h.unrequired,
    or_self, if_false, hchanged, not_false_eq_true, decide_true, publish, if_true, h.stage, keeping, Except.map]

/-- Where an edit changes its file, it has replaced the only occurrence of its text, and left the
rest of the file and the other files as they were. -/
def Unambiguous (host : Host) (s : Executor) (path : String) (oldText newText : Text) : Prop :=
  let s' := (execute host s (.editFileSimple path oldText newText)).2
  overlayFile host s'.overlay path ≠ overlayFile host s.overlay path →
    ∃ current before after, readOverlayText host s.overlay path = .ok current ∧ current = before ++ oldText ++ after ∧
      (∀ i, OccursAt oldText current i → i = before.length) ∧
      overlayFile host s'.overlay path = some (fileOf (before ++ newText ++ after)) ∧
      ∀ other, host.normcase other ≠ host.normcase path → overlayFile host s'.overlay other = overlayFile host s.overlay other

lemma unambiguous_iff (host : Host) (s : Executor) (path : String) (oldText newText : Text) :
    Unambiguous host s path oldText newText ↔
      ∀ current overlay', GoesThrough host s path oldText newText current overlay' → ¬ Overlapping oldText current := by
  constructor
  · rintro h current overlay' hgoes ⟨i, hi, ⟨j, hj, hne⟩, hall⟩
    obtain ⟨hexecute, hchanged⟩ := edit_of_goesThrough hgoes ⟨i, hi, hall⟩
    obtain ⟨file, hfile, htext⟩ := text_of_read hgoes.read
    unfold Unambiguous at h
    rw [hexecute] at h
    have hdiffers : overlayFile host overlay' path ≠ overlayFile host s.overlay path := fun hsame => by
      rw [(published hgoes.stage).1, hfile, Option.some.injEq] at hsame
      rw [← hsame] at htext
      exact hchanged (Option.some.inj htext)
    obtain ⟨found, before, after, hread, -, hplaces, -⟩ := h hdiffers
    cases hgoes.read.symm.trans hread
    exact hne ((hplaces j hj).trans (hplaces i hi).symm)
  · intro h hdiffers
    rcases edit_cases host s path oldText newText with hsame | ⟨current, overlay', hgoes, ⟨i, hi, hall⟩, hexecute⟩
    · exact absurd (by rw [hsame]) hdiffers
    · obtain ⟨before, after, htext, hlength, hreplaced⟩ := @replaceFirst_eq _ _ oldText current newText i hi fun k hk => (hall k hk).1
      obtain ⟨hfile, hothers⟩ := published hgoes.stage
      rw [hexecute]
      refine ⟨current, before, after, hgoes.read, htext, fun j hj => ?_, by rw [hfile, hreplaced], hothers⟩
      by_contra hne
      exact h current overlay' hgoes ⟨i, hi, ⟨j, hj, fun hsame => hne (hsame.trans hlength.symm)⟩, hall⟩

def Reads (path : String) (e : Entry Executor Call (Except Refusal Result)) : Prop := e.action = .readFile path ∧ ∃ result, e.outcome = .ok result

lemma keeping_required (outcome : Except Refusal (Result × Overlay)) : (keeping s outcome).2.editReadRequired = s.editReadRequired := by
  cases outcome <;> rfl

lemma required_step (hrequired : path ∈ s.editReadRequired) (call : Call) (hread : ¬ Reads path (entry (execute host) s call)) :
    path ∈ (execute host s call).2.editReadRequired := by
  unfold Reads entry at hread
  unfold execute at hread ⊢
  cases hadmits : host.admits s.overlay call with
  | some reason => exact hrequired
  | none =>
    simp only [hadmits] at hread ⊢
    cases call with
    | readFile other =>
      simp only [readFile] at hread ⊢
      cases hother : readOverlayText host s.overlay other with
      | error refusal => exact hrequired
      | ok text =>
        simp only [hother] at hread ⊢
        refine List.mem_filter.mpr ⟨hrequired, decide_eq_true fun hsame => hread ⟨by rw [hsame], .read text, rfl⟩⟩
    | editFileSimple other oldText newText =>
      simp only [editFileSimple]
      split
      · exact hrequired
      · split
        · exact List.mem_cons_of_mem _ hrequired
        · rw [keeping_required]
          exact hrequired
    | other effect => exact hrequired
    | _ =>
      rw [keeping_required]
      exact hrequired

lemma required_run {calls : List Call} (hrequired : path ∈ s.editReadRequired) (hread : ∀ e ∈ trace (execute host) s calls, ¬ Reads path e) :
    path ∈ (final (execute host) s calls).editReadRequired :=
  (@invariant_of _ _ _ (execute host) (fun s => path ∈ s.editReadRequired) (fun e => ¬ Reads path e)
    (fun _ call h hcall => required_step h call hcall) s calls hrequired hread).2

def NotMatch : Refusal → Prop
  | .editMatch _ => False
  | _ => True

lemma notMatch_of_read {refusal : Refusal} (h : readOverlayText host overlay path = .error refusal) : NotMatch refusal := by
  unfold readOverlayText at h
  split at h
  · cases h
    trivial
  · split at h
    · cases h
      trivial
    · split at h
      · cases h
        trivial
      · split at h
        · cases h
          trivial
        · split at h
          · cases h
            trivial
          · split at h
            · cases h
              trivial
            · cases h

lemma notMatch_of_write {refusal : Refusal} (h : writeStage host overlay path content = .error refusal) : NotMatch refusal := by
  rcases error_of_require h with rfl | h
  · trivial
  rcases error_of_require h with rfl | h
  · trivial
  rcases error_of_require h with rfl | h
  · trivial
  rcases error_of_require h with rfl | h
  · trivial
  rcases error_of_require h with rfl | h
  · trivial
  cases h

lemma required_of_mismatch {details : EditMatch}
    (h : (execute host s (.editFileSimple path oldText newText)).1 = .error (.editMatch details)) :
    path ∈ (execute host s (.editFileSimple path oldText newText)).2.editReadRequired := by
  unfold execute at h ⊢
  cases hadmits : host.admits s.overlay (.editFileSimple path oldText newText) with
  | some reason => simp [hadmits] at h
  | none =>
    simp only [hadmits, editFileSimple] at h ⊢
    cases hread : readOverlayText host s.overlay path with
    | error refusal =>
      simp only [hread, Except.error.injEq] at h
      rw [h] at hread
      exact (notMatch_of_read hread).elim
    | ok current =>
      simp only [hread] at h ⊢
      by_cases hrefuse : matchCount oldText current ≠ 1 ∨ path ∈ s.editReadRequired
      · simp only [if_pos hrefuse]
        exact List.mem_cons_self ..
      · simp only [if_neg hrefuse] at h
        unfold publish at h
        split at h
        · cases hstage : writeStage host s.overlay path (replaceFirst oldText newText current) with
          | error refusal =>
            simp only [hstage, Except.map, keeping, Except.error.injEq] at h
            rw [h] at hstage
            exact (notMatch_of_write hstage).elim
          | ok overlay => simp [hstage, Except.map, keeping] at h
        · simp [Except.map, keeping] at h

lemma refused_of_required (h : path ∈ s.editReadRequired) :
    ∃ refusal, (execute host s (.editFileSimple path oldText newText)).1 = .error refusal := by
  unfold execute
  cases host.admits s.overlay (.editFileSimple path oldText newText) with
  | some reason => exact ⟨_, rfl⟩
  | none =>
    simp only [editFileSimple]
    cases readOverlayText host s.overlay path with
    | error refusal => exact ⟨_, rfl⟩
    | ok current => exact ⟨_, by simp only [h, or_true, if_true]; rfl⟩

/-- An edit is unambiguous just when it does not go through on a text with overlapping occurrences. -/
theorem edit_exact (host : Host) (s : Executor) (path : String) (oldText newText : Text) :
    (Unambiguous host s path oldText newText ↔
      ∀ current overlay', GoesThrough host s path oldText newText current overlay' → ¬ Overlapping oldText current) ∧
    (∀ refusal, (execute host s (.editFileSimple path oldText newText)).1 = .error refusal →
      (execute host s (.editFileSimple path oldText newText)).2.overlay = s.overlay) ∧
    ∀ details, (execute host s (.editFileSimple path oldText newText)).1 = .error (.editMatch details) →
      ∀ calls oldText' newText', (∀ e ∈ trace (execute host) (execute host s (.editFileSimple path oldText newText)).2 calls, ¬ Reads path e) →
        ∃ refusal, (execute host (final (execute host) (execute host s (.editFileSimple path oldText newText)).2 calls)
          (.editFileSimple path oldText' newText')).1 = .error refusal := by
  refine ⟨unambiguous_iff host s path oldText newText, fun refusal h => ?_, fun details h calls oldText' newText' hread => ?_⟩
  · rcases edit_cases host s path oldText newText with hsame | ⟨current, overlay', -, -, hexecute⟩
    · exact hsame
    · rw [hexecute] at h
      cases h
  · exact refused_of_required (required_run (required_of_mismatch h) hread)

def exampleHost : Host where
  admits _ _ := none
  publishes _ _ := true
  normcase path := path
  casefold path := path
  isSensitivePath _ := false
  hasSecret _ := false
  hasEnvironment _ := false
  maxFileBytes := 512000
  maxContentBytes := 128000
  digits := UnifiedPatches.asciiDigits

def threeLetters : Executor := ⟨⟨[("main.cpp", fileOf ['a', 'a', 'a'])], [], []⟩, []⟩

def mismatched : Executor := (execute exampleHost threeLetters (.editFileSimple "main.cpp" ['b'] ['c'])).2

theorem edit_exact_mismatched : ∃ refusal, (execute exampleHost (final (execute exampleHost) mismatched [.writeFile "main.cpp" ['b']])
    (.editFileSimple "main.cpp" ['b'] ['c'])).1 = .error refusal := by
  refine (edit_exact exampleHost threeLetters "main.cpp" ['b'] ['c']).2.2 ⟨"main.cpp", 0, "no_match"⟩ (by rfl) _ _ _ fun e he hread => ?_
  rw [trace_cons, trace_nil, List.mem_singleton] at he
  subst he
  cases hread.1

/-- Two letters `a` stand at two places of three. -/
theorem threeLetters_ambiguous : ¬ ∀ (host : Host) (s : Executor) (path : String) (oldText newText : Text),
    Unambiguous host s path oldText newText := by
  intro hclaim
  have hchanged : overlayFile exampleHost (execute exampleHost threeLetters (.editFileSimple "main.cpp" ['a', 'a'] ['b'])).2.overlay "main.cpp" ≠
      overlayFile exampleHost threeLetters.overlay "main.cpp" := by decide +kernel
  obtain ⟨current, before, after, hread, -, hplaces, -⟩ := hclaim exampleHost threeLetters "main.cpp" ['a', 'a'] ['b'] hchanged
  have hsame : readOverlayText exampleHost threeLetters.overlay "main.cpp" = .ok ['a', 'a', 'a'] := by rfl
  cases hsame.symm.trans hread
  have hfirst := hplaces 0 ⟨[], ['a'], rfl, rfl⟩
  have hsecond := hplaces 1 ⟨['a'], [], rfl, rfl⟩
  omega

end PromptForge.ToolEdits
