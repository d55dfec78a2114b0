import PromptForge.ProviderSettings

namespace PromptForge.ProviderSettings
open Runs Tables Json

section Spec
variable (backend : Backend)

def Save.apply (save : Save) (stored : Stored) : Stored :=
  match save.load backend stored with
  | .ok (_, next) => .of next
  | .error _ => stored

def documentAfter (stored : Stored) (written : List Written) : Stored :=
  written.foldl (fun stored w => w.save.apply backend stored) stored

def keysAfter (keys : String → Option String) (log : List KeyWritten) : String → Option String :=
  log.foldl (fun keys w => Function.update keys w.target w.value) keys

def recordAt (data : State) (s : Section) (key : String) : Option Value :=
  (obj? (data s)).bind fun records => Dict.get? records key

def record (stored : Stored) (s : Section) (key : String) : Option Value :=
  match readUnlocked backend stored with
  | .ok data => recordAt data s key
  | .error _ => none

def plaintextOf (v : Value) : Option Value := (obj? v).bind fun settings => Dict.get? settings "api_key"

def plaintext (stored : Stored) (providerId : String) : Option Value :=
  (record backend stored .providers providerId).bind plaintextOf

def apiKeyOf (target : String → String) (stored : Stored) (keys : String → Option String) (providerId : String) :
    Option String :=
  match (record backend stored .providers providerId).bind fun v => (obj? v).bind legacyKey with
  | some legacy => some legacy
  | none => keys (target providerId)

def Save.touches : Save → Section → String → Prop
  | .write _, _, _ => True
  | .customProviderDefinition p _, s, key => s = .customProviders ∧ key = p
  | .deleteCustomProviderDefinition p, s, key => s = .customProviders ∧ key = p
  | .deleteProviderState p, s, key => s ∈ ownedSections ∧ key = p
  | .providerSettings p _, s, key => s = .providers ∧ key = p
  | .providerHealth p _, s, key => s = .health ∧ key = p
  | .providerModels p _, s, key => s = .models ∧ key = p
  | .modelCatalogMetadata p _, s, key => s = .modelCatalogs ∧ key = p
  | .modelAvailability p _ _, s, key => s = .modelAvailability ∧ key = p
  | .route taskType _, s, key => s = .routes ∧ key = taskType

def Save.Sound : Save → Prop
  | .write data => checkWrite .sqlite (orEmpty data) = .ok ()
  | _ => True

lemma documentAfter_concat (stored : Stored) (written : List Written) (w : Written) :
    documentAfter backend stored (written ++ [w]) = w.save.apply backend (documentAfter backend stored written) := by
  unfold documentAfter
  rw [List.foldl_append]
  rfl

lemma keysAfter_concat (keys : String → Option String) (log : List KeyWritten) (w : KeyWritten) :
    keysAfter keys (log ++ [w]) = Function.update (keysAfter keys log) w.target w.value := by
  unfold keysAfter
  rw [List.foldl_append]
  rfl

end Spec

def Dicts (data : State) : Prop := ∀ s, isDict (data s) = true

lemma all_sections {f : Section → Bool} : Section.all.all f = true ↔ ∀ s, f s = true := by
  constructor
  · intro h s
    apply List.all_eq_true.1 h
    cases s <;> decide
  · intro h
    exact List.all_eq_true.2 fun s _ => h s

/-- A save leaves every record that it does not touch, and dicts where it found them. -/
structure Follows (touched : Section → String → Prop) (data next : State) : Prop where
  dicts : Dicts data → Dicts next
  frame : ∀ s key, ¬ touched s key → recordAt next s key = recordAt data s key

lemma Follows.refl (touched : Section → String → Prop) (data : State) : Follows touched data data :=
  ⟨id, fun _ _ _ => rfl⟩

lemma Follows.trans {touched : Section → String → Prop} {data next last : State} (h : Follows touched data next)
    (h' : Follows touched next last) : Follows touched data last :=
  ⟨fun hd => h'.dicts (h.dicts hd), fun s key hk => (h'.frame s key hk).trans (h.frame s key hk)⟩

lemma Follows.mono {touched touched' : Section → String → Prop} {data next : State} (h : Follows touched data next)
    (hsub : ∀ s key, touched s key → touched' s key) : Follows touched' data next :=
  ⟨h.dicts, fun s key hk => h.frame s key fun ht => hk (hsub s key ht)⟩

section Records
variable {s : Section} {key : String} {data next : State}

lemma follows_update {records records' : Dict} (h : obj? (data s) = some records)
    (hrest : ∀ k, k ≠ key → Dict.get? records' k = Dict.get? records k) :
    Follows (fun s' k => s' = s ∧ k = key) data (Function.update data s (.obj records')) := by
  constructor
  · intro hd s'
    by_cases hs : s' = s
    · subst hs
      rw [Function.update_self]
      rfl
    · rw [Function.update_of_ne hs]
      exact hd s'
  · intro s' k hk
    unfold recordAt
    by_cases hs : s' = s
    · subst hs
      rw [Function.update_self, h]
      exact hrest k fun hkey => hk ⟨rfl, hkey⟩
    · rw [Function.update_of_ne hs]

lemma saveRecord_eq {value : Value} (h : saveRecord s key value data = some next) :
    ∃ records, obj? (data s) = some records ∧
      next = Function.update data s (.obj (Dict.set key value records)) := by
  obtain ⟨records, hr, hn⟩ := Option.bind_eq_some_iff.1 h
  exact ⟨records, hr, (Option.some.inj hn).symm⟩

lemma saveRecord_follows {value : Value} (h : saveRecord s key value data = some next) :
    Follows (fun s' k => s' = s ∧ k = key) data next := by
  obtain ⟨records, hr, rfl⟩ := saveRecord_eq h
  apply follows_update hr
  intro k hk
  rw [Dict.get?_set, if_neg hk]

lemma recordAt_saveRecord {value : Value} (h : saveRecord s key value data = some next) :
    recordAt next s key = some value := by
  obtain ⟨records, -, rfl⟩ := saveRecord_eq h
  unfold recordAt
  rw [Function.update_self]
  change Dict.get? (Dict.set key value records) key = _
  rw [Dict.get?_set, if_pos rfl]

variable (h : deleteRecord s key data = some next)

include h in
lemma deleteRecord_eq :
    ∃ records, obj? (data s) = some records ∧ next = Function.update data s (.obj (Dict.erase key records)) := by
  obtain ⟨records, hr, hn⟩ := Option.bind_eq_some_iff.1 h
  exact ⟨records, hr, (Option.some.inj hn).symm⟩

include h in
lemma deleteRecord_follows :
    Follows (fun s' k => s' = s ∧ k = key) data next := by
  obtain ⟨records, hr, rfl⟩ := deleteRecord_eq h
  apply follows_update hr
  intro k hk
  rw [Dict.get?_erase, if_neg hk]

include h in
lemma recordAt_deleteRecord : recordAt next s key = none := by
  obtain ⟨records, -, rfl⟩ := deleteRecord_eq h
  unfold recordAt
  rw [Function.update_self]
  change Dict.get? (Dict.erase key records) key = _
  rw [Dict.get?_erase, if_pos rfl]

include h in
lemma recordAt_deleteRecord_none {s' : Section} {key' : String} (hgone : recordAt data s' key' = none) : recordAt next s' key' = none := by
  by_cases hp : s' = s ∧ key' = key
  · obtain ⟨rfl, rfl⟩ := hp
    exact recordAt_deleteRecord h
  · rw [(deleteRecord_follows h).frame s' key' hp, hgone]

end Records

section Deletions
variable {providerId : String} {data next : State}

lemma deleteAll_follows {sections : List Section}
    (h : sections.foldlM (fun data s => deleteRecord s providerId data) data = some next) :
    Follows (fun s key => s ∈ sections ∧ key = providerId) data next := by
  induction sections generalizing data with
  | nil =>
    cases h
    exact Follows.refl ..
  | cons s sections ih =>
    obtain ⟨mid, hmid, hrest⟩ := Option.bind_eq_some_iff.1 h
    have hfirst : Follows (fun s' key => s' ∈ s :: sections ∧ key = providerId) data mid :=
      (deleteRecord_follows hmid).mono fun s' key h => ⟨h.1 ▸ List.mem_cons_self .., h.2⟩
    exact hfirst.trans ((ih hrest).mono fun s' key h => ⟨List.mem_cons_of_mem _ h.1, h.2⟩)

lemma deleteAll_gone {sections : List Section} {s : Section}
    (h : sections.foldlM (fun data s => deleteRecord s providerId data) data = some next)
    (hs : s ∈ sections ∨ recordAt data s providerId = none) : recordAt next s providerId = none := by
  induction sections generalizing data with
  | nil =>
    cases h
    exact hs.resolve_left List.not_mem_nil
  | cons s' sections ih =>
    obtain ⟨mid, hmid, hrest⟩ := Option.bind_eq_some_iff.1 h
    apply ih hrest
    rcases hs with hs | hs
    · rcases List.mem_cons.1 hs with rfl | hs
      · exact Or.inr (recordAt_deleteRecord hmid)
      · exact Or.inl hs
    · exact Or.inr (recordAt_deleteRecord_none hmid hs)

end Deletions

lemma saveProviderSettings_eq {p : String} {settings : Dict} {data next : State}
    (h : saveProviderSettings p settings data = some next) :
    ∃ current, saveRecord .providers p (.obj (nextSettings p settings current)) data = some next := by
  obtain ⟨providers, -, hn⟩ := Option.bind_eq_some_iff.1 h
  exact ⟨_, hn⟩

lemma saveModelAvailability_eq {p m : String} {status : Dict} {data next : State}
    (h : saveModelAvailability p m status data = some next) :
    ∃ value, saveRecord .modelAvailability p value data = some next := by
  obtain ⟨rows, -, hn⟩ := Option.bind_eq_some_iff.1 h
  obtain ⟨records, -, hn⟩ := Option.bind_eq_some_iff.1 hn
  exact ⟨_, hn⟩

lemma update_follows {save : Save} {data next : State} (hwrite : ∀ d, save ≠ .write d)
    (h : save.update data = some next) : Follows save.touches data next := by
  cases save with
  | write d => exact absurd rfl (hwrite d)
  | deleteCustomProviderDefinition p => exact deleteRecord_follows h
  | deleteProviderState p => exact deleteAll_follows h
  | providerSettings p settings =>
    obtain ⟨current, hn⟩ := saveProviderSettings_eq h
    exact saveRecord_follows hn
  | modelAvailability p m status =>
    obtain ⟨value, hn⟩ := saveModelAvailability_eq h
    exact saveRecord_follows hn
  | _ => exact saveRecord_follows h

lemma get?_saveField {settings next : Dict} {key k : String} (hk : k ≠ key) :
    Dict.get? (saveField settings next key) k = Dict.get? next k := by
  unfold saveField
  split
  · rfl
  · rw [Dict.get?_erase, if_neg hk]
  · rw [Dict.get?_set, if_neg hk]

lemma plaintextOf_nextSettings (p : String) (settings current : Dict) :
    plaintextOf (.obj (nextSettings p settings current)) = none := by
  change Dict.get? (nextSettings p settings current) "api_key" = none
  unfold nextSettings savedFields
  rw [List.foldl_cons, List.foldl_cons, List.foldl_cons, List.foldl_nil, get?_saveField (by decide),
    get?_saveField (by decide), get?_saveField (by decide), Dict.get?_erase, if_pos rfl]

def plaintextAt (data : State) (p : String) : Option Value := (recordAt data .providers p).bind plaintextOf

lemma plaintextAt_of_checkWrite {next : State} (h : checkWrite .sqlite next = .ok ()) (p : String) :
    plaintextAt next p = none := by
  have hany : ((obj? (next .providers)).getD []).any (fun e => hasPlaintext e.2) = false := by
    by_contra hne
    rw [Bool.not_eq_false] at hne
    unfold checkWrite at h
    simp only [hne, if_true] at h
    split at h <;> cases h
  unfold plaintextAt recordAt
  rcases ho : obj? (next .providers) with _ | records
  · rfl
  · rw [ho] at hany
    change ((Dict.get? records p).bind plaintextOf) = none
    rcases hg : Dict.get? records p with _ | v
    · rfl
    · have hv : hasPlaintext v = false := by
        have hall := List.any_eq_false.1 hany _ (Dict.mem_of_get? hg)
        simpa using hall
      unfold hasPlaintext at hv
      change plaintextOf v = none
      unfold plaintextOf
      rcases hr : obj? v with _ | settings
      · rfl
      · rw [hr] at hv
        exact Option.not_isSome_iff_eq_none.1 (by simpa using hv)

lemma update_plaintext {save : Save} {data next : State} (hsound : save.Sound)
    (h : save.update data = some next) (p : String) {v : Value} (hv : plaintextAt next p = some v) :
    plaintextAt data p = some v := by
  by_cases hw : ∃ d, save = .write d
  · obtain ⟨d, rfl⟩ := hw
    cases h
    rw [plaintextAt_of_checkWrite hsound p] at hv
    cases hv
  · have hwrite : ∀ d, save ≠ .write d := fun d hd => hw ⟨d, hd⟩
    by_cases ht : save.touches .providers p
    · exfalso
      cases save with
      | write d => exact hwrite d rfl
      | providerSettings q settings =>
        obtain ⟨-, rfl⟩ := ht
        obtain ⟨current, hn⟩ := saveProviderSettings_eq h
        unfold plaintextAt at hv
        rw [recordAt_saveRecord hn] at hv
        exact Option.some_ne_none v (hv.symm.trans (plaintextOf_nextSettings ..))
      | deleteProviderState q =>
        obtain ⟨hs, rfl⟩ := ht
        unfold plaintextAt at hv
        rw [deleteAll_gone h (Or.inl hs)] at hv
        cases hv
      | _ => exact absurd ht.1 (by decide)
    · rwa [plaintextAt, (update_follows hwrite h).frame .providers p ht] at hv

section Written
variable {backend : Backend} {save : Save} {stored : Stored} {change : Option KeyChange} {data next : State}

lemma dictOrEmpty_of_isDict {v : Value} (h : isDict v = true) : dictOrEmpty v = v := if_pos h

lemma isDict_dictOrEmpty (v : Value) : isDict (dictOrEmpty v) = true := by
  unfold dictOrEmpty
  split
  · assumption
  · rfl

lemma dicts_of_read (h : readUnlocked backend stored = .ok data) : Dicts data := by
  cases stored with
  | absent =>
    cases h
    exact fun _ => rfl
  | document sections =>
    cases backend with
    | json =>
      cases h
      exact fun s => isDict_dictOrEmpty _
    | sqlite =>
      unfold readUnlocked at h
      by_cases hall : (Section.all.all fun s => isDict (orEmpty sections s)) = true
      · simp only [hall, if_true, Except.ok.injEq] at h
        rw [← h]
        exact all_sections.1 hall
      · simp only [hall] at h
        cases h
  | _ => cases h

lemma readUnlocked_of (h : Dicts next) : readUnlocked backend (.of next) = .ok next := by
  cases backend with
  | json => exact congrArg Except.ok (funext fun s => dictOrEmpty_of_isDict (h s))
  | sqlite => exact if_pos (all_sections.2 h)

lemma load_eq (h : save.load backend stored = .ok (change, next)) :
    ∃ data, save.base backend stored = .ok data ∧ save.keyChange = .ok change ∧ save.update data = some next := by
  unfold Save.load at h
  obtain ⟨data, hbase, h⟩ := ok_of_bind h
  obtain ⟨change', hchange, h⟩ := ok_of_bind h
  rcases hu : save.update data with _ | next' <;> simp only [hu] at h
  · cases h
  · cases h
    exact ⟨data, hbase, hchange, hu⟩

lemma base_of_not_write (h : ∀ d, save ≠ .write d) : save.base backend stored = readUnlocked backend stored := by
  cases save with
  | write d => exact absurd rfl (h d)
  | _ => rfl

lemma isWrite_or (save : Save) : (∃ d, save = .write d) ∨ ∀ d, save ≠ .write d := by
  cases save with
  | write d => exact Or.inl ⟨d, rfl⟩
  | _ => exact Or.inr nofun

lemma dicts_of_checkWrite (h : checkWrite .sqlite next = .ok ()) : Dicts next := by
  by_contra hne
  have hall : (Section.all.all fun s => isDict (next s)) = false := by
    rw [Bool.eq_false_iff]
    exact fun hall => hne (all_sections.1 hall)
  unfold checkWrite at h
  simp [hall] at h

lemma dicts_of_load (h : save.load backend stored = .ok (change, next)) (hsound : save.Sound) : Dicts next := by
  obtain ⟨data, hbase, -, hu⟩ := load_eq h
  rcases isWrite_or save with ⟨d, rfl⟩ | hwrite
  · cases hu
    exact dicts_of_checkWrite hsound
  · rw [base_of_not_write hwrite] at hbase
    exact (update_follows hwrite hu).dicts (dicts_of_read hbase)

lemma apply_of_load (h : save.load backend stored = .ok (change, next)) : save.apply backend stored = .of next := by
  unfold Save.apply
  rw [h]

lemma record_of (h : Dicts next) (s : Section) (key : String) :
    record backend (.of next) s key = recordAt next s key := by
  unfold record
  rw [readUnlocked_of h]

lemma record_of_read (h : readUnlocked backend stored = .ok data) (s : Section) (key : String) :
    record backend stored s key = recordAt data s key := by
  unfold record
  rw [h]

lemma record_apply {s : Section} {key : String} (ht : ¬ save.touches s key) :
    record backend (save.apply backend stored) s key = record backend stored s key := by
  rcases hload : save.load backend stored with error | ⟨change, next⟩
  · unfold Save.apply
    rw [hload]
  · have hwrite : ∀ d, save ≠ .write d := by
      rintro d rfl
      exact ht trivial
    obtain ⟨data, hbase, -, hu⟩ := load_eq hload
    rw [base_of_not_write hwrite] at hbase
    have hfollows := update_follows hwrite hu
    rw [apply_of_load hload, record_of (hfollows.dicts (dicts_of_read hbase)), record_of_read hbase,
      hfollows.frame s key ht]

lemma record_documentAfter {s : Section} {key : String} {written : List Written}
    (h : ∀ w ∈ written, ¬ w.save.touches s key) :
    record backend (documentAfter backend stored written) s key = record backend stored s key := by
  induction written generalizing stored with
  | nil => rfl
  | cons w written ih =>
    refine Eq.trans ?_ (record_apply (h w (List.mem_cons_self ..)))
    exact ih fun w' hw' => h w' (List.mem_cons_of_mem _ hw')

lemma plaintext_apply {p : String} {v : Value} (hsound : save.Sound)
    (h : plaintext backend (save.apply backend stored) p = some v) : plaintext backend stored p = some v := by
  rcases hload : save.load backend stored with error | ⟨change, next⟩
  · unfold Save.apply at h
    rwa [hload] at h
  · obtain ⟨data, hbase, -, hu⟩ := load_eq hload
    unfold plaintext at h
    rw [apply_of_load hload, record_of (dicts_of_load hload hsound)] at h
    have hdata := update_plaintext hsound hu p h
    rcases isWrite_or save with ⟨d, rfl⟩ | hwrite
    · cases hbase
      cases hdata
    · rw [base_of_not_write hwrite] at hbase
      unfold plaintext
      rwa [record_of_read hbase]

lemma plaintext_documentAfter {written : List Written} {p : String} {v : Value}
    (hsound : ∀ w ∈ written, w.save.Sound) (h : plaintext backend (documentAfter backend stored written) p = some v) :
    plaintext backend stored p = some v := by
  induction written generalizing stored with
  | nil => exact h
  | cons w written ih =>
    exact plaintext_apply (hsound w (List.mem_cons_self ..))
      (ih (fun w' hw' => hsound w' (List.mem_cons_of_mem _ hw')) h)

end Written

end PromptForge.ProviderSettings
