import PromptForge.ArtifactStore

namespace PromptForge.ArtifactStore
open Runs Json Tables
open FirmwareManifest (Bytes Digest isDigest)
open JsonText (Proper ProperEntries canon canonEntries sortEntries)

lemma lookup_perm {α β : Type} [DecidableEq α] {key : β → α} {t u : List β} (h : t.Perm u) (hn : (u.map key).Nodup) (k : α) :
    lookup key t k = lookup key u k := by
  cases ht : lookup key t k with
  | none =>
    refine (lookup_eq_none.mpr fun r hr => ?_).symm
    exact lookup_eq_none.mp ht r (h.mem_iff.mpr hr)
  | some r =>
    obtain rfl := lookup_key ht
    exact (lookup_of_mem hn (h.mem_iff.mp (lookup_mem ht))).symm

lemma get?_canonEntries (d : Dict) (k : String) : Dict.get? (canonEntries d) k = (Dict.get? d k).map canon := by
  induction d with
  | nil => rfl
  | cons e d ih =>
    rw [JsonText.canonEntries_eq_map] at ih ⊢
    unfold Dict.get? at ih ⊢
    rw [List.map_cons, lookup_cons, lookup_cons]
    by_cases hk : e.1 = k
    · simp [hk]
    · simpa [hk] using ih

lemma get?_canon {d : Dict} (h : (d.map Prod.fst).Nodup) (k : String) :
    Dict.get? (sortEntries (canonEntries d)) k = (Dict.get? d k).map canon := by
  rw [← get?_canonEntries]
  refine congrArg (Option.map Prod.snd) (lookup_perm (JsonText.perm_sortEntries _) ?_ k)
  rw [JsonText.keys_canonEntries]
  exact h

lemma keysOkEntries_iff {entries : List (String × Value)} :
    keysOkEntries entries = true ↔ ∀ e ∈ entries, e.1 ≠ "" ∧ keysOk e.2 = true := by
  induction entries with
  | nil => exact ⟨fun _ _ h => absurd h List.not_mem_nil, fun _ => rfl⟩
  | cons e es ih =>
    rw [List.forall_mem_cons, ← ih]
    simp [keysOkEntries]

mutual

lemma keysOk_canon (v : Value) (h : keysOk v = true) : keysOk (canon v) = true := by
  match v, h with
  | .null, _ | .bool _, _ | .int _, _ | .float _, _ | .str _, _ => rfl
  | .arr items, h => exact keysOk_canonItems items h
  | .obj entries, h =>
    refine keysOkEntries_iff.mpr fun e he => ?_
    have hentries := keysOkEntries_iff.mp (keysOk_canonEntries entries h)
    exact hentries e ((JsonText.perm_sortEntries _).mem_iff.mp he)

lemma keysOk_canonItems (items : List Value) (h : keysOkItems items = true) :
    keysOkItems (JsonText.canonItems items) = true := by
  match items, h with
  | [], _ => rfl
  | v :: vs, h =>
    simp only [keysOkItems, Bool.and_eq_true] at h
    simp [JsonText.canonItems, keysOkItems, keysOk_canon v h.1, keysOk_canonItems vs h.2]

lemma keysOk_canonEntries (entries : List (String × Value)) (h : keysOkEntries entries = true) :
    keysOkEntries (canonEntries entries) = true := by
  match entries, h with
  | [], _ => rfl
  | (k, v) :: es, h =>
    simp only [keysOkEntries, Bool.and_eq_true] at h
    simp [canonEntries, keysOkEntries, h.1.1, keysOk_canon v h.1.2, keysOk_canonEntries es h.2]

end

structure Valid (m : ArtifactMetadata) : Prop where
  artifactId : validateArtifactId (.str m.artifactId) = .ok m.artifactId
  name : validateArtifactName (.str m.name) = .ok m.name
  artifactPath : validateText "artifact_path" (.str m.artifactPath) = .ok m.artifactPath
  contentType : validateText "content_type" (.str m.contentType) = .ok m.contentType
  sizeBytes : validateSize (.int m.sizeBytes) = .ok m.sizeBytes
  sha256 : validateSha256 (.str m.sha256) = .ok m.sha256
  metadata : keysOk (.obj m.metadata) = true

lemma construct_valid {m : ArtifactMetadata} (h : Valid m) :
    construct (.str m.artifactId) m.artifactType (.str m.name) (.str m.artifactPath) (.str m.contentType) (.int m.sizeBytes)
      (.str m.sha256) m.createdAt (.obj m.metadata) = .ok m := by
  unfold construct
  rw [h.artifactId, h.name, h.artifactPath, h.contentType, h.sizeBytes, h.sha256]
  simp [freezeMetadata, obj?, h.metadata, bind, Except.bind]

lemma validateArtifactId_eq {text id : String} (h : validateArtifactId (.str text) = .ok id) : id = text := by
  simp only [validateArtifactId, str?] at h
  split at h <;> cases h
  rfl

lemma validateArtifactName_eq {text name : String} (h : validateArtifactName (.str text) = .ok name) : name = text := by
  simp only [validateArtifactName, str?] at h
  repeat (split at h; cases h)
  cases h
  rfl

lemma validateText_eq {fieldName text value : String} (h : validateText fieldName (.str text) = .ok value) : value = text := by
  simp only [validateText, str?] at h
  repeat (split at h; cases h)
  cases h
  rfl

lemma validateSize_eq {n size : ℤ} (h : validateSize (.int n) = .ok size) : size = n := by
  simp only [validateSize] at h
  split at h <;> cases h
  rfl

lemma validateSha256_eq {text digest : String} (h : validateSha256 (.str text) = .ok digest) : digest = text := by
  simp only [validateSha256, str?] at h
  split at h <;> cases h
  rfl

lemma construct_ok {artifactId name artifactPath contentType sha256 : String} {artifactType : ArtifactType} {size createdAt : ℤ}
    {metadata : Dict} {m : ArtifactMetadata}
    (h : construct (.str artifactId) artifactType (.str name) (.str artifactPath) (.str contentType) (.int size) (.str sha256)
      createdAt (.obj metadata) = .ok m) :
    m = ⟨artifactId, artifactType, name, artifactPath, contentType, size, sha256, createdAt, metadata⟩ ∧ Valid m := by
  obtain ⟨id, hid, h⟩ := ok_of_bind h
  obtain ⟨name', hname, h⟩ := ok_of_bind h
  obtain ⟨path, hpath, h⟩ := ok_of_bind h
  obtain ⟨ct, hct, h⟩ := ok_of_bind h
  obtain ⟨size', hsize, h⟩ := ok_of_bind h
  obtain ⟨digest, hdigest, h⟩ := ok_of_bind h
  obtain ⟨metadata', hmetadata, h⟩ := ok_of_bind h
  cases h
  obtain rfl := validateArtifactId_eq hid
  obtain rfl := validateArtifactName_eq hname
  obtain rfl := validateText_eq hpath
  obtain rfl := validateText_eq hct
  obtain rfl := validateSize_eq hsize
  obtain rfl := validateSha256_eq hdigest
  simp only [freezeMetadata, obj?] at hmetadata
  split at hmetadata
  · rename_i hkeys
    cases hmetadata
    exact ⟨rfl, hid, hname, hpath, hct, hsize, hdigest, hkeys⟩
  · cases hmetadata

variable {p : Host}

def stored (m : ArtifactMetadata) : ArtifactMetadata := { m with metadata := sortEntries (canonEntries m.metadata) }

lemma valid_stored {m : ArtifactMetadata} (h : Valid m) : Valid (stored m) :=
  { h with metadata := keysOk_canon (.obj m.metadata) h.metadata }

lemma exactSchema_ok {entries : Dict} {expected : List String} (label : String)
    (hexpected : ∀ k ∈ expected, (entries.get? k).isSome) (hknown : ∀ k ∈ entries.map Prod.fst, k ∈ expected) :
    exactSchema (.obj entries) expected label = .ok entries := by
  have hmissing : (expected.filter fun k => (entries.get? k).isNone) = [] := by
    refine List.filter_eq_nil_iff.mpr fun k hk => ?_
    simpa [Option.isSome_iff_ne_none] using hexpected k hk
  have hunknown : ((entries.map Prod.fst).filter fun k => decide (k ∉ expected)) = [] := by
    refine List.filter_eq_nil_iff.mpr fun k hk => ?_
    simpa using hknown k hk
  simp only [exactSchema, obj?, hmissing, hunknown, ne_eq, not_true_eq_false, if_false]

def manifestEntries (p : Host) (m : ArtifactMetadata) : Dict := (obj? (manifestFor p m)).getD []

def document (p : Host) (m : ArtifactMetadata) : Dict := sortEntries (canonEntries (manifestEntries p m))

lemma canon_manifestFor (m : ArtifactMetadata) : canon (manifestFor p m) = .obj (document p m) := rfl

lemma manifestEntries_nodup (m : ArtifactMetadata) : ((manifestEntries p m).map Prod.fst).Nodup := by
  simp [manifestEntries, manifestFor, obj?]

lemma get?_document (m : ArtifactMetadata) (k : String) :
    Dict.get? (document p m) k = (Dict.get? (manifestEntries p m) k).map canon :=
  get?_canon (manifestEntries_nodup m) k

lemma mem_document {m : ArtifactMetadata} {k : String} (h : k ∈ (document p m).map Prod.fst) : k ∈ manifestKeys := by
  have hperm := (JsonText.perm_sortEntries (canonEntries (manifestEntries p m))).map Prod.fst
  rw [JsonText.keys_canonEntries] at hperm
  have hkeys : (manifestEntries p m).map Prod.fst ⊆ manifestKeys := by
    simp [manifestEntries, manifestFor, obj?, manifestKeys]
  exact hkeys (hperm.mem_iff.mp h)

lemma document_schema (m : ArtifactMetadata) :
    exactSchema (.obj (document p m)) manifestKeys "artifact manifest" = .ok (document p m) := by
  refine exactSchema_ok _ (fun k hk => ?_) fun k => mem_document
  rw [get?_document, Option.isSome_map]
  simp only [manifestKeys, List.mem_cons, List.not_mem_nil, or_false] at hk
  rcases hk with rfl | rfl | rfl | rfl | rfl | rfl | rfl | rfl | rfl <;> rfl

lemma validateManifest_document (m : ArtifactMetadata) :
    validateManifest (canon (manifestFor p m)) m.artifactId = .ok (document p m) := by
  have hversion : Dict.get (document p m) "schema_version" = .int 1 :=
    Dict.get_of_get? ((get?_document m _).trans rfl)
  have hid : Dict.get (document p m) "artifact_id" = .str m.artifactId :=
    Dict.get_of_get? ((get?_document m _).trans rfl)
  unfold validateManifest
  rw [canon_manifestFor, document_schema]
  simp [bind, Except.bind, hversion, hid, same, number?]

def givenEntries (p : Host) (m : ArtifactMetadata) : Dict :=
  ((document p m).erase "schema_version").set "artifact_path" (.str (payloadPath p m.artifactId))

lemma get?_given (m : ArtifactMetadata) (k : String) :
    Dict.get? (givenEntries p m) k = if k = "artifact_path" then some (.str (payloadPath p m.artifactId))
      else if k = "schema_version" then none else (Dict.get? (manifestEntries p m) k).map canon := by
  unfold givenEntries
  rw [Dict.get?_set, Dict.get?_erase, get?_document]

lemma metadataKey {k : String} (h : k ∈ manifestKeys) (hversion : k ≠ "schema_version") : k ∈ metadataKeys := by
  simp only [manifestKeys, List.mem_cons, List.not_mem_nil, or_false] at h
  rcases h with rfl | rfl | rfl | rfl | rfl | rfl | rfl | rfl | rfl <;> simp [metadataKeys] at hversion ⊢

lemma given_schema (m : ArtifactMetadata) :
    exactSchema (.obj (givenEntries p m)) metadataKeys "artifact metadata" = .ok (givenEntries p m) := by
  refine exactSchema_ok _ (fun k hk => ?_) fun k hk => ?_
  · rw [get?_given]
    simp only [metadataKeys, List.mem_cons, List.not_mem_nil, or_false] at hk
    rcases hk with rfl | rfl | rfl | rfl | rfl | rfl | rfl | rfl | rfl <;> rfl
  · obtain ⟨e, he, rfl⟩ := List.mem_map.mp hk
    rcases mem_concat.1 he with he | rfl
    · have hkey := mem_document (List.mem_map_of_mem (List.mem_filter.mp (List.mem_filter.mp he).1).1)
      have hversion := (List.mem_filter.mp (List.mem_filter.mp he).1).2
      exact metadataKey hkey (of_decide_eq_true hversion)
    · simp [metadataKeys]

lemma parseArtifactType_value (artifactType : ArtifactType) : parseArtifactType (.str artifactType.value) = .ok artifactType := by
  cases artifactType <;> simp [parseArtifactType, artifactTypes, same, ArtifactType.value]

lemma parseDatetime_format (t : ℤ) : parseDatetime p (.str (p.format t)) = .ok t := by
  simp [parseDatetime, str?, p.parse_format]

lemma fromDict_eq {values : Dict} {artifactType : ArtifactType} {createdAt : ℤ}
    (hschema : exactSchema (.obj values) metadataKeys "artifact metadata" = .ok values)
    (htype : parseArtifactType (values.get "artifact_type") = .ok artifactType)
    (hcreated : parseDatetime p (values.get "created_at") = .ok createdAt) :
    fromDict p values = construct (values.get "artifact_id") artifactType (values.get "name") (values.get "artifact_path")
      (values.get "content_type") (values.get "size_bytes") (values.get "sha256") createdAt (values.get "metadata") := by
  unfold fromDict
  rw [hschema]
  change (parseArtifactType (values.get "artifact_type") >>= fun artifactType => _) = _
  rw [htype]
  change (parseDatetime p (values.get "created_at") >>= fun createdAt => _) = _
  rw [hcreated]
  rfl

lemma get_given {m : ArtifactMetadata} {k : String} {v : Value} (hpath : k ≠ "artifact_path") (hversion : k ≠ "schema_version")
    (h : (Dict.get? (manifestEntries p m) k).map canon = some v) : Dict.get (givenEntries p m) k = v := by
  refine Dict.get_of_get? ?_
  rw [get?_given, if_neg hpath, if_neg hversion]
  exact h

lemma fromDict_given {m : ArtifactMetadata} (h : Valid m) (hpath : m.artifactPath = payloadPath p m.artifactId) :
    fromDict p (givenEntries p m) = .ok (stored m) := by
  have hid : Dict.get (givenEntries p m) "artifact_id" = .str m.artifactId := get_given (by decide) (by decide) rfl
  have htype : Dict.get (givenEntries p m) "artifact_type" = .str m.artifactType.value := get_given (by decide) (by decide) rfl
  have hname : Dict.get (givenEntries p m) "name" = .str m.name := get_given (by decide) (by decide) rfl
  have hcontent : Dict.get (givenEntries p m) "content_type" = .str m.contentType := get_given (by decide) (by decide) rfl
  have hsize : Dict.get (givenEntries p m) "size_bytes" = .int m.sizeBytes := get_given (by decide) (by decide) rfl
  have hsha : Dict.get (givenEntries p m) "sha256" = .str m.sha256 := get_given (by decide) (by decide) rfl
  have hcreated : Dict.get (givenEntries p m) "created_at" = .str (p.format m.createdAt) := get_given (by decide) (by decide) rfl
  have hmetadata : Dict.get (givenEntries p m) "metadata" = .obj (stored m).metadata := get_given (by decide) (by decide) rfl
  have hgiven : Dict.get (givenEntries p m) "artifact_path" = .str m.artifactPath := by
    refine Dict.get_of_get? ?_
    rw [get?_given, if_pos rfl, hpath]
  have hparsed : parseArtifactType (Dict.get (givenEntries p m) "artifact_type") = .ok m.artifactType := by
    rw [htype]
    exact parseArtifactType_value _
  have hinstant : parseDatetime p (Dict.get (givenEntries p m) "created_at") = .ok m.createdAt := by
    rw [hcreated]
    exact parseDatetime_format _
  rw [fromDict_eq (given_schema m) hparsed hinstant, hid, hname, hgiven, hcontent, hsize, hsha, hmetadata]
  have hvalid := construct_valid (valid_stored h)
  exact hvalid

lemma readMetadata_eq {d : Directory} {raw : Value} {values : Dict} {m : ArtifactMetadata} (hraw : d.manifest = some raw)
    (hvalues : validateManifest raw d.name = .ok values)
    (hm : fromDict p ((values.erase "schema_version").set "artifact_path" (.str (payloadPath p d.name))) = .ok m) :
    readMetadata p d = .ok m := by
  unfold readMetadata
  rw [hraw]
  simp only [hvalues, bind, Except.bind, hm, integrity]

lemma readMetadata_manifest {m : ArtifactMetadata} (h : Valid m) (hpath : m.artifactPath = payloadPath p m.artifactId)
    (payload : Option Bytes) :
    readMetadata p ⟨m.artifactId, payload, some (canon (manifestFor p m))⟩ = .ok (stored m) :=
  readMetadata_eq rfl (validateManifest_document m) (fromDict_given h hpath)

lemma readPayload_manifest {m : ArtifactMetadata} {payload : Bytes} (h : Valid m)
    (hpath : m.artifactPath = payloadPath p m.artifactId) (hsize : m.sizeBytes = payload.length)
    (hdigest : m.sha256 = (p.sha256 payload).text) :
    readPayload p ⟨m.artifactId, some payload, some (canon (manifestFor p m))⟩ = .ok payload := by
  unfold readPayload
  rw [readMetadata_manifest h hpath]
  simp [bind, Except.bind, stored, hsize, hdigest]

lemma candidate_ok {r : Request} {now : ℤ} {m : ArtifactMetadata} (h : candidate p r now = .ok m) :
    m = ⟨resolvedId p r, r.artifactType, r.name, payloadPath p (resolvedId p r), r.contentType, r.payload.length,
      (p.sha256 r.payload).text, now, r.metadata.entries⟩ ∧ Valid m :=
  construct_ok h

def whole (p : Host) (r : Request) (m : ArtifactMetadata) : Directory :=
  ⟨m.artifactId, some r.payload, some (canon (manifestFor p m))⟩

lemma readMetadata_whole {r : Request} {now : ℤ} {m : ArtifactMetadata} (h : candidate p r now = .ok m) :
    readMetadata p (whole p r m) = .ok (stored m) := by
  obtain ⟨rfl, hvalid⟩ := candidate_ok h
  exact readMetadata_manifest hvalid rfl _

lemma readPayload_whole {r : Request} {now : ℤ} {m : ArtifactMetadata} (h : candidate p r now = .ok m) :
    readPayload p (whole p r m) = .ok r.payload := by
  obtain ⟨rfl, hvalid⟩ := candidate_ok h
  exact readPayload_manifest hvalid rfl rfl rfl

lemma same_stored (metadata : Metadata) :
    same (.obj (sortEntries (canonEntries metadata.entries))) (.obj metadata.entries) = true :=
  JsonText.same_of_canon _ _ (JsonText.proper_canon (.obj metadata.entries) metadata.proper) metadata.proper
    (JsonText.canon_canon (.obj metadata.entries))

lemma sameArtifact_iff {existing m : ArtifactMetadata} :
    sameArtifact existing m = true ↔ existing.artifactType = m.artifactType ∧ existing.name = m.name ∧
      existing.contentType = m.contentType ∧ existing.sizeBytes = m.sizeBytes ∧ existing.sha256 = m.sha256 ∧
      same (.obj existing.metadata) (.obj m.metadata) = true := by
  simp [sameArtifact, and_assoc]

lemma not_hidden {text : String} (h : isArtifactId text = true) : isHidden text = false := by
  unfold isArtifactId at h
  unfold isHidden
  split at h
  · cases h
  · rename_i c cs htext
    simp only [Bool.and_eq_true] at h
    rw [htext]
    refine decide_eq_false fun hc => ?_
    obtain rfl := Option.some.inj hc
    exact absurd h.1.1 (by decide)

lemma candidate_not_hidden {r : Request} {now : ℤ} {m : ArtifactMetadata} (h : candidate p r now = .ok m) :
    isHidden m.artifactId = false := by
  have hid := (candidate_ok h).2.artifactId
  simp only [validateArtifactId, str?] at hid
  split at hid
  · exact not_hidden ‹_›
  · cases hid

lemma stage_hidden (stage : String) : isHidden (stageName stage) = true := by
  simp [isHidden, stageName]

lemma directory_update (dirs : Root) {name : String} {f : Directory → Directory} (hf : ∀ d, (f d).name = d.name) (k : String) :
    directory (updateDirectory dirs name f) k = if k = name then (directory dirs name).map f else directory dirs k := by
  unfold directory updateDirectory
  rw [@lookup_updateWhere _ _ _ Directory.name _ f hf]
  by_cases hk : k = name
  · subst hk
    cases hd : lookup Directory.name dirs k with
    | none => simp
    | some d => simp [lookup_key hd]
  · rw [if_neg hk]
    cases hd : lookup Directory.name dirs k with
    | none => rfl
    | some d => simp [lookup_key hd, hk]

lemma directory_append (dirs : Root) (d : Directory) (k : String) (h : directory dirs d.name = none) :
    directory (dirs ++ [d]) k = if k = d.name then some d else directory dirs k := by
  unfold directory at h ⊢
  rw [lookup_append, lookup_cons, lookup_nil]
  by_cases hk : k = d.name
  · subst hk
    simp [h]
  · simp [hk, Ne.symm hk]

lemma directory_rename {dirs : Root} {name newName : String} {d : Directory} (hd : directory dirs name = some d)
    (hnew : directory dirs newName = none) (k : String) :
    directory (rename dirs name newName) k =
      if k = newName then some { d with name := newName } else if k = name then none else directory dirs k := by
  unfold rename
  rw [hd]
  have hdelete := fun k => @lookup_deleteRow _ _ _ Directory.name name dirs k
  refine (directory_append _ { d with name := newName } k ?_).trans ?_
  · refine (hdelete newName).trans ?_
    split
    · rfl
    · exact hnew
  · exact congrArg (fun o => if k = newName then some { d with name := newName } else o) (hdelete k)

lemma nodup_append_directory {dirs : Root} {d : Directory} (h : (dirs.map Directory.name).Nodup)
    (hd : directory dirs d.name = none) : ((dirs ++ [d]).map Directory.name).Nodup := by
  exact nodup_map_concat h (lookup_eq_none.mp hd)

lemma nodup_rename {dirs : Root} {name newName : String} (h : (dirs.map Directory.name).Nodup)
    (hnew : directory dirs newName = none) : ((rename dirs name newName).map Directory.name).Nodup := by
  unfold rename
  split
  · refine nodup_append_directory (nodup_deleteRow h name) ((lookup_deleteRow name dirs newName).trans ?_)
    split
    · rfl
    · exact hnew
  · exact h

def Shows (p : Host) (dirs : Root) (m : ArtifactMetadata) : Prop :=
  ∃ d ∈ dirs, isHidden d.name = false ∧ d.manifest.isSome ∧ readMetadata p d = .ok m

lemma listed_ok {artifactType : Option ArtifactType} {dirs : Root}
    (h : ∀ d ∈ dirs, isHidden d.name = false → ∃ m, readMetadata p d = .ok m) :
    ∃ items, listed p artifactType dirs = .ok items ∧
      ∀ m, m ∈ items ↔ Shows p dirs m ∧ artifactType.all (· = m.artifactType) = true := by
  induction dirs with
  | nil => exact ⟨[], rfl, fun m => by simp [Shows]⟩
  | cons d dirs ih =>
    obtain ⟨items, hitems, hmem⟩ := ih fun x hx => h x (List.mem_cons_of_mem _ hx)
    by_cases hskip : (isHidden d.name || d.manifest.isNone) = true
    · refine ⟨items, ?_, fun m => ?_⟩
      · rw [listed, if_pos hskip, hitems]
      · rw [hmem]
        refine and_congr_left fun _ => ⟨fun ⟨x, hx, hrest⟩ => ⟨x, List.mem_cons_of_mem _ hx, hrest⟩, fun ⟨x, hx, hrest⟩ => ?_⟩
        rcases List.mem_cons.mp hx with rfl | hx
        · obtain ⟨hhidden, hmanifest, -⟩ := hrest
          rw [hhidden, Bool.false_or, Option.isNone_iff_eq_none] at hskip
          rw [hskip] at hmanifest
          cases hmanifest
        · exact ⟨x, hx, hrest⟩
    · simp only [Bool.or_eq_true, not_or, Bool.not_eq_true, Option.isNone_eq_false_iff] at hskip
      obtain ⟨item, hitem⟩ := h d (List.mem_cons_self ..) hskip.1
      refine ⟨if artifactType.all (· = item.artifactType) then item :: items else items, ?_, fun m => ?_⟩
      · rw [listed, if_neg (by simp [hskip.1, Option.isSome_iff_ne_none.mp hskip.2]), hitem, hitems]
        rfl
      · have hshows : Shows p (d :: dirs) m ↔ m = item ∨ Shows p dirs m := by
          constructor
          · rintro ⟨x, hx, hrest⟩
            rcases List.mem_cons.mp hx with rfl | hx
            · rw [hitem] at hrest
              exact .inl (Except.ok.inj hrest.2.2).symm
            · exact .inr ⟨x, hx, hrest⟩
          · rintro (rfl | ⟨x, hx, hrest⟩)
            · exact ⟨d, List.mem_cons_self .., hskip.1, hskip.2, hitem⟩
            · exact ⟨x, List.mem_cons_of_mem _ hx, hrest⟩
        rw [hshows]
        by_cases htype : artifactType.all (· = item.artifactType) = true
        · rw [if_pos htype, List.mem_cons, hmem, or_and_right]
          exact or_congr_left ⟨fun hm => ⟨hm, hm ▸ htype⟩, fun hm => hm.1⟩
        · rw [if_neg htype, hmem, or_and_right]
          refine ⟨.inr, fun hm => hm.resolve_left fun hm => htype ?_⟩
          rw [← hm.1]
          exact hm.2

lemma listArtifacts_ok {artifactType : Option ArtifactType} {dirs : Root}
    (h : ∀ d ∈ dirs, isHidden d.name = false → ∃ m, readMetadata p d = .ok m) :
    ∃ items, listArtifacts p dirs artifactType = .ok items ∧
      ∀ m, m ∈ items ↔ Shows p dirs m ∧ artifactType.all (· = m.artifactType) = true := by
  obtain ⟨items, hitems, hmem⟩ := @listed_ok p artifactType dirs h
  refine ⟨items.insertionSort fun a b => listKey a ≤ listKey b, ?_, fun m => ?_⟩
  · unfold listArtifacts
    rw [hitems]
    rfl
  · rw [(List.perm_insertionSort _ items).mem_iff]
    exact hmem m

end PromptForge.ArtifactStore
