import PromptForge.FirmwareManifestLaws

namespace PromptForge.FirmwareManifest
open Runs Json Tables

section
variable (host : Host)

structure Made (e : Entry) : Prop where
  entry : e = entryOf host e.image.role e.image.offset e.data
  data : e.data ≠ [] ∧ (e.data.length : ℤ) ≤ flashSize
  offset : 0 ≤ e.image.offset

def rolesOf (entries : List Entry) : List String := entries.map fun e => e.image.role

lemma collect_ok {images : List Image} {seen : List String} {entries : List Entry}
    (h : collect host images seen = .ok entries) :
    (∀ e ∈ entries, Made host e ∧ e.image.role ∉ seen) ∧ (rolesOf entries).Nodup := by
  induction images generalizing seen entries with
  | nil =>
    cases h
    simp [rolesOf]
  | cons image images ih =>
    unfold collect at h
    obtain ⟨data, -, h⟩ := ok_of_bind h
    obtain ⟨_, hdata, h⟩ := ok_of_bind h
    obtain ⟨offset, -, h⟩ := ok_of_bind h
    obtain ⟨_, hfresh, h⟩ := ok_of_bind h
    obtain ⟨rest, hrest, h⟩ := ok_of_bind h
    obtain ⟨hmade, hnodup⟩ := ih hrest
    rw [← Except.ok.inj h]
    constructor
    · intro e he
      rcases List.mem_cons.1 he with rfl | he
      · exact ⟨⟨rfl, of_require hdata, (of_require hfresh).2⟩, (of_require hfresh).1⟩
      · exact ⟨(hmade e he).1, fun hin => (hmade e he).2 (List.mem_cons_of_mem _ hin)⟩
    · change (image.role :: rolesOf rest).Nodup
      rw [List.nodup_cons]
      refine ⟨?_, hnodup⟩
      intro hmem
      obtain ⟨e, he, hsame⟩ := List.mem_map.1 hmem
      exact (hmade e he).2 (hsame ▸ List.mem_cons_self ..)

variable {host}

lemma Made.size {e : Entry} (h : Made host e) : e.image.sizeBytes = e.data.length := by
  rw [h.entry]
  rfl

lemma Made.filename {e : Entry} (h : Made host e) : e.image.filename = e.image.role ++ ".bin" := by
  rw [h.entry]
  rfl

lemma Made.sha256 {e : Entry} (h : Made host e) : e.image.sha256 = (host.sha256 e.data).text := by
  rw [h.entry]
  rfl

lemma Made.positive {e : Entry} (h : Made host e) : 0 < e.image.sizeBytes := by
  have hlength := List.length_pos_iff.2 h.data.1
  rw [h.size]
  omega

lemma before_of_apart {entries : List Entry} (hmade : ∀ e ∈ entries, Made host e) (h : apart entries = true) :
    entries.Pairwise fun a b => a.image.Before b.image := by
  induction entries with
  | nil => exact List.Pairwise.nil
  | cons a entries ih =>
    cases entries with
    | nil => simp
    | cons b entries =>
      unfold apart at h
      rw [Bool.and_eq_true, decide_eq_true_eq] at h
      have htail := ih (fun e he => hmade e (List.mem_cons_of_mem _ he)) h.2
      refine List.Pairwise.cons (fun e he => ?_) htail
      rcases List.mem_cons.1 he with rfl | he
      · exact h.1
      · have hlater := (List.pairwise_cons.1 htail).1 e he
        have hpositive := (hmade b (by simp)).positive
        have hfirst := h.1
        unfold UploadImage.Before at hlater ⊢
        omega

lemma sameRoles_iff {entries : List Entry} {wanted : List String} :
    sameRoles entries wanted = true ↔ ∀ role, role ∈ rolesOf entries ↔ role ∈ wanted := by
  unfold sameRoles
  rw [Bool.and_eq_true, List.all_eq_true, List.all_eq_true]
  constructor
  · rintro ⟨hall, honly⟩ role
    constructor
    · intro hrole
      obtain ⟨e, he, rfl⟩ := List.mem_map.1 hrole
      exact of_decide_eq_true (honly e he)
    · intro hrole
      exact of_decide_eq_true (hall role hrole)
  · intro h
    constructor
    · intro role hrole
      exact decide_eq_true ((h role).2 hrole)
    · intro e he
      exact decide_eq_true ((h _).1 (List.mem_map_of_mem he))

variable (host)

structure Planned (store : Path) (request : Request) (sealing : Sealing) : Prop where
  chip : request.chip ∈ chips
  made : ∀ e ∈ sealing.entries, Made host e
  distinct : (rolesOf sealing.entries).Nodup
  only : ∀ role ∈ rolesOf sealing.entries, role ∈ roles
  complete : ∀ role ∈ ["application", "bootloader", "partitions"], role ∈ rolesOf sealing.entries
  count : 3 ≤ sealing.entries.length ∧ sealing.entries.length ≤ 4
  before : sealing.entries.Pairwise fun a b => a.image.Before b.image
  root : sealing.root = store ++ [(digest host (bodyOf request sealing.entries)).name]
  document : sealing.document = bodyOf request sealing.entries ++
    [("sha256", .str (digest host (bodyOf request sealing.entries)).text), ("artifact_root", .str (pathText sealing.root))]

lemma length_of_roles {entries : List Entry} {wanted : List String} (hdistinct : (rolesOf entries).Nodup)
    (hwanted : wanted.Nodup) (h : ∀ role, role ∈ rolesOf entries ↔ role ∈ wanted) : entries.length = wanted.length := by
  have hperm := (List.perm_ext_iff_of_nodup hdistinct hwanted).2 h
  rw [← hperm.length_eq]
  exact (List.length_map _).symm

lemma plan_ok {store : Path} {request : Request} {sealing : Sealing} (h : plan host store request = .ok sealing) :
    Planned host store request sealing := by
  unfold plan at h
  obtain ⟨_, hchip, h⟩ := ok_of_bind h
  obtain ⟨collected, hcollected, h⟩ := ok_of_bind h
  obtain ⟨_, hroles, h⟩ := ok_of_bind h
  obtain ⟨_, hbefore, h⟩ := ok_of_bind h
  obtain ⟨hmade, hdistinct⟩ := collect_ok host hcollected
  have hperm : (sortEntries collected).Perm collected := List.perm_insertionSort _ _
  have hmade' : ∀ e ∈ sortEntries collected, Made host e := fun e he => (hmade e (hperm.mem_iff.1 he)).1
  have hdistinct' : (rolesOf (sortEntries collected)).Nodup := (hperm.map _).nodup_iff.2 hdistinct
  rw [← Except.ok.inj h]
  have hwanted : ∃ wanted : List String, wanted.Nodup ∧ (∀ role ∈ wanted, role ∈ roles) ∧
      (∀ role ∈ ["application", "bootloader", "partitions"], role ∈ wanted) ∧ (3 ≤ wanted.length ∧ wanted.length ≤ 4) ∧
      ∀ role, role ∈ rolesOf (sortEntries collected) ↔ role ∈ wanted := by
    rcases of_require hroles with hsame | hsame
    · exact ⟨_, by decide, by decide, by decide, by decide, sameRoles_iff.1 hsame⟩
    · exact ⟨_, by decide, by decide, by decide, by decide, sameRoles_iff.1 hsame⟩
  obtain ⟨wanted, hnodup, hknown, hneeded, hcount, hiff⟩ := hwanted
  refine ⟨of_require hchip, hmade', hdistinct', fun role hrole => hknown role ((hiff role).1 hrole),
    fun role hrole => (hiff role).2 (hneeded role hrole), ?_, before_of_apart hmade' (of_require hbefore), rfl, rfl⟩
  rw [length_of_roles hdistinct' hnodup hiff]
  exact hcount

structure Fits (request : Request) (sealing : Sealing) : Prop where
  toolchain : ∃ entries, toolchainOf request.toolchain = .obj entries
  environment : within 1 128 request.environment = true
  board : within 1 128 request.board = true
  root : within 1 4096 (pathText sealing.root) = true
  inside : ∀ e ∈ sealing.entries, e.image.offset + e.image.sizeBytes ≤ flashSize

def sealedManifest (request : Request) (toolchain : Dict) (sealing : Sealing) : Manifest where
  schemaVersion := 1
  chip := request.chip
  environment := request.environment
  board := request.board
  toolchain := toolchain
  images := sealing.entries.map Entry.image
  sha256 := (digest host (bodyOf request sealing.entries)).text
  artifactRoot := pathText sealing.root

section
variable {store : Path} {request : Request} {sealing : Sealing} {toolchain : Dict}

lemma body_sealed (htoolchain : toolchainOf request.toolchain = .obj toolchain) :
    (sealedManifest host request toolchain sealing).body = bodyOf request sealing.entries := by
  unfold Manifest.body bodyOf sealedManifest
  rw [htoolchain, List.map_map]
  rfl

lemma dump_sealed (h : Planned host store request sealing) (htoolchain : toolchainOf request.toolchain = .obj toolchain) :
    sealing.document = (sealedManifest host request toolchain sealing).dump := by
  unfold Manifest.dump
  rw [body_sealed host htoolchain, h.document]
  rfl

lemma valid_sealed (h : Planned host store request sealing) (hfits : Fits request sealing) :
    (sealedManifest host request toolchain sealing).Valid := by
  refine ⟨rfl, h.chip, hfits.environment, hfits.board, ?_, ?_, Digest.isDigest _, hfits.root⟩
  · intro image himage
    obtain ⟨e, he, rfl⟩ := List.mem_map.1 himage
    have hmade := h.made e he
    have hpositive := hmade.positive
    have hinside := hfits.inside e he
    refine ⟨h.only _ (List.mem_map_of_mem he), ⟨hmade.offset, by omega⟩, ?_, hpositive, ?_⟩
    · rw [hmade.sha256]
      exact Digest.isDigest _
    · rw [hmade.size]
      exact hmade.data.2
  · change 3 ≤ (sealing.entries.map Entry.image).length ∧ (sealing.entries.map Entry.image).length ≤ 4
    rw [List.length_map]
    exact h.count

lemma location_sealed (h : Planned host store request sealing) :
    (sealedManifest host request toolchain sealing).location host = sealing.root := by
  have hhead : (pathText sealing.root).toList.head? = some '/' := by
    unfold pathText
    rw [h.root, String.toList_ofList]
    cases store with
    | nil => rfl
    | cons name store => rfl
  unfold Manifest.location
  change (if (pathText sealing.root).toList.head? = some '/' then _ else _) = _
  rw [if_pos hhead]
  exact parsePath_pathText sealing.root

lemma named_sealed (h : Planned host store request sealing) :
    (parsePath (sealedManifest host request toolchain sealing).artifactRoot).getLast?.map Name.text =
      some (sealedManifest host request toolchain sealing).sha256 := by
  change (parsePath (pathText sealing.root)).getLast?.map Name.text = _
  rw [parsePath_pathText, h.root, List.getLast?_concat]
  change some (Digest.name _).text = _
  rw [Digest.name_text]
  rfl

end

def Holds (folder : Folder) (entries : List Entry) : Prop :=
  ∀ e ∈ entries, ∃ file, folder.files e.image.filename = some file ∧ file.link = false ∧ file.data = e.data

def Intact (folder : Folder) (entries : List Entry) : Prop :=
  ∀ e ∈ entries, ∀ file, folder.files e.image.filename = some file → file.link = false ∧ file.data = e.data

def Tears (fault : Option (ℕ × Option ℕ)) (entries : List Entry) (folder : Folder) : Prop :=
  ∃ index count e, fault = some (index, some count) ∧ entries[index]? = some e ∧
    folder.files e.image.filename = none ∧ e.data.take count ≠ e.data

end

@[simp] lemma Folder.put_same (folder : Folder) (filename : String) (file : File) :
    (folder.put filename file).files filename = some file := Function.update_self ..

lemma Folder.put_other (folder : Folder) {filename other : String} (h : other ≠ filename) (file : File) :
    (folder.put filename file).files other = folder.files other := Function.update_of_ne h ..

def later (fault : Option (ℕ × Option ℕ)) : Option (ℕ × Option ℕ) := fault.map fun f => (f.1 - 1, f.2)

def Now (fault : Option (ℕ × Option ℕ)) : Prop := ∃ written, fault = some (0, written)

section
variable {fault : Option (ℕ × Option ℕ)} {e : Entry} {entries : List Entry} {folder : Folder}

lemma writeImages_now (written : Option ℕ) :
    (¬ (∃ count, written = some count ∧ folder.files e.image.filename = none) ∧
      writeImages (some (0, written)) (e :: entries) folder = (.interrupted, folder)) ∨
    ∃ count, written = some count ∧ folder.files e.image.filename = none ∧
      writeImages (some (0, written)) (e :: entries) folder =
        (.interrupted, folder.put e.image.filename ⟨false, e.data.take count⟩) := by
  rcases hfile : folder.files e.image.filename with _ | file
  · cases written with
    | none => simp [writeImages, hfile]
    | some count => simp [writeImages, hfile]
  · simp [writeImages, hfile]

lemma writeImages_fresh (hnow : ¬ Now fault) (hfile : folder.files e.image.filename = none) :
    writeImages fault (e :: entries) folder =
      writeImages (later fault) entries (folder.put e.image.filename ⟨false, e.data⟩) := by
  rcases fault with _ | ⟨_ | index, written⟩
  · simp only [writeImages, hfile, later]
  · exact absurd ⟨written, rfl⟩ hnow
  · simp only [writeImages, hfile, later]

lemma writeImages_same (hnow : ¬ Now fault) {file : File} (hfile : folder.files e.image.filename = some file)
    (hsame : file.link = false ∧ file.data = e.data) :
    writeImages fault (e :: entries) folder = writeImages (later fault) entries folder := by
  have hgood : ¬ (file.link = true ∨ file.data ≠ e.data) := by simp [hsame]
  rcases fault with _ | ⟨_ | index, written⟩
  · simp only [writeImages, hfile, later, if_neg hgood]
  · exact absurd ⟨written, rfl⟩ hnow
  · simp only [writeImages, hfile, later, if_neg hgood]

lemma writeImages_other (hnow : ¬ Now fault) {file : File} (hfile : folder.files e.image.filename = some file)
    (hother : ¬ (file.link = false ∧ file.data = e.data)) :
    writeImages fault (e :: entries) folder = (.tampered, folder) := by
  have hbad : file.link = true ∨ file.data ≠ e.data := by
    cases hlink : file.link with
    | true => exact .inl rfl
    | false => exact .inr fun hdata => hother ⟨hlink, hdata⟩
  rcases fault with _ | ⟨_ | index, written⟩
  · simp only [writeImages, hfile, if_pos hbad]
  · exact absurd ⟨written, rfl⟩ hnow
  · simp only [writeImages, hfile, if_pos hbad]

lemma writeImages_cons (fault : Option (ℕ × Option ℕ)) (e : Entry) (entries : List Entry) (folder : Folder) :
    (Now fault ∧ ¬ (∃ count, fault = some (0, some count) ∧ folder.files e.image.filename = none) ∧
      writeImages fault (e :: entries) folder = (.interrupted, folder)) ∨
    (∃ count, fault = some (0, some count) ∧ folder.files e.image.filename = none ∧
      writeImages fault (e :: entries) folder =
        (.interrupted, folder.put e.image.filename ⟨false, e.data.take count⟩)) ∨
    (¬ Now fault ∧ folder.files e.image.filename = none ∧ writeImages fault (e :: entries) folder =
      writeImages (later fault) entries (folder.put e.image.filename ⟨false, e.data⟩)) ∨
    (¬ Now fault ∧ (∃ file, folder.files e.image.filename = some file ∧ file.link = false ∧ file.data = e.data) ∧
      writeImages fault (e :: entries) folder = writeImages (later fault) entries folder) ∨
    (¬ Now fault ∧ (∃ file, folder.files e.image.filename = some file ∧ ¬ (file.link = false ∧ file.data = e.data)) ∧
      writeImages fault (e :: entries) folder = (.tampered, folder)) := by
  by_cases hnow : Now fault
  · obtain ⟨written, rfl⟩ := hnow
    rcases @writeImages_now e entries folder written with ⟨hwhole, heq⟩ | ⟨count, rfl, hfile, heq⟩
    · refine .inl ⟨⟨written, rfl⟩, ?_, heq⟩
      rintro ⟨count, hfault, hfile⟩
      cases hfault
      exact hwhole ⟨count, rfl, hfile⟩
    · exact .inr (.inl ⟨count, rfl, hfile, heq⟩)
  · rcases hfile : folder.files e.image.filename with _ | file
    · exact .inr (.inr (.inl ⟨hnow, rfl, writeImages_fresh hnow hfile⟩))
    · by_cases hsame : file.link = false ∧ file.data = e.data
      · exact .inr (.inr (.inr (.inl ⟨hnow, ⟨file, rfl, hsame⟩, writeImages_same hnow hfile hsame⟩)))
      · exact .inr (.inr (.inr (.inr ⟨hnow, ⟨file, rfl, hsame⟩, writeImages_other hnow hfile hsame⟩)))

end

structure Kept (folder folder' : Folder) : Prop where
  link : folder'.link = folder.link
  resolved : folder'.resolved = folder.resolved
  files : ∀ filename file, folder.files filename = some file → folder'.files filename = some file

lemma Kept.refl (folder : Folder) : Kept folder folder := ⟨rfl, rfl, fun _ _ h => h⟩

lemma Kept.trans {a b c : Folder} (hab : Kept a b) (hbc : Kept b c) : Kept a c :=
  ⟨hbc.link.trans hab.link, hbc.resolved.trans hab.resolved, fun n f h => hbc.files n f (hab.files n f h)⟩

lemma Kept.put {folder : Folder} {filename : String} (h : folder.files filename = none) (file : File) :
    Kept folder (folder.put filename file) := by
  refine ⟨rfl, rfl, fun other old hold => ?_⟩
  by_cases hname : other = filename
  · rw [hname, h] at hold
    cases hold
  · rw [Folder.put_other folder hname]
    exact hold

lemma writeImages_kept (fault : Option (ℕ × Option ℕ)) (entries : List Entry) (folder : Folder) :
    Kept folder (writeImages fault entries folder).2 := by
  induction entries generalizing fault folder with
  | nil =>
    unfold writeImages
    exact Kept.refl folder
  | cons e entries ih =>
    rcases writeImages_cons fault e entries folder with ⟨-, -, heq⟩ | ⟨count, -, hfile, heq⟩ | ⟨-, hfile, heq⟩ | ⟨-, -, heq⟩ |
      ⟨-, -, heq⟩ <;> rw [heq]
    · exact Kept.refl folder
    · exact Kept.put hfile _
    · exact (Kept.put hfile _).trans (ih _ _)
    · exact ih _ _
    · exact Kept.refl folder

lemma Intact.of_kept {folder folder' : Folder} {entries : List Entry} (h : Kept folder folder')
    (hintact : Intact folder' entries) : Intact folder entries :=
  fun e he file hfile => hintact e he file (h.files _ _ hfile)

lemma Intact.put {folder : Folder} {entries : List Entry} (hintact : Intact folder entries) {filename : String}
    (hother : ∀ e ∈ entries, e.image.filename ≠ filename) (file : File) : Intact (folder.put filename file) entries := by
  intro e he old hold
  rw [Folder.put_other folder (hother e he)] at hold
  exact hintact e he old hold

lemma intact_cons {folder : Folder} {e : Entry} {entries : List Entry} : Intact folder (e :: entries) ↔
    (∀ file, folder.files e.image.filename = some file → file.link = false ∧ file.data = e.data) ∧
      Intact folder entries := List.forall_mem_cons

lemma writeImages_holds {fault : Option (ℕ × Option ℕ)} {entries : List Entry} {folder : Folder}
    (h : (writeImages fault entries folder).1 = .done) : Holds (writeImages fault entries folder).2 entries := by
  induction entries generalizing fault folder with
  | nil => simp [Holds]
  | cons e entries ih =>
    rcases writeImages_cons fault e entries folder with ⟨-, -, heq⟩ | ⟨count, -, hfile, heq⟩ | ⟨-, hfile, heq⟩ |
      ⟨-, ⟨file, hfile, hsame⟩, heq⟩ | ⟨-, -, heq⟩ <;> rw [heq] at h ⊢
    · cases h
    · cases h
    · have hkept := writeImages_kept (later fault) entries (folder.put e.image.filename ⟨false, e.data⟩)
      exact List.forall_mem_cons.2 ⟨⟨_, hkept.files _ _ (Folder.put_same ..), rfl, rfl⟩, ih h⟩
    · have hkept := writeImages_kept (later fault) entries folder
      exact List.forall_mem_cons.2 ⟨⟨file, hkept.files _ _ hfile, hsame⟩, ih h⟩
    · cases h

lemma writeImages_of_intact {fault : Option (ℕ × Option ℕ)} {entries : List Entry} {folder : Folder}
    (hnames : (entries.map fun e => e.image.filename).Nodup) (h : Intact folder entries) :
    (writeImages fault entries folder).1 =
      if ∃ f, fault = some f ∧ f.1 < entries.length then .interrupted else .done := by
  induction entries generalizing fault folder with
  | nil => simp [writeImages]
  | cons e entries ih =>
    obtain ⟨hother, hnames⟩ := nodup_map_cons hnames
    rw [intact_cons] at h
    have hlater : ¬ Now fault → ((∃ f, later fault = some f ∧ f.1 < entries.length) ↔
        ∃ f, fault = some f ∧ f.1 < (e :: entries).length) := by
      intro hnow
      rcases fault with _ | ⟨_ | index, written⟩
      · simp [later]
      · exact absurd ⟨written, rfl⟩ hnow
      · simp [later]
    rcases writeImages_cons fault e entries folder with ⟨⟨written, rfl⟩, hwhole, heq⟩ | ⟨count, rfl, hfile, heq⟩ |
      ⟨hnow, hfile, heq⟩ | ⟨hnow, -, heq⟩ | ⟨-, ⟨file, hfile, hbad⟩, -⟩
    · rw [heq]
      simp
    · rw [heq]
      simp
    · rw [heq, ih hnames (h.2.put hother _)]
      simp only [hlater hnow]
    · rw [heq, ih hnames h.2]
      simp only [hlater hnow]
    · exact absurd (h.1 file hfile) hbad

lemma writeImages_intact {fault : Option (ℕ × Option ℕ)} {entries : List Entry} {folder : Folder}
    (hnames : (entries.map fun e => e.image.filename).Nodup) (h : Intact folder entries) :
    Intact (writeImages fault entries folder).2 entries ↔ ¬ Tears fault entries folder := by
  induction entries generalizing fault folder with
  | nil => simp [writeImages, Tears, Intact]
  | cons e entries ih =>
    obtain ⟨hother, hnames⟩ := nodup_map_cons hnames
    rw [intact_cons] at h
    have htears : ¬ Now fault → ∀ folder' : Folder,
        (∀ other ∈ entries, folder'.files other.image.filename = folder.files other.image.filename) →
        (Tears (later fault) entries folder' ↔ Tears fault (e :: entries) folder) := by
      intro hnow folder' hsame
      rcases fault with _ | ⟨_ | index, written⟩
      · simp [later, Tears]
      · exact absurd ⟨written, rfl⟩ hnow
      · constructor
        · rintro ⟨i, count, other, hfault, hget, hfile, hpart⟩
          cases hfault
          rw [hsame other (List.mem_of_getElem? hget)] at hfile
          exact ⟨index + 1, count, other, rfl, hget, hfile, hpart⟩
        · rintro ⟨i, count, other, hfault, hget, hfile, hpart⟩
          cases hfault
          have hget' : entries[index]? = some other := hget
          rw [← hsame other (List.mem_of_getElem? hget')] at hfile
          exact ⟨index, count, other, rfl, hget', hfile, hpart⟩
    rcases writeImages_cons fault e entries folder with ⟨⟨written, rfl⟩, hwhole, heq⟩ | ⟨count, rfl, hfile, heq⟩ |
      ⟨hnow, hfile, heq⟩ | ⟨hnow, ⟨file, hfile, hsame⟩, heq⟩ | ⟨-, ⟨file, hfile, hbad⟩, -⟩
    · rw [heq]
      refine iff_of_true (intact_cons.2 h) ?_
      rintro ⟨i, count, other, hfault, hget, hfile, -⟩
      cases hfault
      cases hget
      exact hwhole ⟨count, rfl, hfile⟩
    · rw [heq, intact_cons]
      have htorn : Tears (some (0, some count)) (e :: entries) folder ↔ e.data.take count ≠ e.data := by
        constructor
        · rintro ⟨i, n, other, hfault, hget, -, hpart⟩
          cases hfault
          cases hget
          exact hpart
        · exact fun hpart => ⟨0, count, e, rfl, rfl, hfile, hpart⟩
      rw [htorn, not_not, and_iff_left (h.2.put hother _)]
      simp
    · rw [heq, intact_cons, ih hnames (h.2.put hother _),
        htears hnow _ fun other hmem => Folder.put_other folder (hother other hmem) _]
      have hkept := writeImages_kept (later fault) entries (folder.put e.image.filename ⟨false, e.data⟩)
      refine and_iff_right fun file hget => ?_
      rw [hkept.files _ _ (Folder.put_same ..)] at hget
      cases hget
      exact ⟨rfl, rfl⟩
    · rw [heq, intact_cons, ih hnames h.2, htears hnow folder fun _ _ => rfl]
      have hkept := writeImages_kept (later fault) entries folder
      refine and_iff_right fun other hget => ?_
      rw [hkept.files _ _ hfile] at hget
      cases hget
      exact hsame
    · exact absurd (h.1 file hfile) hbad

section
variable {host : Host} {store : Path} {request : Request} {sealing : Sealing} {disk : Disk} {interrupt : Option Interrupt}

variable (h : Planned host store request sealing)

include h in
lemma names_nodup :
    (sealing.entries.map fun e => e.image.filename).Nodup := by
  have hnames : sealing.entries.map (fun e => e.image.filename) = (rolesOf sealing.entries).map (· ++ ".bin") := by
    unfold rolesOf
    rw [List.map_map]
    apply List.map_congr_left
    intro e he
    exact (h.made e he).filename
  rw [hnames]
  exact h.distinct.map fun a b hab => (String.append_left_inj _).1 hab

include h in
lemma accepted_of_holds {toolchain : Dict} {folder : Folder}
    (hfits : Fits request sealing) (htoolchain : toolchainOf request.toolchain = .obj toolchain)
    (hdisk : disk sealing.root = some folder) (hlink : folder.link = false) (hholds : Holds folder sealing.entries) :
    Accepted host disk (sealedManifest host request toolchain sealing) folder := by
  have hroles : (sealing.entries.map Entry.image).map UploadImage.role = rolesOf sealing.entries := by
    rw [List.map_map]
    rfl
  refine ⟨valid_sealed host h hfits, ?_, ?_, hlink, named_sealed host h, ?_, ?_, ?_, ?_⟩
  · rw [body_sealed host htoolchain]
    rfl
  · rw [location_sealed host h]
    exact hdisk
  · intro image himage
    obtain ⟨e, he, rfl⟩ := List.mem_map.1 himage
    have hmade := h.made e he
    obtain ⟨file, hfile, hplain, hdata⟩ := hholds e he
    refine ⟨h.only _ (List.mem_map_of_mem he), hmade.filename, ⟨hmade.positive, ?_, hfits.inside e he⟩, file, hfile,
      hplain, ?_, ?_⟩
    · rw [hmade.size]
      exact hmade.data.2
    · rw [hdata, hmade.size]
    · rw [hdata, hmade.sha256]
  · change ((sealing.entries.map Entry.image).map UploadImage.role).Nodup
    rw [hroles]
    exact h.distinct
  · exact List.pairwise_map.2 h.before
  · intro role hrole
    change role ∈ (sealing.entries.map Entry.image).map UploadImage.role
    rw [hroles]
    exact h.complete role hrole

include h in
lemma sealed_of_validate {m : Manifest} (hm : Manifest.validate sealing.document = .ok m) :
    toolchainOf request.toolchain = .obj m.toolchain ∧ m = sealedManifest host request m.toolchain sealing := by
  have htoolchain : toolchainOf request.toolchain = .obj m.toolchain := by
    have hget := (validate_ok hm).2.1
    rw [h.document] at hget
    exact Option.some.inj hget
  refine ⟨htoolchain, ?_⟩
  rw [dump_sealed host h htoolchain] at hm
  exact validate_dump_ok hm

include h in
lemma fits_of_accepted {m : Manifest} {folder : Folder}
    (hm : Manifest.validate sealing.document = .ok m) (haccepted : Accepted host disk m folder) :
    Fits request sealing := by
  obtain ⟨htoolchain, hsealed⟩ := sealed_of_validate h hm
  have hvalid := haccepted.valid
  have hlisted := haccepted.listed
  rw [hsealed] at hvalid hlisted
  exact ⟨⟨m.toolchain, htoolchain⟩, hvalid.environment, hvalid.board, hvalid.artifactRoot,
    fun e he => (hlisted e.image (List.mem_map_of_mem he)).bounds.2.2⟩

structure Usable (store : Path) (sealing : Sealing) (folder : Folder) : Prop where
  link : folder.link = false
  stored : folder.resolved.dropLast = store
  intact : Intact folder sealing.entries

include h in
lemma verify_sealed {folder : Folder} (hdisk : disk sealing.root = some folder) (hholds : Holds folder sealing.entries) :
    (∃ paths, verifyUploadSet host disk sealing.document (some store) none none = .ok paths) ↔
      Fits request sealing ∧ folder.link = false ∧ folder.resolved.dropLast = store := by
  constructor
  · rintro ⟨paths, hpaths⟩
    obtain ⟨m, folder', hm, haccepted, hstored, -, -, -⟩ := verifyUploadSet_ok hpaths
    obtain ⟨-, hsealed⟩ := sealed_of_validate h hm
    have hpresent := haccepted.present
    rw [hsealed, location_sealed host h, hdisk] at hpresent
    cases hpresent
    exact ⟨fits_of_accepted h hm haccepted, haccepted.link, hstored store rfl⟩
  · rintro ⟨hfits, hlink, hstored⟩
    obtain ⟨toolchain, htoolchain⟩ := hfits.toolchain
    have hm : Manifest.validate sealing.document = .ok (sealedManifest host request toolchain sealing) := by
      rw [dump_sealed host h htoolchain]
      exact validate_dump (valid_sealed host h hfits)
    have haccepted := accepted_of_holds h hfits htoolchain hdisk hlink hholds
    exact ⟨_, verifyUploadSet_of hm haccepted (fun path hpath => by cases hpath; exact hstored) rfl rfl⟩

def Early (interrupt : Option Interrupt) : Prop :=
  ∃ i, interrupt = some i ∧ (i.point = .reading ∨ i.point = .directory)

def start (disk : Disk) (sealing : Sealing) : Folder := (disk sealing.root).getD (Folder.new sealing.root)

def written (disk : Disk) (sealing : Sealing) (interrupt : Option Interrupt) : Writing × Folder :=
  writeImages (imageFault interrupt) sealing.entries (start disk sealing)

lemma seal_refused {error : Refusal} (hplan : plan host store request = .error error) :
    (sealUploadSet host disk store request interrupt).2 = disk := by
  unfold sealUploadSet
  rw [hplan]
  cases strikes interrupt .reading <;> rfl

lemma seal_early (h : Early interrupt) : (sealUploadSet host disk store request interrupt).2 = disk := by
  obtain ⟨i, rfl, hpoint⟩ := h
  unfold sealUploadSet
  rcases hpoint with hpoint | hpoint
  · simp [strikes, hpoint]
  · cases hplan : plan host store request with
    | error error => simp [strikes, hpoint]
    | ok sealing => simp [strikes, hpoint]

lemma strikes_of_not_early (h : ¬ Early interrupt) :
    strikes interrupt .reading = none ∧ strikes interrupt .directory = none := by
  cases interrupt with
  | none => exact ⟨rfl, rfl⟩
  | some i =>
    unfold strikes
    constructor
    · exact if_neg fun hpoint => h ⟨i, rfl, .inl hpoint⟩
    · exact if_neg fun hpoint => h ⟨i, rfl, .inr hpoint⟩

lemma seal_written (hplan : plan host store request = .ok sealing) (hearly : ¬ Early interrupt) :
    sealUploadSet host disk store request interrupt =
      (match (written disk sealing interrupt).1 with
        | .interrupted => (interrupt.map Interrupt.outcome).getD .crashed
        | .tampered => .raised .tampered
        | .done => confirm host (Function.update disk sealing.root (some (written disk sealing interrupt).2)) store
            sealing.document interrupt,
        Function.update disk sealing.root (some (written disk sealing interrupt).2)) := by
  obtain ⟨hreading, hdirectory⟩ := strikes_of_not_early hearly
  unfold sealUploadSet
  simp only [hreading, hplan, hdirectory]
  have hfolder : writeImages (imageFault interrupt) sealing.entries ((disk sealing.root).getD (Folder.new sealing.root)) =
      written disk sealing interrupt := rfl
  rw [hfolder]
  rcases written disk sealing interrupt with ⟨_ | _ | _, folder⟩ <;> rfl

include h in
lemma usable_new : Usable store sealing (Folder.new sealing.root) := by
  refine ⟨rfl, ?_, ?_⟩
  · change sealing.root.dropLast = store
    rw [h.root, List.dropLast_concat]
  · intro e _ file hfile
    cases hfile

lemma outcome_ne_returned (i : Interrupt) (manifest : Dict) : i.outcome ≠ .returned manifest := by
  unfold Interrupt.outcome
  cases i.crash <;> simp

lemma strikes_ne_returned {point : Point} {outcome : Outcome} (h : strikes interrupt point = some outcome)
    (manifest : Dict) : outcome ≠ .returned manifest := by
  cases interrupt with
  | none => cases h
  | some i =>
    unfold strikes at h
    by_cases hpoint : i.point = point
    · simp only [if_pos hpoint, Option.some.injEq] at h
      rw [← h]
      exact outcome_ne_returned i manifest
    · simp [hpoint] at h

lemma confirm_returned {manifest document : Dict} (h : confirm host disk store document interrupt = .returned manifest) :
    manifest = document ∧ ∃ paths, verifyUploadSet host disk document (some store) none none = .ok paths := by
  unfold confirm at h
  rcases hverification : strikes interrupt .verification with _ | outcome
  · rcases hverify : verifyUploadSet host disk document (some store) none none with error | paths
    · simp only [hverification, hverify] at h
      cases h
    · rcases hreport : strikes interrupt .report with _ | outcome
      · simp only [hverification, hverify, hreport] at h
        cases h
        exact ⟨rfl, paths, rfl⟩
      · simp only [hverification, hverify, hreport] at h
        exact absurd h (strikes_ne_returned hreport manifest)
  · simp only [hverification] at h
    exact absurd h (strikes_ne_returned hverification manifest)

lemma not_early_of_returned {manifest : Dict} {sealing : Sealing} (hplan : plan host store request = .ok sealing)
    (h : (sealUploadSet host disk store request interrupt).1 = .returned manifest) : ¬ Early interrupt := by
  rintro ⟨i, rfl, hpoint⟩
  unfold sealUploadSet at h
  rcases hpoint with hpoint | hpoint
  · simp only [strikes, hpoint] at h
    exact outcome_ne_returned i manifest h
  · simp [strikes, hpoint, hplan] at h
    exact outcome_ne_returned i manifest h

lemma planned_of_returned {manifest : Dict}
    (h : (sealUploadSet host disk store request interrupt).1 = .returned manifest) :
    ∃ sealing, plan host store request = .ok sealing := by
  rcases hplan : plan host store request with error | sealing
  · unfold sealUploadSet at h
    rw [hplan] at h
    rcases hreading : strikes interrupt .reading with _ | outcome
    · rw [hreading] at h
      cases h
    · rw [hreading] at h
      exact absurd h (strikes_ne_returned hreading manifest)
  · exact ⟨sealing, rfl⟩

lemma seal_returned {manifest : Dict} (hplan : plan host store request = .ok sealing)
    (h : (sealUploadSet host disk store request interrupt).1 = .returned manifest) :
    manifest = sealing.document ∧ (written disk sealing interrupt).1 = .done ∧
      ∃ paths, verifyUploadSet host (sealUploadSet host disk store request interrupt).2 manifest (some store) none none =
        .ok paths := by
  have hearly := not_early_of_returned hplan h
  rw [seal_written hplan hearly] at h ⊢
  rcases hwriting : (written disk sealing interrupt).1 with _ | _ | _
  · simp only [hwriting] at h
    obtain ⟨rfl, hpaths⟩ := confirm_returned h
    exact ⟨rfl, rfl, hpaths⟩
  · simp only [hwriting] at h
    cases interrupt with
    | none => cases h
    | some i => exact absurd h (outcome_ne_returned i manifest)
  · simp only [hwriting] at h
    cases h

lemma usable_of_returned {manifest : Dict} (hplan : plan host store request = .ok sealing)
    (h : (sealUploadSet host disk store request interrupt).1 = .returned manifest) :
    Fits request sealing ∧ Usable store sealing (start disk sealing) := by
  obtain ⟨rfl, hdone, hpaths⟩ := seal_returned hplan h
  have hkept := writeImages_kept (imageFault interrupt) sealing.entries (start disk sealing)
  have hholds := writeImages_holds hdone
  rw [seal_written hplan (not_early_of_returned hplan h)] at hpaths
  obtain ⟨hfits, hlink, hstored⟩ := (verify_sealed (plan_ok host hplan) (Function.update_self ..) hholds).1 hpaths
  refine ⟨hfits, hkept.link ▸ hlink, hkept.resolved ▸ hstored, ?_⟩
  intro e he file hfile
  obtain ⟨file', hfile', hsame⟩ := hholds e he
  rw [hkept.files _ _ hfile] at hfile'
  cases hfile'
  exact hsame

lemma seal_of_usable (hplan : plan host store request = .ok sealing) (hfits : Fits request sealing)
    (h : Usable store sealing (start disk sealing)) :
    (sealUploadSet host disk store request none).1 = .returned sealing.document := by
  have hplanned := plan_ok host hplan
  have hearly : ¬ Early none := fun ⟨_, hnone, _⟩ => by cases hnone
  have hdone : (written disk sealing none).1 = .done := by
    have hwriting := @writeImages_of_intact none _ _ (names_nodup hplanned) h.intact
    rw [if_neg (by simp)] at hwriting
    exact hwriting
  have hkept := writeImages_kept (imageFault none) sealing.entries (start disk sealing)
  have hdisk : Function.update disk sealing.root (some (written disk sealing none).2) sealing.root =
      some (written disk sealing none).2 := Function.update_self ..
  have hstored : (written disk sealing none).2.resolved.dropLast = store := by
    rw [← h.stored, ← hkept.resolved]
    rfl
  obtain ⟨paths, hpaths⟩ := (verify_sealed hplanned hdisk (writeImages_holds hdone)).2
    ⟨hfits, hkept.link.trans h.link, hstored⟩
  rw [seal_written hplan hearly]
  simp only [hdone, confirm, strikes, hpaths]

include h in
lemma usable_written :
    Usable store sealing (written disk sealing interrupt).2 ↔ Usable store sealing (start disk sealing) ∧
      ¬ Tears (imageFault interrupt) sealing.entries (start disk sealing) := by
  have hkept := writeImages_kept (imageFault interrupt) sealing.entries (start disk sealing)
  constructor
  · intro husable
    have hintact := husable.intact.of_kept hkept
    refine ⟨⟨hkept.link ▸ husable.link, hkept.resolved ▸ husable.stored, hintact⟩, ?_⟩
    exact (writeImages_intact (names_nodup h) hintact).1 husable.intact
  · rintro ⟨husable, hwhole⟩
    exact ⟨hkept.link.trans husable.link, by rw [← husable.stored, ← hkept.resolved]; rfl,
      (writeImages_intact (names_nodup h) husable.intact).2 hwhole⟩

def GainsNothing (disk disk' : Disk) : Prop := ∀ path, disk path = none → disk' path = none

def Reached (i : Interrupt) (sealing : Sealing) : Prop :=
  match i.point with
  | .reading | .directory => False
  | .image index _ => index < sealing.entries.length
  | .verification | .report => True

/-- Nothing is raised once the directory is made: the process dies before it verifies, or the
    images fit and no `OSError` is met. -/
def Unraised (request : Request) (sealing : Sealing) (interrupt : Option Interrupt) : Prop :=
  (∃ i, interrupt = some i ∧ i.crash = true ∧ i.point ≠ .report ∧ Reached i sealing) ∨
    (Fits request sealing ∧ ∀ i, interrupt = some i → Reached i sealing → i.crash = true)

lemma raised_outcome {i : Interrupt} : (∃ error, i.outcome = .raised error) ↔ i.crash = false := by
  unfold Interrupt.outcome
  cases i.crash <;> simp

lemma confirm_raised {document : Dict} (h : strikes interrupt .verification = none) :
    (∃ error, confirm host disk store document interrupt = .raised error) ↔
      ¬ (∃ paths, verifyUploadSet host disk document (some store) none none = .ok paths) ∨
        ∃ i, interrupt = some i ∧ i.point = .report ∧ i.crash = false := by
  unfold confirm
  rw [h]
  rcases hverify : verifyUploadSet host disk document (some store) none none with error | paths
  · simp
  · cases interrupt with
    | none => simp [strikes]
    | some i =>
      by_cases hpoint : i.point = .report
      · simp [strikes, hpoint, raised_outcome]
      · simp [strikes, hpoint]

lemma reached_image {index : ℕ} {count : Option ℕ} {crash : Bool} :
    Reached ⟨crash, .image index count⟩ sealing ↔ index < sealing.entries.length := Iff.rfl

lemma raised_iff (hplan : plan host store request = .ok sealing) (hearly : ¬ Early interrupt)
    (hnew : disk sealing.root = none) :
    (∃ error, (sealUploadSet host disk store request interrupt).1 = .raised error) ↔
      ¬ Unraised request sealing interrupt := by
  have hplanned := plan_ok host hplan
  have hstart : start disk sealing = Folder.new sealing.root := by
    unfold start
    rw [hnew]
    rfl
  have husable : Usable store sealing (start disk sealing) := hstart ▸ usable_new hplanned
  have hwriting := @writeImages_of_intact (imageFault interrupt) _ _ (names_nodup hplanned) husable.intact
  have hkept := writeImages_kept (imageFault interrupt) sealing.entries (start disk sealing)
  have hverify : (written disk sealing interrupt).1 = .done →
      ((∃ paths, verifyUploadSet host (Function.update disk sealing.root (some (written disk sealing interrupt).2))
        sealing.document (some store) none none = .ok paths) ↔ Fits request sealing) := fun hdone => by
    have hlink : (written disk sealing interrupt).2.link = false := hkept.link.trans husable.link
    have hstored : (written disk sealing interrupt).2.resolved.dropLast = store := by
      rw [← husable.stored, ← hkept.resolved]
      rfl
    have hdisk : Function.update disk sealing.root (some (written disk sealing interrupt).2) sealing.root =
        some (written disk sealing interrupt).2 := Function.update_self ..
    rw [verify_sealed hplanned hdisk (writeImages_holds hdone)]
    simp [hlink, hstored]
  rw [seal_written hplan hearly]
  rcases interrupt with _ | ⟨crash, point⟩
  · -- nothing strikes: the verification decides
    have hdone : (written disk sealing none).1 = .done := by
      rw [if_neg (by simp [imageFault])] at hwriting
      exact hwriting
    simp only [hdone, Unraised]
    rw [confirm_raised rfl, hverify hdone]
    simp
  · cases point with
    | reading => exact absurd ⟨_, rfl, .inl rfl⟩ hearly
    | directory => exact absurd ⟨_, rfl, .inr rfl⟩ hearly
    | image index count =>
      by_cases hindex : index < sealing.entries.length
      · have hinterrupted : (written disk sealing (some ⟨crash, .image index count⟩)).1 = .interrupted := by
          rw [if_pos ⟨_, rfl, hindex⟩] at hwriting
          exact hwriting
        simp only [hinterrupted, Unraised]
        change (∃ error, Interrupt.outcome _ = .raised error) ↔ _
        rw [raised_outcome]
        cases crash <;> simp [reached_image, hindex]
      · have hdone : (written disk sealing (some ⟨crash, .image index count⟩)).1 = .done := by
          rw [if_neg (by simpa [imageFault] using hindex)] at hwriting
          exact hwriting
        simp only [hdone, Unraised]
        rw [confirm_raised (by simp [strikes]), hverify hdone]
        simp [reached_image, hindex]
    | verification =>
      have hdone : (written disk sealing (some ⟨crash, .verification⟩)).1 = .done := by
        rw [if_neg (by simp [imageFault])] at hwriting
        exact hwriting
      simp only [hdone, Unraised]
      change (∃ error, Interrupt.outcome _ = .raised error) ↔ _
      rw [raised_outcome]
      cases crash <;> simp [Reached]
    | report =>
      have hdone : (written disk sealing (some ⟨crash, .report⟩)).1 = .done := by
        rw [if_neg (by simp [imageFault])] at hwriting
        exact hwriting
      simp only [hdone, Unraised]
      rw [confirm_raised (by simp [strikes]), hverify hdone]
      cases crash <;> simp [Reached]

end

end PromptForge.FirmwareManifest
