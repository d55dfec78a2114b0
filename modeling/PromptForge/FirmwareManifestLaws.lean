import PromptForge.FirmwareManifest
import PromptForge.JsonTextLaws

namespace PromptForge.FirmwareManifest
open Runs Json

lemma splitPath_ne_nil (cs : List Char) : splitPath cs ≠ [] := by
  induction cs with
  | nil => simp [splitPath]
  | cons c cs ih =>
    unfold splitPath
    split
    · simp
    · split <;> simp

lemma splitPath_append (a b : List Char) : splitPath (a ++ '/' :: b) = splitPath a ++ splitPath b := by
  induction a with
  | nil => simp [splitPath]
  | cons c a ih =>
    rw [List.cons_append, splitPath, splitPath, ih]
    by_cases hc : c = '/'
    · simp [hc]
    · simp only [if_neg hc]
      rcases hp : splitPath a with _ | ⟨part, parts⟩
      · exact absurd hp (splitPath_ne_nil a)
      · rfl

lemma splitPath_name {cs : List Char} (h : '/' ∉ cs) : splitPath cs = [cs] := by
  induction cs with
  | nil => rfl
  | cons c cs ih =>
    simp only [List.mem_cons, not_or] at h
    rw [splitPath, if_neg (Ne.symm h.1), ih h.2]

lemma Name.noSlash (name : Name) : '/' ∉ name.chars := (of_decide_eq_true name.proper).2.2

lemma nameOf?_chars (name : Name) : nameOf? name.chars = some name := by
  unfold nameOf?
  rw [dif_pos name.proper]

lemma splitPath_path (path : Path) (front : List Char) :
    splitPath (front ++ path.flatMap fun name => '/' :: name.chars) = splitPath front ++ path.map Name.chars := by
  induction path generalizing front with
  | nil => simp
  | cons name path ih =>
    rw [List.flatMap_cons, List.cons_append, splitPath_append, List.map_cons]
    have hrest := ih name.chars
    rw [splitPath_name name.noSlash] at hrest
    rw [hrest]
    rfl

lemma parsePath_pathText (path : Path) : parsePath (pathText path) = path := by
  unfold parsePath pathText
  rw [String.toList_ofList]
  have hsplit := splitPath_path path []
  rw [List.nil_append] at hsplit
  rw [hsplit, List.filterMap_append, List.filterMap_map]
  have hnames : nameOf? ∘ Name.chars = some := by
    funext name
    exact nameOf?_chars name
  rw [hnames, List.filterMap_some]
  rfl

lemma Digest.name_text (d : Digest) : d.name.text = d.text := String.ofList_toList

variable {d : Dict}

lemma text_ok {key s : String} (h : text d key = .ok s) : Dict.get? d key = some (.str s) := by
  unfold text at h
  split at h
  · rename_i heq
    rw [heq, Except.ok.inj h]
  · cases h

lemma integer_ok {key : String} {n : ℤ} (h : integer d key = .ok n) :
    Dict.get? d key = some (.int n) := by
  unfold integer at h
  split at h
  · rename_i heq
    rw [heq, Except.ok.inj h]
  · cases h

structure UploadImage.Valid (image : UploadImage) : Prop where
  role : image.role ∈ roles
  offset : 0 ≤ image.offset ∧ image.offset < flashSize
  sha256 : isDigest image.sha256 = true
  sizeBytes : 0 < image.sizeBytes ∧ image.sizeBytes ≤ flashSize

structure Manifest.Valid (m : Manifest) : Prop where
  schemaVersion : m.schemaVersion = 1
  chip : m.chip ∈ chips
  environment : within 1 128 m.environment = true
  board : within 1 128 m.board = true
  images : ∀ image ∈ m.images, image.Valid
  count : 3 ≤ m.images.length ∧ m.images.length ≤ 4
  sha256 : isDigest m.sha256 = true
  artifactRoot : within 1 4096 m.artifactRoot = true

lemma text_of_get? {key s : String} (h : Dict.get? d key = some (.str s)) : text d key = .ok s := by
  unfold text
  rw [h]

lemma integer_of_get? {key : String} {n : ℤ} (h : Dict.get? d key = some (.int n)) :
    integer d key = .ok n := by
  unfold integer
  rw [h]

lemma found_ok {α : Type} {answer : Option α} {error : Refusal} {a : α} (h : found answer error = .ok a) :
    answer = some a := by
  cases answer with
  | none => cases h
  | some b => rw [Except.ok.inj h]

lemma ok_bind {α β ε : Type} (a : α) (f : α → Except ε β) : (Except.ok a >>= f) = f a := rfl

variable {image : UploadImage}

lemma validate_dump_image (h : image.Valid) : UploadImage.validate image.dump = .ok image := by
  simp only [UploadImage.dump, UploadImage.validate]
  rw [require_bind (by rfl), text_of_get? (by rfl), ok_bind, require_bind h.role, integer_of_get? (by rfl), ok_bind,
    require_bind h.offset, text_of_get? (by rfl), ok_bind, require_bind h.sha256, integer_of_get? (by rfl), ok_bind,
    require_bind h.sizeBytes, text_of_get? (by rfl), ok_bind]
  rfl

variable {images : List UploadImage}

lemma validate_dump_images (h : ∀ image ∈ images, image.Valid) :
    (images.map UploadImage.dump).mapM UploadImage.validate = .ok images := by
  induction images with
  | nil => rfl
  | cons image images ih =>
    rw [List.forall_mem_cons] at h
    rw [List.map_cons, List.mapM_cons, validate_dump_image h.1, ok_bind, ih h.2]
    rfl

variable {m : Manifest}

lemma validate_dump (h : m.Valid) : Manifest.validate m.dump = .ok m := by
  unfold Manifest.validate
  rw [require_bind (by rfl), integer_of_get? (by rfl), ok_bind, require_bind h.schemaVersion, text_of_get? (by rfl),
    ok_bind, require_bind h.chip, text_of_get? (by rfl), ok_bind, require_bind h.environment,
    text_of_get? (by rfl), ok_bind, require_bind h.board]
  change (((m.images.map UploadImage.dump).mapM UploadImage.validate) >>= _) = _
  rw [validate_dump_images h.images, ok_bind, require_bind h.count, text_of_get? (by rfl), ok_bind,
    require_bind h.sha256, text_of_get? (by rfl), ok_bind, require_bind h.artifactRoot]
  rfl

lemma validate_image_ok {v : Value} (h : UploadImage.validate v = .ok image) : image.Valid := by
  cases v with
  | obj d =>
    simp only [UploadImage.validate] at h
    obtain ⟨-, -, h⟩ := ok_of_bind h
    obtain ⟨role, -, h⟩ := ok_of_bind h
    obtain ⟨_, hrole, h⟩ := ok_of_bind h
    obtain ⟨offset, -, h⟩ := ok_of_bind h
    obtain ⟨_, hoffset, h⟩ := ok_of_bind h
    obtain ⟨sha256, -, h⟩ := ok_of_bind h
    obtain ⟨_, hsha, h⟩ := ok_of_bind h
    obtain ⟨size, -, h⟩ := ok_of_bind h
    obtain ⟨_, hsize, h⟩ := ok_of_bind h
    obtain ⟨filename, -, h⟩ := ok_of_bind h
    rw [← Except.ok.inj h]
    exact ⟨of_require hrole, of_require hoffset, of_require hsha, of_require hsize⟩
  | _ => cases h

lemma validate_images_ok {items : List Value}
    (h : items.mapM UploadImage.validate = .ok images) : ∀ image ∈ images, image.Valid := by
  induction items generalizing images with
  | nil =>
    cases h
    simp
  | cons v items ih =>
    rw [List.mapM_cons] at h
    obtain ⟨image, himage, h⟩ := ok_of_bind h
    obtain ⟨rest, hrest, h⟩ := ok_of_bind h
    cases h
    exact List.forall_mem_cons.2 ⟨validate_image_ok himage, ih hrest⟩

lemma validate_ok (h : Manifest.validate d = .ok m) :
    m.Valid ∧ Dict.get? d "toolchain" = some (.obj m.toolchain) ∧ Dict.get? d "sha256" = some (.str m.sha256) := by
  unfold Manifest.validate at h
  obtain ⟨-, -, h⟩ := ok_of_bind h
  obtain ⟨schema, -, h⟩ := ok_of_bind h
  obtain ⟨_, hschema, h⟩ := ok_of_bind h
  obtain ⟨chip, -, h⟩ := ok_of_bind h
  obtain ⟨_, hchip, h⟩ := ok_of_bind h
  obtain ⟨environment, -, h⟩ := ok_of_bind h
  obtain ⟨_, henvironment, h⟩ := ok_of_bind h
  obtain ⟨board, -, h⟩ := ok_of_bind h
  obtain ⟨_, hboard, h⟩ := ok_of_bind h
  obtain ⟨toolchain, htoolchain, h⟩ := ok_of_bind h
  obtain ⟨items, -, h⟩ := ok_of_bind h
  obtain ⟨images, himages, h⟩ := ok_of_bind h
  obtain ⟨_, hcount, h⟩ := ok_of_bind h
  obtain ⟨sha256, hsha, h⟩ := ok_of_bind h
  obtain ⟨_, hdigest, h⟩ := ok_of_bind h
  obtain ⟨root, -, h⟩ := ok_of_bind h
  obtain ⟨_, hroot, h⟩ := ok_of_bind h
  rw [← Except.ok.inj h]
  refine ⟨⟨of_require hschema, of_require hchip, of_require henvironment, of_require hboard,
    validate_images_ok himages, of_require hcount, of_require hdigest, of_require hroot⟩, ?_, text_ok hsha⟩
  obtain ⟨v, hv, hentries⟩ := Option.bind_eq_some_iff.1 (found_ok htoolchain)
  cases v with
  | obj entries =>
    rw [hv, Option.some.inj hentries]
  | _ => cases hentries

lemma validate_image_dump {image' : UploadImage} (h : UploadImage.validate image.dump = .ok image') :
    image' = image := by
  simp only [UploadImage.dump, UploadImage.validate] at h
  obtain ⟨-, -, h⟩ := ok_of_bind h
  obtain ⟨role, hrole, h⟩ := ok_of_bind h
  obtain ⟨-, -, h⟩ := ok_of_bind h
  obtain ⟨offset, hoffset, h⟩ := ok_of_bind h
  obtain ⟨-, -, h⟩ := ok_of_bind h
  obtain ⟨sha256, hsha, h⟩ := ok_of_bind h
  obtain ⟨-, -, h⟩ := ok_of_bind h
  obtain ⟨size, hsize, h⟩ := ok_of_bind h
  obtain ⟨-, -, h⟩ := ok_of_bind h
  obtain ⟨filename, hfilename, h⟩ := ok_of_bind h
  cases text_ok hrole
  cases integer_ok hoffset
  cases text_ok hsha
  cases integer_ok hsize
  cases text_ok hfilename
  exact (Except.ok.inj h).symm

lemma validate_images_dump {images' : List UploadImage}
    (h : (images.map UploadImage.dump).mapM UploadImage.validate = .ok images') : images' = images := by
  induction images generalizing images' with
  | nil =>
    cases h
    rfl
  | cons image images ih =>
    rw [List.map_cons, List.mapM_cons] at h
    obtain ⟨first, hfirst, h⟩ := ok_of_bind h
    obtain ⟨rest, hrest, h⟩ := ok_of_bind h
    rw [← Except.ok.inj h, validate_image_dump hfirst, ih hrest]

lemma validate_dump_ok {m' : Manifest} (h : Manifest.validate m.dump = .ok m') : m' = m := by
  unfold Manifest.validate at h
  obtain ⟨-, -, h⟩ := ok_of_bind h
  obtain ⟨schema, hschema, h⟩ := ok_of_bind h
  obtain ⟨-, -, h⟩ := ok_of_bind h
  obtain ⟨chip, hchip, h⟩ := ok_of_bind h
  obtain ⟨-, -, h⟩ := ok_of_bind h
  obtain ⟨environment, henvironment, h⟩ := ok_of_bind h
  obtain ⟨-, -, h⟩ := ok_of_bind h
  obtain ⟨board, hboard, h⟩ := ok_of_bind h
  obtain ⟨-, -, h⟩ := ok_of_bind h
  obtain ⟨toolchain, htoolchain, h⟩ := ok_of_bind h
  obtain ⟨items, hitems, h⟩ := ok_of_bind h
  obtain ⟨images, himages, h⟩ := ok_of_bind h
  obtain ⟨-, -, h⟩ := ok_of_bind h
  obtain ⟨sha256, hsha, h⟩ := ok_of_bind h
  obtain ⟨-, -, h⟩ := ok_of_bind h
  obtain ⟨root, hroot, h⟩ := ok_of_bind h
  obtain ⟨-, -, h⟩ := ok_of_bind h
  cases integer_ok hschema
  cases text_ok hchip
  cases text_ok henvironment
  cases text_ok hboard
  cases found_ok htoolchain
  cases found_ok hitems
  cases validate_images_dump himages
  cases text_ok hsha
  cases text_ok hroot
  exact (Except.ok.inj h).symm

section
variable (host : Host)

def UploadImage.Before (a b : UploadImage) : Prop := a.offset + a.sizeBytes ≤ b.offset

structure Listed (folder : Folder) (image : UploadImage) : Prop where
  role : image.role ∈ roles
  filename : image.filename = image.role ++ ".bin"
  bounds : 0 < image.sizeBytes ∧ image.sizeBytes ≤ flashSize ∧ image.offset + image.sizeBytes ≤ flashSize
  file : ∃ file, folder.files image.filename = some file ∧ file.link = false ∧
    (file.data.length : ℤ) = image.sizeBytes ∧ (host.sha256 file.data).text = image.sha256

def pathsOf (root : Path) (images : List UploadImage) : List (ℤ × Path × String) :=
  images.map fun image => (image.offset, root, image.filename)

variable {folder : Folder}

lemma verifyImages_ok {root : Path} {images : List UploadImage} {seen : List String} {last : ℤ}
    {paths : List (ℤ × Path × String)} (h : verifyImages host root folder images seen last = .ok paths) :
    (∀ image ∈ images, Listed host folder image ∧ image.role ∉ seen ∧ last ≤ image.offset) ∧
      (images.map UploadImage.role).Nodup ∧ images.Pairwise UploadImage.Before ∧ paths = pathsOf root images := by
  induction images generalizing seen last paths with
  | nil =>
    cases h
    simp [pathsOf]
  | cons image images ih =>
    unfold verifyImages at h
    obtain ⟨_, hrole, h⟩ := ok_of_bind h
    obtain ⟨_, hname, h⟩ := ok_of_bind h
    obtain ⟨_, hbounds, h⟩ := ok_of_bind h
    obtain ⟨file, hfile, h⟩ := ok_of_bind h
    obtain ⟨_, hlink, h⟩ := ok_of_bind h
    obtain ⟨_, hdata, h⟩ := ok_of_bind h
    obtain ⟨rest, hrest, h⟩ := ok_of_bind h
    obtain ⟨hfirst, hsize⟩ := of_require hbounds
    obtain ⟨hlisted, hnodup, happart, hpaths⟩ := ih hrest
    have himage : Listed host folder image :=
      ⟨(of_require hrole).1, of_require hname, hsize, file, found_ok hfile, of_require hlink, of_require hdata⟩
    refine ⟨?_, ?_, ?_, ?_⟩
    · intro other hother
      rcases List.mem_cons.1 hother with rfl | hmem
      · exact ⟨himage, (of_require hrole).2, by omega⟩
      · obtain ⟨hl, hseen, hoffset⟩ := hlisted other hmem
        exact ⟨hl, fun hin => hseen (List.mem_cons_of_mem _ hin), by omega⟩
    · rw [List.map_cons, List.nodup_cons]
      refine ⟨?_, hnodup⟩
      intro hmem
      obtain ⟨other, hother, hsame⟩ := List.mem_map.1 hmem
      exact (hlisted other hother).2.1 (hsame ▸ List.mem_cons_self ..)
    · exact List.Pairwise.cons (fun other hother => (hlisted other hother).2.2) happart
    · rw [← Except.ok.inj h, hpaths]
      rfl

lemma verifyImages_of {root : Path} {images : List UploadImage} {seen : List String} {last : ℤ}
    (hlisted : ∀ image ∈ images, Listed host folder image ∧ image.role ∉ seen ∧ last ≤ image.offset)
    (hnodup : (images.map UploadImage.role).Nodup) (hbefore : images.Pairwise UploadImage.Before) :
    verifyImages host root folder images seen last = .ok (pathsOf root images) := by
  induction images generalizing seen last with
  | nil => rfl
  | cons image images ih =>
    rw [List.forall_mem_cons] at hlisted
    obtain ⟨hothers, hnodup⟩ := Tables.nodup_map_cons hnodup
    rw [List.pairwise_cons] at hbefore
    obtain ⟨⟨himage, hseen, hlast⟩, hrest⟩ := hlisted
    obtain ⟨file, hfile, hlink, hdata⟩ := himage.file
    have htail := @ih (image.role :: seen) (image.offset + image.sizeBytes) (fun other hother => by
      refine ⟨(hrest other hother).1, ?_, hbefore.1 other hother⟩
      rw [List.mem_cons, not_or]
      exact ⟨hothers other hother, (hrest other hother).2.1⟩) hnodup hbefore.2
    unfold verifyImages
    rw [require_bind ⟨himage.role, hseen⟩, require_bind himage.filename,
      require_bind ⟨not_lt.2 hlast, himage.bounds⟩, hfile]
    change (require (file.link = false) _ >>= _) = _
    rw [require_bind hlink, require_bind hdata, htail]
    rfl

structure Accepted (disk : Disk) (m : Manifest) (folder : Folder) : Prop where
  valid : m.Valid
  identity : (digest host m.body).text = m.sha256
  present : disk (m.location host) = some folder
  link : folder.link = false
  named : (parsePath m.artifactRoot).getLast?.map Name.text = some m.sha256
  listed : ∀ image ∈ m.images, Listed host folder image
  distinct : (m.images.map UploadImage.role).Nodup
  before : m.images.Pairwise UploadImage.Before
  complete : ∀ role ∈ ["application", "bootloader", "partitions"], role ∈ m.images.map UploadImage.role

def Stored (store : Option Path) (folder : Folder) : Prop := ∀ path, store = some path → folder.resolved.dropLast = path

variable {host}

lemma verifyUploadSet_ok {disk : Disk} {document : Dict} {store : Option Path} {chip environment : Option String}
    {paths : List (ℤ × Path × String)}
    (h : verifyUploadSet host disk document store chip environment = .ok paths) :
    ∃ m folder, Manifest.validate document = .ok m ∧ Accepted host disk m folder ∧ Stored store folder ∧
      mismatch chip m.chip = false ∧ mismatch environment m.environment = false ∧
      paths = pathsOf folder.resolved m.images := by
  unfold verifyUploadSet at h
  obtain ⟨m, hm, h⟩ := ok_of_bind h
  obtain ⟨-, -, h⟩ := ok_of_bind h
  obtain ⟨_, hdigest, h⟩ := ok_of_bind h
  obtain ⟨_, hchip, h⟩ := ok_of_bind h
  obtain ⟨_, henvironment, h⟩ := ok_of_bind h
  obtain ⟨_, hroot, h⟩ := ok_of_bind h
  obtain ⟨folder, hfolder, h⟩ := ok_of_bind h
  obtain ⟨_, hstore, h⟩ := ok_of_bind h
  obtain ⟨-, -, h⟩ := ok_of_bind h
  obtain ⟨found, himages, h⟩ := ok_of_bind h
  obtain ⟨_, hcomplete, h⟩ := ok_of_bind h
  obtain ⟨hlisted, hnodup, hbefore, hpaths⟩ := verifyImages_ok host himages
  have hpresent := found_ok hfolder
  have hlink := (of_require hroot).1
  rw [hpresent] at hlink
  refine ⟨m, folder, hm, ⟨(validate_ok hm).1, of_require hdigest, hpresent, by simpa using hlink, (of_require hroot).2,
    fun image himage => (hlisted image himage).1, hnodup, hbefore, of_require hcomplete⟩, ?_, (of_require hchip).2,
    of_require henvironment, (Except.ok.inj h).symm.trans hpaths⟩
  intro path hpath
  have hall := of_require hstore
  rw [hpath] at hall
  simpa using hall

lemma verifyUploadSet_of {disk : Disk} {document : Dict} {store : Option Path} {chip environment : Option String}
    {m : Manifest} (hm : Manifest.validate document = .ok m) (h : Accepted host disk m folder)
    (hstore : Stored store folder) (hchip : mismatch chip m.chip = false)
    (henvironment : mismatch environment m.environment = false) :
    verifyUploadSet host disk document store chip environment = .ok (pathsOf folder.resolved m.images) := by
  have hroot : ((disk (m.location host)).all fun folder => !folder.link) = true := by
    simp [h.present, h.link]
  have hstored : (store.all fun store => decide (folder.resolved.dropLast = store)) = true := by
    cases store with
    | none => rfl
    | some path => simpa using hstore path rfl
  have hlisted : ∀ image ∈ m.images, Listed host folder image ∧ image.role ∉ [] ∧ 0 ≤ image.offset := fun image himage =>
    ⟨h.listed image himage, List.not_mem_nil, (h.valid.images image himage).offset.1⟩
  unfold verifyUploadSet
  rw [hm, ok_bind, require_bind h.valid.schemaVersion, require_bind h.identity, require_bind ⟨h.valid.chip, hchip⟩,
    require_bind henvironment, require_bind ⟨hroot, h.named⟩, h.present]
  change (require _ _ >>= _) = _
  rw [require_bind hstored, require_bind h.valid.count, verifyImages_of host hlisted h.distinct h.before, ok_bind,
    require_bind h.complete]
  rfl

end

lemma encode_inj {a b : String} (h : encode a = encode b) : a = b := by
  unfold encode at h
  have hdata : a.toUTF8.data = b.toUTF8.data := Array.toList_inj.1 h
  exact String.toByteArray_inj.1 (ByteArray.ext hdata)

lemma Digest.ext {a b : Digest} (h : a.text = b.text) : a = b := by
  cases a
  cases b
  cases h
  rfl

def bytesAt (disk : Disk) (location : Path) (filename : String) : Option Bytes :=
  (disk location).bind fun folder => (folder.files filename).map File.data

def hashed (host : Host) (disk : Disk) (m : Manifest) : List Bytes :=
  encode (JsonText.dumps host.style (.obj m.body)) ::
    m.images.filterMap fun image => bytesAt disk (m.location host) image.filename

def contents (disk : Disk) (location : Path) (paths : List (ℤ × Path × String)) : List (ℤ × Option Bytes) :=
  paths.map fun p => (p.1, bytesAt disk location p.2.2)

lemma same_str {s t : String} (h : same (.str s) (.str t) = true) : s = t := of_decide_eq_true h

lemma same_int {m n : ℤ} (h : same (.int m) (.int n) = true) : m = n := by
  have hq : (m : ℚ) = (n : ℚ) := of_decide_eq_true h
  exact_mod_cast hq

lemma same_dump {a b : UploadImage} (h : same a.dump b.dump = true) : a = b := by
  obtain ⟨-, hentries⟩ := same_obj_iff.1 h
  obtain ⟨_, ⟨⟩, hrole⟩ := hentries ("role", .str a.role) (by simp)
  obtain ⟨_, ⟨⟩, hoffset⟩ := hentries ("offset", .int a.offset) (by simp)
  obtain ⟨_, ⟨⟩, hsha⟩ := hentries ("sha256", .str a.sha256) (by simp)
  obtain ⟨_, ⟨⟩, hsize⟩ := hentries ("size_bytes", .int a.sizeBytes) (by simp)
  obtain ⟨_, ⟨⟩, hname⟩ := hentries ("filename", .str a.filename) (by simp)
  have hrole := same_str hrole
  have hoffset := same_int hoffset
  have hsha := same_str hsha
  have hsize := same_int hsize
  have hname := same_str hname
  cases a
  cases b
  simp_all

lemma sameItems_dump {as bs : List UploadImage}
    (h : sameItems (as.map UploadImage.dump) (bs.map UploadImage.dump) = true) : as = bs := by
  induction as generalizing bs with
  | nil =>
    cases bs with
    | nil => rfl
    | cons b bs => cases h
  | cons a as ih =>
    cases bs with
    | nil => cases h
    | cons b bs =>
      change (same a.dump b.dump && sameItems (as.map UploadImage.dump) (bs.map UploadImage.dump)) = true at h
      rw [Bool.and_eq_true] at h
      rw [same_dump h.1, ih h.2]

lemma proper_body (h : JsonText.Proper (.obj m.toolchain)) : JsonText.Proper (.obj m.body) := by
  refine ⟨by simp [Manifest.body], ?_⟩
  rw [JsonText.properEntries_iff]
  intro e he
  simp only [Manifest.body, List.mem_cons, List.not_mem_nil, or_false] at he
  rcases he with rfl | rfl | rfl | rfl | rfl | rfl
  · trivial
  · trivial
  · trivial
  · trivial
  · exact h
  · change JsonText.ProperItems _
    rw [JsonText.properItems_iff]
    intro v hv
    obtain ⟨image, -, rfl⟩ := List.mem_map.1 hv
    exact ⟨by simp, trivial, trivial, trivial, trivial, trivial, trivial⟩

lemma images_of_body {host : Host} {m₁ m₂ : Manifest} (h₁ : JsonText.Proper (.obj m₁.toolchain))
    (h₂ : JsonText.Proper (.obj m₂.toolchain))
    (h : JsonText.dumps host.style (.obj m₁.body) = JsonText.dumps host.style (.obj m₂.body)) : m₁.images = m₂.images := by
  have hsame := JsonText.same_of_dumps host.style (proper_body h₁) (proper_body h₂) h
  obtain ⟨-, hentries⟩ := same_obj_iff.1 hsame
  obtain ⟨y, hy, hitems⟩ := hentries ("images", .arr (m₁.images.map UploadImage.dump)) (by simp [Manifest.body])
  cases hy
  exact sameItems_dump hitems

variable {disk : Disk} {folder : Folder}

lemma Listed.bytes {host : Host} {location : Path}
    (hfolder : disk location = some folder) (h : Listed host folder image) :
    ∃ data, bytesAt disk location image.filename = some data ∧ (data.length : ℤ) = image.sizeBytes ∧
      (host.sha256 data).text = image.sha256 := by
  obtain ⟨file, hfile, -, hsize, hsha⟩ := h.file
  refine ⟨file.data, ?_, hsize, hsha⟩
  unfold bytesAt
  rw [hfolder]
  change (folder.files image.filename).map File.data = _
  rw [hfile]
  rfl

lemma same_contents {host : Host} {disk₁ disk₂ : Disk} {m₁ m₂ : Manifest} {folder₁ folder₂ : Folder}
    (h₁ : Accepted host disk₁ m₁ folder₁) (h₂ : Accepted host disk₂ m₂ folder₂)
    (hp₁ : JsonText.Proper (.obj m₁.toolchain)) (hp₂ : JsonText.Proper (.obj m₂.toolchain))
    (hfree : ∀ x ∈ hashed host disk₁ m₁, ∀ y ∈ hashed host disk₂ m₂, host.sha256 x = host.sha256 y → x = y)
    (hsame : m₁.sha256 = m₂.sha256) :
    contents disk₁ (m₁.location host) (pathsOf folder₁.resolved m₁.images) =
      contents disk₂ (m₂.location host) (pathsOf folder₂.resolved m₂.images) := by
  have hdigest : digest host m₁.body = digest host m₂.body :=
    Digest.ext (by rw [h₁.identity, h₂.identity, hsame])
  have hbody := hfree _ (List.mem_cons_self ..) _ (List.mem_cons_self ..) hdigest
  have himages := images_of_body hp₁ hp₂ (encode_inj hbody)
  unfold contents pathsOf
  rw [List.map_map, List.map_map, himages]
  apply List.map_congr_left
  intro image himage
  have himage₁ : image ∈ m₁.images := himages ▸ himage
  obtain ⟨data₁, hdata₁, -, hsha₁⟩ := (h₁.listed image himage₁).bytes h₁.present
  obtain ⟨data₂, hdata₂, -, hsha₂⟩ := (h₂.listed image himage).bytes h₂.present
  have hmem₁ : data₁ ∈ hashed host disk₁ m₁ :=
    List.mem_cons_of_mem _ (List.mem_filterMap.2 ⟨image, himage₁, hdata₁⟩)
  have hmem₂ : data₂ ∈ hashed host disk₂ m₂ :=
    List.mem_cons_of_mem _ (List.mem_filterMap.2 ⟨image, himage, hdata₂⟩)
  have hdata := hfree data₁ hmem₁ data₂ hmem₂ (Digest.ext (by rw [hsha₁, hsha₂]))
  change (image.offset, bytesAt disk₁ _ image.filename) = (image.offset, bytesAt disk₂ _ image.filename)
  rw [hdata₁, hdata₂, hdata]

structure InFlash (ranges : List (ℤ × Bytes)) : Prop where
  apart : ranges.Pairwise fun a b => a.1 + (a.2.length : ℤ) ≤ b.1
  inside : ∀ r ∈ ranges, 0 ≤ r.1 ∧ r.2 ≠ [] ∧ r.1 + (r.2.length : ℤ) ≤ flashSize

lemma Accepted.ranges {host : Host} (h : Accepted host disk m folder) :
    ∃ ranges, contents disk (m.location host) (pathsOf folder.resolved m.images) =
      ranges.map (fun r => (r.1, some r.2)) ∧ InFlash ranges := by
  have hbytes : ∀ image ∈ m.images, ∃ data, bytesAt disk (m.location host) image.filename = some data ∧
      (data.length : ℤ) = image.sizeBytes := fun image himage => by
    obtain ⟨data, hdata, hsize, -⟩ := (h.listed image himage).bytes h.present
    exact ⟨data, hdata, hsize⟩
  let range (image : UploadImage) : ℤ × Bytes :=
    (image.offset, (bytesAt disk (m.location host) image.filename).getD [])
  have hlength : ∀ image ∈ m.images, ((range image).2.length : ℤ) = image.sizeBytes := by
    intro image himage
    obtain ⟨data, hdata, hsize⟩ := hbytes image himage
    simp only [range, hdata, Option.getD_some, hsize]
  refine ⟨m.images.map range, ?_, ?_, ?_⟩
  · unfold contents pathsOf
    rw [List.map_map, List.map_map]
    apply List.map_congr_left
    intro image himage
    obtain ⟨data, hdata, -⟩ := hbytes image himage
    simp only [Function.comp_apply, range, hdata, Option.getD_some]
  · rw [List.pairwise_map]
    apply h.before.imp_of_mem
    intro a b ha _ hab
    rw [hlength a ha]
    exact hab
  · intro r hr
    obtain ⟨image, himage, rfl⟩ := List.mem_map.1 hr
    have hbounds := (h.listed image himage).bounds
    have hsize := hlength image himage
    refine ⟨(h.valid.images image himage).offset.1, ?_, ?_⟩
    · intro hnil
      rw [hnil] at hsize
      simp at hsize
      omega
    · rw [hsize]
      exact hbounds.2.2

lemma Accepted.once {host : Host} (h : Accepted host disk m folder)
    {role : String} (hrole : role ∈ ["application", "bootloader", "partitions"]) :
    ((pathsOf folder.resolved m.images).map fun p => p.2.2).count (role ++ ".bin") = 1 := by
  have hnames : (pathsOf folder.resolved m.images).map (fun p => p.2.2) =
      (m.images.map UploadImage.role).map (· ++ ".bin") := by
    unfold pathsOf
    rw [List.map_map, List.map_map]
    apply List.map_congr_left
    intro image himage
    exact (h.listed image himage).filename
  rw [hnames]
  have hinj : Function.Injective fun s : String => s ++ ".bin" := fun a b hab => String.append_left_inj _ |>.1 hab
  rw [List.count_map_of_injective _ _ hinj]
  exact List.count_eq_one_of_mem h.distinct (h.complete role hrole)

end PromptForge.FirmwareManifest
