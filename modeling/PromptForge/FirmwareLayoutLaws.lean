import Mathlib.Data.List.TakeWhile
import PromptForge.FirmwareLayout
import PromptForge.FirmwareUploads

namespace PromptForge.FirmwareManifest
open Runs Json FixedRecords

def Terminates (slot : Bytes) : Prop := slot.length = 32 ∧ (unpack slot).1 ∈ terminators

instance (slot : Bytes) : Decidable (Terminates slot) := inferInstanceAs (Decidable (_ ∧ _))

def tableSlots (data : Bytes) : List Bytes := (slots 32 data).takeWhile fun slot => ¬ Terminates slot

def WellFormed (slot : Bytes) : Prop := slot.length = 32 ∧ (unpack slot).1 = entryMagic

def tableOf (data : Bytes) : List Partition := ((parsePartitions (records 32 data)).toOption).getD []

variable {parsed : List Partition}

lemma tableOf_eq {data : Bytes} (h : parsePartitions (records 32 data) = .ok parsed) :
    tableOf data = parsed := by
  rw [tableOf, h]
  rfl

lemma parsePartitions_ok {rs : List Bytes} (hwidth : ∀ record ∈ rs, record.length = 32)
    (h : parsePartitions rs = .ok parsed) :
    (∃ entries record rest, rs = entries ++ record :: rest ∧ Terminates record ∧ ∀ entry ∈ entries, WellFormed entry ∧ ¬ Terminates entry) ∨
    ∀ entry ∈ rs, WellFormed entry ∧ ¬ Terminates entry := by
  induction rs generalizing parsed with
  | nil => exact .inr (by simp)
  | cons record rs ih =>
    have hlength : record.length = 32 := hwidth record List.mem_cons_self
    rw [parsePartitions] at h
    split at h
    · rename_i hmagic
      obtain ⟨later, hlater, -⟩ := ok_of_map h
      have hentry : WellFormed record ∧ ¬ Terminates record := by
        refine ⟨⟨hlength, hmagic⟩, fun hends => ?_⟩
        rw [Terminates, hmagic] at hends
        exact absurd hends.2 (by decide)
      cases ih (fun r hr => hwidth r (List.mem_cons_of_mem _ hr)) hlater with
      | inl hends =>
        obtain ⟨entries, last, rest, rfl, hlast, hentries⟩ := hends
        exact .inl ⟨record :: entries, last, rest, rfl, hlast, List.forall_mem_cons.mpr ⟨hentry, hentries⟩⟩
      | inr hall => exact .inr (List.forall_mem_cons.mpr ⟨hentry, hall⟩)
    · split at h
      · rename_i hends
        exact .inl ⟨[], record, rs, rfl, ⟨hlength, hends⟩, by simp⟩
      · cases h

def Whole (data : Bytes) : Prop := data.length % 32 = 0 ∨ ∃ record ∈ records 32 data, Terminates record

lemma wellFormed_iff {data : Bytes} (h : parsePartitions (records 32 data) = .ok parsed) :
    (∀ slot ∈ tableSlots data, WellFormed slot) ↔ Whole data := by
  cases parsePartitions_ok (fun _ => length_of_mem_records) h with
  | inl hends =>
    obtain ⟨entries, record, rest, heq, hends, hentries⟩ := hends
    have htable : tableSlots data = entries := by
      have hkept : ∀ entry ∈ entries, decide (¬ Terminates entry) = true := fun entry he => decide_eq_true (hentries entry he).2
      rw [tableSlots, slots, heq, List.append_assoc, List.takeWhile_append_of_pos hkept]
      simp [hends]
    rw [htable]
    refine iff_of_true (fun slot hslot => (hentries slot hslot).1) (.inr ⟨record, ?_, hends⟩)
    rw [heq]
    exact List.mem_append_right _ List.mem_cons_self
  | inr hall =>
    have hnone : ¬ ∃ record ∈ records 32 data, Terminates record := by
      rintro ⟨record, hrecord, hends⟩
      exact (hall record hrecord).2 hends
    have hshort : ∀ slot ∈ slots 32 data, decide (¬ Terminates slot) = true := by
      intro slot hslot
      cases mem_slots_iff.mp hslot with
      | inl hrecord => exact decide_eq_true (hall slot hrecord).2
      | inr hrest =>
        refine decide_eq_true fun hends => ?_
        have hlength := hends.1
        rw [hrest.2, length_remainder] at hlength
        omega
    rw [tableSlots, List.takeWhile_eq_self_iff.2 hshort, Whole, or_iff_left hnone]
    constructor
    · intro hwell
      by_contra hne
      have hlength := (hwell _ (mem_slots_iff.mpr (.inr ⟨hne, rfl⟩))).1
      rw [length_remainder] at hlength
      omega
    · intro hzero slot hslot
      cases mem_slots_iff.mp hslot with
      | inl hrecord => exact (hall slot hrecord).1
      | inr hrest => exact absurd hzero hrest.1

def ownPartition (table : List Partition) : Option Partition :=
  (table.find? fun p => p.isFactory).or (table.find? fun p => p.isOta0)

lemma application?_eq (table : List Partition) : application? table = ownPartition table := by
  induction table with
  | nil => rfl
  | cons p table ih =>
    rw [application?] at ih ⊢
    by_cases hfactory : p.isFactory
    · have hcons : applications (p :: table) = p :: applications table :=
        List.filter_cons_of_pos (decide_eq_true ⟨hfactory.1, .inl hfactory.2⟩)
      rw [hcons, List.argmin_cons, ownPartition]
      simp only [List.find?_cons, decide_eq_true hfactory]
      cases (applications table).argmin Partition.subtype with
      | none => rfl
      | some c => simp [hfactory.2]
    · by_cases hota : p.isOta0
      · have hcons : applications (p :: table) = p :: applications table :=
          List.filter_cons_of_pos (decide_eq_true ⟨hota.1, .inr hota.2⟩)
        rw [hcons, List.argmin_cons, ih, ownPartition, ownPartition]
        simp only [List.find?_cons, decide_eq_false hfactory, decide_eq_true hota]
        cases hfirst : table.find? fun p => p.isFactory with
        | some c =>
          have hc : c.isFactory := by simpa using List.find?_some hfirst
          simp [hc.2, hota.2]
        | none =>
          cases hslot : table.find? fun p => p.isOta0 with
          | none => rfl
          | some c =>
            have hc : c.isOta0 := by simpa using List.find?_some hslot
            simp [hc.2, hota.2]
      · have hcons : applications (p :: table) = applications table := by
          apply List.filter_cons_of_neg
          intro happ
          obtain ⟨hkind, hsub⟩ := of_decide_eq_true happ
          exact hsub.elim (fun h => hfactory ⟨hkind, h⟩) (fun h => hota ⟨hkind, h⟩)
        rw [hcons, ih, ownPartition, ownPartition]
        simp only [List.find?_cons, decide_eq_false hfactory, decide_eq_false hota]

lemma ownPartition_mem {table : List Partition} {p : Partition} (h : ownPartition table = some p) :
    p ∈ table ∧ (p.isFactory ∨ p.isOta0) := by
  rw [ownPartition, Option.or_eq_some_iff] at h
  cases h with
  | inl hfirst => exact ⟨List.mem_of_find?_eq_some hfirst, .inl (by simpa using List.find?_some hfirst)⟩
  | inr hslot => exact ⟨List.mem_of_find?_eq_some hslot.2, .inr (by simpa using List.find?_some hslot.2)⟩

def UploadImage.range (image : UploadImage) : Set ℤ := FixedRecords.range image.offset image.sizeBytes

def Partition.range (p : Partition) : Set ℤ := FixedRecords.range p.offset p.size

def Owns (p : Partition) (image : UploadImage) : Prop :=
  image.offset = p.offset ∧
    (image.role = "application" ∧ (p.isFactory ∨ p.isOta0) ∨ image.role = "ota_data" ∧ p.isOtaData)

def Clear (table : List Partition) (image : UploadImage) : Prop :=
  (∀ p ∈ table, Disjoint image.range p.range) ∨
    ∃ own ∈ table, Owns own image ∧ ∀ p ∈ table.erase own, Disjoint image.range p.range

structure Boots (data : Bytes) (images : List UploadImage) : Prop where
  inside : ∀ image ∈ images, image.role = "application" → ∃ p ∈ tableOf data, (p.isFactory ∨ p.isOta0) ∧ image.range ⊆ p.range
  clear : ∀ image ∈ images, Clear (tableOf data) image
  slot : (∃ image ∈ images, image.role = "ota_data") → ∀ image ∈ images, image.role = "application" →
    (∃ p ∈ tableOf data, p.isOta0) ∧ ∀ p ∈ tableOf data, p.isOta0 → image.offset = p.offset
  wellFormed : ∀ slot ∈ tableSlots data, WellFormed slot

structure Sound (data : Bytes) (bootloader application bootApp0 : ℕ) : Prop where
  whole : Whole data
  low : ∀ p ∈ tableOf data, ¬ meets 0x1000 bootloader p.offset p.size ∧ ¬ meets 0x8000 data.length p.offset p.size
  beside : ∀ own ∈ ownPartition (tableOf data), ∀ p ∈ (tableOf data).erase own, ¬ meets own.offset application p.offset p.size
  besideData : ∀ ota ∈ tableOf data, ota.isOtaData → ∀ p ∈ (tableOf data).erase ota, ¬ meets ota.offset bootApp0 p.offset p.size
  slot : (∃ ota ∈ tableOf data, ota.isOtaData) → ∀ own ∈ ownPartition (tableOf data),
    (∃ p ∈ tableOf data, p.isOta0) ∧ ∀ p ∈ tableOf data, p.isOta0 → own.offset = p.offset

structure At (image : UploadImage) (role : String) (offset size : ℕ) : Prop where
  role_eq : image.role = role
  offset_eq : image.offset = offset
  size_eq : image.sizeBytes = size
  pos : 0 < size

section
variable {table : List Partition} {image : UploadImage} {role : String} {offset size : ℕ} {own : Partition}

lemma At.disjoint_iff (h : At image role offset size) (p : Partition) :
    Disjoint image.range p.range ↔ ¬ meets offset size p.offset p.size := by
  rw [UploadImage.range, Partition.range, disjoint_range_iff, h.offset_eq, h.size_eq]

lemma At.clear_iff (h : At image role offset size) (hown : own ∈ table) (howns : Owns own image) (hsize : 0 < own.size) :
    Clear table image ↔ ∀ p ∈ table.erase own, ¬ meets offset size p.offset p.size := by
  have hpos := h.pos
  have hoffset := h.offset_eq
  have howned := howns.1
  have hmeets : ¬ Disjoint image.range own.range := by
    rw [h.disjoint_iff, not_not, meets]
    omega
  have hrest : Clear table image ↔ ∀ p ∈ table.erase own, Disjoint image.range p.range := by
    constructor
    · intro hclear
      cases hclear with
      | inl hall => exact absurd (hall own hown) hmeets
      | inr hother =>
        obtain ⟨other, hother, -, hrest⟩ := hother
        by_cases heq : own = other
        · rwa [heq]
        · exact absurd (hrest own ((List.mem_erase_of_ne heq).mpr hown)) hmeets
    · exact fun hrest => .inr ⟨own, hown, howns, hrest⟩
  rw [hrest]
  exact forall₂_congr fun p _ => h.disjoint_iff p

lemma At.clear_iff_of_low (h : At image role offset size) (happ : role ≠ "application") (hota : role ≠ "ota_data") :
    Clear table image ↔ ∀ p ∈ table, ¬ meets offset size p.offset p.size := by
  have hall : Clear table image ↔ ∀ p ∈ table, Disjoint image.range p.range := by
    refine ⟨fun hclear => ?_, .inl⟩
    cases hclear with
    | inl hall => exact hall
    | inr hown =>
      obtain ⟨own, -, howns, -⟩ := hown
      cases howns.2 with
      | inl hkind => exact absurd (h.role_eq.symm.trans hkind.1) happ
      | inr hkind => exact absurd (h.role_eq.symm.trans hkind.1) hota
  rw [hall]
  exact forall₂_congr fun p _ => h.disjoint_iff p

end

def sealedImages (manifest : Dict) : List UploadImage := ((Manifest.validate manifest).toOption.map Manifest.images).getD []

def MadeOf (host : Host) (images : List Image) (e : Entry) : Prop :=
  ∃ image ∈ images, ∃ data offset, image.data = some data ∧ data ≠ [] ∧ image.offset = .int offset ∧ e = entryOf host image.role offset data

variable {host : Host}

lemma collect_mem {images : List Image} {seen : List String} {entries : List Entry}
    (h : collect host images seen = .ok entries) :
    (∀ e, e ∈ entries ↔ MadeOf host images e) ∧ ∀ image ∈ images, ∃ data, image.data = some data ∧ data ≠ [] := by
  induction images generalizing seen entries with
  | nil =>
    cases h
    simp [MadeOf]
  | cons image images ih =>
    rw [collect] at h
    obtain ⟨data, hdata, h⟩ := ok_of_bind h
    obtain ⟨_, hsize, h⟩ := ok_of_bind h
    obtain ⟨offset, hoffset, h⟩ := ok_of_bind h
    obtain ⟨_, -, h⟩ := ok_of_bind h
    obtain ⟨rest, hrest, h⟩ := ok_of_bind h
    cases h
    have hdata := found_ok hdata
    have hne := (of_require hsize).1
    have hint : image.offset = .int offset := by
      have hfound := found_ok hoffset
      cases hvalue : image.offset with
      | int n => rw [hvalue] at hfound; cases hfound; rfl
      | _ => rw [hvalue] at hfound; cases hfound
    obtain ⟨hmem, hall⟩ := ih hrest
    refine ⟨fun e => ?_, List.forall_mem_cons.mpr ⟨⟨data, hdata, hne⟩, hall⟩⟩
    rw [List.mem_cons, hmem e]
    constructor
    · intro he
      cases he with
      | inl heq => exact ⟨image, List.mem_cons_self, data, offset, hdata, hne, hint, heq⟩
      | inr hlater =>
        obtain ⟨other, hother, hmade⟩ := hlater
        exact ⟨other, List.mem_cons_of_mem _ hother, hmade⟩
    · intro hmade
      obtain ⟨other, hother, d, o, hd, hne', ho, heq⟩ := hmade
      cases List.mem_cons.mp hother with
      | inl hfirst =>
        subst hfirst
        rw [hdata] at hd
        rw [hint] at ho
        cases hd
        cases ho
        exact .inl heq
      | inr hlater => exact .inr ⟨other, hlater, d, o, hd, hne', ho, heq⟩

variable {store : Path} {request : Request} {interrupt : Option Interrupt} {manifest : Dict}

lemma mem_sealedImages {disk : Disk}
    (h : (sealUploadSet host disk store request interrupt).1 = .returned manifest) :
    (∀ image, image ∈ sealedImages manifest ↔ ∃ e, MadeOf host request.images e ∧ e.image = image) ∧
      ∀ image ∈ request.images, ∃ data, image.data = some data ∧ data ≠ [] := by
  obtain ⟨sealing, hplan⟩ := planned_of_returned h
  obtain ⟨rfl, -, paths, hpaths⟩ := seal_returned hplan h
  obtain ⟨m, folder, hm, -⟩ := verifyUploadSet_ok hpaths
  obtain ⟨-, hsealed⟩ := sealed_of_validate (plan_ok host hplan) hm
  have himages : sealedImages sealing.document = sealing.entries.map Entry.image := by
    rw [sealedImages, hm, hsealed]
    rfl
  rw [plan] at hplan
  obtain ⟨_, -, hplan⟩ := ok_of_bind hplan
  obtain ⟨collected, hcollected, hplan⟩ := ok_of_bind hplan
  obtain ⟨_, -, hplan⟩ := ok_of_bind hplan
  obtain ⟨_, -, hplan⟩ := ok_of_bind hplan
  have hperm : (sortEntries collected).Perm collected := List.perm_insertionSort _ _
  obtain ⟨hmem, hall⟩ := collect_mem hcollected
  refine ⟨fun image => ?_, hall⟩
  have hentries : sealing.entries = sortEntries collected := by rw [← Except.ok.inj hplan]
  rw [himages, hentries, List.mem_map]
  exact exists_congr fun e => and_congr_left fun _ => hperm.mem_iff.trans (hmem e)

variable {sources : Sources} {build : Build} {project : Project} {environment : Option String}

def Sources.size (sources : Sources) (path : Path) : ℕ := ((sources.file path).map fun file => file.data.length).getD 0

variable {path : Path}

lemma size_of_image {role : String} {offset : ℕ} {data : Bytes} (h : (sources.image role offset path).data = some data) :
    sources.size path = data.length := by
  rw [Sources.image] at h
  rw [Sources.size]
  cases hfile : sources.file path with
  | none => rw [hfile] at h; cases h
  | some file =>
    rw [hfile] at h
    cases hlink : file.link with
    | true => simp [Option.filter, hlink] at h
    | false => simp_all [Option.filter]

lemma orRefuse_ok {α : Type} {answer : Option α} {error : BuildRefusal} {a : α} (h : orRefuse answer error = .ok a) :
    answer = some a := by
  cases answer with
  | none => cases h
  | some b => cases h; rfl

lemma size_of_bytes {data : Bytes} (h : sources.bytes path = .ok data) : sources.size path = data.length := by
  have hdata := orRefuse_ok h
  rw [Sources.size]
  cases hfile : sources.file path with
  | none => rw [hfile] at hdata; cases hdata
  | some file => rw [hfile] at hdata; cases hdata; rfl

/-- The images of a request: three, and a fourth where the table has one partition for it. -/
structure Laid (sources : Sources) (build : Build) (data : Bytes) (own : Partition) (images : List Image) : Prop where
  chosen : ownPartition (tableOf data) = some own
  fits : sources.size build.artifact ≤ own.size
  size : sources.size (partitionsPath build) = data.length
  parsed : parsePartitions (records 32 data) = .ok (tableOf data)
  images : ∀ image, image ∈ images ↔ image = sources.image "bootloader" 0x1000 (bootloaderPath build) ∨
    image = sources.image "partitions" 0x8000 (partitionsPath build) ∨ image = sources.image "application" own.offset build.artifact ∨
    ∃ ota ∈ tableOf data, ota.isOtaData ∧ image = sources.image "ota_data" ota.offset (bootApp0Path sources)
  atMostOne : ∀ ota ∈ tableOf data, ota.isOtaData → otaData (tableOf data) = [ota] ∧ ota.size = 0x2000

lemma imagesOf_ok {size : ℕ} {images : List Image} (h : imagesOf sources build parsed size = .ok images) :
    ∃ own, ownPartition parsed = some own ∧ size ≤ own.size ∧
      (∀ image, image ∈ images ↔ image = sources.image "bootloader" 0x1000 (bootloaderPath build) ∨
        image = sources.image "partitions" 0x8000 (partitionsPath build) ∨ image = sources.image "application" own.offset build.artifact ∨
        ∃ ota ∈ parsed, ota.isOtaData ∧ image = sources.image "ota_data" ota.offset (bootApp0Path sources)) ∧
      ∀ ota ∈ parsed, ota.isOtaData → otaData parsed = [ota] ∧ ota.size = 0x2000 := by
  rw [imagesOf, application?_eq] at h
  obtain ⟨own, hown, h⟩ := ok_of_bind h
  obtain ⟨hfits, h⟩ := require_iff.mp h
  have hmem : ∀ ota, ota ∈ otaData parsed ↔ ota ∈ parsed ∧ ota.isOtaData := by
    intro ota
    simp [otaData]
  refine ⟨own, orRefuse_ok hown, hfits, ?_⟩
  split at h
  · rename_i hnone
    have habsent : ∀ ota ∈ parsed, ¬ ota.isOtaData := by
      intro ota hota hdata
      have hin := (hmem ota).mpr ⟨hota, hdata⟩
      rw [hnone] at hin
      cases hin
    cases h
    refine ⟨fun image => ?_, fun ota hota hdata => absurd hdata (habsent ota hota)⟩
    simp only [List.mem_cons, List.not_mem_nil, or_false]
    exact or_congr_right (or_congr_right (iff_self_or.mpr fun ⟨ota, hota, hdata, _⟩ => absurd hdata (habsent ota hota)))
  · rename_i ota hone
    obtain ⟨hsize, h⟩ := require_iff.mp h
    have honly : ∀ other ∈ parsed, other.isOtaData → other = ota := by
      intro other hother hdata
      have hin := (hmem other).mpr ⟨hother, hdata⟩
      rwa [hone, List.mem_singleton] at hin
    obtain ⟨hota, hdata⟩ := (hmem ota).mp (by rw [hone]; exact List.mem_singleton_self ota)
    cases h
    constructor
    · intro image
      simp only [List.cons_append, List.nil_append, List.mem_cons, List.not_mem_nil, or_false]
      refine or_congr_right (or_congr_right (or_congr_right ⟨fun heq => ⟨ota, hota, hdata, heq⟩, ?_⟩))
      rintro ⟨other, hother, hkind, rfl⟩
      rw [honly other hother hkind]
    · intro other hother hkind
      rw [honly other hother hkind]
      exact ⟨hone, hsize⟩
  · cases h

lemma platformioRequest_ok (h : platformioRequest sources build project environment = .ok request) :
    ∃ data own, sources.bytes (partitionsPath build) = .ok data ∧ Laid sources build data own request.images := by
  rw [platformioRequest] at h
  obtain ⟨config, -, h⟩ := ok_of_bind h
  obtain ⟨-, h⟩ := require_iff.mp h
  obtain ⟨_, -, h⟩ := ok_of_bind h
  obtain ⟨-, h⟩ := require_iff.mp h
  obtain ⟨data, hdata, h⟩ := ok_of_bind h
  obtain ⟨parsed, hparsed, h⟩ := ok_of_bind h
  obtain ⟨firmware, hfirmware, h⟩ := ok_of_bind h
  obtain ⟨images, himages, h⟩ := ok_of_bind h
  cases h
  obtain ⟨own, hown, hfits, hmem, hone⟩ := imagesOf_ok himages
  have htable := tableOf_eq hparsed
  rw [← size_of_bytes hfirmware] at hfits
  refine ⟨data, own, hdata, ?_, hfits, size_of_bytes hdata, ?_, ?_, ?_⟩
  · rwa [htable]
  · rwa [htable]
  · rwa [htable]
  · rwa [htable]

structure Placed (sources : Sources) (build : Build) (data : Bytes) (own : Partition) (images : List UploadImage) : Prop where
  only : ∀ image ∈ images, At image "bootloader" 0x1000 (sources.size (bootloaderPath build)) ∨
    At image "partitions" 0x8000 data.length ∨ At image "application" own.offset (sources.size build.artifact) ∨
    ∃ ota ∈ tableOf data, ota.isOtaData ∧ At image "ota_data" ota.offset (sources.size (bootApp0Path sources))
  bootloader : ∃ image ∈ images, At image "bootloader" 0x1000 (sources.size (bootloaderPath build))
  partitions : ∃ image ∈ images, At image "partitions" 0x8000 data.length
  application : ∃ image ∈ images, At image "application" own.offset (sources.size build.artifact)
  otaData : ∀ ota ∈ tableOf data, ota.isOtaData → ∃ image ∈ images, At image "ota_data" ota.offset (sources.size (bootApp0Path sources))

lemma at_of_made {role : String} {offset : ℕ} {data : Bytes}
    (h : (sources.image role offset path).data = some data) (hne : data ≠ []) :
    At (entryOf host role offset data).image role offset (sources.size path) := by
  have hsize := size_of_image h
  refine ⟨rfl, rfl, ?_, ?_⟩
  · rw [hsize]
    rfl
  · rw [hsize]
    exact List.length_pos_iff.mpr hne

lemma Laid.placed {disk : Disk}
    {data : Bytes} {own : Partition} (hlaid : Laid sources build data own request.images)
    (h : (sealUploadSet host disk store request interrupt).1 = .returned manifest) :
    Placed sources build data own (sealedImages manifest) := by
  obtain ⟨hmem, hall⟩ := mem_sealedImages h
  have hplace : ∀ {role offset path}, sources.image role offset path ∈ request.images →
      ∃ image ∈ sealedImages manifest, At image role offset (sources.size path) := by
    intro role offset path hin
    obtain ⟨bytes, hbytes, hne⟩ := hall _ hin
    exact ⟨_, (hmem _).mpr ⟨entryOf host role offset bytes, ⟨_, hin, bytes, offset, hbytes, hne, rfl, rfl⟩, rfl⟩, at_of_made hbytes hne⟩
  refine ⟨fun image himage => ?_, hplace ((hlaid.images _).mpr (.inl rfl)), ?_, hplace ((hlaid.images _).mpr (.inr (.inr (.inl rfl)))), ?_⟩
  · obtain ⟨e, ⟨source, hsource, bytes, offset, hbytes, hne, hoffset, rfl⟩, rfl⟩ := (hmem image).mp himage
    obtain rfl | rfl | rfl | ⟨ota, hota, hdata, rfl⟩ := (hlaid.images source).mp hsource
    · cases hoffset
      exact .inl (at_of_made hbytes hne)
    · cases hoffset
      rw [← hlaid.size]
      exact .inr (.inl (at_of_made hbytes hne))
    · cases hoffset
      exact .inr (.inr (.inl (at_of_made hbytes hne)))
    · cases hoffset
      exact .inr (.inr (.inr ⟨ota, hota, hdata, at_of_made hbytes hne⟩))
  · rw [← hlaid.size]
    exact hplace ((hlaid.images _).mpr (.inr (.inl rfl)))
  · exact fun ota hota hdata => hplace ((hlaid.images _).mpr (.inr (.inr (.inr ⟨ota, hota, hdata, rfl⟩))))

section
variable {data : Bytes} {own : Partition} {images : List UploadImage} {requested : List Image}

variable (h : Laid sources build data own requested)

include h in
lemma Laid.owned {image : UploadImage} {size : ℕ} (hat : At image "application" own.offset size) :
    own ∈ tableOf data ∧ Owns own image := by
  obtain ⟨hmem, hkind⟩ := ownPartition_mem h.chosen
  exact ⟨hmem, hat.offset_eq, .inl ⟨hat.role_eq, hkind⟩⟩

include h in
lemma Laid.application_clear_iff {image : UploadImage}
    (hat : At image "application" own.offset (sources.size build.artifact)) :
    Clear (tableOf data) image ↔ ∀ p ∈ (tableOf data).erase own, ¬ meets own.offset (sources.size build.artifact) p.offset p.size := by
  obtain ⟨hmem, howns⟩ := h.owned hat
  exact hat.clear_iff hmem howns (lt_of_lt_of_le hat.pos h.fits)

include h in
lemma Laid.otaData_clear_iff {image : UploadImage} {ota : Partition} {size : ℕ}
    (hota : ota ∈ tableOf data) (hdata : ota.isOtaData) (hat : At image "ota_data" ota.offset size) :
    Clear (tableOf data) image ↔ ∀ p ∈ (tableOf data).erase ota, ¬ meets ota.offset size p.offset p.size :=
  hat.clear_iff hota ⟨hat.offset_eq, .inr ⟨hat.role_eq, hdata⟩⟩ (by rw [(h.atMostOne ota hota hdata).2]; norm_num)

lemma role_of_application {image : UploadImage} (hplaced : Placed sources build data own images) (himage : image ∈ images)
    (hrole : image.role = "application") : At image "application" own.offset (sources.size build.artifact) := by
  obtain hat | hat | hat | ⟨ota, -, -, hat⟩ := hplaced.only image himage
  · exact absurd (hat.role_eq.symm.trans hrole) (by decide)
  · exact absurd (hat.role_eq.symm.trans hrole) (by decide)
  · exact hat
  · exact absurd (hat.role_eq.symm.trans hrole) (by decide)

lemma role_of_otaData {image : UploadImage} (hplaced : Placed sources build data own images) (himage : image ∈ images)
    (hrole : image.role = "ota_data") : ∃ ota ∈ tableOf data, ota.isOtaData := by
  obtain hat | hat | hat | ⟨ota, hota, hdata, -⟩ := hplaced.only image himage
  · exact absurd (hat.role_eq.symm.trans hrole) (by decide)
  · exact absurd (hat.role_eq.symm.trans hrole) (by decide)
  · exact absurd (hat.role_eq.symm.trans hrole) (by decide)
  · exact ⟨ota, hota, hdata⟩

include h in
lemma Laid.inside (hplaced : Placed sources build data own images) :
    ∀ image ∈ images, image.role = "application" → ∃ p ∈ tableOf data, (p.isFactory ∨ p.isOta0) ∧ image.range ⊆ p.range := by
  intro image himage hrole
  have hat := role_of_application hplaced himage hrole
  obtain ⟨hmem, hkind⟩ := ownPartition_mem h.chosen
  have hfits := h.fits
  refine ⟨own, hmem, hkind, ?_⟩
  rw [UploadImage.range, Partition.range, hat.offset_eq, hat.size_eq]
  exact range_subset (by omega)

include h in
lemma Laid.sound_of_boots (hplaced : Placed sources build data own images)
    (hboots : Boots data images) :
    Sound data (sources.size (bootloaderPath build)) (sources.size build.artifact) (sources.size (bootApp0Path sources)) := by
  obtain ⟨bootloader, hbootloader, hatb⟩ := hplaced.bootloader
  obtain ⟨table, htable, hatp⟩ := hplaced.partitions
  obtain ⟨application, happlication, hata⟩ := hplaced.application
  have hlow := (hatb.clear_iff_of_low (by decide) (by decide)).mp (hboots.clear bootloader hbootloader)
  have hown := (hatp.clear_iff_of_low (by decide) (by decide)).mp (hboots.clear table htable)
  refine ⟨(wellFormed_iff h.parsed).mp hboots.wellFormed, fun p hp => ⟨hlow p hp, hown p hp⟩, ?_, ?_, ?_⟩
  · intro chosen hchosen
    cases h.chosen.symm.trans hchosen
    exact (h.application_clear_iff hata).mp (hboots.clear application happlication)
  · intro ota hota hdata
    obtain ⟨image, himage, hat⟩ := hplaced.otaData ota hota hdata
    exact (h.otaData_clear_iff hota hdata hat).mp (hboots.clear image himage)
  · rintro ⟨ota, hota, hdata⟩ chosen hchosen
    cases h.chosen.symm.trans hchosen
    obtain ⟨image, himage, hat⟩ := hplaced.otaData ota hota hdata
    obtain ⟨hslot, hall⟩ := hboots.slot ⟨image, himage, hat.role_eq⟩ application happlication hata.role_eq
    refine ⟨hslot, fun p hp hzero => ?_⟩
    have heq := hall p hp hzero
    rw [hata.offset_eq] at heq
    exact_mod_cast heq

include h in
lemma Laid.boots_of_sound (hplaced : Placed sources build data own images)
    (hsound : Sound data (sources.size (bootloaderPath build)) (sources.size build.artifact) (sources.size (bootApp0Path sources))) :
    Boots data images := by
  refine ⟨h.inside hplaced, fun image himage => ?_, ?_, (wellFormed_iff h.parsed).mpr hsound.whole⟩
  · obtain hat | hat | hat | ⟨ota, hota, hdata, hat⟩ := hplaced.only image himage
    · exact (hat.clear_iff_of_low (by decide) (by decide)).mpr fun p hp => (hsound.low p hp).1
    · exact (hat.clear_iff_of_low (by decide) (by decide)).mpr fun p hp => (hsound.low p hp).2
    · exact (h.application_clear_iff hat).mpr (hsound.beside own h.chosen)
    · exact (h.otaData_clear_iff hota hdata hat).mpr (hsound.besideData ota hota hdata)
  · rintro ⟨image, himage, hrole⟩ application happlication hrolea
    obtain ⟨hslot, hall⟩ := hsound.slot (role_of_otaData hplaced himage hrole) own h.chosen
    have hat := role_of_application hplaced happlication hrolea
    refine ⟨hslot, fun p hp hzero => ?_⟩
    rw [hat.offset_eq, hall p hp hzero]

end

lemma exists_placed {disk disk' : Disk}
    (h : sealPlatformioBuild host disk store sources build project environment interrupt = .ok (.returned manifest, disk')) :
    ∃ data own requested, sources.bytes (partitionsPath build) = .ok data ∧ Laid sources build data own requested ∧
      Placed sources build data own (sealedImages manifest) := by
  rw [sealPlatformioBuild] at h
  obtain ⟨request, hrequest, h⟩ := ok_of_bind h
  obtain ⟨data, own, hdata, hlaid⟩ := platformioRequest_ok hrequest
  have hreturned : (sealUploadSet host disk store request interrupt).1 = .returned manifest := congrArg Prod.fst (Except.ok.inj h)
  exact ⟨data, own, request.images, hdata, hlaid, hlaid.placed hreturned⟩

/-- The application that is sealed boots exactly where the table is whole, nothing else lies where
    an image does, and the slot that is selected is that of the application. -/
theorem sealed_boots_iff (host : Host) (disk : Disk) (store : Path) (sources : Sources) (build : Build) (project : Project)
    (environment : Option String) (interrupt : Option Interrupt) (manifest : Dict) (disk' : Disk)
    (h : sealPlatformioBuild host disk store sources build project environment interrupt = .ok (.returned manifest, disk')) :
    ∃ data, sources.bytes (partitionsPath build) = .ok data ∧ (Boots data (sealedImages manifest) ↔
      Sound data (sources.size (bootloaderPath build)) (sources.size build.artifact) (sources.size (bootApp0Path sources))) := by
  obtain ⟨data, own, requested, hdata, hlaid, hplaced⟩ := exists_placed h
  exact ⟨data, hdata, hlaid.sound_of_boots hplaced, hlaid.boots_of_sound hplaced⟩

def otaDataDigest : Digest := ⟨"e77b9a9ae9e30b0dbdb6f510a264ef9de781501d7b6b92ae89eb059c5ab743db", isDigest_ofList (by decide +kernel)⟩
def slotTableDigest : Digest := ⟨"dd2148103ed9ca5b7284e635755dcb098460de81f80ec0b1dbeafc04013d0e13", isDigest_ofList (by decide +kernel)⟩
def factoryTableDigest : Digest := ⟨"22258ff2dda6c4e62294a3dd7c003d7963ad6df7712c3e6ebba6224cffd412af", isDigest_ofList (by decide +kernel)⟩
def slotBuildDigest : Digest := ⟨"0051d041d6868aa8d0bff0228a82be9dee8caa92cec567ff0ee3976a7f23f856", isDigest_ofList (by decide +kernel)⟩
def factoryBuildDigest : Digest := ⟨"02966219e5a6a5aba6a1ef1c6aedff780d03d201c88c7ef96b869446a662a13b", isDigest_ofList (by decide +kernel)⟩

def tableEntry (kind subtype low high size : UInt8) (rest : Bytes) : Bytes :=
  [0xAA, 0x50, kind, subtype, 0, low, high, 0, 0, size] ++ rest ++ List.replicate 20 0

def tableEnd : Bytes := List.replicate 32 0xFF

def slotTable : Bytes := tableEntry 1 0 0xE0 0 0x20 [0, 0] ++ tableEntry 0 0x10 0 1 0 [0x10, 0] ++ tableEnd

def factoryTable : Bytes :=
  tableEntry 1 0 0xE0 0 0x20 [0, 0] ++ tableEntry 0 0 0 1 0 [0x10, 0] ++ tableEntry 0 0x10 0 0x11 0 [0x10, 0] ++ tableEnd

def layoutHost (table : Bytes) (tableDigest buildDigest : Digest) : Host where
  sha256 bytes :=
    if bytes = [1] then bootloaderDigest
    else if bytes = table then tableDigest
    else if bytes = [3, 4] then applicationDigest
    else if bytes = [5] then otaDataDigest
    else buildDigest
  style := JsonText.exactStyle [] JsonText.blank_nil
  cwd := []

def layoutBuild : Build := ⟨parsePath "/p/.pio/build/esp32dev/firmware.bin", .null⟩

def layoutProject : Project := ⟨parsePath "/p", [⟨"esp32dev", "esp32dev", "arduino"⟩], fun _ _ => some ""⟩

def layoutFiles (table : Bytes) : List (String × Bytes) :=
  [("bootloader.bin", [1]), ("partitions.bin", table), ("firmware.bin", [3, 4]), ("boot_app0.bin", [5])]

def layoutSources (table : Bytes) : Sources where
  resolve path := path
  file path := (((path.getLast?.map Name.text).bind fun name => (layoutFiles table).lookup name)).map fun data => ⟨false, data⟩
  core := parsePath "/c"

def layoutRequest (table : Bytes) : Request where
  chip := "esp32"
  environment := "esp32dev"
  board := "esp32dev"
  images := [⟨"bootloader", .int 4096, some [1]⟩, ⟨"partitions", .int 32768, some table⟩, ⟨"application", .int 65536, some [3, 4]⟩,
    ⟨"ota_data", .int 57344, some [5]⟩]
  toolchain := .null

lemma layout_request {table : Bytes} (hparsed : (parsePartitions (records 32 table)).toOption = some parsed)
    (himages : imagesOf (layoutSources table) layoutBuild parsed 2 = .ok (layoutRequest table).images) :
    platformioRequest (layoutSources table) layoutBuild layoutProject none = .ok (layoutRequest table) := by
  have hsteps : platformioRequest (layoutSources table) layoutBuild layoutProject none =
      (do
        let parsed ← parsePartitions (records 32 table)
        let images ← imagesOf (layoutSources table) layoutBuild parsed 2
        return { layoutRequest table with images := images }) := rfl
  rw [hsteps]
  cases hok : parsePartitions (records 32 table) with
  | error refusal =>
    rw [hok] at hparsed
    cases hparsed
  | ok other =>
    rw [hok] at hparsed
    cases hparsed
    change (imagesOf (layoutSources table) layoutBuild parsed 2 >>= _) = _
    rw [himages]
    rfl

lemma slot_parsed : (parsePartitions (records 32 slotTable)).toOption = some [⟨1, 0, 0xE000, 0x2000⟩, ⟨0, 0x10, 0x10000, 0x100000⟩] := by
  decide +kernel

lemma factory_parsed : (parsePartitions (records 32 factoryTable)).toOption =
    some [⟨1, 0, 0xE000, 0x2000⟩, ⟨0, 0, 0x10000, 0x100000⟩, ⟨0, 0x10, 0x110000, 0x100000⟩] := by
  decide +kernel

lemma slot_request : platformioRequest (layoutSources slotTable) layoutBuild layoutProject none = .ok (layoutRequest slotTable) :=
  layout_request slot_parsed rfl

lemma factory_request : platformioRequest (layoutSources factoryTable) layoutBuild layoutProject none = .ok (layoutRequest factoryTable) :=
  layout_request factory_parsed rfl

def layoutEntries (host : Host) (table : Bytes) : List Entry :=
  [entryOf host "bootloader" 4096 [1], entryOf host "partitions" 32768 table, entryOf host "ota_data" 57344 [5],
    entryOf host "application" 65536 [3, 4]]

def layoutPlan (host : Host) (table : Bytes) : Sealing :=
  let identity := digest host (bodyOf (layoutRequest table) (layoutEntries host table))
  { document := bodyOf (layoutRequest table) (layoutEntries host table) ++
      [("sha256", .str identity.text), ("artifact_root", .str (pathText [identity.name]))]
    entries := layoutEntries host table
    root := [identity.name] }

lemma layout_collect (host : Host) {table : Bytes} (hne : table ≠ []) (hlength : table.length ≤ 128) :
    collect host (layoutRequest table).images [] =
      .ok [entryOf host "bootloader" 4096 [1], entryOf host "partitions" 32768 table, entryOf host "application" 65536 [3, 4],
        entryOf host "ota_data" 57344 [5]] := by
  have hsize : (table.length : ℤ) ≤ 16777216 := by omega
  simp [layoutRequest, collect, found, int?, require, flashSize, hne, hsize, bind, Except.bind, pure, Except.pure]

lemma layout_plan (host : Host) {table : Bytes} (hne : table ≠ []) (hlength : table.length ≤ 128) :
    plan host [] (layoutRequest table) = .ok (layoutPlan host table) := by
  have hchip : (layoutRequest table).chip ∈ chips := List.mem_cons_self
  have hsort : sortEntries [entryOf host "bootloader" 4096 [1], entryOf host "partitions" 32768 table,
      entryOf host "application" 65536 [3, 4], entryOf host "ota_data" 57344 [5]] = layoutEntries host table := rfl
  have hroles : sameRoles (layoutEntries host table) ["bootloader", "partitions", "application"] = true ∨
      sameRoles (layoutEntries host table) ["bootloader", "partitions", "ota_data", "application"] = true := .inr rfl
  have hapart : apart (layoutEntries host table) = true := by
    simp [apart, layoutEntries, entryOf]
    omega
  rw [plan, require_bind hchip, bind_ok (layout_collect host hne hlength)]
  simp only [hsort]
  rw [require_bind hroles, require_bind hapart]
  rfl

lemma fits_layout {table : Bytes} (h : table.length ≤ 128) : Fits (layoutRequest table) (layoutPlan host table) := by
  have hname : within 1 128 "esp32dev" = true := by decide
  refine ⟨⟨[], rfl⟩, hname, hname, ?_, ?_⟩
  · rw [within, decide_eq_true_eq]
    change 1 ≤ (pathText [Digest.name _]).toList.length ∧ (pathText [Digest.name _]).toList.length ≤ 4096
    rw [length_pathText]
    decide
  · simp [layoutPlan, layoutEntries, entryOf, flashSize]
    omega

lemma layout_returned (host : Host) {table : Bytes} (hne : table ≠ []) (hlength : table.length ≤ 128)
    (hrequest : platformioRequest (layoutSources table) layoutBuild layoutProject none = .ok (layoutRequest table)) :
    ∃ disk', sealPlatformioBuild host emptyDisk [] (layoutSources table) layoutBuild layoutProject none none =
      .ok (.returned (layoutPlan host table).document, disk') := by
  have hplan := layout_plan host hne hlength
  have husable : Usable [] (layoutPlan host table) (start emptyDisk (layoutPlan host table)) := usable_new (plan_ok host hplan)
  have hreturned := seal_of_usable hplan (fits_layout hlength) husable
  refine ⟨(sealUploadSet host emptyDisk [] (layoutRequest table) none).2, ?_⟩
  rw [sealPlatformioBuild, hrequest, ← hreturned]
  rfl

lemma slot_returned (host : Host) : ∃ disk', sealPlatformioBuild host emptyDisk [] (layoutSources slotTable) layoutBuild layoutProject none none =
    .ok (.returned (layoutPlan host slotTable).document, disk') :=
  layout_returned host (by decide) (by simp [tableEntry, tableEnd, slotTable]) slot_request

lemma factory_returned (host : Host) :
    ∃ disk', sealPlatformioBuild host emptyDisk [] (layoutSources factoryTable) layoutBuild layoutProject none none =
      .ok (.returned (layoutPlan host factoryTable).document, disk') :=
  layout_returned host (by decide) (by simp [tableEntry, tableEnd, factoryTable]) factory_request

lemma bytes_layout (table : Bytes) : (layoutSources table).bytes (partitionsPath layoutBuild) = .ok table := rfl

lemma tableOf_slot : tableOf slotTable = [⟨1, 0, 0xE000, 0x2000⟩, ⟨0, 0x10, 0x10000, 0x100000⟩] := by
  rw [tableOf, slot_parsed]
  rfl

lemma tableOf_factory : tableOf factoryTable = [⟨1, 0, 0xE000, 0x2000⟩, ⟨0, 0, 0x10000, 0x100000⟩, ⟨0, 0x10, 0x110000, 0x100000⟩] := by
  rw [tableOf, factory_parsed]
  rfl

lemma sound_slot : Sound slotTable 1 2 1 := by
  have hlength : slotTable.length = 96 := by simp [slotTable, tableEntry, tableEnd]
  refine ⟨.inl (by rw [hlength]), ?_, ?_, ?_, ?_⟩ <;> rw [tableOf_slot]
  · rw [hlength]
    decide
  · decide
  · decide
  · decide

/-- With no factory partition the application boots from the slot that is selected. -/
theorem slot_boots : ∃ manifest disk', sealPlatformioBuild (layoutHost slotTable slotTableDigest slotBuildDigest) emptyDisk []
      (layoutSources slotTable) layoutBuild layoutProject none none = .ok (.returned manifest, disk') ∧
    Boots slotTable (sealedImages manifest) := by
  obtain ⟨disk', hsealed⟩ := slot_returned (layoutHost slotTable slotTableDigest slotBuildDigest)
  obtain ⟨data, hdata, hiff⟩ := sealed_boots_iff _ _ _ _ _ _ _ _ _ _ hsealed
  cases (bytes_layout slotTable).symm.trans hdata
  exact ⟨_, disk', hsealed, hiff.mpr sound_slot⟩

/-- The application goes to the factory partition, and the device boots the empty slot. -/
theorem factory_not_booted : ¬ ∀ (host : Host) (disk : Disk) (store : Path) (sources : Sources) (build : Build) (project : Project)
    (environment : Option String) (interrupt : Option Interrupt) (manifest : Dict) (disk' : Disk),
    sealPlatformioBuild host disk store sources build project environment interrupt = .ok (.returned manifest, disk') →
    ∃ data, sources.bytes (partitionsPath build) = .ok data ∧ Boots data (sealedImages manifest) := by
  intro hclaim
  obtain ⟨disk', hsealed⟩ := factory_returned (layoutHost factoryTable factoryTableDigest factoryBuildDigest)
  obtain ⟨data, hdata, hboots⟩ := hclaim _ _ _ _ _ _ _ _ _ _ hsealed
  obtain ⟨data', own, requested, hdata', hlaid, hplaced⟩ := exists_placed hsealed
  cases hdata.symm.trans hdata'
  cases (bytes_layout factoryTable).symm.trans hdata
  have hsound := hlaid.sound_of_boots hplaced hboots
  have hown : ownPartition (tableOf factoryTable) = some ⟨0, 0, 0x10000, 0x100000⟩ := by rw [tableOf_factory]; rfl
  have hota : (⟨1, 0, 0xE000, 0x2000⟩ : Partition) ∈ tableOf factoryTable := by rw [tableOf_factory]; exact List.mem_cons_self
  have hslot : (⟨0, 0x10, 0x110000, 0x100000⟩ : Partition) ∈ tableOf factoryTable := by
    rw [tableOf_factory]
    simp
  have heq := (hsound.slot ⟨_, hota, rfl, rfl⟩ _ hown).2 _ hslot ⟨rfl, rfl⟩
  exact absurd heq (by norm_num)

end PromptForge.FirmwareManifest
