import PromptForge.FirmwareManifestSeals

/-!
# Upload sets

What a caller may rely on: when sealing is atomic and can be done again after an
interruption, and that what is verified is what was sealed.
-/
namespace PromptForge.FirmwareManifest
open Runs Json

section
variable (host : Host)

/-- A request that passes the checks before writing and the bounds that are checked after it. -/
def Sealable (store : Path) (request : Request) : Prop :=
  ∃ sealing, plan host store request = .ok sealing ∧ Fits request sealing

def Reseals (disk : Disk) (store : Path) (request : Request) : Prop :=
  ∃ manifest paths, (sealUploadSet host disk store request none).1 = .returned manifest ∧
    verifyUploadSet host (sealUploadSet host disk store request none).2 manifest (some store) (some request.chip)
      (some request.environment) = .ok paths

/-- Nothing is raised after a new directory was made, or another call can follow the interruption. -/
def Recoverable (disk : Disk) (store : Path) (request : Request) (interrupt : Option Interrupt) : Prop :=
  ∀ sealing, plan host store request = .ok sealing →
    (¬ Early interrupt → disk sealing.root = none → Unraised request sealing interrupt) ∧
    (interrupt.isSome = true → Fits request sealing → Usable store sealing (start disk sealing) ∧
      ¬ Tears (imageFault interrupt) sealing.entries (start disk sealing))

variable {host}

variable {disk : Disk}

lemma Accepted.at {later : Disk} {m : Manifest} {folder : Folder} (h : Accepted host disk m folder)
    (hlater : later (m.location host) = disk (m.location host)) : Accepted host later m folder :=
  ⟨h.valid, h.identity, hlater.trans h.present, h.link, h.named, h.listed, h.distinct, h.before, h.complete⟩

lemma proper_toolchain {document : Dict} {m : Manifest} (h : JsonText.Proper (.obj document))
    (hm : Manifest.validate document = .ok m) : JsonText.Proper (.obj m.toolchain) := by
  have hentry := Dict.mem_of_get? (validate_ok hm).2.1
  exact JsonText.properEntries_iff.1 h.2 _ hentry

lemma mismatch_self (s : String) : mismatch (some s) s = false := by
  unfold mismatch
  simp

variable {store : Path} {request : Request} {interrupt : Option Interrupt}

lemma accepted_of_returned {later : Disk}
    {manifest : Dict} (h : (sealUploadSet host disk store request interrupt).1 = .returned manifest)
    (hlater : ∀ m, Manifest.validate manifest = .ok m →
      later (m.location host) = (sealUploadSet host disk store request interrupt).2 (m.location host))
    {wanted : Option Path} (hwanted : wanted = none ∨ wanted = some store) :
    ∃ paths, verifyUploadSet host later manifest wanted (some request.chip) (some request.environment) = .ok paths := by
  obtain ⟨sealing, hplan⟩ := planned_of_returned h
  obtain ⟨rfl, -, paths, hpaths⟩ := seal_returned hplan h
  obtain ⟨m, folder, hm, haccepted, hstored, -, -, -⟩ := verifyUploadSet_ok hpaths
  obtain ⟨-, hsealed⟩ := sealed_of_validate (plan_ok host hplan) hm
  have hchip : mismatch (some request.chip) m.chip = false := by
    rw [hsealed]
    exact mismatch_self request.chip
  have henvironment : mismatch (some request.environment) m.environment = false := by
    rw [hsealed]
    exact mismatch_self request.environment
  have hstored' : Stored wanted folder := by
    intro path hpath
    rcases hwanted with rfl | rfl
    · cases hpath
    · exact hstored path hpath
  exact ⟨_, verifyUploadSet_of hm (haccepted.at (hlater m hm)) hstored' hchip henvironment⟩

variable {sealing : Sealing}

variable (hplan : plan host store request = .ok sealing)

include hplan in
lemma reseals_iff :
    Reseals host disk store request ↔ Fits request sealing ∧ Usable store sealing (start disk sealing) := by
  constructor
  · rintro ⟨manifest, -, hreturned, -⟩
    exact usable_of_returned hplan hreturned
  · rintro ⟨hfits, husable⟩
    have hreturned := seal_of_usable hplan hfits husable
    obtain ⟨paths, hpaths⟩ := accepted_of_returned hreturned (fun _ _ => rfl) (.inr rfl)
    exact ⟨_, paths, hreturned, hpaths⟩

include hplan in
lemma start_after (hearly : ¬ Early interrupt) :
    start (sealUploadSet host disk store request interrupt).2 sealing = (written disk sealing interrupt).2 := by
  rw [seal_written hplan hearly]
  unfold start
  simp only [Function.update_self]
  rfl

include hplan in
lemma gainsNothing_of_present (hearly : ¬ Early interrupt) :
    GainsNothing disk (sealUploadSet host disk store request interrupt).2 ↔ disk sealing.root ≠ none := by
  rw [seal_written hplan hearly]
  constructor
  · intro h hnone
    have hupdated := h sealing.root hnone
    simp only [Function.update_self] at hupdated
    cases hupdated
  · intro h path hpath
    have hother : path ≠ sealing.root := by
      rintro rfl
      exact h hpath
    exact (Function.update_of_ne hother _ disk).trans hpath

include hplan in
lemma usable_after :
    Usable store sealing (start (sealUploadSet host disk store request interrupt).2 sealing) ↔
      Usable store sealing (start disk sealing) ∧
        ¬ Tears (imageFault interrupt) sealing.entries (start disk sealing) := by
  by_cases hearly : Early interrupt
  · rw [seal_early hearly]
    obtain ⟨⟨crash, point⟩, rfl, hpoint⟩ := hearly
    have hwhole : ¬ Tears (imageFault (some ⟨crash, point⟩)) sealing.entries (start disk sealing) := by
      rintro ⟨index, count, e, hfault, -⟩
      rcases hpoint with hpoint | hpoint <;> (cases hpoint; cases hfault)
    exact (and_iff_left hwhole).symm
  · rw [start_after hplan hearly]
    exact usable_written (plan_ok host hplan)

variable (host)

/-- Sealing is atomic, and can be done again after an interruption, in these cases. -/
theorem sealed_atomically_iff (disk : Disk) (store : Path) (request : Request) (interrupt : Option Interrupt) :
    ((∀ error, (sealUploadSet host disk store request interrupt).1 = .raised error →
        GainsNothing disk (sealUploadSet host disk store request interrupt).2) ∧
      (interrupt.isSome = true → Sealable host store request →
        Reseals host (sealUploadSet host disk store request interrupt).2 store request)) ↔
      Recoverable host disk store request interrupt := by
  rcases hplan : plan host store request with error | sealing
  · refine iff_of_true ⟨?_, ?_⟩ ?_
    · intro error _
      rw [seal_refused hplan]
      exact fun _ hpath => hpath
    · rintro - ⟨sealing, hsealing, -⟩
      rw [hplan] at hsealing
      cases hsealing
    · intro sealing hsealing
      rw [hplan] at hsealing
      cases hsealing
  · have hsealable : Sealable host store request ↔ Fits request sealing := by
      constructor
      · rintro ⟨other, hother, hfits⟩
        rw [hplan] at hother
        cases hother
        exact hfits
      · exact fun hfits => ⟨sealing, hplan, hfits⟩
    have hatomic : (∀ error, (sealUploadSet host disk store request interrupt).1 = .raised error →
        GainsNothing disk (sealUploadSet host disk store request interrupt).2) ↔
        (¬ Early interrupt → disk sealing.root = none → Unraised request sealing interrupt) := by
      by_cases hearly : Early interrupt
      · rw [seal_early hearly]
        exact iff_of_true (fun _ _ _ hpath => hpath) fun hlate => absurd hearly hlate
      · rw [gainsNothing_of_present hplan hearly]
        by_cases hnew : disk sealing.root = none
        · have hraised := not_congr (@raised_iff host store request sealing disk interrupt hplan hearly hnew)
          rw [not_not, not_exists] at hraised
          simp only [hnew, ne_eq, not_true_eq_false, hearly, not_false_eq_true, true_implies]
          exact hraised
        · simp [hnew]
    have hagain : (interrupt.isSome = true → Sealable host store request →
        Reseals host (sealUploadSet host disk store request interrupt).2 store request) ↔
        (interrupt.isSome = true → Fits request sealing → Usable store sealing (start disk sealing) ∧
          ¬ Tears (imageFault interrupt) sealing.entries (start disk sealing)) := by
      rw [hsealable, reseals_iff hplan, usable_after hplan]
      exact forall_congr' fun _ => forall_congr' fun hfits => and_iff_right hfits
    rw [hatomic, hagain]
    unfold Recoverable
    rw [hplan]
    simp

/-- What is sealed is accepted, what is accepted can be flashed, and an identity stands for one set of bytes. -/
theorem accepted_as_sealed :
    (∀ (disk later : Disk) (store : Path) (request : Request) (interrupt : Option Interrupt) (manifest : Dict),
      (sealUploadSet host disk store request interrupt).1 = .returned manifest →
      (∀ m, Manifest.validate manifest = .ok m →
        later (m.location host) = (sealUploadSet host disk store request interrupt).2 (m.location host)) →
      ∀ wanted, wanted = none ∨ wanted = some store → ∃ paths,
        verifyUploadSet host later manifest wanted (some request.chip) (some request.environment) = .ok paths) ∧
    (∀ (disk : Disk) (document : Dict) (store : Option Path) (chip environment : Option String)
      (paths : List (ℤ × Path × String)), verifyUploadSet host disk document store chip environment = .ok paths →
      ∃ m ranges, Manifest.validate document = .ok m ∧
        contents disk (m.location host) paths = ranges.map (fun r => (r.1, some r.2)) ∧ InFlash ranges ∧
        ∀ role ∈ ["application", "bootloader", "partitions"], (paths.map fun p => p.2.2).count (role ++ ".bin") = 1) ∧
    (∀ (disk₁ disk₂ : Disk) (document₁ document₂ : Dict) (store₁ store₂ : Option Path)
      (chip₁ chip₂ environment₁ environment₂ : Option String) (paths₁ paths₂ : List (ℤ × Path × String))
      (m₁ m₂ : Manifest), JsonText.Proper (.obj document₁) → JsonText.Proper (.obj document₂) →
      Manifest.validate document₁ = .ok m₁ → Manifest.validate document₂ = .ok m₂ →
      verifyUploadSet host disk₁ document₁ store₁ chip₁ environment₁ = .ok paths₁ →
      verifyUploadSet host disk₂ document₂ store₂ chip₂ environment₂ = .ok paths₂ →
      (∀ x ∈ hashed host disk₁ m₁, ∀ y ∈ hashed host disk₂ m₂, host.sha256 x = host.sha256 y → x = y) →
      m₁.sha256 = m₂.sha256 →
      contents disk₁ (m₁.location host) paths₁ = contents disk₂ (m₂.location host) paths₂) := by
  refine ⟨?_, ?_, ?_⟩
  · intro disk later store request interrupt manifest hreturned hlater wanted hwanted
    exact accepted_of_returned hreturned hlater hwanted
  · intro disk document store chip environment paths hpaths
    obtain ⟨m, folder, hm, haccepted, -, -, -, rfl⟩ := verifyUploadSet_ok hpaths
    obtain ⟨ranges, hranges, hflash⟩ := haccepted.ranges
    exact ⟨m, ranges, hm, hranges, hflash, fun role hrole => haccepted.once hrole⟩
  · intro disk₁ disk₂ document₁ document₂ store₁ store₂ chip₁ chip₂ environment₁ environment₂ paths₁ paths₂ m₁ m₂
      hproper₁ hproper₂ hm₁ hm₂ hpaths₁ hpaths₂ hfree hsame
    obtain ⟨n₁, folder₁, hn₁, haccepted₁, -, -, -, rfl⟩ := verifyUploadSet_ok hpaths₁
    obtain ⟨n₂, folder₂, hn₂, haccepted₂, -, -, -, rfl⟩ := verifyUploadSet_ok hpaths₂
    rw [hm₁] at hn₁
    rw [hm₂] at hn₂
    cases hn₁
    cases hn₂
    exact same_contents haccepted₁ haccepted₂ (proper_toolchain hproper₁ hm₁) (proper_toolchain hproper₂ hm₂) hfree hsame

end

def bootloaderDigest : Digest := ⟨"4bf5122f344554c53bde2ebb8cd2b7e3d1600ad631c385a5d7cce23c7785459a", isDigest_ofList (by decide +kernel)⟩
def partitionsDigest : Digest := ⟨"dbc1b4c900ffe48d575b5da5c638040125f65db0fe3e24494b76ea986457d986", isDigest_ofList (by decide +kernel)⟩
def applicationDigest : Digest := ⟨"0ce3940bebf2b22a5d2108ecf0c368a0541c7e3c45703f8540921b4eafc82947", isDigest_ofList (by decide +kernel)⟩
def fittingDigest : Digest := ⟨"865eeec8d3c8a49d09584b71f1d8cf08f1b28a8a72fe44201547e0b415cd16f1", isDigest_ofList (by decide +kernel)⟩
def outsideDigest : Digest := ⟨"6ca71ecbaab25d831ebfb86ca262906e6b181bf4d18a90548e816dd377d4189a", isDigest_ofList (by decide +kernel)⟩

/-- The digests of three small images, and one for all other texts. -/
def sampleHost (other : Digest) : Host where
  sha256 bytes :=
    if bytes = [1] then bootloaderDigest
    else if bytes = [2] then partitionsDigest
    else if bytes = [3, 4] then applicationDigest
    else other
  style := JsonText.exactStyle [] JsonText.blank_nil
  cwd := []

def sampleRequest (offset : ℤ) : Request where
  chip := "esp32"
  environment := "esp32dev"
  board := "esp32dev"
  images := [⟨"bootloader", .int 4096, some [1]⟩, ⟨"partitions", .int 32768, some [2]⟩,
    ⟨"application", .int offset, some [3, 4]⟩]
  toolchain := .null

def emptyDisk : Disk := fun _ => none

def sampleEntries (host : Host) (offset : ℤ) : List Entry :=
  [entryOf host "bootloader" 4096 [1], entryOf host "partitions" 32768 [2], entryOf host "application" offset [3, 4]]

def samplePlan (host : Host) (offset : ℤ) : Sealing :=
  let identity := digest host (bodyOf (sampleRequest offset) (sampleEntries host offset))
  { document := bodyOf (sampleRequest offset) (sampleEntries host offset) ++
      [("sha256", .str identity.text), ("artifact_root", .str (pathText [identity.name]))]
    entries := sampleEntries host offset
    root := [identity.name] }

lemma plan_fitting (host : Host) : plan host [] (sampleRequest 65536) = .ok (samplePlan host 65536) := by rfl

lemma plan_outside (host : Host) : plan host [] (sampleRequest 16777215) = .ok (samplePlan host 16777215) := by rfl

lemma not_early_none : ¬ Early none := fun ⟨_, hnone, _⟩ => by cases hnone

lemma length_pathText (d : Digest) : (pathText [d.name]).toList.length = 65 := by
  have hdigest := d.isDigest
  unfold isDigest at hdigest
  rw [Bool.and_eq_true, decide_eq_true_eq] at hdigest
  unfold pathText
  rw [String.toList_ofList]
  simp [Digest.name, hdigest.1]

lemma fits_fitting (host : Host) : Fits (sampleRequest 65536) (samplePlan host 65536) := by
  refine ⟨⟨[], rfl⟩, by decide, by decide, ?_, ?_⟩
  · unfold within
    rw [decide_eq_true_eq]
    change 1 ≤ (pathText [Digest.name _]).toList.length ∧ (pathText [Digest.name _]).toList.length ≤ 4096
    rw [length_pathText]
    decide
  · simp [samplePlan, sampleEntries, entryOf, flashSize]

lemma usable_empty (host : Host) : Usable [] (samplePlan host 65536) (start emptyDisk (samplePlan host 65536)) :=
  usable_new (plan_ok host (plan_fitting host))

/-- An image that ends past the flash is refused when its directory is there, and a crash that cuts
    an image short makes every later call fail. -/
theorem outside_and_torn :
    ((∃ error, (sealUploadSet (sampleHost outsideDigest) emptyDisk [] (sampleRequest 16777215) none).1 =
        .raised error) ∧
      ¬ GainsNothing emptyDisk
        (sealUploadSet (sampleHost outsideDigest) emptyDisk [] (sampleRequest 16777215) none).2) ∧
    Sealable (sampleHost fittingDigest) [] (sampleRequest 65536) ∧
    ¬ Reseals (sampleHost fittingDigest)
      (sealUploadSet (sampleHost fittingDigest) emptyDisk [] (sampleRequest 65536)
        (some ⟨true, .image 2 (some 1)⟩)).2 [] (sampleRequest 65536) := by
  refine ⟨⟨?_, ?_⟩, ⟨_, plan_fitting _, fits_fitting _⟩, ?_⟩
  · apply (raised_iff (plan_outside _) not_early_none rfl).2
    rintro (⟨i, hi, -⟩ | ⟨hfits, -⟩)
    · cases hi
    · have hinside := hfits.inside (entryOf (sampleHost outsideDigest) "application" 16777215 [3, 4])
        (by simp [samplePlan, sampleEntries])
      exact absurd hinside (by decide)
  · rw [gainsNothing_of_present (plan_outside _) not_early_none]
    exact fun h => h rfl
  · rw [reseals_iff (plan_fitting _), usable_after (plan_fitting _)]
    rintro ⟨-, -, hwhole⟩
    exact hwhole ⟨2, 1, _, rfl, rfl, rfl, by decide⟩

def sampleSeal : Outcome × Disk := sealUploadSet (sampleHost fittingDigest) emptyDisk [] (sampleRequest 65536) none

lemma sample_returned : sampleSeal.1 = .returned (samplePlan (sampleHost fittingDigest) 65536).document :=
  seal_of_usable (plan_fitting _) (fits_fitting _) (usable_empty _)

theorem sample_accepted : ∃ paths, verifyUploadSet (sampleHost fittingDigest) sampleSeal.2
    (samplePlan (sampleHost fittingDigest) 65536).document none (some "esp32") (some "esp32dev") = .ok paths :=
  (accepted_as_sealed (sampleHost fittingDigest)).1 emptyDisk sampleSeal.2 [] (sampleRequest 65536) none
    _ sample_returned (fun _ _ => rfl) none (.inl rfl)

end PromptForge.FirmwareManifest
