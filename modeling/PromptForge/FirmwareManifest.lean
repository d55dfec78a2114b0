import Mathlib.Data.List.Sort
import PromptForge.JsonText
import PromptForge.Runs

/-!
# Sealed upload sets

The images of a build are copied to a directory named by the digest of their manifest.
-/
namespace PromptForge.FirmwareManifest
open Runs Json

abbrev Bytes := List UInt8

def flashSize : ℤ := 16 * 1024 * 1024

def splitPath : List Char → List (List Char)
  | [] => [[]]
  | c :: cs =>
    if c = '/' then [] :: splitPath cs
    else
      match splitPath cs with
      | [] => [[c]]
      | part :: parts => (c :: part) :: parts

def isName (cs : List Char) : Bool := decide (cs ≠ [] ∧ cs ≠ ['.'] ∧ '/' ∉ cs)

/-- A component of a path. -/
structure Name where
  chars : List Char
  proper : isName chars = true
  deriving DecidableEq

abbrev Path := List Name

def nameOf? (cs : List Char) : Option Name := if h : isName cs = true then some ⟨cs, h⟩ else none

def parsePath (text : String) : Path := (splitPath text.toList).filterMap nameOf?

def pathText (path : Path) : String := String.ofList (path.flatMap fun name => '/' :: name.chars)

def Name.text (name : Name) : String := String.ofList name.chars

def isHex (c : Char) : Bool := decide (c ∈ "0123456789abcdef".toList)

/-- `^[a-f0-9]{64}$` -/
def isDigest (text : String) : Bool := decide (text.toList.length = 64) && text.toList.all isHex

lemma isDigest_ofList {cs : List Char} (h : (decide (cs.length = 64) && cs.all fun c => decide
    (c ∈ ['0', '1', '2', '3', '4', '5', '6', '7', '8', '9', 'a', 'b', 'c', 'd', 'e', 'f'])) = true) : isDigest (String.ofList cs) = true := by
  unfold isDigest isHex
  repeat rw [String.toList_ofList]
  exact h

structure Digest where
  text : String
  isDigest : isDigest text = true

/-- `hashlib.sha256(data)`, the texts of floats, with no blank between the parts of a document, and
    the directory that relative paths start from. -/
structure Host where
  sha256 : Bytes → Digest
  style : JsonText.Style
  cwd : Path

def encode (text : String) : Bytes := text.toUTF8.data.toList

structure File where
  link : Bool
  data : Bytes
  deriving DecidableEq

/-- A directory, where it is after its links are resolved, and its files. -/
structure Folder where
  link : Bool
  resolved : Path
  files : String → Option File

abbrev Disk := Path → Option Folder

structure UploadImage where
  role : String
  offset : ℤ
  sha256 : String
  sizeBytes : ℤ
  filename : String
  deriving DecidableEq

structure Manifest where
  schemaVersion : ℤ
  chip : String
  environment : String
  board : String
  toolchain : Dict
  images : List UploadImage
  sha256 : String
  artifactRoot : String

inductive Refusal where
  | chipUnsupported | imageUnavailable | imageSizeInvalid | imageInvalid | setIncomplete | imagesOverlap
  | tampered | uploadRequired | manifestTampered | chipMismatch | environmentMismatch | rootInvalid | imagePathInvalid
  | validation | os
  deriving DecidableEq

def Refusal.text : Refusal → Option String
  | .chipUnsupported => some "UPLOAD_CHIP_UNSUPPORTED"
  | .imageUnavailable => some "UPLOAD_IMAGE_UNAVAILABLE"
  | .imageSizeInvalid => some "UPLOAD_IMAGE_SIZE_INVALID"
  | .imageInvalid => some "UPLOAD_IMAGE_INVALID"
  | .setIncomplete => some "UPLOAD_SET_INCOMPLETE"
  | .imagesOverlap => some "UPLOAD_IMAGES_OVERLAP"
  | .tampered => some "SEALED_ARTIFACT_TAMPERED"
  | .uploadRequired => some "SEALED_UPLOAD_REQUIRED"
  | .manifestTampered => some "UPLOAD_MANIFEST_TAMPERED"
  | .chipMismatch => some "UPLOAD_CHIP_MISMATCH"
  | .environmentMismatch => some "UPLOAD_ENVIRONMENT_MISMATCH"
  | .rootInvalid => some "UPLOAD_ROOT_INVALID"
  | .imagePathInvalid => some "UPLOAD_IMAGE_PATH_INVALID"
  | .validation | .os => none

def chips : List String := ["esp32", "esp32s3", "esp32c3"]

def roles : List String := ["bootloader", "partitions", "ota_data", "application"]

def UploadImage.dump (image : UploadImage) : Value :=
  .obj [("role", .str image.role), ("offset", .int image.offset), ("sha256", .str image.sha256),
    ("size_bytes", .int image.sizeBytes), ("filename", .str image.filename)]

def Manifest.body (m : Manifest) : Dict :=
  [("schema_version", .int m.schemaVersion), ("chip", .str m.chip), ("environment", .str m.environment),
    ("board", .str m.board), ("toolchain", .obj m.toolchain), ("images", .arr (m.images.map UploadImage.dump))]

def Manifest.dump (m : Manifest) : Dict :=
  m.body ++ [("sha256", .str m.sha256), ("artifact_root", .str m.artifactRoot)]

def text (d : Dict) (key : String) : Except Refusal String :=
  match Dict.get? d key with
  | some (.str s) => .ok s
  | _ => .error .validation

def integer (d : Dict) (key : String) : Except Refusal ℤ :=
  match Dict.get? d key with
  | some (.int n) => .ok n
  | _ => .error .validation

def found {α : Type} (answer : Option α) (error : Refusal) : Except Refusal α :=
  match answer with
  | some a => .ok a
  | none => .error error

def within (low high : ℕ) (s : String) : Bool := decide (low ≤ s.toList.length ∧ s.toList.length ≤ high)

def imageFields : List String := ["role", "offset", "sha256", "size_bytes", "filename"]

def manifestFields : List String :=
  ["schema_version", "chip", "environment", "board", "toolchain", "images", "sha256", "artifact_root"]

def items? : Value → Option (List Value)
  | .arr items => some items
  | _ => none

def onlyFields (fields : List String) (d : Dict) : Bool := d.all fun e => decide (e.1 ∈ fields)

def UploadImage.validate : Value → Except Refusal UploadImage
  | .obj d => do
    require (onlyFields imageFields d = true) Refusal.validation
    let role ← text d "role"
    require (role ∈ roles) Refusal.validation
    let offset ← integer d "offset"
    require (0 ≤ offset ∧ offset < flashSize) Refusal.validation
    let sha256 ← text d "sha256"
    require (isDigest sha256 = true) Refusal.validation
    let sizeBytes ← integer d "size_bytes"
    require (0 < sizeBytes ∧ sizeBytes ≤ flashSize) Refusal.validation
    let filename ← text d "filename"
    return ⟨role, offset, sha256, sizeBytes, filename⟩
  | _ => .error .validation

def Manifest.validate (d : Dict) : Except Refusal Manifest := do
  require (onlyFields manifestFields d = true) Refusal.validation
  let schemaVersion ← integer d "schema_version"
  require (schemaVersion = 1) Refusal.validation
  let chip ← text d "chip"
  require (chip ∈ chips) Refusal.validation
  let environment ← text d "environment"
  require (within 1 128 environment = true) Refusal.validation
  let board ← text d "board"
  require (within 1 128 board = true) Refusal.validation
  let toolchain ← found ((Dict.get? d "toolchain").bind obj?) .validation
  let items ← found ((Dict.get? d "images").bind items?) .validation
  let images ← items.mapM UploadImage.validate
  require (3 ≤ images.length ∧ images.length ≤ 4) Refusal.validation
  let sha256 ← text d "sha256"
  require (isDigest sha256 = true) Refusal.validation
  let artifactRoot ← text d "artifact_root"
  require (within 1 4096 artifactRoot = true) Refusal.validation
  return ⟨schemaVersion, chip, environment, board, toolchain, images, sha256, artifactRoot⟩

section
variable (host : Host)

/-- Where `Path(manifest["artifact_root"])` is. -/
def Manifest.location (m : Manifest) : Path :=
  if m.artifactRoot.toList.head? = some '/' then parsePath m.artifactRoot else host.cwd ++ parsePath m.artifactRoot

def digest (body : Dict) : Digest := host.sha256 (encode (JsonText.dumps host.style (.obj body)))

/-- The loop over the images, with the roles seen so far and the end of the last image. -/
def verifyImages (root : Path) (folder : Folder) :
    List UploadImage → List String → ℤ → Except Refusal (List (ℤ × Path × String))
  | [], _, _ => .ok []
  | image :: images, seen, last => do
    require (image.role ∈ roles ∧ image.role ∉ seen) Refusal.imageInvalid
    require (image.filename = image.role ++ ".bin") Refusal.imagePathInvalid
    require (¬ (image.offset < last) ∧ 0 < image.sizeBytes ∧ image.sizeBytes ≤ flashSize ∧
      image.offset + image.sizeBytes ≤ flashSize) Refusal.imagesOverlap
    let file ← found (folder.files image.filename) .os
    require (file.link = false) Refusal.imagePathInvalid
    require ((file.data.length : ℤ) = image.sizeBytes ∧ (host.sha256 file.data).text = image.sha256) Refusal.tampered
    let rest ← verifyImages root folder images (image.role :: seen) (image.offset + image.sizeBytes)
    return (image.offset, root, image.filename) :: rest

def mismatch (wanted : Option String) (actual : String) : Bool :=
  match wanted with
  | some value => decide (value ≠ "" ∧ actual ≠ value)
  | none => false

/-- `verify_upload_set`: the offsets and files of the images. -/
def verifyUploadSet (disk : Disk) (document : Dict) (store : Option Path) (chip environment : Option String) :
    Except Refusal (List (ℤ × Path × String)) := do
  let manifest ← Manifest.validate document
  require (manifest.schemaVersion = 1) Refusal.uploadRequired
  require ((digest host manifest.body).text = manifest.sha256) Refusal.manifestTampered
  require (manifest.chip ∈ chips ∧ mismatch chip manifest.chip = false) Refusal.chipMismatch
  require (mismatch environment manifest.environment = false) Refusal.environmentMismatch
  let root := manifest.location host
  require (((disk root).all fun folder => !folder.link) = true ∧
    (parsePath manifest.artifactRoot).getLast?.map Name.text = some manifest.sha256) Refusal.rootInvalid
  let folder ← found (disk root) .os
  let root := folder.resolved
  require ((store.all fun store => decide (root.dropLast = store)) = true) Refusal.rootInvalid
  require (3 ≤ manifest.images.length ∧ manifest.images.length ≤ 4) Refusal.setIncomplete
  let paths ← verifyImages host root folder manifest.images [] 0
  require (∀ role ∈ ["application", "bootloader", "partitions"], role ∈ manifest.images.map UploadImage.role)
    Refusal.setIncomplete
  return paths

end

/-- An image as it is offered; a path that is a link or no file has no data. -/
structure Image where
  role : String
  offset : Value
  data : Option Bytes

structure Request where
  chip : String
  environment : String
  board : String
  images : List Image
  toolchain : Value

structure Entry where
  image : UploadImage
  data : Bytes

lemma name_of_digest {text : String} (h : isDigest text = true) : isName text.toList = true := by
  unfold isDigest at h
  rw [Bool.and_eq_true, decide_eq_true_eq, List.all_eq_true] at h
  obtain ⟨hlength, hhex⟩ := h
  unfold isName
  rw [decide_eq_true_eq]
  refine ⟨?_, ?_, ?_⟩
  · intro hnil
    rw [hnil] at hlength
    cases hlength
  · intro hdot
    rw [hdot] at hlength
    cases hlength
  · intro hslash
    exact absurd (hhex '/' hslash) (by decide)

def Digest.name (d : Digest) : Name := ⟨d.text.toList, name_of_digest d.isDigest⟩

/-- Where the disk is left alone by anything else, a new directory. -/
def Folder.new (root : Path) : Folder := ⟨false, root, fun _ => none⟩

def Folder.put (folder : Folder) (filename : String) (file : File) : Folder :=
  { folder with files := Function.update folder.files filename (some file) }

section
variable (host : Host)

def int? : Value → Option ℤ
  | .int n => some n
  | _ => none

def entryOf (role : String) (offset : ℤ) (data : Bytes) : Entry where
  image := {
    role := role
    offset := offset
    sha256 := (host.sha256 data).text
    sizeBytes := data.length
    filename := role ++ ".bin" }
  data := data

def collect : List Image → List String → Except Refusal (List Entry)
  | [], _ => .ok []
  | image :: images, seen => do
    let data ← found image.data .imageUnavailable
    require (data ≠ [] ∧ (data.length : ℤ) ≤ flashSize) Refusal.imageSizeInvalid
    let offset ← found (int? image.offset) .imageInvalid
    require (image.role ∉ seen ∧ 0 ≤ offset) Refusal.imageInvalid
    let rest ← collect images (image.role :: seen)
    return entryOf host image.role offset data :: rest

def sortEntries (entries : List Entry) : List Entry :=
  entries.insertionSort fun a b => a.image.offset ≤ b.image.offset

def sameRoles (entries : List Entry) (wanted : List String) : Bool :=
  (wanted.all fun role => decide (role ∈ entries.map fun e => e.image.role)) &&
    entries.all fun e => decide (e.image.role ∈ wanted)

def apart : List Entry → Bool
  | a :: b :: entries => decide (a.image.offset + a.image.sizeBytes ≤ b.image.offset) && apart (b :: entries)
  | _ => true

def toolchainOf (toolchain : Value) : Value := if truthy toolchain then toolchain else .obj []

def bodyOf (request : Request) (entries : List Entry) : Dict :=
  [("schema_version", .int 1), ("chip", .str request.chip), ("environment", .str request.environment),
    ("board", .str request.board), ("toolchain", toolchainOf request.toolchain),
    ("images", .arr (entries.map fun e => e.image.dump))]

/-- What is to be written, and where. -/
structure Sealing where
  document : Dict
  entries : List Entry
  root : Path

def plan (store : Path) (request : Request) : Except Refusal Sealing := do
  require (request.chip ∈ chips) Refusal.chipUnsupported
  let collected ← collect host request.images []
  let entries := sortEntries collected
  require (sameRoles entries ["bootloader", "partitions", "application"] = true ∨
    sameRoles entries ["bootloader", "partitions", "ota_data", "application"] = true) Refusal.setIncomplete
  require (apart entries = true) Refusal.imagesOverlap
  let body := bodyOf request entries
  let identity := digest host body
  let root := store ++ [identity.name]
  return ⟨body ++ [("sha256", .str identity.text), ("artifact_root", .str (pathText root))], entries, root⟩

/-- Where a crash or an `OSError` strikes: at an image before its file is opened, or after some
    of its bytes were written. -/
inductive Point where
  | reading | directory
  | image (index : ℕ) (written : Option ℕ)
  | verification | report
  deriving DecidableEq

structure Interrupt where
  crash : Bool
  point : Point

inductive Outcome where
  | returned (manifest : Dict)
  | raised (error : Refusal)
  | crashed

def Interrupt.outcome (interrupt : Interrupt) : Outcome := if interrupt.crash then .crashed else .raised .os

inductive Writing where
  | done | interrupted | tampered
  deriving DecidableEq

/-- The images are created one after the other; one that exists is compared. -/
def writeImages : Option (ℕ × Option ℕ) → List Entry → Folder → Writing × Folder
  | _, [], folder => (.done, folder)
  | some (0, written), e :: _, folder =>
    match folder.files e.image.filename, written with
    | none, some count => (.interrupted, folder.put e.image.filename ⟨false, e.data.take count⟩)
    | _, _ => (.interrupted, folder)
  | fault, e :: entries, folder =>
    let next := fault.map fun f => (f.1 - 1, f.2)
    match folder.files e.image.filename with
    | none => writeImages next entries (folder.put e.image.filename ⟨false, e.data⟩)
    | some file =>
      if file.link = true ∨ file.data ≠ e.data then (.tampered, folder) else writeImages next entries folder

def imageFault : Option Interrupt → Option (ℕ × Option ℕ)
  | some ⟨_, .image index written⟩ => some (index, written)
  | _ => none

def strikes (interrupt : Option Interrupt) (point : Point) : Option Outcome :=
  match interrupt with
  | some interrupt => if interrupt.point = point then some interrupt.outcome else none
  | none => none

def confirm (disk : Disk) (store : Path) (document : Dict) (interrupt : Option Interrupt) : Outcome :=
  match strikes interrupt .verification with
  | some outcome => outcome
  | none =>
    match verifyUploadSet host disk document (some store) none none with
    | .error error => .raised error
    | .ok _ =>
      match strikes interrupt .report with
      | some outcome => outcome
      | none => .returned document

/-- `seal_upload_set` on a disk that nothing else writes. -/
def sealUploadSet (disk : Disk) (store : Path) (request : Request) (interrupt : Option Interrupt) : Outcome × Disk :=
  match strikes interrupt .reading with
  | some outcome => (outcome, disk)
  | none =>
    match plan host store request with
    | .error error => (.raised error, disk)
    | .ok sealing =>
      match strikes interrupt .directory with
      | some outcome => (outcome, disk)
      | none =>
        let folder := (disk sealing.root).getD (Folder.new sealing.root)
        match writeImages (imageFault interrupt) sealing.entries folder with
        | (.interrupted, folder) =>
          ((interrupt.map Interrupt.outcome).getD .crashed, Function.update disk sealing.root (some folder))
        | (.tampered, folder) => (.raised .tampered, Function.update disk sealing.root (some folder))
        | (.done, folder) =>
          let disk := Function.update disk sealing.root (some folder)
          (confirm host disk store sealing.document interrupt, disk)

end

end PromptForge.FirmwareManifest
