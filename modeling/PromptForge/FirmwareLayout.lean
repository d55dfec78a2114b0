import Mathlib.Data.List.MinMax
import PromptForge.FirmwareManifest
import PromptForge.FixedRecords

/-!
# The layout of a flashed build

A build is sealed with its bootloader and partition table at fixed offsets, the application
where the table has a partition for it, and the data that selects an update slot where the
table has a partition for that.
-/
namespace PromptForge.FirmwareManifest
open Runs Json FixedRecords

structure Partition where
  kind : ℕ
  subtype : ℕ
  offset : ℕ
  size : ℕ
  deriving DecidableEq

def unpack (record : Bytes) : ℕ × Partition :=
  (little (record.take 2),
    { kind := little ((record.drop 2).take 1)
      subtype := little ((record.drop 3).take 1)
      offset := little ((record.drop 4).take 4)
      size := little ((record.drop 8).take 4) })

def entryMagic : ℕ := 0x50AA

def terminators : List ℕ := [0xFFFF, 0xEBEB]

inductive BuildRefusal where
  | profileUnsupported | offsetOverrideUnsupported | buildPathInvalid | partitionsInvalid
  | applicationPartitionMissing | applicationTooLarge | otaPartitionUnsupported | configuration | os
  deriving DecidableEq

def BuildRefusal.text : BuildRefusal → Option String
  | .profileUnsupported => some "UPLOAD_PROFILE_UNSUPPORTED"
  | .offsetOverrideUnsupported => some "UPLOAD_OFFSET_OVERRIDE_UNSUPPORTED"
  | .buildPathInvalid => some "UPLOAD_BUILD_PATH_INVALID"
  | .partitionsInvalid => some "UPLOAD_PARTITIONS_INVALID"
  | .applicationPartitionMissing => some "UPLOAD_APPLICATION_PARTITION_MISSING"
  | .applicationTooLarge => some "UPLOAD_APPLICATION_TOO_LARGE"
  | .otaPartitionUnsupported => some "UPLOAD_OTA_PARTITION_UNSUPPORTED"
  | .configuration | .os => none

def orRefuse {α : Type} (answer : Option α) (error : BuildRefusal) : Except BuildRefusal α :=
  match answer with
  | some a => .ok a
  | none => .error error

def parsePartitions : List Bytes → Except BuildRefusal (List Partition)
  | [] => .ok []
  | record :: rest =>
    if (unpack record).1 = entryMagic then (parsePartitions rest).map fun parsed => (unpack record).2 :: parsed
    else if (unpack record).1 ∈ terminators then .ok []
    else .error .partitionsInvalid

def Partition.isFactory (p : Partition) : Prop := p.kind = 0 ∧ p.subtype = 0
def Partition.isOta0 (p : Partition) : Prop := p.kind = 0 ∧ p.subtype = 0x10
def Partition.isOtaData (p : Partition) : Prop := p.kind = 1 ∧ p.subtype = 0

instance (p : Partition) : Decidable p.isFactory := inferInstanceAs (Decidable (_ ∧ _))
instance (p : Partition) : Decidable p.isOta0 := inferInstanceAs (Decidable (_ ∧ _))
instance (p : Partition) : Decidable p.isOtaData := inferInstanceAs (Decidable (_ ∧ _))

def applications (parsed : List Partition) : List Partition :=
  parsed.filter fun p => p.kind = 0 ∧ (p.subtype = 0 ∨ p.subtype = 0x10)

/-- `min(applications, key=subtype)`: the first of the least. -/
def application? (parsed : List Partition) : Option Partition := (applications parsed).argmin Partition.subtype

def otaData (parsed : List Partition) : List Partition := parsed.filter fun p => p.isOtaData

structure Environment where
  name : String
  board : String
  framework : String

/-- The configuration of a project; `option` is `_resolve_option`, with nothing where it raises. -/
structure Project where
  root : Path
  environments : List Environment
  option : String → String → Option String

/-- The artifact is where its links have led. -/
structure Build where
  artifact : Path
  toolchain : Value

/-- What lies where, links followed or not. -/
structure Sources where
  resolve : Path → Path
  file : Path → Option File
  core : Path

def under (base : Path) (text : String) : Path :=
  if text.toList.head? = some '/' then parsePath text else base ++ parsePath text

def Build.directory (build : Build) : Path := build.artifact.dropLast

def bootloaderPath (build : Build) : Path := under build.directory "bootloader.bin"

def partitionsPath (build : Build) : Path := under build.directory "partitions.bin"

def bootApp0Path (sources : Sources) : Path :=
  under sources.core "packages/framework-arduinoespressif32/tools/partitions/boot_app0.bin"

def Sources.bytes (sources : Sources) (path : Path) : Except BuildRefusal Bytes := orRefuse ((sources.file path).map File.data) .os

def Sources.image (sources : Sources) (role : String) (offset : ℕ) (path : Path) : Image :=
  ⟨role, .int offset, ((sources.file path).filter fun file => !file.link).map File.data⟩

def selectedName (build : Build) (environment : Option String) : String :=
  match environment.filter (· ≠ "") with
  | some name => name
  | none => (build.directory.getLast?.map Name.text).getD ""

def overrides : List String := ["board_upload.offset_address", "board_build.bootloader_addr", "board_build.partitions_offset"]

def checkOverride (project : Project) (selected option : String) : Except BuildRefusal Unit := do
  let value ← orRefuse (project.option selected option) .configuration
  require (value = "") BuildRefusal.offsetOverrideUnsupported

def imagesOf (sources : Sources) (build : Build) (parsed : List Partition) (size : ℕ) : Except BuildRefusal (List Image) := do
  let application ← orRefuse (application? parsed) .applicationPartitionMissing
  require (size ≤ application.size) BuildRefusal.applicationTooLarge
  let images := [sources.image "bootloader" 0x1000 (bootloaderPath build), sources.image "partitions" 0x8000 (partitionsPath build),
    sources.image "application" application.offset build.artifact]
  match otaData parsed with
  | [] => return images
  | [ota] =>
    require (ota.size = 0x2000) BuildRefusal.otaPartitionUnsupported
    return images ++ [sources.image "ota_data" ota.offset (bootApp0Path sources)]
  | _ => .error .otaPartitionUnsupported

/-- `str.lower`, where only the letters of ASCII matter -/
def lower (text : String) : String := String.ofList (text.toList.map Char.toLower)

/-- The checks of `seal_platformio_build`, and the upload set that it asks for. -/
def platformioRequest (sources : Sources) (build : Build) (project : Project) (environment : Option String) :
    Except BuildRefusal Request := do
  let selected := selectedName build environment
  let config ← orRefuse (project.environments.find? fun item => item.name = selected) .profileUnsupported
  require (config.board = "esp32dev" ∧ lower config.framework = "arduino") BuildRefusal.profileUnsupported
  overrides.forM (checkOverride project selected)
  require (build.directory = sources.resolve (under (project.root ++ parsePath ".pio/build") selected)) BuildRefusal.buildPathInvalid
  let data ← sources.bytes (partitionsPath build)
  let parsed ← parsePartitions (records 32 data)
  let firmware ← sources.bytes build.artifact
  let images ← imagesOf sources build parsed firmware.length
  return ⟨"esp32", selected, config.board, images, build.toolchain⟩

def sealPlatformioBuild (host : Host) (disk : Disk) (store : Path) (sources : Sources) (build : Build) (project : Project)
    (environment : Option String) (interrupt : Option Interrupt) : Except BuildRefusal (Outcome × Disk) := do
  let request ← platformioRequest sources build project environment
  return sealUploadSet host disk store request interrupt

end PromptForge.FirmwareManifest
