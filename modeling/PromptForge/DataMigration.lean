import Mathlib.Data.List.Infix
import Mathlib.Logic.Function.Basic
import PromptForge.Runs

/-!
# Migration to a per-user data directory

`migrate_legacy_data` copies two directories of an installation. A marker keeps how far it
came: a call that finds a manifest in it only renames what an earlier call has copied.
SQLite is a parameter: what its backup reads and writes, and what it leaves beside a file.
-/
namespace PromptForge.DataMigration
open Runs

abbrev Bytes := List UInt8
abbrev Name := List Char

structure Path where
  folder : List Name
  name : Name
  deriving DecidableEq

abbrev Files := Path → Option Bytes

inductive Area where
  | promptforge | workspace
  deriving DecidableEq

def areas : List Area := [.promptforge, .workspace]

/-- `file.endswith(("-wal", "-shm"))` -/
def isSide (name : Name) : Bool := decide (['-', 'w', 'a', 'l'] <:+ name ∨ ['-', 's', 'h', 'm'] <:+ name)

def suffix (name : Name) : Name :=
  let tail := (name.reverse.takeWhile fun c => decide (c ≠ '.')).reverse
  if tail ≠ [] ∧ 1 < name.length - tail.length then '.' :: tail else []

/-- `original.suffix.lower() in {".db", ".sqlite", ".sqlite3"}` -/
def isDatabase (name : Name) : Bool :=
  decide ((suffix name).map Char.toLower ∈ [['.', 'd', 'b'], ['.', 's', 'q', 'l', 'i', 't', 'e'], ['.', 's', 'q', 'l', 'i', 't', 'e', '3']])

inductive Part where
  | main | journal | wal | shm
  deriving DecidableEq

def Part.ending : Part → Name
  | .main => []
  | .journal => ['-', 'j', 'o', 'u', 'r', 'n', 'a', 'l']
  | .wal => ['-', 'w', 'a', 'l']
  | .shm => ['-', 's', 'h', 'm']

def parts : List Part := [.main, .journal, .wal, .shm]

def Path.part (path : Path) (part : Part) : Path := { path with name := path.name ++ part.ending }

abbrev Family := Part → Option Bytes

def familyOf (files : Files) (path : Path) : Family := fun part => files (path.part part)

def putFamily (files : Files) (path : Path) (family : Family) : Files := fun p =>
  match parts.find? fun part => decide (path.part part = p) with
  | some part => family part
  | none => files p

def alone (main : Option Bytes) : Family
  | .main => main
  | _ => none

/-- `reader.backup(writer)` and `PRAGMA integrity_check`: what the source and the copy are after both
    were closed, or nothing when one of the two raises. -/
structure Sqlite where
  backup : Family → Family → Option (Family × Family)

structure Record (δ : Type) where
  source : String
  complete : Bool
  directories : Area → Option (List (Path × δ))

structure World (δ : Type) where
  source : Area → Option Files
  marker : Option (Record δ)
  staged : Area → Option Files
  placed : Area → Option Files

inductive Refusal where
  | sourceChanged | targetNotEmpty | copyInvalid | database | os
  deriving DecidableEq

def Refusal.text : Refusal → Option String
  | .sourceChanged => some "DATA_MIGRATION_SOURCE_CHANGED"
  | .targetNotEmpty => some "DATA_MIGRATION_TARGET_NOT_EMPTY"
  | .copyInvalid => some "DATA_MIGRATION_COPY_INVALID"
  | .database | .os => none

/-- What a file that was being copied is like after a crash. -/
structure Damage where
  copied : Option Bytes
  reader : Family
  writer : Family

inductive Point where
  | start
  | file (area : Area) (index : ℕ) (damage : Damage)
  | record (area : Area)
  | place (area : Area)
  | complete

/-- A call: the order in which it meets the files, and where it dies. -/
structure Call where
  walk : Area → List Path
  crash : Option Point

inductive Outcome where
  | returned (done : Bool) | raised (error : Refusal) | crashed
  deriving DecidableEq

/-- A step that goes on with a value, or ends the call. -/
inductive Flow (δ τ : Type) where
  | next (value : τ) (world : World δ)
  | stop (outcome : Outcome) (world : World δ)

section
variable {δ : Type} [DecidableEq δ] (hash : Bytes → δ) (sqlite : Sqlite)

def copyFile (path : Path) (source staged : Files) : Except Refusal (Files × Files × List (Path × δ)) :=
  if isSide path.name = true then .ok (source, staged, [])
  else if isDatabase path.name = true then
    match sqlite.backup (familyOf source path) (familyOf staged path) with
    | none => .error .database
    | some (reader, writer) =>
      match writer .main with
      | none => .error .os
      | some copied => .ok (putFamily source path reader, putFamily staged path writer, [(path, hash copied)])
  else
    match source path with
    | none => .error .os
    | some bytes => .ok (source, Function.update staged path (some bytes), [(path, hash bytes)])

def breakFile (damage : Damage) (path : Path) (source staged : Files) : Files × Files :=
  if isSide path.name = true then (source, staged)
  else if isDatabase path.name = true then
    (putFamily source path damage.reader, putFamily staged path damage.writer)
  else (source, match damage.copied with
    | some bytes => Function.update staged path (some bytes)
    | none => staged)

inductive Copying (δ : Type) where
  | done (manifest : List (Path × δ)) | crashed | raised (error : Refusal)

def copyFiles : Option (ℕ × Damage) → List Path → Files → Files → List (Path × δ) → Copying δ × Files × Files
  | _, [], source, staged, manifest => (.done manifest, source, staged)
  | some (0, damage), path :: _, source, staged, _ => (.crashed, breakFile damage path source staged)
  | fault, path :: paths, source, staged, manifest =>
    match copyFile hash sqlite path source staged with
    | .error error => (.raised error, source, staged)
    | .ok (source, staged, entries) =>
      copyFiles (fault.map fun f => (f.1 - 1, f.2)) paths source staged (manifest ++ entries)

def verifyManifest (files : Option Files) (manifest : List (Path × δ)) : Bool :=
  manifest.all fun entry =>
    match files.bind fun files => files entry.1 with
    | some bytes => decide (hash bytes = entry.2)
    | none => false

def World.setSource (w : World δ) (area : Area) (files : Option Files) : World δ :=
  { w with source := Function.update w.source area files }

def World.setStaged (w : World δ) (area : Area) (files : Option Files) : World δ :=
  { w with staged := Function.update w.staged area files }

def World.setPlaced (w : World δ) (area : Area) (files : Option Files) : World δ :=
  { w with placed := Function.update w.placed area files }

def World.setMarker (w : World δ) (record : Record δ) : World δ := { w with marker := some record }

def Record.list (record : Record δ) (area : Area) (manifest : List (Path × δ)) : Record δ :=
  { record with directories := Function.update record.directories area (some manifest) }

def World.place (w : World δ) (area : Area) : World δ := (w.setPlaced area (w.staged area)).setStaged area none

def Call.dies (call : Call) (point : Point → Bool) : Bool :=
  match call.crash with
  | some p => point p
  | none => false

def Call.fault (call : Call) (area : Area) : Option (ℕ × Damage) :=
  match call.crash with
  | some (.file a index damage) => if a = area then some (index, damage) else none
  | _ => none

def Point.isStart : Point → Bool
  | .start => true
  | _ => false

def Point.isRecord (area : Area) : Point → Bool
  | .record a => decide (a = area)
  | _ => false

def Point.isPlace (area : Area) : Point → Bool
  | .place a => decide (a = area)
  | _ => false

def Point.isComplete : Point → Bool
  | .complete => true
  | _ => false

def placeArea (call : Call) (area : Area) (manifest : List (Path × δ)) (w : World δ) : Flow δ Unit :=
  match w.placed area with
  | some files =>
    if verifyManifest hash (some files) manifest = true then .next () w else .stop (.raised .copyInvalid) w
  | none =>
    if verifyManifest hash (w.staged area) manifest = true then
      if call.dies (Point.isPlace area) = true then .stop .crashed w
      else
        match w.staged area with
        | none => .stop (.raised .os) w
        | some files =>
          let w := w.place area
          if verifyManifest hash (some files) manifest = true then .next () w else .stop (.raised .copyInvalid) w
    else .stop (.raised .copyInvalid) w

def copyArea (call : Call) (area : Area) (files : Files) (record : Record δ) (w : World δ) : Flow δ (Record δ) :=
  let staged := (w.staged area).getD fun _ => none
  match copyFiles hash sqlite (call.fault area) (call.walk area) files staged [] with
  | (.crashed, source, staged) => .stop .crashed ((w.setSource area (some source)).setStaged area (some staged))
  | (.raised error, source, staged) =>
    .stop (.raised error) ((w.setSource area (some source)).setStaged area (some staged))
  | (.done manifest, source, staged) =>
    let w := (w.setSource area (some source)).setStaged area (some staged)
    if call.dies (Point.isRecord area) = true then .stop .crashed w
    else
      let record := record.list area manifest
      let w := w.setMarker record
      if verifyManifest hash (some staged) manifest = true then
        if call.dies (Point.isPlace area) = true then .stop .crashed w
        else
          match w.placed area with
          | some _ => .stop (.raised .os) w
          | none => .next record (w.place area)
      else .stop (.raised .copyInvalid) w

def moveArea (call : Call) (area : Area) (record : Record δ) (w : World δ) : Flow δ (Record δ) :=
  match w.source area with
  | none => .next record w
  | some files =>
    match record.directories area with
    | some manifest =>
      match placeArea hash call area manifest w with
      | .next () w => .next record w
      | .stop outcome w => .stop outcome w
    | none => copyArea hash sqlite call area files record w

def moveAreas (call : Call) : List Area → Record δ → World δ → Flow δ (Record δ)
  | [], record, w => .next record w
  | area :: rest, record, w =>
    match moveArea hash sqlite call area record w with
    | .next record w => moveAreas call rest record w
    | .stop outcome w => .stop outcome w

def prepare (origin : String) (call : Call) (w : World δ) : Flow δ (Record δ) :=
  match w.marker with
  | some record =>
    if record.complete = true then .stop (.returned true) w
    else if record.source ≠ origin then .stop (.raised .sourceChanged) w
    else .next record w
  | none =>
    if (areas.any fun area => (w.placed area).isSome) = true then .stop (.raised .targetNotEmpty) w
    else if call.dies Point.isStart = true then .stop .crashed w
    else
      let record : Record δ := ⟨origin, false, fun _ => none⟩
      .next record (w.setMarker record)

/-- `migrate_legacy_data` of a directory that is there and is not the target. -/
def migrateLegacyData (origin : String) (w : World δ) (call : Call) : Outcome × World δ :=
  match prepare origin call w with
  | .stop outcome w => (outcome, w)
  | .next record w =>
    match moveAreas hash sqlite call areas record w with
    | .stop outcome w => (outcome, w)
    | .next record w =>
      if call.dies Point.isComplete = true then (.crashed, w)
      else (.returned true, w.setMarker { record with complete := true })

end

end PromptForge.DataMigration
