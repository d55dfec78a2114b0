import PromptForge.ChangePathLaws
import PromptForge.FixedRecords
import PromptForge.Utf8

/-!
# Digests of workspaces and stages

The files of a workspace and the changes of a stage are told apart by a digest of their paths
and contents, set one after the other with delimiters between them.
-/
namespace PromptForge.SnapshotHashes
open ChangePaths FixedRecords

abbrev Bytes := List UInt8

/-- The files below a root. -/
structure Workspace where
  files : List (Text × Bytes)
  distinct : (files.map Prod.fst).Nodup

structure SnapshotFile where
  path : Text
  hash : Bytes
  size : ℕ

structure ChangedFile where
  path : Text
  changeType : String

/-- What lies at a path below a stage; links, directories and ways out of it are refused. -/
inductive Source where
  | missing
  | file (data : Bytes)
  | refused

abbrev Stage := Text → Source

-- `hashlib.sha256(data).digest()`, and what `str.casefold` makes of a character
variable (sha256 : Bytes → Vector UInt8 32) (fold : Char → List Char)

def hexDigit (n : ℕ) : UInt8 := UInt8.ofNat (if n < 10 then 48 + n else 87 + n)

def hexByte (byte : UInt8) : Bytes := [hexDigit (byte.toNat / 16), hexDigit (byte.toNat % 16)]

/-- The text of `hexdigest`, as ASCII. -/
def hexdigest (data : Bytes) : Bytes := (sha256 data).toList.flatMap hexByte

def decimal (n : ℕ) : Bytes := (Nat.toDigits 10 n).map Char.toUInt8

def before (a b : Text) : Bool := decide (String.ofList a ≤ String.ofList b)

def isSafe (path : Text) : Bool := (normalizeRelative fold path).isOk

def inspectWorkspace (workspace : Workspace) : List SnapshotFile :=
  (workspace.files.filter fun file => isSafe fold file.1).map fun file => ⟨file.1, hexdigest sha256 file.2, file.2.length⟩

def snapshotText (files : List SnapshotFile) : Bytes :=
  delimited 0 10 ((files.mergeSort fun a b => before a.path b.path).map fun item =>
    (Utf8.encode item.path, item.hash ++ 0 :: decimal item.size))

def snapshotHash (files : List SnapshotFile) : Bytes := hexdigest sha256 (snapshotText files)

def safeJoin (stage : Stage) (path : Text) (mustExist : Bool) : Option Source :=
  match normalizeRelative fold path with
  | .error _ => none
  | .ok normalized =>
    match stage normalized with
    | .refused => none
    | .missing => if mustExist then none else some .missing
    | .file data => some (.file data)

/-- `None` tells a deletion. -/
def stagedContent (stage : Stage) (item : ChangedFile) : Option (Option Bytes) :=
  (safeJoin fold stage item.path (item.changeType != "deleted")).map fun source =>
    match source with
    | .file data => some data
    | _ => none

def mark : Option Bytes → Bytes
  | none => "<deleted>".toList.map Char.toUInt8
  | some data => hexdigest sha256 data

/-- The paths that a list of changes names, and what the stage holds for each. -/
def listed (stage : Stage) (changed : List ChangedFile) : Option (List (Text × Option Bytes)) :=
  (changed.mergeSort fun a b => before a.path b.path).mapM fun item =>
    (stagedContent fold stage item).map fun content => (item.path, content)

def manifestText (items : List (Text × Option Bytes)) : Bytes :=
  delimited 0 10 (items.map fun item => (Utf8.encode item.1, mark sha256 item.2))

/-- None where a path is refused, or a file of the stage is missing. -/
def stageManifestHash (stage : Stage) (changed : List ChangedFile) : Option Bytes :=
  (listed fold stage changed).map fun items => hexdigest sha256 (manifestText sha256 items)

def SameFiles (w w' : Workspace) : Prop :=
  ∀ path data, isSafe fold path = true → ((path, data) ∈ w.files ↔ (path, data) ∈ w'.files)

def Collision (hashed : List Bytes) : Prop := ∃ x ∈ hashed, ∃ y ∈ hashed, x ≠ y ∧ sha256 x = sha256 y

/-- What is given to `sha256` for the digest of a workspace. -/
def hashedIn (workspace : Workspace) : List Bytes :=
  snapshotText (inspectWorkspace sha256 fold workspace) :: workspace.files.map Prod.snd

def hashedFor (items : List (Text × Option Bytes)) : List Bytes :=
  manifestText sha256 items :: items.filterMap Prod.snd

section Laws
variable {sha256} {fold} {data data' : Bytes}

lemma hexDigit_inj : ∀ m < 16, ∀ n < 16, hexDigit m = hexDigit n → m = n := by decide

lemma hexDigit_ne : ∀ n < 16, hexDigit n ≠ 10 := by decide

lemma hexByte_inj {byte byte' : UInt8} (h : hexByte byte = hexByte byte') : byte = byte' := by
  obtain ⟨hhigh, hlow⟩ := List.cons.inj h
  have hbyte := byte.toNat_lt
  have hbyte' := byte'.toNat_lt
  have hquot := hexDigit_inj _ (by omega) _ (by omega) hhigh
  have hrem := hexDigit_inj _ (Nat.mod_lt _ (by decide)) _ (Nat.mod_lt _ (by decide)) (List.cons.inj hlow).1
  exact UInt8.toNat_inj.1 (by omega)

lemma hex_inj {bytes bytes' : Bytes} (h : bytes.flatMap hexByte = bytes'.flatMap hexByte) : bytes = bytes' := by
  induction bytes generalizing bytes' with
  | nil =>
    cases bytes' with
    | nil => rfl
    | cons byte' rest' => cases h
  | cons byte rest ih =>
    cases bytes' with
    | nil => cases h
    | cons byte' rest' =>
      obtain ⟨hbyte, hrest⟩ := List.append_inj (h : hexByte byte ++ _ = hexByte byte' ++ _) rfl
      rw [hexByte_inj hbyte, ih hrest]

lemma hexdigest_inj (h : hexdigest sha256 data = hexdigest sha256 data') : sha256 data = sha256 data' :=
  Vector.toList_inj.1 (hex_inj h)

lemma length_hexdigest : (hexdigest sha256 data).length = 64 := by
  simp [hexdigest, List.length_flatMap, hexByte]

lemma newline_not_mem_hexdigest : (10 : UInt8) ∉ hexdigest sha256 data := by
  intro h
  obtain ⟨byte, -, hbyte⟩ := List.mem_flatMap.1 h
  have hlt := byte.toNat_lt
  rcases List.mem_cons.1 hbyte with hhigh | hlow
  · exact hexDigit_ne _ (by omega) hhigh.symm
  · exact hexDigit_ne _ (Nat.mod_lt _ (by decide)) (List.mem_singleton.1 hlow).symm

lemma newline_not_mem_decimal (n : ℕ) : (10 : UInt8) ∉ decimal n := by
  intro h
  obtain ⟨c, hc, hten⟩ := List.mem_map.1 h
  have hdigit := Nat.isDigit_of_mem_toDigits (by decide) (by decide) hc
  simp only [Char.isDigit, Bool.and_eq_true, decide_eq_true_eq, UInt32.le_iff_toNat_le] at hdigit
  have hval : c.val.toNat % 256 = 10 := congrArg UInt8.toNat hten
  have hlow : '0'.val.toNat = 48 := rfl
  have hhigh : '9'.val.toNat = 57 := rfl
  omega

lemma newline_not_mem_mark (content : Option Bytes) : (10 : UInt8) ∉ mark sha256 content := by
  cases content with
  | none =>
    change (10 : UInt8) ∉ "<deleted>".toList.map Char.toUInt8
    decide
  | some data => exact newline_not_mem_hexdigest

lemma safe_nul {path : Text} (h : isSafe fold path = true) : (0 : UInt8) ∉ Utf8.encode path := by
  refine Utf8.zero_not_mem_encode ?_
  unfold isSafe at h
  cases hpath : normalizeRelative fold path with
  | error problem => rw [hpath] at h; cases h
  | ok normalized => exact (normalizeRelative_iff.1 hpath).1.text.2

lemma mem_inspect {workspace : Workspace} {item : SnapshotFile} : item ∈ inspectWorkspace sha256 fold workspace ↔
    ∃ data, (item.path, data) ∈ workspace.files ∧ isSafe fold item.path = true ∧
      item = ⟨item.path, hexdigest sha256 data, data.length⟩ := by
  simp only [inspectWorkspace, List.mem_map, List.mem_filter]
  constructor
  · rintro ⟨⟨path, data⟩, ⟨hmem, hsafe⟩, rfl⟩
    exact ⟨data, hmem, hsafe, rfl⟩
  · rintro ⟨data, hmem, hsafe, hitem⟩
    exact ⟨(item.path, data), ⟨hmem, hsafe⟩, hitem.symm⟩

lemma snapshotText_inj {w w' : Workspace}
    (h : snapshotText (inspectWorkspace sha256 fold w) = snapshotText (inspectWorkspace sha256 fold w')) {path : Text}
    (hmem : (path, data) ∈ w.files) (hsafe : isSafe fold path = true) :
    ∃ data', (path, data') ∈ w'.files ∧ sha256 data = sha256 data' := by
  have hplain : ∀ w : Workspace, ∀ x ∈ ((inspectWorkspace sha256 fold w).mergeSort fun a b => before a.path b.path).map
      (fun item => (Utf8.encode item.path, item.hash ++ 0 :: decimal item.size)), 0 ∉ x.1 ∧ 10 ∉ x.2 := by
    intro w x hx
    obtain ⟨item, hitem, rfl⟩ := List.mem_map.1 hx
    obtain ⟨data, -, hsafe, hitem⟩ := mem_inspect.1 (List.mem_mergeSort.1 hitem)
    refine ⟨safe_nul hsafe, ?_⟩
    rw [hitem, List.mem_append, List.mem_cons]
    rintro (hhash | hzero | hsize)
    · exact newline_not_mem_hexdigest hhash
    · exact absurd hzero (by decide)
    · exact newline_not_mem_decimal _ hsize
  have hrecords := delimited_records_inj (hplain w) (hplain w') h
  have hitem : (⟨path, hexdigest sha256 data, data.length⟩ : SnapshotFile) ∈ inspectWorkspace sha256 fold w :=
    mem_inspect.2 ⟨data, hmem, hsafe, rfl⟩
  have hrecord := hrecords ▸ List.mem_map_of_mem (List.mem_mergeSort.2 hitem)
  obtain ⟨item', hitem', hsame⟩ := List.mem_map.1 hrecord
  obtain ⟨data', hmem', -, hitem'⟩ := mem_inspect.1 (List.mem_mergeSort.1 hitem')
  obtain ⟨hpath, hbody⟩ := Prod.ext_iff.1 hsame
  rw [hitem'] at hbody
  obtain rfl : item'.path = path := Utf8.encode_inj hpath
  have hhash := (List.append_inj hbody (length_hexdigest.trans length_hexdigest.symm)).1
  exact ⟨data', hmem', (hexdigest_inj hhash).symm⟩

lemma listed_safe {stage : Stage} {changed : List ChangedFile} {items : List (Text × Option Bytes)}
    (h : listed fold stage changed = some items) : ∀ item ∈ items, isSafe fold item.1 = true := by
  intro item hitem
  obtain ⟨file, -, hfile⟩ := Runs.mem_of_mapM h item hitem
  obtain ⟨content, hcontent, rfl⟩ := Option.map_eq_some_iff.1 hfile
  obtain ⟨source, hsource, -⟩ := Option.map_eq_some_iff.1 hcontent
  unfold safeJoin at hsource
  unfold isSafe
  split at hsource
  · cases hsource
  · rename_i hnormalized
    rw [hnormalized]
    rfl

lemma mark_inj {content content' : Option Bytes} (h : mark sha256 content = mark sha256 content') :
    content.map sha256 = content'.map sha256 := by
  have hlength : ∀ data, mark sha256 none ≠ mark sha256 (some data) := fun data heq => by
    have hboth : ("<deleted>".toList.map Char.toUInt8).length = 64 := (congrArg List.length heq).trans length_hexdigest
    exact absurd hboth (by decide)
  cases content with
  | none =>
    cases content' with
    | none => rfl
    | some data' => exact (hlength data' h).elim
  | some data =>
    cases content' with
    | none => exact (hlength data h.symm).elim
    | some data' => exact congrArg some (hexdigest_inj h)

lemma manifestText_inj {items items' : List (Text × Option Bytes)} (hitems : ∀ item ∈ items, isSafe fold item.1 = true)
    (hitems' : ∀ item ∈ items', isSafe fold item.1 = true) (h : manifestText sha256 items = manifestText sha256 items') :
    items.map (fun item => (item.1, item.2.map sha256)) = items'.map fun item => (item.1, item.2.map sha256) := by
  have hplain : ∀ items : List (Text × Option Bytes), (∀ item ∈ items, isSafe fold item.1 = true) →
      ∀ x ∈ items.map (fun item => (Utf8.encode item.1, mark sha256 item.2)), 0 ∉ x.1 ∧ 10 ∉ x.2 := by
    intro items hitems x hx
    obtain ⟨item, hitem, rfl⟩ := List.mem_map.1 hx
    exact ⟨safe_nul (hitems item hitem), newline_not_mem_mark _⟩
  have hrecords := delimited_records_inj (hplain items hitems) (hplain items' hitems') h
  clear h hitems hitems'
  induction items generalizing items' with
  | nil =>
    obtain rfl : items' = [] := List.map_eq_nil_iff.1 hrecords.symm
    rfl
  | cons item rest ih =>
    cases items' with
    | nil => cases hrecords
    | cons item' rest' =>
      obtain ⟨hhead, htail⟩ := List.cons.inj hrecords
      obtain ⟨hpath, hcontent⟩ := Prod.ext_iff.1 hhead
      rw [List.map_cons, List.map_cons, ih htail]
      exact congrArg (· :: _) (Prod.ext (Utf8.encode_inj hpath) (mark_inj hcontent))

lemma eq_of_digest {hashed hashed' : List Bytes} (hfree : ¬ Collision sha256 (hashed ++ hashed')) (hdata : data ∈ hashed)
    (hdata' : data' ∈ hashed') (h : sha256 data = sha256 data') : data = data' := by
  by_contra hne
  exact hfree ⟨data, List.mem_append_left _ hdata, data', List.mem_append_right _ hdata', hne, h⟩

lemma Collision.swap {hashed hashed' : List Bytes} (h : Collision sha256 (hashed' ++ hashed)) :
    Collision sha256 (hashed ++ hashed') := by
  obtain ⟨x, hx, y, hy, hne, hsame⟩ := h
  exact ⟨x, List.mem_append.2 (List.mem_append.1 hx).symm, y, List.mem_append.2 (List.mem_append.1 hy).symm, hne, hsame⟩

/-- The files of one workspace that a digest covers are in the other. -/
lemma files_of_snapshotHash {w w' : Workspace} (hfree : ¬ Collision sha256 (hashedIn sha256 fold w ++ hashedIn sha256 fold w'))
    (h : snapshotHash sha256 (inspectWorkspace sha256 fold w) = snapshotHash sha256 (inspectWorkspace sha256 fold w')) {path : Text}
    (hsafe : isSafe fold path = true) (hmem : (path, data) ∈ w.files) : (path, data) ∈ w'.files := by
  have htext := eq_of_digest hfree (List.mem_cons_self ..) (List.mem_cons_self ..) (hexdigest_inj h)
  obtain ⟨data', hmem', hsame⟩ := snapshotText_inj htext hmem hsafe
  have hdata : data = data' := eq_of_digest hfree (List.mem_cons_of_mem _ (List.mem_map_of_mem hmem))
    (List.mem_cons_of_mem _ (List.mem_map_of_mem hmem')) hsame
  exact hdata ▸ hmem'

lemma items_of_manifestHash {items items' : List (Text × Option Bytes)}
    (hfree : ¬ Collision sha256 (hashedFor sha256 items ++ hashedFor sha256 items'))
    (hdigests : items.map (fun item => (item.1, item.2.map sha256)) = items'.map fun item => (item.1, item.2.map sha256)) :
    items = items' := by
  have hdata : ∀ item ∈ items, ∀ item' ∈ items', (item.1, item.2.map sha256) = (item'.1, item'.2.map sha256) → item = item' := by
    rintro ⟨path, content⟩ hitem ⟨path', content'⟩ hitem' hsame
    obtain ⟨rfl, hcontent⟩ := Prod.mk.inj hsame
    cases content with
    | none =>
      cases content' with
      | none => rfl
      | some data' => cases hcontent
    | some data =>
      cases content' with
      | none => cases hcontent
      | some data' =>
        rw [eq_of_digest hfree (List.mem_cons_of_mem _ (List.mem_filterMap.2 ⟨_, hitem, rfl⟩))
          (List.mem_cons_of_mem _ (List.mem_filterMap.2 ⟨_, hitem', rfl⟩)) (Option.some.inj hcontent)]
  clear hfree
  induction items generalizing items' with
  | nil => exact (List.map_eq_nil_iff.1 hdigests.symm).symm
  | cons item rest ih =>
    cases items' with
    | nil => cases hdigests
    | cons item' rest' =>
      obtain ⟨hhead, htail⟩ := List.cons.inj hdigests
      rw [hdata item (List.mem_cons_self ..) item' (List.mem_cons_self ..) hhead,
        ih htail fun x hx y hy => hdata x (List.mem_cons_of_mem _ hx) y (List.mem_cons_of_mem _ hy)]

end Laws

def oneFile : Workspace := ⟨[("main.cpp".toList, [])], by decide⟩

def oneStage : Stage := fun path => if path = "main.cpp".toList then .file [] else .missing

end PromptForge.SnapshotHashes
