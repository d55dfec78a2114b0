import PromptForge.ChangeSets

namespace PromptForge.ChangeSets
open Runs Tables

variable {p : Setting} {s : State} {disk disk' : Disk}

@[simp] lemma contentOf_none : contentOf none = none := rfl

@[simp] lemma contentOf_file (content : Bytes) : contentOf (some (.file content)) = some content := rfl

variable {path : Path}

lemma node_of_ne (h : path ≠ []) : node disk path = (lookup Prod.fst disk path).map Prod.snd := if_neg h

lemma ne_nil_of_none (h : node disk path = none) : path ≠ [] := by
  rintro rfl
  cases h

lemma node_append {q : Path} {n : Node} (h : node disk path = none) :
    node (disk ++ [(path, n)]) q = if q = path then some n else node disk q := by
  have hne := ne_nil_of_none h
  have hnone : lookup Prod.fst disk path = none := by
    rw [node_of_ne hne] at h
    simpa using h
  by_cases hq : q = []
  · subst hq
    rw [if_neg (Ne.symm hne)]
    rfl
  · rw [node_of_ne hq, node_of_ne hq, lookup_append, lookup_cons, lookup_nil]
    by_cases hsame : q = path
    · subst hsame
      simp [hnone]
    · simp [hsame, Ne.symm hsame]

lemma node_replaceRow {q : Path} {n : Node} (h : path ≠ []) :
    node (replaceRow Prod.fst (path, n) disk) q = if q = path then some n else node disk q := by
  by_cases hq : q = []
  · subst hq
    rw [if_neg (Ne.symm h)]
    rfl
  · rw [node_of_ne hq, node_of_ne hq, lookup_replaceRow]
    split <;> rfl

lemma node_deleteRow {q : Path} (h : path ≠ []) :
    node (deleteRow Prod.fst path disk) q = if q = path then none else node disk q := by
  by_cases hq : q = []
  · subst hq
    rw [if_neg (Ne.symm h)]
    rfl
  · rw [node_of_ne hq, node_of_ne hq, lookup_deleteRow]
    split <;> rfl

lemma isSafe_iff : isSafe path = true ↔ path ≠ [] ∧ path.any (fun part => part.toList.contains '\x00') = false ∧
    path.any (fun part => part.toList.contains '\\' || decide (part ∈ ["", ".", ".."])) = false ∧
    path.head?.bind (fun part => part.toList[1]?) ≠ some ':' ∧ path.any isForbidden = false := by
  unfold isSafe pathProblem
  by_cases hnil : path = []
  · simp [hnil]
  · cases hzero : path.any (fun part => part.toList.contains '\x00') <;>
      cases hslash : path.any (fun part => part.toList.contains '\\' || decide (part ∈ ["", ".", ".."])) <;>
      cases hforbidden : path.any isForbidden <;>
      by_cases hdrive : path.head?.bind (fun part => part.toList[1]?) = some ':' <;> simp [hnil, hdrive]

lemma isSafe_ne_nil (h : isSafe path = true) : path ≠ [] := (isSafe_iff.mp h).1

lemma problem_of_safe (h : isSafe path = true) : pathProblem path = none := Option.isNone_iff_eq_none.mp h

lemma any_prefix {above : Path} {f : String → Bool} (h : above <+: path) (hf : path.any f = false) : above.any f = false := by
  rw [List.any_eq_false] at hf ⊢
  exact fun part hpart => hf part (h.subset hpart)

lemma isSafe_above {above : Path} (h : isSafe path = true) (habove : above <+: path) (hne : above ≠ []) : isSafe above = true := by
  obtain ⟨-, hzero, hslash, hdrive, hforbidden⟩ := isSafe_iff.mp h
  refine isSafe_iff.mpr ⟨hne, any_prefix habove hzero, any_prefix habove hslash, ?_, any_prefix habove hforbidden⟩
  obtain ⟨rest, rfl⟩ := habove
  rwa [List.head?_append_of_ne_nil _ hne] at hdrive

lemma tempPath_hidden (path : Path) (random : String) : isSafe (tempPath path random) = false := by
  by_contra h
  have hforbidden := (isSafe_iff.mp (by simpa using h)).2.2.2.2
  rw [List.any_eq_false] at hforbidden
  refine hforbidden _ (List.mem_append_right _ (List.mem_singleton_self _)) ?_
  simp [isForbidden, isHidden, String.append_assoc]

lemma mem_above {dir : Path} (hne : path ≠ []) : dir ∈ path.dropLast.inits ↔ dir <+: path ∧ dir ≠ path := by
  rw [List.mem_inits]
  constructor
  · intro h
    refine ⟨h.trans path.dropLast_prefix, fun hsame => ?_⟩
    have hle := h.length_le
    have hpos := List.length_pos_iff.mpr hne
    rw [hsame, List.length_dropLast] at hle
    omega
  · rintro ⟨⟨rest, hrest⟩, hdir⟩
    rcases List.eq_nil_or_concat rest with rfl | ⟨front, last, rfl⟩
    · exact absurd (by simpa using hrest) hdir
    · refine ⟨front, ?_⟩
      rw [← hrest, List.concat_eq_append, ← List.append_assoc, List.dropLast_concat]

def Unchanged (disk disk' : Disk) (path q : Path) : Prop :=
  node disk' q = node disk q ∨ node disk q = none ∧ node disk' q = some .directory ∧ q <+: path ∧ q ≠ path

def Quiet (disk disk' : Disk) (path : Path) : Prop := ∀ q, isSafe q = true → Unchanged disk disk' path q

def Written (disk disk' : Disk) (path : Path) (content : Option Bytes) : Prop :=
  node disk' path = content.map .file ∧ ∀ q, isSafe q = true → q ≠ path → Unchanged disk disk' path q

lemma Quiet.refl (disk : Disk) (path : Path) : Quiet disk disk path := fun _ _ => .inl rfl

variable {disk'' : Disk}

lemma Unchanged.trans {q : Path} (h : Unchanged disk disk' path q) (h' : Unchanged disk' disk'' path q) :
    Unchanged disk disk'' path q := by
  rcases h with h | ⟨hnone, hdir, hbelow⟩
  · rcases h' with h' | ⟨hnone', hdir', hbelow'⟩
    · exact .inl (h'.trans h)
    · exact .inr ⟨h ▸ hnone', hdir', hbelow'⟩
  · rcases h' with h' | ⟨hnone', -⟩
    · exact .inr ⟨hnone, h'.trans hdir, hbelow⟩
    · rw [hdir] at hnone'
      cases hnone'

lemma Quiet.trans (h : Quiet disk disk' path) (h' : Quiet disk' disk'' path) : Quiet disk disk'' path :=
  fun q hq => (h q hq).trans (h' q hq)

lemma Quiet.same (h : Quiet disk disk' path) (hpath : isSafe path = true) : node disk' path = node disk path :=
  (h path hpath).resolve_right fun hr => hr.2.2.2 rfl

variable {content : Option Bytes}

lemma Quiet.written (h : Quiet disk disk' path)
    (h' : Written disk' disk'' path content) : Written disk disk'' path content :=
  ⟨h'.1, fun q hq hne => (h q hq).trans (h'.2 q hq hne)⟩

lemma quiet_directory {dir : Path} (hmissing : missing disk path = some dir) (hnone : node disk dir = none) (hpath : path ≠ []) :
    Quiet disk (disk ++ [(dir, .directory)]) path := by
  intro q _
  unfold Unchanged
  rw [node_append hnone]
  split
  · rename_i hq
    subst hq
    exact .inr ⟨hnone, rfl, (mem_above hpath).mp (List.mem_of_find?_eq_some hmissing)⟩
  · exact .inl rfl

lemma quiet_temp {temp : Path} {n : Node} (hnone : node disk temp = none) (htemp : isSafe temp = false) :
    Quiet disk (disk ++ [(temp, n)]) path := by
  intro q hq
  refine .inl ?_
  rw [node_append hnone, if_neg]
  rintro rfl
  rw [hq] at htemp
  cases htemp

lemma quiet_delete {temp : Path} (hne : temp ≠ []) (htemp : isSafe temp = false) : Quiet disk (deleteRow Prod.fst temp disk) path := by
  intro q hq
  refine .inl ?_
  rw [node_deleteRow hne, if_neg]
  rintro rfl
  rw [hq] at htemp
  cases htemp

lemma written_delete (hpath : path ≠ []) : Written disk (deleteRow Prod.fst path disk) path none := by
  refine ⟨by rw [node_deleteRow hpath, if_pos rfl]; rfl, fun q _ hq => .inl ?_⟩
  rw [node_deleteRow hpath, if_neg hq]

lemma written_place {temp : Path} (content : Bytes) (hpath : path ≠ []) (hne : temp ≠ []) (htemp : isSafe temp = false) :
    Written disk (replaceRow Prod.fst (path, .file content) (deleteRow Prod.fst temp disk)) path (some content) := by
  have hdeleted : Quiet disk (deleteRow Prod.fst temp disk) path := quiet_delete hne htemp
  refine hdeleted.written ⟨by rw [node_replaceRow hpath, if_pos rfl]; rfl, fun q _ hq => .inl ?_⟩
  rw [node_replaceRow hpath, if_neg hq]

structure Fine (jobs : List Job) (base : Disk) : Prop where
  paths : (jobs.map Job.path).Nodup
  safe : ∀ j ∈ jobs, isSafe j.path = true
  before : ∀ j ∈ jobs, node base j.path = j.original.map .file
  above : ∀ j ∈ jobs, ∀ dir, dir <+: j.path → dir ≠ j.path → contentOf (node base dir) = none
  apart : ∀ i ∈ jobs, ∀ j ∈ jobs, i.path <+: j.path → i.path = j.path

structure Shape (jobs : List Job) (base disk : Disk) : Prop where
  outside : ∀ q, isSafe q = true → (∀ j ∈ jobs, j.path ≠ q) →
    node disk q = node base q ∨ node base q = none ∧ node disk q = some .directory
  sides : ∀ j ∈ jobs, node disk j.path = j.original.map .file ∨ node disk j.path = j.content.map .file

def Original (jobs : List Job) (disk : Disk) : Prop := ∀ j ∈ jobs, node disk j.path = j.original.map .file

variable {jobs : List Job} {base : Disk}

lemma fine_shape (h : Fine jobs base) : Shape jobs base base := ⟨fun _ _ _ => .inl rfl, fun j hj => .inl (h.before j hj)⟩

variable {j : Job}

lemma unchanged_job (hfine : Fine jobs base) {i : Job} (hi : i ∈ jobs) (hj : j ∈ jobs) (h : Unchanged disk disk' j.path i.path) :
    node disk' i.path = node disk i.path :=
  h.resolve_right fun hr => hr.2.2.2 (hfine.apart i hi j hj hr.2.2.1)

lemma outside_unchanged {q : Path} (h : Unchanged disk disk' path q)
    (hbefore : node disk q = node base q ∨ node base q = none ∧ node disk q = some .directory) :
    node disk' q = node base q ∨ node base q = none ∧ node disk' q = some .directory := by
  rcases h with h | ⟨hnone, hdir, -⟩
  · rwa [h]
  · rcases hbefore with hsame | ⟨-, hdirectory⟩
    · exact .inr ⟨hsame ▸ hnone, hdir⟩
    · rw [hdirectory] at hnone
      cases hnone

lemma Shape.quiet (h : Shape jobs base disk) (hfine : Fine jobs base) (hj : j ∈ jobs) (hquiet : Quiet disk disk' j.path) :
    Shape jobs base disk' ∧ ∀ i ∈ jobs, node disk' i.path = node disk i.path := by
  have hsame : ∀ i ∈ jobs, node disk' i.path = node disk i.path := fun i hi =>
    unchanged_job hfine hi hj (hquiet _ (hfine.safe i hi))
  refine ⟨⟨fun q hq hout => outside_unchanged (hquiet q hq) (h.outside q hq hout), fun i hi => ?_⟩, hsame⟩
  rw [hsame i hi]
  exact h.sides i hi

lemma Shape.written (h : Shape jobs base disk) (hfine : Fine jobs base) (hj : j ∈ jobs)
    (hwritten : Written disk disk' j.path content) (hcontent : content = j.original ∨ content = j.content) :
    Shape jobs base disk' ∧ ∀ i ∈ jobs, i.path ≠ j.path → node disk' i.path = node disk i.path := by
  have hsame : ∀ i ∈ jobs, i.path ≠ j.path → node disk' i.path = node disk i.path := fun i hi hne =>
    unchanged_job hfine hi hj (hwritten.2 _ (hfine.safe i hi) hne)
  refine ⟨⟨fun q hq hout => outside_unchanged (hwritten.2 q hq (hout j hj).symm) (h.outside q hq hout), fun i hi => ?_⟩, hsame⟩
  by_cases hne : i.path = j.path
  · obtain rfl : i = j := List.inj_on_of_nodup_map hfine.paths hi hj hne
    rw [hwritten.1]
    exact hcontent.imp (fun h => by rw [h]) fun h => by rw [h]
  · rw [hsame i hi hne]
    exact h.sides i hi

lemma Shape.not_directory (h : Shape jobs base disk) (hj : j ∈ jobs) : node disk j.path ≠ some .directory := by
  rcases h.sides j hj with h | h <;> rw [h]
  · cases j.original <;> simp
  · cases j.content <;> simp

lemma Shape.above (h : Shape jobs base disk) (hfine : Fine jobs base) (hj : j ∈ jobs) {dir : Path} (hdir : dir <+: j.path)
    (hne : dir ≠ j.path) : node disk dir = none ∨ node disk dir = some .directory := by
  by_cases hnil : dir = []
  · exact .inr (by rw [hnil]; rfl)
  · have hsafe := isSafe_above (hfine.safe j hj) hdir hnil
    have hout : ∀ i ∈ jobs, i.path ≠ dir := by
      rintro i hi rfl
      exact hne (hfine.apart i hi j hj hdir)
    have hbase := hfine.above j hj dir hdir hne
    rcases h.outside dir hsafe hout with hsame | ⟨-, hdirectory⟩
    · rw [hsame]
      cases hnode : node base dir with
      | none => exact .inl rfl
      | some n =>
        cases n with
        | file content =>
          rw [hnode] at hbase
          cases hbase
        | directory => exact .inr rfl
    · exact .inr hdirectory

lemma Shape.visible (h : Shape jobs base disk) (hfine : Fine jobs base) (horiginal : Original jobs disk) :
    visible disk = visible base := by
  funext q
  unfold ChangeSets.visible
  split
  · rename_i hq
    by_cases hjob : ∃ j ∈ jobs, j.path = q
    · obtain ⟨j, hj, rfl⟩ := hjob
      rw [horiginal j hj, hfine.before j hj]
    · rcases h.outside q hq (by simpa using hjob) with hsame | ⟨hnone, hdir⟩
      · rw [hsame]
      · rw [hnone, hdir]
        rfl
  · rfl

def jobOf (p : Setting) (base : Disk) (item : ChangedFile) : Job :=
  ⟨item.path, contentOf (p.stage item.path), contentOf (node base item.path)⟩

def jobsOf (p : Setting) (base : Disk) : List Job := p.changedFiles.map (jobOf p base)

lemma content_of_not_directory {n : Option Node} (h : n ≠ some .directory) : n = (contentOf n).map .file := by
  cases n with
  | none => rfl
  | some n =>
    cases n with
    | file content => rfl
    | directory => exact absurd rfl h

lemma apart_jobsOf (hprepared : Prepared p base) (hwritable : Writable p base) {x y : ChangedFile} (hx : x ∈ p.changedFiles)
    (hy : y ∈ p.changedFiles) (h : x.path <+: y.path) : x.path = y.path := by
  by_contra hne
  have hxd := (hprepared.files x hx).2
  have hyd := (hprepared.files y hy).2
  -- what the stage holds above a file of the stage is a directory
  have hstaged : p.stage y.path ≠ none → False := by
    intro hsome
    have hdir := hprepared.stage y.path x.path h hne hsome
    unfold Describes at hxd
    cases htype : x.changeType <;> simp only [htype] at hxd
    · obtain ⟨content, hstage, -⟩ := hxd
      rw [hdir] at hstage
      cases hstage
    · obtain ⟨content, _, hstage, -⟩ := hxd
      rw [hdir] at hstage
      cases hstage
    · rw [hdir] at hxd
      cases hxd.1
  unfold Describes at hyd
  cases htype : y.changeType <;> simp only [htype] at hyd
  · obtain ⟨content, hstage, -⟩ := hyd
    exact hstaged (by simp [hstage])
  · obtain ⟨content, _, hstage, -⟩ := hyd
    exact hstaged (by simp [hstage])
  · obtain ⟨-, -, content, hnode, -⟩ := hyd
    exact hwritable.noDirectory x hx (hprepared.workspace y.path x.path h hne (by simp [hnode]))

lemma fine_jobsOf (hprepared : Prepared p base) (hwritable : Writable p base) : Fine (jobsOf p base) base where
  paths := by
    have hpaths : (jobsOf p base).map Job.path = p.changedFiles.map ChangedFile.path := by simp [jobsOf, jobOf, Function.comp_def]
    rw [hpaths]
    exact hprepared.paths
  safe := by
    intro j hj
    obtain ⟨item, hitem, rfl⟩ := List.mem_map.mp hj
    exact (hprepared.files item hitem).1
  before := by
    intro j hj
    obtain ⟨item, hitem, rfl⟩ := List.mem_map.mp hj
    exact content_of_not_directory (hwritable.noDirectory item hitem)
  above := by
    intro j hj
    obtain ⟨item, hitem, rfl⟩ := List.mem_map.mp hj
    exact hwritable.belowDirectories item hitem
  apart := by
    intro i hi j hj
    obtain ⟨x, hx, rfl⟩ := List.mem_map.mp hi
    obtain ⟨y, hy, rfl⟩ := List.mem_map.mp hj
    exact apart_jobsOf hprepared hwritable hx hy

variable {item : ChangedFile}

lemma checkTarget_ok (hnode : node disk item.path = (contentOf (node base item.path)).map .file)
    (hhash : item.previousHash = (contentOf (node base item.path)).map p.hash) :
    checkTarget p disk item content = .ok ⟨item.path, content, contentOf (node base item.path)⟩ := by
  unfold checkTarget
  rw [hnode]
  cases hcontent : contentOf (node base item.path) with
  | none => simp [hhash, hcontent]
  | some current => simp [hhash, hcontent]

lemma hashes_of (h : Describes p base item) :
    item.newHash = (contentOf (p.stage item.path)).map p.hash ∧ item.previousHash = (contentOf (node base item.path)).map p.hash ∧
      item.newHash ≠ item.previousHash := by
  unfold Describes at h
  cases htype : item.changeType <;> simp only [htype] at h
  · obtain ⟨content, hstage, hnew, hprevious, hnode⟩ := h
    simp [hstage, hnew, hprevious, hnode]
  · obtain ⟨content, before, hstage, hnew, hnode, hprevious, hne⟩ := h
    simp [hstage, hnew, hnode, hprevious, hne]
  · obtain ⟨hstage, hnew, before, hnode, hprevious⟩ := h
    simp [hstage, hnew, hnode, hprevious]

lemma checkFile_ok (hprepared : Prepared p base) (hwritable : Writable p base) (hitem : item ∈ p.changedFiles)
    (hnode : node disk item.path = (contentOf (node base item.path)).map .file) : checkFile p disk item = .ok (jobOf p base item) := by
  obtain ⟨hsafe, hdescribes⟩ := hprepared.files item hitem
  obtain ⟨-, hprevious, -⟩ := hashes_of hdescribes
  unfold checkFile
  rw [hwritable.outsideUndo item hitem, problem_of_safe hsafe]
  unfold Describes at hdescribes
  cases htype : item.changeType <;> simp only [htype] at hdescribes
  · obtain ⟨content, hstage, hnew, -⟩ := hdescribes
    simp [stagedFile, hstage, hnew, checkTarget_ok hnode hprevious, jobOf]
  · obtain ⟨content, before, hstage, hnew, -⟩ := hdescribes
    simp [stagedFile, hstage, hnew, checkTarget_ok hnode hprevious, jobOf]
  · obtain ⟨hstage, hnew, -⟩ := hdescribes
    simp [hstage, hnew, checkTarget_ok hnode hprevious, jobOf]

lemma manifest_ok (hprepared : Prepared p base) : ∃ files, manifest p = .ok files := by
  refine ⟨_, @mapM_ok _ _ _ _ (fun item => (item.path, contentOf (p.stage item.path))) p.changedFiles fun item hitem => ?_⟩
  obtain ⟨hsafe, hdescribes⟩ := hprepared.files item hitem
  rw [problem_of_safe hsafe]
  unfold Describes at hdescribes
  cases htype : item.changeType <;> simp only [htype] at hdescribes
  · obtain ⟨content, hstage, -⟩ := hdescribes
    simp [stagedFile, hstage, Except.map]
  · obtain ⟨content, before, hstage, -⟩ := hdescribes
    simp [stagedFile, hstage, Except.map]
  · simp [hdescribes.1]

lemma check_ok (hprepared : Prepared p base) (hwritable : Writable p base) (h : Shape (jobsOf p base) base disk)
    (horiginal : Original (jobsOf p base) disk) (hlimit : entries disk ≤ maxEntries) : check p disk = .ok (jobsOf p base) := by
  obtain ⟨files, hfiles⟩ := manifest_ok hprepared
  have hvisible := h.visible (fine_jobsOf hprepared hwritable) horiginal
  unfold check
  rw [if_neg (Nat.not_lt.mpr hlimit), hvisible, hprepared.tree, if_neg (by simp), hfiles]
  simp only
  rw [hprepared.manifest files hfiles, if_neg (by simp)]
  exact mapM_ok fun item hitem => checkFile_ok hprepared hwritable hitem (horiginal _ (List.mem_map_of_mem hitem))

def Backed (jobs : List Job) (undo : Option (List (Path × Bytes))) : Prop :=
  ∃ rows, undo = some rows ∧ ∀ j ∈ jobs, ∀ content, j.original = some content → lookup Prod.fst rows j.path = some (j.path, content)

lemma recoveryJob_original (hprepared : Prepared p base) (hitem : item ∈ p.changedFiles)
    (hnode : node s.disk item.path = (contentOf (node base item.path)).map .file) : recoveryJob p s item = some none := by
  obtain ⟨hsafe, hdescribes⟩ := hprepared.files item hitem
  obtain ⟨-, hprevious, -⟩ := hashes_of hdescribes
  unfold recoveryJob
  rw [hnode, hsafe]
  cases hcontent : contentOf (node base item.path) <;> simp [hprevious, hcontent]

lemma recoveryJob_content (hprepared : Prepared p base) (hitem : item ∈ p.changedFiles)
    (hnode : node s.disk item.path = (contentOf (p.stage item.path)).map .file) (hbacked : Backed (jobsOf p base) s.undo) :
    recoveryJob p s item = some (some ⟨item.path, contentOf (node base item.path), none⟩) := by
  obtain ⟨hsafe, hdescribes⟩ := hprepared.files item hitem
  obtain ⟨hnew, hprevious, hne⟩ := hashes_of hdescribes
  obtain ⟨rows, hundo, hrows⟩ := hbacked
  have hactual : (contentOf (node s.disk item.path)).map p.hash = item.newHash := by
    rw [hnode, hnew]
    cases contentOf (p.stage item.path) <;> rfl
  have hdir : node s.disk item.path ≠ some .directory := by
    rw [hnode]
    cases contentOf (p.stage item.path) <;> simp
  unfold recoveryJob
  simp only [hactual, hsafe, hdir, decide_false, Bool.not_true, Bool.or_false, Bool.false_eq_true, if_false, hne, not_true_eq_false,
    ne_eq]
  cases hcontent : contentOf (node base item.path) with
  | none => simp [hprevious, hcontent]
  | some before =>
    have hrow := hrows _ (List.mem_map_of_mem hitem) before hcontent
    simp only [jobOf] at hrow
    simp [hprevious, hcontent, hundo, hrow]

lemma mapM_some {α β : Type} {f : α → Option β} {P : α → β → Prop} {xs : List α} (h : ∀ x ∈ xs, ∃ y, f x = some y ∧ P x y) :
    ∃ ys, xs.mapM f = some ys ∧ List.Forall₂ P xs ys := by
  induction xs with
  | nil => exact ⟨[], rfl, .nil⟩
  | cons x xs ih =>
    obtain ⟨y, hy, hp⟩ := h x (List.mem_cons_self ..)
    obtain ⟨ys, hys, hall⟩ := ih fun x' hx' => h x' (List.mem_cons_of_mem _ hx')
    refine ⟨y :: ys, ?_, .cons hp hall⟩
    rw [List.mapM_cons, hy, hys]
    rfl

def Restores (base disk : Disk) (item : ChangedFile) (job : Option Job) : Prop :=
  job = none ∧ node disk item.path = (contentOf (node base item.path)).map .file ∨
    job = some ⟨item.path, contentOf (node base item.path), none⟩ ∧ node disk item.path ≠ (contentOf (node base item.path)).map .file

lemma recoveryJobs (hprepared : Prepared p base) (h : Shape (jobsOf p base) base s.disk)
    (hbacked : Original (jobsOf p base) s.disk ∨ Backed (jobsOf p base) s.undo) :
    ∃ found, p.changedFiles.mapM (recoveryJob p s) = some found ∧ List.Forall₂ (Restores base s.disk) p.changedFiles found := by
  refine mapM_some fun item hitem => ?_
  have hmem : jobOf p base item ∈ jobsOf p base := List.mem_map_of_mem hitem
  by_cases hnode : node s.disk item.path = (contentOf (node base item.path)).map .file
  · exact ⟨none, recoveryJob_original hprepared hitem hnode, .inl ⟨rfl, hnode⟩⟩
  · have hcontent := (h.sides _ hmem).resolve_left hnode
    have hrows := hbacked.resolve_left fun horiginal => hnode (horiginal _ hmem)
    exact ⟨_, recoveryJob_content hprepared hitem hcontent hrows, .inr ⟨rfl, hnode⟩⟩

lemma restores_jobs {items : List ChangedFile} {found : List (Option Job)} (h : List.Forall₂ (Restores base disk) items found) :
    (∀ job ∈ found.filterMap id, ∃ item ∈ items, job.path = item.path ∧ job.content = contentOf (node base item.path) ∧
      node disk item.path ≠ (contentOf (node base item.path)).map .file) ∧
    ∀ item ∈ items, node disk item.path = (contentOf (node base item.path)).map .file ∨
      ∃ job ∈ found.filterMap id, job.path = item.path := by
  induction h with
  | nil => simp
  | @cons item job items found hhead _ ih =>
    rcases hhead with ⟨rfl, hnode⟩ | ⟨rfl, hnode⟩
    · constructor
      · intro job hjob
        obtain ⟨x, hx, hsame⟩ := ih.1 job (by simpa using hjob)
        exact ⟨x, List.mem_cons_of_mem _ hx, hsame⟩
      · intro x hx
        rcases List.mem_cons.mp hx with rfl | hx
        · exact .inl hnode
        · simpa using ih.2 x hx
    · constructor
      · intro job hjob
        simp only [List.filterMap_cons, id_eq, List.mem_cons] at hjob
        rcases hjob with rfl | hjob
        · exact ⟨item, List.mem_cons_self .., rfl, rfl, hnode⟩
        · obtain ⟨x, hx, hsame⟩ := ih.1 job hjob
          exact ⟨x, List.mem_cons_of_mem _ hx, hsame⟩
      · intro x hx
        simp only [List.filterMap_cons, id_eq, List.exists_mem_cons_iff]
        rcases List.mem_cons.mp hx with rfl | hx
        · exact .inr (.inl rfl)
        · exact (ih.2 x hx).imp_right .inr

end PromptForge.ChangeSets
