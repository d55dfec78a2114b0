import PromptForge.ReviewUnits

namespace PromptForge.ReviewUnits
open Regex Relation Runs TaskContracts Worklist

variable (host : Host)

def Includes (path next : Path) : Prop :=
  ∃ text, host.readFile path = .text text ∧ ∃ included ∈ includes text, resolve host path included = .ok (some next)

def Reaches (check : Check) (path : Path) : Prop := ∃ first ∈ check.evidence, ReflTransGen (Includes host) first path

def spansFrom : ℕ → List (List Line) → List Span
  | _, [] => []
  | first, lines :: rest => ⟨first, first + lines.length - 1, lines.flatten⟩ :: spansFrom (first + lines.length) rest

structure Partitions (path : Path) (parts : List Part) : Prop where
  named : ∀ part ∈ parts, part.path = path
  sizes : ∀ part ∈ parts, size part.source ≤ 64000
  lines : ∃ text segments, host.readFile path = .text text ∧ segments.flatten = splitLinesKeeping text ∧
    parts.map Part.toSpan = spansFrom 1 segments ∧ parts.flatMap (·.source) = text

def Covers (report : Report) (requirement : Requirement) (parts : List Part) : Prop :=
  ∃ check, report.checks.find? (·.id = requirement.id) = some check ∧ (∀ part ∈ parts, part.requirement = requirement ∧ part.check = check) ∧
    ∃ (paths : List Path) (files : List (List Part)), paths.Nodup ∧ (∀ path, path ∈ paths ↔ Reaches host check path) ∧
      parts = files.flatten ∧ List.Forall₂ (Partitions host) paths files

def Covered (requirements : List Requirement) (report : Report) (units : List ReviewUnit) : Prop :=
  (∀ unit ∈ units, size unit.source ≤ 64000) ∧
    ∃ groups, units.map ReviewUnit.toPart = groups.flatten ∧ List.Forall₂ (Covers host report) requirements groups

structure Closed (report : Report) (files : List Path) : Prop where
  cited : cited report ⊆ files
  room : files.length ≤ 128 ∨ files ⊆ ReviewUnits.cited report
  read : ∀ path ∈ files, ∃ text, host.readFile path = .text text ∧
    ∀ included ∈ includes text, ∃ next, resolve host path included = .ok next ∧ ∀ file, next = some file → file ∈ files

def Fits (report : Report) (requirement : Requirement) : Prop :=
  ∃ check, report.checks.find? (·.id = requirement.id) = some check ∧
    ∀ path, Reaches host check path → ∀ text, host.readFile path = .text text → ∀ line ∈ splitLinesKeeping text, size line ≤ 64000

structure Reviewable (requirements : List Requirement) (report : Report) : Prop where
  references : report.referencesValid = true
  files : ∃ files, Closed host report files
  fits : ∀ requirement ∈ requirements, Fits host report requirement

variable {host} {requirements : List Requirement} {requirement : Requirement} {report : Report} {check : Check} {path next : Path}
  {sources : List Path} {graph : List Dependencies}

lemma source_spansFrom (first : ℕ) (segments : List (List Line)) :
    (spansFrom first segments).flatMap Span.source = segments.flatten.flatten := by
  induction segments generalizing first with
  | nil => rfl
  | cons lines rest ih => simp [spansFrom, ih]

lemma spans_cut {lines held : List Line} {start : ℕ} {found : List Span} (hheld : size held.flatten ≤ 64000)
    (h : spans (start + held.length) start held.flatten lines = .ok found) :
    (∃ segments, segments.flatten = held ++ lines ∧ found = spansFrom start segments) ∧ (∀ span ∈ found, size span.source ≤ 64000) ∧
      ∀ line ∈ lines, size line ≤ 64000 := by
  induction lines generalizing held start found with
  | nil =>
    cases h
    exact ⟨⟨[held], by simp, rfl⟩, by simpa using hheld, by simp⟩
  | cons line lines ih =>
    obtain ⟨hline, h⟩ := require_iff.mp h
    by_cases hcut : held.flatten ≠ [] ∧ 64000 < size (held.flatten ++ line)
    · rw [if_pos hcut] at h
      obtain ⟨rest, hrest, h⟩ := ok_of_bind h
      cases h
      obtain ⟨⟨segments, hsegments, hfound⟩, hsizes, hlines⟩ := @ih [line] (start + held.length) rest (by simpa using hline) (by simpa using hrest)
      refine ⟨⟨held :: segments, by simp [hsegments], by simp [spansFrom, hfound]⟩, ?_, List.forall_mem_cons.mpr ⟨hline, hlines⟩⟩
      exact List.forall_mem_cons.mpr ⟨hheld, hsizes⟩
    · rw [if_neg hcut] at h
      have hnext : size (held ++ [line]).flatten ≤ 64000 := by
        by_cases hempty : held.flatten = []
        · simpa [hempty] using hline
        · have hsmall := fun hlarge => hcut ⟨hempty, hlarge⟩
          simpa using hsmall
      obtain ⟨⟨segments, hsegments, hfound⟩, hsizes, hlines⟩ := ih hnext (by simpa [Nat.add_assoc] using h)
      exact ⟨⟨segments, by simpa using hsegments, hfound⟩, hsizes, List.forall_mem_cons.mpr ⟨hline, hlines⟩⟩

lemma spans_ok {lines : List Line} (hlines : ∀ line ∈ lines, size line ≤ 64000) (number start : ℕ) (chunk : List Char) :
    ∃ found, spans number start chunk lines = .ok found := by
  induction lines generalizing number start chunk with
  | nil => exact ⟨_, rfl⟩
  | cons line lines ih =>
    obtain ⟨hline, hrest⟩ := List.forall_mem_cons.mp hlines
    unfold spans
    rw [require_bind hline]
    split
    · obtain ⟨rest, hspans⟩ := ih hrest (number + 1) number line
      exact ⟨_, bind_ok hspans _⟩
    · exact ih hrest ..

lemma partitions_of_parts {parts : List Part} (h : fileParts host requirement check path = .ok parts) :
    Partitions host path parts ∧ (∀ part ∈ parts, part.requirement = requirement ∧ part.check = check) ∧
      ∀ text, host.readFile path = .text text → ∀ line ∈ splitLinesKeeping text, size line ≤ 64000 := by
  obtain ⟨text, htext, h⟩ := ok_of_bind h
  obtain ⟨found, hfound, h⟩ := ok_of_bind h
  cases h
  have hread : host.readFile path = .text text := by
    unfold textOf at htext
    split at htext <;> cases htext
    assumption
  obtain ⟨⟨segments, hsegments, rfl⟩, hsizes, hlines⟩ := @spans_cut _ [] 1 found (by decide) hfound
  refine ⟨⟨by simp, by simpa using hsizes, text, segments, hread, hsegments, by simp [Function.comp_def], ?_⟩, by simp, fun other hother => ?_⟩
  · rw [List.flatMap_map, source_spansFrom, hsegments]
    exact flatten_splitLinesKeeping text
  · cases hread.symm.trans hother
    exact hlines

lemma parts_ok (requirement : Requirement) (check : Check) {text : List Char} (htext : host.readFile path = .text text)
    (hlines : ∀ line ∈ splitLinesKeeping text, size line ≤ 64000) : ∃ parts, fileParts host requirement check path = .ok parts := by
  obtain ⟨found, hfound⟩ := spans_ok hlines 1 1 []
  have hread : textOf host path = .ok text := by simp [textOf, htext]
  unfold fileParts
  rw [bind_ok hread, bind_ok hfound]
  exact ⟨_, rfl⟩

lemma text_of_textOf {text : List Char} : textOf host path = .ok text ↔ host.readFile path = .text text := by
  unfold textOf
  cases host.readFile path <;> simp

lemma items_source {items : List Path} :
    (sourceWays host).items path = .ok items ↔ ∃ text, host.readFile path = .text text ∧ items = includes text := by
  simp only [sourceWays, textOf]
  cases host.readFile path <;> simp [Except.map, eq_comm]

lemma mem_sorted {paths : List Path} : path ∈ sorted paths ↔ path ∈ paths := by
  unfold sorted
  rw [List.mem_insertionSort, List.mem_dedup]

lemma nodup_sorted (paths : List Path) : (sorted paths).Nodup :=
  (List.perm_insertionSort _ _).nodup_iff.mpr (List.nodup_dedup paths)

lemma of_dependencies {node : Dependencies} (h : dependenciesOf host path = .ok node) :
    node.path = path ∧ ∀ next, next ∈ node.dependencies ↔ Includes host path next := by
  obtain ⟨text, htext, h⟩ := ok_of_bind h
  obtain ⟨found, hfound, h⟩ := ok_of_bind h
  cases h
  rw [text_of_textOf] at htext
  obtain ⟨hback, hforth⟩ := mapM_mem hfound
  refine ⟨rfl, fun next => mem_sorted.trans ⟨fun hnext => ?_, fun hnext => ?_⟩⟩
  · obtain ⟨item, hitem, hsome⟩ := List.mem_filterMap.mp hnext
    obtain ⟨included, hincluded, hresolve⟩ := hback item hitem
    refine ⟨text, htext, included, hincluded, ?_⟩
    obtain ⟨target, htarget, rfl⟩ := ok_of_map hresolve
    rw [htarget]
    exact congrArg Except.ok hsome
  · obtain ⟨text', htext', included, hincluded, hresolve⟩ := hnext
    cases htext.symm.trans htext'
    obtain ⟨item, hitem, hfrom⟩ := hforth included hincluded
    simp only [hresolve, Except.map, Except.ok.injEq] at hfrom
    exact List.mem_filterMap.mpr ⟨item, hitem, by rw [← hfrom]⟩

lemma dependencies_ok {text : List Char} (htext : host.readFile path = .text text)
    (htargets : ∀ included ∈ includes text, ∃ next, resolve host path included = .ok next) : ∃ node, dependenciesOf host path = .ok node := by
  obtain ⟨found, hfound⟩ := @mapM_exists _ _ _ (fun included => (resolve host path included).map fun target => (included, target)) (includes text)
    fun included hincluded => by
      obtain ⟨target, htarget⟩ := htargets included hincluded
      exact ⟨(included, target), by rw [htarget]; rfl⟩
  unfold dependenciesOf
  rw [bind_ok (text_of_textOf.mpr htext), bind_ok hfound]
  exact ⟨_, rfl⟩

structure Graphs (host : Host) (sources : List Path) (graph : List Dependencies) : Prop where
  paths : graph.map Dependencies.path = sources
  nodup : sources.Nodup
  inside : ∀ path ∈ sources, ∀ next, Includes host path next → next ∈ sources
  dependencies : ∀ node ∈ graph, ∀ next, next ∈ node.dependencies ↔ Includes host node.path next

variable (h : Graphs host sources graph)

include h in
lemma Graphs.items (hpath : path ∈ sources) :
    ∃ items, (graphWays graph).items path = .ok items ∧ ∀ next, next ∈ items ↔ Includes host path next := by
  rw [← h.paths] at hpath
  obtain ⟨node, hnode, rfl⟩ := List.mem_map.mp hpath
  obtain ⟨found, hfound⟩ := Option.isSome_iff_exists.mp (@List.find?_isSome _ graph (fun other => other.path = node.path) |>.mpr ⟨node, hnode, by simp⟩)
  have hsame : found.path = node.path := by simpa using List.find?_some hfound
  refine ⟨found.dependencies, ?_, fun next => ?_⟩
  · simp only [graphWays, hfound]
    rfl
  · rw [h.dependencies found (List.mem_of_find?_eq_some hfound), hsame]

include h in
lemma Graphs.leads (hpath : path ∈ sources) : Leads (graphWays graph) path next ↔ Includes host path next := by
  obtain ⟨items, hitems, hmem⟩ := h.items hpath
  constructor
  · rintro ⟨items', hitems', item, hitem, htarget⟩
    cases hitems.symm.trans hitems'
    cases htarget
    exact (hmem _).mp hitem
  · exact fun hincludes => ⟨items, hitems, next, (hmem next).mpr hincludes, rfl⟩

include h in
lemma Graphs.reaches {first : Path} (hfirst : first ∈ sources) :
    ReflTransGen (Leads (graphWays graph)) first path ↔ ReflTransGen (Includes host) first path := by
  constructor
  · exact fun hpath => (stays (fun a ha b hleads => h.inside a ha b ((h.leads ha).mp hleads)) hfirst hpath fun a ha b hleads => (h.leads ha).mp hleads).2
  · exact fun hpath => (stays h.inside hfirst hpath fun a ha b hincludes => (h.leads ha).mpr hincludes).2

include h in
lemma closure_of_explore (hevidence : check.evidence ⊆ sources) {paths : List Path}
    (hpaths : explore (graphWays graph) none .dependencyLimit graph.length (sorted check.evidence) 0 = .ok paths) :
    paths.Nodup ∧ (∀ path, path ∈ paths ↔ Reaches host check path) ∧ paths ⊆ sources := by
  have hstart : sorted check.evidence ⊆ sources := fun path hpath => hevidence (mem_sorted.mp hpath)
  have hlength : sources.length ≤ graph.length := by rw [← h.paths, List.length_map]
  have hexplored := explored_of_finite (nodup_sorted check.evidence) hlength hstart
    (fun node hnode next hleads => h.inside node hnode next ((h.leads hnode).mp hleads)) hpaths
  have hmem : ∀ path, path ∈ paths ↔ Reaches host check path := fun path => by
    rw [hexplored.mem_iff]
    constructor
    · rintro ⟨first, hfirst, hpath⟩
      exact ⟨first, mem_sorted.mp hfirst, (h.reaches (hstart hfirst)).mp hpath⟩
    · rintro ⟨first, hfirst, hpath⟩
      exact ⟨first, mem_sorted.mpr hfirst, (h.reaches (hevidence hfirst)).mpr hpath⟩
  refine ⟨hexplored.nodup, hmem, fun path hpath => ?_⟩
  obtain ⟨first, hfirst, hreaches⟩ := (hmem path).mp hpath
  exact (stays h.inside (hevidence hfirst) hreaches fun _ _ _ hincludes => hincludes).1

include h in
lemma closure_ok (hevidence : check.evidence ⊆ sources) :
    ∃ paths, explore (graphWays graph) none .dependencyLimit graph.length (sorted check.evidence) 0 = .ok paths := by
  refine explore_ok (nodup_sorted check.evidence) (fun path hpath => hevidence (mem_sorted.mp hpath)) (by simp) fun path hpath => ?_
  obtain ⟨items, hitems, hmem⟩ := h.items hpath
  exact ⟨items, hitems, fun item hitem => ⟨some item, rfl, fun next hnext => by
    cases hnext
    exact h.inside path hpath item ((hmem item).mp hitem)⟩⟩

lemma evidence_of_find (hcited : cited report ⊆ sources) (hfind : report.checks.find? (·.id = requirement.id) = some check) :
    check.evidence ⊆ sources :=
  fun _ hpath => hcited (List.mem_flatMap.mpr ⟨check, List.mem_of_find?_eq_some hfind, hpath⟩)

include h in
lemma covers_of_parts (hcited : cited report ⊆ sources) {parts : List Part}
    (hparts : requirementParts host report graph requirement = .ok parts) :
    Covers host report requirement parts ∧ (∀ part ∈ parts, size part.source ≤ 64000) ∧ Fits host report requirement := by
  unfold requirementParts at hparts
  cases hfind : report.checks.find? (·.id = requirement.id) with
  | none => simp [hfind] at hparts
  | some check =>
    simp only [hfind] at hparts
    obtain ⟨paths, hpaths, hparts⟩ := ok_of_bind hparts
    obtain ⟨files, hfiles, hparts⟩ := ok_of_bind hparts
    cases hparts
    obtain ⟨hnodup, hmem, -⟩ := closure_of_explore h (evidence_of_find hcited hfind) hpaths
    have hall := mapM_iff.mp hfiles
    have hback := (mapM_mem hfiles).1
    refine ⟨⟨check, hfind, fun part hpart => ?_, paths, files, hnodup, hmem, rfl, hall.imp fun _ _ hfile => (partitions_of_parts hfile).1⟩, ?_, check, hfind, ?_⟩
    · obtain ⟨file, hfile, hpart⟩ := List.mem_flatten.mp hpart
      obtain ⟨path, -, hparts⟩ := hback file hfile
      exact (partitions_of_parts hparts).2.1 part hpart
    · intro part hpart
      obtain ⟨file, hfile, hpart⟩ := List.mem_flatten.mp hpart
      obtain ⟨path, -, hparts⟩ := hback file hfile
      exact (partitions_of_parts hparts).1.sizes part hpart
    · intro path hreaches
      obtain ⟨file, -, hparts⟩ := (mapM_mem hfiles).2 path ((hmem path).mpr hreaches)
      exact (partitions_of_parts hparts).2.2

include h in
lemma requirementParts_ok (hcited : cited report ⊆ sources)
    (hread : ∀ path ∈ sources, ∃ text, host.readFile path = .text text) (hfits : Fits host report requirement) :
    ∃ parts, requirementParts host report graph requirement = .ok parts := by
  obtain ⟨check, hfind, hlines⟩ := hfits
  have hevidence := evidence_of_find hcited hfind
  obtain ⟨paths, hpaths⟩ := closure_ok h hevidence
  obtain ⟨-, hmem, hinside⟩ := closure_of_explore h hevidence hpaths
  obtain ⟨files, hfiles⟩ := @mapM_exists _ _ _ (fileParts host requirement check) paths fun path hpath => by
    obtain ⟨text, htext⟩ := hread path (hinside hpath)
    exact parts_ok requirement check htext (hlines path ((hmem path).mp hpath) text htext)
  unfold requirementParts
  simp only [hfind]
  rw [bind_ok hpaths, bind_ok hfiles]
  exact ⟨_, rfl⟩

lemma nodup_eraseDups {α : Type} [BEq α] [LawfulBEq α] (items : List α) : items.eraseDups.Nodup := by
  induction items using List.reverseRecOn with
  | nil => simp
  | append_singleton items item ih =>
    rw [List.eraseDups_append]
    by_cases hmem : item ∈ items
    · simpa [List.removeAll, hmem] using ih
    · have hlast : ([item].removeAll items).eraseDups = [item] := by simp [List.removeAll, hmem, List.eraseDups_cons]
      rw [hlast, List.nodup_append]
      refine ⟨ih, List.nodup_singleton item, fun other hother last hlast hsame => hmem ?_⟩
      rw [← List.mem_singleton.mp hlast, ← hsame]
      exact List.mem_eraseDups.mp hother

lemma passed_source {files : List Path} : Passed (sourceWays host) files path ↔ ∃ text, host.readFile path = .text text ∧
    ∀ included ∈ includes text, ∃ next, resolve host path included = .ok next ∧ ∀ file, next = some file → file ∈ files := by
  constructor
  · rintro ⟨items, hitems, hall⟩
    obtain ⟨text, htext, rfl⟩ := items_source.mp hitems
    exact ⟨text, htext, hall⟩
  · rintro ⟨text, htext, hall⟩
    exact ⟨_, items_source.mpr ⟨text, htext, rfl⟩, hall⟩

lemma paths_of_graph (h : sources.mapM (dependenciesOf host) = .ok graph) : graph.map Dependencies.path = sources := by
  have hsame : List.Forall₂ (fun path (node : Dependencies) => path = node.path) sources graph :=
    (mapM_iff.mp h).imp fun _ _ hnode => (of_dependencies hnode).1.symm
  rw [← List.forall₂_map_right_iff, List.forall₂_eq_eq_eq] at hsame
  exact hsame.symm

lemma graphs_of_sources (h : sourceDependencies host report = .ok graph) : ∃ sources, Graphs host sources graph ∧ Closed host report sources := by
  obtain ⟨-, -, h⟩ := ok_of_bind h
  obtain ⟨sources, hsources, hgraph⟩ := ok_of_bind h
  obtain ⟨hexplored, hlength⟩ := explored_of_limit (nodup_eraseDups (cited report)) (le_refl _) hsources
  have hcited : cited report ⊆ sources := fun path hpath => hexplored.begins.subset (List.mem_eraseDups.mpr hpath)
  refine ⟨sources, ⟨paths_of_graph hgraph, hexplored.nodup, fun path hpath next hincludes => ?_, fun node hnode => ?_⟩, hcited, ?_,
    fun path hpath => passed_source.mp (hexplored.passed path hpath)⟩
  · obtain ⟨text, htext, hall⟩ := passed_source.mp (hexplored.passed path hpath)
    obtain ⟨text', htext', included, hmem, hresolve⟩ := hincludes
    cases htext.symm.trans htext'
    obtain ⟨found, hfound, hinside⟩ := hall included hmem
    cases hresolve.symm.trans hfound
    exact hinside next rfl
  · obtain ⟨path, -, hdependencies⟩ := (mapM_mem hgraph).1 node hnode
    obtain ⟨rfl, hmem⟩ := of_dependencies hdependencies
    exact hmem
  · by_cases hfew : sources.length ≤ 128
    · exact .inl hfew
    · have hsame := hexplored.begins.eq_of_length_le (by omega)
      exact .inr fun path hpath => List.mem_eraseDups.mp (hsame ▸ hpath)

lemma sourceDependencies_ok {files : List Path} (h : Closed host report files) : ∃ graph, sourceDependencies host report = .ok graph := by
  have hcited : (cited report).eraseDups ⊆ files := fun path hpath => h.cited (List.mem_eraseDups.mp hpath)
  have hread : (cited report).eraseDups.forM (readCited host) = .ok () := forM_iff.mpr fun path hpath => by
    obtain ⟨text, htext, -⟩ := h.read path (hcited hpath)
    simp [readCited, htext]
  obtain ⟨sources, hsources⟩ := @explore_ok _ _ _ (sourceWays host) (some 128) .dependencyLimit (cited report).eraseDups _
    (max (cited report).eraseDups.length 128) 0 files (nodup_eraseDups _) hcited
    (fun bound hbound => by
      cases hbound
      exact h.room.imp_right fun hall path hpath => List.mem_eraseDups.mpr (hall hpath))
    fun path hpath => passed_source.mpr (h.read path hpath)
  obtain ⟨hexplored, -⟩ := explored_of_limit (nodup_eraseDups (cited report)) (le_refl _) hsources
  obtain ⟨graph, hgraph⟩ := @mapM_exists _ _ _ (dependenciesOf host) sources fun path hpath => by
    obtain ⟨text, htext, hall⟩ := passed_source.mp (hexplored.passed path hpath)
    exact dependencies_ok htext fun included hincluded => (hall included hincluded).imp fun _ hnext => hnext.1
  unfold sourceDependencies
  rw [bind_ok hread, bind_ok hsources]
  exact ⟨graph, hgraph⟩

lemma index_ok (hread : ∀ path ∈ sources, ∃ text, host.readFile path = .text text) (hpaths : graph.map Dependencies.path = sources) :
    ∃ index, graph.mapM (indexEntry host) = .ok index :=
  mapM_exists fun node hnode => by
    obtain ⟨text, htext⟩ := hread node.path (hpaths ▸ List.mem_map_of_mem hnode)
    unfold indexEntry
    rw [bind_ok (text_of_textOf.mpr htext)]
    exact ⟨_, rfl⟩

lemma numbered_parts (parts : List Part) : (numbered parts).map ReviewUnit.toPart = parts := by
  apply List.ext_getElem
  · simp [numbered]
  · simp [numbered]

include h in
lemma covered_of_parts (hcited : cited report ⊆ sources) {groups : List (List Part)}
    (hgroups : requirements.mapM (requirementParts host report graph) = .ok groups) :
    Covered host requirements report (numbered groups.flatten) ∧ ∀ requirement ∈ requirements, Fits host report requirement := by
  refine ⟨⟨fun unit hunit => ?_, groups, numbered_parts _, (mapM_iff.mp hgroups).imp fun _ _ hparts => (covers_of_parts h hcited hparts).1⟩, ?_⟩
  · have hpart : unit.toPart ∈ groups.flatten := numbered_parts groups.flatten ▸ List.mem_map_of_mem hunit
    obtain ⟨parts, hparts, hmem⟩ := List.mem_flatten.mp hpart
    obtain ⟨requirement, -, hmade⟩ := (mapM_mem hgroups).1 parts hparts
    exact (covers_of_parts h hcited hmade).2.1 _ hmem
  · intro requirement hrequirement
    obtain ⟨parts, -, hmade⟩ := (mapM_mem hgroups).2 requirement hrequirement
    exact (covers_of_parts h hcited hmade).2.2

lemma reviewable_of_units {result : List ReviewUnit × List IndexEntry} (h : boundedReviewUnits host requirements report = .ok result) :
    Reviewable host requirements report := by
  obtain ⟨hreferences, h⟩ := require_iff.mp h
  obtain ⟨graph, hgraph, h⟩ := ok_of_bind h
  obtain ⟨index, _, h⟩ := ok_of_bind h
  obtain ⟨groups, hgroups, -⟩ := ok_of_bind h
  obtain ⟨sources, hgraphs, hclosed⟩ := graphs_of_sources hgraph
  exact ⟨hreferences, ⟨sources, hclosed⟩, (covered_of_parts hgraphs hclosed.cited hgroups).2⟩

lemma units_of_reviewable (h : Reviewable host requirements report) : ∃ (units : List ReviewUnit) (index : List IndexEntry),
    Covered host requirements report units ∧
      boundedReviewUnits host requirements report = if units ≠ [] ∧ units.length ≤ 32 then .ok (units, index) else .error .unitLimit := by
  obtain ⟨files, hfiles⟩ := h.files
  obtain ⟨graph, hgraph⟩ := sourceDependencies_ok hfiles
  obtain ⟨sources, hgraphs, hclosed⟩ := graphs_of_sources hgraph
  have hread : ∀ path ∈ sources, ∃ text, host.readFile path = .text text := fun path hpath => (hclosed.read path hpath).imp fun _ htext => htext.1
  obtain ⟨index, hindex⟩ := index_ok hread hgraphs.paths
  obtain ⟨groups, hgroups⟩ := mapM_exists fun requirement hrequirement => requirementParts_ok hgraphs hclosed.cited hread (h.fits requirement hrequirement)
  refine ⟨numbered groups.flatten, index, (covered_of_parts hgraphs hclosed.cited hgroups).1, ?_⟩
  unfold boundedReviewUnits
  rw [require_bind h.references, bind_ok hgraph, bind_ok hindex, bind_ok hgroups]
  by_cases hcount : numbered groups.flatten ≠ [] ∧ (numbered groups.flatten).length ≤ 32
  · rw [if_pos hcount]
    exact require_bind hcount _ _
  · rw [if_neg hcount]
    simp only [require, if_neg hcount]
    rfl

/-- The units that are given cover the requirements, and only files that cannot be read or are too
    many, lines that are too large and the number of the units are refused. -/
theorem review_units (host : Host) (requirements : List Requirement) (report : Report) :
    (∀ units index, boundedReviewUnits host requirements report = .ok (units, index) →
      Reviewable host requirements report ∧ Covered host requirements report units ∧ units ≠ [] ∧ units.length ≤ 32) ∧
    (Reviewable host requirements report → ∃ units, Covered host requirements report units ∧
      (units ≠ [] ∧ units.length ≤ 32 → ∃ index, boundedReviewUnits host requirements report = .ok (units, index)) ∧
      (¬(units ≠ [] ∧ units.length ≤ 32) → boundedReviewUnits host requirements report = .error .unitLimit)) := by
  constructor
  · intro units index h
    have hreviewable := reviewable_of_units h
    obtain ⟨units', index', hcovered, hresult⟩ := units_of_reviewable hreviewable
    rw [hresult] at h
    split at h
    · rename_i hcount
      cases h
      exact ⟨hreviewable, hcovered, hcount⟩
    · cases h
  · intro hreviewable
    obtain ⟨units, index, hcovered, hresult⟩ := units_of_reviewable hreviewable
    exact ⟨units, hcovered, fun hcount => ⟨index, by rw [hresult, if_pos hcount]⟩, fun hcount => by rw [hresult, if_neg hcount]⟩

def oneFile : Host := ⟨fun path => if path = ['a'] then .text ['x'] else .unreadable, fun _ => ""⟩

def manyRequirements : List Requirement := (List.range 33).map fun i => ⟨"req-" ++ toString (i + 1), []⟩

def manyReport : Report := ⟨true, (List.range 33).map fun i => ⟨"req-" ++ toString (i + 1), [['a']], []⟩⟩

/-- Each of the requirements has one small file of one line, and there are no units. -/
theorem many_refused : boundedReviewUnits oneFile manyRequirements manyReport = .error .unitLimit ∧
    ¬ ∃ units index, boundedReviewUnits oneFile manyRequirements manyReport = .ok (units, index) ∧
      Covered oneFile manyRequirements manyReport units := by
  have hrefused : boundedReviewUnits oneFile manyRequirements manyReport = .error .unitLimit := rfl
  refine ⟨hrefused, ?_⟩
  rintro ⟨units, index, hunits, -⟩
  cases hrefused.symm.trans hunits

end PromptForge.ReviewUnits
