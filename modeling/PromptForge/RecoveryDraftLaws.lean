import PromptForge.ChangeSetCreationLaws
import PromptForge.ChangeSetUndoLaws
import PromptForge.RecoveryDrafts

namespace PromptForge.RecoveryDrafts
open Runs Tables ChangeSets ChangeSetCreation ChangeSetUndo

variable {host : Host} {disk disk' stage workspace : Disk} {baseline : Snapshot} {path : Path} {content : Bytes}

lemma mkdirs_way {fault : Option Step} {place : Touch → Step} {dirs : List Path} (h : mkdirs fault place disk dirs = .ok disk') :
    ∀ dir ∈ dirs, contentOf (node disk dir) = none := by
  induction dirs generalizing disk with
  | nil => simp
  | cons dir dirs ih =>
    unfold mkdirs at h
    split at h
    · rename_i hdirectory
      exact List.forall_mem_cons.mpr ⟨by rw [hdirectory]; rfl, ih h⟩
    · cases h
    · rename_i hnone
      split at h
      · cases h
      · refine List.forall_mem_cons.mpr ⟨by rw [hnone]; rfl, fun above habove => ?_⟩
        have hfree := ih h above habove
        rw [node_append hnone] at hfree
        split at hfree
        · rename_i hsame
          rw [hsame, hnone]
          rfl
        · exact hfree

lemma mkdirs_made {fault : Option Step} {place : Touch → Step} {dirs : List Path} (h : mkdirs fault place disk dirs = .ok disk') :
    (∀ q, node disk q = some .directory → node disk' q = some .directory) ∧ ∀ dir ∈ dirs, node disk' dir = some .directory := by
  induction dirs generalizing disk with
  | nil =>
    cases h
    simp
  | cons dir dirs ih =>
    unfold mkdirs at h
    split at h
    · rename_i hdirectory
      obtain ⟨hkeeps, hmade⟩ := ih h
      exact ⟨hkeeps, List.forall_mem_cons.mpr ⟨hkeeps dir hdirectory, hmade⟩⟩
    · cases h
    · rename_i hnone
      split at h
      · cases h
      · obtain ⟨hkeeps, hmade⟩ := ih h
        refine ⟨fun q hq => hkeeps q ?_, List.forall_mem_cons.mpr ⟨hkeeps dir ?_, hmade⟩⟩
        · rw [node_append hnone]
          split
          · rfl
          · exact hq
        · rw [node_append hnone, if_pos rfl]

def Tidy (disk : Disk) : Prop := (disk.map Prod.fst).Nodup ∧ [] ∉ disk.map Prod.fst

lemma tidy_append {n : Node} (h : Tidy disk) (hnone : node disk path = none) : Tidy (disk ++ [(path, n)]) := by
  have hpath := ne_nil_of_none hnone
  rw [node_of_ne hpath, Option.map_eq_none_iff] at hnone
  unfold Tidy
  refine ⟨nodup_map_concat h.1 (lookup_eq_none.mp hnone), ?_⟩
  simp only [List.map_append, List.map_cons, List.map_nil, mem_concat, not_or]
  exact ⟨h.2, Ne.symm hpath⟩

lemma tidy_mkdirs {fault : Option Step} {place : Touch → Step} {dirs : List Path} (h : Tidy disk)
    (hmade : mkdirs fault place disk dirs = .ok disk') : Tidy disk' := by
  induction dirs generalizing disk with
  | nil =>
    cases hmade
    exact h
  | cons dir dirs ih =>
    unfold mkdirs at hmade
    split at hmade
    · exact ih h hmade
    · cases hmade
    · rename_i hnone
      split at hmade
      · cases hmade
      · exact ih (tidy_append h hnone) hmade

lemma tidy_replaceRow {n : Node} (h : Tidy disk) (hpath : path ≠ []) : Tidy (replaceRow Prod.fst (path, n) disk) := by
  refine ⟨nodup_replaceRow h.1 _, fun hmem => ?_⟩
  unfold replaceRow deleteRow at hmem
  rw [List.map_append, List.mem_append] at hmem
  rcases hmem with hmem | hmem
  · obtain ⟨row, hrow, hroot⟩ := List.mem_map.mp hmem
    exact h.2 (List.mem_map.mpr ⟨row, (List.mem_filter.mp hrow).1, hroot⟩)
  · exact hpath (List.mem_singleton.mp hmem).symm

structure Copied (disk disk' : Disk) (path : Path) (content : Bytes) : Prop where
  way : ∀ dir, dir <+: path → dir ≠ path → contentOf (node disk dir) = none
  others : ∀ q, q ≠ copyTarget disk path → Unchanged disk disk' path q
  file : node disk' (copyTarget disk path) = some (.file content)
  place : node disk (copyTarget disk path) ≠ some .directory
  above : ∀ dir, dir <+: path → dir ≠ path → node disk' dir = some .directory
  tidy : Tidy disk → Tidy disk'

lemma copyTarget_ne_nil (hpath : path ≠ []) : copyTarget disk path ≠ [] := by
  unfold copyTarget
  split
  · simp
  · exact hpath

lemma copyTo_copied (hpath : path ≠ []) (h : copyTo disk path content = .ok disk') : Copied disk disk' path content := by
  have hframe := fun q => @mkdirs_unchanged none (fun touch => .own (.file path touch)) disk path path.dropLast.inits
    (fun dir hdir => (mem_above hpath).mp hdir) q
  unfold copyTo at h
  cases hmade : mkdirs none (fun touch => .own (.file path touch)) disk path.dropLast.inits with
  | error made =>
    rw [hmade] at h
    cases h
  | ok made =>
    rw [hmade] at h hframe
    simp only [attempted_ok] at h hframe
    -- the directories above a path are not the path, nor below it
    have hsame : node made path = node disk path := (hframe path).resolve_right fun hr => hr.2.2.2 rfl
    have htarget : copyTarget made path = copyTarget disk path := by
      unfold copyTarget
      rw [hsame]
    have hkept : node made (copyTarget disk path) = node disk (copyTarget disk path) := by
      refine (hframe _).resolve_right fun hr => ?_
      have hlength := hr.2.2.1.length_le
      unfold copyTarget at hr hlength
      split at hr
      · rename_i hdirectory
        rw [if_pos hdirectory] at hlength
        simp at hlength
      · exact hr.2.2.2 rfl
    have hne := @copyTarget_ne_nil disk path hpath
    rw [htarget, hkept] at h
    split at h
    · cases h
    · rename_i hplace
      cases h
      refine ⟨fun dir hdir hdirne => mkdirs_way hmade dir ((mem_above hpath).mpr ⟨hdir, hdirne⟩), fun q hq => ?_, ?_, hplace,
        fun dir hdir hdirne => ?_, fun htidy => tidy_replaceRow (tidy_mkdirs htidy hmade) hne⟩
      · refine (hframe q).trans (.inl ?_)
        rw [node_replaceRow hne, if_neg hq]
      · rw [node_replaceRow hne, if_pos rfl]
      · have hdirectory := (mkdirs_made hmade).2 dir ((mem_above hpath).mpr ⟨hdir, hdirne⟩)
        rw [node_replaceRow hne, if_neg]
        · exact hdirectory
        · rintro rfl
          have hlength := hdir.length_le
          unfold copyTarget at hlength hdirne
          split at hdirne
          · rename_i hplaced
            rw [if_pos hplaced] at hlength
            simp at hlength
          · exact hdirne rfl

lemma copyTo_ok (hpath : path ≠ []) (hway : ∀ dir, dir <+: path → dir ≠ path → contentOf (node disk dir) = none)
    (hplace : node disk path ≠ some .directory) : ∃ disk', copyTo disk path content = .ok disk' ∧ Placed disk disk' path (some content) := by
  obtain ⟨made, hmade⟩ := @mkdirs_ok none (fun touch => .own (.file path touch)) disk path.dropLast.inits (by simp)
    fun dir hdir => hway dir ((mem_above hpath).mp hdir).1 ((mem_above hpath).mp hdir).2
  have hframe := fun q => @mkdirs_unchanged none (fun touch => .own (.file path touch)) disk path path.dropLast.inits
    (fun dir hdir => (mem_above hpath).mp hdir) q
  rw [hmade] at hframe
  have hsame : node made path = node disk path := (hframe path).resolve_right fun hr => hr.2.2.2 rfl
  have htarget : copyTarget made path = path := by
    unfold copyTarget
    rw [hsame, if_neg hplace]
  refine ⟨replaceRow Prod.fst (path, .file content) made, ?_, placed_file hpath hframe⟩
  unfold copyTo
  rw [hmade]
  simp only [htarget, hsame, if_neg hplace]

structure Compact (stage : Disk) (kept : List Path) (disk : Disk) : Prop where
  files : ∀ path ∈ kept, node disk path = some (.file (contentAt stage path))
  nodes : ∀ q n, node disk q = some n → q = [] ∨ (q ∈ kept ∧ n = .file (contentAt stage q)) ∨
    n = .directory ∧ ∃ path ∈ kept, q <+: path ∧ q ≠ path
  above : ∀ path ∈ kept, ∀ dir, dir <+: path → dir ≠ path → node disk dir = some .directory
  tidy : Tidy disk

def Apart (paths : List Path) : Prop := ∀ x ∈ paths, ∀ y ∈ paths, x <+: y → x = y

variable {kept rest : List Path}

lemma compact_empty (stage : Disk) : Compact stage [] [] := by
  refine ⟨by simp, fun q n hnode => ?_, by simp, by simp [Tidy]⟩
  by_cases hq : q = []
  · exact .inl hq
  · rw [node_of_ne hq] at hnode
    cases hnode

lemma Compact.way (h : Compact stage kept disk) (hapart : Apart (kept ++ path :: rest)) {dir : Path} (hdir : dir <+: path)
    (hne : dir ≠ path) : contentOf (node disk dir) = none := by
  cases hnode : node disk dir with
  | none => rfl
  | some n =>
    rcases h.nodes dir n hnode with rfl | ⟨hkept, -⟩ | ⟨rfl, -⟩
    · cases hnode
      rfl
    · exact absurd (hapart dir (List.mem_append_left _ hkept) path (List.mem_append_right _ (List.mem_cons_self ..)) hdir) hne
    · rfl

lemma Compact.place (h : Compact stage kept disk) (hapart : Apart (kept ++ path :: rest)) (hpath : path ≠ []) :
    node disk path ≠ some .directory := by
  intro hnode
  rcases h.nodes path _ hnode with hnil | ⟨-, hfile⟩ | ⟨-, other, hother, habove, hne⟩
  · exact hpath hnil
  · cases hfile
  · exact hne (hapart path (List.mem_append_right _ (List.mem_cons_self ..)) other (List.mem_append_left _ hother) habove)

lemma Compact.copy (h : Compact stage kept disk) (hapart : Apart (kept ++ path :: rest)) (hpath : path ≠ []) :
    ∃ disk', copyTo disk path (contentAt stage path) = .ok disk' ∧ Compact stage (kept ++ [path]) disk' := by
  obtain ⟨disk', hcopy, hplaced⟩ := @copyTo_ok disk path (contentAt stage path) hpath (fun dir hdir hne => h.way hapart hdir hne)
    (h.place hapart hpath)
  have hcopied := copyTo_copied hpath hcopy
  refine ⟨disk', hcopy, fun q hq => ?_, fun q n hnode => ?_, fun q hq dir hdir hne => ?_, hcopied.tidy h.tidy⟩
  · by_cases hsame : q = path
    · rw [hsame]
      exact hplaced.2
    · have hkept : q ∈ kept := (List.mem_append.mp hq).resolve_right fun hq => hsame (List.mem_singleton.mp hq)
      have hunchanged := (hplaced.1 q hsame).resolve_right fun hr => by
        rw [h.files q hkept] at hr
        cases hr.1
      rw [hunchanged]
      exact h.files q hkept
  · by_cases hsame : q = path
    · subst hsame
      have hfile := hplaced.2
      rw [hnode] at hfile
      exact .inr (.inl ⟨List.mem_append_right _ (List.mem_singleton_self _), Option.some.inj hfile⟩)
    · rcases hplaced.1 q hsame with hunchanged | ⟨-, hmade, habove, hne⟩
      · rw [hunchanged] at hnode
        rcases h.nodes q n hnode with hnil | ⟨hkept, hn⟩ | ⟨hn, other, hother, hbelow⟩
        · exact .inl hnil
        · exact .inr (.inl ⟨List.mem_append_left _ hkept, hn⟩)
        · exact .inr (.inr ⟨hn, other, List.mem_append_left _ hother, hbelow⟩)
      · rw [hmade] at hnode
        exact .inr (.inr ⟨(Option.some.inj hnode).symm, path, List.mem_append_right _ (List.mem_singleton_self _), habove, hne⟩)
  · rcases mem_concat.1 hq with hq | rfl
    · have hdirectory := h.above q hq dir hdir hne
      have hother : dir ≠ path := by
        rintro rfl
        exact h.place hapart hpath hdirectory
      rcases hplaced.1 dir hother with hsame | ⟨hnone, -⟩
      · rw [hsame, hdirectory]
      · rw [hdirectory] at hnone
        cases hnone
    · exact hcopied.above dir hdir hne

lemma Compact.copies (h : Compact stage kept disk) (hapart : Apart (kept ++ rest)) (hpaths : ∀ path ∈ rest, path ≠ []) :
    ∃ disk', rest.foldlM (fun disk path => copyTo disk path (contentAt stage path)) disk = .ok disk' ∧ Compact stage (kept ++ rest) disk' := by
  induction rest generalizing kept disk with
  | nil => exact ⟨disk, rfl, by simpa using h⟩
  | cons path rest ih =>
    obtain ⟨hpath, hrest⟩ := List.forall_mem_cons.mp hpaths
    obtain ⟨made, hcopy, hmade⟩ := h.copy hapart hpath
    obtain ⟨disk', hcopies, hall⟩ := ih hmade (by simpa using hapart) hrest
    refine ⟨disk', ?_, by simpa using hall⟩
    rw [List.foldlM_cons, hcopy]
    exact hcopies

lemma mem_disk {n : Node} (h : node disk path = some n) (hpath : path ≠ []) : (path, n) ∈ disk := by
  rw [node_of_ne hpath] at h
  obtain ⟨row, hrow, rfl⟩ := Option.map_eq_some_iff.mp h
  have hkey : row.1 = path := lookup_key hrow
  rw [← hkey]
  exact lookup_mem hrow

lemma node_of_mem (h : Tidy disk) {row : Path × Node} (hrow : row ∈ disk) : row.1 ≠ [] ∧ node disk row.1 = some row.2 := by
  have hpath : row.1 ≠ [] := fun hnil => h.2 (hnil ▸ List.mem_map_of_mem hrow)
  refine ⟨hpath, ?_⟩
  rw [node_of_ne hpath, lookup_of_mem h.1 hrow]
  rfl

lemma file_of_mem (h : path ∈ filesOf stage) : node stage path = some (.file (contentAt stage path)) ∧ isCounted path = true ∧ path ≠ [] := by
  obtain ⟨-, hcounted, hsome⟩ := mem_filesOf.mp h
  obtain ⟨bytes, hbytes⟩ := Option.isSome_iff_exists.mp hsome
  have hnode : node stage path = some (.file bytes) := by
    cases hn : node stage path with
    | none =>
      rw [hn] at hbytes
      cases hbytes
    | some n =>
      rw [hn] at hbytes
      cases n with
      | directory => cases hbytes
      | file found =>
        cases hbytes
        rfl
  refine ⟨?_, hcounted, ?_⟩
  · unfold contentAt
    rw [hnode]
    rfl
  · rintro rfl
    cases hnode

lemma mem_files (hnode : node disk path = some (.file content)) (hcounted : isCounted path = true) : path ∈ filesOf disk := by
  have hpath : path ≠ [] := by
    rintro rfl
    cases hnode
  exact mem_filesOf.mpr ⟨⟨_, mem_disk hnode hpath⟩, hcounted, by rw [hnode]; rfl⟩

lemma Compact.filesOf_iff (h : Compact stage kept disk) (hkept : ∀ path ∈ kept, path ∈ filesOf stage) : path ∈ filesOf disk ↔ path ∈ kept := by
  constructor
  · intro hmem
    obtain ⟨hnode, -, hpath⟩ := file_of_mem hmem
    rcases h.nodes path _ hnode with hnil | ⟨hkept, -⟩ | ⟨hdirectory, -⟩
    · exact absurd hnil hpath
    · exact hkept
    · cases hdirectory
  · intro hmem
    exact mem_files (h.files path hmem) (file_of_mem (hkept path hmem)).2.1

lemma counted_above {dir : Path} (hdir : dir <+: path) (h : isCounted path = true) : isCounted dir = true := by
  unfold isCounted at h ⊢
  rw [List.all_eq_true] at h ⊢
  intro part hpart
  apply h part
  obtain ⟨tail, rfl⟩ := hdir
  by_cases htail : tail = []
  · simpa [htail] using hpart
  · rw [List.dropLast_append_of_ne_nil htail]
    exact List.mem_append_left _ (dir.dropLast_prefix.subset hpart)

lemma Compact.entries_le (h : Compact stage kept disk) (hkept : ∀ path ∈ kept, path ∈ filesOf stage) (hstage : IsTree (node stage)) :
    entries disk ≤ entries stage := by
  have hsub : ∀ row ∈ disk, ∃ n, (row.1, n) ∈ stage := by
    intro row hrow
    obtain ⟨hpath, hnode⟩ := node_of_mem h.tidy hrow
    rcases h.nodes row.1 _ hnode with hnil | ⟨hmem, -⟩ | ⟨-, path, hmem, habove, hne⟩
    · exact absurd hnil hpath
    · exact ⟨_, mem_disk (file_of_mem (hkept row.1 hmem)).1 hpath⟩
    · refine ⟨.directory, mem_disk (hstage path row.1 habove hne ?_) hpath⟩
      rw [(file_of_mem (hkept path hmem)).1]
      simp
  have hlength : ∀ d : Disk, entries d = ((d.filter fun row => isCounted row.1).map Prod.fst).length := fun d => by simp [entries]
  rw [hlength, hlength]
  apply List.Subperm.length_le
  apply List.subperm_of_subset
  · exact h.tidy.1.sublist (List.filter_sublist.map _)
  · intro q hq
    obtain ⟨row, hrow, rfl⟩ := List.mem_map.mp hq
    obtain ⟨hmem, hcounted⟩ := List.mem_filter.mp hrow
    obtain ⟨n, hn⟩ := hsub row hmem
    exact List.mem_map.mpr ⟨(row.1, n), List.mem_filter.mpr ⟨hn, hcounted⟩, rfl⟩

lemma draftPaths_ok {walked paths result : List Path} {total : ℕ} (h : draftPaths host stage baseline walked paths total = .ok result) :
    result = paths ++ walked.filter (isChanged host stage baseline) ∧
      ∀ path ∈ walked.filter (isChanged host stage baseline), isSafeRelative path = true := by
  induction walked generalizing paths total with
  | nil =>
    cases h
    simp
  | cons relative walked ih =>
    unfold draftPaths at h
    cases hchanged : isChanged host stage baseline relative with
    | false =>
      rw [List.filter_cons_of_neg (by simp [hchanged])]
      exact ih (by simpa [hchanged] using h)
    | true =>
      rw [List.filter_cons_of_pos hchanged]
      simp only [hchanged, Bool.not_true, Bool.false_eq_true, if_false] at h
      split at h
      · cases h
      · rename_i hsafe
        split at h
        · cases h
        · obtain ⟨hresult, hall⟩ := ih h
          exact ⟨by rw [hresult, List.append_assoc]; rfl, List.forall_mem_cons.mpr ⟨by simpa using hsafe, hall⟩⟩

lemma draftPaths_within {walked paths : List Path} {total : ℕ}
    (hpaths : paths.length + (walked.filter (isChanged host stage baseline)).length ≤ maxDraftPaths)
    (hbytes : total + ((walked.filter (isChanged host stage baseline)).map fun path => (contentAt stage path).length).sum ≤ maxDraftBytes) :
    draftPaths host stage baseline walked paths total =
      if ∀ path ∈ walked.filter (isChanged host stage baseline), isSafeRelative path = true then
        .ok (paths ++ walked.filter (isChanged host stage baseline))
      else .error (.path .pathForbidden) := by
  induction walked generalizing paths total with
  | nil => simp [draftPaths]
  | cons relative walked ih =>
    unfold draftPaths
    cases hchanged : isChanged host stage baseline relative with
    | false =>
      rw [List.filter_cons_of_neg (by simp [hchanged])] at hpaths hbytes ⊢
      simpa using ih hpaths hbytes
    | true =>
      rw [List.filter_cons_of_pos hchanged] at hpaths hbytes ⊢
      rw [List.length_cons] at hpaths
      rw [List.map_cons, List.sum_cons] at hbytes
      have hlimit : ¬ (maxDraftPaths < paths.length + 1 ∨ maxDraftBytes < total + (contentAt stage relative).length) := by omega
      cases hsafe : isSafeRelative relative with
      | false => simp [hsafe]
      | true =>
        simp only [Bool.not_true, Bool.false_eq_true, if_false, hlimit, List.forall_mem_cons, hsafe, true_and]
        rw [ih (by rw [List.length_append]; simpa using by omega) (by omega), List.append_assoc]
        rfl

lemma draftPaths_files (hlimits : WithinLimits host stage baseline) :
    draftPaths host stage baseline (filesOf stage) [] 0 =
      if ∀ path ∈ changedPaths host stage baseline, isSafeRelative path = true then .ok (changedPaths host stage baseline)
      else .error (.path .pathForbidden) := by
  refine draftPaths_within ?_ ?_
  · rw [List.length_nil, Nat.zero_add]
    exact le_trans (Nat.le_add_right _ _) hlimits.paths
  · rw [Nat.zero_add]
    exact hlimits.bytes

lemma walk_within (h : entries disk ≤ maxEntries) :
    (walk disk).mapError Refusal.path = .ok (filesOf disk) := by
  unfold walk
  rw [if_neg (Nat.not_lt.mpr h)]
  rfl

lemma lookup_map_key {f : Path → String} {paths : List Path} :
    lookup Prod.fst (paths.map fun q => (q, f q)) path = if path ∈ paths then some (path, f path) else none := by
  induction paths with
  | nil => simp
  | cons q paths ih =>
    rw [List.map_cons, lookup_cons]
    by_cases hsame : q = path
    · simp [hsame]
    · simp only [hsame, if_false, ih, List.mem_cons, Ne.symm hsame, false_or]

lemma hashOf_snapshot {root : String} (h : inspectWorkspace host root workspace = .ok baseline) (path : Path) :
    baseline.hashOf path = if path ∈ filesOf workspace ∧ isSafeRelative path = true then some (host.hash (contentAt workspace path)) else none := by
  unfold inspectWorkspace at h
  cases hwalk : walk workspace with
  | error problem =>
    rw [hwalk] at h
    cases h
  | ok walked =>
    obtain ⟨-, rfl⟩ := walk_ok hwalk
    rw [hwalk] at h
    cases h
    unfold Snapshot.hashOf
    simp only
    rw [lookup_map_key]
    simp only [List.mem_filter]
    split <;> rfl

lemma snapshot_paths {root : String} (h : inspectWorkspace host root workspace = .ok baseline) :
    baseline.root = root ∧ baseline.treeHash = host.treeHash (shown workspace) ∧
      ∀ path, path ∈ baseline.files.map Prod.fst ↔ path ∈ filesOf workspace ∧ isSafeRelative path = true := by
  unfold inspectWorkspace at h
  cases hwalk : walk workspace with
  | error problem =>
    rw [hwalk] at h
    cases h
  | ok walked =>
    obtain ⟨-, rfl⟩ := walk_ok hwalk
    rw [hwalk] at h
    cases h
    refine ⟨rfl, rfl, fun path => ?_⟩
    simp

end PromptForge.RecoveryDrafts
