import PromptForge.BuildCapture

namespace PromptForge.BuildCapture
open Runs Tables

variable {disk : Disk}

lemma node_nil : node disk [] = some .directory := if_pos rfl

lemma node_of_ne {path : Path} (h : path ≠ []) : node disk path = (lookup Prod.fst disk path).map Prod.snd := if_neg h

lemma isTree_iff : isTree disk = true ↔
    (disk.map Prod.fst).Nodup ∧ ∀ row ∈ disk, row.1 ≠ [] ∧ node disk row.1.dropLast = some .directory := by
  unfold isTree
  exact decide_eq_true_iff

lemma mem_of_node {path : Path} {n : Node} (hpath : path ≠ []) (h : node disk path = some n) : (path, n) ∈ disk := by
  rw [node_of_ne hpath] at h
  obtain ⟨row, hrow, rfl⟩ := Option.map_eq_some_iff.mp h
  obtain rfl := lookup_key hrow
  exact lookup_mem hrow

lemma parent_directory (htree : isTree disk = true) {dir : Path} {name : Name} {n : Node} (h : node disk (dir ++ [name]) = some n) :
    node disk dir = some .directory := by
  have hmem := mem_of_node (by simp) h
  have hparent := ((isTree_iff.mp htree).2 _ hmem).2
  simpa using hparent

def Below (dir path : Path) : Prop := ∃ name rest, path = dir ++ name :: rest

lemma ancestor_directory (htree : isTree disk = true) {dir path : Path} {n : Node} (hbelow : Below dir path)
    (h : node disk path = some n) : node disk dir = some .directory := by
  obtain ⟨name, rest, rfl⟩ := hbelow
  induction rest using List.reverseRecOn generalizing n with
  | nil => exact parent_directory htree h
  | append_singleton rest last ih =>
    have hparent : node disk (dir ++ name :: rest) = some .directory := by
      refine @parent_directory _ htree _ last n ?_
      simpa using h
    exact ih hparent

lemma mem_children {dir : Path} {name : Name} {n : Node} (h : node disk (dir ++ [name]) = some n) :
    (name, isFolder n) ∈ children disk dir := by
  have hmem := mem_of_node (by simp) h
  refine List.mem_filterMap.mpr ⟨_, hmem, ?_⟩
  simp [childOf]

lemma regular_ne_nil {path : Path} (h : isRegular (node disk path) = true) : path ≠ [] := by
  rintro rfl
  rw [node_nil] at h
  cases h

lemma regular_some {o : Option Node} (h : isRegular o = true) : ∃ content stamp, o = some (.file content stamp) := by
  unfold isRegular at h
  split at h
  · exact ⟨_, _, rfl⟩
  · cases h

lemma next_listed (htree : isTree disk = true) {dir : Path} {name : Name} {rest : Path}
    (h : isRegular (node disk (dir ++ name :: rest)) = true) : (name, decide (rest ≠ [])) ∈ children disk dir := by
  obtain ⟨content, stamp, hfile⟩ := regular_some h
  cases rest with
  | nil => exact mem_children hfile
  | cons last rest =>
    have hbelow : Below (dir ++ [name]) (dir ++ name :: last :: rest) := ⟨last, rest, by simp⟩
    exact mem_children (ancestor_directory htree hbelow hfile)

lemma node_edit (path : Path) (new : Option Node) (k : Path) :
    node (edit disk path new) k = if k = path ∧ k ≠ [] then new else node disk k := by
  by_cases hk : k = []
  · subst hk
    simp [node_nil]
  · rw [node_of_ne hk, node_of_ne hk]
    cases new with
    | none =>
      change (lookup Prod.fst (deleteRow Prod.fst path disk) k).map Prod.snd = _
      rw [lookup_deleteRow]
      by_cases hpath : k = path <;> simp [hpath, hk]
      exact fun hnil => (hk (hpath.trans hnil)).elim
    | some n =>
      change (lookup Prod.fst (replaceRow Prod.fst (path, n) disk) k).map Prod.snd = _
      rw [lookup_replaceRow]
      by_cases hpath : k = path <;> simp [hpath, hk]
      exact fun hnil => (hk (hpath.trans hnil)).elim

lemma node_edits {changes : List (Path × Option Node)} {k : Path} (h : k ∉ filesChanged disk changes)
    (hfile : isRegular (node disk k) = true ∨ isRegular (node (edits disk changes) k) = true) :
    node (edits disk changes) k = node disk k := by
  induction changes generalizing disk with
  | nil => rfl
  | cons change changes ih =>
    obtain ⟨path, new⟩ := change
    change node (edits (edit disk path new) changes) k = node disk k
    change _ ∨ isRegular (node (edits (edit disk path new) changes) k) = true at hfile
    have hnode := @node_edit disk path new k
    unfold filesChanged at h
    by_cases hk : k = path ∧ k ≠ []
    · rw [if_pos hk] at hnode
      obtain ⟨rfl, -⟩ := hk
      split at h
      · exact absurd (List.mem_cons_self ..) h
      · rename_i hplain
        simp only [Bool.or_eq_true, not_or] at hplain
        have hlast := hfile.resolve_left hplain.1
        have hsame := ih h (.inr hlast)
        rw [hsame, hnode] at hlast
        exact absurd hlast hplain.2
    · rw [if_neg hk] at hnode
      have hrest : k ∉ filesChanged (edit disk path new) changes := by
        split at h
        · exact fun hmem => h (List.mem_cons_of_mem _ hmem)
        · exact h
      rw [← hnode] at hfile ⊢
      exact ih hrest hfile

lemma node_of_not_edited {changes : List (Path × Option Node)} {k : Path} (h : k ∉ changes.map Prod.fst) :
    node (edits disk changes) k = node disk k := by
  induction changes generalizing disk with
  | nil => rfl
  | cons change changes ih =>
    obtain ⟨path, new⟩ := change
    rw [List.map_cons, List.mem_cons, not_or] at h
    change node (edits (edit disk path new) changes) k = node disk k
    rw [ih h.2, node_edit, if_neg fun hk => h.1 hk.1]

lemma mem_filesChanged {changes : List (Path × Option Node)} {k : Path} (h : k ∈ changes.map Prod.fst)
    (hfile : isRegular (node disk k) = true) : k ∈ filesChanged disk changes := by
  induction changes generalizing disk with
  | nil => cases h
  | cons change changes ih =>
    obtain ⟨path, new⟩ := change
    unfold filesChanged
    by_cases hk : k = path
    · subst hk
      simp [hfile]
    · have hmem : k ∈ changes.map Prod.fst := (List.mem_cons.mp h).resolve_left hk
      have hrest := @ih (edit disk path new) hmem (by rwa [node_edit, if_neg fun hp => hk hp.1])
      split
      · exact List.mem_cons_of_mem _ hrest
      · exact hrest

def Clear (dir : Path) : Prop := ∀ name ∈ dir, isExcluded name = false

def Excluded (path : Path) : Prop := ∃ name ∈ path.dropLast, isExcluded name = true

def ComingCursor (c : Cursor) (path : Path) : Prop :=
  (∃ name ∈ c.files, path = c.dir ++ [name]) ∨ (∃ name ∈ c.folders, Below (c.dir ++ [name]) path) ∨ ∃ dir ∈ c.stack, Below dir path

def Coming : Phase → Path → Prop
  | .starting, _ => True
  | .visiting stack, path => ∃ dir ∈ stack, Below dir path
  | .scanning dir stack missing, path =>
    (∃ name rest, path = dir ++ name :: rest ∧ (name, decide (rest ≠ [])) ∈ missing) ∨ ∃ dir ∈ stack, Below dir path
  | .checking _ c, path | .naming c, path => ComingCursor c path
  | .filing name c, path => path = c.dir ++ [name] ∨ ComingCursor c path
  | .sizing at' c, path | .opening at' c, path | .reading at' _ _ _ c, path => path = at' ∨ ComingCursor c path
  | .yielded _, _ | .failed _, _ => True

lemma not_excluded {dir : Path} {name : Name} {rest : Path} (h : ¬ Excluded (dir ++ name :: rest)) (hrest : rest ≠ []) :
    isExcluded name = false := by
  by_contra hname
  refine h ⟨name, ?_, by simpa using hname⟩
  rw [List.dropLast_append_of_ne_nil (by simp), List.dropLast_cons_of_ne_nil hrest]
  simp

lemma mem_sortNames {names : List Name} {name : Name} : name ∈ sortNames names ↔ name ∈ names :=
  (List.perm_insertionSort _ names).mem_iff

lemma coming_listed {dir path : Path} {stack : List Path} {missing : List (Name × Bool)} {subdirectories filenames : List Name}
    (h : Coming (.scanning dir stack missing) path) (hpath : ¬ Excluded path)
    (hall : ∀ entry ∈ missing, entry.1 ∈ if entry.2 then subdirectories else filenames) (checks : List Path) :
    Coming (.checking checks ⟨dir, (sortNames subdirectories).filter fun name => !isExcluded name, sortNames filenames, stack⟩)
      path := by
  rcases h with ⟨name, rest, rfl, hmem⟩ | hstack
  · have hlisted := hall _ hmem
    cases rest with
    | nil => exact .inl ⟨name, mem_sortNames.mpr (by simpa using hlisted), rfl⟩
    | cons last rest =>
      refine .inr (.inl ⟨name, List.mem_filter.mpr ⟨mem_sortNames.mpr (by simpa using hlisted), ?_⟩, last, rest, by simp⟩)
      simp [not_excluded hpath (List.cons_ne_nil _ _)]
  · exact .inr (.inr hstack)

lemma coming_descend (htree : isTree disk = true) {dir path : Path} {folders : List Name} {stack : List Path} {n : Node}
    (hnode : node disk path = some n) (h : ComingCursor ⟨dir, folders, [], stack⟩ path) :
    Coming (.visiting (descend disk ⟨dir, folders, [], stack⟩)) path := by
  rcases h with ⟨name, hname, -⟩ | ⟨name, hname, hbelow⟩ | ⟨d, hd, hbelow⟩
  · cases hname
  · refine ⟨dir ++ [name], List.mem_append_left _ (List.mem_filter.mpr ⟨List.mem_map_of_mem hname, ?_⟩), hbelow⟩
    rw [ancestor_directory htree hbelow hnode]
  · exact ⟨d, List.mem_append_right _ hd, hbelow⟩

lemma coming_scanning (htree : isTree disk = true) {dir path : Path} {stack : List Path}
    (hfile : isRegular (node disk path) = true) (h : Coming (.visiting (dir :: stack)) path) :
    Coming (.scanning dir stack (children disk dir)) path := by
  obtain ⟨d, hd, hbelow⟩ := h
  rcases List.mem_cons.mp hd with rfl | hd
  · obtain ⟨name, rest, rfl⟩ := hbelow
    exact .inl ⟨name, rest, rfl, next_listed htree hfile⟩
  · exact .inr ⟨d, hd, hbelow⟩

lemma coming_disturbed (htree : isTree disk = true) {phase : Phase} {paths : List Path} {path : Path}
    (hfile : isRegular (node disk path) = true) (h : Coming phase path) : Coming (disturbed disk paths phase) path := by
  cases phase with
  | scanning dir stack missing =>
    rcases h with ⟨name, rest, rfl, hmem⟩ | hstack
    · exact .inl ⟨name, rest, rfl, List.mem_filter.mpr ⟨hmem, decide_eq_true (next_listed htree hfile)⟩⟩
    · exact .inr hstack
  | _ => exact h

end PromptForge.BuildCapture
