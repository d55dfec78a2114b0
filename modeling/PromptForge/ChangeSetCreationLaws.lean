import Mathlib.Data.List.ModifyLast
import PromptForge.ChangeSetCreation

namespace PromptForge.ChangeSetCreation
open Runs Tables ChangeSets

variable {host : Host} {stage : Disk} {baseline : Snapshot} {authorized deleted : List Path} {changed : List ChangedFile}

lemma mapM_sublist {α β ε : Type} {f : α → Except ε (Option β)} {g : β → α} (hf : ∀ x y, f x = .ok (some y) → g y = x)
    {xs : List α} {ys : List (Option β)} (h : xs.mapM f = .ok ys) : ((ys.filterMap id).map g).Sublist xs := by
  induction xs generalizing ys with
  | nil =>
    cases h
    simp
  | cons x xs ih =>
    rw [List.mapM_cons] at h
    obtain ⟨y, hy, h⟩ := ok_of_bind h
    obtain ⟨rest, hrest, h⟩ := ok_of_bind h
    cases h
    cases y with
    | none => exact (ih hrest).cons x
    | some y =>
      change (g y :: (rest.filterMap id).map g).Sublist (x :: xs)
      rw [hf x y hy]
      exact (ih hrest).cons_cons x

lemma filterMap_sublist {α β : Type} {f : α → Option β} {g : β → α} (hf : ∀ x y, f x = some y → g y = x) (xs : List α) :
    ((xs.filterMap f).map g).Sublist xs := by
  induction xs with
  | nil => simp
  | cons x xs ih =>
    cases hx : f x with
    | none =>
      rw [List.filterMap_cons_none hx]
      exact ih.cons x
    | some y =>
      rw [List.filterMap_cons_some hx, List.map_cons, hf x y hx]
      exact ih.cons_cons x

lemma mem_sorted {path : Path} {paths : List Path} : path ∈ sorted paths ↔ path ∈ paths := by
  unfold sorted
  rw [List.mem_insertionSort, List.mem_dedup]

lemma nodup_sorted (paths : List Path) : (sorted paths).Nodup :=
  (List.perm_insertionSort _ _).nodup_iff.mpr (List.nodup_dedup paths)

lemma mem_filesOf {disk : Disk} {path : Path} : path ∈ filesOf disk ↔ (∃ n, (path, n) ∈ disk) ∧ isCounted path = true ∧
    (contentOf (node disk path)).isSome = true := by
  unfold filesOf
  simp [and_assoc]

lemma walk_ok {disk : Disk} {walked : List Path} (h : walk disk = .ok walked) : entries disk ≤ maxEntries ∧ walked = filesOf disk := by
  unfold walk at h
  split at h
  · cases h
  · rename_i hlimit
    cases h
    exact ⟨Nat.not_lt.mp hlimit, rfl⟩

lemma lstrip_lstrip (part : String) : lstrip (lstrip part) = lstrip part := by
  simp [lstrip, List.dropWhile_idempotent]

lemma rstrip_rstrip (part : String) : rstrip (rstrip part) = rstrip part := by
  simp [rstrip, List.rdropWhile_idempotent]

lemma lstrip_of_both {part : String} (h : rstrip (lstrip part) = part) : lstrip part = part := by
  have hfirst : (part.toList.dropWhile Texts.isSpace).length ≤ part.toList.length := (List.dropWhile_suffix _).length_le
  have hlist : (part.toList.dropWhile Texts.isSpace).rdropWhile Texts.isSpace = part.toList := by
    have htext := congrArg String.toList h
    simpa [rstrip, lstrip] using htext
  have hlast : part.toList.length ≤ (part.toList.dropWhile Texts.isSpace).length := by
    have hlength := (@List.rdropWhile_prefix _ Texts.isSpace (part.toList.dropWhile Texts.isSpace)).length_le
    rwa [hlist] at hlength
  have hsame := (List.dropWhile_suffix Texts.isSpace).eq_of_length (Nat.le_antisymm hfirst hlast)
  rw [lstrip, hsame, String.ofList_toList]

lemma strip_singleton (part : String) : strip [part] = [rstrip (lstrip part)] := rfl

lemma strip_ends (a b : String) (middle : Path) : strip (a :: (middle ++ [b])) = lstrip a :: (middle ++ [rstrip b]) := by
  unfold strip
  rw [List.modifyHead_cons, ← List.cons_append, List.modifyLast_concat, List.cons_append]

lemma path_cases (path : Path) : path = [] ∨ (∃ part, path = [part]) ∨ ∃ a b middle, path = a :: (middle ++ [b]) := by
  rcases path with _ | ⟨a, rest⟩
  · exact .inl rfl
  · rcases List.eq_nil_or_concat rest with rfl | ⟨middle, b, rfl⟩
    · exact .inr (.inl ⟨a, rfl⟩)
    · exact .inr (.inr ⟨a, b, middle, by simp⟩)

lemma strip_strip (path : Path) : strip (strip path) = strip path := by
  rcases path_cases path with rfl | ⟨part, rfl⟩ | ⟨a, b, middle, rfl⟩
  · rfl
  · rw [strip_singleton, strip_singleton]
    have hboth : ∀ text : String, rstrip (lstrip text) = Texts.strip text := fun text => by simp [rstrip, lstrip, Texts.strip, Texts.stripChars]
    rw [hboth, hboth, Texts.strip_strip]
  · rw [strip_ends, strip_ends, lstrip_lstrip, rstrip_rstrip]

lemma strip_twice {path : Path} (h : strip path = path) (hne : path ≠ []) : strip (path ++ [path.getLast?.getD ""]) = path ++ [path.getLast?.getD ""] := by
  rcases path_cases path with rfl | ⟨part, rfl⟩ | ⟨a, b, middle, rfl⟩
  · exact absurd rfl hne
  · have hboth : rstrip (lstrip part) = part := by simpa [strip_singleton] using h
    have hfirst := lstrip_of_both hboth
    have hlast : rstrip part = part := by rwa [hfirst] at hboth
    have hends := strip_ends part part []
    rw [hfirst, hlast] at hends
    exact hends
  · rw [strip_ends] at h
    obtain ⟨hfirst, hlast⟩ := List.cons_eq_cons.mp h
    have hlast : rstrip b = b := by simpa using hlast
    have hlastOf : (a :: (middle ++ [b])).getLast?.getD "" = b := by
      rw [← List.cons_append, List.getLast?_concat]
      rfl
    have hends := strip_ends a b (middle ++ [b])
    rw [hfirst, hlast] at hends
    rw [hlastOf]
    exact hends

lemma canonical_ok {known : List Path} {path r : Path} (h : canonical host known path = .ok r) : isSafe (strip path) = true ∧
    r = (known.find? fun q => decide (key host q = key host (strip path))).getD (strip path) := by
  unfold canonical at h
  split at h
  · cases h
  · rename_i hproblem
    cases h
    exact ⟨by simp [isSafe, hproblem], rfl⟩

lemma find_canonical {known : List Path} {path r : Path} (h : canonical host known path = .ok r)
    (hknown : (∀ q ∈ known, key host q ≠ key host (strip path)) → r = strip path → isSafe r = true → False) :
    known.find? (fun q => decide (key host q = key host r)) = some r := by
  obtain ⟨hsafe, hr⟩ := canonical_ok h
  cases hfind : known.find? fun q => decide (key host q = key host (strip path)) with
  | none =>
    rw [hfind] at hr
    obtain rfl : r = strip path := hr
    refine (hknown (fun q hq => ?_) rfl hsafe).elim
    simpa using List.find?_eq_none.mp hfind q hq
  | some q =>
    rw [hfind] at hr
    obtain rfl : r = q := hr
    have hsame : key host r = key host (strip path) := by simpa using List.find?_some hfind
    rw [hsame]
    exact hfind

lemma forbidden_alike {path q : Path} (h : key host path = key host q) (hsafe : q.any isForbidden = false) :
    path.any isForbidden = false := by
  rw [List.any_eq_false] at hsafe ⊢
  intro part hpart
  have hmem : host.normcase part ∈ key host q := h ▸ List.mem_map_of_mem hpart
  obtain ⟨other, hother, hsame⟩ := List.mem_map.mp hmem
  rw [← host.alike other part hsame]
  exact hsafe other hother

lemma counted_of_allowed {path : Path} (h : path.any isForbidden = false) : isCounted path = true := by
  unfold isCounted
  rw [List.all_eq_true]
  intro part hpart
  have hallowed := List.any_eq_false.mp h part (path.dropLast_prefix.subset hpart)
  simp only [isForbidden, Bool.or_eq_true, not_or, decide_eq_true_eq] at hallowed
  simp [hallowed.1.1.2]

lemma not_internal {path : Path} (h : path.any isForbidden = false) : path ∉ internalFiles := by
  intro hmem
  obtain rfl := List.mem_singleton.mp hmem
  revert h
  decide

section Exact
variable (hexact : ∀ name, host.normcase name = name)
include hexact

lemma key_exact (path : Path) : key host path = path := by
  unfold key
  rw [List.map_congr_left fun name _ => hexact name]
  exact List.map_id path

lemma keyed_exact (disk : Disk) : keyed host disk = disk := by
  unfold keyed
  simp [key_exact hexact]

lemma canonical_exact {known : List Path} {path : Path} (hsafe : isSafeRelative path = true) :
    canonical host known path = .ok (strip path) := by
  unfold canonical
  rw [problem_of_safe hsafe]
  simp only [key_exact hexact]
  cases hfind : known.find? fun q => decide (q = strip path) with
  | none => rfl
  | some q =>
    obtain rfl : q = strip path := by simpa using List.find?_some hfind
    rfl

lemma strip_of_canonical {known : List Path} {path r : Path} (h : canonical host known path = .ok r) :
    isSafeRelative path = true ∧ r = strip path := by
  obtain ⟨hsafe, -⟩ := canonical_ok h
  refine ⟨hsafe, ?_⟩
  rw [canonical_exact hexact hsafe] at h
  exact (Except.ok.inj h).symm

end Exact

lemma lookup_keyed {disk : Disk} {k : Path} {row : Path × Node} (h : lookup Prod.fst (keyed host disk) k = some row) :
    ∃ path, key host path = k ∧ lookup Prod.fst disk path = some (path, row.2) := by
  induction disk with
  | nil => cases h
  | cons first disk ih =>
    change lookup Prod.fst ((key host first.1, first.2) :: keyed host disk) k = some row at h
    rw [lookup_cons] at h
    split at h
    · rename_i hkey
      cases h
      exact ⟨first.1, hkey, by rw [lookup_cons, if_pos rfl]⟩
    · rename_i hkey
      obtain ⟨path, hpath, hrow⟩ := ih h
      refine ⟨path, hpath, ?_⟩
      rw [lookup_cons, if_neg]
      · exact hrow
      · rintro rfl
        exact hkey hpath

lemma walked_of_node {walked : List Path} (hwalk : walk stage = .ok walked) {r : Path} (hsafe : isSafe r = true) {content : Bytes}
    (hnode : node (keyed host stage) (key host r) = some (.file content)) :
    ∃ path ∈ walked, key host path = key host r ∧ path ∉ internalFiles := by
  have hne : key host r ≠ [] := by simpa [key] using isSafe_ne_nil hsafe
  rw [node_of_ne hne] at hnode
  obtain ⟨row, hrow, hfile⟩ := Option.map_eq_some_iff.mp hnode
  obtain ⟨path, hkey, hlookup⟩ := lookup_keyed hrow
  have hallowed := forbidden_alike hkey (isSafe_iff.mp hsafe).2.2.2.2
  have hpath : path ≠ [] := by
    rintro rfl
    exact hne hkey.symm
  refine ⟨path, ?_, hkey, not_internal hallowed⟩
  rw [(walk_ok hwalk).2, mem_filesOf]
  refine ⟨⟨_, lookup_mem hlookup⟩, counted_of_allowed hallowed, ?_⟩
  rw [node_of_ne hpath, hlookup, Option.map_some, hfile]
  rfl

structure Made (host : Host) (stage : Disk) (baseline : Snapshot) (authorized deleted : List Path) (changed : List ChangedFile)
    (found staged gone : List Path) (written : List (Option ChangedFile)) : Prop where
  walked : ∃ walked, walk stage = .ok walked ∧ found = walked.filter fun path => decide (path ∉ internalFiles)
  named : found.mapM (canonical host ((baseline.files.map Prod.fst).reverse ++ found)) = .ok staged
  deletes : deleted.mapM (canonical host ((baseline.files.map Prod.fst).reverse ++ found)) = .ok gone
  apart : ∀ path ∈ gone, path ∉ staged
  writes : (sorted staged).mapM (stagedChange host stage baseline) = .ok written
  items : changed = written.filterMap id ++ (sorted gone).filterMap (deletedChange baseline)
  some_file : changed ≠ []

lemma changesOf_ok (h : changesOf host stage baseline authorized deleted = .ok changed) :
    ∃ found staged gone written, Made host stage baseline authorized deleted changed found staged gone written := by
  unfold changesOf at h
  obtain ⟨walked, hwalk, h⟩ := ok_of_bind h
  obtain ⟨staged, hstaged, h⟩ := ok_of_bind h
  obtain ⟨allowed, -, h⟩ := ok_of_bind h
  obtain ⟨gone, hgone, h⟩ := ok_of_bind h
  obtain ⟨_, hdelete, h⟩ := ok_of_bind h
  obtain ⟨_, -, h⟩ := ok_of_bind h
  obtain ⟨written, hwritten, h⟩ := ok_of_bind h
  obtain ⟨_, hsome, h⟩ := ok_of_bind h
  cases h
  refine ⟨_, staged, gone, written, ⟨walked, ?_, rfl⟩, hstaged, hgone, (of_require hdelete).2, hwritten, rfl, of_require hsome⟩
  cases hw : walk stage with
  | error problem =>
    rw [hw] at hwalk
    cases hwalk
  | ok found =>
    rw [hw] at hwalk
    cases hwalk
    rfl

lemma stagedChange_ok {relative : Path} {item : ChangedFile} (h : stagedChange host stage baseline relative = .ok (some item)) :
    ∃ content, node (keyed host stage) (key host relative) = some (.file content) ∧ item.path = relative ∧
      item.newHash = some (host.hash content) ∧ item.previousHash = baseline.hashOf relative ∧
      (item.changeType = .created ∧ item.previousHash = none ∨
        item.changeType = .modified ∧ item.previousHash.isSome = true ∧ item.previousHash ≠ item.newHash) := by
  unfold stagedChange at h
  split at h
  · cases h
  · split at h
    · cases h
    · cases h
    · rename_i content hnode
      refine ⟨content, hnode, ?_⟩
      split at h
      · rename_i hprevious
        cases h
        exact ⟨rfl, rfl, hprevious.symm, .inl ⟨rfl, rfl⟩⟩
      · rename_i previous hprevious
        split at h
        · cases h
        · rename_i hne
          cases h
          exact ⟨rfl, rfl, hprevious.symm, .inr ⟨rfl, rfl, fun hsame => hne (Option.some.inj hsame)⟩⟩

lemma deletedChange_ok {relative : Path} {item : ChangedFile} (h : deletedChange baseline relative = some item) :
    item.path = relative ∧ item.changeType = .deleted ∧ item.newHash = none ∧ item.previousHash.isSome = true ∧
      ∃ digest, (relative, digest) ∈ baseline.files := by
  unfold deletedChange at h
  obtain ⟨previous, hprevious, rfl⟩ := Option.map_eq_some_iff.mp h
  obtain ⟨row, hrow, rfl⟩ := Option.map_eq_some_iff.mp hprevious
  have hkey : row.1 = relative := lookup_key hrow
  exact ⟨rfl, rfl, rfl, rfl, row.2, hkey ▸ lookup_mem hrow⟩

def Formed (item : ChangedFile) : Prop :=
  match item.changeType with
  | .created => item.previousHash = none ∧ item.newHash.isSome = true
  | .modified => item.previousHash.isSome = true ∧ item.newHash.isSome = true ∧ item.previousHash ≠ item.newHash
  | .deleted => item.previousHash.isSome = true ∧ item.newHash = none

section Made
variable {found staged gone : List Path} {written : List (Option ChangedFile)} {item : ChangedFile}

variable (h : Made host stage baseline authorized deleted changed found staged gone written)

include h in
lemma Made.cases (hitem : item ∈ changed) :
    (∃ relative ∈ staged, stagedChange host stage baseline relative = .ok (some item)) ∨
      ∃ relative ∈ gone, deletedChange baseline relative = some item := by
  rw [h.items] at hitem
  rcases List.mem_append.mp hitem with hitem | hitem
  · obtain ⟨relative, hrelative, hchange⟩ := (mapM_mem h.writes).1 (some item) (by simpa using hitem)
    exact .inl ⟨relative, mem_sorted.mp hrelative, hchange⟩
  · obtain ⟨relative, hrelative, hchange⟩ := List.mem_filterMap.mp hitem
    exact .inr ⟨relative, mem_sorted.mp hrelative, hchange⟩

include h in
lemma Made.formed (hitem : item ∈ changed) :
    Formed item := by
  unfold Formed
  rcases h.cases hitem with ⟨relative, -, hchange⟩ | ⟨relative, -, hchange⟩
  · obtain ⟨content, -, -, hnew, -, ⟨htype, hprevious⟩ | ⟨htype, hprevious, hne⟩⟩ := stagedChange_ok hchange
    · simp [htype, hprevious, hnew]
    · simp [htype, hprevious, hnew]
      rwa [hnew] at hne
  · obtain ⟨-, htype, hnew, hprevious, -⟩ := deletedChange_ok hchange
    simp [htype, hnew, hprevious]

include h in
lemma Made.spelled (hitem : item ∈ changed) :
    ((baseline.files.map Prod.fst).reverse ++ found).find? (fun q => decide (key host q = key host item.path)) = some item.path := by
  obtain ⟨walked, hwalk, hfound⟩ := h.walked
  rcases h.cases hitem with ⟨relative, hrelative, hchange⟩ | ⟨relative, hrelative, hchange⟩
  · obtain ⟨content, hnode, rfl, -⟩ := stagedChange_ok hchange
    obtain ⟨path, -, hcanonical⟩ := (mapM_mem h.named).1 _ hrelative
    refine find_canonical hcanonical fun hunknown hsame hsafe => ?_
    -- the walk found it under some spelling
    obtain ⟨q, hq, hkey, hinternal⟩ := walked_of_node hwalk hsafe hnode
    refine hunknown q (List.mem_append_right _ ?_) (hsame ▸ hkey)
    rw [hfound]
    exact List.mem_filter.mpr ⟨hq, by simpa using hinternal⟩
  · obtain ⟨rfl, -, -, -, digest, hmem⟩ := deletedChange_ok hchange
    obtain ⟨path, -, hcanonical⟩ := (mapM_mem h.deletes).1 _ hrelative
    refine find_canonical hcanonical fun hunknown hsame _ => ?_
    refine hunknown item.path (List.mem_append_left _ ?_) (by rw [← hsame])
    exact List.mem_reverse.mpr (List.mem_map_of_mem hmem)

include h in
lemma Made.paths :
    (changed.map ChangedFile.path).Nodup := by
  have hwritten : ((written.filterMap id).map ChangedFile.path).Sublist (sorted staged) :=
    mapM_sublist (fun relative item hchange => (stagedChange_ok hchange).choose_spec.2.1) h.writes
  have hremoved : (((sorted gone).filterMap (deletedChange baseline)).map ChangedFile.path).Sublist (sorted gone) :=
    filterMap_sublist (fun relative item hchange => (deletedChange_ok hchange).1) _
  rw [h.items, List.map_append]
  refine List.Nodup.append ((nodup_sorted staged).sublist hwritten) ((nodup_sorted gone).sublist hremoved) ?_
  intro path hpath hpath'
  exact h.apart path (mem_sorted.mp (hremoved.subset hpath')) (mem_sorted.mp (hwritten.subset hpath))

include h in
lemma Made.keys :
    (changed.map fun item => key host item.path).Nodup := by
  have hmap : (changed.map fun item => key host item.path) = (changed.map ChangedFile.path).map (key host) := by simp
  rw [hmap]
  refine h.paths.map_on fun x hx y hy hsame => ?_
  obtain ⟨item, hitem, rfl⟩ := List.mem_map.mp hx
  obtain ⟨other, hother, rfl⟩ := List.mem_map.mp hy
  have hspelled := h.spelled hitem
  rw [hsame, h.spelled hother] at hspelled
  exact (Option.some.inj hspelled).symm

end Made

structure Accepted (host : Host) (stage : Disk) (p : Setting) : Prop where
  stage : p.stage = node (keyed host stage)
  some_file : p.changedFiles ≠ []
  paths : (p.changedFiles.map ChangedFile.path).Nodup
  formed : ∀ item ∈ p.changedFiles, Formed item

lemma accepted {active : String} {p : Setting} (h : createFromStage host active stage baseline authorized deleted = .ok p) :
    Accepted host stage p := by
  unfold createFromStage at h
  obtain ⟨_, -, h⟩ := ok_of_bind h
  obtain ⟨changed, hchanged, h⟩ := ok_of_bind h
  obtain ⟨files, -, h⟩ := ok_of_bind h
  cases h
  obtain ⟨found, staged, gone, written, hmade⟩ := changesOf_ok hchanged
  refine ⟨rfl, ?_, ?_, ?_⟩
  · simpa [settingOf] using hmade.some_file
  · have hkeys := hmade.keys
    simpa [settingOf, Function.comp_def] using hkeys
  · intro item hitem
    obtain ⟨plain, hplain, rfl⟩ := List.mem_map.mp hitem
    have hformed := hmade.formed hplain
    exact hformed

end PromptForge.ChangeSetCreation
