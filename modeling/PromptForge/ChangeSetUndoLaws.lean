import PromptForge.ChangeSetUndo

namespace PromptForge.ChangeSetUndo
open Runs Tables ChangeSets

variable {p : Setting} {fault : Option Step} {place : Touch → Step} {disk disk' start base : Disk}

@[simp] lemma attempted_ok (disk : Disk) : attempted (.ok disk) = disk := rfl

@[simp] lemma attempted_error (disk : Disk) : attempted (.error disk) = disk := rfl

variable {path : Path}

lemma unchanged_directory {dir : Path} (hnone : node disk dir = none) (hdir : dir <+: path) (hne : dir ≠ path) (q : Path) :
    Unchanged disk (disk ++ [(dir, .directory)]) path q := by
  unfold Unchanged
  rw [node_append hnone]
  split
  · rename_i hq
    subst hq
    exact .inr ⟨hnone, rfl, hdir, hne⟩
  · exact .inl rfl

lemma mkdirs_unchanged {dirs : List Path} (hdirs : ∀ dir ∈ dirs, dir <+: path ∧ dir ≠ path) (q : Path) :
    Unchanged disk (attempted (mkdirs fault place disk dirs)) path q := by
  induction dirs generalizing disk with
  | nil => exact .inl rfl
  | cons dir dirs ih =>
    obtain ⟨⟨hdir, hne⟩, hrest⟩ := List.forall_mem_cons.mp hdirs
    unfold mkdirs
    split
    · exact ih hrest
    · exact .inl rfl
    · rename_i hnone
      split
      · exact .inl rfl
      · exact (unchanged_directory hnone hdir hne q).trans (ih hrest)

lemma mkdirs_ok {dirs : List Path} (hfault : ∀ dir, fault ≠ some (place (.directory dir)))
    (hway : ∀ dir ∈ dirs, contentOf (node disk dir) = none) : ∃ disk', mkdirs fault place disk dirs = .ok disk' := by
  induction dirs generalizing disk with
  | nil => exact ⟨disk, rfl⟩
  | cons dir dirs ih =>
    obtain ⟨hfree, hrest⟩ := List.forall_mem_cons.mp hway
    unfold mkdirs
    split
    · exact ih hrest
    · rename_i content hfile
      rw [hfile] at hfree
      cases hfree
    · rename_i hnone
      rw [if_neg (hfault dir)]
      apply ih
      intro above habove
      rw [node_append hnone]
      split
      · rfl
      · exact hrest above habove

lemma replaces_cases {α : Type} (at' : Part → Step) (before after : α) :
    (∀ part, fault ≠ some (at' part)) ∧ replaces fault at' before after = .ok after ∨
      (∃ part, part ≠ .sync ∧ fault = some (at' part)) ∧ replaces fault at' before after = .error before ∨
      fault = some (at' .sync) ∧ replaces fault at' before after = .error after := by
  unfold replaces
  split
  · rename_i hbefore
    refine .inr (.inl ⟨?_, rfl⟩)
    rcases hbefore with h | h | h
    · exact ⟨_, by simp, h⟩
    · exact ⟨_, by simp, h⟩
    · exact ⟨_, by simp, h⟩
  · rename_i hbefore
    simp only [not_or] at hbefore
    split
    · rename_i hsync
      exact .inr (.inr ⟨hsync, rfl⟩)
    · rename_i hsync
      refine .inl ⟨fun part => ?_, rfl⟩
      cases part
      · exact hbefore.1
      · exact hbefore.2.1
      · exact hbefore.2.2
      · exact hsync

lemma replaces_ok {α : Type} {at' : Part → Step} (hfault : ∀ part, fault ≠ some (at' part)) (before after : α) :
    replaces fault at' before after = .ok after := by
  unfold replaces
  simp [hfault]

def Touched (disk disk' : Disk) (path : Path) (content : Option Bytes) : Prop :=
  (∀ q, q ≠ path → Unchanged disk disk' path q) ∧ (node disk' path = node disk path ∨ node disk' path = content.map .file)

def Placed (disk disk' : Disk) (path : Path) (content : Option Bytes) : Prop :=
  (∀ q, q ≠ path → Unchanged disk disk' path q) ∧ node disk' path = content.map .file

variable {content : Option Bytes}

lemma Placed.touched (h : Placed disk disk' path content) : Touched disk disk' path content :=
  ⟨h.1, .inr h.2⟩

lemma placed_file {content : Bytes} (hpath : path ≠ []) (h : ∀ q, Unchanged disk disk' path q) :
    Placed disk (replaceRow Prod.fst (path, .file content) disk') path (some content) := by
  constructor
  · intro q hq
    refine (h q).trans (.inl ?_)
    rw [node_replaceRow hpath, if_neg hq]
  · rw [node_replaceRow hpath, if_pos rfl]
    rfl

lemma placed_nothing (hpath : path ≠ []) : Placed disk (deleteRow Prod.fst path disk) path none := by
  constructor
  · intro q hq
    exact .inl (by rw [node_deleteRow hpath, if_neg hq])
  · rw [node_deleteRow hpath, if_pos rfl]
    rfl

lemma touched_same (h : ∀ q, Unchanged disk disk' path q) : Touched disk disk' path content :=
  ⟨fun q _ => h q, .inl ((h path).resolve_right fun hr => hr.2.2.2 rfl)⟩

lemma writeFile_result {content : Bytes} (hpath : path ≠ []) :
    (∃ disk', writeFile fault place disk path content = .ok disk' ∧ Placed disk disk' path (some content)) ∨
      ∃ disk', writeFile fault place disk path content = .error disk' ∧ Touched disk disk' path (some content) := by
  have hway := fun q => @mkdirs_unchanged fault place disk path path.dropLast.inits (fun dir hdir => (mem_above hpath).mp hdir) q
  unfold writeFile
  cases hdirs : mkdirs fault place disk path.dropLast.inits with
  | error made =>
    rw [hdirs] at hway
    exact .inr ⟨made, rfl, touched_same hway⟩
  | ok made =>
    rw [hdirs] at hway
    simp only
    split
    · exact .inr ⟨made, rfl, touched_same hway⟩
    · rcases @replaces_cases fault _ (fun part => place (.write part)) made (replaceRow Prod.fst (path, .file content) made) with
        ⟨-, hr⟩ | ⟨-, hr⟩ | ⟨-, hr⟩ <;> rw [hr]
      · exact .inl ⟨_, rfl, placed_file hpath hway⟩
      · exact .inr ⟨made, rfl, touched_same hway⟩
      · exact .inr ⟨_, rfl, (placed_file hpath hway).touched⟩

lemma writeFile_ok {content : Bytes} (hfault : ∀ touch, fault ≠ some (place touch)) (hpath : path ≠ [])
    (hway : ∀ dir, dir <+: path → dir ≠ path → contentOf (node disk dir) = none) (hnode : node disk path ≠ some .directory) :
    ∃ disk', writeFile fault place disk path content = .ok disk' ∧ Placed disk disk' path (some content) := by
  have hmade := fun q => @mkdirs_unchanged fault place disk path path.dropLast.inits (fun dir hdir => (mem_above hpath).mp hdir) q
  obtain ⟨made, hdirs⟩ := @mkdirs_ok fault place disk path.dropLast.inits
    (fun dir => hfault _) fun dir hdir => hway dir ((mem_above hpath).mp hdir).1 ((mem_above hpath).mp hdir).2
  rw [hdirs] at hmade
  have hsame : node made path = node disk path := (hmade path).resolve_right fun hr => hr.2.2.2 rfl
  unfold writeFile
  rw [hdirs]
  simp only
  rw [if_neg (by rwa [attempted_ok, hsame] at *), replaces_ok fun part => hfault _]
  exact ⟨_, rfl, placed_file hpath hmade⟩

lemma removeFile_result {missingOk : Bool} (hpath : path ≠ []) :
    (∃ disk', removeFile fault place missingOk disk path = .ok disk' ∧ Placed disk disk' path none) ∨
      ∃ disk', removeFile fault place missingOk disk path = .error disk' ∧ Touched disk disk' path none := by
  have hsame : Touched disk disk path none := touched_same fun q => .inl rfl
  unfold removeFile
  split
  · exact .inr ⟨disk, rfl, hsame⟩
  · cases hnode : node disk path with
    | none =>
      cases missingOk
      · exact .inr ⟨disk, rfl, hsame⟩
      · exact .inl ⟨disk, rfl, fun q _ => .inl rfl, hnode⟩
    | some n =>
      cases n with
      | directory => exact .inr ⟨disk, rfl, hsame⟩
      | file content =>
        simp only
        split
        · exact .inr ⟨_, rfl, (placed_nothing hpath).touched⟩
        · exact .inl ⟨_, rfl, placed_nothing hpath⟩

lemma removeFile_ok {missingOk : Bool} (hfault : ∀ touch, fault ≠ some (place touch)) (hpath : path ≠ [])
    (hnode : node disk path ≠ some .directory) (hthere : node disk path = none → missingOk = true) :
    ∃ disk', removeFile fault place missingOk disk path = .ok disk' ∧ Placed disk disk' path none := by
  unfold removeFile
  rw [if_neg (hfault _)]
  cases hfound : node disk path with
  | none => exact ⟨disk, by simp [hthere hfound], fun q _ => .inl rfl, hfound⟩
  | some n =>
    cases n with
    | directory => exact absurd hfound hnode
    | file content => exact ⟨_, by simp [hfault], placed_nothing hpath⟩

lemma put_ok (hfault : ∀ touch, fault ≠ some (place touch)) (hpath : path ≠ [])
    (hway : ∀ dir, dir <+: path → dir ≠ path → contentOf (node disk dir) = none) (hnode : node disk path ≠ some .directory) :
    ∃ disk', put fault place disk path content = .ok disk' ∧ Placed disk disk' path content := by
  cases content with
  | none => exact removeFile_ok hfault hpath hnode fun _ => rfl
  | some content => exact writeFile_ok hfault hpath hway hnode

lemma writeFile_touched {content : Bytes} (hpath : path ≠ []) :
    Touched disk (attempted (writeFile fault place disk path content)) path (some content) := by
  rcases @writeFile_result fault place disk path content hpath with
    ⟨disk', h, hplaced⟩ | ⟨disk', h, htouched⟩
  · rw [h]
    exact hplaced.touched
  · rw [h]
    exact htouched

lemma put_touched (hpath : path ≠ []) :
    Touched disk (attempted (put fault place disk path content)) path content := by
  cases content with
  | some content => exact writeFile_touched hpath
  | none =>
    unfold put
    rcases @removeFile_result fault place disk path true hpath with
      ⟨disk', h, hplaced⟩ | ⟨disk', h, htouched⟩
    · rw [h]
      exact hplaced.touched
    · rw [h]
      exact htouched

structure Ready (p : Setting) (base start : Disk) : Prop where
  files : ∀ item ∈ p.changedFiles, isSafe item.path = true ∧ Describes p base item
  paths : (p.changedFiles.map ChangedFile.path).Nodup
  apart : ∀ x ∈ p.changedFiles, ∀ y ∈ p.changedFiles, x.path <+: y.path → x.path = y.path
  above : ∀ item ∈ p.changedFiles, ∀ dir, dir <+: item.path → dir ≠ item.path → contentOf (node start dir) = none

structure Sides (p : Setting) (base start disk : Disk) : Prop where
  outside : ∀ q, (∀ item ∈ p.changedFiles, item.path ≠ q) →
    node disk q = node start q ∨ node start q = none ∧ node disk q = some .directory
  sides : ∀ item ∈ p.changedFiles, node disk item.path = staged p item ∨ node disk item.path = original base item

variable {w : World} {item : ChangedFile}

lemma Applied.ready (h : Applied p base w) : Ready p base w.disk := ⟨h.files, h.paths, h.apart, h.above⟩

lemma Applied.sides (h : Applied p base w) : Sides p base w.disk w.disk := ⟨fun _ _ => .inl rfl, fun item hitem => .inl (h.content item hitem)⟩

lemma Ready.ne_nil (h : Ready p base start) (hitem : item ∈ p.changedFiles) : item.path ≠ [] := isSafe_ne_nil (h.files item hitem).1

lemma file_not_directory (content : Option Bytes) : content.map Node.file ≠ some .directory := by cases content <;> simp

lemma Sides.not_directory (h : Sides p base start disk) (hitem : item ∈ p.changedFiles) : node disk item.path ≠ some .directory := by
  rcases h.sides item hitem with h | h <;> rw [h] <;> exact file_not_directory _

lemma Sides.above (h : Sides p base start disk) (hready : Ready p base start) (hitem : item ∈ p.changedFiles) {dir : Path}
    (hdir : dir <+: item.path) (hne : dir ≠ item.path) : contentOf (node disk dir) = none := by
  have hout : ∀ x ∈ p.changedFiles, x.path ≠ dir := by
    rintro x hx rfl
    exact hne (hready.apart x hx item hitem hdir)
  rcases h.outside dir hout with hsame | ⟨-, hmade⟩
  · rw [hsame]
    exact hready.above item hitem dir hdir hne
  · rw [hmade]
    rfl

lemma Sides.unchanged (hready : Ready p base start) (hitem : item ∈ p.changedFiles)
    (h : ∀ q, q ≠ item.path → Unchanged disk disk' item.path q) {x : ChangedFile} (hx : x ∈ p.changedFiles) (hne : x.path ≠ item.path) :
    node disk' x.path = node disk x.path :=
  (h x.path hne).resolve_right fun hr => hne (hready.apart x hx item hitem hr.2.2.1)

lemma Sides.touch (h : Sides p base start disk) (hready : Ready p base start) (hitem : item ∈ p.changedFiles)
    (htouched : Touched disk disk' item.path content)
    (hcontent : content.map Node.file = staged p item ∨ content.map Node.file = original base item) : Sides p base start disk' := by
  constructor
  · intro q hout
    rcases htouched.1 q (hout item hitem).symm with hsame | ⟨hnone, hmade, -⟩
    · rw [hsame]
      exact h.outside q hout
    · rcases h.outside q hout with hsame | ⟨-, hdirectory⟩
      · exact .inr ⟨hsame ▸ hnone, hmade⟩
      · rw [hdirectory] at hnone
        cases hnone
  · intro x hx
    by_cases hne : x.path = item.path
    · obtain rfl : x = item := List.inj_on_of_nodup_map hready.paths hx hitem hne
      rcases htouched.2 with hsame | hput
      · rw [hsame]
        exact h.sides x hx
      · rw [hput]
        exact hcontent
    · rw [Sides.unchanged hready hitem htouched.1 hx hne]
      exact h.sides x hx

def TakesBack (p : Setting) (q : Progress) : Prop :=
  (∀ row ∈ q.restored, ∃ item ∈ p.changedFiles, row.1 = item.path ∧ row.2 = contentOf (p.stage item.path)) ∧
    ∀ row ∈ q.removed, ∃ item ∈ p.changedFiles, row.1 = item.path ∧ some row.2 = contentOf (p.stage item.path)

lemma foldl_keeps {α β : Type} {P : β → Prop} {f : β → α → β} {rows : List α} {b : β} (hb : P b)
    (hstep : ∀ b, P b → ∀ row ∈ rows, P (f b row)) : P (rows.foldl f b) := by
  induction rows generalizing b with
  | nil => exact hb
  | cons row rows ih =>
    exact ih (hstep b hb row (List.mem_cons_self ..)) fun b' hb' row' hrow' => hstep b' hb' row' (List.mem_cons_of_mem _ hrow')

lemma sides_takeBack (hready : Ready p base start) {q : Progress} (h : Sides p base start q.disk) (hrows : TakesBack p q) :
    Sides p base start (takeBack q) := by
  unfold takeBack
  apply foldl_keeps
  · apply foldl_keeps h
    intro disk hdisk row hrow
    obtain ⟨item, hitem, hpath, hcontent⟩ := hrows.1 row (List.mem_reverse.mp hrow)
    rw [hpath, hcontent]
    exact hdisk.touch hready hitem (put_touched (hready.ne_nil hitem)) (.inl rfl)
  · intro disk hdisk row hrow
    obtain ⟨item, hitem, hpath, hcontent⟩ := hrows.2 row (List.mem_reverse.mp hrow)
    rw [hpath]
    refine hdisk.touch hready hitem (writeFile_touched (hready.ne_nil hitem)) (.inl ?_)
    rw [hcontent]
    rfl

lemma mapM_targets {α β : Type} {f : α → Option (Option β)} {P : α → β → Prop} {Q : α → Prop} {xs : List α}
    (h : ∀ x ∈ xs, f x = some none ∧ Q x ∨ ∃ y, f x = some (some y) ∧ P x y) :
    ∃ found, xs.mapM f = some found ∧ (∀ y ∈ found.filterMap id, ∃ x ∈ xs, P x y) ∧
      ∀ x ∈ xs, Q x ∨ ∃ y ∈ found.filterMap id, P x y := by
  induction xs with
  | nil => exact ⟨[], rfl, by simp, by simp⟩
  | cons x xs ih =>
    obtain ⟨hx, hxs⟩ := List.forall_mem_cons.mp h
    obtain ⟨found, hfound, hrows, hall⟩ := ih hxs
    rcases hx with ⟨hf, hq⟩ | ⟨y, hf, hp⟩
    · refine ⟨none :: found, by simp [hf, hfound], ?_, List.forall_mem_cons.mpr ⟨.inl hq, by simpa using hall⟩⟩
      intro y hy
      obtain ⟨x', hx', hp⟩ := hrows y (by simpa using hy)
      exact ⟨x', List.mem_cons_of_mem _ hx', hp⟩
    · refine ⟨some y :: found, by simp [hf, hfound], ?_, List.forall_mem_cons.mpr ⟨.inr ⟨y, by simp, hp⟩, ?_⟩⟩
      · intro y' hy'
        rcases List.mem_cons.mp (show y' ∈ y :: found.filterMap id from hy') with rfl | hy'
        · exact ⟨x, List.mem_cons_self .., hp⟩
        · obtain ⟨x', hx', hp'⟩ := hrows y' (by simpa using hy')
          exact ⟨x', List.mem_cons_of_mem _ hx', hp'⟩
      · intro x' hx'
        exact (hall x' hx').imp_right fun ⟨y', hy', hp'⟩ => ⟨y', List.mem_cons_of_mem _ hy', hp'⟩

lemma content_original (hdescribes : Describes p base item) : (contentOf (original base item)).map p.hash = item.previousHash := by
  rw [(hashes_of hdescribes).2.1]
  unfold original
  cases contentOf (node base item.path) <;> rfl

lemma content_staged (hdescribes : Describes p base item) : (contentOf (staged p item)).map p.hash = item.newHash := by
  rw [(hashes_of hdescribes).1]
  unfold staged
  cases contentOf (p.stage item.path) <;> rfl

lemma recoveryTarget_undo (hready : Ready p base start) (h : Sides p base start w.disk) (hitem : item ∈ p.changedFiles)
    (hstage : w.stageThere = true) :
    recoveryTarget p w .undo item = some none ∧ node w.disk item.path = staged p item ∨
      ∃ target, recoveryTarget p w .undo item = some (some target) ∧ target = (item.path, contentOf (p.stage item.path)) := by
  obtain ⟨hsafe, hdescribes⟩ := hready.files item hitem
  obtain ⟨hnew, -, hne⟩ := hashes_of hdescribes
  have hdir := h.not_directory hitem
  rcases h.sides item hitem with hnode | hnode
  · refine .inl ⟨?_, hnode⟩
    simp [recoveryTarget, hsafe, hdir, hnode ▸ content_staged hdescribes, Operation.desired]
  · refine .inr ⟨_, ?_, rfl⟩
    have hactual : (contentOf (node w.disk item.path)).map p.hash = item.previousHash := hnode ▸ content_original hdescribes
    unfold recoveryTarget
    simp only [hactual, hsafe, hdir, decide_false, Bool.not_true, Bool.or_false, Bool.false_eq_true, if_false, Operation.desired,
      Operation.opposite, recoverySource, hstage, if_true, Ne.symm hne, ne_eq, not_true_eq_false]
    cases hcontent : contentOf (p.stage item.path) with
    | none => simp [hnew, hcontent]
    | some content => simp [hnew, hcontent]

lemma recoverFiles_ok (hready : Ready p base start) (hfault : ∀ place, fault ≠ some (.recovery place))
    {targets : List (Path × Option Bytes)} (h : Sides p base start disk)
    (htargets : ∀ target ∈ targets, ∃ item ∈ p.changedFiles, target = (item.path, contentOf (p.stage item.path))) :
    ∃ disk', recoverFiles fault disk targets = .ok disk' ∧ Sides p base start disk' ∧
      (∀ item ∈ p.changedFiles, node disk item.path = staged p item → node disk' item.path = staged p item) ∧
      ∀ item ∈ p.changedFiles, (item.path, contentOf (p.stage item.path)) ∈ targets → node disk' item.path = staged p item := by
  induction targets generalizing disk with
  | nil => exact ⟨disk, rfl, h, fun _ _ hnode => hnode, by simp⟩
  | cons target targets ih =>
    obtain ⟨⟨item, hitem, rfl⟩, hrest⟩ := List.forall_mem_cons.mp htargets
    obtain ⟨made, hput, hplaced⟩ := @put_ok fault (fun touch => .recovery (.file item.path touch)) disk item.path
      (contentOf (p.stage item.path)) (fun touch => hfault _) (hready.ne_nil hitem)
      (fun dir hdir hne => h.above hready hitem hdir hne) (h.not_directory hitem)
    have hmade : Sides p base start made := h.touch hready hitem hplaced.touched (.inl rfl)
    obtain ⟨disk', hfiles, hsides, hkeeps, hdone⟩ := ih hmade hrest
    refine ⟨disk', by simp only [recoverFiles, hput, hfiles], hsides, fun x hx hnode => ?_, fun x hx hmem => ?_⟩
    · apply hkeeps x hx
      by_cases hne : x.path = item.path
      · obtain rfl : x = item := List.inj_on_of_nodup_map hready.paths hx hitem hne
        exact hplaced.2
      · rw [Sides.unchanged hready hitem hplaced.1 hx hne]
        exact hnode
    · rcases List.mem_cons.mp hmem with hsame | hmem
      · obtain rfl : x = item := List.inj_on_of_nodup_map hready.paths hx hitem (congrArg Prod.fst hsame)
        exact hkeeps x hx hplaced.2
      · exact hdone x hx hmem

lemma finishPublish_ok {at' : Place → Step} (hclose : fault ≠ some (at' .close)) (hsync : fault ≠ some (at' .closeSync)) (w : World) :
    finishPublish fault at' w = .ok { w with journal := none } := by
  simp [finishPublish, hclose, hsync]

lemma mark_ok {at' : Part → Step} (hfault : ∀ part, fault ≠ some (at' part)) (w : World) (status : Standing) :
    mark fault at' w status = .ok { w with stored := status, known := status } := by
  simp [mark, replaces_ok hfault]

lemma recover_undo (hready : Ready p base start) (hfault : ∀ place, fault ≠ some (.recovery place)) (h : Sides p base start w.disk)
    (hjournal : w.journal = some .undo) (hknown : w.known = .applied) (hstage : w.stageThere = true) :
    ∃ disk', recoverPublish p fault w = .ok { w with disk := disk', journal := none, stored := .applied, known := .applied } ∧
      Sides p base start disk' ∧ ∀ item ∈ p.changedFiles, node disk' item.path = staged p item := by
  obtain ⟨found, hfound, hrows, hall⟩ := mapM_targets fun item hitem => recoveryTarget_undo hready h hitem hstage
  obtain ⟨disk', hfiles, hsides, hkeeps, hdone⟩ := recoverFiles_ok hready hfault h hrows
  refine ⟨disk', ?_, hsides, fun item hitem => ?_⟩
  · have hopen : w.known ≠ Operation.undo.committed := by simp [hknown, Operation.committed]
    have htried : tryRecover p fault w = .ok { w with disk := disk', journal := none, stored := .applied, known := .applied } := by
      simp only [tryRecover, hjournal, hfault, if_false, hopen, hstage, Bool.not_true, Bool.false_eq_true, hfound, hfiles]
      rw [mark_ok fun part => hfault _]
      simp only
      rw [finishPublish_ok (hfault _) (hfault _)]
      rfl
    simp [recoverPublish, htried]
  · rcases hall item hitem with hnode | ⟨target, htarget, rfl⟩
    · exact hkeeps item hitem hnode
    · exact hdone item hitem htarget

end PromptForge.ChangeSetUndo
