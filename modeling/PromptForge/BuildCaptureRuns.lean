import PromptForge.BuildCaptureLaws
import PromptForge.FixedRecords
import PromptForge.Utf8

namespace PromptForge.BuildCapture
open Runs Tables

variable {p : Host} {reads : Bytes → Prop} {s : State}

def contentOf : Option Node → Option Bytes
  | some (.file content _) => some content
  | _ => none

variable {data : Bytes}

lemma contentOf_regular {o : Option Node} (h : contentOf o = some data) : isRegular o = true := by
  unfold contentOf at h
  split at h
  · rfl
  · cases h

def Done (s : State) (path : Path) : Prop :=
  if s.second then path ∈ s.after.map Prod.fst else path ∈ s.captured.map Copy.path

structure ClearCursor (c : Cursor) : Prop where
  dir : Clear c.dir
  folders : ∀ name ∈ c.folders, isExcluded name = false
  stack : ∀ dir ∈ c.stack, Clear dir

def ClearPhase : Phase → Prop
  | .visiting stack => ∀ dir ∈ stack, Clear dir
  | .scanning dir stack _ => Clear dir ∧ ∀ d ∈ stack, Clear d
  | .checking _ c | .naming c | .filing _ c => ClearCursor c
  | .sizing path c | .opening path c | .reading path _ _ _ c => Clear path.dropLast ∧ ClearCursor c
  | .starting | .yielded _ | .failed _ => True

def Read (s : State) : Prop :=
  match s.phase with
  | .sizing _ _ => s.second = false
  | .opening path _ => s.second = true → path ∈ s.captured.map Copy.path
  | .reading path _ stamp dirty _ =>
    (s.second = true → path ∈ s.captured.map Copy.path) ∧
      if dirty then path ∈ s.changed else ∃ content, node s.disk path = some (.file content stamp)
  | _ => True

structure FirstPass (s : State) : Prop where
  after : s.after = []
  earlier : s.earlier = []
  copied : ∀ copy ∈ s.captured, copy.path ∉ s.changed → contentOf (node s.disk copy.path) = some copy.data

structure SecondPass (p : Host) (reads : Bytes → Prop) (s : State) : Prop where
  copied : ∀ copy ∈ s.captured, copy.path ∉ s.earlier → contentOf (node s.base copy.path) = some copy.data
  complete : ∀ path, isRegular (node s.base path) = true → ¬ Excluded path → path ∉ s.earlier → path ∈ s.captured.map Copy.path
  known : ∀ entry ∈ s.after, entry.1 ∈ s.captured.map Copy.path
  compared : ∀ entry ∈ s.after, entry.1 ∉ s.changed →
    ∃ data, reads data ∧ contentOf (node s.disk entry.1) = some data ∧ entry.2 = p.sha256 data

structure Inv (p : Host) (reads : Bytes → Prop) (s : State) : Prop where
  tree : isTree s.disk = true
  same : ∀ path, path ∉ s.changed → isRegular (node s.base path) = true ∨ isRegular (node s.disk path) = true →
    node s.disk path = node s.base path
  clear : ClearPhase s.phase
  walk : ∀ path, isRegular (node s.base path) = true → path ∉ s.changed → ¬ Excluded path → Coming s.phase path ∨ Done s path
  read : Read s
  copies : ∀ copy ∈ s.captured, ¬ Excluded copy.path ∧ reads copy.data
  once : (s.captured.map Copy.path).Nodup
  first : s.second = false → FirstPass s
  second : s.second = true → SecondPass p reads s

variable {disk : Disk}

lemma inv_initial (htree : isTree disk = true) : Inv p reads (.initial disk) where
  tree := htree
  same := fun _ _ _ => rfl
  clear := trivial
  walk := fun _ _ _ _ => .inl trivial
  read := trivial
  copies := fun _ h => (List.not_mem_nil h).elim
  once := List.nodup_nil
  first := fun _ => ⟨rfl, rfl, fun _ h => (List.not_mem_nil h).elim⟩
  second := nofun

lemma Inv.go (h : Inv p reads s) (phase : Phase) (hclear : ClearPhase phase)
    (hwalk : ∀ path, isRegular (node s.disk path) = true → ¬ Excluded path → Coming s.phase path → Coming phase path ∨ Done s path)
    (hread : Read { s with phase }) : Inv p reads { s with phase } where
  tree := h.tree
  same := h.same
  clear := hclear
  walk := by
    intro path hfile hchanged hexcluded
    rcases h.walk path hfile hchanged hexcluded with hcoming | hdone
    · refine hwalk path ?_ hexcluded hcoming
      rw [h.same path hchanged (.inl hfile)]
      exact hfile
    · exact .inr hdone
  read := hread
  copies := h.copies
  once := h.once
  first := fun hsecond => ⟨(h.first hsecond).after, (h.first hsecond).earlier, (h.first hsecond).copied⟩
  second := fun hsecond =>
    ⟨(h.second hsecond).copied, (h.second hsecond).complete, (h.second hsecond).known, (h.second hsecond).compared⟩

lemma Inv.stay (h : Inv p reads s) {phase : Phase} (hclear : ClearPhase phase) (hcoming : ∀ path, Coming s.phase path → Coming phase path)
    (hread : Read { s with phase }) : Inv p reads { s with phase } :=
  h.go phase hclear (fun path _ _ hpath => .inl (hcoming path hpath)) hread

lemma Inv.raise (h : Inv p reads s) (error : Refusal) : Inv p reads (raise s error).2 :=
  h.go (.failed error) trivial (fun _ _ _ _ => .inl trivial) trivial

lemma inv_change (h : Inv p reads s) (changes : List (Path × Option Node)) : Inv p reads (change s changes).2 := by
  unfold change
  simp only
  split
  · rename_i htree
    have hnew : ∀ path, path ∉ s.changed ++ filesChanged s.disk changes → path ∉ s.changed ∧ path ∉ filesChanged s.disk changes := by
      intro path hpath
      simpa [not_or] using hpath
    have hsame : ∀ path, path ∉ s.changed ++ filesChanged s.disk changes →
        isRegular (node s.base path) = true ∨ isRegular (node (edits s.disk changes) path) = true →
        node (edits s.disk changes) path = node s.disk path ∧ node s.disk path = node s.base path := by
      intro path hpath hfile
      obtain ⟨hold, hedit⟩ := hnew path hpath
      rcases hfile with hfile | hfile
      · have hbase := h.same path hold (.inl hfile)
        exact ⟨node_edits hedit (.inl (by rwa [hbase])), hbase⟩
      · have hdisk := node_edits hedit (.inr hfile)
        rw [hdisk] at hfile
        exact ⟨hdisk, h.same path hold (.inr hfile)⟩
    have hkeep : ∀ path data, path ∉ s.changed ++ filesChanged s.disk changes → contentOf (node s.disk path) = some data →
        contentOf (node (edits s.disk changes) path) = some data := by
      intro path data hpath hcontent
      rw [node_edits (hnew path hpath).2 (.inl (contentOf_regular hcontent))]
      exact hcontent
    refine ⟨htree, fun path hpath hfile => ?_, ?_, fun path hfile hpath hexcluded => ?_, ?_, h.copies, h.once, fun hsecond => ?_,
      fun hsecond => ?_⟩
    · obtain ⟨hdisk, hbase⟩ := hsame path hpath hfile
      exact hdisk.trans hbase
    · have hclear := h.clear
      cases hphase : s.phase <;> simp only [hphase] at hclear <;> exact hclear
    · obtain ⟨hdisk, hbase⟩ := hsame path hpath (.inl hfile)
      refine (h.walk path hfile (hnew path hpath).1 hexcluded).imp_left fun hcoming => ?_
      refine coming_disturbed htree ?_ hcoming
      rwa [hdisk, hbase]
    · have hread := h.read
      unfold Read at hread ⊢
      cases hphase : s.phase with
      | sizing path c | opening path c =>
        simp only [hphase] at hread
        exact hread
      | reading path size stamp dirty c =>
        simp only [hphase] at hread
        simp only [disturbed]
        refine ⟨hread.1, ?_⟩
        cases dirty with
        | true => exact List.mem_append_left _ hread.2
        | false =>
          obtain ⟨content, hcontent⟩ : ∃ content, node s.disk path = some (.file content stamp) := hread.2
          by_cases hpath : path ∈ changes.map Prod.fst
          · simp only [hpath, decide_true, Bool.or_true, if_true]
            exact List.mem_append_right _ (mem_filesChanged hpath (by rw [hcontent]; rfl))
          · simp only [hpath, decide_false, Bool.or_false]
            exact ⟨content, (node_of_not_edited hpath).trans hcontent⟩
      | _ => trivial
    · have hfirst := h.first hsecond
      exact ⟨hfirst.after, hfirst.earlier, fun copy hcopy hpath => hkeep _ _ hpath (hfirst.copied copy hcopy (hnew _ hpath).1)⟩
    · have hpass := h.second hsecond
      refine ⟨hpass.copied, hpass.complete, hpass.known, fun entry hentry hpath => ?_⟩
      obtain ⟨data, hreads, hcontent, hhash⟩ := hpass.compared entry hentry (hnew _ hpath).1
      exact ⟨data, hreads, hkeep _ _ hpath hcontent, hhash⟩
  · exact h

lemma Inv.recount (h : Inv p reads s) (count : ℕ) : Inv p reads { s with count } where
  tree := h.tree
  same := h.same
  clear := h.clear
  walk := h.walk
  read := h.read
  copies := h.copies
  once := h.once
  first := fun hsecond => ⟨(h.first hsecond).after, (h.first hsecond).earlier, (h.first hsecond).copied⟩
  second := fun hsecond =>
    ⟨(h.second hsecond).copied, (h.second hsecond).complete, (h.second hsecond).known, (h.second hsecond).compared⟩

variable {path : Path}

lemma below_root (h : isRegular (node disk path) = true) : Coming (.visiting [[]]) path := by
  refine ⟨[], List.mem_singleton_self _, ?_⟩
  cases path with
  | nil => exact absurd rfl (regular_ne_nil h)
  | cons name rest => exact ⟨name, rest, rfl⟩

lemma clear_root : ClearPhase (.visiting [[]]) := by
  intro dir hdir
  rw [List.mem_singleton.mp hdir]
  exact fun _ h => (List.not_mem_nil h).elim

lemma clear_append {dir : Path} {name : Name} (hdir : Clear dir) (hname : isExcluded name = false) : Clear (dir ++ [name]) := by
  intro other hother
  rcases mem_concat.1 hother with hother | rfl
  · exact hdir other hother
  · exact hname

variable {c : Cursor}

lemma clear_descend (h : ClearCursor c) : ∀ dir ∈ descend disk c, Clear dir := by
  intro dir hdir
  rcases List.mem_append.mp hdir with hdir | hdir
  · obtain ⟨name, hname, rfl⟩ := List.mem_map.mp (List.mem_filter.mp hdir).1
    exact clear_append h.dir (h.folders name hname)
  · exact h.stack dir hdir

lemma not_excluded_of_clear (h : Clear path.dropLast) : ¬ Excluded path := by
  rintro ⟨name, hname, hexcluded⟩
  rw [h name hname] at hexcluded
  cases hexcluded

lemma checkedPath_ok {link : Refusal} {n : Node} (h : checkedPath disk path link = .ok n) :
    node disk path = some n := by
  unfold checkedPath at h
  split at h
  · cases h
  · split at h
    · cases h
      assumption
    · cases h

lemma mem_captured (h : (copyOf s path).isNone = false) : path ∈ s.captured.map Copy.path := by
  unfold copyOf at h
  rw [Option.isNone_eq_false_iff, Option.isSome_iff_exists] at h
  obtain ⟨copy, hcopy⟩ := h
  have hkey : copy.path = path := lookup_key hcopy
  exact hkey ▸ List.mem_map_of_mem (lookup_mem hcopy)

lemma inv_finish (h : Inv p reads s) (hphase : s.phase = .visiting []) : Inv p reads (finish p s).2 := by
  unfold finish
  split
  · split
    · exact h.go (.yielded _) trivial (fun _ _ _ _ => .inl trivial) trivial
    · exact h.raise _
  · rename_i hsecond
    rw [Bool.not_eq_true] at hsecond
    have hfirst := h.first hsecond
    refine ⟨h.tree, fun _ _ _ => rfl, clear_root, fun path hfile _ _ => .inl (below_root hfile), trivial, h.copies, h.once, nofun,
      fun _ => ⟨fun copy hcopy hpath => hfirst.copied copy hcopy hpath, fun path hfile hexcluded hpath => ?_, ?_, ?_⟩⟩
    · have hbase := h.same path hpath (.inr hfile)
      change isRegular (node s.disk path) = true at hfile
      rw [hbase] at hfile
      rcases h.walk path hfile hpath hexcluded with hcoming | hdone
      · rw [hphase] at hcoming
        obtain ⟨dir, hdir, -⟩ := hcoming
        cases hdir
      · simpa [Done, hsecond] using hdone
    · intro entry hentry
      change entry ∈ s.after at hentry
      rw [hfirst.after] at hentry
      cases hentry
    · intro entry hentry
      change entry ∈ s.after at hentry
      rw [hfirst.after] at hentry
      cases hentry

lemma inv_found (h : Inv p reads s) (hclear : Clear path.dropLast ∧ ClearCursor c)
    (hwalk : ∀ g, isRegular (node s.disk g) = true → ¬ Excluded g → Coming s.phase g → g = path ∨ ComingCursor c g) :
    Inv p reads (found s path c).2 := by
  unfold found
  split
  · split
    · exact h.raise _
    · rename_i hcopy
      rw [Bool.not_eq_true] at hcopy
      refine h.go (.opening path c) hclear (fun g hfile hg hcoming => .inl (hwalk g hfile hg hcoming)) ?_
      exact fun _ => mem_captured hcopy
  · split
    · exact h.raise _
    · rename_i hsecond _
      rw [Bool.not_eq_true] at hsecond
      exact (h.recount (s.count + 1)).go (.sizing path c) hclear (fun g hfile hg hcoming => .inl (hwalk g hfile hg hcoming)) hsecond

lemma inv_next (h : Inv p reads s) : Inv p reads (next p s).2 := by
  have hclear := h.clear
  have hread := h.read
  unfold next
  split
  · split
    · exact h.go _ clear_root (fun path hfile _ _ => .inl (below_root hfile)) trivial
    · exact h.go _ clear_root (fun path hfile _ _ => .inl (below_root hfile)) trivial
    · exact h.raise _
  · exact inv_finish h ‹_›
  · rename_i dir stack hphase
    simp only [hphase, ClearPhase, List.forall_mem_cons] at hclear
    split
    · refine h.go _ hclear (fun path hfile _ hcoming => .inl ?_) trivial
      exact coming_scanning h.tree hfile (hphase ▸ hcoming)
    · rename_i hgone
      refine h.go _ hclear.2 (fun path hfile _ hcoming => .inl ?_) trivial
      rw [hphase] at hcoming
      obtain ⟨content, stamp, hnode⟩ := regular_some hfile
      obtain ⟨d, hd, hbelow⟩ := hcoming
      rcases List.mem_cons.mp hd with rfl | hd
      · exact absurd (ancestor_directory h.tree hbelow hnode) hgone
      · exact ⟨d, hd, hbelow⟩
  · rename_i dir stack missing hphase
    simp only [hphase, ClearPhase] at hclear
    split
    · exact h
    · rename_i hgone
      refine h.go _ hclear.2 (fun path hfile _ hcoming => .inl ?_) trivial
      rw [hphase] at hcoming
      obtain ⟨content, stamp, hnode⟩ := regular_some hfile
      rcases hcoming with ⟨name, rest, hpath, -⟩ | hstack
      · exact absurd (ancestor_directory h.tree ⟨name, rest, hpath⟩ hnode) hgone
      · exact hstack
  · rename_i path checks c hphase
    simp only [hphase, ClearPhase] at hclear
    split
    · exact h.stay hclear (fun g hcoming => by rwa [hphase] at hcoming) trivial
    · exact h.raise _
  · rename_i c hphase
    simp only [hphase, ClearPhase] at hclear
    exact h.stay hclear (fun g hcoming => by rwa [hphase] at hcoming) trivial
  · rename_i dir folders name files stack hphase
    simp only [hphase, ClearPhase] at hclear
    split
    · refine h.go _ ⟨hclear.dir, hclear.folders, hclear.stack⟩ (fun g _ _ hcoming => .inl ?_) trivial
      rw [hphase] at hcoming
      rcases hcoming with ⟨other, hother, rfl⟩ | hrest
      · rcases List.mem_cons.mp hother with rfl | hother
        · exact .inl rfl
        · exact .inr (.inl ⟨other, hother, rfl⟩)
      · exact .inr (.inr hrest)
    · exact h.raise _
  · rename_i dir folders stack hphase
    simp only [hphase, ClearPhase] at hclear
    refine h.go _ (clear_descend hclear) (fun g hfile _ hcoming => .inl ?_) trivial
    rw [hphase] at hcoming
    obtain ⟨content, stamp, hnode⟩ := regular_some hfile
    exact coming_descend h.tree hnode hcoming
  · rename_i name c hphase
    simp only [hphase, ClearPhase] at hclear
    split
    · refine inv_found h ⟨by simpa using hclear.dir, hclear⟩ fun g _ _ hcoming => ?_
      rw [hphase] at hcoming
      exact hcoming
    · rename_i hgone
      refine h.go _ hclear (fun g hfile _ hcoming => .inl ?_) trivial
      rw [hphase] at hcoming
      exact hcoming.resolve_left fun hg => hgone (hg ▸ hfile)
  · rename_i path c hphase
    simp only [hphase, ClearPhase] at hclear
    split
    · split
      · exact h.raise _
      · have hsecond : s.second = false := by
          unfold Read at hread
          simpa only [hphase] using hread
        refine h.stay hclear (fun g hcoming => by rwa [hphase] at hcoming) fun htrue => ?_
        change s.second = true at htrue
        rw [hsecond] at htrue
        cases htrue
    · exact h.raise _
  · rename_i path c hphase
    simp only [hphase, ClearPhase] at hclear
    split
    · rename_i content stamp hok
      split
      · exact h.raise _
      · have hknown : s.second = true → path ∈ s.captured.map Copy.path := by
          unfold Read at hread
          simpa only [hphase] using hread
        refine h.stay hclear (fun g hcoming => by rwa [hphase] at hcoming) ⟨hknown, ?_⟩
        exact ⟨content, checkedPath_ok hok⟩
    · exact h.raise _
    · exact h.raise _
  · exact h
  · exact h
  · exact h

lemma inv_listed (h : Inv p reads s) (subdirectories filenames : List Name) :
    Inv p reads (listed s subdirectories filenames).2 := by
  have hclear := h.clear
  unfold listed
  split
  · rename_i dir stack missing hphase
    simp only [hphase, ClearPhase] at hclear
    split
    · rename_i hall
      refine h.go _ ⟨hclear.1, fun name hname => ?_, hclear.2⟩ (fun path _ hexcluded hcoming => .inl ?_) trivial
      · simpa using (List.mem_filter.mp hname).2
      · rw [hphase] at hcoming
        refine coming_listed hcoming hexcluded (fun entry hentry => ?_) _
        exact of_decide_eq_true (List.all_eq_true.mp hall entry hentry)
    · exact h
  · exact h

lemma inv_keep (h : Inv p reads s) (hreads : reads data)
    (hclear : Clear path.dropLast ∧ ClearCursor c) (hknown : s.second = true → path ∈ s.captured.map Copy.path)
    (hdata : path ∉ s.changed → contentOf (node s.disk path) = some data)
    (hwalk : ∀ g, Coming s.phase g → g = path ∨ ComingCursor c g) : Inv p reads (keep p s path data c).2 := by
  unfold keep
  split
  · rename_i hsecond
    have hpass := h.second hsecond
    have hkeys : ∀ g, g ∈ s.after.map Prod.fst ∨ g = path → g ∈ (replaceRow Prod.fst (path, p.sha256 data) s.after).map Prod.fst := by
      intro g hg
      by_cases hpath : g = path
      · exact List.mem_map.mpr ⟨(path, p.sha256 data), List.mem_append_right _ (List.mem_singleton_self _), hpath.symm⟩
      · obtain ⟨entry, hentry, rfl⟩ := List.mem_map.mp (hg.resolve_right hpath)
        exact List.mem_map.mpr ⟨entry, List.mem_append_left _ (List.mem_filter.mpr ⟨hentry, decide_eq_true hpath⟩), rfl⟩
    have hentries : ∀ entry ∈ replaceRow Prod.fst (path, p.sha256 data) s.after, entry ∈ s.after ∨ entry = (path, p.sha256 data) := by
      intro entry hentry
      rcases List.mem_append.mp hentry with hentry | hentry
      · exact .inl (List.mem_filter.mp hentry).1
      · exact .inr (List.mem_singleton.mp hentry)
    refine ⟨h.tree, h.same, hclear.2, fun g hfile hchanged hexcluded => ?_, trivial, h.copies, h.once, ?_, fun _ => ⟨hpass.copied, hpass.complete, ?_, ?_⟩⟩
    · simp only [Done, hsecond, if_true]
      rcases h.walk g hfile hchanged hexcluded with hcoming | hdone
      · rcases hwalk g hcoming with rfl | hcursor
        · exact .inr (hkeys _ (.inr rfl))
        · exact .inl hcursor
      · simp only [Done, hsecond, if_true] at hdone
        exact .inr (hkeys g (.inl hdone))
    · intro hfirst
      change s.second = false at hfirst
      rw [hsecond] at hfirst
      cases hfirst
    · intro entry hentry
      rcases hentries entry hentry with hentry | rfl
      · exact hpass.known entry hentry
      · exact hknown hsecond
    · intro entry hentry hchanged
      rcases hentries entry hentry with hentry | rfl
      · exact hpass.compared entry hentry hchanged
      · exact ⟨data, hreads, hdata hchanged, rfl⟩
  · rename_i hsecond
    rw [Bool.not_eq_true] at hsecond
    have hpass := h.first hsecond
    split
    · exact h.raise _
    · rename_i hnew
      have hfresh : path ∉ s.captured.map Copy.path := by
        intro hmem
        obtain ⟨copy, hcopy, hpath⟩ := List.mem_map.mp hmem
        rw [Bool.not_eq_true, Option.isSome_eq_false_iff, Option.isNone_iff_eq_none] at hnew
        exact lookup_eq_none.mp hnew copy hcopy hpath
      refine ⟨h.tree, h.same, hclear.2, fun g hfile hchanged hexcluded => ?_, trivial, ?_, ?_, fun _ => ⟨hpass.after, hpass.earlier, ?_⟩, ?_⟩
      · simp only [Done, hsecond, Bool.false_eq_true, if_false, List.map_append, List.mem_append]
        rcases h.walk g hfile hchanged hexcluded with hcoming | hdone
        · rcases hwalk g hcoming with rfl | hcursor
          · exact .inr (.inr (List.mem_singleton_self _))
          · exact .inl hcursor
        · simp only [Done, hsecond, Bool.false_eq_true, if_false] at hdone
          exact .inr (.inl hdone)
      · intro copy hcopy
        rcases mem_concat.1 hcopy with hcopy | rfl
        · exact h.copies copy hcopy
        · exact ⟨not_excluded_of_clear hclear.1, hreads⟩
      · rw [List.map_append, List.nodup_append]
        refine ⟨h.once, List.nodup_singleton _, fun a ha b hb hab => hfresh ?_⟩
        rw [List.map_singleton, List.mem_singleton] at hb
        obtain rfl : a = path := hab.trans hb
        exact ha
      · intro copy hcopy hchanged
        rcases List.mem_append.mp hcopy with hcopy | hcopy
        · exact hpass.copied copy hcopy hchanged
        · rw [List.mem_singleton.mp hcopy] at hchanged ⊢
          exact hdata hchanged
      · intro htrue
        change s.second = true at htrue
        rw [hsecond] at htrue
        cases htrue

lemma inv_read (h : Inv p reads s) (hreads : reads data) : Inv p reads (read p s data).2 := by
  have hclear := h.clear
  have hread := h.read
  unfold read
  split
  · rename_i path size stamp dirty c hphase
    simp only [hphase, ClearPhase] at hclear
    unfold Read at hread
    simp only [hphase] at hread
    split
    · exact h
    · rename_i hguard
      split
      · exact h.raise _
      · split
        · split
          · refine inv_keep h hreads hclear hread.1 (fun hchanged => ?_) fun g hcoming => by rw [hphase] at hcoming; exact hcoming
            cases dirty with
            | true => exact absurd hread.2 hchanged
            | false =>
              have hnode : node s.disk path = some (.file data stamp) := by simpa using hguard
              rw [hnode]
              rfl
          · exact h.raise _
        · exact h.raise _
        · exact h.raise _
  · exact h

lemma inv_step (a : Action) (h : Inv p reads s) (hreads : ∀ data, a = .read data → reads data) : Inv p reads (step p s a).2 := by
  cases a with
  | change changes => exact inv_change h changes
  | next => exact inv_next h
  | listed subdirectories filenames => exact inv_listed h subdirectories filenames
  | read data => exact inv_read h (hreads data rfl)
  | fault =>
    simp only [step, fault]
    split
    · exact h
    · exact h
    · exact h
    · exact h.raise _

lemma found_not_snapshot (snapshot : BuildSourceSnapshot) : (found s path c).1 ≠ .snapshot snapshot := by
  unfold found
  split
  · split <;> exact nofun
  · split <;> exact nofun

lemma next_snapshot {snapshot : BuildSourceSnapshot} (h : (next p s).1 = .snapshot snapshot) :
    s.phase = .visiting [] ∧ s.second = true ∧ confirmed p s = true ∧ snapshot = snapshotOf p s := by
  unfold next at h
  split at h
  · split at h <;> cases h
  · rename_i hphase
    unfold finish at h
    split at h
    · rename_i hsecond
      split at h
      · rename_i hconfirmed
        cases h
        exact ⟨hphase, hsecond, hconfirmed, rfl⟩
      · cases h
    · cases h
  · split at h <;> cases h
  · split at h <;> cases h
  · split at h <;> cases h
  · cases h
  · split at h <;> cases h
  · cases h
  · split at h
    · exact (found_not_snapshot snapshot h).elim
    · cases h
  · split at h
    · split at h <;> cases h
    · cases h
  · split at h
    · split at h <;> cases h
    · cases h
    · cases h
  · cases h
  · cases h
  · cases h

def Rebased (s s' : State) : Prop := (s'.second = s.second ∧ s'.base = s.base) ∨ s'.disk = s'.base

lemma rebased_found (path : Path) (c : Cursor) : Rebased s (found s path c).2 := by
  unfold found
  split
  · split <;> exact .inl ⟨rfl, rfl⟩
  · split <;> exact .inl ⟨rfl, rfl⟩

lemma rebased_next : Rebased s (next p s).2 := by
  have hsame : ∀ phase, Rebased s { s with phase } := fun _ => .inl ⟨rfl, rfl⟩
  unfold next
  split
  · split <;> exact hsame _
  · unfold finish
    split
    · split <;> exact hsame _
    · exact .inr rfl
  · split <;> exact hsame _
  · split
    · exact .inl ⟨rfl, rfl⟩
    · exact hsame _
  · split <;> exact hsame _
  · exact hsame _
  · split <;> exact hsame _
  · exact hsame _
  · split
    · exact rebased_found _ _
    · exact hsame _
  · split
    · split <;> exact hsame _
    · exact hsame _
  · split
    · split <;> exact hsame _
    · exact hsame _
    · exact hsame _
  · exact .inl ⟨rfl, rfl⟩
  · exact .inl ⟨rfl, rfl⟩
  · exact .inl ⟨rfl, rfl⟩

lemma rebased_read (data : Bytes) : Rebased s (read p s data).2 := by
  have hsame : Rebased s s := .inl ⟨rfl, rfl⟩
  have hraise : ∀ error, Rebased s (raise s error).2 := fun _ => .inl ⟨rfl, rfl⟩
  unfold read
  split
  · split
    · exact hsame
    · split
      · exact hraise _
      · split
        · split
          · unfold keep
            split
            · exact .inl ⟨rfl, rfl⟩
            · split <;> exact .inl ⟨rfl, rfl⟩
          · exact hraise _
        · exact hraise _
        · exact hraise _
  · exact hsame

lemma rebased_step (a : Action) : Rebased s (step p s a).2 := by
  cases a with
  | change changes =>
    simp only [step, change]
    split <;> exact .inl ⟨rfl, rfl⟩
  | next => exact rebased_next
  | listed subdirectories filenames =>
    simp only [step, listed]
    split
    · split <;> exact .inl ⟨rfl, rfl⟩
    · exact .inl ⟨rfl, rfl⟩
  | read data => exact rebased_read data
  | fault =>
    simp only [step, fault]
    split <;> exact .inl ⟨rfl, rfl⟩

def BaseReached (es : List (Entry State Action Outcome)) (s : State) : Prop :=
  s.second = true → ∃ e ∈ es, e.after.disk = s.base

lemma base_reached (disk : Disk) (actions : List Action) :
    BaseReached (trace (step p) (.initial disk) actions) (final (step p) (.initial disk) actions) := by
  refine @history_of _ _ _ (step p) BaseReached (fun _ => True) (fun es s a hs _ hafter => ?_) _ actions nofun fun _ _ => trivial
  rcases @rebased_step p s a with ⟨hsame, hbase⟩ | hbase
  · obtain ⟨e, he, hdisk⟩ := hs (hsame ▸ hafter)
    exact ⟨e, List.mem_append_left _ he, hdisk.trans hbase.symm⟩
  · exact ⟨_, List.mem_append_right _ (List.mem_singleton_self _), hbase⟩

lemma copies_iff (h : Inv p reads s) (hphase : s.phase = .visiting []) (hsecond : s.second = true)
    (hconfirmed : confirmed p s = true) (honce : (s.earlier ++ s.changed).Nodup)
    (hdigest : ∀ data data', reads data → reads data' → p.sha256 data = p.sha256 data' → data = data') (path : Path) (data : Bytes) :
    ⟨path, data⟩ ∈ s.captured ↔ ¬ Excluded path ∧ contentOf (node s.base path) = some data := by
  have hpass := h.second hsecond
  have hall : ∀ copy ∈ s.captured, (copy.path, p.sha256 copy.data) ∈ s.after := by
    simp only [confirmed, Bool.and_eq_true, List.all_eq_true, decide_eq_true_eq] at hconfirmed
    exact hconfirmed.2
  -- a file that was changed before the second pass is read in it as it is
  have hlate : ∀ copy ∈ s.captured, copy.path ∈ s.earlier → contentOf (node s.base copy.path) = some copy.data := by
    intro copy hcopy hearlier
    have hstable : copy.path ∉ s.changed := fun hchanged =>
      (List.nodup_append.mp honce).2.2 _ hearlier _ hchanged rfl
    obtain ⟨data', hreads, hcontent, hhash⟩ := hpass.compared _ (hall copy hcopy) hstable
    obtain rfl := hdigest _ _ (h.copies copy hcopy).2 hreads hhash
    rw [← h.same _ hstable (.inr (contentOf_regular hcontent))]
    exact hcontent
  have hcopied : ∀ copy ∈ s.captured, contentOf (node s.base copy.path) = some copy.data := fun copy hcopy =>
    (Classical.em (copy.path ∈ s.earlier)).elim (hlate copy hcopy) (hpass.copied copy hcopy)
  constructor
  · intro hmem
    exact ⟨(h.copies _ hmem).1, hcopied _ hmem⟩
  · rintro ⟨hexcluded, hcontent⟩
    have hfile := contentOf_regular hcontent
    have hmem : path ∈ s.captured.map Copy.path := by
      by_cases hearlier : path ∈ s.earlier
      · have hstable : path ∉ s.changed := fun hchanged => (List.nodup_append.mp honce).2.2 _ hearlier _ hchanged rfl
        rcases h.walk path hfile hstable hexcluded with hcoming | hdone
        · rw [hphase] at hcoming
          obtain ⟨dir, hdir, -⟩ := hcoming
          cases hdir
        · simp only [Done, hsecond, if_true] at hdone
          obtain ⟨entry, hentry, rfl⟩ := List.mem_map.mp hdone
          exact hpass.known entry hentry
      · exact hpass.complete path hfile hexcluded hearlier
    obtain ⟨copy, hcopy, rfl⟩ := List.mem_map.mp hmem
    obtain rfl : copy.data = data := Option.some.inj ((hcopied copy hcopy).symm.trans hcontent)
    exact hcopy

lemma encode_eq (text : String) : encode text = Utf8.encode text.toList := by
  unfold encode
  have htext : text.toUTF8 = text.toList.utf8Encode := String.utf8Encode_toList.symm
  rw [htext, List.utf8Encode]
  simp [Utf8.encode]

lemma encode_inj {a b : String} (h : encode a = encode b) : a = b := by
  rw [encode_eq, encode_eq] at h
  exact String.toList_injective (Utf8.encode_inj h)

lemma name_ok (name : Name) : name.text ≠ "" ∧ '/' ∉ name.text.toList ∧ '\x00' ∉ name.text.toList :=
  of_decide_eq_true name.isName

lemma mem_asPosix {c : Char} (h : c ∈ (asPosix path).toList) : c = '/' ∨ ∃ name ∈ path, c ∈ name.text.toList := by
  unfold asPosix at h
  rw [String.toList_ofList] at h
  induction path with
  | nil => cases h
  | cons name path ih =>
    cases path with
    | nil => exact .inr ⟨name, List.mem_singleton_self _, by simpa using h⟩
    | cons other path =>
      simp only [List.map_cons, List.intercalate_cons_cons, List.mem_append, List.mem_singleton] at h
      rcases h with (h | h) | h
      · exact .inr ⟨name, List.mem_cons_self .., h⟩
      · exact .inl h
      · exact (ih h).imp_right fun ⟨n, hn, hc⟩ => ⟨n, List.mem_cons_of_mem _ hn, hc⟩

lemma zero_not_mem_path (path : Path) : (0 : UInt8) ∉ encode (asPosix path) := by
  rw [encode_eq]
  refine Utf8.zero_not_mem_encode fun hzero => ?_
  rcases mem_asPosix hzero with hslash | ⟨name, -, hname⟩
  · exact absurd hslash (by decide)
  · exact (name_ok name).2.2 hname

lemma asPosix_inj {a b : Path} (h : asPosix a = asPosix b) : a = b := by
  have hchars : ['/'].intercalate (a.map fun name => name.text.toList) = ['/'].intercalate (b.map fun name => name.text.toList) := by
    have hlist := congrArg String.toList h
    simpa only [asPosix, String.toList_ofList] using hlist
  have hparts : ∀ path : Path, path ≠ [] →
      (['/'].intercalate (path.map fun name => name.text.toList)).splitOn '/' = path.map fun name => name.text.toList := by
    intro path hpath
    refine List.splitOn_intercalate '/' (fun cs hcs => ?_) (by simpa using hpath)
    obtain ⟨name, -, rfl⟩ := List.mem_map.mp hcs
    exact (name_ok name).2.1
  have hempty : ∀ path : Path, path ≠ [] → ['/'].intercalate (path.map fun name => name.text.toList) ≠ [] := by
    intro path hpath hnil
    cases path with
    | nil => exact hpath rfl
    | cons name path =>
      have hsplit := hparts (name :: path) hpath
      rw [hnil] at hsplit
      have hfirst : name.text.toList = [] := (List.cons.inj hsplit).1.symm
      exact (name_ok name).1 (String.toList_eq_nil_iff.mp hfirst)
  have hnames : (a.map fun name => name.text.toList) = b.map fun name => name.text.toList := by
    by_cases ha : a = []
    · by_cases hb : b = []
      · rw [ha, hb]
      · rw [ha] at hchars
        exact absurd hchars.symm (hempty b hb)
    · by_cases hb : b = []
      · rw [hb] at hchars
        exact absurd hchars (hempty a ha)
      · rw [← hparts a ha, ← hparts b hb, hchars]
  refine List.map_injective_iff.mpr (fun x y hxy => ?_) hnames
  cases x
  cases y
  simpa using String.toList_injective hxy

lemma revisionText_inj {copies copies' : List Copy}
    (hdigest : ∀ copy ∈ copies, ∀ copy' ∈ copies', p.sha256 copy.data = p.sha256 copy'.data → copy.data = copy'.data)
    (h : revisionText p copies = revisionText p copies') : copies = copies' := by
  induction copies generalizing copies' with
  | nil =>
    cases copies' with
    | nil => rfl
    | cons copy' copies' => simp [revisionText] at h
  | cons copy copies ih =>
    cases copies' with
    | nil => simp [revisionText] at h
    | cons copy' copies' =>
      simp only [revisionText, List.flatMap_cons, List.append_assoc, List.cons_append] at h
      obtain ⟨hpath, hrest⟩ := FixedRecords.delimited_inj (zero_not_mem_path _) (zero_not_mem_path _) h
      have hlength : (p.sha256 copy.data).length = (p.sha256 copy'.data).length := by
        rw [p.length_sha256, p.length_sha256]
      obtain ⟨hhash, htail⟩ := List.append_inj hrest hlength
      have hcopy : copy = copy' := by
        have hp : copy.path = copy'.path := asPosix_inj (encode_inj hpath)
        have hd : copy.data = copy'.data := hdigest copy (List.mem_cons_self ..) copy' (List.mem_cons_self ..) hhash
        cases copy
        cases copy'
        simp_all
      have hcopies := ih (fun x hx y hy => hdigest x (List.mem_cons_of_mem _ hx) y (List.mem_cons_of_mem _ hy)) htail
      rw [hcopy, hcopies]

def Yields (p : Host) (disk : Disk) (actions : List Action) (snapshot : BuildSourceSnapshot) : Prop :=
  (step p (final (step p) (.initial disk) actions) .next).1 = .snapshot snapshot

def changes (p : Host) (disk : Disk) (actions : List Action) : List Path :=
  (final (step p) (.initial disk) actions).earlier ++ (final (step p) (.initial disk) actions).changed

def Collisionless (p : Host) (actions : List Action) : Prop :=
  ∀ data data', .read data ∈ actions → .read data' ∈ actions → p.sha256 data = p.sha256 data' → data = data'

lemma inv_final (htree : isTree disk = true) (actions : List Action) :
    Inv p (fun data => .read data ∈ actions) (final (step p) (.initial disk) actions) := by
  refine (invariant_of (K := fun e => e.action ∈ actions) (fun s a h ha => inv_step a h fun data hdata => ?_)
    (inv_initial htree) fun e he => action_mem he).2
  exact hdata ▸ ha

def emptyDigest : Bytes :=
  [227, 176, 196, 66, 152, 252, 28, 20, 154, 251, 244, 200, 153, 111, 185, 36,
    39, 174, 65, 228, 100, 155, 147, 76, 164, 149, 153, 27, 120, 82, 184, 85]

def iniDigest : Bytes :=
  [129, 181, 47, 253, 9, 140, 28, 51, 115, 153, 131, 80, 200, 223, 241, 113,
    172, 192, 147, 154, 87, 53, 52, 230, 216, 96, 172, 91, 185, 210, 122, 44]

def exampleHost : Host where
  sha256 := fun data => if data = [] then emptyDigest else iniDigest
  length_sha256 := by
    intro data
    split <;> rfl

lemma isName_ini : isName "platformio.ini" = true := by decide

def ini : Name := ⟨"platformio.ini", isName_ini⟩

def emptyProject : Disk := [([ini], .file [] 0)]

def directoryMade : List Action :=
  [.next, .next, .listed [] [ini], .next, .change [([⟨"src", by decide⟩], some .directory)], .next, .next, .next, .next, .next,
    .read [], .next, .next,
    .next, .listed [⟨"src", by decide⟩] [ini], .next, .next, .next, .next, .next, .next, .read [], .next, .next, .listed [] [],
    .next, .next, .next]

end PromptForge.BuildCapture
