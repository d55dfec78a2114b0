import Mathlib.Data.List.Induction
import PromptForge.ProjectMemory
import PromptForge.Runs

namespace PromptForge.ProjectMemory
open Tables Runs

variable {sha256 : List UInt8 → String} {table table' l : List Entry} {call : Recall} {e : Entry}

def Readable (workspace : Workspace) (relative : Text) : Prop :=
  isUnsafe relative = false ∧ ∃ look, workspace = some look ∧ (look (parts relative) = .missing ∨ ∃ content, look (parts relative) = .file content)

def Recall.Readable (call : Recall) (table : List Entry) : Prop :=
  ∀ workspace, call.workspaceRoot = some workspace → ∀ e ∈ memories table call.projectId, ∀ row ∈ e.dependencyHashes,
    ProjectMemory.Readable workspace row.1

/-! ## One entry -/

lemma dependencyHash_ok_iff {look : List Text → Node} {relative : Text} :
    (∃ digest, dependencyHash sha256 look relative = .ok digest) ↔ Readable (some look) relative := by
  unfold dependencyHash Readable
  cases isUnsafe relative with
  | true => simp
  | false => cases hlook : look (parts relative) <;> simp [hlook]

lemma dependencyHashes_ok_iff {workspace : Workspace} {paths : List Text} (hne : paths ≠ []) :
    (∃ digests, dependencyHashes sha256 workspace paths = .ok digests) ↔ ∀ path ∈ paths, Readable workspace path := by
  obtain ⟨path, hpath⟩ := List.exists_mem_of_ne_nil _ hne
  cases workspace with
  | none => simpa [dependencyHashes, Readable] using ⟨path, hpath⟩
  | some look =>
    have hone : ∀ path, (∃ row, (dependencyHash sha256 look path).map (fun digest => (path, digest)) = .ok row) ↔ Readable (some look) path :=
      fun path => map_ok.trans dependencyHash_ok_iff
    constructor
    · rintro ⟨digests, h⟩ path hpath
      obtain ⟨row, -, hrow⟩ := (mapM_mem h).2 path hpath
      exact (hone path).mp ⟨row, hrow⟩
    · exact fun h => mapM_exists fun path hpath => (hone path).mpr (h path hpath)

def Fresh (sha256 : List UInt8 → String) (workspace : Workspace) (e : Entry) : Prop :=
  ∀ row ∈ e.dependencyHashes, ∃ look, workspace = some look ∧ dependencyHash sha256 look row.1 = .ok row.2

def Entry.Sound (e : Entry) : Prop := e.dependencyHashes ≠ [] → e.affectedPaths ≠ []

lemma staleRevision_ok_iff (he : e.Sound) : (∃ stale, staleRevision sha256 call e = .ok stale) ↔
    ∀ workspace, call.workspaceRoot = some workspace → ∀ row ∈ e.dependencyHashes, Readable workspace row.1 := by
  unfold staleRevision
  cases call.workspaceRoot with
  | none => simp
  | some workspace =>
    by_cases hdeps : e.dependencyHashes = []
    · have hnot : ¬([] : List (Text × String)) ≠ [] := fun h => h rfl
      simp only [hdeps, if_neg hnot]
      split_ifs <;> simp
    · have hne : e.dependencyHashes.map Prod.fst ≠ [] := by simpa using hdeps
      simp only [if_neg (he hdeps), if_pos hdeps]
      rw [map_ok, dependencyHashes_ok_iff hne]
      simp

lemma fresh_of_not_stale {workspace : Workspace} (he : e.Sound) (hroot : call.workspaceRoot = some workspace)
    (h : staleRevision sha256 call e = .ok false) : Fresh sha256 workspace e := by
  intro row hrow
  have hdeps : e.dependencyHashes ≠ [] := List.ne_nil_of_mem hrow
  unfold staleRevision at h
  simp only [hroot, if_neg (he hdeps), if_pos hdeps] at h
  obtain ⟨digests, hdigests, hsame⟩ := ok_of_map h
  obtain rfl : digests = e.dependencyHashes := by simpa using hsame
  cases workspace with
  | none => cases hdigests
  | some look =>
    obtain ⟨path, -, hpath⟩ := (mapM_mem hdigests).1 row hrow
    obtain ⟨digest, hdigest, rfl⟩ := ok_of_map hpath
    exact ⟨look, rfl, hdigest⟩

/-! ## What a call makes of the table -/

def Marks (table table' : List Entry) : Prop :=
  ∃ g : Entry → Entry, (∀ e, g e = e ∨ ∃ reason, g e = e.invalidated reason) ∧ table' = table.map g

lemma Marks.refl (table : List Entry) : Marks table table := ⟨id, fun _ => .inl rfl, (List.map_id _).symm⟩

lemma Marks.trans {table'' : List Entry} (h : Marks table table') (h' : Marks table' table'') : Marks table table'' := by
  obtain ⟨g, hg, rfl⟩ := h
  obtain ⟨g', hg', rfl⟩ := h'
  refine ⟨g' ∘ g, fun e => ?_, by rw [List.map_map]⟩
  rcases hg' (g e) with h' | ⟨reason, h'⟩ <;> rcases hg e with h | ⟨reason', h⟩ <;> rw [Function.comp, h', h]
  · exact .inl rfl
  · exact .inr ⟨reason', rfl⟩
  · exact .inr ⟨reason, rfl⟩
  · exact .inr ⟨reason, rfl⟩

lemma marks_ite (table : List Entry) (memoryId reason : String) (p : Bool) :
    Marks table (if p then invalidateMemory table memoryId reason else table) := by
  cases p with
  | false => exact .refl _
  | true =>
    refine ⟨fun e => if e.memoryId == memoryId then e.invalidated reason else e, fun e => ?_, rfl⟩
    dsimp only
    split_ifs
    · exact .inr ⟨reason, rfl⟩
    · exact .inl rfl

lemma marks_foldl {f : List Entry × List String → Entry → List Entry × List String} (hf : ∀ s e, Marks s.1 (f s e).1)
    (l : List Entry) (s : List Entry × List String) : Marks s.1 (l.foldl f s).1 := by
  induction l generalizing s with
  | nil => exact .refl _
  | cons e l ih => exact (hf s e).trans (ih (f s e))

lemma marks_sweep (call : Recall) (l table : List Entry) : Marks table (sweep sha256 call l table).1 := by
  induction l generalizing table with
  | nil => exact .refl _
  | cons e l ih =>
    unfold sweep
    cases staleRevision sha256 call e with
    | error refusal => exact .refl _
    | ok stale => exact (marks_ite table e.memoryId _ _).trans (ih _)

def Call.newId : Call → Option String
  | .addVerified fact => some fact.memoryId
  | _ => none

/-- A call marks rows, or appends the row of a new fact. -/
lemma run_cases (c : Call) (table : List Entry) : Marks table (c.run sha256 table) ∨
    ∃ e, c.newId = some e.memoryId ∧ e.Sound ∧ c.run sha256 table = remember table e := by
  cases c with
  | addVerified fact =>
    unfold Call.run addVerified
    dsimp only
    split_ifs
    · exact .inl (.refl _)
    · cases hdependencies : fact.dependencies sha256 with
      | error refusal => exact .inl (.refl _)
      | ok dependencies =>
        refine .inr ⟨fact.entry sha256 dependencies, rfl, fun hne hnil => hne ?_, rfl⟩
        unfold Fact.dependencies at hdependencies
        rw [show fact.affectedPaths.eraseDups = [] from hnil] at hdependencies
        split at hdependencies
        · rename_i workspace _
          cases workspace <;> cases hdependencies
          rfl
        · cases hdependencies
          rfl
  | invalidateForChange projectId changed revision boardId =>
    refine .inl (marks_foldl (fun s e => ?_) _ (table, []))
    have hmarks := fun reason p => marks_ite s.1 e.memoryId reason p
    dsimp only
    split
    · exact hmarks _ true
    · exact .refl _
  | invalidateSource projectId sourceId reason =>
    refine .inl (marks_foldl (fun s e => ?_) _ (table, []))
    dsimp only
    split
    · exact .refl _
    · exact marks_ite s.1 e.memoryId reason true
  | active call =>
    have hmarks := @marks_sweep sha256 call (memories table call.projectId) table
    have htable : (Call.active call).run sha256 table = (sweep sha256 call (memories table call.projectId) table).1 := by
      unfold Call.run active
      dsimp only
      split <;> simp [*]
    exact .inl (htable ▸ hmarks)

/-! ## What a recall answers with -/

lemma mem_memories {projectId : String} : e ∈ memories table projectId ↔ e ∈ table ∧ e.projectId = projectId ∧ e.status = "active" := by
  simp [memories, List.mem_mergeSort]

lemma invalidated_not_active (reason : String) (e : Entry) : (e.invalidated reason).status ≠ "active" := by
  change "invalidated" ≠ "active"
  decide

lemma active_of_invalidateMemory {memoryId reason : String} (h : e ∈ invalidateMemory table memoryId reason) (hactive : e.status = "active") :
    e ∈ table ∧ e.memoryId ≠ memoryId := by
  obtain ⟨x, hx, rfl⟩ := mem_updateWhere.mp h
  split_ifs at hactive ⊢ with hid
  · exact absurd hactive (invalidated_not_active reason x)
  · exact ⟨hx, by simpa using hid⟩

lemma sweep_answers_iff : (sweep sha256 call l table).2 = none ↔ ∀ e ∈ l, ∃ stale, staleRevision sha256 call e = .ok stale := by
  induction l generalizing table with
  | nil => simp [sweep]
  | cons e l ih =>
    rw [List.forall_mem_cons, sweep]
    cases staleRevision sha256 call e with
    | error refusal => simp
    | ok stale => exact ih.trans ⟨fun h => ⟨⟨stale, rfl⟩, h⟩, And.right⟩

/-- What is still active was looked at and found fresh. -/
lemma sweep_active (h : sweep sha256 call l table = (table', none)) (he : e ∈ table') (hactive : e.status = "active") :
    e ∈ table ∧ (e ∈ l → staleRevision sha256 call e = .ok false ∧ differs e.boardId call.boardId = false) := by
  induction l generalizing table with
  | nil =>
    cases h
    exact ⟨he, fun h => absurd h List.not_mem_nil⟩
  | cons x l ih =>
    unfold sweep at h
    cases hstale : staleRevision sha256 call x with
    | error refusal =>
      rw [hstale] at h
      cases h
    | ok stale =>
      rw [hstale] at h
      obtain ⟨hmem, hrest⟩ := ih h
      by_cases hflag : (stale || differs x.boardId call.boardId) = true
      · rw [if_pos hflag] at hmem
        obtain ⟨hmem, hid⟩ := active_of_invalidateMemory hmem hactive
        refine ⟨hmem, fun hl => hrest ((List.mem_cons.mp hl).resolve_left ?_)⟩
        rintro rfl
        exact hid rfl
      · rw [if_neg hflag] at hmem
        refine ⟨hmem, fun hl => ?_⟩
        rcases List.mem_cons.mp hl with rfl | hl
        · rw [Bool.not_eq_true, Bool.or_eq_false_iff] at hflag
          exact ⟨hflag.1 ▸ hstale, hflag.2⟩
        · exact hrest hl

lemma active_ok_iff {entries : List Entry} : (active sha256 call table).2 = .ok entries ↔
    ∃ table', sweep sha256 call (memories table call.projectId) table = (table', none) ∧ memories table' call.projectId = entries := by
  unfold active
  rcases sweep sha256 call (memories table call.projectId) table with ⟨table', _ | refusal⟩ <;> simp

/-- What is recalled has the digests of its files now, and the board that was asked for. -/
structure Recalled (sha256 : List UInt8 → String) (call : Recall) (entries : List Entry) : Prop where
  fresh : ∀ workspace, call.workspaceRoot = some workspace → ∀ e ∈ entries, Fresh sha256 workspace e
  board : ∀ e ∈ entries, differs e.boardId call.boardId = false

lemma recalled_of_ok {entries : List Entry} (hsound : ∀ e ∈ table, e.Sound) (h : (active sha256 call table).2 = .ok entries) :
    Recalled sha256 call entries ∧ ∀ e ∈ entries, e ∈ table ∧ e.status = "active" := by
  obtain ⟨table', hsweep, rfl⟩ := active_ok_iff.mp h
  have hall : ∀ e ∈ memories table' call.projectId, e ∈ table ∧ e.status = "active" ∧
      staleRevision sha256 call e = .ok false ∧ differs e.boardId call.boardId = false := by
    intro e he
    obtain ⟨he, hproject, hactive⟩ := mem_memories.mp he
    obtain ⟨hmem, hchecked⟩ := sweep_active hsweep he hactive
    exact ⟨hmem, hactive, hchecked (mem_memories.mpr ⟨hmem, hproject, hactive⟩)⟩
  refine ⟨⟨fun workspace hroot e he => ?_, fun e he => (hall e he).2.2.2⟩, fun e he => ⟨(hall e he).1, (hall e he).2.1⟩⟩
  exact fresh_of_not_stale (hsound e (hall e he).1) hroot (hall e he).2.2.1

lemma answers_iff (hsound : ∀ e ∈ table, e.Sound) :
    (∃ entries, (active sha256 call table).2 = .ok entries) ↔ call.Readable table := by
  have hanswers : (∃ entries, (active sha256 call table).2 = .ok entries) ↔
      (sweep sha256 call (memories table call.projectId) table).2 = none := by
    unfold active
    rcases sweep sha256 call (memories table call.projectId) table with ⟨table', _ | refusal⟩ <;> simp
  rw [hanswers, sweep_answers_iff]
  constructor
  · exact fun h workspace hroot e he => (staleRevision_ok_iff (hsound e (mem_memories.mp he).1)).mp (h e he) workspace hroot
  · exact fun h e he => (staleRevision_ok_iff (hsound e (mem_memories.mp he).1)).mpr fun workspace hroot => h workspace hroot e he

/-! ## Runs -/

structure Valid (calls : List Call) (table : List Entry) : Prop where
  sound : ∀ e ∈ table, e.Sound
  nodup : (table.map Entry.memoryId).Nodup
  known : ∀ e ∈ table, e.memoryId ∈ calls.filterMap Call.newId

lemma tableAfter_append (calls : List Call) (c : Call) : tableAfter sha256 (calls ++ [c]) = c.run sha256 (tableAfter sha256 calls) := by
  unfold tableAfter
  rw [List.foldl_append]
  rfl

lemma id_marked {g : Entry → Entry} (hg : ∀ e, g e = e ∨ ∃ reason, g e = e.invalidated reason) (e : Entry) : (g e).memoryId = e.memoryId := by
  rcases hg e with h | ⟨reason, h⟩ <;> rw [h]
  rfl

lemma valid_tableAfter {calls : List Call} (h : (calls.filterMap Call.newId).Nodup) : Valid calls (tableAfter sha256 calls) := by
  induction calls using List.reverseRecOn with
  | nil => exact ⟨fun _ h => absurd h List.not_mem_nil, List.nodup_nil, fun _ h => absurd h List.not_mem_nil⟩
  | append_singleton calls c ih =>
    rw [List.filterMap_append] at h
    have hvalid := ih (List.Nodup.of_append_left h)
    have hsub : calls.filterMap Call.newId ⊆ (calls ++ [c]).filterMap Call.newId := by
      rw [List.filterMap_append]
      exact List.subset_append_left _ _
    rw [tableAfter_append]
    rcases run_cases c (tableAfter sha256 calls) with ⟨g, hg, heq⟩ | ⟨e, hnew, hsound, heq⟩ <;> rw [heq]
    · refine ⟨fun e he => ?_, ?_, fun e he => ?_⟩
      · obtain ⟨x, hx, rfl⟩ := List.mem_map.mp he
        rcases hg x with h | ⟨reason, h⟩ <;> rw [h] <;> exact hvalid.sound x hx
      · rw [List.map_map, show Entry.memoryId ∘ g = Entry.memoryId from funext (id_marked hg)]
        exact hvalid.nodup
      · obtain ⟨x, hx, rfl⟩ := List.mem_map.mp he
        exact hsub (id_marked hg x ▸ hvalid.known x hx)
    · have hfresh : ∀ x ∈ tableAfter sha256 calls, x.memoryId ≠ e.memoryId := by
        intro x hx hsame
        exact List.disjoint_of_nodup_append h (hvalid.known x hx) (by simp [hnew, hsame])
      have hremember : remember (tableAfter sha256 calls) e = tableAfter sha256 calls ++ [e] := by
        rw [remember, lookup_eq_none.mpr hfresh, if_neg (by simp)]
      rw [hremember]
      refine ⟨?_, ?_, ?_⟩
      · exact List.forall_mem_append.mpr ⟨hvalid.sound, List.forall_mem_singleton.mpr hsound⟩
      · exact nodup_map_concat hvalid.nodup hfresh
      · refine List.forall_mem_append.mpr ⟨fun x hx => hsub (hvalid.known x hx), List.forall_mem_singleton.mpr ?_⟩
        simp [hnew]

def Gone (memoryId : String) (table : List Entry) : Prop := ∀ e ∈ table, e.memoryId = memoryId → e.status ≠ "active"

lemma Gone.run {memoryId : String} {c : Call} (h : Gone memoryId table) (hnew : c.newId ≠ some memoryId) : Gone memoryId (c.run sha256 table) := by
  rcases @run_cases sha256 c table with ⟨g, hg, heq⟩ | ⟨x, hx, -, heq⟩ <;> rw [heq]
  · intro e he hid
    obtain ⟨y, hy, rfl⟩ := List.mem_map.mp he
    rcases hg y with hsame | ⟨reason, hsame⟩ <;> rw [hsame] at hid ⊢
    · exact h y hy hid
    · exact invalidated_not_active reason y
  · intro e he hid
    have hcases : e = x ∨ e ∈ table := by
      unfold remember at he
      split_ifs at he
      · exact mem_updateRow he
      · exact (List.mem_append.mp he).symm.imp_left List.mem_singleton.mp
    rcases hcases with rfl | he
    · exact absurd (hid ▸ hx) hnew
    · exact h e he hid

lemma Gone.tableAfter {memoryId : String} {first second : List Call} (h : Gone memoryId (tableAfter sha256 first))
    (hnew : memoryId ∉ second.filterMap Call.newId) : Gone memoryId (tableAfter sha256 (first ++ second)) := by
  induction second using List.reverseRecOn with
  | nil => rwa [List.append_nil]
  | append_singleton second c ih =>
    rw [List.filterMap_append, List.mem_append, not_or] at hnew
    rw [← List.append_assoc, tableAfter_append]
    refine (ih hnew.1).run fun hc => hnew.2 ?_
    simp [hc]

structure NeverStale (sha256 : List UInt8 → String) (calls : List Call) : Prop where
  answers : ∀ before call after, calls = before ++ .active call :: after → call.workspaceRoot.isSome = true →
    ∃ entries, (active sha256 call (tableAfter sha256 before)).2 = .ok entries
  recalled : ∀ before call after entries, calls = before ++ .active call :: after →
    (active sha256 call (tableAfter sha256 before)).2 = .ok entries → Recalled sha256 call entries
  gone : ∀ first second call after entries, calls = first ++ second ++ .active call :: after →
    (active sha256 call (tableAfter sha256 (first ++ second))).2 = .ok entries →
    ∀ e ∈ tableAfter sha256 first, e.status ≠ "active" → ∀ e' ∈ entries, e'.memoryId ≠ e.memoryId

/-- The memory is never stale exactly when every recall meets files that can be read or are gone. -/
theorem neverStale_iff {calls : List Call} (hids : (calls.filterMap Call.newId).Nodup) :
    NeverStale sha256 calls ↔ ∀ before call after, calls = before ++ .active call :: after → call.Readable (tableAfter sha256 before) := by
  have hsplit : ∀ {before after : List Call}, calls = before ++ after → (before.filterMap Call.newId).Nodup := by
    rintro before after rfl
    rw [List.filterMap_append] at hids
    exact List.Nodup.of_append_left hids
  constructor
  · rintro h before call after hcalls workspace hroot
    exact (answers_iff (valid_tableAfter (hsplit hcalls)).sound).mp (h.answers before call after hcalls (hroot ▸ rfl)) workspace hroot
  · intro h
    refine ⟨?_, ?_, ?_⟩
    · exact fun before call after hcalls _ => (answers_iff (valid_tableAfter (hsplit hcalls)).sound).mpr (h before call after hcalls)
    · exact fun before call after entries hcalls hok => (recalled_of_ok (valid_tableAfter (hsplit hcalls)).sound hok).1
    · intro first second call after entries hcalls hok e he hnot e' he' hsame
      have hvalid := @valid_tableAfter sha256 _ (hsplit (hcalls.trans (List.append_assoc ..)))
      have hgone : Gone e.memoryId (tableAfter sha256 first) := fun x hx hid => List.inj_on_of_nodup_map hvalid.nodup hx he hid ▸ hnot
      have hnew : e.memoryId ∉ second.filterMap Call.newId := by
        rw [hcalls, List.append_assoc, List.filterMap_append, List.filterMap_append] at hids
        exact fun hmem => List.disjoint_of_nodup_append hids (hvalid.known e he) (List.mem_append_left _ hmem)
      obtain ⟨hmem, hactive⟩ := (recalled_of_ok (valid_tableAfter (hsplit hcalls)).sound hok).2 e' he'
      exact hgone.tableAfter hnew e' hmem hsame hactive

/-- A fact about the file `m`, and the recall of it over what stands there later. -/
def fact : Fact := ⟨"m", "t", "p", "pin", "led", "run", "r", [], none, [['m']], some (some fun _ => .file []), none, 1⟩

def recallOver (node : Node) : Recall := ⟨"p", none, none, some (some fun _ => node)⟩

lemma tableAfter_fact : tableAfter (fun _ => "d") [.addVerified fact] = [fact.entry (fun _ => "d") [(['m'], "d")]] := by
  decide +kernel

theorem neverStale_file : NeverStale (fun _ => "d") [.addVerified fact, .active (recallOver (.file []))] := by
  refine (neverStale_iff (by decide)).mpr fun before call after h => ?_
  cases before with
  | nil => cases h
  | cons c before =>
    cases before with
    | nil =>
      cases h
      rw [tableAfter_fact]
      rintro workspace ⟨⟩ e he row hrow
      obtain rfl := List.mem_singleton.mp (mem_memories.mp he).1
      obtain rfl := List.mem_singleton.mp hrow
      exact ⟨by decide, _, rfl, .inr ⟨[], rfl⟩⟩
    | cons c' before =>
      cases before <;> cases h

/-- The file has become a directory, and the recall raises. -/
theorem neverStale_directory : ¬NeverStale (fun _ => "d") [.addVerified fact, .active (recallOver .other)] := by
  intro h
  have hsound := (@valid_tableAfter (fun _ => "d") [.addVerified fact] (by decide)).sound
  have hreadable := (answers_iff hsound).mp (h.answers [.addVerified fact] (recallOver .other) [] rfl rfl)
  rw [tableAfter_fact] at hreadable
  obtain ⟨-, look, hlook, hnode⟩ := hreadable _ rfl _ (mem_memories.mpr ⟨List.mem_singleton_self _, rfl, rfl⟩) _ (List.mem_singleton_self _)
  cases hlook
  rcases hnode with hnode | ⟨content, hnode⟩ <;> cases hnode

end PromptForge.ProjectMemory
