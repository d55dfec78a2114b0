import PromptForge.GenerationController

namespace PromptForge.GenerationController
open OrderedEntries Runs
open LivePlan (Status)

variable {host : Host} {taskChanged : Bool} {request : Request} {book : Book} {item : Step} {steps : List Step}
  {key : String} {proof : List String} {s : Controller}

structure Held (key : String) (proof : List String) (completed : Entries String Record) (invalidated : Entries String (List String)) : Prop where
  unrecorded : completed.get? key = none
  invalid : invalidated.get? key = some proof

def ShowsStep (host : Host) (key : String) (proof : List String) (item : Step) : Prop := keyOf host item = key → item.evidence = proof

lemma get?_settleStep_of_ne (taskChanged : Bool) (request : Request) (book : Book) (h : keyOf host item ≠ key) :
    (settleStep host taskChanged request book item).1.completed.get? key = book.completed.get? key ∧
      (settleStep host taskChanged request book item).1.invalidated.get? key = book.invalidated.get? key := by
  unfold settleStep
  cases verdictOf host taskChanged request book item with
  | reopen => exact ⟨(Entries.get?_pop ..).trans (if_neg (Ne.symm h)), (Entries.get?_put ..).trans (if_neg (Ne.symm h))⟩
  | stayOpen => exact ⟨rfl, rfl⟩
  | record => exact ⟨(Entries.get?_put ..).trans (if_neg (Ne.symm h)), (Entries.get?_pop ..).trans (if_neg (Ne.symm h))⟩
  | leave => exact ⟨rfl, rfl⟩

lemma settleStep_reopen (h : verdictOf host taskChanged request book item = .reopen) :
    Held (keyOf host item) item.evidence (settleStep host taskChanged request book item).1.completed
      (settleStep host taskChanged request book item).1.invalidated ∧
    (settleStep host taskChanged request book item).2.status ≠ .completed := by
  unfold settleStep
  rw [h]
  refine ⟨⟨?_, ?_⟩, fun hstatus => by cases hstatus⟩
  · exact (Entries.get?_pop ..).trans (if_pos rfl)
  · exact (Entries.get?_put ..).trans (if_pos rfl)

lemma Held.settleStep (h : Held key proof book.completed book.invalidated) (taskChanged : Bool) (request : Request)
    (hshows : ShowsStep host key proof item) :
    Held key proof (settleStep host taskChanged request book item).1.completed (settleStep host taskChanged request book item).1.invalidated ∧
      (keyOf host item = key → (settleStep host taskChanged request book item).2.status ≠ .completed) := by
  by_cases hkey : keyOf host item = key
  · subst hkey
    have hevidence := hshows rfl
    cases hverdict : verdictOf host taskChanged request book item with
    | reopen =>
      obtain ⟨hheld, hstatus⟩ := settleStep_reopen hverdict
      exact ⟨hevidence ▸ hheld, fun _ => hstatus⟩
    | stayOpen =>
      unfold GenerationController.settleStep
      rw [hverdict]
      exact ⟨⟨h.unrecorded, h.invalid⟩, fun _ hstatus => by cases hstatus⟩
    | _ =>
      unfold verdictOf at hverdict
      rw [h.invalid, hevidence] at hverdict
      split_ifs at hverdict with _ hsame
      exact absurd rfl hsame
  · obtain ⟨hcompleted, hinvalidated⟩ := get?_settleStep_of_ne taskChanged request book hkey
    exact ⟨⟨hcompleted.trans h.unrecorded, hinvalidated.trans h.invalid⟩, fun hsame => absurd hsame hkey⟩

def NotDone (host : Host) (key : String) (steps : List Step) : Prop := ∀ item ∈ steps, keyOf host item = key → item.status ≠ .completed

lemma Held.settleSteps (taskChanged : Bool) (request : Request) (hshows : ∀ item ∈ steps, ShowsStep host key proof item)
    (h : Held key proof book.completed book.invalidated) :
    Held key proof (settleSteps host taskChanged request book steps).1.completed (settleSteps host taskChanged request book steps).1.invalidated ∧
      NotDone host key (settleSteps host taskChanged request book steps).2 := by
  induction steps generalizing book with
  | nil => exact ⟨h, fun _ hmem => absurd hmem List.not_mem_nil⟩
  | cons item rest ih =>
    obtain ⟨hstep, hrest⟩ := List.forall_mem_cons.mp hshows
    obtain ⟨hheld, hstatus⟩ := h.settleStep taskChanged request hstep
    obtain ⟨hlast, hdone⟩ := ih hrest hheld
    exact ⟨hlast, List.forall_mem_cons.mpr ⟨hstatus, hdone⟩⟩

lemma settleSteps_reopen (hfirst : steps.find? (fun item => decide (keyOf host item = key)) = some item)
    (hchanged : taskChanged = true ∨ (book.completed.get? key).any (isStale request.files request.sourceRevision item) = true)
    (hshows : ∀ item ∈ steps, ShowsStep host key proof item) :
    Held key proof (settleSteps host taskChanged request book steps).1.completed (settleSteps host taskChanged request book steps).1.invalidated ∧
      NotDone host key (settleSteps host taskChanged request book steps).2 := by
  induction steps generalizing book with
  | nil => cases hfirst
  | cons first rest ih =>
    obtain ⟨hshow, hrest⟩ := List.forall_mem_cons.mp hshows
    rw [List.find?_cons] at hfirst
    by_cases hkey : keyOf host first = key
    · rw [decide_eq_true hkey] at hfirst
      obtain rfl : first = item := Option.some.inj hfirst
      have hverdict : verdictOf host taskChanged request book first = .reopen := by
        unfold verdictOf
        rw [if_pos (by rwa [hkey])]
      obtain ⟨hheld, hstatus⟩ := settleStep_reopen hverdict
      rw [hkey, hshow hkey] at hheld
      obtain ⟨hlast, hdone⟩ := hheld.settleSteps taskChanged request hrest
      exact ⟨hlast, List.forall_mem_cons.mpr ⟨fun _ => hstatus, hdone⟩⟩
    · rw [decide_eq_false hkey] at hfirst
      obtain ⟨hcompleted, -⟩ := get?_settleStep_of_ne taskChanged request book hkey
      obtain ⟨hlast, hdone⟩ := ih hfirst (by rwa [hcompleted]) hrest
      exact ⟨hlast, List.forall_mem_cons.mpr ⟨fun hsame => absurd hsame hkey, hdone⟩⟩

def Shows (host : Host) (key : String) (proof : List String) (request : Request) : Prop :=
  ∀ item ∈ request.plan.take 32, ShowsStep host key proof item

/-- The call finds that the task was revised, or that the files or the revision of the milestone are
    not those of its record. -/
def FindsChanged (host : Host) (s : Controller) (request : Request) (key : String) : Prop :=
  ∃ item, (request.plan.take 32).find? (fun item => decide (keyOf host item = key)) = some item ∧
    (isTaskChanged s request = true ∨ (s.completed.get? key).any (isStale request.files request.sourceRevision item) = true)

lemma focus_reopen (hchanged : FindsChanged host s request key) (hshows : Shows host key proof request) :
    Held key proof (focus host s request).2.completed (focus host s request).2.invalidated ∧
      NotDone host key (focus host s request).1.steps := by
  obtain ⟨item, hfirst, hchanged⟩ := hchanged
  apply settleSteps_reopen hfirst
  · by_cases htask : isTaskChanged s request = true
    · exact .inl htask
    · rw [openBook, if_neg htask]
      exact hchanged
  · exact hshows

lemma Held.focus (h : Held key proof s.completed s.invalidated) (hshows : Shows host key proof request) :
    Held key proof (focus host s request).2.completed (focus host s request).2.invalidated ∧
      NotDone host key (focus host s request).1.steps := by
  have hopen : Held key proof (openBook s request).completed (openBook s request).invalidated := by
    refine ⟨?_, h.invalid⟩
    unfold openBook
    split
    · rfl
    · exact h.unrecorded
  exact hopen.settleSteps (isTaskChanged s request) request hshows

abbrev Entry := Runs.Entry Controller Action (Option Focus)

/-- A milestone that `focus` counts as done. -/
def CountsDone (host : Host) (e : Entry) (key : String) : Prop := ∃ focus, e.outcome = some focus ∧ key ∈ doneKeys host focus.steps

def Proves (host : Host) (e : Entry) (key : String) (record : Record) : Prop :=
  CountsDone host e key ∧ ∃ request, e.action = .focus request ∧ ∃ step ∈ request.plan, keyOf host step = key ∧
    step.status = .completed ∧ step.evidence ≠ [] ∧ arePresent request.files step = true ∧
    record = ⟨currentFiles request.files step, request.sourceRevision⟩

/-- A call shows the same evidence of the milestone, and a checkpoint keeps what is invalidated of it. -/
def Keeps (host : Host) (key : String) (proof : List String) (e : Entry) : Prop :=
  match e.action with
  | .focus request => Shows host key proof request
  | .restore => (e.before.invalidated.last 32).get? key = e.before.invalidated.get? key
  | _ => True

lemma not_countsDone {e : Entry} {request : Request} (he : e = entry (step host) e.before e.action) (haction : e.action = .focus request)
    (h : NotDone host key (focus host e.before request).1.steps) : ¬CountsDone host e key := by
  rintro ⟨focus, houtcome, hdone⟩
  rw [he, haction] at houtcome
  cases houtcome
  obtain ⟨step, hstep, hkey⟩ := List.mem_map.mp hdone
  obtain ⟨hmem, hstatus⟩ := List.mem_filter.mp hstep
  exact h step hmem hkey (of_decide_eq_true hstatus)

def Controller.tables (s : Controller) : Entries String Record × Entries String (List String) := (s.completed, s.invalidated)

lemma tables_addVerification (s : Controller) (identity : String) : (s.addVerification identity).tables = s.tables := by
  unfold Controller.addVerification
  split <;> rfl

lemma tables_addPackages (s : Controller) (packages : List Package) : (packages.foldl Controller.addPackage s).tables = s.tables := by
  induction packages generalizing s with
  | nil => rfl
  | cons package packages ih =>
    rw [List.foldl_cons, ih]
    unfold Controller.addPackage
    split <;> rfl

lemma tables_noteResult (s : Controller) (tool : String) (output : Output) : (s.noteResult tool output).tables = s.tables := by
  unfold Controller.noteResult
  split_ifs
  · exact tables_addVerification s _
  · exact tables_addPackages s _
  · exact tables_addVerification s _
  · rfl

lemma tables_noteFailedEdit (s : Controller) (observation : Observation) : (s.noteFailedEdit observation).tables = s.tables := by
  unfold Controller.noteFailedEdit
  split
  · split
    · split <;> rfl
    · rfl
  · rfl

lemma tables_noteChange (s : Controller) (observation : Observation) : (s.noteChange observation).tables = s.tables := by
  unfold Controller.noteChange
  split <;> rfl

lemma tables_observe (s : Controller) (observation : Observation) : (observe s observation).tables = s.tables := by
  have hnoted : ((s.noteFailedEdit observation).noteChange observation).tables = s.tables := by
    rw [tables_noteChange, tables_noteFailedEdit]
  unfold observe
  split
  · split
    · rw [tables_noteResult]
      exact hnoted
    · exact hnoted
  · exact hnoted

lemma Held.keep {a : Action} (h : Held key proof s.completed s.invalidated) (hkeeps : Keeps host key proof (entry (step host) s a)) :
    Held key proof (step host s a).2.completed (step host s a).2.invalidated := by
  cases a with
  | observe observation =>
    obtain ⟨hcompleted, hinvalidated⟩ := Prod.ext_iff.mp (tables_observe s observation)
    exact ⟨(congrArg (fun entries => entries.get? key) hcompleted).trans h.unrecorded,
      (congrArg (fun entries => entries.get? key) hinvalidated).trans h.invalid⟩
  | settle => exact ⟨h.unrecorded, h.invalid⟩
  | focus request => exact (h.focus hkeeps).1
  | restore => exact ⟨Entries.get?_last_of_none h.unrecorded, hkeeps.trans h.invalid⟩

lemma Held.not_done {as : List Action} (h : Held key proof s.completed s.invalidated) {mid rest : List Entry} {e : Entry}
    (htrace : trace (step host) s as = mid ++ e :: rest) (hkeeps : ∀ x ∈ mid ++ [e], Keeps host key proof x) : ¬CountsDone host e key := by
  induction mid generalizing s as with
  | nil =>
    cases as with
    | nil => cases htrace
    | cons a as =>
      rw [trace_cons, List.nil_append, List.cons.injEq] at htrace
      obtain ⟨rfl, -⟩ := htrace
      cases a with
      | focus request => exact not_countsDone rfl rfl (h.focus (hkeeps _ (List.mem_singleton.mpr rfl))).2
      | _ =>
        rintro ⟨focus, houtcome, -⟩
        cases houtcome
  | cons x mid ih =>
    cases as with
    | nil => cases htrace
    | cons a as =>
      rw [trace_cons, List.cons_append, List.cons.injEq] at htrace
      obtain ⟨rfl, htrace⟩ := htrace
      obtain ⟨hfirst, hrest⟩ := List.forall_mem_cons.mp hkeeps
      exact ih (h.keep hfirst) htrace hrest

lemma of_record (h : verdictOf host taskChanged request book item = .record) :
    item.status = .completed ∧ arePresent request.files item = true ∧ item.evidence ≠ [] ∧
      (settleStep host taskChanged request book item).2.status = .completed := by
  have hrecord : item.status = .completed ∧ arePresent request.files item = true ∧ item.evidence ≠ [] := by
    unfold verdictOf at h
    split_ifs at h with _ _ hrecord
    exact hrecord
  refine ⟨hrecord.1, hrecord.2.1, hrecord.2.2, ?_⟩
  unfold settleStep
  simp [h, statusAfter, hrecord]

lemma mem_settleStep {record : Record} (h : (key, record) ∈ (settleStep host taskChanged request book item).1.completed) :
    (key, record) ∈ book.completed ∨ verdictOf host taskChanged request book item = .record ∧ keyOf host item = key ∧
      record = ⟨currentFiles request.files item, request.sourceRevision⟩ := by
  unfold settleStep at h
  cases hverdict : verdictOf host taskChanged request book item with
  | reopen =>
    rw [hverdict] at h
    exact .inl (Entries.mem_pop h)
  | stayOpen =>
    rw [hverdict] at h
    exact .inl h
  | record =>
    rw [hverdict] at h
    rcases Entries.mem_put h with hsame | h
    · rw [Prod.mk.injEq] at hsame
      exact .inr ⟨rfl, hsame.1.symm, hsame.2⟩
    · exact .inl h
  | leave =>
    rw [hverdict] at h
    exact .inl h

lemma mem_settleSteps {record : Record} (h : (key, record) ∈ (settleSteps host taskChanged request book steps).1.completed) :
    (key, record) ∈ book.completed ∨ key ∈ doneKeys host (settleSteps host taskChanged request book steps).2 ∧
      ∃ item ∈ steps, keyOf host item = key ∧ item.status = .completed ∧ item.evidence ≠ [] ∧
        arePresent request.files item = true ∧ record = ⟨currentFiles request.files item, request.sourceRevision⟩ := by
  induction steps generalizing book with
  | nil => exact .inl h
  | cons item rest ih =>
    rcases ih h with h | ⟨hdone, other, hother, hproof⟩
    · rcases mem_settleStep h with h | ⟨hverdict, rfl, hrecord⟩
      · exact .inl h
      · obtain ⟨hstatus, hpresent, hevidence, hcompleted⟩ := of_record hverdict
        refine .inr ⟨?_, item, List.mem_cons_self .., rfl, hstatus, hevidence, hpresent, hrecord⟩
        exact List.mem_map.mpr ⟨_, List.mem_filter.mpr ⟨List.mem_cons_self .., decide_eq_true hcompleted⟩, rfl⟩
    · refine .inr ⟨?_, other, List.mem_cons_of_mem _ hother, hproof⟩
      obtain ⟨done, hmem, hkey⟩ := List.mem_map.mp hdone
      obtain ⟨hmem, hstatus⟩ := List.mem_filter.mp hmem
      exact List.mem_map.mpr ⟨done, List.mem_filter.mpr ⟨List.mem_cons_of_mem _ hmem, hstatus⟩, hkey⟩

lemma mem_focus {record : Record} (h : (key, record) ∈ (focus host s request).2.completed) :
    (key, record) ∈ s.completed ∨ Proves host (entry (step host) s (.focus request)) key record := by
  rcases mem_settleSteps h with h | ⟨hdone, item, hitem, hproof⟩
  · unfold openBook at h
    split at h
    · cases h
    · exact .inl h
  · exact .inr ⟨⟨_, rfl, hdone⟩, request, rfl, item, List.mem_of_mem_take hitem, hproof⟩

lemma proved_of_record (host : Host) (as : List Action) :
    ∀ row ∈ (final (step host) start as).completed, ∃ e ∈ trace (step host) start as, Proves host e row.1 row.2 := by
  refine @history_of _ _ _ (step host) (fun es s => ∀ row ∈ s.completed, ∃ e ∈ es, Proves host e row.1 row.2) (fun _ => True)
    (fun es s a h _ row hrow => ?_) start as (fun _ hrow => absurd hrow List.not_mem_nil) fun _ _ => trivial
  have earlier : row ∈ s.completed → ∃ e ∈ es ++ [entry (step host) s a], Proves host e row.1 row.2 := by
    intro hrow
    obtain ⟨e, he, hproves⟩ := h row hrow
    exact ⟨e, List.mem_append_left _ he, hproves⟩
  cases a with
  | observe observation =>
    have hcompleted : (observe s observation).completed = s.completed := congrArg Prod.fst (tables_observe s observation)
    exact earlier (hcompleted ▸ hrow)
  | settle => exact earlier hrow
  | focus request =>
    rcases mem_focus hrow with hrow | hproves
    · exact earlier hrow
    · exact ⟨_, List.mem_append_right _ (List.mem_singleton.mpr rfl), hproves⟩
  | restore => exact earlier (Entries.mem_last hrow)

/-- A milestone whose proof is found changed is not counted as done until the plan shows other evidence of it. -/
theorem reopened_until_other_evidence (host : Host) (as : List Action) (before after : List Entry) (e : Entry) (request : Request)
    (key : String) (proof : List String) (htrace : trace (step host) start as = before ++ e :: after) (hfocus : e.action = .focus request)
    (hchanged : FindsChanged host e.before request key) (hshows : Shows host key proof request) :
    (∀ record, e.before.completed.get? key = some record → ∃ earlier ∈ before, Proves host earlier key record) ∧
    ¬CountsDone host e key ∧
    ∀ mid later rest, after = mid ++ later :: rest → (∀ x ∈ mid ++ [later], Keeps host key proof x) → ¬CountsDone host later key := by
  obtain ⟨as₁, a, as₂, rfl, rfl, rfl, rfl⟩ := trace_split htrace
  obtain rfl : a = .focus request := hfocus
  obtain ⟨hheld, hdone⟩ := focus_reopen hchanged hshows
  refine ⟨fun record hrecord => ?_, not_countsDone rfl rfl hdone, fun mid later rest hafter hkeeps => hheld.not_done hafter hkeeps⟩
  exact proved_of_record host as₁ (key, record) (Entries.mem_of_get? hrecord)

def exampleHost : Host := ⟨id, fun _ => []⟩

def displayRequest (verification content revision : String) : Request where
  contractRevision := "task-1"
  contractRequest := ""
  requirementIds := []
  plan := [⟨"display", "", "Implement display", .completed, verification, ["src/Display.cpp"], [], [], ["write-1"]⟩]
  files := [("src/Display.cpp", content)]
  sourceRevision := revision

theorem display_reopened : ¬CountsDone exampleHost (entry (step exampleHost)
    (final (step exampleHost) start [.focus (displayRequest "edit" "one" "r1")]) (.focus (displayRequest "edit" "two" "r2"))) "display" := by
  refine (reopened_until_other_evidence exampleHost [.focus (displayRequest "edit" "one" "r1"), .focus (displayRequest "edit" "two" "r2")]
    (trace (step exampleHost) start [.focus (displayRequest "edit" "one" "r1")]) [] _ (displayRequest "edit" "two" "r2") "display" ["write-1"]
    rfl rfl ⟨_, rfl, .inr ?_⟩ ?_).2.1
  · decide
  · intro item hitem _
    obtain rfl := List.mem_singleton.mp hitem
    rfl

/-- The revision of an edit is not looked at where its files are the same. -/
theorem display_kept :
    Proves exampleHost (entry (step exampleHost) start (.focus (displayRequest "edit" "one" "r1"))) "display"
      ⟨{("src/Display.cpp", some "one")}, "r1"⟩ ∧
    (displayRequest "edit" "one" "r2").sourceRevision ≠ "r1" ∧ Shows exampleHost "display" ["write-1"] (displayRequest "edit" "one" "r2") ∧
    CountsDone exampleHost (entry (step exampleHost) (final (step exampleHost) start [.focus (displayRequest "edit" "one" "r1")])
      (.focus (displayRequest "edit" "one" "r2"))) "display" := by
  refine ⟨⟨⟨_, rfl, by decide⟩, _, rfl, _, List.mem_singleton.mpr rfl, rfl, rfl, by decide, by decide, rfl⟩, by decide, ?_, ⟨_, rfl, by decide⟩⟩
  intro item hitem _
  obtain rfl := List.mem_singleton.mp hitem
  rfl

end PromptForge.GenerationController
