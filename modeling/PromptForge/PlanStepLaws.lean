import PromptForge.PlanSteps

namespace PromptForge.PlanSteps
open Json Runs Tables DepthFirst

variable {host : Host} {requirementIds : Option (List String)} {keys : List String} {fields : Dict} {steps : List Dict}

def References (fields : Dict) (field : String) (limit : ℕ) : Prop :=
  ∃ texts : List String, listOf fields field = .arr (texts.map .str) ∧ texts.length ≤ limit ∧ texts.Nodup ∧
    ∀ text ∈ texts, text ≠ "" ∧ text.length ≤ 512

structure Formed (host : Host) (requirementIds : Option (List String)) (fields : Dict) : Prop where
  allowed : ∀ entry ∈ fields, entry.1 ∈ allowedFields
  text : ∃ text, fields.get? "text" = some (.str text) ∧ 1 ≤ (Texts.strip text).length ∧ (Texts.strip text).length ≤ 300
  status : ∃ status ∈ statuses, fields.get? "status" = some (.str status)
  key : ∃ key, keyValue host fields = .str key ∧ isKey key = true
  verification : ∀ value, fields.get? "verification" = some value → ∃ verification ∈ verifications, value = .str verification
  paths : References fields "paths" 64
  requirements : References fields "requirement_ids" 64
  dependencies : References fields "depends_on" 32
  safe : ∀ path ∈ textsOf fields "paths", isPlanPath path = true
  known : ∀ ids, requirementIds = some ids → textsOf fields "requirement_ids" ⊆ ids

lemma isAmong_iff {texts : List String} {value : Value} : isAmong texts value = .ok true ↔ ∃ text ∈ texts, value = .str text := by
  cases value with
  | str text => simp [isAmong]
  | _ => simp [isAmong]

lemma among_iff {α : Type} {texts : List String} {value : Value} {error : Refusal} {f : Unit → Except Refusal α} {a : α} :
    (isAmong texts value >>= fun known => require (known = true) error >>= f) = .ok a ↔ (∃ text ∈ texts, value = .str text) ∧ f () = .ok a := by
  rw [← isAmong_iff]
  cases hknown : isAmong texts value with
  | error e => simp [bind, Except.bind]
  | ok known =>
    change (require (known = true) error >>= f) = .ok a ↔ _
    rw [require_iff]
    simp

lemma checkVerification_iff : checkVerification fields = .ok () ↔
    ∀ value, fields.get? "verification" = some value → ∃ verification ∈ verifications, value = .str verification := by
  unfold checkVerification
  cases hfound : fields.get? "verification" with
  | none => simp
  | some value =>
    simp only [Option.some.injEq, forall_eq']
    rw [← isAmong_iff]
    cases hknown : isAmong verifications value with
    | error e => simp [bind, Except.bind]
    | ok known => simp [bind, Except.bind, require]

lemma str?_eq_some {value : Value} {text : String} : str? value = some text ↔ value = .str text := by
  cases value <;> simp [str?]

lemma filterMap_texts (texts : List String) : (texts.map Value.str).filterMap str? = texts := by
  induction texts with
  | nil => rfl
  | cons text texts ih => simp [str?, ih]

lemma isReference_iff {value : Value} : isReference value = true ↔ ∃ text, value = .str text ∧ text ≠ "" ∧ text.length ≤ 512 := by
  cases value <;> simp [isReference]

lemma texts_of_references {items : List Value} (h : items.all isReference = true) :
    items = (items.filterMap str?).map Value.str ∧ ∀ text ∈ items.filterMap str?, text ≠ "" ∧ text.length ≤ 512 := by
  induction items with
  | nil => simp
  | cons value items ih =>
    rw [List.all_cons, Bool.and_eq_true] at h
    obtain ⟨hitems, htexts⟩ := ih h.2
    obtain ⟨text, rfl, htext⟩ := isReference_iff.mp h.1
    have hfirst : (Value.str text :: items).filterMap str? = text :: items.filterMap str? := rfl
    rw [hfirst]
    exact ⟨congrArg (Value.str text :: ·) hitems, List.forall_mem_cons.mpr ⟨htext, htexts⟩⟩

lemma checkReferences_iff {field : String} {limit : ℕ} : checkReferences fields field limit = .ok () ↔ References fields field limit := by
  unfold checkReferences References
  constructor
  · intro h
    split at h
    · rename_i items hlist
      split at h
      · rename_i hitems
        obtain ⟨hshape, htexts⟩ := texts_of_references hitems.2
        refine ⟨items.filterMap str?, by rw [hlist, ← hshape], ?_, of_require h, htexts⟩
        exact le_trans (List.length_filterMap_le _ _) hitems.1
      · cases h
    · cases h
  · rintro ⟨texts, hlist, hlength, hnodup, htexts⟩
    have hall : (texts.map Value.str).all isReference = true := by
      rw [List.all_map, List.all_eq_true]
      exact fun text htext => isReference_iff.mpr ⟨text, rfl, htexts text htext⟩
    rw [hlist]
    simp only [List.length_map, hlength, hall, and_self, if_true, filterMap_texts]
    unfold require
    rw [if_pos hnodup]

lemma references_iff {α : Type} {field : String} {limit : ℕ} {f : Unit → Except Refusal α} {a : α} :
    (checkReferences fields field limit >>= f) = .ok a ↔ References fields field limit ∧ f () = .ok a := by
  rw [← checkReferences_iff]
  constructor
  · intro h
    obtain ⟨u, hu, hf⟩ := ok_of_bind h
    exact ⟨hu, hf⟩
  · rintro ⟨hu, hf⟩
    rw [hu]
    exact hf

lemma textOf_eq {text : String} (h : fields.get? "text" = some (.str text)) : textOf fields = text := by
  simp [textOf, h, str?]

lemma keyOf_eq {key : String} (h : keyValue host fields = .str key) : keyOf host fields = key := by
  simp [keyOf, h, str?]

lemma get_str_iff {field text : String} : fields.get field = .str text ↔ fields.get? field = some (.str text) := by
  unfold Dict.get
  cases fields.get? field <;> simp

lemma checkStep_iff {raw : Value} : checkStep host requirementIds keys raw = .ok fields ↔
    raw = .obj fields ∧ Formed host requirementIds fields ∧ keyOf host fields ∉ keys := by
  constructor
  · intro h
    cases raw with
    | obj found =>
      unfold checkStep at h
      obtain ⟨⟨hallowed, htext, hlow, hhigh⟩, h⟩ := require_iff.mp h
      obtain ⟨⟨status, hstatus, hfound⟩, h⟩ := among_iff.mp h
      obtain ⟨⟨hkey, hformed, hnew⟩, h⟩ := require_iff.mp h
      obtain ⟨_, hverification, h⟩ := ok_of_bind h
      obtain ⟨hpaths, h⟩ := references_iff.mp h
      obtain ⟨hrequirements, h⟩ := references_iff.mp h
      obtain ⟨hdependencies, h⟩ := references_iff.mp h
      obtain ⟨hsafe, h⟩ := require_iff.mp h
      obtain ⟨hknown, h⟩ := require_iff.mp h
      cases h
      obtain ⟨text, htext⟩ := Option.isSome_iff_exists.mp htext
      obtain ⟨value, hvalue, hstr⟩ := Option.bind_eq_some_iff.mp htext
      rw [str?_eq_some.mp hstr] at hvalue
      rw [textOf_eq hvalue] at hlow hhigh
      obtain ⟨key, hkey⟩ := Option.isSome_iff_exists.mp hkey
      have hkey := str?_eq_some.mp hkey
      refine ⟨rfl, ⟨hallowed, ⟨text, hvalue, hlow, hhigh⟩, ⟨status, hstatus, get_str_iff.mp hfound⟩,
        ⟨key, hkey, keyOf_eq hkey ▸ hformed⟩, checkVerification_iff.mp hverification, hpaths, hrequirements, hdependencies, hsafe,
        hknown⟩, hnew⟩
    | _ => cases h
  · rintro ⟨rfl, hformed, hnew⟩
    obtain ⟨text, hvalue, hlow, hhigh⟩ := hformed.text
    obtain ⟨status, hstatus, hfound⟩ := hformed.status
    obtain ⟨key, hkey, hkeyFormed⟩ := hformed.key
    unfold checkStep
    have hbounds := textOf_eq hvalue
    refine require_iff.mpr ⟨⟨hformed.allowed, by simp [hvalue, str?], hbounds ▸ hlow, hbounds ▸ hhigh⟩, ?_⟩
    refine among_iff.mpr ⟨⟨status, hstatus, get_str_iff.mpr hfound⟩, ?_⟩
    refine require_iff.mpr ⟨⟨by simp [hkey, str?], by rwa [keyOf_eq hkey], hnew⟩, ?_⟩
    rw [checkVerification_iff.mpr hformed.verification]
    exact references_iff.mpr ⟨hformed.paths, references_iff.mpr ⟨hformed.requirements, references_iff.mpr ⟨hformed.dependencies,
      require_iff.mpr ⟨hformed.safe, require_iff.mpr ⟨hformed.known, rfl⟩⟩⟩⟩⟩

lemma checkSteps_iff {raws : List Value} : checkSteps host requirementIds keys raws = .ok steps ↔
    raws = steps.map Value.obj ∧ (∀ fields ∈ steps, Formed host requirementIds fields) ∧ (steps.map (keyOf host)).Nodup ∧
      ∀ fields ∈ steps, keyOf host fields ∉ keys := by
  induction raws generalizing keys steps with
  | nil =>
    constructor
    · intro h
      cases h
      simp
    · rintro ⟨hraws, -⟩
      rw [List.map_eq_nil_iff.mp hraws.symm]
      rfl
  | cons raw raws ih =>
    constructor
    · intro h
      obtain ⟨fields, hfields, h⟩ := ok_of_bind h
      obtain ⟨rest, hrest, h⟩ := ok_of_bind h
      cases h
      obtain ⟨rfl, hformed, hnew⟩ := checkStep_iff.mp hfields
      obtain ⟨rfl, hall, hnodup, hfresh⟩ := ih.mp hrest
      refine ⟨rfl, List.forall_mem_cons.mpr ⟨hformed, hall⟩, ?_, List.forall_mem_cons.mpr ⟨hnew, fun other hother hmem =>
        hfresh other hother (List.mem_cons_of_mem _ hmem)⟩⟩
      rw [List.map_cons, List.nodup_cons]
      refine ⟨fun hmem => ?_, hnodup⟩
      obtain ⟨other, hother, hsame⟩ := List.mem_map.mp hmem
      exact hfresh other hother (by simp [hsame])
    · rintro ⟨hraws, hall, hnodup, hfresh⟩
      cases steps with
      | nil => cases hraws
      | cons fields rest =>
        rw [List.map_cons, List.cons_eq_cons] at hraws
        obtain ⟨rfl, hraws⟩ := hraws
        obtain ⟨hothers, hnodup⟩ := nodup_map_cons hnodup
        obtain ⟨hformed, hall⟩ := List.forall_mem_cons.mp hall
        obtain ⟨hnew, hfresh⟩ := List.forall_mem_cons.mp hfresh
        have hrest : checkSteps host requirementIds (keyOf host fields :: keys) raws = .ok rest := by
          refine ih.mpr ⟨hraws, hall, hnodup, fun other hother hmem => ?_⟩
          rcases List.mem_cons.mp hmem with hsame | hmem
          · exact hothers other hother hsame
          · exact hfresh other hother hmem
        unfold checkSteps
        rw [checkStep_iff.mpr ⟨rfl, hformed, hnew⟩]
        change (checkSteps host requirementIds (keyOf host fields :: keys) raws >>= fun steps => .ok (fields :: steps)) = _
        rw [hrest]
        rfl

def DependsOn (host : Host) (steps : List Dict) (key dependency : String) : Prop :=
  ∃ fields ∈ steps, keyOf host fields = key ∧ dependency ∈ textsOf fields "depends_on"

lemma keys_graphOf : (graphOf host steps).map Prod.fst = steps.map (keyOf host) := by simp [graphOf]

lemma edges_graphOf (hkeys : (steps.map (keyOf host)).Nodup) (hfields : fields ∈ steps) :
    edges (graphOf host steps) (keyOf host fields) = some (textsOf fields "depends_on") := by
  have hrow : (keyOf host fields, textsOf fields "depends_on") ∈ graphOf host steps := List.mem_map.mpr ⟨fields, hfields, rfl⟩
  have hlookup := lookup_of_mem (@keys_graphOf host steps ▸ hkeys) hrow
  unfold edges
  rw [hlookup]
  rfl

lemma edge_iff (hkeys : (steps.map (keyOf host)).Nodup) {key dependency : String} :
    Edge (graphOf host steps) key dependency ↔ DependsOn host steps key dependency := by
  constructor
  · rintro ⟨nodes, hnodes, hmem⟩
    obtain ⟨row, hrow, rfl⟩ := Option.map_eq_some_iff.mp hnodes
    obtain ⟨fields, hfields, hsame⟩ := List.mem_map.mp (lookup_mem hrow)
    have hkey := lookup_key hrow
    rw [← hsame] at hkey hmem
    exact ⟨fields, hfields, hkey, hmem⟩
  · rintro ⟨fields, hfields, rfl, hmem⟩
    exact ⟨_, edges_graphOf hkeys hfields, hmem⟩

structure Accepted (host : Host) (requirementIds : Option (List String)) (steps : List Dict) : Prop where
  length : 1 ≤ steps.length ∧ steps.length ≤ 32
  formed : ∀ fields ∈ steps, Formed host requirementIds fields
  keys : (steps.map (keyOf host)).Nodup
  named : ∀ fields ∈ steps, ∀ dependency ∈ textsOf fields "depends_on", ∃ other ∈ steps, keyOf host other = dependency
  acyclic : ∀ key, ¬ Relation.TransGen (DependsOn host steps) key key

lemma closed_iff (hkeys : (steps.map (keyOf host)).Nodup) : Closed (graphOf host steps) ↔
    ∀ fields ∈ steps, ∀ dependency ∈ textsOf fields "depends_on", ∃ other ∈ steps, keyOf host other = dependency := by
  have hsome : ∀ key, (edges (graphOf host steps) key).isSome = true ↔ ∃ other ∈ steps, keyOf host other = key := fun key => by
    rw [edges_isSome, keys_graphOf, List.mem_map]
  constructor
  · intro h fields hfields dependency hdependency
    exact (hsome dependency).mp (h _ _ ((edge_iff hkeys).mpr ⟨fields, hfields, rfl, hdependency⟩))
  · intro h key dependency hedge
    obtain ⟨fields, hfields, -, hdependency⟩ := (edge_iff hkeys).mp hedge
    exact (hsome dependency).mpr (h fields hfields dependency hdependency)

lemma acyclic_iff (hkeys : (steps.map (keyOf host)).Nodup) : Acyclic (graphOf host steps) ↔
    ∀ key, ¬ Relation.TransGen (DependsOn host steps) key key := by
  have hsame : Edge (graphOf host steps) = DependsOn host steps := by
    funext key dependency
    exact propext (edge_iff hkeys)
  unfold Acyclic
  rw [hsame]

lemma validatePlanSteps_iff {raw : Value} : validatePlanSteps host requirementIds raw = .ok steps ↔
    raw = .arr (steps.map Value.obj) ∧ Accepted host requirementIds steps := by
  constructor
  · intro h
    cases raw with
    | arr items =>
      simp only [validatePlanSteps] at h
      by_cases hlength : 1 ≤ items.length ∧ items.length ≤ 32
      · rw [if_pos hlength] at h
        obtain ⟨found, hfound, h⟩ := ok_of_bind h
        obtain ⟨visited, hvisited, h⟩ := ok_of_bind h
        cases h
        obtain ⟨rfl, hformed, hkeys, -⟩ := checkSteps_iff.mp hfound
        obtain ⟨hclosed, hacyclic⟩ := visitAll_iff.mp ⟨visited, mapError_ok.mp hvisited⟩
        rw [List.length_map] at hlength
        exact ⟨rfl, hlength, hformed, hkeys, (closed_iff hkeys).mp hclosed, (acyclic_iff hkeys).mp hacyclic⟩
      · rw [if_neg hlength] at h
        cases h
    | _ => cases h
  · rintro ⟨rfl, h⟩
    have hsteps : checkSteps host requirementIds [] (steps.map Value.obj) = .ok steps :=
      checkSteps_iff.mpr ⟨rfl, h.formed, h.keys, by simp⟩
    obtain ⟨visited, hvisited⟩ := visitAll_iff.mpr ⟨(closed_iff h.keys).mpr h.named, (acyclic_iff h.keys).mpr h.acyclic⟩
    unfold validatePlanSteps
    simp only [List.length_map, h.length, and_self, if_true]
    rw [hsteps]
    change ((visitAll (graphOf host steps)).mapError refusalOf >>= fun _ => Except.ok steps) = _
    rw [hvisited]
    rfl

def GoesOn (host : Host) (steps : List Dict) : Prop :=
  ∀ finished : Dict → Prop, (∃ fields ∈ steps, ¬ finished fields) →
    ∃ fields ∈ steps, ¬ finished fields ∧ ∀ other ∈ steps, keyOf host other ∈ textsOf fields "depends_on" → finished other

lemma goesOn (h : Accepted host requirementIds steps) : GoesOn host steps := by
  obtain ⟨visited, hvisited⟩ := visitAll_iff.mpr ⟨(closed_iff h.keys).mpr h.named, (acyclic_iff h.keys).mpr h.acyclic⟩
  rintro finished ⟨fields, hfields, hopen⟩
  have hsame : ∀ x ∈ steps, ∀ y ∈ steps, keyOf host x = keyOf host y → x = y := fun x hx y hy => List.inj_on_of_nodup_map h.keys hx hy
  obtain ⟨key, hkey, hready, hall⟩ := exists_ready hvisited (fun key => ∀ x ∈ steps, keyOf host x = key → finished x)
    (by rw [edges_graphOf h.keys hfields]; rfl) fun hdone => hopen (hdone fields hfields rfl)
  simp only [not_forall] at hready
  obtain ⟨least, hleast, rfl, hnot⟩ := hready
  exact ⟨least, hleast, hnot, fun other hother hdependency =>
    hall _ ((edge_iff h.keys).mpr ⟨least, hleast, rfl, hdependency⟩) other hother rfl⟩

theorem plan_exact (host : Host) (requirementIds : Option (List String)) (raw : Value) :
    ((∃ steps, validatePlanSteps host requirementIds raw = .ok steps) ↔
      ∃ steps, raw = .arr (steps.map Value.obj) ∧ Accepted host requirementIds steps) ∧
    ∀ steps, validatePlanSteps host requirementIds raw = .ok steps → raw = .arr (steps.map Value.obj) ∧ GoesOn host steps := by
  refine ⟨exists_congr fun steps => validatePlanSteps_iff, fun steps h => ?_⟩
  obtain ⟨hraw, haccepted⟩ := validatePlanSteps_iff.mp h
  exact ⟨hraw, goesOn haccepted⟩

def wiredPlan : List Dict :=
  [[("text", .str "Wire the sensor"), ("status", .str "completed"), ("key", .str "wire")],
    [("text", .str "Build"), ("status", .str "pending"), ("verification", .str "build"), ("depends_on", .arr [.str "wire"])]]

theorem plan_exact_wired : GoesOn ⟨fun _ => "0f"⟩ wiredPlan :=
  ((plan_exact ⟨fun _ => "0f"⟩ none (.arr (wiredPlan.map Value.obj))).2 wiredPlan (by rfl)).2

end PromptForge.PlanSteps
