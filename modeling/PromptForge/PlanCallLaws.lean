import PromptForge.PlanCalls

namespace PromptForge.PlanCalls
open Json JsonSchema Runs Tables PlanSteps

variable {host : Host} {policy : Policy} {value arguments fields : Dict} {call : Call}

lemma accepts_field {properties : List (String × Schema)} {field : String} {found : Value} (property : String × Schema)
    (haccepts : ∀ entry ∈ fields, acceptsField properties entry.1 entry.2 = true) (hfound : fields.get? field = some found)
    (hproperty : lookup Prod.fst properties field = some property) : accepts property.2 found = true := by
  obtain ⟨other, hother, h⟩ := accepts_of_acceptsField (haccepts _ (Dict.mem_of_get? hfound))
  rw [hproperty] at hother
  cases hother
  exact h

structure Described (fields : Dict) : Prop where
  allowed : ∀ entry ∈ fields, entry.1 ∈ allowedFields
  text : ∃ text, fields.get? "text" = some (.str text) ∧ text.length ≤ 300
  status : ∃ status ∈ statuses, fields.get? "status" = some (.str status)
  verification : ∀ found, fields.get? "verification" = some found → ∃ verification ∈ verifications, found = .str verification

lemma choice_of_accepts {texts : List String} {found : Value} (h : accepts (.choice texts) found = true) :
    ∃ text ∈ texts, found = .str text := by
  cases found with
  | str text => exact ⟨text, by simpa [accepts] using h, rfl⟩
  | _ => simp [accepts] at h

lemma described_of_accepts {step : Value} (h : accepts stepSchema step = true) : ∃ fields, step = .obj fields ∧ Described fields := by
  obtain ⟨fields, rfl, haccepts, hrequired⟩ := fields_of_accepts h
  obtain ⟨text, htext⟩ := Option.isSome_iff_exists.mp (hrequired "text" (by simp))
  obtain ⟨status, hstatus⟩ := Option.isSome_iff_exists.mp (hrequired "status" (by simp))
  obtain ⟨written, rfl, -, hlength, -⟩ := text_of_accepts (accepts_field _ haccepts htext rfl)
  obtain ⟨chosen, hchosen, rfl⟩ := choice_of_accepts (accepts_field _ haccepts hstatus rfl)
  refine ⟨fields, rfl, fun entry hentry => ?_, ⟨written, htext, hlength⟩, ⟨chosen, hchosen, hstatus⟩, fun found hfound => ?_⟩
  · simpa [allowedFields] using name_of_acceptsField (haccepts entry hentry)
  · exact choice_of_accepts (accepts_field _ haccepts hfound rfl)

lemma steps_of_accepts (h : accepts argumentsSchema (.obj arguments) = true) :
    ∃ steps, arguments.get? "steps" = some (.arr steps) ∧ 1 ≤ steps.length ∧ steps.length ≤ 32 ∧
      (∀ step ∈ steps, ∃ fields, step = .obj fields ∧ Described fields) ∧ arguments.HasKeys ["steps"] := by
  obtain ⟨found, hfound, haccepts, hrequired⟩ := fields_of_accepts h
  cases hfound
  obtain ⟨steps, hsteps⟩ := Option.isSome_iff_exists.mp (hrequired "steps" (by simp))
  obtain ⟨items, rfl, hlow, hhigh, hitems⟩ := items_of_accepts (accepts_field _ haccepts hsteps rfl)
  refine ⟨items, hsteps, hlow, hhigh, fun step hstep => described_of_accepts (hitems step hstep), fun entry hentry => ?_, hrequired⟩
  simpa using name_of_acceptsField (haccepts entry hentry)

lemma parsed (harguments : value.get? "arguments" = some (.obj arguments)) {steps : List Value}
    (hsteps : arguments.get? "steps" = some (.arr steps)) (h : parse host (.obj value) = .ok call) :
    call.arguments = arguments ∧ ∃ plan, validatePlanSteps host.steps none (.arr steps) = .ok plan := by
  have hvalidated : ∀ callId toolType, validated host callId toolType arguments = .ok call →
      call.arguments = arguments ∧ ∃ plan, validatePlanSteps host.steps none (.arr steps) = .ok plan := fun callId toolType h => by
    obtain ⟨-, h⟩ := require_iff.mp h
    obtain ⟨-, h⟩ := require_iff.mp h
    have hsame : normalizeStructuredArguments host arguments = .ok arguments := by
      unfold normalizeStructuredArguments
      rw [hsteps]
    obtain ⟨same, hnormal, h⟩ := ok_of_bind h
    obtain ⟨u, hu, h⟩ := ok_of_bind h
    cases hsame.symm.trans hnormal
    cases h
    obtain ⟨-, hu⟩ := require_iff.mp hu
    obtain ⟨plan, hplan, -⟩ := ok_of_bind hu
    rw [Dict.get_of_get? hsteps] at hplan
    exact ⟨rfl, plan, mapError_ok.mp hplan⟩
  have hthere : ¬ value.HasKeys ["id", "type", "path", "content"] := fun hkeys => by
    simpa using hkeys.1 _ (Dict.mem_of_get? harguments)
  simp only [parse, if_neg hthere, Dict.get_of_get? harguments] at h
  split at h
  · split at h
    · rename_i hfound
      cases hfound
      exact hvalidated _ _ h
    · cases h
  · cases h

def joiningFields : List String := ["key", "paths", "requirement_ids", "depends_on"]

def Plain (step : Value) : Prop := ∀ fields : Dict, step = .obj fields → ∀ field ∈ joiningFields, fields.get? field = none

lemma plain_iff (h : Described fields) : Plain (.obj fields) ↔ ∀ entry ∈ fields, entry.1 ∈ ["text", "status", "verification"] := by
  constructor
  · intro hplain entry hentry
    have hallowed := h.allowed entry hentry
    have hnone : ∀ field ∈ joiningFields, entry.1 ≠ field := fun field hfield => Dict.get?_eq_none.mp (hplain fields rfl field hfield) entry hentry
    simp only [allowedFields, joiningFields, List.mem_cons, List.not_mem_nil, or_false] at hallowed hnone ⊢
    grind
  · intro hall found hfound field hfield
    cases hfound
    refine Dict.get?_eq_none.mpr fun entry hentry hsame => ?_
    have hmem := hall entry hentry
    simp only [joiningFields, List.mem_cons, List.not_mem_nil, or_false] at hfield hmem
    grind

lemma isIn_of {texts : List String} {found : Value} (h : ∃ text ∈ texts, found = .str text) : isIn texts found = .ok true := by
  unfold isIn
  rw [isAmong_iff.mpr h]
  rfl

lemma validateStep_iff (h : Described fields) (hformed : Formed host.steps none fields) :
    validateStep (.obj fields) = .ok () ↔ Plain (.obj fields) := by
  obtain ⟨text, htext, hlength⟩ := h.text
  obtain ⟨status, hstatus, hfound⟩ := h.status
  obtain ⟨other, hother, hlow, -⟩ := hformed.text
  rw [htext] at hother
  cases hother
  have hverification : ∃ verification ∈ verifications, ((fields.get? "verification").getD (.str "inspection")) = .str verification := by
    cases hget : fields.get? "verification" with
    | none => exact ⟨"inspection", by simp [verifications], rfl⟩
    | some found => exact h.verification found hget
  have hblank : Texts.strip text ≠ "" := fun hempty => by simp [hempty] at hlow
  rw [plain_iff h]
  simp only [validateStep, htext, hfound, textOf_eq htext, isIn_of ⟨status, hstatus, get_str_iff.mpr hfound⟩, isIn_of hverification]
  constructor
  · intro hok
    exact (require_iff.mp hok).1.2.2
  · intro hall
    exact require_iff.mpr ⟨⟨rfl, rfl, hall⟩, require_iff.mpr ⟨⟨rfl, hblank, hlength⟩, rfl⟩⟩

def stepsOf (arguments : Dict) : List Value :=
  match arguments.get "steps" with
  | .arr steps => steps
  | _ => []

theorem plan_language (host : Host) (policy : Policy) (value arguments : Dict) (call : Call) (hallowed : policy.decision = some "allow")
    (harguments : value.get? "arguments" = some (.obj arguments)) (hschema : accepts argumentsSchema (.obj arguments) = true)
    (hparse : parse host (.obj value) = .ok call) :
    validateCall policy call.arguments = .ok () ↔ ∀ step ∈ stepsOf arguments, Plain step := by
  obtain ⟨steps, hsteps, hlow, hhigh, hdescribed, hkeys⟩ := steps_of_accepts hschema
  obtain ⟨hsame, plan, hplan⟩ := parsed harguments hsteps hparse
  obtain ⟨hraw, haccepted⟩ := validatePlanSteps_iff.mp hplan
  cases hraw
  have hcall : validateCall policy call.arguments = (plan.map Value.obj).forM validateStep := by
    unfold validateCall
    simp only [hallowed, hsame, Dict.get_of_get? hsteps]
    rw [require_bind (by decide), require_bind (by decide), require_bind hkeys, require_bind ⟨hlow, hhigh⟩]
  have hread : stepsOf arguments = plan.map Value.obj := by
    unfold stepsOf
    rw [Dict.get_of_get? hsteps]
  rw [hcall, hread, forM_iff]
  refine forall₂_congr fun step hstep => ?_
  obtain ⟨fields, rfl, hfields⟩ := hdescribed step hstep
  obtain ⟨found, hfound, hobj⟩ := List.mem_map.mp hstep
  cases hobj
  exact validateStep_iff hfields (haccepted.formed _ hfound)

/-! A display, and after it the integration. -/

def integrationHost : Host := ⟨⟨fun _ => "0f"⟩, fun _ => none, []⟩

def integrationArguments : Dict :=
  [("steps", .arr
    [.obj [("key", .str "display"), ("text", .str "Implement display"), ("status", .str "in_progress"), ("verification", .str "edit"),
        ("paths", .arr [.str "src/Display.cpp"]), ("requirement_ids", .arr [.str "req-1"])],
      .obj [("key", .str "integrate"), ("text", .str "Integrate"), ("status", .str "pending"), ("depends_on", .arr [.str "display"])]])]

def integrationCall : Dict := [("id", .str "p"), ("type", .str "update_plan"), ("arguments", .obj integrationArguments)]

theorem plan_language_integration : validateCall ⟨some "allow"⟩ integrationArguments = .ok () ↔ ∀ step ∈ stepsOf integrationArguments, Plain step :=
  plan_language integrationHost ⟨some "allow"⟩ integrationCall integrationArguments ⟨"p", "update_plan", integrationArguments⟩ rfl rfl
    (by decide +kernel) (by rfl)

/-- A plan with paths is refused after it was parsed. -/
theorem integration_refused : ¬ ∀ (host : Host) (policy : Policy) (value arguments : Dict) (call : Call), policy.decision = some "allow" →
    value.get? "arguments" = some (.obj arguments) → accepts argumentsSchema (.obj arguments) = true → parse host (.obj value) = .ok call →
    validateCall policy call.arguments = .ok () := by
  intro hclaim
  have haccepted := hclaim integrationHost ⟨some "allow"⟩ integrationCall integrationArguments ⟨"p", "update_plan", integrationArguments⟩ rfl rfl
    (by decide +kernel) (by rfl)
  have hrefused : validateCall ⟨some "allow"⟩ integrationArguments = .error .argumentsInvalid := by rfl
  rw [hrefused] at haccepted
  cases haccepted

end PromptForge.PlanCalls
