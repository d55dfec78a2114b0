import PromptForge.RequirementSpanLaws
import PromptForge.ToolPlans

namespace PromptForge.ToolPlans
open Json Runs
open Capabilities (ToolName)
open RequirementSpans

variable {host : Host} {tool : ToolName} {arguments arguments' : Dict}

lemma parseToolName_value (tool : ToolName) : parseToolName tool.value = some tool := by
  cases tool <;> rfl

lemma length_value (tool : ToolName) : tool.value ≠ "" ∧ tool.value.length ≤ 64 := by
  cases tool <;> decide

def Settled (host : Host) (tool : ToolName) (arguments : Dict) : Prop :=
  ∀ entry ∈ arguments, normalizeArgument host tool entry = .ok entry

lemma normalizeArgument_settled {entry entry' : String × Value} (h : normalizeArgument host tool entry = .ok entry') :
    normalizeArgument host tool entry' = .ok entry' := by
  obtain ⟨key, value⟩ := entry
  cases value with
  | str text =>
    simp only [normalizeArgument] at h
    split_ifs at h with harray hobject
    · obtain ⟨decoded, -, h⟩ := ok_of_bind h
      cases decoded <;> cases h
      rfl
    · obtain ⟨decoded, -, h⟩ := ok_of_bind h
      cases decoded <;> cases h
      rfl
    · cases h
      simp only [normalizeArgument, if_neg harray, if_neg hobject]
  | _ =>
    cases h
    rfl

lemma settled_of_normalize (h : normalizeStructuredArguments host tool arguments = .ok arguments') : Settled host tool arguments' := by
  intro entry hentry
  obtain ⟨before, -, hbefore⟩ := (mapM_mem h).1 entry hentry
  exact normalizeArgument_settled hbefore

lemma Settled.normalize (h : Settled host tool arguments) : normalizeStructuredArguments host tool arguments = .ok arguments := by
  have hmap := @mapM_ok _ _ _ (normalizeArgument host tool) id arguments h
  rwa [List.map_id] at hmap

lemma normalizeArgument_split {key : String} {checks : Value} (h : normalizeArgument host tool (key, checks) = .ok (key, checks)) :
    normalizeArgument host tool (key, splitRequirementSpans checks) = .ok (key, splitRequirementSpans checks) := by
  cases checks with
  | arr items =>
    simp only [splitRequirementSpans]
    split <;> rfl
  | _ => exact h

lemma mem_merge {key : String} {value : Value} {entry : String × Value} (h : entry ∈ merge key value arguments) :
    entry = (key, value) ∨ entry ∈ arguments := by
  unfold merge at h
  split at h
  · obtain ⟨before, hbefore, rfl⟩ := List.mem_map.mp h
    split
    · exact .inl rfl
    · exact .inr hbefore
  · rcases List.mem_append.mp h with h | h
    · exact .inr h
    · exact .inl (List.mem_singleton.mp h)

lemma Settled.split (h : Settled host tool arguments) : Settled host tool (splitArguments tool arguments) := by
  unfold splitArguments
  split
  · intro entry hentry
    rcases mem_merge hentry with rfl | hentry
    · apply normalizeArgument_split
      cases hget : arguments.get? "checks" with
      | none =>
        simp only [Dict.get, hget, Option.getD_none]
        rfl
      | some checks =>
        simp only [Dict.get, hget, Option.getD_some]
        exact h _ (Dict.mem_of_get? hget)
    · exact h entry hentry
  · exact h

lemma splitArguments_settled (tool : ToolName) (arguments : Dict) :
    splitArguments tool (splitArguments tool arguments) = splitArguments tool arguments := by
  unfold splitArguments
  split
  · have hget : (merge "checks" (splitRequirementSpans (arguments.get "checks")) arguments).get "checks" =
        splitRequirementSpans (arguments.get "checks") := Dict.get_of_get? (by rw [get?_merge, if_pos rfl])
    rw [hget, splitRequirementSpans_settled, merge_merge]
  · rfl

structure Accepted (host : Host) (callId toolType : String) (arguments : Dict) (tool : ToolName) (decoded : Dict) : Prop where
  bounds : callId ≠ "" ∧ callId.length ≤ 128 ∧ toolType ≠ "" ∧ toolType.length ≤ 64
  named : parseToolName toolType = some tool
  decodes : normalizeStructuredArguments host tool arguments = .ok decoded
  valid : validateProductToolArguments host tool (splitArguments tool decoded) = .ok ()

lemma validated_iff {callId toolType : String} {call : ProductToolCall} : validated host callId toolType arguments = .ok call ↔
    ∃ tool decoded, Accepted host callId toolType arguments tool decoded ∧ call = ⟨callId, tool.value, splitArguments tool decoded⟩ := by
  unfold validated
  rw [require_iff]
  constructor
  · rintro ⟨hbounds, h⟩
    cases hnamed : parseToolName toolType with
    | none =>
      rw [hnamed] at h
      cases h
    | some tool =>
      simp only [hnamed] at h
      obtain ⟨decoded, hdecodes, h⟩ := ok_of_bind h
      obtain ⟨_, hvalid, h⟩ := ok_of_bind h
      cases h
      exact ⟨tool, decoded, ⟨hbounds, hnamed, hdecodes, hvalid⟩, rfl⟩
  · rintro ⟨tool, decoded, h, rfl⟩
    refine ⟨h.bounds, ?_⟩
    simp only [h.named]
    rw [bind_ok h.decodes, bind_ok h.valid]

lemma parse_toProviderDict {value : Value} {call : ProductToolCall} (h : ProductToolCall.parse host value = .ok call) :
    ProductToolCall.parse host call.toProviderDict = .ok call := by
  unfold ProductToolCall.parse at h
  obtain ⟨⟨callId, toolType, arguments⟩, -, h⟩ := ok_of_bind h
  obtain ⟨tool, decoded, haccepted, rfl⟩ := validated_iff.mp h
  have hfields : fieldsOf (ProductToolCall.toProviderDict ⟨callId, tool.value, splitArguments tool decoded⟩) =
      .ok (callId, tool.value, splitArguments tool decoded) := rfl
  have hsettled := (settled_of_normalize haccepted.decodes).split
  unfold ProductToolCall.parse
  rw [bind_ok hfields]
  apply validated_iff.mpr
  refine ⟨tool, splitArguments tool decoded, ⟨?_, parseToolName_value tool, hsettled.normalize, ?_⟩, ?_⟩
  · exact ⟨haccepted.bounds.1, haccepted.bounds.2.1, length_value tool⟩
  · rw [splitArguments_settled]
    exact haccepted.valid
  · rw [splitArguments_settled]

def rawCalls : Value → List Value
  | .obj value =>
    match Dict.get value "tool_calls" with
    | .arr calls => calls
    | _ => []
  | _ => []

structure PlanAccepted (host : Host) (maxCalls : ℤ) (value : Value) (plan : ProductToolPlan) : Prop where
  version : parseVersion (.str plan.version) = .ok plan.version
  summary : parseSummary (.bool plan.final) (.str plan.summary) = .ok plan.summary
  count : (plan.toolCalls.length : ℤ) ≤ maxCalls
  calls : (rawCalls value).mapM (ProductToolCall.parse host) = .ok plan.toolCalls
  final : ¬(plan.final = true ∧ plan.toolCalls.isEmpty = false)
  turn : ¬(plan.final = false ∧ plan.toolCalls.isEmpty = true)

lemma parseVersion_eq {value : Value} {version : String} (h : parseVersion value = .ok version) : value = .str version := by
  cases value with
  | str text =>
    simp only [parseVersion] at h
    split_ifs at h
    rw [Except.ok.inj h]
  | _ => cases h

lemma parseSummary_eq {final value : Value} {summary : String} (h : parseSummary final value = .ok summary) : value = .str summary := by
  cases value with
  | str text =>
    simp only [parseSummary] at h
    split at h <;> split_ifs at h <;> rw [Except.ok.inj h]
  | _ => cases h

lemma parse_accepted {maxCalls : ℤ} {value : Value} {plan : ProductToolPlan}
    (h : ProductToolPlan.parse host maxCalls value = .ok plan) : PlanAccepted host maxCalls value plan := by
  cases value with
  | obj entries =>
    simp only [ProductToolPlan.parse, require_iff] at h
    obtain ⟨-, h⟩ := h
    obtain ⟨version, hversion, h⟩ := ok_of_bind h
    obtain ⟨summary, hsummary, h⟩ := ok_of_bind h
    split at h
    · rename_i calls final hcalls hfinal
      obtain ⟨hcount, h⟩ := require_iff.mp h
      obtain ⟨parsed, hparsed, h⟩ := ok_of_bind h
      obtain ⟨hends, h⟩ := require_iff.mp h
      obtain ⟨hturn, h⟩ := require_iff.mp h
      cases h
      rw [hfinal] at hsummary
      have hraw : rawCalls (.obj entries) = calls := by simp only [rawCalls, hcalls]
      refine ⟨parseVersion_eq hversion ▸ hversion, parseSummary_eq hsummary ▸ hsummary, ?_, hraw ▸ hparsed, hends, hturn⟩
      rwa [← (mapM_iff.mp hparsed).length_eq]
    · cases h
  | _ => cases h

lemma plan_parse_toProviderDict {maxCalls : ℤ} {value : Value} {plan : ProductToolPlan}
    (h : PlanAccepted host maxCalls value plan) : ProductToolPlan.parse host maxCalls plan.toProviderDict = .ok plan := by
  have hcalls : (plan.toolCalls.map ProductToolCall.toProviderDict).mapM (ProductToolCall.parse host) = .ok plan.toolCalls := by
    apply mapM_iff.mpr
    apply List.forall₂_map_left_iff.mpr
    apply List.forall₂_same.mpr
    intro call hcall
    obtain ⟨raw, -, hraw⟩ := (mapM_mem h.calls).1 call hcall
    exact parse_toProviderDict hraw
  have hkeys : Dict.HasKeys [("version", .str plan.version), ("summary", .str plan.summary),
      ("tool_calls", .arr (plan.toolCalls.map ProductToolCall.toProviderDict)), ("final", .bool plan.final)]
      ["version", "summary", "tool_calls", "final"] := by
    simp [Dict.HasKeys, Dict.get?, Tables.lookup]
  have hcount : ((plan.toolCalls.map ProductToolCall.toProviderDict).length : ℤ) ≤ maxCalls := by
    rw [List.length_map]
    exact h.count
  unfold ProductToolPlan.toProviderDict ProductToolPlan.parse
  refine require_iff.mpr ⟨hkeys, ?_⟩
  refine (bind_ok h.version _).trans ?_
  refine (bind_ok h.summary _).trans ?_
  refine require_iff.mpr ⟨hcount, ?_⟩
  refine (bind_ok hcalls _).trans ?_
  exact require_iff.mpr ⟨h.final, require_iff.mpr ⟨h.turn, rfl⟩⟩

def submittedChecks (host : Host) (raw : Value) : Option Value :=
  match fieldsOf raw with
  | .ok (_, toolType, arguments) =>
    if parseToolName toolType = some .verifyRequirements then
      (normalizeStructuredArguments host .verifyRequirements arguments).toOption.map fun decoded => decoded.get "checks"
    else none
  | .error _ => none

def Bounded (check : Value) : Prop :=
  (references check).length ≤ 8 ∧ ∀ reference ∈ references check, ∀ span, spanOf reference = some span → span.count ≤ 80

lemma checks_of_parse {raw checks : Value} {call : ProductToolCall} (h : ProductToolCall.parse host raw = .ok call)
    (hchecks : submittedChecks host raw = some checks) :
    validateRequirementChecks (splitRequirementSpans checks) = .ok () := by
  unfold ProductToolCall.parse at h
  obtain ⟨⟨callId, toolType, arguments⟩, hfields, h⟩ := ok_of_bind h
  obtain ⟨tool, decoded, haccepted, -⟩ := validated_iff.mp h
  unfold submittedChecks at hchecks
  simp only [hfields, haccepted.named, Option.some.injEq] at hchecks
  split at hchecks
  · rename_i htool
    subst htool
    rw [haccepted.decodes] at hchecks
    have hvalid := haccepted.valid
    have hget : (merge "checks" (splitRequirementSpans (decoded.get "checks")) decoded).get "checks" =
        splitRequirementSpans (decoded.get "checks") := Dict.get_of_get? (by rw [get?_merge, if_pos rfl])
    simp only [validateProductToolArguments, newTools, require_iff, splitArguments, if_true, validateTool, hget] at hvalid
    cases hchecks
    exact mapError_ok.mp hvalid.2.2.2
  · cases hchecks

lemma bounded_of_valid {checks : Value} (h : validateRequirementChecks (splitRequirementSpans checks) = .ok ()) :
    ∃ items, checks = .arr items ∧ splitRequirementSpans checks = .arr (items.map splitCheck) ∧ ∀ check ∈ items, Bounded (splitCheck check) := by
  obtain ⟨pieces, hpieces, hmin, hmax, hvalid⟩ := checks_of_validate h
  cases checks with
  | arr items =>
    by_cases hlength : 1 ≤ items.length ∧ items.length ≤ 256
    · simp only [splitRequirementSpans, if_pos hlength] at hpieces ⊢
      cases hpieces
      refine ⟨items, rfl, rfl, fun check hcheck => ?_⟩
      obtain ⟨field, hcheck⟩ := hvalid _ (List.mem_map_of_mem hcheck)
      exact references_of_validateCheck hcheck
    · simp only [splitRequirementSpans, if_neg hlength] at hpieces
      cases hpieces
      exact absurd ⟨hmin, hmax⟩ hlength
  | _ => cases hpieces

/-- A plan that is accepted is parsed again to itself, and the split keeps exactly the lines that are cited. -/
theorem plan_stable (host : Host) (maxCalls : ℤ) (value : Value) (plan : ProductToolPlan)
    (h : ProductToolPlan.parse host maxCalls value = .ok plan) :
    ProductToolPlan.parse host maxCalls plan.toProviderDict = .ok plan ∧
    (∀ raw ∈ rawCalls value, ∀ checks, submittedChecks host raw = some checks →
      ∃ items, checks = .arr items ∧ splitRequirementSpans checks = .arr (items.map splitCheck) ∧
        ∀ check ∈ items, Bounded (splitCheck check) ∧ ∀ path line, Cites (splitCheck check) path line ↔ Cites check path line) ∧
    ∀ check : Value, (∀ path line, Cites (splitCheck check) path line ↔ Cites check path line) ∧
      (splitCheck check = check ∨ (references (splitCheck check)).length ≤ 8) ∧
      ∀ reference ∈ references (splitCheck check), reference ∈ references check ∨ ∃ span, spanOf reference = some span ∧ span.count ≤ 80 := by
  have haccepted := parse_accepted h
  refine ⟨plan_parse_toProviderDict haccepted, fun raw hraw checks hchecks => ?_, fun check => ?_⟩
  · obtain ⟨call, -, hcall⟩ := (mapM_mem haccepted.calls).2 raw hraw
    obtain ⟨items, hitems, hsplit, hbounded⟩ := bounded_of_valid (checks_of_parse hcall hchecks)
    exact ⟨items, hitems, hsplit, fun check hcheck => ⟨hbounded check hcheck, cites_splitCheck check⟩⟩
  · exact ⟨cites_splitCheck check, length_splitCheck check, fun reference => references_splitCheck⟩

theorem plan_stable_span : ∃ host maxCalls value plan, ProductToolPlan.parse host maxCalls value = .ok plan ∧
    ProductToolPlan.parse host maxCalls plan.toProviderDict = .ok plan := by
  have h : ProductToolPlan.parse ⟨⟨id⟩, fun _ => none⟩ 5
      (.obj [("version", .str "forgex.toolplan.v2"), ("summary", .str ""), ("final", .bool false),
        ("tool_calls", .arr [.obj [("id", .str "1"), ("type", .str "verify_requirements"), ("arguments", .obj
          [("checks", .arr [.obj [("id", .str "R1"), ("status", .str "implemented"), ("evidence", .arr
            [spanReference (.str "a.c") ⟨1, 100⟩])]])])]])]) =
      .ok ⟨"forgex.toolplan.v2", "", [⟨"1", "verify_requirements",
        [("checks", .arr [.obj [("id", .str "R1"), ("status", .str "implemented"), ("evidence", .arr
          [spanReference (.str "a.c") ⟨1, 80⟩, spanReference (.str "a.c") ⟨81, 100⟩])]])]⟩], false⟩ := rfl
  exact ⟨_, _, _, _, h, (plan_stable _ _ _ _ h).1⟩

end PromptForge.ToolPlans
