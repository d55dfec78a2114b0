import PromptForge.RequirementSpans

namespace PromptForge.RequirementSpans
open Json Runs Spans

@[simp] lemma spanOf_spanReference (path : Value) (span : Span) : spanOf (spanReference path span) = some span := by
  have hkeys : Dict.HasKeys [("path", path), ("start_line", .int span.first), ("end_line", .int span.last)] spanKeys := by
    simp [Dict.HasKeys, spanKeys, Dict.get?, Tables.lookup]
  have hfirst : Dict.get? [("path", path), ("start_line", .int span.first), ("end_line", .int span.last)] "start_line" =
      some (.int span.first) := rfl
  have hlast : Dict.get? [("path", path), ("start_line", .int span.first), ("end_line", .int span.last)] "end_line" =
      some (.int span.last) := rfl
  simp only [spanReference, spanOf, hfirst, hlast, if_pos hkeys]

lemma splitReference_of_not_long {reference : Value} (h : ∀ span, spanOf reference = some span → ¬isLong span) :
    splitReference reference = [reference] := by
  unfold splitReference
  cases hspan : spanOf reference with
  | none => rfl
  | some span => simp only [if_neg (h span hspan)]

lemma splitReference_of_long {reference : Value} {span : Span} (hspan : spanOf reference = some span) (hlong : isLong span) :
    splitReference reference = (span.cut 80).map (spanReference (pathOf reference)) := by
  unfold splitReference
  simp only [hspan, if_pos hlong]

lemma splitReference_settled {reference piece : Value} (h : piece ∈ splitReference reference) : splitReference piece = [piece] := by
  by_cases hlong : ∃ span, spanOf reference = some span ∧ isLong span
  · obtain ⟨span, hspan, hlong⟩ := hlong
    rw [splitReference_of_long hspan hlong] at h
    obtain ⟨part, hpart, rfl⟩ := List.mem_map.mp h
    apply splitReference_of_not_long
    intro span' hspan' hlong'
    rw [spanOf_spanReference] at hspan'
    have hcount := Span.count_cut hpart
    obtain ⟨-, -, -, hlong', -⟩ := hlong'
    rw [← Option.some.inj hspan'] at hlong'
    omega
  · have hnot : ∀ span, spanOf reference = some span → ¬isLong span := fun span hspan hl => hlong ⟨span, hspan, hl⟩
    have hself := splitReference_of_not_long hnot
    rw [hself] at h
    rw [List.mem_singleton.mp h]
    exact hself

lemma flatMap_splitReference_settled (evidence : List Value) :
    (evidence.flatMap splitReference).flatMap splitReference = evidence.flatMap splitReference := by
  have hself : ∀ pieces : List Value, (∀ piece ∈ pieces, splitReference piece = [piece]) → pieces.flatMap splitReference = pieces := by
    intro pieces
    induction pieces with
    | nil => exact fun _ => rfl
    | cons piece pieces ih =>
      intro h
      obtain ⟨hpiece, hrest⟩ := List.forall_mem_cons.mp h
      rw [List.flatMap_cons, hpiece, ih hrest]
      rfl
  apply hself
  intro piece hpiece
  obtain ⟨reference, -, hpiece⟩ := List.mem_flatMap.mp hpiece
  exact splitReference_settled hpiece

def references : Value → List Value
  | .obj check =>
    match Dict.get? check "evidence" with
    | some (.arr evidence) => evidence
    | _ => []
  | _ => []

lemma splitCheck_cases (check : Value) : splitCheck check = check ∨
    ∃ (fields : Dict) (evidence : List Value), check = .obj fields ∧ fields.get? "evidence" = some (.arr evidence) ∧
      (evidence.flatMap splitReference).length ≤ 8 ∧
      splitCheck check = .obj (merge "evidence" (.arr (evidence.flatMap splitReference)) fields) := by
  cases check with
  | obj fields =>
    cases hget : Dict.get? fields "evidence" with
    | none => exact .inl (by simp only [splitCheck, hget])
    | some value =>
      cases value with
      | arr evidence =>
        by_cases hlength : (evidence.flatMap splitReference).length ≤ 8
        · exact .inr ⟨fields, evidence, rfl, hget, hlength, by simp only [splitCheck, hget, if_pos hlength]⟩
        · exact .inl (by simp only [splitCheck, hget, if_neg hlength])
      | _ => exact .inl (by simp only [splitCheck, hget])
  | _ => exact .inl rfl

lemma splitCheck_settled (check : Value) : splitCheck (splitCheck check) = splitCheck check := by
  rcases splitCheck_cases check with hsame | ⟨fields, evidence, rfl, -, hlength, hsplit⟩
  · rw [hsame, hsame]
  · have hget : Dict.get? (merge "evidence" (.arr (evidence.flatMap splitReference)) fields) "evidence" =
        some (.arr (evidence.flatMap splitReference)) := by rw [get?_merge, if_pos rfl]
    rw [hsplit]
    simp only [splitCheck, hget, flatMap_splitReference_settled, if_pos hlength, merge_merge]

lemma splitRequirementSpans_settled (checks : Value) :
    splitRequirementSpans (splitRequirementSpans checks) = splitRequirementSpans checks := by
  cases checks with
  | arr items =>
    by_cases hlength : 1 ≤ items.length ∧ items.length ≤ 256
    · have hlength' : 1 ≤ (items.map splitCheck).length ∧ (items.map splitCheck).length ≤ 256 := by rwa [List.length_map]
      simp only [splitRequirementSpans, if_pos hlength, if_pos hlength', List.map_map]
      congr 1
      apply List.map_congr_left
      exact fun check _ => splitCheck_settled check
    · simp only [splitRequirementSpans, if_neg hlength]
  | _ => rfl

def Cites (check path : Value) (line : ℤ) : Prop :=
  ∃ reference ∈ references check, pathOf reference = path ∧ ∃ span, spanOf reference = some span ∧ span.Has line

lemma cites_splitReference (reference path : Value) (line : ℤ) :
    (∃ piece ∈ splitReference reference, pathOf piece = path ∧ ∃ span, spanOf piece = some span ∧ span.Has line) ↔
      pathOf reference = path ∧ ∃ span, spanOf reference = some span ∧ span.Has line := by
  by_cases hlong : ∃ span, spanOf reference = some span ∧ isLong span
  · obtain ⟨span, hspan, hlong⟩ := hlong
    have hcut := @Span.has_cut 80 span (by decide) line
    simp only [splitReference_of_long hspan hlong, List.mem_map, hspan, Option.some.injEq, exists_eq_left']
    rw [← hcut]
    constructor
    · rintro ⟨piece, ⟨part, hpart, rfl⟩, hpath, span', hspan', hline⟩
      rw [spanOf_spanReference] at hspan'
      cases hspan'
      exact ⟨hpath, part, hpart, hline⟩
    · rintro ⟨hpath, part, hpart, hline⟩
      exact ⟨_, ⟨part, hpart, rfl⟩, hpath, part, spanOf_spanReference .., hline⟩
  · rw [splitReference_of_not_long fun span hspan hl => hlong ⟨span, hspan, hl⟩]
    simp

lemma references_merge (value : List Value) (fields : Dict) : references (.obj (merge "evidence" (.arr value) fields)) = value := by
  simp only [references, get?_merge, if_true]

lemma cites_splitCheck (check path : Value) (line : ℤ) : Cites (splitCheck check) path line ↔ Cites check path line := by
  rcases splitCheck_cases check with hsame | ⟨fields, evidence, rfl, hget, -, hsplit⟩
  · rw [hsame]
  · have hreferences : references (.obj fields) = evidence := by simp only [references, hget]
    unfold Cites
    rw [hsplit, references_merge, hreferences]
    constructor
    · rintro ⟨piece, hpiece, hcites⟩
      obtain ⟨reference, hreference, hpiece⟩ := List.mem_flatMap.mp hpiece
      exact ⟨reference, hreference, (cites_splitReference reference path line).mp ⟨piece, hpiece, hcites⟩⟩
    · rintro ⟨reference, hreference, hcites⟩
      obtain ⟨piece, hpiece, hcites⟩ := (cites_splitReference reference path line).mpr hcites
      exact ⟨piece, List.mem_flatMap.mpr ⟨reference, hreference, hpiece⟩, hcites⟩

lemma references_splitCheck {check reference : Value} (h : reference ∈ references (splitCheck check)) :
    reference ∈ references check ∨ ∃ span, spanOf reference = some span ∧ span.count ≤ 80 := by
  rcases splitCheck_cases check with hsame | ⟨fields, evidence, rfl, hget, -, hsplit⟩
  · exact .inl (hsame ▸ h)
  · have hreferences : references (.obj fields) = evidence := by simp only [references, hget]
    rw [hsplit, references_merge] at h
    obtain ⟨whole, hwhole, hpiece⟩ := List.mem_flatMap.mp h
    by_cases hlong : ∃ span, spanOf whole = some span ∧ isLong span
    · obtain ⟨span, hspan, hlong⟩ := hlong
      rw [splitReference_of_long hspan hlong] at hpiece
      obtain ⟨part, hpart, rfl⟩ := List.mem_map.mp hpiece
      exact .inr ⟨part, spanOf_spanReference .., Span.count_cut hpart⟩
    · rw [splitReference_of_not_long fun span hspan hl => hlong ⟨span, hspan, hl⟩] at hpiece
      rw [List.mem_singleton.mp hpiece, hreferences]
      exact .inl hwhole

lemma length_splitCheck (check : Value) : splitCheck check = check ∨ (references (splitCheck check)).length ≤ 8 := by
  rcases splitCheck_cases check with hsame | ⟨fields, evidence, -, -, hlength, hsplit⟩
  · exact .inl hsame
  · rw [hsplit, references_merge]
    exact .inr hlength

lemma span_of_validateReference {location : String} {reference : Value} (h : validateReference location reference = .ok ())
    {span : Span} (hspan : spanOf reference = some span) : span.count ≤ 80 := by
  cases reference with
  | obj fields =>
    simp only [spanOf] at hspan
    split at hspan
    · rename_i first last hfirst hlast
      split at hspan
      · rename_i hkeys
        cases hspan
        have hquote : ¬Dict.HasKeys fields ["path", "quote"] := by
          intro hquote
          have hmem := hquote.1 _ (Dict.mem_of_get? hfirst)
          simp at hmem
        simp only [validateReference, require_iff, if_neg hquote, if_pos hkeys, Dict.get_of_get? hfirst, Dict.get_of_get? hlast] at h
        simp only [validateLines, require_iff] at h
        have hcount := of_require h.2.2
        simp only [Span.count]
        omega
      · cases hspan
    · cases hspan
  | _ => cases hspan

lemma forM_zipIdx {α ε : Type} {f : α × ℕ → Except ε Unit} {items : List α} (h : items.zipIdx.forM f = .ok ()) :
    ∀ item ∈ items, ∃ i, f (item, i) = .ok () := by
  intro item hitem
  obtain ⟨i, hi, rfl⟩ := List.getElem_of_mem hitem
  exact ⟨i, forM_iff.mp h _ (by simp [List.mk_mem_zipIdx_iff_getElem?])⟩

lemma references_of_validateCheck {field : String} {check : Value} (h : validateCheck field check = .ok ()) :
    (references check).length ≤ 8 ∧ ∀ reference ∈ references check, ∀ span, spanOf reference = some span → span.count ≤ 80 := by
  cases check with
  | obj fields =>
    simp only [validateCheck, require_iff] at h
    obtain ⟨hkeys, -, -, h⟩ := h
    obtain ⟨value, hvalue⟩ := Option.isSome_iff_exists.mp (hkeys.2 "evidence" (by simp))
    rw [Dict.get_of_get? hvalue] at h
    cases value with
    | arr evidence =>
      simp only [validateEvidence, require_iff] at h
      have hreferences : references (.obj fields) = evidence := by simp only [references, hvalue]
      rw [hreferences]
      refine ⟨h.1, fun reference hreference span hspan => ?_⟩
      obtain ⟨number, hvalid⟩ := forM_zipIdx h.2 reference hreference
      exact span_of_validateReference hvalid hspan
    | _ => simp [validateEvidence] at h
  | _ => simp [validateCheck] at h

lemma checks_of_validate {checks : Value} (h : validateRequirementChecks checks = .ok ()) :
    ∃ items, checks = .arr items ∧ 1 ≤ items.length ∧ items.length ≤ 256 ∧ ∀ check ∈ items, ∃ field, validateCheck field check = .ok () := by
  cases checks with
  | arr items =>
    simp only [validateRequirementChecks, require_iff] at h
    refine ⟨items, rfl, h.1.1, h.1.2, fun check hcheck => ?_⟩
    obtain ⟨index, hvalid⟩ := forM_zipIdx h.2 check hcheck
    exact ⟨_, hvalid⟩
  | _ => simp [validateRequirementChecks] at h

end PromptForge.RequirementSpans
