import PromptForge.LivePlan

namespace PromptForge.LivePlan
open Json Runs Tables

variable {host : Host} {plan plan' : Plan} {draft draft' : Draft} {steps : List Step} {text : String} {item : Dict}

def takenItem (host : Host) (texts : List String) : Value → Option (Dict × String)
  | .obj item =>
    let text := textOf host item
    if text = "" ∨ text ∈ texts then none else some (item, text)
  | _ => none

def taken (host : Host) (texts : List String) : List Value → List (Dict × String)
  | [] => []
  | raw :: raws =>
    match takenItem host texts raw with
    | some item => item :: taken host (texts ++ [item.2]) raws
    | none => taken host texts raws

def Matches (step : Step) (item : Dict × String) : Prop :=
  step.text = item.2 ∨ truthy (keyOf step) = true ∧ same (keyOf step) (item.1.get "key") = true

lemma matches_of_previous {old : Step} (h : previous steps item text = some old) : old ∈ steps ∧ Matches old (item, text) := by
  unfold previous at h
  cases hkey : previousByKey steps (item.get "key") with
  | some found =>
    rw [hkey] at h
    cases h
    have hfound := List.find?_some hkey
    rw [Bool.and_eq_true] at hfound
    exact ⟨List.mem_reverse.mp (List.mem_of_find?_eq_some hkey), .inr hfound⟩
  | none =>
    rw [hkey] at h
    have hfound := List.find?_some h
    exact ⟨List.mem_reverse.mp (List.mem_of_find?_eq_some h), .inl (of_decide_eq_true hfound)⟩

lemma previous_of_matches {step : Step} (hstep : step ∈ steps) (h : Matches step (item, text)) :
    ∃ old, previous steps item text = some old := by
  apply Option.isSome_iff_exists.mp
  unfold previous
  rw [Option.isSome_or, Bool.or_eq_true]
  cases h with
  | inl htext =>
    right
    exact List.find?_isSome.mpr ⟨step, List.mem_reverse.mpr hstep, decide_eq_true htext⟩
  | inr hkey =>
    left
    exact List.find?_isSome.mpr ⟨step, List.mem_reverse.mpr hstep, by simp [hkey]⟩

def DrawnIn (host : Host) (low high : ℕ) (identity : String) : Prop := ∃ k, low ≤ k ∧ k < high ∧ identity = "step-" ++ host.uuid k

abbrev Pairing := (Dict × String) × Step

structure Made (host : Host) (plan : Plan) (low high : ℕ) (z : Pairing) : Prop where
  step : ∃ hkey inProgress, z.2 = stepOf host plan (previous plan.steps z.1.1 z.1.2) z.2.identity z.1.1 hkey z.1.2 inProgress
  kept : ∀ old, previous plan.steps z.1.1 z.1.2 = some old → z.2.identity = old.identity
  fresh : previous plan.steps z.1.1 z.1.2 = none → DrawnIn host low high z.2.identity

@[simp] lemma stepOf_identity (old : Option Step) (identity : String) (hkey : isHashable (item.get "key") = true) (inProgress : Bool) :
    (stepOf host plan old identity item hkey text inProgress).identity = identity := rfl

@[simp] lemma stepOf_text (old : Option Step) (identity : String) (hkey : isHashable (item.get "key") = true) (inProgress : Bool) :
    (stepOf host plan old identity item hkey text inProgress).text = text := rfl

lemma made_of_some {old : Step} {low high : ℕ} (hold : previous plan.steps item text = some old) (hkey : isHashable (item.get "key") = true)
    (inProgress : Bool) : Made host plan low high ((item, text), stepOf host plan (some old) old.identity item hkey text inProgress) where
  step := ⟨hkey, inProgress, by rw [stepOf_identity, hold]⟩
  kept found hfound := by
    rw [hold] at hfound
    rw [stepOf_identity, Option.some.inj hfound]
  fresh hnone := by
    rw [hold] at hnone
    cases hnone

lemma made_of_none {low : ℕ} (hold : previous plan.steps item text = none) (hkey : isHashable (item.get "key") = true)
    (inProgress : Bool) :
    Made host plan low (low + 1) ((item, text), stepOf host plan none ("step-" ++ host.uuid low) item hkey text inProgress) where
  step := ⟨hkey, inProgress, by rw [stepOf_identity, hold]⟩
  kept found hfound := by
    rw [hold] at hfound
    cases hfound
  fresh _ := ⟨low, le_rfl, Nat.lt_succ_self low, rfl⟩

lemma addItem_skips {raw : Value} (h : takenItem host (draft.steps.map Step.text) raw = none) :
    addItem host plan draft raw = .ok draft := by
  cases raw with
  | obj item =>
    have hskip : textOf host item = "" ∨ textOf host item ∈ draft.steps.map Step.text := by
      by_contra hnot
      simp only [takenItem, if_neg hnot] at h
      cases h
    have hany : textOf host item = "" ∨ (draft.steps.any fun step => step.text = textOf host item) = true := by
      refine hskip.imp_right fun hmem => ?_
      obtain ⟨step, hstep, hsame⟩ := List.mem_map.mp hmem
      exact List.any_eq_true.mpr ⟨step, hstep, decide_eq_true hsame⟩
    simp only [addItem, if_pos hany]
  | _ => rfl

lemma addItem_takes {raw : Value} {pair : Dict × String} (htaken : takenItem host (draft.steps.map Step.text) raw = some pair)
    (h : addItem host plan draft raw = .ok draft') :
    ∃ new, draft'.steps = draft.steps ++ [new] ∧ new.text = pair.2 ∧ draft.drawn ≤ draft'.drawn ∧
      Made host plan draft.drawn draft'.drawn (pair, new) := by
  cases raw with
  | obj item =>
    by_cases hskip : textOf host item = "" ∨ textOf host item ∈ draft.steps.map Step.text
    · simp only [takenItem, if_pos hskip] at htaken
      cases htaken
    · simp only [takenItem, if_neg hskip, Option.some.injEq] at htaken
      subst htaken
      have hany : ¬ (textOf host item = "" ∨ (draft.steps.any fun step => step.text = textOf host item) = true) := by
        simpa using hskip
      simp only [addItem, if_neg hany] at h
      by_cases hkey : isHashable (Dict.get item "key") = true
      · rw [dif_pos hkey] at h
        cases hold : previous plan.steps item (textOf host item) with
        | some old =>
          rw [hold] at h
          cases h
          exact ⟨_, rfl, rfl, le_rfl, made_of_some hold hkey _⟩
        | none =>
          rw [hold] at h
          cases h
          exact ⟨_, rfl, rfl, Nat.le_succ _, made_of_none hold hkey _⟩
      · rw [dif_neg hkey] at h
        cases h
  | _ => cases htaken

def Drawn (host : Host) (plan : Plan) : Prop := ∀ step ∈ plan.steps, DrawnIn host 0 plan.drawn step.identity

def Distinct (plan : Plan) : Prop := (plan.steps.map Step.identity).Nodup

def Apart (plan : Plan) (z z' : Pairing) : Prop :=
  z.2.identity = z'.2.identity → ∃ old ∈ plan.steps, Matches old z.1 ∧ Matches old z'.1

lemma drawnIn_apart (hids : Function.Injective host.uuid) {a b c d : ℕ} {identity : String} (h : DrawnIn host a b identity)
    (h' : DrawnIn host c d identity) (hle : b ≤ c) : False := by
  obtain ⟨k, -, hk, rfl⟩ := h
  obtain ⟨k', hk', -, hsame⟩ := h'
  have := hids (String.append_right_inj _ |>.mp hsame)
  omega

lemma Made.widen {low high low' high' : ℕ} {z : Pairing} (h : Made host plan low high z) (hlow : low' ≤ low)
    (hhigh : high ≤ high') : Made host plan low' high' z where
  step := h.step
  kept := h.kept
  fresh hnone := by
    obtain ⟨k, hk, hk', hsame⟩ := h.fresh hnone
    exact ⟨k, by omega, by omega, hsame⟩

lemma apart_of_made (hids : Function.Injective host.uuid) (hdrawn : Drawn host plan) (hdistinct : Distinct plan) {a b c d : ℕ}
    {z z' : Pairing} (hstart : plan.drawn ≤ a) (hle : b ≤ c) (h : Made host plan a b z) (h' : Made host plan c d z')
    (hwithin : a ≤ b) : Apart plan z z' := by
  intro hsame
  cases hold : previous plan.steps z.1.1 z.1.2 with
  | some old =>
    obtain ⟨hmem, hmatch⟩ := matches_of_previous hold
    cases hold' : previous plan.steps z'.1.1 z'.1.2 with
    | some old' =>
      obtain ⟨hmem', hmatch'⟩ := matches_of_previous hold'
      have holds : old = old' := by
        apply List.inj_on_of_nodup_map hdistinct hmem hmem'
        rw [← h.kept old hold, ← h'.kept old' hold', hsame]
      exact ⟨old, hmem, hmatch, holds ▸ hmatch'⟩
    | none =>
      have hfresh := h'.fresh hold'
      rw [← hsame, h.kept old hold] at hfresh
      exact (drawnIn_apart hids (hdrawn old hmem) hfresh (by omega)).elim
  | none =>
    have hfresh := h.fresh hold
    cases hold' : previous plan.steps z'.1.1 z'.1.2 with
    | some old' =>
      rw [hsame, h'.kept old' hold'] at hfresh
      exact (drawnIn_apart hids (hdrawn old' (matches_of_previous hold').1) hfresh hstart).elim
    | none =>
      rw [hsame] at hfresh
      exact (drawnIn_apart hids hfresh (h'.fresh hold') hle).elim

lemma drafted (hids : Function.Injective host.uuid) (hdrawn : Drawn host plan) (hdistinct : Distinct plan) {raws : List Value}
    (hstart : plan.drawn ≤ draft.drawn) (h : raws.foldlM (addItem host plan) draft = .ok draft') :
    ∃ zs : List Pairing, zs.map Prod.fst = taken host (draft.steps.map Step.text) raws ∧ draft'.steps = draft.steps ++ zs.map Prod.snd ∧
      draft.drawn ≤ draft'.drawn ∧ (∀ z ∈ zs, Made host plan draft.drawn draft'.drawn z) ∧ zs.Pairwise (Apart plan) := by
  induction raws generalizing draft with
  | nil =>
    cases h
    exact ⟨[], rfl, by simp, le_rfl, by simp, List.Pairwise.nil⟩
  | cons raw raws ih =>
    rw [List.foldlM_cons] at h
    obtain ⟨middle, hmiddle, h⟩ := ok_of_bind h
    cases htaken : takenItem host (draft.steps.map Step.text) raw with
    | none =>
      rw [addItem_skips htaken] at hmiddle
      cases hmiddle
      simpa only [taken, htaken] using ih hstart h
    | some pair =>
      obtain ⟨new, hnew, htext, hle, hmade⟩ := addItem_takes htaken hmiddle
      obtain ⟨zs, htakens, hsteps, hle', hall, hapart⟩ := ih (hstart.trans hle) h
      refine ⟨(pair, new) :: zs, ?_, by simp [hsteps, hnew], hle.trans hle', ?_, ?_⟩
      · simp only [taken, htaken, List.map_cons, htakens, hnew, List.map_append, htext, List.map_nil]
      · refine List.forall_mem_cons.mpr ⟨hmade.widen le_rfl hle', fun z hz => (hall z hz).widen hle le_rfl⟩
      · exact List.Pairwise.cons (fun z hz => apart_of_made hids hdrawn hdistinct hstart le_rfl hmade (hall z hz) hle) hapart

lemma keepOld_append (olds : List Step) : ∃ kept, olds.foldl keepOld steps = steps ++ kept ∧ ∀ step ∈ kept, ∃ old ∈ olds, step = setAside old := by
  induction olds generalizing steps with
  | nil => exact ⟨[], by simp, by simp⟩
  | cons old olds ih =>
    obtain ⟨kept, hkept, hall⟩ := @ih (keepOld steps old)
    have hlater : ∀ step ∈ kept, ∃ other ∈ old :: olds, step = setAside other := fun step hstep =>
      (hall step hstep).imp fun _ h => ⟨List.mem_cons_of_mem _ h.1, h.2⟩
    rw [List.foldl_cons, hkept]
    unfold keepOld
    split
    · exact ⟨kept, rfl, hlater⟩
    · exact ⟨setAside old :: kept, by simp, List.forall_mem_cons.mpr ⟨⟨old, List.mem_cons_self .., rfl⟩, hlater⟩⟩

lemma keepOld_nodup (olds : List Step) (h : (steps.map Step.identity).Nodup) : ((olds.foldl keepOld steps).map Step.identity).Nodup := by
  induction olds generalizing steps with
  | nil => exact h
  | cons old olds ih =>
    apply ih
    unfold keepOld
    split
    · exact h
    · rename_i hnone
      rw [List.map_append, List.nodup_append]
      refine ⟨h, by simp, ?_⟩
      rintro identity hmem other hother rfl
      obtain ⟨step, hstep, hsame⟩ := List.mem_map.mp hmem
      simp only [setAside, List.map_cons, List.map_nil, List.mem_singleton] at hother
      exact hnone (List.any_eq_true.mpr ⟨step, hstep, decide_eq_true (hsame.trans hother)⟩)

end PromptForge.LivePlan
