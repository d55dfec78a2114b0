import PromptForge.LivePlanRuns

namespace PromptForge.LivePlan
open Json Runs Tables

variable {host : Host} {plan plan' : Plan} {raws : Value} {paths : Value}

abbrev Results := String → List (String × String)

def hit (plan : Plan) (paths : Value) : List String :=
  match affectedBy paths plan.steps with
  | .ok affected => (plan.steps.filter (reached affected)).map Step.identity
  | .error _ => []

def remember (seen : Results) (e : Entry Plan Action (Option TypeError)) : Results :=
  match e.action with
  | .observe call success tool =>
    match activeStep e.before with
    | some identity => if success = true then Function.update seen identity ((call, tool) :: seen identity) else seen
    | none => seen
  | .invalidate paths => fun identity => if identity ∈ hit e.before paths then [] else seen identity
  | .update _ => seen

def observed (entries : List (Entry Plan Action (Option TypeError))) : Results := entries.foldl remember fun _ => []

/-- A step with evidence, and with a result of a tool that its kind of verification asks for. -/
structure Proven (seen : Results) (step : Step) : Prop where
  evidence : step.evidence ≠ []
  results : ∀ call ∈ step.evidence, ∃ tool, (call, tool) ∈ seen step.identity
  required : ∀ tools, required? step.verification = some tools → ∃ result ∈ seen step.identity, result.2 ∈ tools

structure Supported (evidence : Evidence) (step : Step) : Prop where
  nonempty : step.evidence ≠ []
  calls : ∀ call ∈ step.evidence, call ∈ evidence.calls step.identity
  tools : meets step.verification (evidence.tools step.identity) = true

structure Backed (seen : Results) (plan : Plan) : Prop where
  calls : ∀ identity, ∀ call ∈ plan.evidence.calls identity, ∃ tool, (call, tool) ∈ seen identity
  tools : ∀ identity, ∀ tool ∈ plan.evidence.tools identity, ∃ call, (call, tool) ∈ seen identity
  steps : ∀ step ∈ plan.steps, step.status = .completed → Supported plan.evidence step

lemma proven_of_backed {seen : Results} (h : Backed seen plan) {step : Step} (hstep : step ∈ plan.steps) (hdone : step.status = .completed) :
    Proven seen step := by
  have hsupported := h.steps step hstep hdone
  refine ⟨hsupported.nonempty, fun call hcall => h.calls _ call (hsupported.calls call hcall), fun required hrequired => ?_⟩
  have hmeets := hsupported.tools
  simp only [meets, hrequired, List.any_eq_true, List.contains_iff_mem] at hmeets
  obtain ⟨tool, htool, hseen⟩ := hmeets
  obtain ⟨call, hcall⟩ := h.tools _ tool hseen
  exact ⟨(call, tool), hcall, htool⟩

lemma meets_mono {verification : String} {tools tools' : List String} (hsub : tools ⊆ tools') (h : meets verification tools = true) :
    meets verification tools' = true := by
  unfold meets at h ⊢
  cases hrequired : required? verification with
  | none => rfl
  | some required =>
    simp only [hrequired, List.any_eq_true, List.contains_iff_mem] at h ⊢
    exact h.imp fun tool htool => ⟨htool.1, hsub htool.2⟩

lemma lastOnes_ne_nil {xs : List String} (h : xs ≠ []) : lastOnes xs ≠ [] := by
  have hpos := List.length_pos_iff.mpr h
  apply List.ne_nil_of_length_pos
  unfold lastOnes
  rw [List.length_drop]
  omega

lemma completed_of_nextStatus {old : Option Step} {asked : Status} {verified inProgress : Bool}
    (h : nextStatus old asked verified inProgress = .completed) : verified = true ∨ old.map Step.status = some .completed := by
  by_contra hnot
  obtain ⟨hverified, hold⟩ := not_or.mp hnot
  have hverified : verified = false := by simpa using hverified
  simp only [nextStatus, hold, hverified, if_false] at h
  cases asked <;> grind

/-- A completed step that is sent again keeps its kind of verification, or a tool that the new
kind asks for has succeeded for it. -/
def Honest (host : Host) (plan : Plan) (raws : Value) : Prop :=
  ∀ item ∈ shownItems host raws, ∀ old ∈ plan.steps, Matches old item → old.status = .completed →
    verificationOf host (some old) item.1 = old.verification ∨
      meets (verificationOf host (some old) item.1) (plan.evidence.tools old.identity) = true

lemma supported_made {low high : ℕ} {z : Pairing} (hmade : Made host plan low high z)
    (hsteps : ∀ step ∈ plan.steps, step.status = .completed → Supported plan.evidence step)
    (hhonest : ∀ old ∈ plan.steps, Matches old z.1 → old.status = .completed →
      verificationOf host (some old) z.1.1 = old.verification ∨
        meets (verificationOf host (some old) z.1.1) (plan.evidence.tools old.identity) = true)
    (hdone : z.2.status = .completed) : Supported plan.evidence z.2 := by
  obtain ⟨hkey, inProgress, hstep⟩ := hmade.step
  have hevidence : z.2.evidence = lastOnes (plan.evidence.calls z.2.identity) := by
    conv_lhs => rw [hstep]
    rfl
  have hverification : z.2.verification = verificationOf host (previous plan.steps z.1.1 z.1.2) z.1.1 := by
    conv_lhs => rw [hstep]
    rfl
  have hcalls : ∀ call ∈ z.2.evidence, call ∈ plan.evidence.calls z.2.identity := fun call hcall => by
    rw [hevidence] at hcall
    exact List.mem_of_mem_drop hcall
  rw [hstep] at hdone
  cases completed_of_nextStatus hdone with
  | inl hverified =>
    rw [Bool.and_eq_true] at hverified
    refine ⟨?_, hcalls, ?_⟩
    · rw [hevidence]
      exact of_decide_eq_true hverified.1
    · rw [hverification]
      exact hverified.2
  | inr hbefore =>
    obtain ⟨old, hold, hcompleted⟩ := Option.map_eq_some_iff.mp hbefore
    obtain ⟨hmem, hmatch⟩ := matches_of_previous hold
    have hsupported := hsteps old hmem hcompleted
    have hsame := hmade.kept old hold
    refine ⟨?_, hcalls, ?_⟩
    · obtain ⟨call, hcall⟩ := List.exists_mem_of_ne_nil _ hsupported.nonempty
      rw [hevidence, hsame]
      exact lastOnes_ne_nil (List.ne_nil_of_mem (hsupported.calls call hcall))
    · rw [hverification, hold, hsame]
      cases hhonest old hmem hmatch hcompleted with
      | inl hkind =>
        rw [hkind]
        exact hsupported.tools
      | inr hmeets => exact hmeets

lemma backed_update {seen : Results} (hids : Function.Injective host.uuid) (hinv : Inv host plan) (h : Backed seen plan)
    (hhonest : Honest host plan raws) (hupdate : update host plan raws = .ok plan') : Backed seen plan' := by
  obtain ⟨zs, kept, htaken, -, hsteps, hkept, -, hevidence, hmade, -⟩ := updated hids hinv.drawn hinv.distinct hupdate
  have hshown : shownItems host raws = (zs.take 64).map Prod.fst := by rw [shownItems, ← htaken, List.map_take]
  refine ⟨hevidence ▸ h.calls, hevidence ▸ h.tools, fun step hstep hdone => ?_⟩
  rw [hevidence]
  rw [hsteps, List.take_append, List.mem_append, ← List.map_take] at hstep
  cases hstep with
  | inl hnew =>
    obtain ⟨z, hz, rfl⟩ := List.mem_map.mp hnew
    exact supported_made (hmade z (List.mem_of_mem_take hz)) h.steps (hhonest z.1 (hshown ▸ List.mem_map_of_mem hz)) hdone
  | inr hlater =>
    obtain ⟨old, hold, rfl⟩ := hkept step (List.mem_of_mem_take hlater)
    have hcompleted : old.status = .completed := by
      by_contra hnot
      simp [setAside, hnot] at hdone
    obtain ⟨hsome, hcalls, htools⟩ := h.steps old hold hcompleted
    exact ⟨hsome, hcalls, htools⟩

lemma record_calls {evidence : Evidence} {identity call tool : String} (identity' : String) :
    evidence.calls identity' ⊆ (evidence.record identity call tool).calls identity' := by
  unfold Evidence.record
  by_cases hsame : identity' = identity
  · subst hsame
    simp
  · simp [Function.update_of_ne hsame]

lemma record_tools {evidence : Evidence} {identity call tool : String} (identity' : String) :
    evidence.tools identity' ⊆ (evidence.record identity call tool).tools identity' := by
  unfold Evidence.record
  by_cases hsame : identity' = identity
  · subst hsame
    simp
  · simp [Function.update_of_ne hsame]

lemma Supported.mono {evidence evidence' : Evidence} {step : Step} (h : Supported evidence step)
    (hcalls : evidence.calls step.identity ⊆ evidence'.calls step.identity)
    (htools : evidence.tools step.identity ⊆ evidence'.tools step.identity) : Supported evidence' step :=
  ⟨h.nonempty, fun call hcall => hcalls (h.calls call hcall), meets_mono htools h.tools⟩

lemma backed_observe {seen : Results} (h : Backed seen plan) (call : String) (success : Bool) (tool : String) :
    Backed (remember seen (entry (step host) plan (.observe call success tool))) (observe plan call success tool) := by
  simp only [remember, observe, entry_action, entry_before]
  cases hactive : activeStep plan with
  | none => exact h
  | some active =>
    cases success with
    | false => simpa using h
    | true =>
      have hmore : ∀ identity, seen identity ⊆ Function.update seen active ((call, tool) :: seen active) identity := fun identity => by
        by_cases hsame : identity = active
        · subst hsame
          simp
        · simp [Function.update_of_ne hsame]
      have hseen : Backed (Function.update seen active ((call, tool) :: seen active)) plan :=
        ⟨fun identity call hcall => (h.calls identity call hcall).imp fun _ hmem => hmore identity hmem,
          fun identity tool htool => (h.tools identity tool htool).imp fun _ hmem => hmore identity hmem, h.steps⟩
      simp only [true_and, if_true]
      split
      · constructor
        · intro identity other hother
          by_cases hsame : identity = active
          · subst hsame
            simp only [Evidence.record, Function.update_self, List.mem_append, List.mem_singleton] at hother
            cases hother with
            | inl hold => exact hseen.calls identity other hold
            | inr hnew => exact ⟨tool, by simp [hnew]⟩
          · simp only [Evidence.record, Function.update_of_ne hsame] at hother
            exact hseen.calls identity other hother
        · intro identity other hother
          by_cases hsame : identity = active
          · subst hsame
            simp only [Evidence.record, Function.update_self, List.mem_cons] at hother
            cases hother with
            | inl hnew => exact ⟨call, by simp [hnew]⟩
            | inr hold => exact hseen.tools identity other hold
          · simp only [Evidence.record, Function.update_of_ne hsame] at hother
            exact hseen.tools identity other hother
        · exact fun step hstep hdone => (h.steps step hstep hdone).mono (record_calls _) (record_tools _)
      · exact hseen

lemma backed_invalidate {seen : Results} (hinv : Inv host plan) (h : Backed seen plan) (hinvalidate : invalidate plan paths = .ok plan') :
    Backed (remember seen (entry (step host) plan (.invalidate paths))) plan' := by
  obtain ⟨affected, haffected, hplan⟩ := ok_of_bind hinvalidate
  cases hplan
  have hhit : hit plan paths = (plan.steps.filter (reached affected)).map Step.identity := by simp [hit, haffected]
  simp only [remember, entry_action, entry_before, hhit]
  constructor
  · intro identity call hcall
    simp only [Evidence.forget] at hcall ⊢
    split at hcall
    · cases hcall
    · rename_i hnot
      simpa [hnot] using h.calls identity call hcall
  · intro identity tool htool
    simp only [Evidence.forget] at htool ⊢
    split at htool
    · cases htool
    · rename_i hnot
      simpa [hnot] using h.tools identity tool htool
  · intro step hstep hdone
    obtain ⟨old, hold, rfl⟩ := List.mem_map.mp hstep
    by_cases hreached : reached affected old = true
    · rw [if_pos hreached] at hdone
      unfold reopen at hdone
      dsimp only at hdone
      split at hdone
      · cases hdone
      · contradiction
    · rw [if_neg hreached] at hdone ⊢
      have hspared : old.identity ∉ (plan.steps.filter (reached affected)).map Step.identity := fun hmem => by
        obtain ⟨other, hother, hsame⟩ := List.mem_map.mp hmem
        obtain ⟨hmem, hother⟩ := List.mem_filter.mp hother
        exact hreached (List.inj_on_of_nodup_map hinv.distinct hmem hold hsame ▸ hother)
      refine (h.steps old hold hdone).mono ?_ ?_
      · simp only [Evidence.forget, if_neg hspared]
        exact List.Subset.refl _
      · simp only [Evidence.forget, if_neg hspared]
        exact List.Subset.refl _

def SoundCall (host : Host) (plan : Plan) : Action → Prop
  | .update raws => Clear host plan raws ∧ Honest host plan raws
  | _ => True

lemma clear_of_sound {action : Action} (h : SoundCall host plan action) : ClearCall host plan action := by
  cases action with
  | update raws => exact h.1
  | _ => trivial

lemma backed_step {seen : Results} (hids : Function.Injective host.uuid) (hinv : Inv host plan) (h : Backed seen plan) (action : Action)
    (hsound : SoundCall host plan action) : Backed (remember seen (entry (step host) plan action)) (step host plan action).2 := by
  cases action with
  | update raws =>
    cases hupdate : update host plan raws with
    | error error => simpa [step, settle, hupdate, remember] using h
    | ok plan' => simpa [step, settle, hupdate, remember] using backed_update hids hinv h hsound.2 hupdate
  | observe call success tool => exact backed_observe h call success tool
  | invalidate paths =>
    cases hinvalidate : invalidate plan paths with
    | error error =>
      have hnone : hit plan paths = [] := by
        unfold hit
        cases haffected : affectedBy paths plan.steps with
        | error error => rfl
        | ok affected =>
          unfold invalidate at hinvalidate
          rw [haffected] at hinvalidate
          cases hinvalidate
      simpa [step, settle, hinvalidate, remember, hnone] using h
    | ok plan' => simpa [step, settle, hinvalidate] using backed_invalidate hinv h hinvalidate

theorem completed_proven (host : Host) (hids : Function.Injective host.uuid) (actions : List Action)
    (hsound : ∀ e ∈ trace (step host) (start host) actions, SoundCall host e.before e.action) :
    ∀ s ∈ (final (step host) (start host) actions).steps, s.status = .completed →
      Proven (observed (trace (step host) (start host) actions)) s := by
  have hstart : Inv host (start host) ∧ Backed (observed []) (start host) := by
    refine ⟨inv_start, ?_, ?_, ?_⟩
    · intro identity call hcall
      cases hcall
    · intro identity tool htool
      cases htool
    · intro step hstep
      cases hstep
  have hrun := @history_of _ _ _ (step host) (fun es plan => Inv host plan ∧ Backed (observed es) plan)
    (fun e => SoundCall host e.before e.action) (fun es plan action h hcall => by
      refine ⟨inv_step hids h.1 action (clear_of_sound hcall), ?_⟩
      rw [observed, List.foldl_append]
      exact backed_step hids h.1 h.2 action hcall) (start host) actions hstart hsound
  exact fun s hs hdone => proven_of_backed hrun.2 hs hdone

instance (plan : Plan) (raws : Value) : Decidable (Honest host plan raws) :=
  inferInstanceAs (Decidable (∀ item ∈ shownItems host raws, ∀ old ∈ plan.steps, _))

instance (plan : Plan) (action : Action) : Decidable (SoundCall host plan action) :=
  match action with
  | .update raws => inferInstanceAs (Decidable (Clear host plan raws ∧ Honest host plan raws))
  | .observe .. | .invalidate _ => isTrue trivial

/-! A file is read for a step that is completed then. -/

def readStep : List Action := [.update (item "A" "" "in_progress" ""), .observe "call-1" true "read_file", .update (item "A" "" "completed" "")]

theorem completed_proven_read : ∃ s ∈ (final (step exampleHost) (start exampleHost) readStep).steps, s.status = .completed ∧
    Proven (observed (trace (step exampleHost) (start exampleHost) readStep)) s := by
  have hsteps : ∃ s ∈ (final (step exampleHost) (start exampleHost) readStep).steps, s.status = .completed := by decide +kernel
  obtain ⟨s, hs, hdone⟩ := hsteps
  exact ⟨s, hs, hdone, completed_proven exampleHost exampleHost_draws readStep (by decide +kernel) s hs hdone⟩

def relabelled : List Action := readStep ++ [.update (item "A" "" "completed" "build")]

theorem relabelled_unproven : ¬ ∀ (host : Host), Function.Injective host.uuid → ∀ actions : List Action,
    ∀ s ∈ (final (step host) (start host) actions).steps, s.status = .completed →
      Proven (observed (trace (step host) (start host) actions)) s := by
  intro hclaim
  have hproven := hclaim exampleHost exampleHost_draws relabelled
  have hsteps : ∃ s ∈ (final (step exampleHost) (start exampleHost) relabelled).steps, s.status = .completed ∧
      required? s.verification = some ["build_firmware"] ∧
      observed (trace (step exampleHost) (start exampleHost) relabelled) s.identity = [("call-1", "read_file")] := by decide +kernel
  obtain ⟨s, hs, hdone, hrequired, hseen⟩ := hsteps
  obtain ⟨result, hresult, htool⟩ := (hproven s hs hdone).required _ hrequired
  rw [hseen, List.mem_singleton] at hresult
  subst hresult
  simp at htool

end PromptForge.LivePlan
