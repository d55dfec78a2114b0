import PromptForge.LivePlanLaws

namespace PromptForge.LivePlan
open Json Runs Tables

variable {host : Host} {plan plan' : Plan} {raws : Value} {paths : Value}

def shownItems (host : Host) (raws : Value) : List (Dict × String) := (taken host [] (itemsOf raws)).take 64

structure Clear (host : Host) (plan : Plan) (raws : Value) : Prop where
  item : ∀ item ∈ shownItems host raws, ∀ old ∈ plan.steps, ∀ old' ∈ plan.steps, Matches old item → Matches old' item →
    old.identity = old'.identity
  step : (shownItems host raws).Pairwise fun item item' => ∀ old ∈ plan.steps, ¬ (Matches old item ∧ Matches old item')

structure Keeps (host : Host) (plan plan' : Plan) (raws : Value) : Prop where
  named : ∀ z ∈ (taken host [] (itemsOf raws)).zip plan'.steps, z.2.text = z.1.2 ∧
    ∀ old ∈ plan.steps, Matches old z.1 → z.2.identity = old.identity
  others : ∀ step ∈ plan'.steps.drop (taken host [] (itemsOf raws)).length, ∃ old ∈ plan.steps,
    step.identity = old.identity ∧ step.text = old.text ∧ step.more = old.more

def OneActive (plan : Plan) : Prop := plan.steps.Pairwise fun step step' => ¬ (step.status = .inProgress ∧ step'.status = .inProgress)

lemma updated (hids : Function.Injective host.uuid) (hdrawn : Drawn host plan) (hdistinct : Distinct plan)
    (h : update host plan raws = .ok plan') :
    ∃ (zs : List Pairing) (kept : List Step), zs.map Prod.fst = taken host [] (itemsOf raws) ∧
      plan.steps.foldl keepOld (zs.map Prod.snd) = zs.map Prod.snd ++ kept ∧
      plan'.steps = (zs.map Prod.snd ++ kept).take 64 ∧ (∀ step ∈ kept, ∃ old ∈ plan.steps, step = setAside old) ∧
      plan.drawn ≤ plan'.drawn ∧ plan'.evidence = plan.evidence ∧ (∀ z ∈ zs, Made host plan plan.drawn plan'.drawn z) ∧
      zs.Pairwise (Apart plan) := by
  obtain ⟨draft, hdraft, h⟩ := ok_of_bind h
  cases h
  obtain ⟨zs, htaken, hsteps, hle, hmade, hapart⟩ := drafted hids hdrawn hdistinct le_rfl hdraft
  obtain ⟨kept, hkept, hall⟩ := @keepOld_append draft.steps plan.steps
  have hzs : draft.steps = zs.map Prod.snd := by simpa using hsteps
  rw [hzs] at hkept
  exact ⟨zs, kept, htaken, hkept, by simp only [hzs, hkept], hall, hle, rfl, hmade, hapart⟩

lemma zip_prefix {α β : Type} (zs : List (α × β)) (rest : List β) (n : ℕ) :
    (zs.map Prod.fst).zip ((zs.map Prod.snd ++ rest).take n) = zs.take n := by
  induction zs generalizing n with
  | nil => simp
  | cons z zs ih =>
    cases n with
    | zero => simp
    | succ n => simpa using ih n

lemma identities_of_made {low high : ℕ} {z : Pairing} {old : Step} (hmade : Made host plan low high z)
    (hitem : ∀ old ∈ plan.steps, ∀ old' ∈ plan.steps, Matches old z.1 → Matches old' z.1 → old.identity = old'.identity)
    (hold : old ∈ plan.steps) (hmatch : Matches old z.1) : z.2.identity = old.identity := by
  obtain ⟨found, hfound⟩ := previous_of_matches hold hmatch
  obtain ⟨hmem, hmatch'⟩ := matches_of_previous hfound
  rw [hmade.kept found hfound]
  exact hitem found hmem old hold hmatch' hmatch

lemma update_exact (hids : Function.Injective host.uuid) (hdrawn : Drawn host plan) (hdistinct : Distinct plan)
    (h : update host plan raws = .ok plan') : Distinct plan' ∧ Keeps host plan plan' raws ↔ Clear host plan raws := by
  obtain ⟨zs, kept, htaken, hfold, hsteps, hkept, -, -, hmade, hapart⟩ := updated hids hdrawn hdistinct h
  have hshown : shownItems host raws = (zs.take 64).map Prod.fst := by rw [shownItems, ← htaken, List.map_take]
  have hzip : (taken host [] (itemsOf raws)).zip plan'.steps = zs.take 64 := by rw [← htaken, hsteps, zip_prefix]
  constructor
  · rintro ⟨hdistinct', hkeeps⟩
    constructor
    · intro item hitem old hold old' hold' hmatch hmatch'
      rw [hshown] at hitem
      obtain ⟨z, hz, rfl⟩ := List.mem_map.mp hitem
      have hnamed := (hkeeps.named z (hzip ▸ hz)).2
      rw [← hnamed old hold hmatch, ← hnamed old' hold' hmatch']
    · rw [hshown, List.pairwise_map]
      have hpairs : (zs.take 64).Pairwise fun z z' => z.2.identity ≠ z'.2.identity := by
        rw [Distinct, hsteps, List.take_append, List.map_append] at hdistinct'
        have hfirst := hdistinct'.of_append_left
        rwa [← List.map_take, List.map_map, List.Nodup, List.pairwise_map] at hfirst
      refine hpairs.imp_of_mem fun hz hz' hne old hold hmatches => hne ?_
      rw [(hkeeps.named _ (hzip ▸ hz)).2 old hold hmatches.1, (hkeeps.named _ (hzip ▸ hz')).2 old hold hmatches.2]
  · intro hclear
    have hitem : ∀ z ∈ zs.take 64, ∀ old ∈ plan.steps, ∀ old' ∈ plan.steps, Matches old z.1 → Matches old' z.1 →
        old.identity = old'.identity := fun z hz => hclear.item z.1 (hshown ▸ List.mem_map_of_mem hz)
    have hnew : (((zs.map Prod.snd).take 64).map Step.identity).Nodup := by
      rw [← List.map_take, List.map_map, List.Nodup, List.pairwise_map]
      have hpairs := hclear.step
      rw [hshown, List.pairwise_map] at hpairs
      refine (hpairs.and (hapart.sublist (List.take_sublist ..))).imp fun hboth hsame => ?_
      obtain ⟨old, hold, hmatches⟩ := hboth.2 hsame
      exact hboth.1 old hold hmatches
    constructor
    · rw [Distinct, hsteps]
      by_cases hlong : 64 ≤ (zs.map Prod.snd).length
      · rwa [List.take_append_of_le_length hlong]
      · rw [List.take_of_length_le (by omega)] at hnew
        rw [← hfold, List.map_take]
        exact (keepOld_nodup plan.steps hnew).sublist (List.take_sublist ..)
    · constructor
      · intro z hz
        rw [hzip] at hz
        obtain ⟨hkey, inProgress, hstep⟩ := (hmade z (List.mem_of_mem_take hz)).step
        exact ⟨by rw [hstep, stepOf_text], fun old hold hmatch => identities_of_made (hmade z (List.mem_of_mem_take hz)) (hitem z hz) hold hmatch⟩
      · intro step hstep
        rw [hsteps, ← htaken, List.length_map, List.drop_take] at hstep
        have hmem := List.mem_of_mem_take hstep
        rw [List.drop_left' (by simp)] at hmem
        obtain ⟨old, hold, rfl⟩ := hkept step hmem
        exact ⟨old, hold, rfl, rfl, rfl⟩

lemma drawn_update (hids : Function.Injective host.uuid) (hdrawn : Drawn host plan) (hdistinct : Distinct plan)
    (h : update host plan raws = .ok plan') : Drawn host plan' := by
  obtain ⟨zs, kept, -, -, hsteps, hkept, hle, -, hmade, -⟩ := updated hids hdrawn hdistinct h
  have hwiden : ∀ {old : Step}, old ∈ plan.steps → DrawnIn host 0 plan'.drawn old.identity := fun {old} hold => by
    obtain ⟨k, hk, hk', hsame⟩ := hdrawn old hold
    exact ⟨k, hk, by omega, hsame⟩
  intro step hstep
  rw [hsteps] at hstep
  cases List.mem_append.mp (List.mem_of_mem_take hstep) with
  | inl hnew =>
    obtain ⟨z, hz, rfl⟩ := List.mem_map.mp hnew
    cases hold : previous plan.steps z.1.1 z.1.2 with
    | some old =>
      rw [(hmade z hz).kept old hold]
      exact hwiden (matches_of_previous hold).1
    | none =>
      obtain ⟨k, -, hk, hsame⟩ := (hmade z hz).fresh hold
      exact ⟨k, Nat.zero_le k, hk, hsame⟩
  | inr hlater =>
    obtain ⟨old, hold, rfl⟩ := hkept step hlater
    exact @hwiden old hold

lemma nextStatus_active {old : Option Step} {asked : Status} {verified : Bool} : nextStatus old asked verified true ≠ .inProgress := by
  unfold nextStatus
  extract_lets was granted kept
  by_cases hkept : kept = .inProgress
  · simp [hkept]
  · simp [hkept]

lemma setAside_inactive (old : Step) : (setAside old).status ≠ .inProgress := by
  unfold setAside
  split <;> simp_all

def OneActiveIn (steps : List Step) : Prop := steps.Pairwise fun step step' => ¬ (step.status = .inProgress ∧ step'.status = .inProgress)

lemma oneActive_snoc {steps : List Step} {new : Step} (h : OneActiveIn steps)
    (hnew : (steps.any fun step => step.status = .inProgress) = true → new.status ≠ .inProgress) : OneActiveIn (steps ++ [new]) := by
  refine List.pairwise_append.mpr ⟨h, List.pairwise_singleton .., fun step hstep other hother => ?_⟩
  rw [List.mem_singleton.mp hother]
  exact fun hboth => hnew (List.any_eq_true.mpr ⟨step, hstep, decide_eq_true hboth.1⟩) hboth.2

lemma oneActive_addItem {draft draft' : Draft} {raw : Value} (hone : OneActiveIn draft.steps) (h : addItem host plan draft raw = .ok draft') :
    OneActiveIn draft'.steps := by
  cases raw with
  | obj item =>
    simp only [addItem] at h
    split at h
    · cases h
      exact hone
    · split at h
      · rename_i hkey
        split at h
        · cases h
          refine oneActive_snoc hone fun hany => ?_
          rw [hany]
          exact nextStatus_active
        · cases h
          refine oneActive_snoc hone fun hany => ?_
          rw [hany]
          exact nextStatus_active
      · cases h
  | _ =>
    cases h
    exact hone

lemma oneActive_keepOld {steps : List Step} (olds : List Step) (h : OneActiveIn steps) : OneActiveIn (olds.foldl keepOld steps) := by
  induction olds generalizing steps with
  | nil => exact h
  | cons old olds ih =>
    apply ih
    unfold keepOld
    split
    · exact h
    · exact oneActive_snoc h fun _ => setAside_inactive old

lemma oneActive_update (h : update host plan raws = .ok plan') : OneActive plan' := by
  obtain ⟨draft, hdraft, h⟩ := ok_of_bind h
  cases h
  have hone : ∀ (raws : List Value) (first : Draft), OneActiveIn first.steps → raws.foldlM (addItem host plan) first = .ok draft →
      OneActiveIn draft.steps := by
    intro raws
    induction raws with
    | nil =>
      rintro first hfirst h
      cases h
      exact hfirst
    | cons raw raws ih =>
      intro first hfirst h
      rw [List.foldlM_cons] at h
      obtain ⟨middle, hmiddle, h⟩ := ok_of_bind h
      exact ih middle (oneActive_addItem hfirst hmiddle) h
  exact (oneActive_keepOld plan.steps (hone _ ⟨[], plan.drawn⟩ List.Pairwise.nil hdraft)).sublist (List.take_sublist ..)

lemma observe_steps (plan : Plan) (call : String) (success : Bool) (tool : String) :
    (observe plan call success tool).steps = plan.steps ∧ (observe plan call success tool).drawn = plan.drawn := by
  unfold observe
  split
  · split <;> exact ⟨rfl, rfl⟩
  · exact ⟨rfl, rfl⟩

lemma reopen_active (step : Step) (h : (reopen step).status = .inProgress) : step.status = .inProgress := by
  unfold reopen at h
  dsimp only at h
  split at h
  · cases h
  · exact h

lemma invalidate_steps (h : invalidate plan paths = .ok plan') : plan'.drawn = plan.drawn ∧ ∃ reopened : Step → Bool,
    plan'.steps = plan.steps.map fun step => if reopened step then reopen step else step := by
  obtain ⟨affected, -, h⟩ := ok_of_bind h
  cases h
  exact ⟨rfl, reached affected, rfl⟩

lemma oneActive_invalidate (hone : OneActive plan) (h : invalidate plan paths = .ok plan') : OneActive plan' := by
  obtain ⟨-, reopened, hsteps⟩ := invalidate_steps h
  unfold OneActive
  rw [hsteps, List.pairwise_map]
  have hactive : ∀ step : Step, (if reopened step then reopen step else step).status = .inProgress → step.status = .inProgress := by
    intro step h
    split at h
    · exact reopen_active step h
    · exact h
  exact hone.imp fun hnot hboth => hnot ⟨hactive _ hboth.1, hactive _ hboth.2⟩

lemma identities_invalidate (h : invalidate plan paths = .ok plan') : plan'.steps.map Step.identity = plan.steps.map Step.identity := by
  obtain ⟨-, reopened, hsteps⟩ := invalidate_steps h
  rw [hsteps, List.map_map]
  refine List.map_congr_left fun step _ => ?_
  simp only [Function.comp_apply]
  split <;> rfl

lemma drawn_of_identities (hdrawn : Drawn host plan) (hle : plan.drawn ≤ plan'.drawn)
    (h : plan'.steps.map Step.identity = plan.steps.map Step.identity) : Drawn host plan' := by
  intro step hstep
  have hmem : step.identity ∈ plan.steps.map Step.identity := h ▸ List.mem_map_of_mem hstep
  obtain ⟨old, hold, hsame⟩ := List.mem_map.mp hmem
  obtain ⟨k, hk, hk', hidentity⟩ := hdrawn old hold
  exact ⟨k, hk, by omega, by rw [← hsame, hidentity]⟩

def ClearCall (host : Host) (plan : Plan) : Action → Prop
  | .update raws => Clear host plan raws
  | _ => True

def KeepsCall (host : Host) (plan plan' : Plan) : Action → Prop
  | .update raws => Keeps host plan plan' raws ∨ plan' = plan
  | _ => plan'.steps.map (fun step => (step.identity, step.text, step.more)) = plan.steps.map fun step => (step.identity, step.text, step.more)

structure Inv (host : Host) (plan : Plan) : Prop where
  drawn : Drawn host plan
  distinct : Distinct plan

lemma inv_start : Inv host (start host) where
  drawn step hstep := by cases hstep
  distinct := List.nodup_nil

lemma inv_step (hids : Function.Injective host.uuid) (h : Inv host plan) (action : Action) (hclear : ClearCall host plan action) :
    Inv host (step host plan action).2 := by
  cases action with
  | update raws =>
    cases hupdate : update host plan raws with
    | error error => simpa [step, settle, hupdate] using h
    | ok plan' =>
      simp only [step, settle, hupdate]
      exact ⟨drawn_update hids h.drawn h.distinct hupdate, ((update_exact hids h.drawn h.distinct hupdate).mpr hclear).1⟩
  | observe call success tool =>
    obtain ⟨hsteps, hdrawn⟩ := observe_steps plan call success tool
    have hsame : (observe plan call success tool).steps.map Step.identity = plan.steps.map Step.identity := by rw [hsteps]
    simp only [step]
    exact ⟨drawn_of_identities h.drawn (by rw [hdrawn]) hsame, by rw [Distinct, hsame]; exact h.distinct⟩
  | invalidate paths =>
    cases hinvalidate : invalidate plan paths with
    | error error => simpa [step, settle, hinvalidate] using h
    | ok plan' =>
      simp only [step, settle, hinvalidate]
      have hsame := identities_invalidate hinvalidate
      exact ⟨drawn_of_identities h.drawn (by rw [(invalidate_steps hinvalidate).1]) hsame, by rw [Distinct, hsame]; exact h.distinct⟩

lemma oneActive_step (hone : OneActive plan) (action : Action) : OneActive (step host plan action).2 := by
  cases action with
  | update raws =>
    cases hupdate : update host plan raws with
    | error error => simpa [step, settle, hupdate] using hone
    | ok plan' => simpa [step, settle, hupdate] using oneActive_update hupdate
  | observe call success tool =>
    unfold OneActive
    simp only [step]
    rw [(observe_steps plan call success tool).1]
    exact hone
  | invalidate paths =>
    cases hinvalidate : invalidate plan paths with
    | error error => simpa [step, settle, hinvalidate] using hone
    | ok plan' => simpa [step, settle, hinvalidate] using oneActive_invalidate hone hinvalidate

lemma keeps_step (hids : Function.Injective host.uuid) (h : Inv host plan) (action : Action) (hclear : ClearCall host plan action) :
    KeepsCall host plan (step host plan action).2 action := by
  cases action with
  | update raws =>
    cases hupdate : update host plan raws with
    | error error => exact .inr (by simp [step, settle, hupdate])
    | ok plan' =>
      simp only [step, settle, hupdate]
      exact .inl ((update_exact hids h.drawn h.distinct hupdate).mpr hclear).2
  | observe call success tool =>
    simp only [KeepsCall, step]
    rw [(observe_steps plan call success tool).1]
  | invalidate paths =>
    cases hinvalidate : invalidate plan paths with
    | error error => simp [KeepsCall, step, settle, hinvalidate]
    | ok plan' =>
      obtain ⟨-, reopened, hsteps⟩ := invalidate_steps hinvalidate
      simp only [KeepsCall, step, settle, hinvalidate]
      rw [hsteps, List.map_map]
      refine List.map_congr_left fun step _ => ?_
      simp only [Function.comp_apply]
      split <;> rfl

/-- At most one step is in progress, and identities are distinct and kept as long as the updates are clear. -/
theorem plan_identities (host : Host) (hids : Function.Injective host.uuid) (actions : List Action) :
    (∀ e ∈ trace (step host) (start host) actions, OneActive e.after) ∧
    ((∀ e ∈ trace (step host) (start host) actions, ClearCall host e.before e.action) →
      (∀ e ∈ trace (step host) (start host) actions, Distinct e.after ∧ KeepsCall host e.before e.after e.action) ∧
      ∀ raws plan', update host (final (step host) (start host) actions) raws = .ok plan' →
        (Distinct plan' ∧ Keeps host (final (step host) (start host) actions) plan' raws ↔
          Clear host (final (step host) (start host) actions) raws)) := by
  constructor
  · intro e he
    have hstart : OneActive (start host) := List.Pairwise.nil
    exact ((invariant (fun plan action hone => @oneActive_step host plan hone action) hstart).1 e he).2
  · intro hclear
    have hinv := @invariant_of _ _ _ (step host) (Inv host) (fun e => ClearCall host e.before e.action)
      (fun plan action h hcall => inv_step hids h action hcall) (start host) actions inv_start hclear
    refine ⟨fun e he => ?_, fun raws plan' h => update_exact hids hinv.2.drawn hinv.2.distinct h⟩
    refine ⟨(hinv.1 e he).2.distinct, ?_⟩
    have hkeeps := keeps_step hids (hinv.1 e he).1 e.action (hclear e he)
    have hentry : e.after = (step host e.before e.action).2 := by
      conv_lhs => rw [entry_eq_of_mem he]
      rfl
    rwa [hentry]

instance (step : Step) (item : Dict × String) : Decidable (Matches step item) := inferInstanceAs (Decidable (_ ∨ _ ∧ _))

instance (plan : Plan) (raws : Value) : Decidable (Clear host plan raws) :=
  decidable_of_iff ((∀ item ∈ shownItems host raws, ∀ old ∈ plan.steps, ∀ old' ∈ plan.steps, Matches old item → Matches old' item →
      old.identity = old'.identity) ∧
    (shownItems host raws).Pairwise fun item item' => ∀ old ∈ plan.steps, ¬ (Matches old item ∧ Matches old item'))
    ⟨fun h => ⟨h.1, h.2⟩, fun h => ⟨h.item, h.step⟩⟩

instance (plan : Plan) (action : Action) : Decidable (ClearCall host plan action) :=
  match action with
  | .update raws => inferInstanceAs (Decidable (Clear host plan raws))
  | .observe .. | .invalidate _ => isTrue trivial

def exampleHost : Host := ⟨⟨fun _ => false, fun _ => false⟩, fun n => String.ofList (List.replicate n '0'), fun _ => "None"⟩

lemma exampleHost_draws : Function.Injective exampleHost.uuid := by
  intro m n h
  have hlength := congrArg List.length (String.ofList_injective h)
  simpa using hlength

def entryOf (text key status verification : String) : Value :=
  .obj [("text", .str text), ("key", .str key), ("status", .str status), ("verification", .str verification)]

def item (text key status verification : String) : Value := .arr [entryOf text key status verification]

def renamed : List Action := [.update (item "A" "a" "pending" ""), .update (item "B" "a" "in_progress" ""), .observe "call-1" true "read_file"]

theorem plan_identities_renamed : (final (step exampleHost) (start exampleHost) renamed).steps ≠ [] ∧
    ∀ e ∈ trace (step exampleHost) (start exampleHost) renamed, Distinct e.after ∧ KeepsCall exampleHost e.before e.after e.action :=
  ⟨by decide +kernel, ((plan_identities exampleHost exampleHost_draws renamed).2 (by decide +kernel)).1⟩

def shared : List Action :=
  [.update (item "A" "a" "pending" ""), .update (.arr [entryOf "B" "a" "pending" "", entryOf "A" "" "pending" ""])]

theorem shared_identity : ¬ ∀ (host : Host), Function.Injective host.uuid → ∀ actions : List Action,
    ∀ e ∈ trace (step host) (start host) actions, OneActive e.after ∧ Distinct e.after ∧ KeepsCall host e.before e.after e.action := by
  intro hclaim
  have hlast := (hclaim exampleHost exampleHost_draws shared (entry (step exampleHost) (final (step exampleHost) (start exampleHost) (shared.take 1))
    (.update (.arr [entryOf "B" "a" "pending" "", entryOf "A" "" "pending" ""]))) (by simp [shared])).2.1
  have hsame : ¬ Distinct (final (step exampleHost) (start exampleHost) shared) := by
    unfold Distinct
    decide +kernel
  exact hsame hlast

end PromptForge.LivePlan
