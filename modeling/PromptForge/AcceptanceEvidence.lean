import PromptForge.Runs

/-!
# Evidence for acceptance checks

A check passes by evidence of the current source: a build, a simulation of it, unit
tests or a review.
-/
namespace PromptForge.AcceptanceEvidence
open Runs

structure Build where
  success : Bool
  workspaceRevision : Option String
  verificationStale : Bool

structure Simulation where
  success : Bool
  workspaceRevision : Option String
  verificationStale : Bool

structure Evidence where
  kind : String
  success : Bool
  sourceRevision : String

/-- `reviewed` are the source and the task that `semantic_review` names. -/
structure Report where
  valid : Bool
  verificationLevel : String
  workspaceRevision : String
  reviewed : Option (String × Option String)

/-- `revision` is that of the stage, `taskRevision` that of the contract. -/
structure Loop where
  revision : String
  taskRevision : Option String
  buildPassed : Bool
  lastBuild : Option Build
  lastBuildManifest : Option String
  acceptanceEvidence : List Evidence
  requirementReport : Option Report
  requirementChecks : List String
  lastSimulation : Option Simulation

/-- `firmware` tells whether an image was verified, `sameSource` whether the builder names the source
    it was started on. -/
inductive BuildOutcome where
  | answered
  | stopped (started : Bool) (build : Option Build)
  | completed (success firmware sameSource image : Bool)

inductive SimulationOutcome where
  | unavailable
  | raised
  | ran (success image : Bool)

/-- `image` tells whether the files of the last build are still those it made. -/
inductive Action where
  | edit (revision : String)
  | unitTests (success : Bool)
  | build (outcome : BuildOutcome)
  | hostMilestone (outcome : BuildOutcome)
  | simulate (image : Bool) (outcome : SimulationOutcome)
  | verifyAcceptance (image : Bool)
  | verifyRequirements (checks : List String) (image refused : Bool)
  | review (report : Report)

def reviewedCurrent (report : Option Report) (revision : String) (taskRevision : Option String) : Bool :=
  report.any fun report => report.valid && report.verificationLevel == "model_review" &&
    report.workspaceRevision == revision && report.reviewed.any fun review =>
      review.1 == revision && (taskRevision == none || review.2 == taskRevision)

/-- A check of `acceptance_report`. -/
def passed (s : Loop) (kind : String) : Bool :=
  if kind = "source_review" then reviewedCurrent s.requirementReport s.revision s.taskRevision
  else if kind = "build" then s.lastBuild.any fun build => build.success && build.workspaceRevision == some s.revision
  else if kind = "simulation" then
    s.lastSimulation.any fun simulation => simulation.success && simulation.workspaceRevision == some s.revision
  else s.acceptanceEvidence.any fun item => item.kind == kind && item.success && item.sourceRevision == s.revision

/-- The report of `verify_requirement_evidence`: citations, and no review of them. -/
def sourceReference (revision : String) : Report := ⟨false, "source_reference", revision, none⟩

-- which citation is still found in the current files
variable (survives : Loop → String → Bool)

def revalidateRequirementChecks (s : Loop) : Loop :=
  if s.requirementChecks.isEmpty then { s with requirementReport := none }
  else { s with
    requirementChecks := s.requirementChecks.filter (survives s)
    requirementReport := some (sourceReference s.revision) }

def invalidateVerification (s : Loop) : Loop :=
  let s := if s.requirementReport.any fun report => report.workspaceRevision != s.revision then
    revalidateRequirementChecks survives s else s
  { s with
    acceptanceEvidence := []
    buildPassed := false
    lastBuild := s.lastBuild.map fun build => { build with success := false, verificationStale := true }
    lastSimulation := s.lastSimulation.map fun simulation =>
      { simulation with success := false, verificationStale := true } }

def isFresh (image : Bool) (s : Loop) : Bool :=
  s.buildPassed && image && s.lastBuild.any fun build => build.workspaceRevision == some s.revision

def refreshVerification (image : Bool) (s : Loop) : Loop :=
  if s.buildPassed && !isFresh image s then invalidateVerification survives s else s

def buildOnce (outcome : BuildOutcome) (s : Loop) : Loop :=
  let s := invalidateVerification survives s
  match outcome with
  | .answered => s
  | .stopped started build =>
    { s with
      lastBuildManifest := if started then some s.revision else s.lastBuildManifest
      lastBuild := build.map fun build => { build with success := false } }
  | .completed success firmware sameSource image =>
    let done := { s with
      lastBuildManifest := some s.revision
      buildPassed := success && firmware
      lastBuild := some ⟨success && firmware, some s.revision, false⟩ }
    if done.buildPassed && !(sameSource && isFresh image done) then
      let done := if sameSource then refreshVerification survives image done else done
      { done with buildPassed := false, lastBuild := some ⟨false, none, false⟩ }
    else done

def simulate (image : Bool) (outcome : SimulationOutcome) (s : Loop) : Loop :=
  let s := { refreshVerification survives image s with lastSimulation := none }
  match outcome with
  | .unavailable => s
  | .raised => if s.buildPassed then { s with lastSimulation := some ⟨false, none, false⟩ } else s
  | .ran success image =>
    if s.buildPassed then
      { refreshVerification survives image s with
        lastSimulation := some (if isFresh image s then ⟨success, s.lastBuild.bind Build.workspaceRevision, false⟩
          else ⟨false, none, false⟩) }
    else s

def verifyRequirements (checks : List String) (image refused : Bool) (s : Loop) : Loop :=
  let s := if s.requirementReport.all fun report => report.workspaceRevision != s.revision then
    revalidateRequirementChecks survives s else s
  let s := refreshVerification survives image s
  if refused then s
  else { s with
    requirementChecks := s.requirementChecks ++ checks
    requirementReport := some (sourceReference s.revision) }

/-- A failure that answers again leaves the evidence alone. -/
def build (outcome : BuildOutcome) (s : Loop) : Loop :=
  match outcome with
  | .answered => s
  | _ => buildOnce survives outcome s

def step (s : Loop) : Action → Unit × Loop
  | .edit revision => ((), invalidateVerification survives { s with revision := revision })
  | .unitTests success =>
    ((), { s with acceptanceEvidence := s.acceptanceEvidence ++ [⟨"unit_tests", success, s.revision⟩] })
  | .build outcome => ((), build survives outcome s)
  | .hostMilestone outcome =>
    ((), if s.lastBuildManifest = some s.revision then s else buildOnce survives outcome s)
  | .simulate image outcome => ((), simulate survives image outcome s)
  | .verifyAcceptance image => ((), refreshVerification survives image s)
  | .verifyRequirements checks image refused => ((), verifyRequirements survives checks image refused s)
  | .review report => ((), { s with requirementReport := some report })

/-- The check that a call runs. -/
def Action.runs : Action → String → Bool
  | .unitTests _, kind => kind == "unit_tests"
  | .build _, kind => kind == "build"
  | .hostMilestone _, kind => kind == "build"
  | .simulate _ _, kind => kind == "simulation"
  | .review _, kind => kind == "source_review"
  | _, _ => false

def Action.editsSource : Action → Bool
  | .edit _ => true
  | _ => false

/-- `build_passed` is set, and the image or the source is another one. -/
def isStale (image : Bool) (s : Loop) : Bool := s.buildPassed && !isFresh image s

def drops (s : Loop) : Action → String → Bool
  | .build .answered, _ => false
  | .build _, kind => kind != "source_review"
  | .hostMilestone _, kind => s.lastBuildManifest != some s.revision && kind != "source_review"
  | .simulate image (.ran _ image'), kind => (isStale image s || isStale image' s) && kind != "source_review"
  | .simulate image _, kind => isStale image s && kind != "source_review"
  | .verifyAcceptance image, kind => isStale image s && kind != "source_review"
  | .verifyRequirements _ image refused, kind => if kind = "source_review" then !refused else isStale image s
  | _, _ => false

/-- What a call drops does not pass before, unless it is what the call runs. -/
def Spares (s : Loop) (a : Action) : Prop := ∀ kind, drops s a kind = true → a.runs kind = false → passed s kind = false

section Laws
variable {survives} {s : Loop} {kind : String}

lemma passed_revalidate : passed (revalidateRequirementChecks survives s) kind =
    if kind = "source_review" then false else passed s kind := by
  unfold revalidateRequirementChecks
  split <;> simp only [passed] <;> split <;> rfl

lemma not_reviewed_of_old (hold : (s.requirementReport.all fun report => report.workspaceRevision != s.revision) = true) :
    passed s "source_review" = false := by
  rcases hreport : s.requirementReport with _ | report <;> rw [hreport] at hold
  · simp [passed, reviewedCurrent, hreport]
  · have hne : (report.workspaceRevision == s.revision) = false := by simpa using hold
    simp [passed, reviewedCurrent, hreport, hne]

lemma passed_invalidate : passed (invalidateVerification survives s) kind =
    (passed s kind && kind == "source_review") := by
  by_cases hkind : kind = "source_review"
  · subst hkind
    unfold invalidateVerification
    split
    · rename_i hold
      have hall : (s.requirementReport.all fun report => report.workspaceRevision != s.revision) = true := by
        rcases hreport : s.requirementReport with _ | report <;> rw [hreport] at hold
        · cases hold
        · exact hold
      rw [not_reviewed_of_old hall]
      exact passed_revalidate.trans (if_pos rfl)
    · exact (Bool.and_true _).symm
  · have hevidence : ∀ t : Loop, passed { t with
        acceptanceEvidence := []
        buildPassed := false
        lastBuild := t.lastBuild.map fun build => { build with success := false, verificationStale := true }
        lastSimulation := t.lastSimulation.map fun simulation =>
          { simulation with success := false, verificationStale := true } } kind = false := by
      intro t
      simp only [passed, hkind, if_false, List.any_nil, Option.any_map]
      split
      · rcases t.lastBuild with _ | build <;> rfl
      · split
        · rcases t.lastSimulation with _ | simulation <;> rfl
        · rfl
    rw [beq_eq_false_iff_ne.2 hkind, Bool.and_false]
    exact hevidence _

lemma passed_refresh (image : Bool) : passed (refreshVerification survives image s) kind =
    (passed s kind && !(isStale image s && kind != "source_review")) := by
  unfold refreshVerification
  change passed (if isStale image s then _ else _) kind = _
  cases isStale image s with
  | true => rw [if_pos rfl, passed_invalidate]; simp [bne]
  | false => simp

lemma passed_setBuild (hkind : kind ≠ "build") (manifest : Option String) (buildPassed : Bool) (build : Option Build) :
    passed { s with lastBuildManifest := manifest, buildPassed := buildPassed, lastBuild := build } kind = passed s kind := by
  simp only [passed, hkind, if_false]

lemma passed_buildOnce (outcome : BuildOutcome) (hkind : kind ≠ "build") :
    passed (buildOnce survives outcome s) kind = (passed s kind && kind == "source_review") := by
  unfold buildOnce
  cases outcome with
  | answered => exact passed_invalidate
  | stopped started build => exact (passed_setBuild hkind _ _ _).trans passed_invalidate
  | completed success firmware sameSource image =>
    dsimp only
    split
    · cases sameSource with
      | false => exact ((passed_setBuild hkind _ _ _).trans (passed_setBuild hkind _ _ _)).trans passed_invalidate
      | true =>
        refine (passed_setBuild hkind _ _ _).trans ?_
        rw [if_pos rfl, passed_refresh, passed_setBuild hkind, passed_invalidate]
        cases hreview : kind == "source_review" <;> simp [bne, hreview]
    · exact (passed_setBuild hkind _ _ _).trans passed_invalidate

lemma passed_setSimulation (hkind : kind ≠ "simulation") (simulation : Option Simulation) :
    passed { s with lastSimulation := simulation } kind = passed s kind := by
  simp only [passed, hkind, if_false]

lemma refresh_eq (image : Bool) : refreshVerification survives image s =
    if isStale image s then invalidateVerification survives s else s := rfl

lemma isStale_refresh (image image' : Bool) (simulation : Option Simulation) :
    isStale image' { refreshVerification survives image s with lastSimulation := simulation } =
      (!isStale image s && isStale image' s) := by
  rw [refresh_eq]
  cases isStale image s <;> rfl

lemma passed_simulate (image : Bool) (outcome : SimulationOutcome) (hkind : kind ≠ "simulation") :
    passed (simulate survives image outcome s) kind = (passed s kind && !drops s (.simulate image outcome) kind) := by
  have hfirst : ∀ simulation, passed { refreshVerification survives image s with lastSimulation := simulation } kind =
      (passed s kind && !(isStale image s && kind != "source_review")) := fun simulation =>
    (passed_setSimulation hkind simulation).trans (passed_refresh image)
  unfold simulate
  cases outcome with
  | unavailable => exact hfirst none
  | raised =>
    dsimp only
    split
    · exact hfirst _
    · exact hfirst none
  | ran success image' =>
    have hstale := @isStale_refresh survives s image image' none
    have hsecond : (passed s kind && !drops s (.simulate image (.ran success image')) kind) =
        (passed { refreshVerification survives image s with lastSimulation := none } kind &&
          !(isStale image' { refreshVerification survives image s with lastSimulation := none } &&
            kind != "source_review")) := by
      rw [hfirst, hstale, drops]
      cases passed s kind <;> cases isStale image s <;> cases isStale image' s <;> cases kind != "source_review" <;> rfl
    rw [hsecond]
    dsimp only
    split
    · exact (passed_setSimulation hkind _).trans (passed_refresh image')
    · rename_i hbuild
      have hfresh : isStale image' { refreshVerification survives image s with lastSimulation := none } = false := by
        rw [isStale, Bool.eq_false_iff.2 hbuild, Bool.false_and]
      rw [hfresh]
      simp

lemma passed_setReport (hkind : kind ≠ "source_review") (checks : List String) (report : Option Report) :
    passed { s with requirementChecks := checks, requirementReport := report } kind = passed s kind := by
  simp only [passed, hkind, if_false]

lemma passed_verifyRequirements (checks : List String) (image refused : Bool) :
    passed (verifyRequirements survives checks image refused s) kind =
      (passed s kind && !drops s (.verifyRequirements checks image refused) kind) := by
  obtain ⟨t, hverify, hpassed, hstale⟩ : ∃ t : Loop,
      verifyRequirements survives checks image refused s =
        (if refused then refreshVerification survives image t
          else { refreshVerification survives image t with
            requirementChecks := (refreshVerification survives image t).requirementChecks ++ checks
            requirementReport := some (sourceReference (refreshVerification survives image t).revision) }) ∧
      passed t kind = passed s kind ∧ isStale image t = isStale image s := by
    refine ⟨_, rfl, ?_, ?_⟩
    · split
      · rename_i hold
        rw [passed_revalidate]
        split
        · rename_i hkind
          rw [hkind, not_reviewed_of_old hold]
        · rfl
      · rfl
    · split
      · unfold revalidateRequirementChecks; split <;> rfl
      · rfl
  have hrefresh := @passed_refresh survives t kind image
  rw [hpassed, hstale] at hrefresh
  rw [hverify, drops]
  by_cases hkind : kind = "source_review"
  · rw [if_pos hkind]
    subst hkind
    cases refused with
    | true => simpa using hrefresh
    | false => exact (Bool.and_false _).symm
  · rw [if_neg hkind]
    rw [bne_iff_ne.2 hkind, Bool.and_true] at hrefresh
    cases refused with
    | true => exact hrefresh
    | false => exact (passed_setReport hkind _ _).trans hrefresh

/-- What one call leaves of the checks it does not run. -/
lemma passed_step {a : Action} (hsource : a.editsSource = false) (hruns : a.runs kind = false) :
    passed (step survives s a).2 kind = (passed s kind && !drops s a kind) := by
  cases a with
  | edit revision => cases hsource
  | unitTests success =>
    have hkind : ("unit_tests" == kind) = false := by rw [beq_eq_false_iff_ne]; exact Ne.symm (beq_eq_false_iff_ne.1 hruns)
    simp [step, passed, drops, hkind]
  | build outcome =>
    have hkind : kind ≠ "build" := beq_eq_false_iff_ne.1 hruns
    cases outcome with
    | answered => exact (Bool.and_true _).symm
    | stopped started build =>
      refine (passed_buildOnce _ hkind).trans ?_
      simp [drops, bne]
    | completed success firmware sameSource image =>
      refine (passed_buildOnce _ hkind).trans ?_
      simp [drops, bne]
  | hostMilestone outcome =>
    have hkind : kind ≠ "build" := beq_eq_false_iff_ne.1 hruns
    dsimp only [step, drops]
    split
    · rename_i hsame
      simp [hsame]
    · rename_i hother
      rw [passed_buildOnce outcome hkind, bne_iff_ne.2 hother]
      simp [bne]
  | simulate image outcome => exact passed_simulate image outcome (beq_eq_false_iff_ne.1 hruns)
  | verifyAcceptance image => exact passed_refresh image
  | verifyRequirements checks image refused => exact passed_verifyRequirements checks image refused
  | review report =>
    have hdrops : drops s (.review report) kind = false := rfl
    rw [hdrops, Bool.not_false, Bool.and_true]
    exact passed_setReport (beq_eq_false_iff_ne.1 hruns) s.requirementChecks (some report)

/-- A call spares the checks it does not run if and only if it drops nothing that passes. -/
theorem keeps_iff (survives : Loop → String → Bool) :
    (∀ s (a : Action), a.editsSource = false →
      ((∀ kind, passed s kind = true → a.runs kind = false → passed (step survives s a).2 kind = true) ↔ Spares s a)) ∧
    ∀ s as kind, (∀ e ∈ trace (step survives) s as, e.action.editsSource = false ∧ Spares e.before e.action ∧
        (e.action.runs kind = true → passed e.after kind = true)) →
      (passed s kind = true ∨ ∃ a ∈ as, a.runs kind = true) → passed (final (step survives) s as) kind = true := by
  have hstep : ∀ s (a : Action), a.editsSource = false → Spares s a → ∀ kind, passed s kind = true →
      a.runs kind = false → passed (step survives s a).2 kind = true := by
    intro s a hsource hspares kind hpassed hruns
    rw [passed_step hsource hruns, hpassed]
    cases hdrops : drops s a kind with
    | false => rfl
    | true => exact absurd hpassed (by rw [hspares kind hdrops hruns]; decide)
  refine ⟨fun s a hsource => ⟨?_, hstep s a hsource⟩, ?_⟩
  · intro hkeeps kind hdrops hruns
    by_contra hpassed
    have hafter := hkeeps kind (Bool.not_eq_false _ ▸ hpassed) hruns
    rw [passed_step hsource hruns, hdrops, Bool.and_eq_true] at hafter
    exact absurd hafter.2 (by decide)
  · intro s as kind hrun hstart
    induction as generalizing s with
    | nil =>
      rcases hstart with hstart | ⟨a, ha, -⟩
      · exact hstart
      · cases ha
    | cons a as ih =>
      obtain ⟨hsource, hspares, hsucceeds⟩ := hrun _ (List.mem_cons_self ..)
      refine ih _ (fun e he => hrun e (List.mem_cons_of_mem _ he)) ?_
      -- after its first call a check passes, so that later calls only have to spare it
      cases hruns : a.runs kind with
      | true => exact .inl (hsucceeds hruns)
      | false =>
        rcases hstart with hstart | ⟨b, hb, hbruns⟩
        · exact .inl (hstep s a hsource hspares kind hstart hruns)
        · rcases List.mem_cons.1 hb with rfl | hb
          · rw [hruns] at hbruns; cases hbruns
          · exact .inr ⟨b, hb, hbruns⟩

end Laws

def fresh : Loop := ⟨"r1", none, false, none, none, [], none, [], none⟩

theorem tests_after_build :
    let s := final (step fun _ _ => true) fresh [.build (.completed true true true true), .unitTests true]
    passed s "build" = true ∧ passed s "unit_tests" = true := by
  have hspares : Spares fresh (.build (.completed true true true true)) := fun kind _ _ => by
    simp [passed, fresh, reviewedCurrent]
  have hrun : ∀ kind ∈ ["build", "unit_tests"], ∀ e ∈ trace (step fun _ _ => true) fresh
      [.build (.completed true true true true), .unitTests true], e.action.editsSource = false ∧
        Spares e.before e.action ∧ (e.action.runs kind = true → passed e.after kind = true) := by
    simp only [trace_cons, trace_nil, List.forall_mem_cons, List.not_mem_nil, false_implies, implies_true, and_true]
    exact ⟨⟨⟨rfl, hspares, by decide⟩, rfl, fun _ h => (Bool.false_ne_true h).elim, by decide⟩,
      ⟨rfl, hspares, by decide⟩, rfl, fun _ h => (Bool.false_ne_true h).elim, by decide⟩
  constructor
  · exact (keeps_iff fun _ _ => true).2 fresh _ "build" (hrun _ (by decide)) (.inr ⟨_, List.mem_cons_self .., rfl⟩)
  · exact (keeps_iff fun _ _ => true).2 fresh _ "unit_tests" (hrun _ (by decide))
      (.inr ⟨.unitTests true, by simp, rfl⟩)

theorem build_drops_tests :
    let s := (step (fun _ _ => true) fresh (.unitTests true)).2
    let built := (step (fun _ _ => true) s (.build (.completed true true true true))).2
    passed s "unit_tests" = true ∧ built.revision = s.revision ∧ passed built "build" = true ∧
      passed built "unit_tests" = false := by
  decide

end PromptForge.AcceptanceEvidence
