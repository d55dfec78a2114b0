import PromptForge.Coordinator

namespace PromptForge.Coordination
open Runs

def Result.saysCancelled : Result → Prop
  | .isFalse => False
  | .object answer => ∃ v, answer.status = .present v ∧ v.enumValue = .text "CANCELLED"

/-- A cancellation that was delivered into a call, or a failure that the answer of the call
    reports as one. -/
def Cancels (step : ExecutionStep) (toolName : Option String) (reply : Reply Result) : Prop :=
  reply = .cancelled ∨ ∃ result failure, reply = .returned result ∧
    failureFromResult step toolName result = .ok (some failure) ∧
      (failure.category = "CANCELLED" ∨ result.saysCancelled)

def Misfiled (step : ExecutionStep) (toolName : Option String) (reply : Reply Result) : Prop :=
  ∃ result failure, reply = .returned result ∧ result.saysCancelled ∧
    failureFromResult step toolName result = .ok (some failure) ∧ failure.category ≠ "CANCELLED"

section Answers
variable {step : ExecutionStep} {toolName : Option String} {reply : Reply Result} {r : StepResult}

lemma category_of_executionFailure {message category : String} {recoverable : Bool} {exceptionType : Value}
    {failure : ExecutionFailure}
    (h : executionFailure step message category recoverable toolName exceptionType = .ok failure) :
    failure.category = category := by
  unfold executionFailure at h
  split at h
  · split at h
    · cases h
      rfl
    · cases h
  · cases h

lemma category_of_exception {e : Exception} {failure : ExecutionFailure}
    (h : failureFromException step toolName e = .ok failure) : failure.category = "COORDINATOR_ERROR" := by
  obtain ⟨shown, -, h⟩ := ok_of_bind h
  exact category_of_executionFailure h

variable (h : stepResult step toolName reply = .ok r)

include h in
lemma step_stepResult : r.step = step := by
  cases reply with
  | returned result =>
    obtain ⟨failure, -, h⟩ := ok_of_bind h
    cases h
    rfl
  | raised e =>
    obtain ⟨failure, -, h⟩ := ok_of_bind h
    cases h
    rfl
  | cancelled =>
    cases h
    rfl
  | stopped => cases h

include h in
lemma not_cancels_of_success (hr : r.failure = none) :
    ¬ Cancels step toolName reply := by
  rintro (rfl | ⟨result, failure, rfl, hfailure, -⟩)
  · cases h
    cases hr
  · obtain ⟨_, hresult, h⟩ := ok_of_bind h
    cases h
    rw [hfailure] at hresult
    cases hresult
    cases hr

include h in
lemma cancels_of_category {failure : ExecutionFailure}
    (hr : r.failure = some failure) (hcategory : failure.category = "CANCELLED") : Cancels step toolName reply := by
  cases reply with
  | returned result =>
    obtain ⟨_, hresult, h⟩ := ok_of_bind h
    cases h
    exact .inr ⟨result, failure, rfl, hr ▸ hresult, .inl hcategory⟩
  | raised e =>
    obtain ⟨_, hraised, h⟩ := ok_of_bind h
    cases h
    cases hr
    rw [category_of_exception hraised] at hcategory
    exact absurd hcategory (by decide)
  | cancelled => exact .inl rfl
  | stopped => cases h

include h in
lemma cancels_iff_misfiled {failure : ExecutionFailure} (hr : r.failure = some failure) (hcategory : failure.category ≠ "CANCELLED") :
    Cancels step toolName reply ↔ Misfiled step toolName reply := by
  constructor
  · rintro (rfl | ⟨result, failure', rfl, hresult, hsays⟩)
    · cases h
      cases hr
      exact absurd rfl hcategory
    · obtain ⟨_, hresult', h⟩ := ok_of_bind h
      cases h
      rw [hresult] at hresult'
      cases hresult'
      cases hr
      exact ⟨result, failure, rfl, hsays.resolve_left hcategory, hresult, hcategory⟩
  · rintro ⟨result, failure', rfl, hsays, hresult, -⟩
    exact .inr ⟨result, failure', rfl, hresult, .inr hsays⟩

end Answers

lemma outcome_ok {status : ExecutionStatus} {results : List StepResult} {failures : List ExecutionFailure}
    (hterminal : status.terminal = true) (hfailures : results.filterMap (·.failure) = failures)
    (hcompleted : status ∉ [.completed, .completedWithPendingHardware] ∨ failures = []) :
    outcome status results failures = .ok ⟨status, results, failures⟩ :=
  (require_bind hterminal _ _).trans ((require_bind hfailures _ _).trans (require_bind hcompleted _ _))

lemma outcome_fields {status : ExecutionStatus} {results : List StepResult} {failures : List ExecutionFailure}
    {o : ExecutionOutcome} (h : outcome status results failures = .ok o) :
    o.status = status ∧ o.stepResults = results := by
  obtain ⟨_, -, h⟩ := ok_of_bind h
  obtain ⟨_, -, h⟩ := ok_of_bind h
  obtain ⟨_, -, h⟩ := ok_of_bind h
  cases h
  exact ⟨rfl, rfl⟩

def attempts (log : List Occurrence) : List ExecutionStep :=
  log.filterMap fun
    | .attempted step _ => some step
    | _ => none

@[simp] lemma attempts_append (log more : List Occurrence) : attempts (log ++ more) = attempts log ++ attempts more :=
  List.filterMap_append

@[simp] lemma attempts_nil : attempts [] = [] := rfl

@[simp] lemma attempts_attempted (step : ExecutionStep) (reply : Reply Result) (log : List Occurrence) :
    attempts (.attempted step reply :: log) = step :: attempts log := rfl

def Occurrence.Cancels : Occurrence → Prop
  | .progress reply => reply = .cancelled
  | .attempted step reply => Coordination.Cancels step (toolByStep step) reply
  | .debugged reply => Coordination.Cancels .debugFailure none reply

section Runs
variable {c : Coordinator}

def Quiet (c : Coordinator) (event : Event) (step : ExecutionStep) : Prop :=
  ∀ callback, c.progressCallback = some callback →
    callback event step ≠ .cancelled ∧ callback event step ≠ .stopped

@[simp] lemma attempts_emit (event : Event) (step : ExecutionStep) : attempts (c.emitProgress event step).1 = [] := by
  unfold Coordinator.emitProgress
  split <;> rfl

lemma quiet_iff (event : Event) (step : ExecutionStep) :
    Quiet c event step ↔ (c.emitProgress event step).2 = .ok () := by
  unfold Quiet Coordinator.emitProgress
  cases c.progressCallback with
  | none => simp
  | some callback => cases hreply : callback event step <;> simp [hreply]

lemma quiet_log {event : Event} {step : ExecutionStep} (h : (c.emitProgress event step).2 = .ok ()) :
    ∀ o ∈ (c.emitProgress event step).1, ¬ o.Cancels := by
  unfold Coordinator.emitProgress at h ⊢
  cases hcallback : c.progressCallback with
  | none => simp
  | some callback =>
    rw [hcallback] at h
    intro o ho hcancels
    rw [List.mem_singleton.1 ho] at hcancels
    change callback event step = .cancelled at hcancels
    simp [hcancels] at h

/-- What the debugger may answer about a step that failed. -/
def SoundAfter (c : Coordinator) (step : ExecutionStep) : Prop :=
  match c.debugReply step with
  | none => ¬ Misfiled step (toolByStep step) (c.reply step)
  | some reply =>
    ∃ debugged, stepResult .debugFailure none reply = .ok debugged ∧
      ((∃ second, debugged.failure = some second ∧ second.category = "CANCELLED") ∨
        ¬ Misfiled step (toolByStep step) (c.reply step) ∧ ¬ Misfiled .debugFailure none reply)

/-- What the environment may answer to the steps of a plan from one on, up to the first failure. -/
def Sound (c : Coordinator) : List ExecutionStep → Prop
  | [] => True
  | step :: rest =>
    Quiet c .stepStarted step ∧ Quiet c .stepCompleted step ∧
      match stepResult step (toolByStep step) (c.reply step) with
      | .error _ => False
      | .ok result =>
        match result.failure with
        | none => Sound c rest
        | some failure => failure.category = "CANCELLED" ∨ SoundAfter c step

/-- How the outcome of an execution relates to what it met: it settles after `done` what it did
    of the steps `rest`. -/
structure Settles (done : List StepResult) (rest : List ExecutionStep)
    (run : List Occurrence × Except Escape ExecutionOutcome) (o : ExecutionOutcome) (own debug : List StepResult) :
    Prop where
  returned : run.2 = .ok o
  terminal : o.status.terminal = true
  results : o.stepResults = done ++ own ++ debug
  debugged : debug.length ≤ 1 ∧ ∀ r ∈ debug, r.step = .debugFailure
  inOrder : own.map (·.step) <+: rest
  attempted : attempts run.1 = own.map (·.step)
  succeeded : ∀ r ∈ own.dropLast, r.success = true
  completed : o.status = .completed ↔ own.map (·.step) = rest ∧ ∀ r ∈ own, r.success = true
  cancelled : o.status = .cancelled ↔ ∃ occurrence ∈ run.1, occurrence.Cancels

lemma fail_cancelled {step : ExecutionStep} {results : List StepResult} {failure : ExecutionFailure}
    (hresults : results.filterMap (·.failure) = [failure]) (hcategory : failure.category = "CANCELLED") :
    c.fail step results failure = ([], .ok ⟨.cancelled, results, [failure]⟩) := by
  unfold Coordinator.fail
  rw [if_pos hcategory, outcome_ok rfl hresults (.inl (by decide))]

lemma fail_settles {step : ExecutionStep} {results : List StepResult} {result : StepResult} {failure : ExecutionFailure}
    (hresults : results.filterMap (·.failure) = [failure]) (hcategory : failure.category ≠ "CANCELLED")
    (hresult : stepResult step (toolByStep step) (c.reply step) = .ok result) (hfailure : result.failure = some failure)
    (hdebug : SoundAfter c step) :
    ∃ o debug, (c.fail step results failure).2 = .ok o ∧ o.status.terminal = true ∧ o.status ≠ .completed ∧
      o.stepResults = results ++ debug ∧ (debug.length ≤ 1 ∧ ∀ r ∈ debug, r.step = .debugFailure) ∧
      attempts (c.fail step results failure).1 = [] ∧
      (o.status = .cancelled ↔ Cancels step (toolByStep step) (c.reply step) ∨
        ∃ occurrence ∈ (c.fail step results failure).1, occurrence.Cancels) := by
  unfold SoundAfter at hdebug
  unfold Coordinator.fail
  rw [if_neg hcategory, cancels_iff_misfiled hresult hfailure hcategory]
  cases hreply : c.debugReply step with
  | none =>
    rw [hreply] at hdebug
    refine ⟨⟨.failed, results, [failure]⟩, [], outcome_ok rfl hresults (.inl (by decide)), rfl, nofun, ?_, ?_, rfl, ?_⟩
    · simp
    · simp
    · simp [show ¬ Misfiled step (toolByStep step) (c.reply step) from hdebug]
  | some reply =>
    rw [hreply] at hdebug
    obtain ⟨debugged, hdebugged, hfiled⟩ := hdebug
    have hstep := step_stepResult hdebugged
    have hlog : (∃ occurrence ∈ [Occurrence.debugged reply], occurrence.Cancels) ↔
        Cancels .debugFailure none reply := by
      simp [Occurrence.Cancels]
    cases hsecond : debugged.failure with
    | none =>
      have hmisfiled : ¬ Misfiled step (toolByStep step) (c.reply step) := by
        rcases hfiled with ⟨second, hsome, -⟩ | hfiled
        · rw [hsecond] at hsome
          cases hsome
        · exact hfiled.1
      refine ⟨⟨.failed, results ++ [debugged], [failure]⟩, [debugged], ?_, rfl, nofun, rfl, ?_, rfl, ?_⟩
      · simp only [hdebugged, Except.bind, bind, hsecond]
        exact outcome_ok rfl (by simp [hresults, hsecond]) (.inl (by decide))
      · simp [hstep]
      · rw [hlog]
        simp [hmisfiled, not_cancels_of_success hdebugged hsecond]
    | some second =>
      refine ⟨⟨if second.category = "CANCELLED" then .cancelled else .failed, results ++ [debugged],
        [failure, second]⟩, [debugged], ?_, ?_, ?_, rfl, ?_, rfl, ?_⟩
      · simp only [hdebugged, Except.bind, bind, hsecond]
        refine outcome_ok ?_ (by simp [hresults, hsecond]) (.inl ?_)
        · split <;> rfl
        · split <;> decide
      · split <;> rfl
      · split <;> nofun
      · simp [hstep]
      · rw [hlog]
        by_cases hcancelled : second.category = "CANCELLED"
        · simp [hcancelled, cancels_of_category hdebugged hsecond hcancelled]
        · rw [cancels_iff_misfiled hdebugged hsecond hcancelled]
          rcases hfiled with ⟨third, hthird, hcategory'⟩ | hfiled
          · rw [hsecond] at hthird
            cases hthird
            exact absurd hcategory' hcancelled
          · simp [hcancelled, hfiled]

lemma soundAfter_of_fail {step : ExecutionStep} {results : List StepResult} {failure : ExecutionFailure}
    {o : ExecutionOutcome} (hcategory : failure.category ≠ "CANCELLED") (ho : (c.fail step results failure).2 = .ok o)
    (hcancelled : (Misfiled step (toolByStep step) (c.reply step) ∨
      ∃ occurrence ∈ (c.fail step results failure).1, occurrence.Cancels) → o.status = .cancelled) :
    SoundAfter c step := by
  unfold Coordinator.fail at ho hcancelled
  unfold SoundAfter
  rw [if_neg hcategory] at ho hcancelled
  cases hreply : c.debugReply step with
  | none =>
    rw [hreply] at ho hcancelled
    intro hmisfiled
    rw [(outcome_fields ho).1] at hcancelled
    cases hcancelled (.inl hmisfiled)
  | some reply =>
    rw [hreply] at ho hcancelled
    obtain ⟨debugged, hdebugged, ho⟩ := ok_of_bind ho
    refine ⟨debugged, hdebugged, ?_⟩
    cases hsecond : debugged.failure with
    | none =>
      rw [hsecond] at ho
      rw [(outcome_fields ho).1] at hcancelled
      refine .inr ⟨fun hmisfiled => ?_, fun hmisfiled => ?_⟩
      · cases hcancelled (.inl hmisfiled)
      · obtain ⟨result, third, hreturned, hsays, hresult, -⟩ := hmisfiled
        cases hcancelled (.inr ⟨_, List.mem_singleton_self _, .inr ⟨result, third, hreturned, hresult, .inr hsays⟩⟩)
    | some second =>
      rw [hsecond] at ho
      rw [(outcome_fields ho).1] at hcancelled
      by_cases hfiled : second.category = "CANCELLED"
      · exact .inl ⟨second, rfl, hfiled⟩
      · rw [if_neg hfiled] at hcancelled
        refine .inr ⟨fun hmisfiled => ?_, fun hmisfiled => ?_⟩
        · cases hcancelled (.inl hmisfiled)
        · obtain ⟨result, third, hreturned, hsays, hresult, -⟩ := hmisfiled
          cases hcancelled (.inr ⟨_, List.mem_singleton_self _, .inr ⟨result, third, hreturned, hresult, .inr hsays⟩⟩)

lemma executeFrom_cons {done : List StepResult} {step : ExecutionStep} {rest : List ExecutionStep}
    {result : StepResult} (hstart : (c.emitProgress .stepStarted step).2 = .ok ())
    (hresult : stepResult step (toolByStep step) (c.reply step) = .ok result)
    (hend : (c.emitProgress .stepCompleted step).2 = .ok ()) :
    c.executeFrom done (step :: rest) =
      let next := match result.failure with
        | none => c.executeFrom (done ++ [result]) rest
        | some failure => c.fail step (done ++ [result]) failure
      ((c.emitProgress .stepStarted step).1 ++ [.attempted step (c.reply step)] ++
        (c.emitProgress .stepCompleted step).1 ++ next.1, next.2) := by
  rw [Coordinator.executeFrom]
  rcases h₁ : c.emitProgress .stepStarted step with ⟨told, ended⟩
  rcases h₂ : c.emitProgress .stepCompleted step with ⟨told', ended'⟩
  rw [h₁] at hstart
  rw [h₂] at hend
  cases hstart
  cases hend
  revert hresult
  generalize stepResult step (toolByStep step) (c.reply step) = settled
  rintro rfl
  rfl

lemma executeFrom_returned {done : List StepResult} {step : ExecutionStep} {rest : List ExecutionStep}
    {o : ExecutionOutcome} (h : (c.executeFrom done (step :: rest)).2 = .ok o) :
    (c.emitProgress .stepStarted step).2 = .ok () ∧ (c.emitProgress .stepCompleted step).2 = .ok () ∧
      ∃ result, stepResult step (toolByStep step) (c.reply step) = .ok result := by
  rw [Coordinator.executeFrom] at h
  rcases h₁ : c.emitProgress .stepStarted step with ⟨told, escape | _⟩ <;> rw [h₁] at h
  · cases h
  rcases hresult : stepResult step (toolByStep step) (c.reply step) with escape | result
  · simp [hresult] at h
  rcases h₂ : c.emitProgress .stepCompleted step with ⟨told', escape | _⟩
  · simp [hresult, h₂] at h
  · exact ⟨rfl, rfl, result, rfl⟩

lemma cancels_log {step : ExecutionStep} {more : List Occurrence}
    (hstart : (c.emitProgress .stepStarted step).2 = .ok ()) (hend : (c.emitProgress .stepCompleted step).2 = .ok ()) :
    (∃ occurrence ∈ (c.emitProgress .stepStarted step).1 ++ [.attempted step (c.reply step)] ++
      (c.emitProgress .stepCompleted step).1 ++ more, occurrence.Cancels) ↔
      Cancels step (toolByStep step) (c.reply step) ∨ ∃ occurrence ∈ more, occurrence.Cancels := by
  constructor
  · rintro ⟨occurrence, hmem, hcancels⟩
    simp only [List.append_assoc, List.mem_append, List.mem_singleton] at hmem
    rcases hmem with h | rfl | h | h
    · exact absurd hcancels (quiet_log hstart _ h)
    · exact .inl hcancels
    · exact absurd hcancels (quiet_log hend _ h)
    · exact .inr ⟨occurrence, h, hcancels⟩
  · rintro (hcancels | ⟨occurrence, hmem, hcancels⟩)
    · exact ⟨.attempted step (c.reply step), by simp, hcancels⟩
    · exact ⟨occurrence, by simp [hmem], hcancels⟩

lemma settles_of_sound {rest : List ExecutionStep} (h : Sound c rest) {done : List StepResult}
    (hdone : done.filterMap (·.failure) = []) :
    ∃ o own debug, Settles done rest (c.executeFrom done rest) o own debug := by
  induction rest generalizing done with
  | nil =>
    refine ⟨⟨.completed, done, []⟩, [], [], outcome_ok rfl hdone (.inr rfl), rfl, ?_, ?_, List.nil_prefix, rfl, ?_, ?_, ?_⟩
    · simp
    · simp
    · simp
    · simp
    · exact iff_of_false nofun (by rintro ⟨_, h, -⟩; cases h)
  | cons step rest ih =>
    obtain ⟨hstart, hend, hresult⟩ := h
    rw [quiet_iff] at hstart hend
    rcases hstep : stepResult step (toolByStep step) (c.reply step) with escape | result
    · rw [hstep] at hresult
      exact hresult.elim
    rw [hstep] at hresult
    have hrun := @executeFrom_cons c done step rest result hstart hstep hend
    have hname : result.step = step := step_stepResult hstep
    cases hfailure : result.failure with
    | none =>
      rw [hfailure] at hrun
      have hsound : Sound c rest := by simpa only [hfailure] using hresult
      have hdone' : (done ++ [result]).filterMap (·.failure) = [] := by simp [hdone, hfailure]
      obtain ⟨o, own, debug, hsettles⟩ := ih hsound hdone'
      have hcancels := not_cancels_of_success hstep hfailure
      have hsuccess : result.success = true := by simp [StepResult.success, hfailure]
      refine ⟨o, result :: own, debug, ?_⟩
      rw [hrun]
      constructor
      · exact hsettles.returned
      · exact hsettles.terminal
      · rw [hsettles.results]
        simp
      · exact hsettles.debugged
      · simpa [hname] using hsettles.inOrder
      · simp [hsettles.attempted, hname]
      · cases own with
        | nil => simp
        | cons next own => simpa [hsuccess] using hsettles.succeeded
      · rw [hsettles.completed]
        simp [hname, hsuccess]
      · rw [hsettles.cancelled, cancels_log hstart hend]
        simp [hcancels]
    | some failure =>
      rw [hfailure] at hrun
      have hfailed : result.success = false := by simp [StepResult.success, hfailure]
      have hresults : (done ++ [result]).filterMap (·.failure) = [failure] := by simp [hdone, hfailure]
      have hbegin : [result].map (·.step) <+: step :: rest := by simp [hname]
      have hown : ¬ ([result].map (·.step) = step :: rest ∧ ∀ r ∈ [result], r.success = true) := by simp [hfailed]
      by_cases hcategory : failure.category = "CANCELLED"
      · refine ⟨⟨.cancelled, done ++ [result], [failure]⟩, [result], [], ?_⟩
        rw [hrun]
        simp only [fail_cancelled hresults hcategory]
        constructor
        · rfl
        · rfl
        · simp
        · simp
        · exact hbegin
        · simp [hname]
        · simp
        · exact iff_of_false nofun hown
        · rw [cancels_log hstart hend]
          exact iff_of_true rfl (.inl (cancels_of_category hstep hfailure hcategory))
      · have hafter : SoundAfter c step := by
          simp only [hfailure] at hresult
          exact hresult.resolve_left hcategory
        obtain ⟨o, debug, hreturned, hterminal, hstatus, hall, hdebug, hattempts, hcancelled⟩ :=
          fail_settles hresults hcategory hstep hfailure hafter
        refine ⟨o, [result], debug, ?_⟩
        rw [hrun]
        constructor
        · exact hreturned
        · exact hterminal
        · exact hall
        · exact hdebug
        · exact hbegin
        · simp [hattempts, hname]
        · simp
        · exact iff_of_false hstatus hown
        · rw [hcancelled, cancels_log hstart hend]

lemma sound_of_returned {rest : List ExecutionStep} {done : List StepResult} {o : ExecutionOutcome}
    (ho : (c.executeFrom done rest).2 = .ok o)
    (hcancelled : (∃ occurrence ∈ (c.executeFrom done rest).1, occurrence.Cancels) → o.status = .cancelled) :
    Sound c rest := by
  induction rest generalizing done with
  | nil => trivial
  | cons step rest ih =>
    obtain ⟨hstart, hend, result, hstep⟩ := executeFrom_returned ho
    rw [executeFrom_cons hstart hstep hend] at ho hcancelled
    rw [cancels_log hstart hend] at hcancelled
    refine ⟨(quiet_iff ..).2 hstart, (quiet_iff ..).2 hend, ?_⟩
    simp only [hstep]
    cases hfailure : result.failure with
    | none =>
      rw [hfailure] at ho hcancelled
      exact ih ho fun h => hcancelled (.inr h)
    | some failure =>
      rw [hfailure] at ho hcancelled
      by_cases hcategory : failure.category = "CANCELLED"
      · exact .inl hcategory
      · rw [cancels_iff_misfiled hstep hfailure hcategory] at hcancelled
        exact .inr (soundAfter_of_fail hcategory ho hcancelled)

end Runs

def Exact (c : Coordinator) (plan : ExecutionPlan) : Prop :=
  ∃ o own debug, Settles [] plan.executionSteps (c.execute plan) o own debug ∧ (attempts (c.execute plan).1).Nodup

theorem exact_iff (c : Coordinator) (plan : ExecutionPlan) : Exact c plan ↔ Sound c plan.executionSteps := by
  constructor
  · rintro ⟨o, own, debug, hsettles, -⟩
    exact sound_of_returned hsettles.returned hsettles.cancelled.2
  · intro hsound
    obtain ⟨o, own, debug, hsettles⟩ := settles_of_sound hsound (show [].filterMap StepResult.failure = [] from rfl)
    refine ⟨o, own, debug, hsettles, ?_⟩
    rw [Coordinator.execute, hsettles.attempted]
    exact plan.nodup.sublist hsettles.inOrder.sublist

def interrupted : Coordinator where
  tool _ := .returned (.object ⟨.absent, .present (.text "SUCCESS"), some .none, .absent⟩)
  resolver _ := none
  handler _ := none
  debugger := none
  debugOnFailure := true
  progressCallback := some fun _ _ => .cancelled

def buildPlan : ExecutionPlan := ⟨[.buildFirmware], List.nodup_singleton _⟩

/-- The cancellation leaves `execute` as an exception, and there is no outcome. -/
theorem interrupted_raises : (interrupted.execute buildPlan).2 = .error .cancelledError ∧ ¬ Exact interrupted buildPlan := by
  refine ⟨rfl, ?_⟩
  rintro ⟨o, own, debug, hsettles, -⟩
  cases hsettles.returned

end PromptForge.Coordination
