import PromptForge.ToolSchedulingLaws

namespace PromptForge.ToolScheduling
open Runs Tables

variable {ρ ε : Type}

def Progress.work : Progress ρ → ℕ
  | .created => 6
  | .waiting _ => 5
  | .running _ _ => 4
  | .finished _ _ _ _ => 3
  | .counted => 2
  | .failed => 2

def taskWork (tasks : List (Task ρ)) : ℕ := (tasks.map fun task => task.progress.work).sum

def State.ownWork (s : State ρ ε) : ℕ :=
  match s.phase with
  | .visiting => 8 * s.readBatch.length + 5 * s.current.toList.length + 1
  | .flushing => 5 * s.current.toList.length + 2
  | .entering => 8 * s.readBatch.length + 5 * s.current.toList.length + 1
  | .executing _ _ => 8 * s.readBatch.length + 3 * s.current.toList.length + 1
  | .returned => 0
  | .raised _ => 0

def State.work (s : State ρ ε) : ℕ := 10 * s.rest.length + taskWork s.tasks + s.ownWork

lemma taskWork_set {tasks : List (Task ρ)} {k : ℕ} {task : Task ρ} (progress : Progress ρ)
    (hk : tasks[k]? = some task) :
    taskWork (tasks.set k ⟨task.invocation, progress⟩) + task.progress.work = taskWork tasks + progress.work := by
  obtain ⟨pre, post, rfl, hset⟩ := set_split hk
  unfold taskWork
  rw [hset]
  simp only [List.map_append, List.map_cons, List.sum_append, List.sum_cons]
  omega

lemma taskWork_created (batch : List ToolInvocation) :
    taskWork (batch.map fun invocation => (⟨invocation, .created⟩ : Task ρ)) = 6 * batch.length := by
  induction batch with
  | nil => rfl
  | cons x batch ih =>
    unfold taskWork at ih ⊢
    rw [List.map_cons, List.map_cons, List.sum_cons, ih, List.length_cons]
    simp only [Progress.work]
    omega

section Steps
variable {maxParallelReads : ℤ} {invocations : List ToolInvocation} {s s' : State ρ ε}

lemma work_advance (hs' : advance s = some s') : s'.work < s.work := by
  unfold advance at hs'
  rcases hp : s.phase with _ | _ | _ | ⟨q, a⟩ | _ | error <;> rw [hp] at hs' <;> dsimp only at hs'
  · rcases hrest : s.rest with _ | ⟨x, rest⟩ <;> rw [hrest] at hs' <;> dsimp only at hs'
    · split at hs'
      · cases hs'
        simp only [State.work, State.ownWork, hp, hrest]
        omega
      · rename_i hbatch
        have hpos := List.length_pos_iff.2 hbatch
        cases hs'
        simp only [State.work, State.ownWork, flushReads, hp, taskWork_created]
        omega
    · split at hs'
      · cases hs'
        simp only [State.work, State.ownWork, hp, hrest, List.length_cons, List.length_append, List.length_nil]
        omega
      · split at hs'
        · cases hs'
          simp only [State.work, State.ownWork, hp, hrest, List.length_cons, Option.toList_some, List.length_nil]
          omega
        · rename_i hbatch
          have hpos := List.length_pos_iff.2 hbatch
          cases hs'
          simp only [State.work, State.ownWork, flushReads, hp, hrest, taskWork_created, List.length_cons,
            Option.toList_some, List.length_nil]
          omega
  · rcases hfailure : s.failure with _ | error <;> rw [hfailure] at hs' <;> dsimp only at hs'
    · split at hs'
      · obtain ⟨results, -, rfl⟩ := Option.map_eq_some_iff.1 hs'
        rcases hc : s.current with _ | x <;>
          simp only [State.work, State.ownWork, answerReads, hp, hc, taskWork, Option.isSome_none, Option.isSome_some,
            Bool.false_eq_true, if_true, if_false, List.map_nil, List.sum_nil, List.length_nil] <;> omega
      · cases hs'
    · cases hs'
      simp only [State.work, State.ownWork, hp]
      omega
  · cases hs'
  · cases hs'
  · cases hs'
  · cases hs'

variable {k : ℕ} {task : Task ρ}

lemma work_setTask {progress : Progress ρ} (hk : s.tasks[k]? = some task)
    (hless : progress.work < task.progress.work) (hrest : s'.rest = s.rest) (hcurrent : s'.current = s.current)
    (hbatch : s'.readBatch = s.readBatch) (hphase : s'.phase = s.phase)
    (htasks : s'.tasks = s.tasks.set k ⟨task.invocation, progress⟩) : s'.work < s.work := by
  have hset := taskWork_set progress hk
  unfold State.work State.ownWork
  rw [hrest, hcurrent, hbatch, hphase, htasks]
  omega

variable {a : Action ρ ε}

lemma work_stepTask (hk : s.tasks[k]? = some task)
    (hs' : stepTask maxParallelReads k task s a = some s') : s'.work < s.work := by
  cases a with
  | enqueue k' now =>
    rcases hp : task.progress with _ | q | ⟨q, a⟩ | ⟨result, q, a, c⟩ | _ | _ <;> simp only [stepTask, hp] at hs' <;>
      cases hs'
    exact work_setTask hk (by simp only [hp, Progress.work, Nat.reduceLT]) rfl rfl rfl rfl rfl
  | start k' now =>
    rcases hp : task.progress with _ | q | ⟨q, a⟩ | ⟨result, q, a, c⟩ | _ | _ <;> simp only [stepTask, hp] at hs' <;>
      try cases hs'
    split at hs'
    · cases hs'
      exact work_setTask hk (by simp only [hp, Progress.work, Nat.reduceLT]) rfl rfl rfl rfl rfl
    · cases hs'
  | finish k' now outcome =>
    rcases hp : task.progress with _ | q | ⟨q, a⟩ | ⟨result, q, a, c⟩ | _ | _ <;> simp only [stepTask, hp] at hs' <;>
      try cases hs'
    rcases outcome with error | result
    · cases hs'
      exact work_setTask hk (by simp only [hp, Progress.work, Nat.reduceLT]) rfl rfl rfl rfl rfl
    · cases hs'
      exact work_setTask hk (by simp only [hp, Progress.work, Nat.reduceLT]) rfl rfl rfl rfl rfl
  | count k' =>
    rcases hp : task.progress with _ | q | ⟨q, a⟩ | ⟨result, q, a, c⟩ | _ | _ <;> simp only [stepTask, hp] at hs' <;>
      cases hs'
    exact work_setTask hk (by simp only [hp, Progress.work, Nat.reduceLT]) rfl rfl rfl rfl rfl
  | advance => cases hs'
  | enter q a => cases hs'
  | leave now outcome => cases hs'

lemma work_enter {q a : ℚ} (hs' : enter q a s = some s') : s'.work < s.work := by
  unfold enter at hs'
  rcases hp : s.phase with _ | _ | _ | ⟨q, a⟩ | _ | error <;> rcases hc : s.current with _ | x <;>
    simp only [hp, hc] at hs' <;> cases hs'
  simp only [State.work, State.ownWork, happen, hp, hc, Option.toList_some, List.length_cons]
  omega

lemma work_leave {now : ℚ} {outcome : Except ε ρ} (hs' : leave now outcome s = some s') : s'.work < s.work := by
  unfold leave at hs'
  rcases hp : s.phase with _ | _ | _ | ⟨q, a⟩ | _ | error <;> rcases hc : s.current with _ | x <;>
    simp only [hp, hc] at hs' <;> try cases hs'
  rcases outcome with error | result <;> cases hs' <;>
    simp only [State.work, State.ownWork, happen, hp, hc, Option.toList_some, Option.toList_none, List.length_cons,
      List.length_nil] <;> omega

lemma of_task_action (hs' : (do
      let k ← taskOf? a
      let task ← s.tasks[k]?
      stepTask maxParallelReads k task s a) = some s') :
    ∃ (k : ℕ) (task : Task ρ), s.tasks[k]? = some task ∧ stepTask maxParallelReads k task s a = some s' := by
  obtain ⟨k, -, hs'⟩ := Option.bind_eq_some_iff.1 hs'
  obtain ⟨task, hk, hs'⟩ := Option.bind_eq_some_iff.1 hs'
  exact ⟨k, task, hk, hs'⟩

lemma work_task_action (hs' : (do
      let k ← taskOf? a
      let task ← s.tasks[k]?
      stepTask maxParallelReads k task s a) = some s') : s'.work < s.work := by
  obtain ⟨k, task, hk, hstep⟩ := of_task_action hs'
  exact work_stepTask hk hstep

lemma work_step (hs' : step? maxParallelReads s a = some s') : s'.work < s.work := by
  cases a with
  | advance => exact work_advance hs'
  | enter q a => exact work_enter hs'
  | leave now outcome => exact work_leave hs'
  | enqueue k now => exact work_task_action hs'
  | start k now => exact work_task_action hs'
  | finish k now outcome => exact work_task_action hs'
  | count k => exact work_task_action hs'

def taken (maxParallelReads : ℤ) (s : State ρ ε) (actions : List (Action ρ ε)) : ℕ :=
  (trace (step maxParallelReads) s actions).countP Entry.outcome

variable (maxParallelReads) in
lemma taken_add_work (s : State ρ ε) (actions : List (Action ρ ε)) :
    taken maxParallelReads s actions + (final (step maxParallelReads) s actions).work ≤ s.work := by
  induction actions generalizing s with
  | nil => exact (Nat.zero_add _).le
  | cons a actions ih =>
    have hrest := ih (step maxParallelReads s a).2
    have hhead : (if (step maxParallelReads s a).1 then 1 else 0) + (step maxParallelReads s a).2.work ≤ s.work := by
      unfold step
      rcases hs' : step? maxParallelReads s a with _ | s'
      · exact (Nat.zero_add _).le
      · have hless := work_step hs'
        simp only [if_true]
        omega
    unfold taken at hrest ⊢
    rw [trace_cons, List.countP_cons, entry_outcome, final_cons]
    omega

lemma work_initial (invocations : List ToolInvocation) :
    (State.initial (ρ := ρ) (ε := ε) invocations).work ≤ 10 * invocations.length + 1 := by
  unfold State.work State.ownWork State.initial taskWork
  by_cases hc : (invocations.map ToolInvocation.callId).Nodup
  · simp only [hc, if_true, List.map_nil, List.sum_nil, List.length_nil, Option.toList_none]
    omega
  · simp only [hc, if_false, List.map_nil, List.sum_nil]
    omega

def Action.raises : Action ρ ε → Bool
  | .finish _ _ (.error _) => true
  | .leave _ (.error _) => true
  | _ => false

variable (maxParallelReads) in
def CanGoOn (s : State ρ ε) : Prop := ∃ a s', Action.raises a = false ∧ step? maxParallelReads s a = some s'

lemma goes_on_visiting (hp : s.phase = .visiting) : CanGoOn maxParallelReads s := by
  have hadvance : ∃ s', advance s = some s' := by
    unfold advance
    rw [hp]
    dsimp only
    split
    · split <;> exact ⟨_, rfl⟩
    · split
      · exact ⟨_, rfl⟩
      · split <;> exact ⟨_, rfl⟩
  obtain ⟨s', hs'⟩ := hadvance
  exact ⟨.advance, s', rfl, hs'⟩

lemma goes_on_raising (hp : s.phase = .flushing) {error : ε} (hfailure : s.failure = some error) :
    CanGoOn maxParallelReads s := by
  refine ⟨.advance, { s with phase := .raised (.runner error) }, rfl, ?_⟩
  change advance s = some _
  unfold advance
  rw [hp]
  dsimp only
  rw [hfailure]

variable (hindex : (invocations.map ToolInvocation.invocationIndex).Nodup)

include hindex in
lemma goes_on_gathering (h : Inv invocations s)
    (hp : s.phase = .flushing) (hmap : s.tasks.map Task.invocation = s.readBatch) (hfailure : s.failure = none)
    (hall : (s.tasks.all fun task => task.progress.isCounted) = true) : CanGoOn maxParallelReads s := by
  have hcounted : pick Progress.isCounted s.tasks = s.readBatch := by
    rw [pick_all fun task ht => List.all_eq_true.1 hall task ht]
    exact hmap
  have hstored := h.recorded.stored
  rw [hcounted] at hstored
  obtain ⟨results, hcollect, -, -⟩ := collect_perm h.recorded.keys hstored (batch_nodup hindex h.shape)
  refine ⟨.advance, answerReads results s, rfl, ?_⟩
  change advance s = some _
  unfold advance
  rw [hp]
  dsimp only
  rw [hfailure, if_pos hall, hcollect]
  rfl

lemma goes_on_task_action (hk : s.tasks[k]? = some task)
    (hraises : a.raises = false) (ha : taskOf? a = some k) {s' : State ρ ε}
    (hs' : stepTask maxParallelReads k task s a = some s') : CanGoOn maxParallelReads s := by
  have hdo : (do
      let k ← taskOf? a
      let task ← s.tasks[k]?
      stepTask maxParallelReads k task s a) = some s' := by
    rw [ha, Option.bind_eq_bind, Option.bind_some, hk]
    exact hs'
  refine ⟨a, s', hraises, ?_⟩
  cases a with
  | advance => cases ha
  | enter q a => cases ha
  | leave now outcome => cases ha
  | enqueue k' now => exact hdo
  | start k' now => exact hdo
  | finish k' now outcome => exact hdo
  | count k' => exact hdo

lemma goes_on_running (hk : s.tasks[k]? = some task) {q a : ℚ}
    (hrunning : task.progress = .running q a) (result : ρ) : CanGoOn maxParallelReads s := by
  have hstep : stepTask maxParallelReads k task s (.finish k 0 (.ok result)) =
      some (happen (.ended task.invocation (.ok result)) (setTask k task (.finished result q a 0) s)) := by
    simp only [stepTask, hrunning]
  exact goes_on_task_action hk rfl rfl hstep

lemma exists_running (h : 0 < runningReads s) :
    ∃ (k : ℕ) (task : Task ρ) (q a : ℚ), s.tasks[k]? = some task ∧ task.progress = .running q a := by
  obtain ⟨task, ht, hrunning⟩ := List.countP_pos_iff.1 h
  obtain ⟨k, hk⟩ := List.mem_iff_getElem?.1 ht
  rcases hp : task.progress with _ | q | ⟨q, a⟩ | ⟨result, q, a, c⟩ | _ | _ <;> rw [hp] at hrunning <;>
    try cases hrunning
  exact ⟨k, task, q, a, hk, hp⟩

lemma goes_on_task (h : Inv invocations s) (hfailure : s.failure = none)
    (hk : s.tasks[k]? = some task) (hnot : task.progress.isCounted = false) (result : ρ) :
    CanGoOn maxParallelReads s := by
  rcases hp : task.progress with _ | q | ⟨q, a⟩ | ⟨r, q, a, c⟩ | _ | _
  · have hstep : stepTask maxParallelReads k task s (.enqueue k 0) = some (setTask k task (.waiting 0) s) := by
      simp only [stepTask, hp]
    exact goes_on_task_action hk rfl rfl hstep
  · by_cases hroom : (runningReads s : ℤ) < clampReads maxParallelReads
    · have hstep : stepTask maxParallelReads k task s (.start k 0) =
          some (happen (.started task.invocation) (setTask k task (.running q 0) s)) := by
        simp only [stepTask, hp, hroom, if_true]
      exact goes_on_task_action hk rfl rfl hstep
    · -- the semaphore is taken, so some read is running and may return
      have hone : 1 ≤ clampReads maxParallelReads := le_max_left _ _
      obtain ⟨j, other, q', a', hj, hrunning⟩ := exists_running (s := s) (by omega)
      exact goes_on_running hj hrunning result
  · exact goes_on_running hk hp result
  · have hstep : ∃ s', stepTask maxParallelReads k task s (.count k) = some s' := by
      simp only [stepTask, hp]
      exact ⟨_, rfl⟩
    obtain ⟨s', hs'⟩ := hstep
    exact goes_on_task_action hk rfl rfl hs'
  · rw [hp] at hnot
    cases hnot
  · have hsome := h.recorded.failed task (List.mem_of_getElem? hk) hp
    rw [hfailure] at hsome
    cases hsome

include hindex in
lemma goes_on_flushing (h : Inv invocations s)
    (hp : s.phase = .flushing) (hmap : s.tasks.map Task.invocation = s.readBatch) (result : ρ) :
    CanGoOn maxParallelReads s := by
  rcases hfailure : s.failure with _ | error
  · by_cases hall : (s.tasks.all fun task => task.progress.isCounted) = true
    · exact goes_on_gathering hindex h hp hmap hfailure hall
    · obtain ⟨task, ht, hnot⟩ : ∃ task ∈ s.tasks, ¬ task.progress.isCounted = true := by
        by_contra hnone
        refine hall (List.all_eq_true.2 fun task ht => ?_)
        by_contra hc
        exact hnone ⟨task, ht, hc⟩
      obtain ⟨k, hk⟩ := List.mem_iff_getElem?.1 ht
      exact goes_on_task h hfailure hk (Bool.eq_false_iff.2 hnot) result
  · exact goes_on_raising hp hfailure

lemma goes_on_entering (hp : s.phase = .entering) (hcurrent : s.current.isSome) : CanGoOn maxParallelReads s := by
  obtain ⟨x, hx⟩ := Option.isSome_iff_exists.1 hcurrent
  have henter : ∃ s', enter 0 0 s = some s' := by
    unfold enter
    rw [hp, hx]
    exact ⟨_, rfl⟩
  obtain ⟨s', hs'⟩ := henter
  exact ⟨.enter 0 0, s', rfl, hs'⟩

lemma goes_on_executing {q a : ℚ} (hp : s.phase = .executing q a) (hcurrent : s.current.isSome) (result : ρ) :
    CanGoOn maxParallelReads s := by
  obtain ⟨x, hx⟩ := Option.isSome_iff_exists.1 hcurrent
  have hleave : ∃ s', leave 0 (.ok result) s = some s' := by
    unfold leave
    rw [hp, hx]
    exact ⟨_, rfl⟩
  obtain ⟨s', hs'⟩ := hleave
  exact ⟨.leave 0 (.ok result), s', rfl, hs'⟩

include hindex in
lemma goes_on (h : Inv invocations s) (result : ρ)
    (hover : ¬ s.isOver) : CanGoOn maxParallelReads s := by
  have hplaced := h.shape.placed
  unfold Placed at hplaced
  unfold State.isOver at hover
  rcases hp : s.phase with _ | _ | _ | ⟨q, a⟩ | _ | error <;> rw [hp] at hplaced hover
  · exact goes_on_visiting hp
  · exact goes_on_flushing hindex h hp hplaced.1 result
  · exact goes_on_entering hp hplaced.2.2
  · exact goes_on_executing hp hplaced.2.2 result
  · exact absurd trivial hover
  · exact absurd trivial hover

lemma tasks_sublist (h : Shape invocations s) : (s.tasks.map Task.invocation).Sublist s.readBatch := by
  have hplaced := h.placed
  unfold Placed at hplaced
  have hnil : s.tasks = [] → (s.tasks.map Task.invocation).Sublist s.readBatch := by
    intro hempty
    rw [hempty]
    exact List.nil_sublist _
  rcases hp : s.phase with _ | _ | _ | ⟨q, a⟩ | _ | error <;> rw [hp] at hplaced
  · exact hnil hplaced.1
  · rw [hplaced.1]
  · exact hnil hplaced.1
  · exact hnil hplaced.1
  · exact hnil hplaced.1
  · rcases hplaced with ⟨hempty, -⟩ | hmap
    · exact hnil hempty
    · rw [hmap]

lemma begun_sublist (s : State ρ ε) : s.begun.Sublist s.current.toList ∧ s.lost.Sublist s.current.toList := by
  unfold State.begun State.lost
  rcases s.phase with _ | _ | _ | ⟨q, a⟩ | _ | error <;> refine ⟨?_, ?_⟩ <;> dsimp only <;> first
    | exact List.nil_sublist _
    | exact List.Sublist.refl _
    | (split <;> first
        | exact List.nil_sublist _
        | exact List.Sublist.refl _)

lemma places_sublist (h : Shape invocations s) (p : Progress ρ → Bool) {effect : List ToolInvocation}
    (heffect : effect.Sublist s.current.toList) : (s.done ++ pick p s.tasks ++ effect).Sublist invocations := by
  rw [h.split]
  refine List.Sublist.trans ?_ (List.sublist_append_left _ _)
  exact ((List.Sublist.refl _).append ((pick_sublist p s.tasks).trans (tasks_sublist h))).append heffect

lemma started_subperm (h : Inv invocations s) : (startedOf s.happened).Subperm invocations :=
  h.recorded.started.subperm.trans (places_sublist h.shape _ (begun_sublist s).1).subperm

lemma ended_subperm (h : Inv invocations s) : (endedOf s.happened).Subperm invocations :=
  h.recorded.ended.subperm.trans (places_sublist h.shape _ (begun_sublist s).2).subperm

lemma answered_of_returned (h : Inv invocations s) (hreturned : s.phase = .returned) : Answered invocations s := by
  have hplaced := h.shape.placed
  unfold Placed at hplaced
  rw [hreturned] at hplaced
  obtain ⟨htasks, hbatch, hcurrent, hrest⟩ := hplaced
  have hnone := begun_of_no_raise (.inr (.inr (.inr hreturned)))
  have hcompleted := completed_of_no_tasks h.recorded htasks
  have hall : s.done = invocations := by
    rw [h.shape.split, hbatch, hcurrent, hrest]
    simp
  have hstarted := h.recorded.started
  have hended := h.recorded.ended
  have hindexes := h.recorded.indexes
  have hown := h.recorded.own
  rw [htasks, pick_nil, List.append_nil, hnone.1, List.append_nil, hall] at hstarted
  rw [htasks, pick_nil, List.append_nil, hnone.2, List.append_nil, hall] at hended
  rw [hcompleted, List.map_nil, List.append_nil] at hindexes hown
  have hcount : s.completionCounter = invocations.length := by
    have hlen := hindexes.length_eq
    rw [List.length_map, List.length_range] at hlen
    rw [← hlen, ← hall]
    exact (List.length_map _).symm
  rw [hcount] at hindexes
  exact ⟨hall, hown, hindexes, hstarted, hended⟩

lemma eq_of_nodup_filterMap {α β : Type} {f : α → Option β} {l : List α} (h : (l.filterMap f).Nodup) {a b : α}
    (ha : a ∈ l) (hb : b ∈ l) {x : β} (hx : f a = some x) (hy : f b = some x) : a = b := by
  by_contra hne
  have hsymm : Std.Symm fun a b => ∀ y, f a = some y → ∀ z, f b = some z → y ≠ z :=
    ⟨fun a b hab y hy z hz => (hab z hz y hy).symm⟩
  exact (List.pairwise_filterMap.1 h).forall ha hb hne x hx x hy rfl

lemma ended_unique {l : List (Happening ρ ε)} (hnodup : (endedOf l).Nodup) {x : ToolInvocation}
    {outcome outcome' : Except ε ρ} (h : .ended x outcome ∈ l) (h' : .ended x outcome' ∈ l) : outcome = outcome' :=
  (Happening.ended.inj (eq_of_nodup_filterMap hnodup h h' rfl rfl)).2

include hindex in
lemma nothing_raised (h : Answered invocations s)
    (x : ToolInvocation) (error : ε) : Happening.ended x (.error error) ∉ s.happened := by
  intro hraised
  have hx : x ∈ invocations := by
    refine h.endedOnce.mem_iff.1 (List.mem_filterMap.2 ⟨_, hraised, rfl⟩)
  rw [← h.ordered] at hx
  obtain ⟨o, ho, rfl⟩ := List.mem_map.1 hx
  have hnodup : (endedOf s.happened).Nodup := h.endedOnce.nodup_iff.2 (nodup_invocations hindex)
  cases ended_unique hnodup hraised (h.own o ho)

structure Scheduled (maxParallelReads : ℤ) (invocations : List ToolInvocation) (actions : List (Action ρ ε))
    (s : State ρ ε) : Prop where
  barrier : Barrier invocations s.happened
  startedOnce : (startedOf s.happened).Subperm invocations
  endedOnce : (endedOf s.happened).Subperm invocations
  answered : s.hasReturned → Answered invocations s ∧ ∀ x error, Happening.ended x (.error error) ∉ s.happened
  raised : ∀ error, s.phase = .raised (.runner error) → ∃ x, Happening.ended x (.error error) ∈ s.happened
  refused : s.phase = .raised .duplicateCallId → ¬ (invocations.map ToolInvocation.callId).Nodup
  returns : s.isOver → (invocations.map ToolInvocation.callId).Nodup →
    (∀ x error, Happening.ended x (.error error) ∉ s.happened) → s.hasReturned
  progress : ¬ s.isOver → ∀ _ : ρ, CanGoOn maxParallelReads s
  bounded : taken maxParallelReads (.initial invocations) actions ≤ 10 * invocations.length + 1

lemma returns_of_over (h : Inv invocations s) (hover : s.isOver)
    (hcalls : (invocations.map ToolInvocation.callId).Nodup)
    (hnone : ∀ x error, Happening.ended x (.error error) ∉ s.happened) : s.hasReturned := by
  unfold State.isOver at hover
  unfold State.hasReturned
  rcases hp : s.phase with _ | _ | _ | ⟨q, a⟩ | _ | error <;> rw [hp] at hover
  · exact hover
  · exact hover
  · exact hover
  · exact hover
  · trivial
  · cases error with
    | duplicateCallId => exact h.recorded.refused hp hcalls
    | runner error =>
      obtain ⟨x, hx⟩ := h.recorded.failure error (.inr hp)
      exact hnone x error hx

end Steps

theorem scheduled (maxParallelReads : ℤ) (invocations : List ToolInvocation) (actions : List (Action ρ ε))
    (hindex : (invocations.map ToolInvocation.invocationIndex).Nodup) :
    Scheduled maxParallelReads invocations actions (final (step maxParallelReads) (.initial invocations) actions) := by
  have h := inv_final maxParallelReads hindex actions
  refine ⟨h.recorded.barrier, started_subperm h, ended_subperm h, ?_, ?_, h.recorded.refused, returns_of_over h, ?_, ?_⟩
  · intro hreturned
    have hanswered : Answered invocations (final (step maxParallelReads) (.initial invocations) actions) := by
      refine answered_of_returned h ?_
      unfold State.hasReturned at hreturned
      split at hreturned
      · assumption
      · exact hreturned.elim
    exact ⟨hanswered, nothing_raised hindex hanswered⟩
  · exact fun error hp => h.recorded.failure error (.inr hp)
  · exact fun hover result => goes_on hindex h result hover
  · have htaken := taken_add_work maxParallelReads (.initial invocations) actions
    have hwork := work_initial (ρ := ρ) (ε := ε) invocations
    omega

def readCall (index : ℕ) : ToolInvocation where
  callId := "read"
  tool := .readFile
  arguments := []
  turn := 1
  step := 1
  attemptId := "attempt"
  invocationIndex := index
  schedulerClass := .read
  retryClass := .pure
  idempotencyKey := "read-key"

def writeCall (index : ℕ) : ToolInvocation :=
  { readCall index with
    callId := "write"
    tool := .writeFile
    schedulerClass := .workspace
    retryClass := .reconcilableMutation
    idempotencyKey := "write-key" }

/-- A read and a write, each of which returns. -/
theorem scheduled_read_write : ∃ actions : List (Action String String),
    Scheduled 4 [readCall 0, writeCall 1] actions
      (final (step 4) (.initial [readCall 0, writeCall 1]) actions) ∧
    (final (step 4) (.initial [readCall 0, writeCall 1]) actions).hasReturned :=
  ⟨[.advance, .advance, .enqueue 0 0, .start 0 1, .finish 0 2 (.ok "text"), .count 0, .advance, .enter 3 4,
    .leave 5 (.ok "written"), .advance], scheduled 4 [readCall 0, writeCall 1] _ (by decide), by
      unfold State.hasReturned
      exact trivial⟩

/-- The runner raises in the only read, and the run raises after it. -/
theorem raising_read_unanswered : ¬ ∀ (maxParallelReads : ℤ) (invocations : List ToolInvocation)
    (actions : List (Action String String)), (invocations.map ToolInvocation.invocationIndex).Nodup →
    (final (step maxParallelReads) (.initial invocations) actions).isOver →
    Answered invocations (final (step maxParallelReads) (.initial invocations) actions) := by
  intro hclaim
  have hanswered := hclaim 4 [readCall 0]
    [.advance, .advance, .enqueue 0 0, .start 0 1, .finish 0 2 (.error "denied"), .advance] (by decide) trivial
  cases hanswered.ordered

end PromptForge.ToolScheduling
