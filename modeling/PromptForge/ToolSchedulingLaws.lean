import PromptForge.ToolScheduling

namespace PromptForge.ToolScheduling
open Runs Tables

variable {ρ ε : Type}

def startedOf (happened : List (Happening ρ ε)) : List ToolInvocation := happened.filterMap fun
  | .started invocation => some invocation
  | .ended _ _ => none

def endedOf (happened : List (Happening ρ ε)) : List ToolInvocation := happened.filterMap fun
  | .started _ => none
  | .ended invocation _ => some invocation

/-- When an effect starts, all before it have ended and none after it has started; and
    nothing happens from its start to its end. -/
def Barrier (invocations : List ToolInvocation) (happened : List (Happening ρ ε)) : Prop :=
  ∀ l₁ x l₂, happened = l₁ ++ .started x :: l₂ → x.schedulerClass ≠ .read →
    (∀ before after, invocations = before ++ x :: after →
      (∀ y ∈ before, y ∈ endedOf l₁) ∧ ∀ y ∈ after, y ∉ startedOf l₁) ∧
    (l₂ = [] ∨ ∃ outcome l₃, l₂ = .ended x outcome :: l₃)

structure Answered (invocations : List ToolInvocation) (s : State ρ ε) : Prop where
  ordered : s.output.map ScheduledToolResult.invocation = invocations
  own : ∀ o ∈ s.output, Happening.ended o.invocation (.ok o.result) ∈ s.happened
  permuted : (s.output.map ScheduledToolResult.executionCompletionIndex).Perm (List.range invocations.length)
  startedOnce : (startedOf s.happened).Perm invocations
  endedOnce : (endedOf s.happened).Perm invocations

def State.hasReturned (s : State ρ ε) : Prop :=
  match s.phase with
  | .returned => True
  | _ => False

def State.isOver (s : State ρ ε) : Prop :=
  match s.phase with
  | .returned => True
  | .raised _ => True
  | _ => False

def Progress.hasStarted : Progress ρ → Bool
  | .created => false
  | .waiting _ => false
  | _ => true

def Progress.hasEnded : Progress ρ → Bool
  | .finished _ _ _ _ => true
  | .counted => true
  | .failed => true
  | _ => false

def pick (p : Progress ρ → Bool) (tasks : List (Task ρ)) : List ToolInvocation :=
  (tasks.filter fun task => p task.progress).map Task.invocation

lemma set_split {tasks : List (Task ρ)} {k : ℕ} {task : Task ρ} (h : tasks[k]? = some task) :
    ∃ pre post, tasks = pre ++ task :: post ∧ ∀ task', tasks.set k task' = pre ++ task' :: post := by
  obtain ⟨hk, htask⟩ := List.getElem?_eq_some_iff.1 h
  refine ⟨tasks.take k, tasks.drop (k + 1), ?_, fun task' => ?_⟩
  · rw [← htask, List.cons_getElem_drop_succ, List.take_append_drop]
  · rw [List.set_eq_take_append_cons_drop, if_pos hk]

section Set
variable {tasks : List (Task ρ)} {k : ℕ} {task : Task ρ} {progress : Progress ρ}

lemma map_set (h : tasks[k]? = some task) :
    (tasks.set k ⟨task.invocation, progress⟩).map Task.invocation = tasks.map Task.invocation := by
  obtain ⟨pre, post, rfl, hset⟩ := set_split h
  rw [hset, List.map_append, List.map_append, List.map_cons, List.map_cons]

lemma pick_set (h : tasks[k]? = some task) {p : Progress ρ → Bool} {news : List ToolInvocation}
    (hp : pick p [⟨task.invocation, progress⟩] = pick p [task] ++ news) :
    (pick p (tasks.set k ⟨task.invocation, progress⟩)).Perm (pick p tasks ++ news) := by
  obtain ⟨pre, post, rfl, hset⟩ := set_split h
  have hcons : ∀ first, pick p (pre ++ first :: post) = pick p pre ++ (pick p [first] ++ pick p post) := by
    intro first
    unfold pick
    rw [← List.singleton_append, List.filter_append, List.filter_append, List.map_append, List.map_append]
  rw [hset, hcons, hcons, hp, List.append_assoc, List.append_assoc, List.append_assoc]
  exact List.Perm.append_left _ (List.Perm.append_left _ List.perm_append_comm)

lemma mem_set {other : Task ρ} (h : other ∈ tasks.set k ⟨task.invocation, progress⟩) :
    other ∈ tasks ∨ other = ⟨task.invocation, progress⟩ := by
  rcases List.mem_or_eq_of_mem_set h with h | h
  · exact .inl h
  · exact .inr h

end Set

lemma pick_sublist (p : Progress ρ → Bool) (tasks : List (Task ρ)) :
    (pick p tasks).Sublist (tasks.map Task.invocation) := List.Sublist.map _ List.filter_sublist

def State.done (s : State ρ ε) : List ToolInvocation := s.output.map ScheduledToolResult.invocation

def State.begun (s : State ρ ε) : List ToolInvocation :=
  match s.phase with
  | .executing _ _ => s.current.toList
  | .raised _ => if s.tasks.isEmpty then s.current.toList else []
  | _ => []

def State.lost (s : State ρ ε) : List ToolInvocation :=
  match s.phase with
  | .raised _ => if s.tasks.isEmpty then s.current.toList else []
  | _ => []

def Placed (s : State ρ ε) : Prop :=
  match s.phase with
  | .visiting => s.tasks = [] ∧ s.current = none
  | .flushing => s.tasks.map Task.invocation = s.readBatch ∧ s.readBatch ≠ []
  | .entering => s.tasks = [] ∧ s.readBatch = [] ∧ s.current.isSome
  | .executing _ _ => s.tasks = [] ∧ s.readBatch = [] ∧ s.current.isSome
  | .returned => s.tasks = [] ∧ s.readBatch = [] ∧ s.current = none ∧ s.rest = []
  | .raised _ => s.tasks = [] ∧ s.readBatch = [] ∨ s.tasks.map Task.invocation = s.readBatch

structure Shape (invocations : List ToolInvocation) (s : State ρ ε) : Prop where
  split : invocations = s.done ++ s.readBatch ++ s.current.toList ++ s.rest
  reads : ∀ x ∈ s.readBatch, x.schedulerClass = .read
  effect : ∀ x ∈ s.current, x.schedulerClass ≠ .read
  placed : Placed s

structure Recorded (invocations : List ToolInvocation) (s : State ρ ε) : Prop where
  started : (startedOf s.happened).Perm (s.done ++ pick Progress.hasStarted s.tasks ++ s.begun)
  ended : (endedOf s.happened).Perm (s.done ++ pick Progress.hasEnded s.tasks ++ s.lost)
  own : ∀ o ∈ s.output ++ s.completed.map Prod.snd, Happening.ended o.invocation (.ok o.result) ∈ s.happened
  finished : ∀ task ∈ s.tasks, ∀ result q a c, task.progress = .finished result q a c →
    Happening.ended task.invocation (.ok result) ∈ s.happened
  indexes : ((s.output ++ s.completed.map Prod.snd).map ScheduledToolResult.executionCompletionIndex).Perm
    (List.range s.completionCounter)
  keys : ∀ row ∈ s.completed, row.1 = row.2.invocation.invocationIndex
  stored : (s.completed.map fun row => row.2.invocation).Perm (pick Progress.isCounted s.tasks)
  barrier : Barrier invocations s.happened
  /-- Only in `executing` is an effect the last thing that happened. -/
  open_ : ∀ l x, s.happened = l ++ [.started x] → x.schedulerClass ≠ .read →
    s.current = some x ∧ ∃ q a, s.phase = .executing q a
  failed : ∀ task ∈ s.tasks, task.progress = .failed → s.failure.isSome
  failure : ∀ error, s.failure = some error ∨ s.phase = .raised (.runner error) →
    ∃ x, Happening.ended x (.error error) ∈ s.happened
  refused : s.phase = .raised .duplicateCallId → ¬ (invocations.map ToolInvocation.callId).Nodup

lemma startedOf_append (l m : List (Happening ρ ε)) : startedOf (l ++ m) = startedOf l ++ startedOf m :=
  List.filterMap_append ..

lemma endedOf_append (l m : List (Happening ρ ε)) : endedOf (l ++ m) = endedOf l ++ endedOf m :=
  List.filterMap_append ..

lemma snoc_split {l l₁ l₂ : List (Happening ρ ε)} {h : Happening ρ ε} {x : ToolInvocation}
    (heq : l ++ [h] = l₁ ++ .started x :: l₂) :
    (∃ l₂', l₂ = l₂' ++ [h] ∧ l = l₁ ++ .started x :: l₂') ∨ l₂ = [] ∧ l₁ = l ∧ h = .started x := by
  rcases List.eq_nil_or_concat l₂ with rfl | ⟨l₂', last, rfl⟩
  · obtain ⟨hl, hh⟩ := List.append_inj' heq rfl
    exact .inr ⟨rfl, hl.symm, (List.cons.inj hh).1⟩
  · rw [List.concat_eq_append, ← List.cons_append, ← List.append_assoc] at heq
    obtain ⟨hl, hh⟩ := List.append_inj' heq rfl
    rw [List.concat_eq_append, (List.cons.inj hh).1]
    exact .inl ⟨l₂', rfl, hl⟩

lemma barrier_snoc {invocations : List ToolInvocation} {l : List (Happening ρ ε)} {h : Happening ρ ε}
    (hbar : Barrier invocations l)
    (hopen : ∀ l' x, l = l' ++ [.started x] → x.schedulerClass ≠ .read → ∃ outcome, h = .ended x outcome)
    (hnew : ∀ x, h = .started x → x.schedulerClass ≠ .read → ∀ before after, invocations = before ++ x :: after →
      (∀ y ∈ before, y ∈ endedOf l) ∧ ∀ y ∈ after, y ∉ startedOf l) : Barrier invocations (l ++ [h]) := by
  intro l₁ x l₂ heq hx
  rcases snoc_split heq with ⟨l₂', rfl, hl⟩ | ⟨rfl, rfl, hh⟩
  · obtain ⟨hsides, hnext⟩ := hbar l₁ x l₂' hl hx
    refine ⟨hsides, .inr ?_⟩
    rcases hnext with rfl | ⟨outcome, l₃, rfl⟩
    · obtain ⟨outcome, rfl⟩ := hopen l₁ x hl hx
      exact ⟨outcome, [], rfl⟩
    · exact ⟨outcome, l₃ ++ [h], rfl⟩
  · exact ⟨hnew x hh hx, .inl rfl⟩

section Steps
variable {invocations : List ToolInvocation} {s s' : State ρ ε}

lemma completed_of_no_tasks (h : Recorded invocations s) (ht : s.tasks = []) : s.completed = [] := by
  have hstored := h.stored
  rw [ht] at hstored
  exact List.map_eq_nil_iff.1 hstored.eq_nil

lemma recorded_still (h : Recorded invocations s) (hhappened : s'.happened = s.happened)
    (houtput : s'.output = s.output) (hcompleted : s'.completed = s.completed)
    (hcounter : s'.completionCounter = s.completionCounter)
    (hpick : ∀ p : Progress ρ → Bool, (p = Progress.hasStarted ∨ p = Progress.hasEnded ∨ p = Progress.isCounted) →
      pick p s'.tasks = pick p s.tasks)
    (hbegun : s'.begun = s.begun) (hlost : s'.lost = s.lost)
    (htasks : ∀ task ∈ s'.tasks, task ∈ s.tasks ∨ task.progress.hasEnded = false)
    (hopen : ∀ x q a, s.current = some x → s.phase = .executing q a → s'.current = some x ∧ ∃ q a, s'.phase = .executing q a)
    (hfailed : s.failure.isSome → s'.failure.isSome ∨ s'.tasks = [] ∨ ∀ task ∈ s'.tasks, task.progress ≠ .failed)
    (hfailure : ∀ error, s'.failure = some error ∨ s'.phase = .raised (.runner error) →
      s.failure = some error ∨ s.phase = .raised (.runner error))
    (hrefused : s'.phase = .raised .duplicateCallId → s.phase = .raised .duplicateCallId) :
    Recorded invocations s' := by
  have hdone : s'.done = s.done := by
    unfold State.done
    rw [houtput]
  refine ⟨?_, ?_, ?_, ?_, ?_, ?_, ?_, ?_, ?_, ?_, ?_, ?_⟩
  · rw [hhappened, hdone, hpick _ (.inl rfl), hbegun]
    exact h.started
  · rw [hhappened, hdone, hpick _ (.inr (.inl rfl)), hlost]
    exact h.ended
  · rw [houtput, hcompleted, hhappened]
    exact h.own
  · intro task ht result q a c hp
    rw [hhappened]
    rcases htasks task ht with ht | hnot
    · exact h.finished task ht result q a c hp
    · rw [hp] at hnot
      cases hnot
  · rw [houtput, hcompleted, hcounter]
    exact h.indexes
  · rw [hcompleted]
    exact h.keys
  · rw [hcompleted, hpick _ (.inr (.inr rfl))]
    exact h.stored
  · rw [hhappened]
    exact h.barrier
  · intro l x hl hx
    rw [hhappened] at hl
    obtain ⟨hc, q, a, hp⟩ := h.open_ l x hl hx
    exact hopen x q a hc hp
  · intro task ht hp
    rcases htasks task ht with hold | hnot
    · rcases hfailed (h.failed task hold hp) with hf | hnil | hall
      · exact hf
      · rw [hnil] at ht
        cases ht
      · exact absurd hp (hall task ht)
    · rw [hp] at hnot
      cases hnot
  · intro error herr
    rw [hhappened]
    exact h.failure error (hfailure error herr)
  · exact fun hp => h.refused (hrefused hp)

variable (hp : s.phase = .visiting ∨ s.phase = .flushing ∨ s.phase = .entering ∨ s.phase = .returned)

include hp in
lemma begun_of_no_raise :
    s.begun = [] ∧ s.lost = [] := by
  unfold State.begun State.lost
  rcases hp with hp | hp | hp | hp <;> rw [hp] <;> exact ⟨rfl, rfl⟩

include hp in
lemma not_executing {q a : ℚ} :
    s.phase ≠ .executing q a := by
  rcases hp with hp | hp | hp | hp <;> rw [hp] <;> nofun

include hp in
lemma not_raised {error : RunError ε} :
    s.phase ≠ .raised error := by
  rcases hp with hp | hp | hp | hp <;> rw [hp] <;> nofun

lemma pick_created (p : Progress ρ → Bool) (hp : p .created = false) (batch : List ToolInvocation) :
    pick p (batch.map fun invocation => (⟨invocation, .created⟩ : Task ρ)) = [] := by
  unfold pick
  rw [List.filter_map, List.map_map]
  simp [Function.comp_def, hp]

lemma pick_nil (p : Progress ρ → Bool) : pick p ([] : List (Task ρ)) = [] := rfl

lemma recorded_visit (h : Recorded invocations s) (hvisiting : s.phase = .visiting) (htasks : s.tasks = [])
    (hhappened : s'.happened = s.happened) (houtput : s'.output = s.output)
    (hcounter : s'.completionCounter = s.completionCounter) (hcompleted : s'.completed = [])
    (htasks' : s'.tasks = [] ∨ ∃ batch : List ToolInvocation, s'.tasks = batch.map fun invocation => ⟨invocation, .created⟩)
    (hfailure : s'.failure = s.failure ∨ s'.failure = none)
    (hphase : s'.phase = .visiting ∨ s'.phase = .flushing ∨ s'.phase = .entering ∨ s'.phase = .returned) :
    Recorded invocations s' := by
  have hcreated : ∀ task ∈ s'.tasks, task.progress = .created := by
    intro task ht
    rcases htasks' with hnil | ⟨batch, hbatch⟩
    · rw [hnil] at ht
      cases ht
    · rw [hbatch] at ht
      obtain ⟨x, -, rfl⟩ := List.mem_map.1 ht
      rfl
  have hpick : ∀ p : Progress ρ → Bool, p .created = false → pick p s'.tasks = pick p s.tasks := by
    intro p hp
    rw [htasks]
    rcases htasks' with hnil | ⟨batch, hbatch⟩
    · rw [hnil]
    · rw [hbatch]
      exact pick_created p hp batch
  have hnone := begun_of_no_raise (.inl hvisiting)
  have hnone' := begun_of_no_raise hphase
  refine recorded_still h hhappened houtput ?_ hcounter ?_ ?_ ?_ ?_ ?_ ?_ ?_ ?_
  · rw [hcompleted, completed_of_no_tasks h htasks]
  · rintro p (rfl | rfl | rfl) <;> exact hpick _ rfl
  · rw [hnone.1, hnone'.1]
  · rw [hnone.2, hnone'.2]
  · intro task ht
    right
    rw [hcreated task ht]
    rfl
  · exact fun x q a _ hexec => absurd hexec (not_executing (.inl hvisiting))
  · intro _
    right
    right
    intro task ht
    rw [hcreated task ht]
    nofun
  · rintro error (hf | hf)
    · rcases hfailure with hsame | hnone
      · exact .inl (hsame ▸ hf)
      · rw [hnone] at hf
        cases hf
    · exact absurd hf (not_raised hphase)
  · exact fun hf => absurd hf (not_raised hphase)

structure Inv (invocations : List ToolInvocation) (s : State ρ ε) : Prop where
  shape : Shape invocations s
  recorded : Recorded invocations s

variable (hindex : (invocations.map ToolInvocation.invocationIndex).Nodup)

include hindex in
lemma nodup_invocations : invocations.Nodup :=
  List.Nodup.of_map _ hindex

lemma inv_visit (h : Inv invocations s) (hvisiting : s.phase = .visiting) (hs' : advance s = some s') :
    Inv invocations s' := by
  obtain ⟨hsplit, hreads, heffect, hplaced⟩ := h.shape
  unfold Placed at hplaced
  rw [hvisiting] at hplaced
  obtain ⟨htasks, hcurrent⟩ := hplaced
  unfold advance at hs'
  rw [hvisiting] at hs'
  dsimp only at hs'
  rw [hcurrent, Option.toList_none, List.append_nil] at hsplit
  have hempty := completed_of_no_tasks h.recorded htasks
  rcases hrest : s.rest with _ | ⟨x, rest⟩
  · rw [hrest] at hs' hsplit
    by_cases hbatch : s.readBatch = []
    · rw [if_pos hbatch] at hs'
      cases hs'
      refine ⟨⟨?_, hreads, heffect, ⟨htasks, hbatch, hcurrent, rfl⟩⟩,
        recorded_visit h.recorded hvisiting htasks rfl rfl rfl hempty (.inl htasks) (.inl rfl) (.inr (.inr (.inr rfl)))⟩
      change invocations = s.done ++ s.readBatch ++ s.current.toList ++ []
      rw [hcurrent, Option.toList_none, List.append_nil]
      exact hsplit
    · rw [if_neg hbatch] at hs'
      cases hs'
      refine ⟨⟨?_, hreads, heffect, ⟨?_, hbatch⟩⟩,
        recorded_visit h.recorded hvisiting htasks rfl rfl rfl rfl (.inr ⟨_, rfl⟩) (.inr rfl) (.inr (.inl rfl))⟩
      · change invocations = s.done ++ s.readBatch ++ s.current.toList ++ s.rest
        rw [hcurrent, hrest, Option.toList_none, List.append_nil]
        exact hsplit
      · change (s.readBatch.map fun invocation => (⟨invocation, .created⟩ : Task ρ)).map Task.invocation = s.readBatch
        rw [List.map_map]
        exact List.map_id _
  · rw [hrest] at hs' hsplit
    dsimp only at hs'
    by_cases hread : x.schedulerClass = .read
    · rw [if_pos hread] at hs'
      cases hs'
      refine ⟨⟨?_, ?_, heffect, ?_⟩,
        recorded_visit h.recorded hvisiting htasks rfl rfl rfl hempty (.inl htasks) (.inl rfl) (.inl rfl)⟩
      · change invocations = s.done ++ (s.readBatch ++ [x]) ++ s.current.toList ++ rest
        rw [hcurrent, hsplit]
        simp
      · intro y hy
        rcases mem_concat.1 hy with hy | rfl
        · exact hreads y hy
        · exact hread
      · exact ⟨htasks, hcurrent⟩
    · rw [if_neg hread] at hs'
      by_cases hbatch : s.readBatch = []
      · rw [if_pos hbatch] at hs'
        cases hs'
        refine ⟨⟨?_, hreads, ?_, ⟨htasks, hbatch, rfl⟩⟩,
          recorded_visit h.recorded hvisiting htasks rfl rfl rfl hempty (.inl htasks) (.inl rfl) (.inr (.inr (.inl rfl)))⟩
        · change invocations = s.done ++ s.readBatch ++ [x] ++ rest
          rw [hsplit]
          simp
        · rintro y ⟨rfl⟩
          exact hread
      · rw [if_neg hbatch] at hs'
        cases hs'
        refine ⟨⟨?_, hreads, ?_, ⟨?_, hbatch⟩⟩,
          recorded_visit h.recorded hvisiting htasks rfl rfl rfl rfl (.inr ⟨_, rfl⟩) (.inr rfl) (.inr (.inl rfl))⟩
        · change invocations = s.done ++ s.readBatch ++ [x] ++ rest
          rw [hsplit]
          simp
        · rintro y ⟨rfl⟩
          exact hread
        · change (s.readBatch.map fun invocation => (⟨invocation, .created⟩ : Task ρ)).map Task.invocation = s.readBatch
          rw [List.map_map]
          exact List.map_id _

lemma collect_perm {completed : List (ℕ × ScheduledToolResult ρ)} {batch : List ToolInvocation}
    (hkeys : ∀ row ∈ completed, row.1 = row.2.invocation.invocationIndex)
    (hstored : (completed.map fun row => row.2.invocation).Perm batch)
    (hindex : (batch.map ToolInvocation.invocationIndex).Nodup) :
    ∃ results, collect completed batch = some results ∧ results.map ScheduledToolResult.invocation = batch ∧
      results.Perm (completed.map Prod.snd) := by
  have hkeysNodup : (completed.map Prod.fst).Nodup := by
    have hmap : completed.map Prod.fst =
        (completed.map fun row => row.2.invocation).map ToolInvocation.invocationIndex := by
      rw [List.map_map]
      exact List.map_congr_left hkeys
    rw [hmap]
    exact (hstored.map _).nodup_iff.2 hindex
  have hcollect : ∀ part : List ToolInvocation, part ⊆ batch → ∃ results, collect completed part = some results ∧
      results.map ScheduledToolResult.invocation = part ∧ results ⊆ completed.map Prod.snd := by
    intro part
    induction part with
    | nil => exact fun _ => ⟨[], rfl, rfl, List.nil_subset _⟩
    | cons x part ih =>
      intro hsub
      obtain ⟨results, hresults, hmap, hmem⟩ := ih fun y hy => hsub (List.mem_cons_of_mem _ hy)
      obtain ⟨row, hrow, hx⟩ := List.mem_map.1 (hstored.mem_iff.2 (hsub (List.mem_cons_self ..)))
      have hlookup : lookup Prod.fst completed x.invocationIndex = some row := by
        rw [← hx, ← hkeys row hrow]
        exact lookup_of_mem hkeysNodup hrow
      refine ⟨row.2 :: results, ?_, ?_, ?_⟩
      · unfold collect at hresults ⊢
        rw [List.mapM_cons, hlookup, hresults]
        rfl
      · rw [List.map_cons, hx, hmap]
      · exact List.cons_subset.2 ⟨List.mem_map_of_mem hrow, hmem⟩
  obtain ⟨results, hresults, hmap, hmem⟩ := hcollect batch (fun _ h => h)
  refine ⟨results, hresults, hmap, ?_⟩
  have hnodup : results.Nodup := by
    refine List.Nodup.of_map ScheduledToolResult.invocation ?_
    rw [hmap]
    exact List.Nodup.of_map _ hindex
  refine (List.subperm_of_subset hnodup hmem).perm_of_length_le ?_
  have hlength := hstored.length_eq
  rw [List.length_map] at hlength ⊢
  rw [hlength, ← hmap, List.length_map]

lemma pick_all {p : Progress ρ → Bool} {tasks : List (Task ρ)} (h : ∀ task ∈ tasks, p task.progress = true) :
    pick p tasks = tasks.map Task.invocation := by
  unfold pick
  rw [List.filter_eq_self.2 h]

include hindex in
lemma batch_nodup (h : Shape invocations s) :
    (s.readBatch.map ToolInvocation.invocationIndex).Nodup := by
  refine hindex.sublist (List.Sublist.map _ ?_)
  rw [h.split, List.append_assoc, List.append_assoc]
  exact (List.sublist_append_left _ _).trans (List.sublist_append_right _ _)

lemma answerReads_phase (results : List (ScheduledToolResult ρ)) (s : State ρ ε) :
    (answerReads results s).phase = .visiting ∨ (answerReads results s).phase = .flushing ∨
      (answerReads results s).phase = .entering ∨ (answerReads results s).phase = .returned := by
  unfold answerReads
  dsimp only
  split
  · exact .inr (.inr (.inl rfl))
  · exact .inl rfl

lemma answerReads_done {results : List (ScheduledToolResult ρ)} (hmap : results.map ScheduledToolResult.invocation = s.readBatch) :
    (answerReads results s).done = s.done ++ s.readBatch := by
  unfold State.done answerReads
  rw [List.map_append, hmap]

lemma shape_answerReads (h : Shape invocations s) {results : List (ScheduledToolResult ρ)}
    (hmap : results.map ScheduledToolResult.invocation = s.readBatch) : Shape invocations (answerReads results s) := by
  refine ⟨?_, fun _ hx => (List.not_mem_nil hx).elim, h.effect, ?_⟩
  · rw [answerReads_done hmap]
    change invocations = s.done ++ s.readBatch ++ [] ++ s.current.toList ++ s.rest
    rw [List.append_nil]
    exact h.split
  · unfold Placed answerReads
    dsimp only
    by_cases hc : s.current.isSome = true
    · rw [if_pos hc]
      exact ⟨rfl, rfl, hc⟩
    · rw [if_neg hc]
      exact ⟨rfl, by simpa using hc⟩

lemma recorded_answerReads (h : Recorded invocations s) (hflushing : s.phase = .flushing) {results : List (ScheduledToolResult ρ)}
    (hpick : ∀ p : Progress ρ → Bool, p .counted = true → pick p s.tasks = s.readBatch)
    (hmap : results.map ScheduledToolResult.invocation = s.readBatch) (hperm : results.Perm (s.completed.map Prod.snd)) :
    Recorded invocations (answerReads results s) := by
  have hphase := answerReads_phase results s
  have hnone := begun_of_no_raise (.inr (.inl hflushing))
  have hnone' := begun_of_no_raise hphase
  have hstarted := h.started
  have hended := h.ended
  rw [hpick _ rfl, hnone.1, List.append_nil] at hstarted
  rw [hpick _ rfl, hnone.2, List.append_nil] at hended
  refine ⟨?_, ?_, ?_, fun _ ht => (List.not_mem_nil ht).elim, ?_, fun _ hr => (List.not_mem_nil hr).elim,
    List.Perm.refl [], h.barrier, ?_, fun _ ht => (List.not_mem_nil ht).elim, ?_, ?_⟩
  · rw [answerReads_done hmap, hnone'.1]
    change (startedOf s.happened).Perm (s.done ++ s.readBatch ++ [] ++ [])
    rwa [List.append_nil, List.append_nil]
  · rw [answerReads_done hmap, hnone'.2]
    change (endedOf s.happened).Perm (s.done ++ s.readBatch ++ [] ++ [])
    rwa [List.append_nil, List.append_nil]
  · intro o ho
    refine h.own o ?_
    change o ∈ s.output ++ results ++ [] at ho
    rw [List.append_nil] at ho
    exact (List.Perm.append_left _ hperm).mem_iff.1 ho
  · change ((s.output ++ results ++ []).map _).Perm _
    rw [List.append_nil]
    exact ((List.Perm.append_left _ hperm).map _).trans h.indexes
  · intro l x hl hx
    obtain ⟨-, q, a, hp⟩ := h.open_ l x hl hx
    exact absurd hp (not_executing (.inr (.inl hflushing)))
  · rintro error (hf | hf)
    · exact h.failure error (.inl hf)
    · exact absurd hf (not_raised hphase)
  · exact fun hf => absurd hf (not_raised hphase)

include hindex in
lemma inv_gather (h : Inv invocations s)
    (hflushing : s.phase = .flushing) (hs' : advance s = some s') : Inv invocations s' := by
  obtain ⟨hsplit, hreads, heffect, hplaced⟩ := h.shape
  unfold Placed at hplaced
  rw [hflushing] at hplaced
  obtain ⟨htasks, hbatch⟩ := hplaced
  unfold advance at hs'
  rw [hflushing] at hs'
  dsimp only at hs'
  rcases hfailure : s.failure with _ | error
  · rw [hfailure] at hs'
    dsimp only at hs'
    split at hs'
    · rename_i hall
      have hcounted : ∀ task ∈ s.tasks, task.progress = .counted := by
        intro task ht
        have hc := List.all_eq_true.1 hall task ht
        revert hc
        cases task.progress <;> simp [Progress.isCounted]
      have hpick : ∀ p : Progress ρ → Bool, p .counted = true → pick p s.tasks = s.readBatch := by
        intro p hp
        rw [pick_all fun task ht => by rw [hcounted task ht]; exact hp, htasks]
      have hstored := h.recorded.stored
      rw [hpick _ rfl] at hstored
      obtain ⟨results, hcollect, hmap, hperm⟩ := collect_perm h.recorded.keys hstored (batch_nodup hindex h.shape)
      rw [hcollect] at hs'
      cases hs'
      exact ⟨shape_answerReads h.shape hmap, recorded_answerReads h.recorded hflushing hpick hmap hperm⟩
    · cases hs'
  · rw [hfailure] at hs'
    cases hs'
    have hne : s.tasks ≠ [] := by
      rintro hnil
      rw [hnil] at htasks
      exact hbatch htasks.symm
    have htasksNonempty : s.tasks.isEmpty = false := by simpa using hne
    have hnone := begun_of_no_raise (.inr (.inl hflushing))
    refine ⟨⟨hsplit, hreads, heffect, .inr htasks⟩, ?_⟩
    refine recorded_still h.recorded rfl rfl rfl rfl (fun _ _ => rfl) ?_ ?_ (fun task ht => .inl ht) ?_ ?_ ?_ nofun
    · rw [hnone.1]
      unfold State.begun
      dsimp only
      rw [htasksNonempty]
      rfl
    · rw [hnone.2]
      unfold State.lost
      dsimp only
      rw [htasksNonempty]
      rfl
    · exact fun x q a _ hexec => absurd hexec (not_executing (.inr (.inl hflushing)))
    · exact fun _ => .inl rfl
    · rintro error' (hf | hf)
      · exact .inl (hfailure.trans hf)
      · cases hf
        exact .inl hfailure

lemma gathering_of_task (h : Shape invocations s) {k : ℕ} {task : Task ρ} (hk : s.tasks[k]? = some task) :
    s.tasks.map Task.invocation = s.readBatch ∧ (s.phase = .flushing ∨ ∃ error, s.phase = .raised error) ∧
      s.begun = [] ∧ s.lost = [] := by
  have hne : s.tasks ≠ [] := by
    intro hnil
    rw [hnil] at hk
    cases hk
  have hempty : s.tasks.isEmpty = false := by simpa using hne
  have hplaced := h.placed
  unfold Placed at hplaced
  unfold State.begun State.lost
  rcases hp : s.phase with _ | _ | _ | ⟨q, a⟩ | _ | error <;> rw [hp] at hplaced
  · exact absurd hplaced.1 hne
  · exact ⟨hplaced.1, .inl rfl, rfl, rfl⟩
  · exact absurd hplaced.1 hne
  · exact absurd hplaced.1 hne
  · exact absurd hplaced.1 hne
  · refine ⟨hplaced.resolve_left fun hl => hne hl.1, .inr ⟨error, rfl⟩, ?_, ?_⟩ <;> simp [hempty]

lemma shape_of_task (h : Shape invocations s) {k : ℕ} {task : Task ρ} (hk : s.tasks[k]? = some task)
    (hrest : s'.rest = s.rest) (hcurrent : s'.current = s.current) (hbatch : s'.readBatch = s.readBatch)
    (hphase : s'.phase = s.phase) (houtput : s'.output = s.output)
    (htasks : s'.tasks.map Task.invocation = s.tasks.map Task.invocation) : Shape invocations s' := by
  obtain ⟨hmap, hgather, -, -⟩ := gathering_of_task h hk
  have hdone : s'.done = s.done := by
    unfold State.done
    rw [houtput]
  refine ⟨?_, ?_, ?_, ?_⟩
  · rw [hdone, hbatch, hcurrent, hrest]
    exact h.split
  · rw [hbatch]
    exact h.reads
  · rw [hcurrent]
    exact h.effect
  · have hplaced := h.placed
    unfold Placed at hplaced ⊢
    rw [hphase, htasks, hbatch, hmap]
    rcases hgather with hp | ⟨error, hp⟩ <;> rw [hp] at hplaced ⊢
    · exact ⟨rfl, hplaced.2⟩
    · exact .inr rfl

lemma not_executing_of_task (h : Shape invocations s) {k : ℕ} {task : Task ρ} (hk : s.tasks[k]? = some task)
    (q a : ℚ) : s.phase ≠ .executing q a := by
  obtain ⟨-, hp | ⟨error, hp⟩, -, -⟩ := gathering_of_task h hk <;> rw [hp] <;> nofun

lemma read_of_task (h : Shape invocations s) {k : ℕ} {task : Task ρ} (hk : s.tasks[k]? = some task) :
    task.invocation.schedulerClass = .read := by
  refine h.reads _ ?_
  rw [← (gathering_of_task h hk).1]
  exact List.mem_map_of_mem (List.mem_of_getElem? hk)

structure TaskMoves (s s' : State ρ ε) (k : ℕ) (task : Task ρ) (progress : Progress ρ) : Prop where
  tasks : s'.tasks = s.tasks.set k ⟨task.invocation, progress⟩
  rest : s'.rest = s.rest
  current : s'.current = s.current
  batch : s'.readBatch = s.readBatch
  phase : s'.phase = s.phase
  output : s'.output = s.output

section Tasks
variable {k : ℕ} {task : Task ρ} {progress : Progress ρ}

lemma shape_of_moves (h : Shape invocations s) (hk : s.tasks[k]? = some task)
    (hm : TaskMoves s s' k task progress) : Shape invocations s' := by
  refine shape_of_task h hk hm.rest hm.current hm.batch hm.phase hm.output ?_
  rw [hm.tasks]
  exact map_set hk

lemma records_of_moves (h : Shape invocations s) (hk : s.tasks[k]? = some task)
    (hm : TaskMoves s s' k task progress) : s'.done = s.done ∧ s'.begun = [] ∧ s'.lost = [] := by
  have hk' : s'.tasks[k]? = some ⟨task.invocation, progress⟩ := by
    rw [hm.tasks, List.getElem?_set_self (List.getElem?_eq_some_iff.1 hk).1]
  obtain ⟨-, -, hbegun, hlost⟩ := gathering_of_task (shape_of_moves h hk hm) hk'
  refine ⟨?_, hbegun, hlost⟩
  unfold State.done
  rw [hm.output]

structure Happens (s s' : State ρ ε) (task : Task ρ) (progress : Progress ρ) (news : List (Happening ρ ε))
    (results : List (ScheduledToolResult ρ)) : Prop where
  happened : s'.happened = s.happened ++ news
  own : news = [] ∨ news = [.started task.invocation] ∨ ∃ outcome, news = [.ended task.invocation outcome]
  started : pick Progress.hasStarted [⟨task.invocation, progress⟩] = pick Progress.hasStarted [task] ++ startedOf news
  ended : pick Progress.hasEnded [⟨task.invocation, progress⟩] = pick Progress.hasEnded [task] ++ endedOf news
  counted : pick Progress.isCounted [⟨task.invocation, progress⟩] =
    pick Progress.isCounted [task] ++ results.map ScheduledToolResult.invocation
  completed : s'.completed = s.completed ++ results.map fun r => (r.invocation.invocationIndex, r)
  indexes : List.range s'.completionCounter =
    List.range s.completionCounter ++ results.map ScheduledToolResult.executionCompletionIndex
  earned : ∀ r ∈ results, Happening.ended r.invocation (.ok r.result) ∈ s.happened
  finished : ∀ result q a c, progress = .finished result q a c → .ended task.invocation (.ok result) ∈ news
  failed : progress = .failed ∨ s.failure.isSome → s'.failure.isSome
  failure : ∀ error, s'.failure = some error → s.failure = some error ∨ .ended task.invocation (.error error) ∈ news

lemma inv_moves (h : Inv invocations s) (hk : s.tasks[k]? = some task) (hm : TaskMoves s s' k task progress)
    {news : List (Happening ρ ε)} {results : List (ScheduledToolResult ρ)}
    (hh : Happens s s' task progress news results) : Inv invocations s' := by
  obtain ⟨hdone, hbegun, hlost⟩ := records_of_moves h.shape hk hm
  obtain ⟨-, -, hbegun₀, hlost₀⟩ := gathering_of_task h.shape hk
  have hread := read_of_task h.shape hk
  have hr := h.recorded
  have hmem : ∀ {x : Happening ρ ε}, x ∈ s.happened → x ∈ s'.happened := fun hx => by
    rw [hh.happened]
    exact List.mem_append_left _ hx
  have hnew : ∀ {x : Happening ρ ε}, x ∈ news → x ∈ s'.happened := fun hx => by
    rw [hh.happened]
    exact List.mem_append_right _ hx
  have hclosed : ∀ l x, s.happened = l ++ [.started x] → x.schedulerClass = .read := by
    intro l x hl
    by_contra hx
    obtain ⟨-, q, a, hp⟩ := hr.open_ l x hl hx
    exact not_executing_of_task h.shape hk q a hp
  refine ⟨shape_of_moves h.shape hk hm, ?_, ?_, ?_, ?_, ?_, ?_, ?_, ?_, ?_, ?_, ?_, ?_⟩
  · have hstarted := hr.started
    rw [hbegun₀, List.append_nil] at hstarted
    rw [hh.happened, startedOf_append, hdone, hbegun, List.append_nil, hm.tasks]
    refine (List.Perm.append_right _ hstarted).trans ?_
    rw [List.append_assoc]
    exact List.Perm.append_left _ (pick_set hk hh.started).symm
  · have hended := hr.ended
    rw [hlost₀, List.append_nil] at hended
    rw [hh.happened, endedOf_append, hdone, hlost, List.append_nil, hm.tasks]
    refine (List.Perm.append_right _ hended).trans ?_
    rw [List.append_assoc]
    exact List.Perm.append_left _ (pick_set hk hh.ended).symm
  · intro o ho
    rw [hm.output, hh.completed, List.map_append, ← List.append_assoc, List.mem_append, List.map_map] at ho
    rcases ho with ho | ho
    · exact hmem (hr.own o ho)
    · obtain ⟨r, hresult, rfl⟩ := List.mem_map.1 ho
      exact hmem (hh.earned r hresult)
  · intro other ho result q a c hp
    rw [hm.tasks] at ho
    rcases mem_set ho with ho | rfl
    · exact hmem (hr.finished other ho result q a c hp)
    · exact hnew (hh.finished result q a c hp)
  · have hall : s'.output ++ s'.completed.map Prod.snd = s.output ++ s.completed.map Prod.snd ++ results := by
      rw [hm.output, hh.completed, List.map_append, List.map_map, ← List.append_assoc]
      exact congrArg _ (List.map_id _)
    rw [hall, hh.indexes, List.map_append]
    exact List.Perm.append_right _ hr.indexes
  · intro row hrow
    rw [hh.completed] at hrow
    rcases List.mem_append.1 hrow with hrow | hrow
    · exact hr.keys row hrow
    · obtain ⟨r, -, rfl⟩ := List.mem_map.1 hrow
      rfl
  · rw [hh.completed, List.map_append, List.map_map, hm.tasks]
    exact (List.Perm.append_right _ hr.stored).trans (pick_set hk hh.counted).symm
  · rw [hh.happened]
    rcases hh.own with hn | hn | ⟨outcome, hn⟩ <;> rw [hn]
    · rw [List.append_nil]
      exact hr.barrier
    · refine barrier_snoc hr.barrier (fun l x hl hx => absurd (hclosed l x hl) hx) ?_
      rintro x ⟨rfl⟩ hx
      exact absurd hread hx
    · exact barrier_snoc hr.barrier (fun l x hl hx => absurd (hclosed l x hl) hx) fun x hx => by cases hx
  · -- no effect is the last thing that happened while reads are gathered
    intro l x hl hx
    rw [hh.happened] at hl
    rcases hh.own with hn | hn | ⟨outcome, hn⟩ <;> rw [hn] at hl
    · rw [List.append_nil] at hl
      exact absurd (hclosed l x hl) hx
    · cases (List.append_inj' hl rfl).2
      exact absurd hread hx
    · cases (List.append_inj' hl rfl).2
  · intro other ho hp
    rw [hm.tasks] at ho
    rcases mem_set ho with ho | rfl
    · exact hh.failed (.inr (hr.failed other ho hp))
    · exact hh.failed (.inl hp)
  · rintro error (hf | hf)
    · rcases hh.failure error hf with hold | hend
      · obtain ⟨x, hx⟩ := hr.failure error (.inl hold)
        exact ⟨x, hmem hx⟩
      · exact ⟨task.invocation, hnew hend⟩
    · rw [hm.phase] at hf
      obtain ⟨x, hx⟩ := hr.failure error (.inr hf)
      exact ⟨x, hmem hx⟩
  · intro hf
    rw [hm.phase] at hf
    exact hr.refused hf

lemma fresh_key (hindex : (invocations.map ToolInvocation.invocationIndex).Nodup) (h : Inv invocations s)
    (hk : s.tasks[k]? = some task) (hold : task.progress.isCounted = false) :
    ∀ row ∈ s.completed, row.1 ≠ task.invocation.invocationIndex := by
  intro row hrow heq
  obtain ⟨hmap, -, -, -⟩ := gathering_of_task h.shape hk
  have hnodup : (s.tasks.map fun t => t.invocation.invocationIndex).Nodup := by
    have hbatch := batch_nodup hindex h.shape
    rwa [← hmap, List.map_map] at hbatch
  have hmem : row.2.invocation ∈ pick Progress.isCounted s.tasks :=
    h.recorded.stored.mem_iff.1 (List.mem_map_of_mem hrow)
  obtain ⟨other, hother, hinv⟩ := List.mem_map.1 hmem
  obtain ⟨hother, hcounted⟩ := List.mem_filter.1 hother
  have hsame : other = task := by
    refine List.inj_on_of_nodup_map hnodup hother (List.mem_of_getElem? hk) ?_
    rw [hinv, ← h.recorded.keys row hrow, heq]
  rw [hsame, hold] at hcounted
  cases hcounted

end Tasks

include hindex in
lemma alone_split (h : Shape invocations s)
    {x : ToolInvocation} (hbatch : s.readBatch = []) (hcurrent : s.current = some x) {before after : List ToolInvocation}
    (hsplit : invocations = before ++ x :: after) : before = s.done ∧ after = s.rest := by
  have hhere : invocations = s.done ++ x :: s.rest := by
    have hs := h.split
    rw [hbatch, hcurrent, List.append_nil] at hs
    rw [hs]
    simp
  have hnodup := nodup_invocations hindex
  rw [hsplit] at hhere hnodup
  have hbefore : x ∉ before := fun hx => (List.nodup_append.1 hnodup).2.2 x hx x (List.mem_cons_self ..) rfl
  have hdone : x ∉ s.done := by
    rw [hhere] at hnodup
    exact fun hx => (List.nodup_append.1 hnodup).2.2 x hx x (List.mem_cons_self ..) rfl
  clear hnodup hsplit hcurrent hbatch
  generalize s.done = front at hhere hdone ⊢
  induction before generalizing front with
  | nil =>
    cases front with
    | nil => exact ⟨rfl, (List.cons.inj hhere).2⟩
    | cons y front =>
      rw [(List.cons.inj hhere).1] at hdone
      exact absurd (List.mem_cons_self ..) hdone
  | cons y before ih =>
    cases front with
    | nil =>
      rw [(List.cons.inj hhere).1] at hbefore
      exact absurd (List.mem_cons_self ..) hbefore
    | cons z front =>
      obtain ⟨rfl, hrest⟩ := List.cons.inj hhere
      obtain ⟨rfl, hafter⟩ := ih (fun hx => hbefore (List.mem_cons_of_mem _ hx)) front hrest
        fun hx => hdone (List.mem_cons_of_mem _ hx)
      exact ⟨rfl, hafter⟩

include hindex in
lemma inv_enter (h : Inv invocations s)
    {q a : ℚ} (hs' : enter q a s = some s') : Inv invocations s' := by
  have hplaced := h.shape.placed
  unfold enter at hs'
  unfold Placed at hplaced
  split at hs'
  · rename_i x hp hcurrent
    rw [hp] at hplaced
    obtain ⟨htasks, hbatch, -⟩ := hplaced
    cases hs'
    have hr := h.recorded
    have hnone := begun_of_no_raise (.inr (.inr (.inl hp)))
    have hstarted : (startedOf s.happened).Perm s.done := by
      have hs := hr.started
      rwa [htasks, hnone.1, pick_nil, List.append_nil, List.append_nil] at hs
    have hended : (endedOf s.happened).Perm s.done := by
      have hs := hr.ended
      rwa [htasks, hnone.2, pick_nil, List.append_nil, List.append_nil] at hs
    refine ⟨⟨h.shape.split, h.shape.reads, h.shape.effect, htasks, hbatch, ?_⟩, ?_, ?_, ?_, ?_, hr.indexes, hr.keys,
      hr.stored, ?_, ?_, hr.failed, ?_, fun hf => by cases hf⟩
    · rw [happen, hcurrent]
      rfl
    · change (startedOf (s.happened ++ [.started x])).Perm (s.done ++ pick _ s.tasks ++ s.current.toList)
      rw [startedOf_append, htasks, pick_nil, List.append_nil, hcurrent]
      exact List.Perm.append_right _ hstarted
    · change (endedOf (s.happened ++ [.started x])).Perm (s.done ++ pick _ s.tasks ++ [])
      rw [endedOf_append, htasks, pick_nil, List.append_nil, List.append_nil]
      change (endedOf s.happened ++ []).Perm _
      rwa [List.append_nil]
    · exact fun o ho => List.mem_append_left _ (hr.own o ho)
    · exact fun task ht result q' a' c hpr => List.mem_append_left _ (hr.finished task ht result q' a' c hpr)
    · refine barrier_snoc hr.barrier ?_ ?_
      · intro l y hl hy
        obtain ⟨-, q', a', hexec⟩ := hr.open_ l y hl hy
        exact absurd hexec (not_executing (.inr (.inr (.inl hp))))
      · rintro y ⟨rfl⟩ _ before after hsplit
        obtain ⟨rfl, rfl⟩ := alone_split hindex h.shape hbatch hcurrent hsplit
        refine ⟨fun y hy => hended.mem_iff.2 hy, fun y hy hmem => ?_⟩
        have hnodup := nodup_invocations hindex
        rw [hsplit] at hnodup
        exact (List.nodup_append.1 hnodup).2.2 y (hstarted.mem_iff.1 hmem) y (List.mem_cons_of_mem _ hy) rfl
    · intro l y hl hy
      obtain ⟨-, hlast⟩ := List.append_inj' hl rfl
      cases hlast
      exact ⟨hcurrent, q, a, rfl⟩
    · rintro error (hf | hf)
      · obtain ⟨y, hy⟩ := hr.failure error (.inl hf)
        exact ⟨y, List.mem_append_left _ hy⟩
      · cases hf
  · cases hs'

lemma inv_leave (h : Inv invocations s) {now : ℚ} {outcome : Except ε ρ} (hs' : leave now outcome s = some s') :
    Inv invocations s' := by
  have hplaced := h.shape.placed
  unfold leave at hs'
  unfold Placed at hplaced
  split at hs'
  · rename_i q a x hp hcurrent
    rw [hp] at hplaced
    obtain ⟨htasks, hbatch, -⟩ := hplaced
    have hr := h.recorded
    have hempty := completed_of_no_tasks hr htasks
    have hstarted : (startedOf s.happened).Perm (s.done ++ [x]) := by
      have hs := hr.started
      have hbegun : s.begun = [x] := by
        unfold State.begun
        rw [hp, hcurrent]
        rfl
      rwa [htasks, hbegun, pick_nil, List.append_nil] at hs
    have hended : (endedOf s.happened).Perm s.done := by
      have hs := hr.ended
      have hlost : s.lost = [] := by
        unfold State.lost
        rw [hp]
      rwa [htasks, hlost, pick_nil, List.append_nil, List.append_nil] at hs
    have hbarrier : Barrier invocations (s.happened ++ [.ended x outcome]) := by
      refine barrier_snoc hr.barrier ?_ (fun y hy => by cases hy)
      intro l y hl hy
      obtain ⟨hc, -⟩ := hr.open_ l y hl hy
      rw [hcurrent] at hc
      cases hc
      exact ⟨outcome, rfl⟩
    have hclosed : ∀ l y, s.happened ++ [.ended x outcome] ≠ l ++ [.started y] := by
      intro l y hl
      cases (List.append_inj' hl rfl).2
    rcases outcome with error | result
    · cases hs'
      refine ⟨⟨h.shape.split, h.shape.reads, h.shape.effect, .inl ⟨htasks, hbatch⟩⟩, ?_, ?_, ?_, ?_, hr.indexes, hr.keys,
        hr.stored, hbarrier, fun l y hl => absurd hl (hclosed l y), hr.failed, ?_, fun hf => by cases hf⟩
      · change (startedOf (s.happened ++ [.ended x (.error error)])).Perm
          (s.done ++ pick _ s.tasks ++ if s.tasks.isEmpty then s.current.toList else [])
        rw [startedOf_append, htasks, pick_nil, List.append_nil, hcurrent]
        change (startedOf s.happened ++ []).Perm _
        rwa [List.append_nil]
      · change (endedOf (s.happened ++ [.ended x (.error error)])).Perm
          (s.done ++ pick _ s.tasks ++ if s.tasks.isEmpty then s.current.toList else [])
        rw [endedOf_append, htasks, pick_nil, List.append_nil, hcurrent]
        exact List.Perm.append_right _ hended
      · exact fun o ho => List.mem_append_left _ (hr.own o ho)
      · exact fun task ht result q' a' c hpr => List.mem_append_left _ (hr.finished task ht result q' a' c hpr)
      · rintro error' (hf | hf)
        · obtain ⟨y, hy⟩ := hr.failure error' (.inl hf)
          exact ⟨y, List.mem_append_left _ hy⟩
        · cases hf
          exact ⟨x, List.mem_append_right _ (List.mem_singleton_self _)⟩
    · cases hs'
      have hdone (o : ScheduledToolResult ρ) (ho : o.invocation = x) :
          (s.output ++ [o]).map ScheduledToolResult.invocation = s.done ++ [x] := by
        rw [List.map_append, List.map_singleton, ho]
        rfl
      refine ⟨⟨?_, h.shape.reads, fun y hy => (Option.not_mem_none y hy).elim, htasks, rfl⟩, ?_, ?_, ?_, ?_, ?_, hr.keys,
        hr.stored, hbarrier, fun l y hl => absurd hl (hclosed l y), hr.failed, ?_, fun hf => by cases hf⟩
      · change invocations = (s.output ++ [_]).map ScheduledToolResult.invocation ++ s.readBatch ++ [] ++ s.rest
        rw [hdone _ rfl, h.shape.split, hbatch, hcurrent]
        simp
      · change (startedOf (s.happened ++ [.ended x (.ok result)])).Perm
          ((s.output ++ [_]).map ScheduledToolResult.invocation ++ pick _ s.tasks ++ [])
        rw [hdone _ rfl, startedOf_append, htasks, pick_nil, List.append_nil, List.append_nil]
        change (startedOf s.happened ++ []).Perm _
        rwa [List.append_nil]
      · change (endedOf (s.happened ++ [.ended x (.ok result)])).Perm
          ((s.output ++ [_]).map ScheduledToolResult.invocation ++ pick _ s.tasks ++ [])
        rw [hdone _ rfl, endedOf_append, htasks, pick_nil, List.append_nil, List.append_nil]
        exact List.Perm.append_right _ hended
      · intro o ho
        change o ∈ s.output ++ [_] ++ s.completed.map Prod.snd at ho
        rw [hempty, List.map_nil, List.append_nil, List.mem_append, List.mem_singleton] at ho
        rcases ho with ho | rfl
        · exact List.mem_append_left _ (hr.own o (List.mem_append_left _ ho))
        · exact List.mem_append_right _ (List.mem_singleton_self _)
      · exact fun task ht result q' a' c hpr => List.mem_append_left _ (hr.finished task ht result q' a' c hpr)
      · change ((s.output ++ [_] ++ s.completed.map Prod.snd).map ScheduledToolResult.executionCompletionIndex).Perm
          (List.range (s.completionCounter + 1))
        have hindexes := hr.indexes
        rw [hempty, List.map_nil, List.append_nil] at hindexes ⊢
        rw [List.map_append, List.range_succ]
        exact List.Perm.append_right _ hindexes
      · rintro error (hf | hf)
        · obtain ⟨y, hy⟩ := hr.failure error (.inl hf)
          exact ⟨y, List.mem_append_left _ hy⟩
        · cases hf
  · cases hs'

variable {maxParallelReads : ℤ}

include hindex in
lemma inv_stepTask (h : Inv invocations s)
    {k : ℕ} {task : Task ρ} (hk : s.tasks[k]? = some task) {a : Action ρ ε}
    (hs' : stepTask maxParallelReads k task s a = some s') : Inv invocations s' := by
  cases a with
  | enqueue k' now =>
    rcases hp : task.progress with _ | q | ⟨q, a⟩ | ⟨result, q, a, c⟩ | _ | _ <;> simp only [stepTask, hp] at hs' <;>
      cases hs'
    refine inv_moves h hk ⟨rfl, rfl, rfl, rfl, rfl, rfl⟩ (?_ : Happens _ _ _ _ [] [])
    constructor <;> simp +contextual [setTask, pick, hp, Progress.hasStarted, Progress.hasEnded, Progress.isCounted,
      startedOf, endedOf]
  | start k' now =>
    rcases hp : task.progress with _ | q | ⟨q, a⟩ | ⟨result, q, a, c⟩ | _ | _ <;> simp only [stepTask, hp] at hs' <;>
      try cases hs'
    split at hs'
    · cases hs'
      refine inv_moves h hk ⟨rfl, rfl, rfl, rfl, rfl, rfl⟩ (?_ : Happens _ _ _ _ [.started task.invocation] [])
      constructor <;> simp +contextual [setTask, happen, pick, hp, Progress.hasStarted, Progress.hasEnded, Progress.isCounted,
      startedOf, endedOf]
    · cases hs'
  | finish k' now outcome =>
    rcases hp : task.progress with _ | q | ⟨q, a⟩ | ⟨result, q, a, c⟩ | _ | _ <;> simp only [stepTask, hp] at hs' <;>
      try cases hs'
    rcases outcome with error | result
    · cases hs'
      refine inv_moves h hk ⟨rfl, rfl, rfl, rfl, rfl, rfl⟩ (?_ : Happens _ _ _ _ [.ended task.invocation (.error error)] [])
      constructor <;> simp +contextual [setTask, happen, pick, hp, Progress.hasStarted, Progress.hasEnded, Progress.isCounted,
      startedOf, endedOf]
      rcases s.failure with _ | e <;> simp
    · cases hs'
      refine inv_moves h hk ⟨rfl, rfl, rfl, rfl, rfl, rfl⟩ (?_ : Happens _ _ _ _ [.ended task.invocation (.ok result)] [])
      constructor <;> simp +contextual [setTask, happen, pick, hp, Progress.hasStarted, Progress.hasEnded, Progress.isCounted,
      startedOf, endedOf]
  | count k' =>
    rcases hp : task.progress with _ | q | ⟨q, a⟩ | ⟨result, q, a, c⟩ | _ | _ <;> simp only [stepTask, hp] at hs' <;>
      cases hs'
    have hfresh := fresh_key hindex h hk (by rw [hp]; rfl)
    have hearned := h.recorded.finished task (List.mem_of_getElem? hk) result q a c hp
    have hcompleted : ∀ result, replaceRow Prod.fst (task.invocation.invocationIndex, result) s.completed =
        s.completed ++ [(task.invocation.invocationIndex, result)] := by
      intro result
      unfold replaceRow deleteRow
      rw [List.filter_eq_self.2 fun row hrow => decide_eq_true (hfresh row hrow)]
    refine inv_moves h hk ⟨rfl, rfl, rfl, rfl, rfl, rfl⟩
      (?_ : Happens _ _ _ _ [] [⟨task.invocation, result, q, a, c, s.completionCounter⟩])
    constructor <;> simp +contextual [setTask, pick, hp, Progress.hasStarted, Progress.hasEnded, Progress.isCounted,
      startedOf, endedOf, hearned, hcompleted, List.range_succ]
  | advance => cases hs'
  | enter q a => cases hs'
  | leave now outcome => cases hs'

include hindex in
lemma inv_task_action (h : Inv invocations s)
    {a : Action ρ ε} (hs' : (do
      let k ← taskOf? a
      let task ← s.tasks[k]?
      stepTask maxParallelReads k task s a) = some s') : Inv invocations s' := by
  obtain ⟨k, -, hs'⟩ := Option.bind_eq_some_iff.1 hs'
  obtain ⟨task, hk, hs'⟩ := Option.bind_eq_some_iff.1 hs'
  exact inv_stepTask hindex h hk hs'

include hindex in
lemma inv_step (h : Inv invocations s)
    {a : Action ρ ε} (hs' : step? maxParallelReads s a = some s') : Inv invocations s' := by
  cases a with
  | advance =>
    change advance s = some s' at hs'
    have hadvance := hs'
    unfold advance at hadvance
    rcases hp : s.phase with _ | _ | _ | ⟨q, a⟩ | _ | error
    · exact inv_visit h hp hs'
    · exact inv_gather hindex h hp hs'
    · rw [hp] at hadvance
      cases hadvance
    · rw [hp] at hadvance
      cases hadvance
    · rw [hp] at hadvance
      cases hadvance
    · rw [hp] at hadvance
      cases hadvance
  | enter q a => exact inv_enter hindex h hs'
  | leave now outcome => exact inv_leave h hs'
  | enqueue k now => exact inv_task_action hindex h hs'
  | start k now => exact inv_task_action hindex h hs'
  | finish k now outcome => exact inv_task_action hindex h hs'
  | count k => exact inv_task_action hindex h hs'

lemma inv_initial (invocations : List ToolInvocation) :
    Inv invocations (State.initial (ρ := ρ) (ε := ε) invocations) := by
  have hphase : (State.initial (ρ := ρ) (ε := ε) invocations).phase = .visiting ∨
      (State.initial (ρ := ρ) (ε := ε) invocations).phase = .raised .duplicateCallId ∧
        ¬ (invocations.map ToolInvocation.callId).Nodup := by
    by_cases hc : (invocations.map ToolInvocation.callId).Nodup
    · exact .inl (if_pos hc)
    · exact .inr ⟨if_neg hc, hc⟩
  have hnone : (State.initial (ρ := ρ) (ε := ε) invocations).begun = [] ∧
      (State.initial (ρ := ρ) (ε := ε) invocations).lost = [] := by
    unfold State.begun State.lost
    rcases hphase with hp | ⟨hp, -⟩ <;> rw [hp] <;> exact ⟨rfl, rfl⟩
  refine ⟨⟨rfl, fun _ hx => (List.not_mem_nil hx).elim, fun _ hx => (Option.not_mem_none _ hx).elim, ?_⟩,
    ?_, ?_, fun _ ho => (List.not_mem_nil ho).elim, fun _ ht => (List.not_mem_nil ht).elim, List.Perm.refl [],
    fun _ hr => (List.not_mem_nil hr).elim, List.Perm.refl [], ?_, ?_, fun _ ht => (List.not_mem_nil ht).elim, ?_, ?_⟩
  · unfold Placed
    rcases hphase with hp | ⟨hp, -⟩ <;> rw [hp]
    · exact ⟨rfl, rfl⟩
    · exact .inl ⟨rfl, rfl⟩
  · rw [hnone.1]
    exact List.Perm.refl []
  · rw [hnone.2]
    exact List.Perm.refl []
  · intro l₁ x l₂ hl
    cases List.append_eq_nil_iff.1 hl.symm |>.2
  · intro l x hl
    cases List.append_eq_nil_iff.1 hl.symm |>.2
  · rintro error (hf | hf)
    · cases hf
    · rcases hphase with hp | ⟨hp, -⟩ <;> rw [hp] at hf <;> cases hf
  · intro hf
    rcases hphase with hp | ⟨-, hc⟩
    · rw [hp] at hf
      cases hf
    · exact hc

variable (maxParallelReads) in
lemma inv_final (hindex : (invocations.map ToolInvocation.invocationIndex).Nodup) (actions : List (Action ρ ε)) :
    Inv invocations (final (step maxParallelReads) (.initial invocations) actions) := by
  refine (invariant (I := Inv invocations) (fun s a h => ?_) (inv_initial invocations)).2
  unfold step
  rcases hs' : step? maxParallelReads s a with _ | s'
  · exact h
  · exact inv_step hindex h hs'

end Steps

end PromptForge.ToolScheduling
