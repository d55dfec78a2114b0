import PromptForge.ContextMemory

namespace PromptForge.ContextMemory
open Runs Json JsonText

variable {floatText : ℚ → List Char}

lemma le_countWithin_iff (charBudget : ℕ) (sizes : List ℕ) (used count k : ℕ) (hcount : 0 < count) :
    k ≤ countWithin charBudget used count sizes ↔
      k ≤ count ∨ k ≤ count + sizes.length ∧ used + (sizes.take (k - count)).sum ≤ charBudget := by
  induction sizes generalizing used count with
  | nil =>
    simp only [countWithin, List.length_nil, Nat.add_zero]
    tauto
  | cons size rest ih =>
    rw [countWithin]
    by_cases hk : k ≤ count
    · have hle : k ≤ countWithin charBudget (used + size) (count + 1) rest := by
        rw [ih (used + size) (count + 1) (by omega)]
        exact .inl (by omega)
      split <;> simp [hk, hle]
    · obtain ⟨j, rfl⟩ : ∃ j, k = count + 1 + j := ⟨k - count - 1, by omega⟩
      have htake : ((size :: rest).take (count + 1 + j - count)).sum = size + (rest.take j).sum := by
        rw [show count + 1 + j - count = j + 1 by omega, List.take_succ_cons, List.sum_cons]
      rw [htake]
      split
      · have hout := ‹count ≠ 0 ∧ charBudget < used + size›
        omega
      · have hin := ‹¬ (count ≠ 0 ∧ charBudget < used + size)›
        rw [ih (used + size) (count + 1) (by omega), show count + 1 + j - (count + 1) = j by omega,
          List.length_cons]
        cases j with
        | zero => simp; omega
        | succ j => omega

lemma length_lastItems {α : Type} (k : ℕ) (xs : List α) : (lastItems k xs).length = min k xs.length := by
  unfold lastItems
  rw [List.length_drop]
  omega

lemma lastItems_lastItems {α : Type} {k n : ℕ} (h : k ≤ n) (xs : List α) :
    lastItems k (lastItems n xs) = lastItems k xs := by
  have hlength := length_lastItems n xs
  unfold lastItems at hlength ⊢
  rw [hlength, List.drop_drop]
  congr 1
  omega

lemma map_lastItems {α β : Type} (f : α → β) (k : ℕ) (xs : List α) :
    (lastItems k xs).map f = lastItems k (xs.map f) := by
  unfold lastItems
  rw [List.map_drop, List.length_map]

lemma sum_take_reverse (sizes : List ℕ) (k : ℕ) : (sizes.reverse.take k).sum = (lastItems k sizes).sum := by
  rw [List.take_reverse, List.sum_reverse]
  rfl

lemma le_detailedTail_iff {observations : List Dict} {keep charBudget k : ℕ} (hk : k ≤ observations.length) :
    k ≤ detailedTail floatText observations keep charBudget ↔
      k ≤ 1 ∨ k ≤ keep ∧ ((lastItems k observations).map (size floatText)).sum ≤ charBudget := by
  unfold detailedTail
  rw [List.map_reverse]
  have hlength : ((lastItems keep observations).map (size floatText)).reverse.length =
      min keep observations.length := by simp [length_lastItems]
  have hsum : k ≤ keep → (((lastItems keep observations).map (size floatText)).reverse.take k).sum =
      ((lastItems k observations).map (size floatText)).sum := by
    intro hle
    rw [sum_take_reverse, map_lastItems, map_lastItems, lastItems_lastItems hle]
  generalize ((lastItems keep observations).map (size floatText)).reverse = sizes at hlength hsum ⊢
  cases sizes with
  | nil =>
    simp only [countWithin, List.length_nil] at hlength ⊢
    omega
  | cons first rest =>
    rw [List.length_cons] at hlength
    simp only [countWithin, ne_eq, not_true_eq_false, false_and, if_false, Nat.zero_add, le_max_iff]
    rw [le_countWithin_iff _ _ _ _ _ Nat.one_pos]
    by_cases h1 : k ≤ 1
    · simp [h1]
    · obtain ⟨j, rfl⟩ : ∃ j, k = j + 1 := ⟨k - 1, by omega⟩
      rw [List.take_succ_cons, List.sum_cons] at hsum
      simp only [h1, false_or, Nat.add_sub_cancel]
      constructor
      · rintro ⟨hle, hfits⟩
        have hkeep : j + 1 ≤ keep := by omega
        exact ⟨hkeep, hsum hkeep ▸ hfits⟩
      · rintro ⟨hkeep, hfits⟩
        exact ⟨by omega, (hsum hkeep).symm ▸ hfits⟩

def Loop.least : Loop → ℕ
  | .autonomous => 6
  | .overlay => 1

def Loop.keep (floatText : ℚ → List Char) (observations : List Dict) : Loop → ℕ
  | .autonomous => min observations.length (max 6 (tail floatText observations))
  | .overlay => tail floatText observations

def Retained (floatText : ℚ → List Char) (loop : Loop) (observations : List Dict) (k : ℕ) : Prop :=
  k ≤ loop.least ∨ k ≤ 24 ∧ ((lastItems k observations).map (size floatText)).sum ≤ 32000

variable {loop : Loop}

lemma le_keep_iff {observations : List Dict} {k : ℕ} (hk : k ≤ observations.length) :
    k ≤ loop.keep floatText observations ↔ Retained floatText loop observations k := by
  have htail := @le_detailedTail_iff floatText observations 24 32000 k hk
  cases loop with
  | autonomous =>
    simp only [Loop.keep, Retained, Loop.least, tail, le_min_iff, le_max_iff, htail]
    constructor
    · rintro ⟨-, h | h | h⟩
      · exact .inl h
      · exact .inl (h.trans (by decide))
      · exact .inr h
    · rintro (h | h)
      · exact ⟨hk, .inl h⟩
      · exact ⟨hk, .inr (.inr h)⟩
  | overlay => exact htail

structure Shows (floatText : ℚ → List Char) (observations view : List Dict) (pinned : List Pinned) (n : ℕ) : Prop where
  le : n ≤ observations.length
  view_eq : ∃ front : List Dict, (n = 0 → front = []) ∧ (0 < n → ∃ callId, front = [checkpoint callId n]) ∧
    view = front ++ (observations.drop n).map (bounded floatText) ++ pinned.map Pinned.item

lemma shows_shown (callId : ℕ → String) (observations : List Dict) (pinned : List Pinned) (keep : ℕ) :
    Shows floatText observations (shown floatText callId observations keep ++ pinned.map Pinned.item) pinned
      (observations.length - keep) := by
  refine ⟨Nat.sub_le _ _, ?_⟩
  unfold shown
  split
  · have hle := ‹observations.length ≤ keep›
    rw [Nat.sub_eq_zero_of_le hle]
    exact ⟨[], fun _ => rfl, fun h => absurd h (lt_irrefl _), by simp⟩
  · have hlt := ‹¬ observations.length ≤ keep›
    exact ⟨[checkpoint (callId (observations.length - keep)) (observations.length - keep)],
      fun h => absurd h (by omega), fun _ => ⟨_, rfl⟩, by simp [lastItems]⟩

structure Covered (s : State) : Prop where
  le : s.compacted ≤ s.observations.length
  flatten : s.deltas.flatten = s.observations.take s.compacted

lemma covered_start (observations : List Dict) : Covered (State.start observations) := ⟨Nat.zero_le _, rfl⟩

@[simp] lemma emit_observations (s : State) (count : ℕ) : (emit s count).observations = s.observations := by
  unfold emit
  split <;> rfl

@[simp] lemma emit_results (s : State) (count : ℕ) : (emit s count).results = s.results := by
  unfold emit
  split <;> rfl

@[simp] lemma emit_zero (s : State) : emit s 0 = s := rfl

lemma le_compacted_emit (s : State) (count : ℕ) : count ≤ (emit s count).compacted := by
  unfold emit
  split
  · exact le_rfl
  · omega

variable {s : State}

lemma covered_emit (hs : Covered s) {count : ℕ} (hcount : count ≤ s.observations.length) :
    Covered (emit s count) := by
  unfold emit
  split
  · have hlt := ‹s.compacted < count›
    refine ⟨hcount, ?_⟩
    have htake : s.observations.take s.compacted = (s.observations.take count).take s.compacted := by
      rw [List.take_take, Nat.min_eq_left hlt.le]
    simp only [List.flatten_append, List.flatten_singleton]
    rw [hs.flatten, htake, List.take_append_drop]
  · exact hs

lemma covered_append (hs : Covered s) (items : List Dict) (results : List ℕ) :
    Covered { s with observations := s.observations ++ items, results := results } := by
  refine ⟨?_, ?_⟩
  · simp only [List.length_append]
    exact Nat.le_add_right_of_le hs.le
  · simp only [List.take_append_of_le_length hs.le]
    exact hs.flatten

def Complete (floatText : ℚ → List Char) (s : State) (view : List Dict) (pinned : List Pinned) : Prop :=
  ∃ n covered, Shows floatText s.observations view pinned n ∧ (∀ i ∈ s.results, n ≤ i) ∧
    s.deltas.flatten = s.observations.take covered ∧ n ≤ covered

/-- When a request gets it: the last turn is within the tail, and a checkpoint that the
    run was resumed from stands for no more observations than there are. -/
structure Kept (floatText : ℚ → List Char) (loop : Loop) (s : State) : Prop where
  results : ∀ i ∈ s.results, Retained floatText loop s.observations (s.observations.length - i)
  restored : loop = .overlay → ∀ first, s.observations.head? = some first →
    Retained floatText .overlay s.observations s.observations.length → isCheckpoint (bounded floatText first) →
    ∃ count, compactedCount (bounded floatText first) = some count ∧ count ≤ s.observations.length

variable {pinned : List Pinned}

lemma complete_of_emit {count : ℕ} {view : List Dict}
    (hs : Covered s) (hkept : Kept floatText loop s) (hcount : count ≤ s.observations.length)
    (hshown : s.observations.length - loop.keep floatText s.observations ≤ count)
    (hview : Shows floatText s.observations view pinned (s.observations.length - loop.keep floatText s.observations)) :
    Complete floatText (emit s count) view pinned := by
  have hresults : ∀ i ∈ s.results, s.observations.length - loop.keep floatText s.observations ≤ i := by
    intro i hi
    have hle := (le_keep_iff (Nat.sub_le _ _)).2 (hkept.results i hi)
    omega
  refine ⟨_, (emit s count).compacted, by simpa using hview, by simpa using hresults,
    (covered_emit hs hcount).flatten, hshown.trans (le_compacted_emit s count)⟩

lemma not_isCheckpoint_pinned (p : Pinned) : isCheckpoint p.item = false := by
  rcases p with ⟨_ | _, output⟩ <;> rfl

lemma autonomousView_eq (s : State) (pinned : List Pinned) :
    ∃ callId, autonomousView floatText s pinned =
      (.view (shown floatText callId s.observations (Loop.autonomous.keep floatText s.observations) ++
        pinned.map Pinned.item),
      emit s (s.observations.length - Loop.autonomous.keep floatText s.observations)) := by
  refine ⟨fun older => "context_checkpoint_" ++ toString older, ?_⟩
  unfold autonomousView
  change (_, if s.observations.length ≤ Loop.autonomous.keep floatText s.observations then _ else _) = (_, _)
  split
  · have hle := ‹s.observations.length ≤ Loop.autonomous.keep floatText s.observations›
    rw [Nat.sub_eq_zero_of_le hle]
    rfl
  · rfl

def overlayShown (floatText : ℚ → List Char) (s : State) (pinned : List Pinned) : List Dict :=
  shown floatText (fun _ => "context_checkpoint") s.observations (Loop.overlay.keep floatText s.observations) ++
    pinned.map Pinned.item

lemma shown_tail : shown floatText (fun _ => "context_checkpoint") s.observations (tail floatText s.observations) ++
    pinned.map Pinned.item = overlayShown floatText s pinned := rfl

lemma overlayView_plain
    (h : ∀ first, (overlayShown floatText s pinned).head? = some first → isCheckpoint first = false) :
    overlayView floatText s pinned = (.view (overlayShown floatText s pinned), s) := by
  simp only [overlayView, shown_tail]
  cases hhead : (overlayShown floatText s pinned).head? with
  | none => rfl
  | some first =>
    simp only [h first hhead]
    rfl

lemma overlayView_checkpoint {first : Dict} {count : ℤ}
    (hhead : (overlayShown floatText s pinned).head? = some first) (hfirst : isCheckpoint first = true)
    (hcount : compactedCount first = some count) :
    overlayView floatText s pinned = (.view (overlayShown floatText s pinned), emit s count.toNat) := by
  simp only [overlayView, shown_tail, hhead, hfirst, hcount, if_true]

lemma compactedCount_checkpoint (callId : String) (older : ℕ) :
    compactedCount (checkpoint callId older) = some (older : ℤ) := rfl

lemma overlayView_eq (hkept : Kept floatText .overlay s) (pinned : List Pinned) :
    ∃ count, count ≤ s.observations.length ∧
      s.observations.length - Loop.overlay.keep floatText s.observations ≤ count ∧
      overlayView floatText s pinned = (.view (overlayShown floatText s pinned), emit s count) := by
  by_cases hle : s.observations.length ≤ Loop.overlay.keep floatText s.observations
  · have hall : overlayShown floatText s pinned =
        s.observations.map (bounded floatText) ++ pinned.map Pinned.item := by
      unfold overlayShown shown
      rw [if_pos hle]
    rw [Nat.sub_eq_zero_of_le hle]
    have hplain (h : ∀ first, s.observations.head? = some first → isCheckpoint (bounded floatText first) = false) :
        overlayView floatText s pinned = (.view (overlayShown floatText s pinned), s) := by
      apply overlayView_plain
      intro first hhead
      rw [hall] at hhead
      cases hobs : s.observations with
      | nil =>
        rw [hobs] at hhead
        cases pinned with
        | nil => simp at hhead
        | cons p pinned =>
          obtain rfl : p.item = first := by simpa using hhead
          exact not_isCheckpoint_pinned p
      | cons o os =>
        rw [hobs] at hhead
        obtain rfl : bounded floatText o = first := by simpa using hhead
        exact h o (by rw [hobs]; rfl)
    cases hobs : s.observations.head? with
    | none =>
      have hview := hplain (by simp [hobs])
      exact ⟨0, Nat.zero_le _, le_rfl, by rw [hview, emit_zero]⟩
    | some o =>
      cases hfirst : isCheckpoint (bounded floatText o) with
      | false =>
        have hview := hplain (by simp [hobs, hfirst])
        exact ⟨0, Nat.zero_le _, le_rfl, by rw [hview, emit_zero]⟩
      | true =>
        obtain ⟨count, hcount, hwithin⟩ := hkept.restored rfl o hobs ((le_keep_iff le_rfl).1 hle) hfirst
        refine ⟨count.toNat, by omega, Nat.zero_le _, overlayView_checkpoint ?_ hfirst hcount⟩
        rw [hall]
        simp [List.head?_append, hobs]
  · have hcut : (overlayShown floatText s pinned).head? = some (checkpoint "context_checkpoint"
        (s.observations.length - Loop.overlay.keep floatText s.observations)) := by
      unfold overlayShown shown
      rw [if_neg hle]
      rfl
    have hview := overlayView_checkpoint hcut rfl (compactedCount_checkpoint _ _)
    rw [Int.toNat_natCast] at hview
    exact ⟨_, Nat.sub_le _ _, le_rfl, hview⟩

lemma request_complete (hs : Covered s) (hkept : Kept floatText loop s)
    (pinned : List Pinned) :
    ∃ view, (step floatText loop s (.request pinned)).1 = .view view ∧
      Complete floatText (step floatText loop s (.request pinned)).2 view pinned ∧
      Covered (step floatText loop s (.request pinned)).2 := by
  cases loop with
  | autonomous =>
    obtain ⟨callId, heq⟩ := @autonomousView_eq floatText s pinned
    change ∃ view, (autonomousView floatText s pinned).1 = _ ∧ Complete floatText (autonomousView floatText s pinned).2
      view pinned ∧ Covered (autonomousView floatText s pinned).2
    rw [heq]
    exact ⟨_, rfl, complete_of_emit hs hkept (Nat.sub_le _ _) le_rfl (shows_shown _ _ _ _),
      covered_emit hs (Nat.sub_le _ _)⟩
  | overlay =>
    obtain ⟨count, hcount, hshown, heq⟩ := overlayView_eq hkept pinned
    change ∃ view, (overlayView floatText s pinned).1 = _ ∧ Complete floatText (overlayView floatText s pinned).2
      view pinned ∧ Covered (overlayView floatText s pinned).2
    rw [heq]
    exact ⟨_, rfl, complete_of_emit hs hkept hcount hshown (shows_shown _ _ _ _), covered_emit hs hcount⟩

def Delivered (floatText : ℚ → List Char) (loop : Loop) (observations : List Dict) (actions : List Action) : Prop :=
  ∀ e ∈ trace (step floatText loop) (State.start observations) actions, ∀ pinned, e.action = .request pinned →
    ∃ view, e.outcome = .view view ∧ Complete floatText e.after view pinned

def KeptBy (floatText : ℚ → List Char) (loop : Loop) (s : State) : Action → Prop
  | .request _ => Kept floatText loop s
  | _ => True

lemma covered_step {a : Action} (hs : Covered s) (hkept : KeptBy floatText loop s a) :
    Covered (step floatText loop s a).2 := by
  cases a with
  | observe item => exact covered_append hs [item] s.results
  | settle items => exact covered_append hs _ _
  | request pinned =>
    obtain ⟨_, -, -, hcovered⟩ := request_complete hs hkept pinned
    exact hcovered

lemma delivered_from (hs : Covered s) (actions : List Action)
    (h : ∀ e ∈ trace (step floatText loop) s actions, KeptBy floatText loop e.before e.action) :
    ∀ e ∈ trace (step floatText loop) s actions, ∀ pinned, e.action = .request pinned →
      ∃ view, e.outcome = .view view ∧ Complete floatText e.after view pinned := by
  induction actions generalizing s with
  | nil => simp
  | cons a actions ih =>
    have hfirst := h _ (List.mem_cons_self ..)
    intro e he pinned ha
    rcases List.mem_cons.1 he with rfl | he
    · subst ha
      obtain ⟨view, hview, hcomplete, -⟩ := request_complete hs hfirst pinned
      exact ⟨view, hview, hcomplete⟩
    · exact ih (covered_step hs hfirst) (fun e he => h e (List.mem_cons_of_mem _ he)) e he pinned ha

theorem delivered (floatText : ℚ → List Char) (loop : Loop) (observations : List Dict) (actions : List Action)
    (h : ∀ e ∈ trace (step floatText loop) (State.start observations) actions,
      KeptBy floatText loop e.before e.action) :
    Delivered floatText loop observations actions :=
  delivered_from (covered_start observations) actions h

def fileRead (callId : String) (chars : ℕ) : Dict :=
  [("call_id", .str callId), ("status", .str "completed"), ("tool", .str "read_file"),
    ("output", .str (String.ofList (List.replicate chars 'a')))]

def steered (message : String) : Dict :=
  [("call_id", .str "steer_2"), ("status", .str "completed"), ("tool", .str "user_steer"), ("output", .str message)]

def crowded (read : String → Dict) : List Action :=
  [.settle [(read "a", true), (read "b", true), (read "c", true), (read "d", true), (read "e", true)],
    .observe (steered "Use pin 4."), .observe (steered "And pin 5."), .request []]

theorem delivered_one_call :
    Delivered (fun _ => []) .autonomous [] [.settle [(fileRead "a" 7000, true)], .request []] := by
  apply delivered
  intro e he
  simp only [trace_cons, trace_nil, List.mem_cons, List.not_mem_nil, or_false] at he
  rcases he with rfl | rfl
  · trivial
  · refine ⟨fun i _ => .inl ?_, fun h => nomatch h⟩
    exact (Nat.sub_le _ _).trans (by decide : 1 ≤ 6)

lemma length_flatMap_plainChar (cs : List Char) : cs.length ≤ (cs.flatMap plainChar).length := by
  induction cs with
  | nil => exact le_rfl
  | cons c cs ih =>
    have hone : 1 ≤ (plainChar c).length := by
      unfold plainChar
      split
      · simp
      · split <;> simp [escapeUnit]
    rw [List.flatMap_cons, List.length_append, List.length_cons]
    omega

lemma le_size_fileRead (callId : String) (chars : ℕ) : chars ≤ size floatText (fileRead callId chars) := by
  have hlength := length_flatMap_plainChar (List.replicate chars 'a')
  rw [List.length_replicate] at hlength
  simp only [size, encoded, fileRead, plain, plainEntries, plainString, List.length_append, List.length_cons,
    String.toList_ofList]
  omega

def crowdedObservations (read : String → Dict) : List Dict :=
  [read "a", read "b", read "c", read "d", read "e", steered "Use pin 4.", steered "And pin 5."]

lemma keep_crowded {read : String → Dict} (hread : ∀ callId, 7000 ≤ size floatText (read callId)) :
    ¬ (crowdedObservations read).length ≤ Loop.autonomous.keep floatText (crowdedObservations read) := by
  rw [le_keep_iff le_rfl]
  rintro (h | ⟨-, h⟩)
  · exact absurd h (by simp [crowdedObservations, Loop.least])
  · have ha := hread "a"
    have hb := hread "b"
    have hc := hread "c"
    have hd := hread "d"
    have he := hread "e"
    simp only [crowdedObservations, lastItems, Nat.sub_self, List.drop_zero, List.map_cons, List.sum_cons] at h
    omega

lemma tool_bounded (item : Dict) : (bounded floatText item).get "tool" = item.get "tool" := by
  unfold bounded boundedObservation
  split <;> rfl

def crowdedState (read : String → Dict) : State := ⟨crowdedObservations read, [0, 1, 2, 3, 4], 0, []⟩

lemma not_delivered_crowded {read : String → Dict} (hread : ∀ callId, 7000 ≤ size floatText (read callId))
    (htool : isCheckpoint (read "a") = false) : ¬ Delivered floatText .autonomous [] (crowded read) := by
  intro h
  have hmem : entry (step floatText .autonomous) (crowdedState read) (.request []) ∈
      trace (step floatText .autonomous) (State.start []) (crowded read) :=
    List.mem_cons_of_mem _ (List.mem_cons_of_mem _ (List.mem_cons_of_mem _ (List.mem_cons_self ..)))
  obtain ⟨view, hview, n, covered, hshows, hresults, -, -⟩ := h _ hmem [] rfl
  obtain ⟨callId, heq⟩ := @autonomousView_eq floatText (crowdedState read) []
  rw [entry_outcome, step, heq] at hview
  rw [entry_after, step, heq] at hshows hresults
  obtain rfl : n = 0 := Nat.le_zero.1 (hresults 0 (by simp [crowdedState]))
  obtain ⟨front, hfront, -, hall⟩ := hshows.view_eq
  obtain rfl := hfront rfl
  rw [emit_observations] at hall
  have hviews := (Outcome.view.inj hview).trans hall
  rw [shown, crowdedState, if_neg (keep_crowded hread)] at hviews
  have hhead : checkpoint _ _ = bounded floatText (read "a") := (List.cons.inj hviews).1
  have hcheckpoint : isCheckpoint (bounded floatText (read "a")) = true := by rw [← hhead]; rfl
  rw [isCheckpoint, tool_bounded] at hcheckpoint
  exact absurd (hcheckpoint.symm.trans htool) (by decide)

/-- The first result has left the view, and its place has a checkpoint. -/
theorem crowded_out : ¬ Delivered (fun _ => []) .autonomous [] (crowded fun callId => fileRead callId 7000) :=
  not_delivered_crowded (fun callId => le_size_fileRead callId 7000) rfl

end PromptForge.ContextMemory
