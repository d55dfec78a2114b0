import Mathlib.Data.List.Basic
import Mathlib.Data.List.Forall2
import Mathlib.Data.List.Pairwise

/-! # Runs of a step function -/
namespace PromptForge.Runs

universe u v w
variable {σ : Type u} {α : Type v} {β : Type w}

structure Entry (σ : Type u) (α : Type v) (β : Type w) where
  before : σ
  action : α
  outcome : β
  after : σ

def entry (step : σ → α → β × σ) (s : σ) (a : α) : Entry σ α β :=
  ⟨s, a, (step s a).1, (step s a).2⟩

def trace (step : σ → α → β × σ) : σ → List α → List (Entry σ α β)
  | _, [] => []
  | s, a :: as => entry step s a :: trace step (step s a).2 as

def final (step : σ → α → β × σ) : σ → List α → σ
  | s, [] => s
  | s, a :: as => final step (step s a).2 as

section Rules
variable {step : σ → α → β × σ}

@[simp] lemma entry_before (s : σ) (a : α) : (entry step s a).before = s := rfl
@[simp] lemma entry_action (s : σ) (a : α) : (entry step s a).action = a := rfl
@[simp] lemma entry_outcome (s : σ) (a : α) : (entry step s a).outcome = (step s a).1 := rfl
@[simp] lemma entry_after (s : σ) (a : α) : (entry step s a).after = (step s a).2 := rfl

@[simp] lemma trace_nil (s : σ) : trace step s [] = [] := rfl
@[simp] lemma trace_cons (s : σ) (a : α) (as : List α) :
    trace step s (a :: as) = entry step s a :: trace step (step s a).2 as := rfl
@[simp] lemma final_nil (s : σ) : final step s [] = s := rfl
@[simp] lemma final_cons (s : σ) (a : α) (as : List α) :
    final step s (a :: as) = final step (step s a).2 as := rfl

lemma final_append (s : σ) (as bs : List α) :
    final step s (as ++ bs) = final step (final step s as) bs := by
  induction as generalizing s with
  | nil => rfl
  | cons a as ih => exact ih _

lemma trace_append (s : σ) (as bs : List α) :
    trace step s (as ++ bs) = trace step s as ++ trace step (final step s as) bs := by
  induction as generalizing s with
  | nil => rfl
  | cons a as ih => simp only [List.cons_append, trace_cons, final_cons, ih]

lemma mem_trace {s : σ} {as : List α} {e : Entry σ α β} (h : e ∈ trace step s as) :
    ∃ pre post, as = pre ++ e.action :: post ∧ e = entry step (final step s pre) e.action := by
  induction as generalizing s with
  | nil => cases h
  | cons a as ih =>
    rcases List.mem_cons.1 h with rfl | h
    · exact ⟨[], as, rfl, rfl⟩
    · obtain ⟨pre, post, has, he⟩ := ih h
      exact ⟨a :: pre, post, congrArg (a :: ·) has, he⟩

lemma action_mem {s : σ} {as : List α} {e : Entry σ α β} (h : e ∈ trace step s as) : e.action ∈ as := by
  obtain ⟨pre, post, has, -⟩ := mem_trace h
  exact has ▸ List.mem_append_right _ (List.mem_cons_self ..)

lemma trace_split {s : σ} {as : List α} {pre post : List (Entry σ α β)} {e : Entry σ α β}
    (h : trace step s as = pre ++ e :: post) : ∃ as₁ a as₂, as = as₁ ++ a :: as₂ ∧
      pre = trace step s as₁ ∧ e = entry step (final step s as₁) a ∧
      post = trace step e.after as₂ := by
  induction pre generalizing s as with
  | nil =>
    cases as with
    | nil => cases h
    | cons a as =>
      rw [trace_cons, List.nil_append, List.cons.injEq] at h
      obtain ⟨rfl, rfl⟩ := h
      exact ⟨[], a, as, rfl, rfl, rfl, rfl⟩
  | cons x pre ih =>
    cases as with
    | nil => cases h
    | cons a as =>
      rw [trace_cons, List.cons_append, List.cons.injEq] at h
      obtain ⟨as₁, b, as₂, has, hpre, he, hpost⟩ := ih h.2
      refine ⟨a :: as₁, b, as₂, congrArg (a :: ·) has, ?_, he, hpost⟩
      rw [trace_cons, h.1, hpre]

lemma entry_eq_of_mem {s : σ} {as : List α} {e : Entry σ α β} (h : e ∈ trace step s as) :
    e = entry step e.before e.action := by
  obtain ⟨pre, post, -, he⟩ := mem_trace h
  rw [he]
  rfl

lemma invariant_of {I : σ → Prop} {K : Entry σ α β → Prop}
    (hstep : ∀ s a, I s → K (entry step s a) → I (step s a).2) {s : σ} {as : List α}
    (hs : I s) (hok : ∀ e ∈ trace step s as, K e) :
    (∀ e ∈ trace step s as, I e.before ∧ I e.after) ∧ I (final step s as) := by
  induction as generalizing s with
  | nil => exact ⟨fun _ h => (List.not_mem_nil h).elim, hs⟩
  | cons a as ih =>
    have ha : K (entry step s a) := hok _ (List.mem_cons_self ..)
    have hnext : I (step s a).2 := hstep s a hs ha
    obtain ⟨hmem, hfin⟩ := ih hnext fun e he => hok e (List.mem_cons_of_mem _ he)
    refine ⟨fun e he => ?_, hfin⟩
    rcases List.mem_cons.1 he with rfl | he
    · exact ⟨hs, hnext⟩
    · exact hmem e he

lemma invariant {I : σ → Prop} (hstep : ∀ s a, I s → I (step s a).2) {s : σ}
    {as : List α} (hs : I s) :
    (∀ e ∈ trace step s as, I e.before ∧ I e.after) ∧ I (final step s as) :=
  @invariant_of _ _ _ step I (fun _ => True) (fun s a h _ => hstep s a h) s as hs
    fun _ _ => trivial

lemma pairwise_of {I : σ → Prop} {K : Entry σ α β → Prop}
    {P : Entry σ α β → σ → Prop} {R : Entry σ α β → Entry σ α β → Prop}
    (hinv : ∀ s a, I s → K (entry step s a) → I (step s a).2)
    (hleave : ∀ s a, I s → K (entry step s a) → P (entry step s a) (step s a).2)
    (hkeep : ∀ e s a, I s → K (entry step s a) → P e s → P e (step s a).2)
    (hrel : ∀ e s a, I s → K (entry step s a) → P e s → R e (entry step s a))
    {s : σ} {as : List α} (hs : I s) (hok : ∀ e ∈ trace step s as, K e) :
    (trace step s as).Pairwise R := by
  have later : ∀ (e : Entry σ α β) (as : List α) (s : σ), I s → P e s →
      (∀ e ∈ trace step s as, K e) → ∀ e' ∈ trace step s as, R e e' := by
    intro e as
    induction as with
    | nil => intro s _ _ _ e' h; cases h
    | cons a as ih =>
      intro s hs hp hok e' he'
      have ha : K (entry step s a) := hok _ (List.mem_cons_self ..)
      rcases List.mem_cons.1 he' with rfl | he'
      · exact hrel e s a hs ha hp
      · exact ih _ (hinv s a hs ha) (hkeep e s a hs ha hp)
          (fun e he => hok e (List.mem_cons_of_mem _ he)) e' he'
  induction as generalizing s with
  | nil => exact List.Pairwise.nil
  | cons a as ih =>
    have ha : K (entry step s a) := hok _ (List.mem_cons_self ..)
    have htail : ∀ e ∈ trace step (step s a).2 as, K e :=
      fun e he => hok e (List.mem_cons_of_mem _ he)
    exact List.Pairwise.cons
      (later _ as _ (hinv s a hs ha) (hleave s a hs ha) htail) (ih (hinv s a hs ha) htail)

lemma monotone_of {I : σ → Prop} {K : Entry σ α β → Prop} {R : σ → σ → Prop}
    (hrefl : ∀ s, R s s) (htrans : ∀ a b c, R a b → R b c → R a c)
    (hinv : ∀ s a, I s → K (entry step s a) → I (step s a).2)
    (hstep : ∀ s a, I s → K (entry step s a) → R s (step s a).2)
    {s : σ} {as : List α} (hs : I s) (hok : ∀ e ∈ trace step s as, K e) :
    R s (final step s as) := by
  induction as generalizing s with
  | nil => exact hrefl s
  | cons a as ih =>
    have ha : K (entry step s a) := hok _ (List.mem_cons_self ..)
    exact htrans _ _ _ (hstep s a hs ha)
      (ih (hinv s a hs ha) fun e he => hok e (List.mem_cons_of_mem _ he))

lemma history_of {P : List (Entry σ α β) → σ → Prop} {K : Entry σ α β → Prop}
    (hstep : ∀ es s a, P es s → K (entry step s a) → P (es ++ [entry step s a]) (step s a).2)
    {s : σ} {as : List α} (hs : P [] s) (hok : ∀ e ∈ trace step s as, K e) :
    P (trace step s as) (final step s as) := by
  have later : ∀ (as : List α) (es : List (Entry σ α β)) (s : σ), P es s →
      (∀ e ∈ trace step s as, K e) → P (es ++ trace step s as) (final step s as) := by
    intro as
    induction as with
    | nil =>
      intro es s hs _
      rwa [trace_nil, List.append_nil]
    | cons a as ih =>
      intro es s hs hok
      have ha : K (entry step s a) := hok _ (List.mem_cons_self ..)
      have hrest := ih _ _ (hstep es s a hs ha) fun e he => hok e (List.mem_cons_of_mem _ he)
      rwa [List.append_assoc, List.singleton_append] at hrest
  exact later as [] s hs hok

end Rules

lemma of_update {κ : Type u} {ν : Type v} [DecidableEq κ] {f : κ → ν} {a x : κ} {b y : ν}
    (h : Function.update f a b x = y) : x = a ∧ b = y ∨ x ≠ a ∧ f x = y := by
  by_cases hx : x = a
  · rw [hx, Function.update_self] at h
    exact .inl ⟨hx, h⟩
  · rw [Function.update_of_ne hx] at h
    exact .inr ⟨hx, h⟩

section Transactions
variable {ε : Type v} {τ : Type w}

/-- A unit of work on the tables `σ`: how it ended, and the tables as it left them. -/
abbrev Work (σ : Type u) (ε : Type v) (τ : Type w) := σ → Except ε τ × σ

def transaction (body : Work σ ε τ) : Work σ ε τ := fun s =>
  match body s with
  | (.ok a, s') => (.ok a, s')
  | (.error e, _) => (.error e, s)

lemma transaction_raises {body : Work σ ε τ} {s : σ} {e : ε} (h : (body s).1 = .error e) :
    transaction body s = (.error e, s) := by
  unfold transaction
  rcases hb : body s with ⟨_ | a, s'⟩ <;> rw [hb] at h <;> cases h
  rfl

lemma transaction_commits {body : Work σ ε τ} {s s' : σ} {a : τ} (h : body s = (.ok a, s')) :
    transaction body s = (.ok a, s') := by
  unfold transaction
  rw [h]

def atomic {ρ : Type w} (f : τ → ρ) (tx : σ → Except ε (τ × σ)) (s : σ) : Except ε ρ × σ :=
  match tx s with
  | .error error => (.error error, s)
  | .ok (a, s') => (.ok (f a), s')

section Atomic
variable {ρ : Type w} {f : τ → ρ} {tx : σ → Except ε (τ × σ)} {s : σ}

lemma atomic_ok {reply : ρ} (h : (atomic f tx s).1 = .ok reply) :
    ∃ a, tx s = .ok (a, (atomic f tx s).2) ∧ f a = reply := by
  unfold atomic at h ⊢
  rcases htx : tx s with error | ⟨a, s'⟩ <;> rw [htx] at h
  · cases h
  · exact ⟨a, rfl, Except.ok.inj h⟩

lemma atomic_error {error : ε} (h : (atomic f tx s).1 = .error error) : (atomic f tx s).2 = s := by
  unfold atomic at h ⊢
  rcases htx : tx s with error | ⟨a, s'⟩
  · rfl
  · rw [htx] at h
    cases h

lemma atomic_of_ok {a : τ} {s' : σ} (h : tx s = .ok (a, s')) : atomic f tx s = (.ok (f a), s') := by
  unfold atomic
  rw [h]

lemma atomic_keeps {P : σ → Prop} (hs : P s) (h : ∀ a s', tx s = .ok (a, s') → P s') : P (atomic f tx s).2 := by
  unfold atomic
  rcases htx : tx s with error | ⟨a, s'⟩
  · exact hs
  · exact h a s' htx

end Atomic

def require (c : Prop) [Decidable c] (error : ε) : Except ε Unit := if c then .ok () else .error error

lemma of_require {c : Prop} [Decidable c] {error : ε} {u : Unit} (h : require c error = .ok u) : c := by
  unfold require at h
  split at h
  · assumption
  · cases h

lemma require_bind {β' : Type} {c : Prop} [Decidable c] (h : c) (error : ε) (f : Unit → Except ε β') :
    (require c error >>= f) = f () := by
  unfold require
  rw [if_pos h]
  rfl

lemma ok_of_bind {α' β' : Type w} {x : Except ε α'} {f : α' → Except ε β'} {b : β'}
    (h : x >>= f = .ok b) : ∃ a, x = .ok a ∧ f a = .ok b := by
  cases x with
  | error e => cases h
  | ok a => exact ⟨a, rfl, h⟩

lemma require_iff {β' : Type} {c : Prop} [Decidable c] {error : ε} {f : Unit → Except ε β'} {b : β'} :
    (require c error >>= f) = .ok b ↔ c ∧ f () = .ok b := by
  by_cases hc : c
  · rw [require_bind hc]
    exact ⟨fun h => ⟨hc, h⟩, fun h => h.2⟩
  · constructor
    · intro h
      obtain ⟨_, hu, -⟩ := ok_of_bind h
      exact absurd (of_require hu) hc
    · exact fun h => absurd h.1 hc

lemma mapError_ok {β' : Type w} {ε' : Type v} {f : ε → ε'} {x : Except ε β'} {b : β'} : x.mapError f = .ok b ↔ x = .ok b := by
  cases x <;> simp [Except.mapError]

lemma forM_iff {β' : Type u} {f : β' → Except ε Unit} {items : List β'} : items.forM f = .ok () ↔ ∀ item ∈ items, f item = .ok () := by
  induction items with
  | nil => exact ⟨fun _ => by simp, fun _ => rfl⟩
  | cons item items ih =>
    rw [List.forall_mem_cons, ← ih]
    cases hitem : f item with
    | error e => simp [List.forM_cons, hitem, bind, Except.bind]
    | ok u => simp [List.forM_cons, hitem, bind, Except.bind]

end Transactions

section Blocks

lemma bind_ok {α β ε : Type} {x : Except ε α} {a : α} (h : x = .ok a) (f : α → Except ε β) : (x >>= f) = f a := by
  rw [h]
  rfl

lemma error_of_require {β ε : Type} {c : Prop} [Decidable c] {error error' : ε} {f : Unit → Except ε β}
    (h : (require c error >>= f) = .error error') : error' = error ∨ f () = .error error' := by
  by_cases hc : c
  · rw [require_bind hc] at h
    exact .inr h
  · unfold require at h
    rw [if_neg hc] at h
    cases h
    exact .inl rfl

lemma mem_concat {α : Type*} {xs : List α} {x a : α} : a ∈ xs ++ [x] ↔ a ∈ xs ∨ a = x := by
  rw [List.mem_append, List.mem_singleton]

lemma ok_of_map {α β ε : Type} {f : α → β} {x : Except ε α} {b : β} (h : x.map f = .ok b) : ∃ a, x = .ok a ∧ f a = b := by
  cases x with
  | error e => cases h
  | ok a => exact ⟨a, rfl, Except.ok.inj h⟩

lemma map_ok {α β ε : Type} {f : α → β} {x : Except ε α} : (∃ b, x.map f = .ok b) ↔ ∃ a, x = .ok a := by
  cases x <;> simp [Except.map]

lemma mem_of_mapM {α β : Type} {f : α → Option β} {xs : List α} {ys : List β} (h : xs.mapM f = some ys) :
    ∀ y ∈ ys, ∃ x ∈ xs, f x = some y := by
  induction xs generalizing ys with
  | nil =>
    obtain rfl := Option.some.inj h
    exact fun y hy => nomatch hy
  | cons x xs ih =>
    rw [List.mapM_cons] at h
    obtain ⟨y, hy, h⟩ := Option.bind_eq_some_iff.1 h
    obtain ⟨rest, hrest, h⟩ := Option.bind_eq_some_iff.1 h
    obtain rfl := Option.some.inj h
    intro z hz
    rcases List.mem_cons.1 hz with rfl | hz
    · exact ⟨x, List.mem_cons_self .., hy⟩
    · obtain ⟨w, hw, hz⟩ := ih hrest z hz
      exact ⟨w, List.mem_cons_of_mem _ hw, hz⟩

lemma mapM_iff {α β ε : Type} {f : α → Except ε β} {xs : List α} {ys : List β} :
    xs.mapM f = .ok ys ↔ List.Forall₂ (fun x y => f x = .ok y) xs ys := by
  constructor
  · intro h
    induction xs generalizing ys with
    | nil =>
      cases h
      exact .nil
    | cons x xs ih =>
      rw [List.mapM_cons] at h
      obtain ⟨y, hy, h⟩ := ok_of_bind h
      obtain ⟨rest, hrest, h⟩ := ok_of_bind h
      cases h
      exact .cons hy (ih hrest)
  · intro h
    induction h with
    | nil => rfl
    | cons hy _ ih =>
      rw [List.mapM_cons, bind_ok hy, bind_ok ih]
      rfl

lemma mapM_mem {α β ε : Type} {f : α → Except ε β} {xs : List α} {ys : List β} (h : xs.mapM f = .ok ys) :
    (∀ y ∈ ys, ∃ x ∈ xs, f x = .ok y) ∧ ∀ x ∈ xs, ∃ y ∈ ys, f x = .ok y := by
  have hall := mapM_iff.mp h
  clear h
  induction hall with
  | nil => simp
  | @cons x y xs ys hy _ ih =>
    constructor
    · intro z hz
      rcases List.mem_cons.mp hz with rfl | hz
      · exact ⟨x, List.mem_cons_self .., hy⟩
      · obtain ⟨x', hx', hf⟩ := ih.1 z hz
        exact ⟨x', List.mem_cons_of_mem _ hx', hf⟩
    · intro z hz
      rcases List.mem_cons.mp hz with rfl | hz
      · exact ⟨y, List.mem_cons_self .., hy⟩
      · obtain ⟨y', hy', hf⟩ := ih.2 z hz
        exact ⟨y', List.mem_cons_of_mem _ hy', hf⟩

lemma mapM_exists {α β ε : Type} {f : α → Except ε β} {xs : List α} (h : ∀ x ∈ xs, ∃ y, f x = .ok y) : ∃ ys, xs.mapM f = .ok ys := by
  induction xs with
  | nil => exact ⟨[], rfl⟩
  | cons x xs ih =>
    obtain ⟨⟨y, hy⟩, hxs⟩ := List.forall_mem_cons.mp h
    obtain ⟨ys, hys⟩ := ih hxs
    exact ⟨y :: ys, by rw [List.mapM_cons, bind_ok hy, bind_ok hys]; rfl⟩

lemma mapM_ok {α β ε : Type} {f : α → Except ε β} {g : α → β} {xs : List α} (h : ∀ x ∈ xs, f x = .ok (g x)) :
    xs.mapM f = .ok (xs.map g) :=
  mapM_iff.mpr (List.forall₂_map_right_iff.mpr (List.forall₂_same.mpr h))

lemma foldlM_keeps {α β ε : Type} {P : β → Prop} {f : β → α → Except ε β} {xs : List α} {b b' : β} (h : xs.foldlM f b = .ok b') (hb : P b)
    (hstep : ∀ x ∈ xs, ∀ b b', P b → f b x = .ok b' → P b') : P b' ∧ ∀ x ∈ xs, ∃ b b', P b ∧ f b x = .ok b' := by
  induction xs generalizing b with
  | nil =>
    cases h
    exact ⟨hb, by simp⟩
  | cons x xs ih =>
    rw [List.foldlM_cons] at h
    obtain ⟨c, hc, hrest⟩ := ok_of_bind h
    obtain ⟨hx, hxs⟩ := List.forall_mem_cons.mp hstep
    obtain ⟨hlast, hall⟩ := ih hrest (hx b c hb hc) hxs
    exact ⟨hlast, List.forall_mem_cons.mpr ⟨⟨b, c, hb, hc⟩, hall⟩⟩

end Blocks

end PromptForge.Runs
