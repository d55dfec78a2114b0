import Mathlib.Tactic
import PromptForge.Runs

/-!
# Lines with bounded service

An observer of a system sees, for every counter, the places that wait in line
and the places being served. Places are numbered as they are handed out.
-/
namespace PromptForge.Queueing
open Runs

universe u v w x y
variable {σ : Type u} {α : Type v} {β : Type w} {κ : Type x} {π : Type y}

structure View (σ : Type u) (κ : Type x) (π : Type y) where
  waiting : σ → κ → List π
  holding : σ → κ → List π
  rank : π → ℕ
  /-- The number of the next place. -/
  next : σ → ℕ

variable (view : View σ κ π)

structure Fair (limit : κ → ℕ) (finished : σ → π → Prop) (es : List (Entry σ α β)) : Prop where
  capacity : ∀ e ∈ es, ∀ k, (view.holding e.after k).length ≤ limit k
  /-- Who was not there when `p` already waited is not served while `p` waits. -/
  inOrder : es.Pairwise fun e e' => ∀ k p q, p ∈ view.waiting e.after k →
    q ∉ view.waiting e.after k → q ∉ view.holding e.after k →
      p ∈ view.waiting e'.after k → q ∉ view.holding e'.after k
  noneKept : ∀ e ∈ es, ∀ k p, finished e.after p →
    p ∉ view.waiting e.after k ∧ p ∉ view.holding e.after k

def Numbered (s : σ) : Prop :=
  ∀ k p, p ∈ view.waiting s k ∨ p ∈ view.holding s k → view.rank p < view.next s

structure Orderly (s s' : σ) : Prop where
  next_le : view.next s ≤ view.next s'
  waits : ∀ k p, p ∈ view.waiting s' k → p ∈ view.waiting s k ∨ view.next s ≤ view.rank p
  serves : ∀ k q, q ∈ view.holding s' k → q ∈ view.holding s k ∨
    ((q ∈ view.waiting s k ∨ view.next s ≤ view.rank q) ∧
      ∀ p ∈ view.waiting s' k, view.rank q < view.rank p)

variable {view} in
lemma orderly_of_subset {s s' : σ} (hnext : view.next s' = view.next s)
    (hw : ∀ k, view.waiting s' k ⊆ view.waiting s k) (hh : ∀ k, view.holding s' k ⊆ view.holding s k) :
    Orderly view s s' where
  next_le := hnext.ge
  waits k _ hp := .inl (hw k hp)
  serves k _ hq := .inl (hh k hq)

variable {view} in
lemma orderly_trans {a b c : σ} (hb : Numbered view b) (hab : Orderly view a b)
    (hbc : Orderly view b c) : Orderly view a c where
  next_le := hab.next_le.trans hbc.next_le
  waits k p hp := by
    rcases hbc.waits k p hp with hp | hp
    · exact hab.waits k p hp
    · exact .inr (hab.next_le.trans hp)
  serves k q hq := by
    rcases hbc.serves k q hq with hq | ⟨hq, hbehind⟩
    · rcases hab.serves k q hq with hold | ⟨hwas, hbehind⟩
      · exact .inl hold
      · refine .inr ⟨hwas, fun p hp => ?_⟩
        rcases hbc.waits k p hp with hp | hp
        · exact hbehind p hp
        · exact lt_of_lt_of_le (hb k q (.inr hq)) hp
    · refine .inr ⟨?_, hbehind⟩
      rcases hq with hq | hq
      · exact hab.waits k q hq
      · exact .inr (hab.next_le.trans hq)

/-- What has become of the line since `t`. -/
structure Since (t s : σ) : Prop where
  next_le : view.next t ≤ view.next s
  waits : ∀ k p, p ∈ view.waiting s k → p ∈ view.waiting t k ∨ view.next t ≤ view.rank p
  serves : ∀ k q, q ∈ view.holding s k → q ∈ view.waiting t k ∨ q ∈ view.holding t k ∨
    ∀ p ∈ view.waiting s k, view.next t ≤ view.rank p

variable {view}

lemma since_refl (s : σ) : Since view s s where
  next_le := le_refl _
  waits _ _ hp := .inl hp
  serves _ _ hq := .inr (.inl hq)

lemma since_step {t s s' : σ} (h : Since view t s) (ho : Orderly view s s') : Since view t s' where
  next_le := h.next_le.trans ho.next_le
  waits k p hp := by
    rcases ho.waits k p hp with hp | hp
    · exact h.waits k p hp
    · exact .inr (h.next_le.trans hp)
  serves k q hq := by
    rcases ho.serves k q hq with hq | ⟨hq, hbehind⟩
    · rcases h.serves k q hq with hw | hh | hnew
      · exact .inl hw
      · exact .inr (.inl hh)
      · refine .inr (.inr fun p hp => ?_)
        rcases ho.waits k p hp with hp | hp
        · exact hnew p hp
        · exact h.next_le.trans hp
    · rcases hq.imp_left (h.waits k q) with (hw | hnew) | hnew
      · exact .inl hw
      · exact .inr (.inr fun p hp => hnew.trans (hbehind p hp).le)
      · exact .inr (.inr fun p hp => (h.next_le.trans hnew).trans (hbehind p hp).le)

lemma inOrder_of {step : σ → α → β × σ} {Inv : σ → Prop} {Ok : Entry σ α β → Prop}
    (hinv : ∀ s a, Inv s → Ok (entry step s a) → Inv (step s a).2)
    (hnum : ∀ s, Inv s → Numbered view s)
    (hstep : ∀ s a, Inv s → Ok (entry step s a) → Orderly view s (step s a).2)
    {s : σ} {as : List α} (hs : Inv s) (hok : ∀ e ∈ trace step s as, Ok e) :
    (trace step s as).Pairwise fun e e' => ∀ k p q, p ∈ view.waiting e.after k →
      q ∉ view.waiting e.after k → q ∉ view.holding e.after k →
        p ∈ view.waiting e'.after k → q ∉ view.holding e'.after k := by
  refine @pairwise_of _ _ _ step Inv Ok (fun e t => Numbered view e.after ∧ Since view e.after t) _
    hinv (fun s a hs ha => ⟨hnum _ (hinv s a hs ha), since_refl _⟩)
    (fun e s a hs ha h => ⟨h.1, since_step h.2 (hstep s a hs ha)⟩) ?_ s as hs hok
  intro e s a hs ha h k p q hp hqw hqh hp' hq'
  obtain ⟨hbelow, hsince⟩ := h
  rcases (since_step hsince (hstep s a hs ha)).serves k q hq' with hw | hh | hnew
  · exact hqw hw
  · exact hqh hh
  · exact absurd (hbelow k p (.inl hp)) (not_lt.2 (hnew p hp'))

end PromptForge.Queueing
