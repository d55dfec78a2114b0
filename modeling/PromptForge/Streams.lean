import Mathlib.Tactic.Common

/-!
# Streams that arrive in pieces

A consumer takes a piece of a stream in a state, gives some outputs and goes on in another
state.
-/
namespace PromptForge.Streams

variable {α β σ : Type*} (feed : σ → List α → List β × σ)

def feedAll : σ → List (List α) → List β × σ
  | s, [] => ([], s)
  | s, piece :: pieces => ((feed s piece).1 ++ (feedAll (feed s piece).2 pieces).1, (feedAll (feed s piece).2 pieces).2)

def singly (s : σ) (stream : List α) : List β × σ := feedAll feed s (stream.map fun a => [a])

@[simp] lemma feedAll_nil (s : σ) : feedAll feed s [] = ([], s) := rfl

@[simp] lemma singly_nil (s : σ) : singly feed s [] = ([], s) := rfl

lemma feedAll_append (s : σ) (as bs : List (List α)) :
    feedAll feed s (as ++ bs) =
      ((feedAll feed s as).1 ++ (feedAll feed (feedAll feed s as).2 bs).1, (feedAll feed (feedAll feed s as).2 bs).2) := by
  induction as generalizing s with
  | nil => rfl
  | cons a as ih => simp only [List.cons_append, feedAll, ih, List.append_assoc]

lemma singly_append (s : σ) (as bs : List α) :
    singly feed s (as ++ bs) =
      ((singly feed s as).1 ++ (singly feed (singly feed s as).2 bs).1, (singly feed (singly feed s as).2 bs).2) := by
  rw [singly, List.map_append, feedAll_append]
  rfl

lemma singly_cons (s : σ) (a : α) (bs : List α) :
    singly feed s (a :: bs) = ((feed s [a]).1 ++ (singly feed (feed s [a]).2 bs).1, (singly feed (feed s [a]).2 bs).2) := rfl

lemma flatten_singles (stream : List α) : (stream.map fun a => [a]).flatten = stream := by
  induction stream with
  | nil => rfl
  | cons a as ih => rw [List.map_cons, List.flatten_cons, ih, List.singleton_append]

lemma feedAll_eq_singly {Fits : List α → Prop} {Good : σ → List α → Prop}
    (h : ∀ s piece rest, Fits piece → Good s (piece ++ rest) →
      feed s piece = singly feed s piece ∧ Good (singly feed s piece).2 rest)
    {s : σ} {pieces : List (List α)} (hfits : ∀ piece ∈ pieces, Fits piece) (hgood : Good s pieces.flatten) :
    feedAll feed s pieces = singly feed s pieces.flatten := by
  induction pieces generalizing s with
  | nil => rfl
  | cons piece pieces ih =>
    rw [List.flatten_cons] at hgood ⊢
    obtain ⟨heq, hrest⟩ := h s piece pieces.flatten (hfits piece List.mem_cons_self) hgood
    have hlater := ih (fun p hp => hfits p (List.mem_cons_of_mem _ hp)) hrest
    rw [singly_append, feedAll, heq, hlater]

lemma feedAll_part {τ : Type*} {feed : σ → List α → List β × σ} {feed' : τ → List α → List β × τ} {part : σ → τ}
    (h : ∀ s piece, feed' (part s) piece = ((feed s piece).1, part (feed s piece).2)) (s : σ) (pieces : List (List α)) :
    feedAll feed' (part s) pieces = ((feedAll feed s pieces).1, part (feedAll feed s pieces).2) := by
  induction pieces generalizing s with
  | nil => rfl
  | cons piece pieces ih => simp only [feedAll, h, ih]

lemma feedAll_keeps {Fits : List α → Prop} {Inv : σ → Prop} (h : ∀ s piece, Fits piece → Inv s → Inv (feed s piece).2)
    {s : σ} {pieces : List (List α)} (hfits : ∀ piece ∈ pieces, Fits piece) (hs : Inv s) : Inv (feedAll feed s pieces).2 := by
  induction pieces generalizing s with
  | nil => exact hs
  | cons piece pieces ih =>
    exact ih (fun p hp => hfits p (List.mem_cons_of_mem _ hp)) (h s piece (hfits piece List.mem_cons_self) hs)

end PromptForge.Streams
