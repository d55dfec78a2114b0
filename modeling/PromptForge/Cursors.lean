import Mathlib.Data.List.Pairwise
import Mathlib.Tactic.Common

/-!
# Readings that say where the next one starts

A sequence is read a piece at a time: a reading at a place may name the place of the next
one. `Followed` is the whole walk from a place, to the reading that names no other.
-/
namespace PromptForge.Cursors

variable {ρ : Type*} {read : ℕ → Option ρ} {next : ρ → Option ℕ}

inductive Followed (read : ℕ → Option ρ) (next : ρ → Option ℕ) : ℕ → List ρ → Prop
  | last {place : ℕ} {r : ρ} (hread : read place = some r) (hnext : next r = none) : Followed read next place [r]
  | step {place after : ℕ} {r : ρ} {rest : List ρ} (hread : read place = some r) (hnext : next r = some after)
      (hrest : Followed read next after rest) : Followed read next place (r :: rest)

lemma Followed.unique {place : ℕ} {rs others : List ρ} (h : Followed read next place rs)
    (hother : Followed read next place others) : others = rs := by
  induction h generalizing others with
  | last hread hnext =>
    cases hother with
    | last hread' _ => rw [Option.some.inj (hread'.symm.trans hread)]
    | step hread' hnext' _ =>
      rw [Option.some.inj (hread'.symm.trans hread), hnext] at hnext'
      cases hnext'
  | step hread hnext _ ih =>
    cases hother with
    | last hread' hnext' =>
      rw [Option.some.inj (hread'.symm.trans hread), hnext] at hnext'
      cases hnext'
    | step hread' hnext' hrest' =>
      have heq := Option.some.inj (hread'.symm.trans hread)
      rw [heq, hnext] at hnext'
      cases hnext'
      rw [heq, ih hrest']

lemma exists_followed {first bound : ℕ}
    (h : ∀ place, first ≤ place → place ≤ bound →
      ∃ r, read place = some r ∧ ∀ after, next r = some after → place < after ∧ after ≤ bound)
    {place : ℕ} (hfirst : first ≤ place) (hbound : place ≤ bound) :
    ∃ rs, Followed read next place rs ∧ rs.length ≤ bound - place + 1 := by
  induction hleft : bound - place using Nat.strongRecOn generalizing place with
  | _ left ih =>
    obtain ⟨r, hread, hforward⟩ := h place hfirst hbound
    cases hnext : next r with
    | none => exact ⟨[r], .last hread hnext, by simp⟩
    | some after =>
      obtain ⟨hlt, hle⟩ := hforward after hnext
      obtain ⟨rs, hrs, hlength⟩ := ih (bound - after) (by omega) (by omega) hle rfl
      exact ⟨r :: rs, .step hread hnext hrs, by simp only [List.length_cons]; omega⟩

end PromptForge.Cursors
