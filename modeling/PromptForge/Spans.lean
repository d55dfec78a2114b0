import Mathlib.Algebra.Order.Ring.Int
import Mathlib.Data.Int.Basic
import Mathlib.Data.List.Range
import Mathlib.Tactic.Common

/-!
# Ranges cut to a size

A range of whole numbers, both ends included, is cut into ranges of a size; the last may be
shorter.
-/
namespace PromptForge.Spans

structure Span where
  first : ℤ
  last : ℤ
  deriving DecidableEq

namespace Span

def count (s : Span) : ℤ := s.last - s.first + 1

def Has (s : Span) (x : ℤ) : Prop := s.first ≤ x ∧ x ≤ s.last

instance (s : Span) (x : ℤ) : Decidable (s.Has x) := inferInstanceAs (Decidable (_ ∧ _))

/-- The cuts start at `range(first, last + 1, size)`. -/
def cut (size : ℕ) (s : Span) : List Span :=
  (List.range ((s.last - s.first) / size + 1).toNat).map fun i : ℕ =>
    ⟨s.first + size * i, min (s.first + size * i + (size - 1)) s.last⟩

variable {size : ℕ} {s t : Span}

lemma mem_cut : t ∈ s.cut size ↔ ∃ i : ℕ, (i : ℤ) < (s.last - s.first) / size + 1 ∧
    t = ⟨s.first + size * i, min (s.first + size * i + (size - 1)) s.last⟩ := by
  unfold cut
  simp only [List.mem_map, List.mem_range, Int.lt_toNat]
  constructor
  · rintro ⟨i, hi, rfl⟩
    exact ⟨i, hi, rfl⟩
  · rintro ⟨i, hi, rfl⟩
    exact ⟨i, hi, rfl⟩

lemma count_cut (h : t ∈ s.cut size) : t.count ≤ size := by
  obtain ⟨i, -, rfl⟩ := mem_cut.mp h
  simp only [count]
  omega

lemma within_of_mem_cut (h : t ∈ s.cut size) : s.first ≤ t.first ∧ t.last ≤ s.last := by
  obtain ⟨i, -, rfl⟩ := mem_cut.mp h
  have hi : (0 : ℤ) ≤ size * i := Int.mul_nonneg (Int.natCast_nonneg _) (Int.natCast_nonneg _)
  simp only
  constructor
  · omega
  · exact min_le_right ..

lemma has_cut (hsize : 0 < size) (x : ℤ) : (∃ t ∈ s.cut size, t.Has x) ↔ s.Has x := by
  have hpos : (0 : ℤ) < size := by exact_mod_cast hsize
  constructor
  · rintro ⟨t, ht, hx⟩
    have hwithin := within_of_mem_cut ht
    unfold Has at hx ⊢
    omega
  · intro hx
    unfold Has at hx
    have hdiv := Int.mul_ediv_add_emod (x - s.first) size
    have hmod := Int.emod_lt_of_pos (x - s.first) hpos
    have hmod' := Int.emod_nonneg (x - s.first) (ne_of_gt hpos)
    have hnonneg : 0 ≤ (x - s.first) / size := Int.ediv_nonneg (by omega) (by omega)
    have hmono : (x - s.first) / size ≤ (s.last - s.first) / size := Int.ediv_le_ediv hpos (by omega)
    have hcast : (((x - s.first) / size).toNat : ℤ) = (x - s.first) / size := Int.toNat_of_nonneg hnonneg
    refine ⟨_, mem_cut.mpr ⟨((x - s.first) / size).toNat, by omega, rfl⟩, ?_⟩
    unfold Has
    rw [hcast]
    simp only
    omega

end Span

end PromptForge.Spans
