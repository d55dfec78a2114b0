import Mathlib.Tactic

/-!
# Occurrences of a word

A word is counted from the front: after an occurrence the search goes on behind it. So the count
is that of occurrences which do not overlap.
-/
namespace PromptForge.Occurrences

universe u
variable {α : Type u}

def OccursAt (word text : List α) (i : ℕ) : Prop := ∃ before after, text = before ++ word ++ after ∧ before.length = i

lemma occursAt_cons {word text : List α} {c : α} {i : ℕ} : OccursAt word (c :: text) (i + 1) ↔ OccursAt word text i := by
  constructor
  · rintro ⟨before, after, htext, hlength⟩
    cases before with
    | nil => cases hlength
    | cons d before =>
      simp only [List.cons_append, List.cons.injEq] at htext
      exact ⟨before, after, htext.2, by simpa using hlength⟩
  · rintro ⟨before, after, rfl, rfl⟩
    exact ⟨c :: before, after, rfl, rfl⟩

lemma occursAt_zero {word text : List α} : OccursAt word text 0 ↔ word <+: text := by
  constructor
  · rintro ⟨before, after, rfl, hlength⟩
    rw [List.length_eq_zero_iff.mp hlength]
    exact ⟨after, by simp⟩
  · rintro ⟨after, rfl⟩
    exact ⟨[], after, by simp, rfl⟩

lemma occursAt_after {word before after : List α} {i : ℕ} :
    OccursAt word (before ++ after) (before.length + i) ↔ OccursAt word after i := by
  induction before with
  | nil => simp
  | cons c before ih =>
    have hplace : (c :: before).length + i = before.length + i + 1 := by simp; omega
    rw [hplace, List.cons_append, occursAt_cons, ih]

variable [DecidableEq α]

def findFirst (word : List α) : List α → Option (List α × List α)
  | [] => if word = [] then some ([], []) else none
  | c :: rest =>
    if word <+: c :: rest then some ([], (c :: rest).drop word.length)
    else (findFirst word rest).map fun (before, after) => (c :: before, after)

def countWithin (word : List α) : ℕ → List α → ℕ
  | 0, _ => 0
  | fuel + 1, text =>
    match findFirst word text with
    | some (_, after) => countWithin word fuel after + 1
    | none => 0

/-- The occurrences that do not overlap; a text without letters is not counted. -/
def count (word text : List α) : ℕ := countWithin word (text.length + 1) text

def replaceFirst (word replacement text : List α) : List α :=
  match findFirst word text with
  | some (before, after) => before ++ replacement ++ after
  | none => text

variable {word text before after : List α}

lemma findFirst_eq_none : findFirst word text = none ↔ ∀ i, ¬ OccursAt word text i := by
  induction text with
  | nil =>
    unfold findFirst
    by_cases hword : word = []
    · subst hword
      simp only [if_true, reduceCtorEq, false_iff, not_forall, not_not]
      exact ⟨0, occursAt_zero.mpr (List.prefix_refl _)⟩
    · simp only [if_neg hword, true_iff]
      rintro i ⟨before, after, htext, -⟩
      simp [hword] at htext
  | cons c rest ih =>
    unfold findFirst
    by_cases hhere : word <+: c :: rest
    · simp only [if_pos hhere, reduceCtorEq, false_iff, not_forall, not_not]
      exact ⟨0, occursAt_zero.mpr hhere⟩
    · rw [if_neg hhere, Option.map_eq_none_iff, ih]
      constructor
      · intro h i
        cases i with
        | zero => exact fun hzero => hhere (occursAt_zero.mp hzero)
        | succ i => exact fun hlater => h i (occursAt_cons.mp hlater)
      · exact fun h i hlater => h (i + 1) (occursAt_cons.mpr hlater)

lemma findFirst_eq_some (h : findFirst word text = some (before, after)) : text = before ++ word ++ after ∧
    ∀ i, OccursAt word text i → before.length ≤ i := by
  induction text generalizing before with
  | nil =>
    unfold findFirst at h
    split at h
    · rename_i hword
      cases h
      exact ⟨by simp [hword], fun i _ => Nat.zero_le i⟩
    · cases h
  | cons c rest ih =>
    unfold findFirst at h
    split at h
    · rename_i hhere
      cases h
      obtain ⟨after, hafter⟩ := hhere
      exact ⟨by simp [← hafter], fun i _ => Nat.zero_le i⟩
    · rename_i hhere
      obtain ⟨⟨earlier, later⟩, hfirst, hsame⟩ := Option.map_eq_some_iff.mp h
      cases hsame
      obtain ⟨hrest, hleast⟩ := ih hfirst
      refine ⟨by simp [hrest], fun i hi => ?_⟩
      cases i with
      | zero => exact absurd (occursAt_zero.mp hi) hhere
      | succ i => exact Nat.succ_le_succ (hleast i (occursAt_cons.mp hi))

lemma countWithin_eq_zero {fuel : ℕ} (hfuel : 0 < fuel) : countWithin word fuel text = 0 ↔ ∀ i, ¬ OccursAt word text i := by
  cases fuel with
  | zero => cases hfuel
  | succ fuel =>
    rw [← findFirst_eq_none]
    unfold countWithin
    cases hfirst : findFirst word text with
    | none => simp
    | some parts => simp

lemma count_eq_one_iff (hword : word ≠ []) : count word text = 1 ↔
    ∃ i, OccursAt word text i ∧ ∀ k, OccursAt word text k → i ≤ k ∧ k < i + word.length := by
  unfold count countWithin
  cases hfirst : findFirst word text with
  | none =>
    have hnone := findFirst_eq_none.mp hfirst
    constructor
    · intro h
      cases h
    · rintro ⟨i, hi, -⟩
      exact absurd hi (hnone i)
  | some parts =>
    obtain ⟨before, after⟩ := parts
    obtain ⟨htext, hleast⟩ := findFirst_eq_some hfirst
    have hhere : OccursAt word text before.length := ⟨before, after, htext, rfl⟩
    have hpos : 0 < text.length := by
      rw [htext, List.length_append, List.length_append]
      have := List.length_pos_iff.mpr hword
      omega
    have hlater : ∀ i, OccursAt word text (before.length + word.length + i) ↔ OccursAt word after i := fun i => by
      have h := @occursAt_after α word (before ++ word) after i
      rwa [List.length_append, ← htext] at h
    change countWithin word text.length after + 1 = 1 ↔ _
    rw [Nat.add_eq_right, countWithin_eq_zero hpos]
    constructor
    · intro hnone
      refine ⟨before.length, hhere, fun k hk => ⟨hleast k hk, ?_⟩⟩
      by_contra hbehind
      refine hnone (k - (before.length + word.length)) ((hlater _).mp ?_)
      rwa [Nat.add_sub_cancel' (by omega)]
    · rintro ⟨i, hi, hall⟩ k hk
      have hsame : i = before.length := le_antisymm (hall _ hhere).1 (hleast i hi)
      have hwithin := (hall _ ((hlater k).mpr hk)).2
      omega

lemma replaceFirst_eq {replacement : List α} {i : ℕ} (hi : OccursAt word text i) (hall : ∀ k, OccursAt word text k → i ≤ k) :
    ∃ before after, text = before ++ word ++ after ∧ before.length = i ∧ replaceFirst word replacement text = before ++ replacement ++ after := by
  cases hfirst : findFirst word text with
  | none => exact absurd hi (findFirst_eq_none.mp hfirst i)
  | some parts =>
    obtain ⟨before, after⟩ := parts
    obtain ⟨htext, hleast⟩ := findFirst_eq_some hfirst
    refine ⟨before, after, htext, le_antisymm (hleast i hi) (hall _ ⟨before, after, htext, rfl⟩), ?_⟩
    unfold replaceFirst
    rw [hfirst]

end PromptForge.Occurrences
