import Mathlib.Data.List.Infix
import Mathlib.Tactic.Common

/-!
# Words replaced in a text

A word is replaced at some places of a text. Where it stands alone at each of them, the text that
comes out tells the places.
-/
namespace PromptForge.WordReplacements

variable {α : Type}

/-- From the front, with so many elements of the last word still to skip. -/
def replaceFrom (here : ℕ → Bool) (length : ℕ) (new : List α) : (skipped place : ℕ) → List α → List α
  | _, _, [] => []
  | skipped + 1, place, _ :: rest => replaceFrom here length new skipped (place + 1) rest
  | 0, place, a :: rest =>
    if here place then new ++ replaceFrom here length new (length - 1) (place + 1) rest
    else a :: replaceFrom here length new 0 (place + 1) rest

def replaceAt (here : ℕ → Bool) (length : ℕ) (new text : List α) : List α := replaceFrom here length new 0 0 text

variable {here here' : ℕ → Bool} {length skipped place : ℕ} {new text word : List α}

lemma replaceFrom_succ (a : α) (rest : List α) :
    replaceFrom here length new (skipped + 1) place (a :: rest) = replaceFrom here length new skipped (place + 1) rest := rfl

lemma replaceFrom_here (h : here place = true) (a : α) (rest : List α) :
    replaceFrom here length new 0 place (a :: rest) = new ++ replaceFrom here length new (length - 1) (place + 1) rest := by
  rw [replaceFrom, if_pos h]

lemma replaceFrom_other (h : here place = false) (a : α) (rest : List α) :
    replaceFrom here length new 0 place (a :: rest) = a :: replaceFrom here length new 0 (place + 1) rest := by
  rw [replaceFrom, if_neg (Bool.eq_false_iff.mp h)]

lemma replaceFrom_congr (h : ∀ i, place ≤ i → i < place + text.length → here i = here' i) :
    replaceFrom here length new skipped place text = replaceFrom here' length new skipped place text := by
  induction text generalizing skipped place with
  | nil => cases skipped <;> rfl
  | cons a rest ih =>
    have hrest : ∀ skipped, replaceFrom here length new skipped (place + 1) rest = replaceFrom here' length new skipped (place + 1) rest :=
      fun skipped => ih fun i hi hlt => h i (by omega) (by simp only [List.length_cons]; omega)
    cases skipped with
    | succ skipped => exact hrest skipped
    | zero =>
      unfold replaceFrom
      rw [hrest, hrest, h place (le_refl _) (by simp)]

lemma replaceFrom_shift (k : ℕ) :
    replaceFrom here length new skipped (k + place) text = replaceFrom (fun i => here (k + i)) length new skipped place text := by
  induction text generalizing skipped place with
  | nil => cases skipped <;> rfl
  | cons a rest ih =>
    have hrest : ∀ skipped, replaceFrom here length new skipped (k + place + 1) rest =
        replaceFrom (fun i => here (k + i)) length new skipped (place + 1) rest := fun skipped => @ih skipped (place + 1)
    cases skipped with
    | succ skipped => exact hrest skipped
    | zero =>
      unfold replaceFrom
      rw [hrest, hrest]

lemma replaceFrom_skipped (h : skipped ≤ text.length) :
    replaceFrom here length new skipped place text = replaceFrom here length new 0 (place + skipped) (text.drop skipped) := by
  induction skipped generalizing place text with
  | zero => rfl
  | succ skipped ih =>
    cases text with
    | nil => cases h
    | cons a rest =>
      rw [replaceFrom_succ, ih (Nat.le_of_succ_le_succ h), List.drop_succ_cons, Nat.add_right_comm]
      rfl

lemma replaceFrom_none (h : ∀ i, place ≤ i → i < place + text.length → here i = false) :
    replaceFrom here length new 0 place text = text := by
  induction text generalizing place with
  | nil => rfl
  | cons a rest ih =>
    rw [replaceFrom_other (h place (le_refl _) (by simp))]
    exact congrArg (a :: ·) (ih fun i hi hlt => h i (by omega) (by simp only [List.length_cons]; omega))

lemma replaceFrom_append {first second : List α} (hskipped : skipped ≤ first.length)
    (h : ∀ i, place ≤ i → i < place + first.length → here i = true → i + length ≤ place + first.length) :
    replaceFrom here length new skipped place (first ++ second) =
      replaceFrom here length new skipped place first ++ replaceFrom here length new 0 (place + first.length) second := by
  induction first generalizing skipped place with
  | nil =>
    obtain rfl := Nat.le_zero.mp hskipped
    rfl
  | cons a rest ih =>
    have hplace : place + (a :: rest).length = place + 1 + rest.length := by simp only [List.length_cons]; omega
    have hrest : ∀ i, place + 1 ≤ i → i < place + 1 + rest.length → here i = true → i + length ≤ place + 1 + rest.length :=
      fun i hi hlt hhere => hplace ▸ h i (by omega) (by omega) hhere
    rw [hplace]
    cases skipped with
    | succ skipped => exact ih (Nat.le_of_succ_le_succ hskipped) hrest
    | zero =>
      rw [List.cons_append]
      cases hhere : here place with
      | true =>
        have hfits := h place (le_refl _) (by omega) hhere
        rw [replaceFrom_here hhere, replaceFrom_here hhere, ih (by omega) hrest, List.append_assoc]
      | false => rw [replaceFrom_other hhere, replaceFrom_other hhere, ih (Nat.zero_le _) hrest, List.cons_append]

lemma replaceFrom_word (hword : word ≠ []) (hhere : here place = true) (rest : List α) :
    replaceFrom here word.length new 0 place (word ++ rest) = new ++ replaceFrom here word.length new 0 (place + word.length) rest := by
  obtain ⟨a, tail, rfl⟩ := List.exists_cons_of_ne_nil hword
  rw [List.cons_append]
  rw [replaceFrom_here hhere, replaceFrom_skipped (by simp)]
  congr 2
  · simp only [List.length_cons]; omega
  · simp

lemma replaceFrom_last {a : α} (hlength : 0 < length)
    (h : ∀ i, place ≤ i → i < place + (text.length + 1) → here i = true → i + length < place + (text.length + 1)) :
    replaceFrom here length new 0 place (text ++ [a]) = replaceFrom here length new 0 place text ++ [a] := by
  have hother : here (place + text.length) = false := Bool.eq_false_iff.mpr fun hhere => absurd (h _ (by omega) (by omega) hhere) (by omega)
  rw [replaceFrom_append (Nat.zero_le _) fun i hi hlt hhere => Nat.le_of_lt_succ (h i hi (by omega) hhere), replaceFrom_other hother]
  rfl

section Alone
variable [DecidableEq α] (inside : α → Bool)

/-- The word is at a place of a text and does not go on before or behind it. -/
def standsAt (word text : List α) (i : ℕ) : Bool :=
  !(text.take i).getLast?.any inside && decide (word <+: text.drop i) && !(text.drop (i + word.length)).head?.any inside

/-- No text of the new word goes on as one of the word and of what may follow it. -/
def Distinct (word new : List α) : Prop := ∀ before after, after.head?.any inside = false → new ++ before ≠ word ++ after

variable {inside} {i j : ℕ}

lemma standsAt_iff : standsAt inside word text i = true ↔
    (text.take i).getLast?.any inside = false ∧ word <+: text.drop i ∧ (text.drop (i + word.length)).head?.any inside = false := by
  simp only [standsAt, Bool.and_eq_true, Bool.not_eq_true', decide_eq_true_eq, and_assoc]

variable (hinside : ∀ a ∈ word, inside a = true)

include hinside in
lemma standsAt_head (hword : word ≠ []) (h : standsAt inside word text i = true) :
    ∃ a rest, text.drop i = a :: rest ∧ inside a = true := by
  obtain ⟨a, tail, rfl⟩ := List.exists_cons_of_ne_nil hword
  obtain ⟨-, ⟨after, hafter⟩, -⟩ := standsAt_iff.mp h
  exact ⟨a, tail ++ after, hafter.symm, hinside a List.mem_cons_self⟩

include hinside in
lemma stands_apart (hi : standsAt inside word text i = true)
    (hj : standsAt inside word text j = true) (hlt : i < j) : i + word.length ≤ j := by
  by_contra hwithin
  obtain ⟨-, ⟨after, hafter⟩, -⟩ := standsAt_iff.mp hi
  obtain ⟨hbefore, -, -⟩ := standsAt_iff.mp hj
  obtain ⟨k, rfl⟩ : ∃ k, j = i + (k + 1) := ⟨j - i - 1, by omega⟩
  have hk : k < word.length := by omega
  have hlast : text[i + k]? = some word[k] := by
    rw [← List.getElem?_drop, ← hafter, List.getElem?_append_left hk, List.getElem?_eq_getElem hk]
  have htake : (text.take (i + (k + 1))).getLast? = some word[k] := by
    rw [← Nat.add_assoc, List.take_add_one, hlast, Option.toList_some, List.getLast?_concat]
  rw [htake, Option.any_some, hinside _ (List.getElem_mem hk)] at hbefore
  cases hbefore

include hinside in
lemma not_stands_within (hi : standsAt inside word text i = true) (hlt : i < j)
    (hwithin : j < i + word.length) : standsAt inside word text j = false :=
  Bool.eq_false_iff.mpr fun hj => absurd (stands_apart hinside hi hj hlt) (Nat.not_le_of_lt hwithin)

lemma not_here (hhere : ∀ i, here i = true → standsAt inside word text i = true) (h : standsAt inside word text i = false) :
    here i = false :=
  Bool.eq_false_iff.mpr fun hhit => Bool.eq_false_iff.mp h (hhere i hhit)

include hinside in
lemma replaceFrom_kept (hword : word ≠ [])
    (hhere : ∀ i, here i = true → standsAt inside word text i = true) (hstands : standsAt inside word text place = true)
    (hkept : here place = false) :
    ∃ after, replaceFrom here word.length new 0 place (text.drop place) = word ++ after ∧ after.head?.any inside = false := by
  obtain ⟨-, ⟨tail, htail⟩, hbehind⟩ := standsAt_iff.mp hstands
  have hdrop : text.drop (place + word.length) = tail := by
    rw [← List.drop_drop, ← htail, List.drop_left]
  have hnone : ∀ i, place ≤ i → i < place + word.length → here i = false := fun i hi hlt => by
    rcases Nat.eq_or_lt_of_le hi with rfl | hafter
    · exact hkept
    · exact not_here hhere (not_stands_within hinside hstands hafter hlt)
  refine ⟨replaceFrom here word.length new 0 (place + word.length) tail, ?_, ?_⟩
  · rw [← htail, replaceFrom_append (Nat.zero_le _) fun i hi hlt hhit => absurd hhit (Bool.eq_false_iff.mp (hnone i hi hlt)), replaceFrom_none hnone]
  · rw [hdrop] at hbehind
    cases tail with
    | nil => rfl
    | cons d tail =>
      have hother : here (place + word.length) = false := by
        refine not_here hhere (Bool.eq_false_iff.mpr fun hbegins => ?_)
        obtain ⟨a, rest, hhead, ha⟩ := standsAt_head hinside hword hbegins
        rw [hdrop] at hhead
        obtain ⟨rfl, -⟩ := List.cons.inj hhead
        simp [ha] at hbehind
      rw [replaceFrom_other hother]
      exact hbehind

include hinside in
lemma replaceFrom_unique (hword : word ≠ []) (hdistinct : Distinct inside word new)
    (hhere : ∀ i, here i = true → standsAt inside word text i = true)
    (hhere' : ∀ i, here' i = true → standsAt inside word text i = true)
    (h : replaceFrom here word.length new skipped place (text.drop place) = replaceFrom here' word.length new skipped place (text.drop place)) :
    ∀ i, place + skipped ≤ i → i < text.length → here i = here' i := by
  induction hsize : text.length - place generalizing skipped place with
  | zero =>
    intro i hi hlt
    omega
  | succ size ih =>
    have hplace : place < text.length := by omega
    rw [List.drop_eq_getElem_cons hplace] at h
    cases skipped with
    | succ skipped =>
      intro i hi hlt
      exact ih h (by omega) i (by omega) hlt
    | zero =>
      have hdiffer : ∀ {here here' : ℕ → Bool}, (∀ i, here i = true → standsAt inside word text i = true) →
          (∀ i, here' i = true → standsAt inside word text i = true) → here place = true → here' place = false →
          replaceFrom here word.length new 0 place (text[place] :: text.drop (place + 1)) ≠
            replaceFrom here' word.length new 0 place (text[place] :: text.drop (place + 1)) := by
        intro here here' hhere hhere' hhit hmiss hsame
        rw [replaceFrom_here hhit, ← List.drop_eq_getElem_cons hplace] at hsame
        obtain ⟨after, hkept, hafter⟩ := replaceFrom_kept hinside hword hhere' (hhere place hhit) hmiss
        exact hdistinct _ after hafter (hsame.trans hkept)
      cases hhit : here place with
      | true =>
        cases hhit' : here' place with
        | false => exact absurd h (hdiffer hhere hhere' hhit hhit')
        | true =>
          rw [replaceFrom_here hhit, replaceFrom_here hhit', List.append_cancel_left_eq] at h
          have hlength : 0 < word.length := List.length_pos_iff.mpr hword
          intro i hi hlt
          by_cases hwithin : place + word.length ≤ i
          · exact ih h (by omega) i (by omega) hlt
          · rcases Nat.eq_or_lt_of_le hi with rfl | hafter
            · rw [Nat.add_zero, hhit, hhit']
            · have hnot := not_stands_within hinside (hhere' place hhit') hafter (Nat.lt_of_not_le hwithin)
              rw [not_here hhere hnot, not_here hhere' hnot]
      | false =>
        cases hhit' : here' place with
        | true => exact absurd h.symm (hdiffer hhere' hhere hhit' hhit)
        | false =>
          rw [replaceFrom_other hhit, replaceFrom_other hhit'] at h
          intro i hi hlt
          rcases Nat.eq_or_lt_of_le hi with rfl | hafter
          · rw [Nat.add_zero, hhit, hhit']
          · exact ih (List.cons.inj h).2 (by omega) i (by omega) hlt

include hinside in
lemma replaceAt_eq_iff (hword : word ≠ []) (hdistinct : Distinct inside word new)
    (hhere : ∀ i, here i = true → standsAt inside word text i = true)
    (hhere' : ∀ i, here' i = true → standsAt inside word text i = true) :
    replaceAt here word.length new text = replaceAt here' word.length new text ↔
      ∀ i, standsAt inside word text i = true → here i = here' i := by
  have hbound : ∀ i, standsAt inside word text i = true → i < text.length := fun i hi => by
    obtain ⟨a, rest, hdrop, -⟩ := standsAt_head hinside hword hi
    by_contra hge
    rw [List.drop_eq_nil_of_le (Nat.le_of_not_lt hge)] at hdrop
    cases hdrop
  constructor
  · intro h i hi
    have hsame : replaceFrom here word.length new 0 0 (text.drop 0) = replaceFrom here' word.length new 0 0 (text.drop 0) := h
    exact replaceFrom_unique hinside hword hdistinct hhere hhere' hsame i (Nat.zero_le i) (hbound i hi)
  · intro h
    refine replaceFrom_congr fun i _ _ => ?_
    cases hstands : standsAt inside word text i with
    | true => exact h i hstands
    | false => rw [not_here hhere hstands, not_here hhere' hstands]

include hinside in
lemma stands_of_kept (hword : word ≠ [])
    (hhere : ∀ i, here i = true → standsAt inside word text i = true) (hstands : standsAt inside word text place = true)
    (hkept : here place = false) : ∃ j, standsAt inside word (replaceAt here word.length new text) j = true := by
  obtain ⟨hbefore, -, -⟩ := standsAt_iff.mp hstands
  have hlt : place < text.length := by
    obtain ⟨a, rest, hdrop, -⟩ := standsAt_head hinside hword hstands
    by_contra hge
    rw [List.drop_eq_nil_of_le (Nat.le_of_not_lt hge)] at hdrop
    cases hdrop
  have hlength : (text.take place).length = place := List.length_take_of_le hlt.le
  have hfits : ∀ i, 0 ≤ i → i < 0 + place → here i = true → i + word.length < 0 + place := fun i _ hi hhit => by
    rw [Nat.zero_add] at hi ⊢
    refine lt_of_le_of_ne (stands_apart hinside (hhere i hhit) hstands hi) fun hends => ?_
    obtain ⟨-, ⟨tail, htail⟩, -⟩ := standsAt_iff.mp (hhere i hhit)
    rw [← hends, List.take_add, ← htail, List.take_left, List.getLast?_append_of_ne_nil _ hword, List.getLast?_eq_some_getLast hword,
      Option.any_some, hinside _ (List.getLast_mem hword)] at hbefore
    cases hbefore
  obtain ⟨after, hafter, hbehind⟩ := @replaceFrom_kept _ here place new text word _ inside hinside hword hhere hstands hkept
  have hparts : replaceAt here word.length new text = replaceFrom here word.length new 0 0 (text.take place) ++ (word ++ after) := by
    unfold replaceAt
    conv_lhs => rw [← List.take_append_drop place text]
    rw [replaceFrom_append (Nat.zero_le _) fun i hi hlt hhit => by rw [hlength] at hlt ⊢; exact (hfits i hi hlt hhit).le, hlength, Nat.zero_add, hafter]
  have hfront : (replaceFrom here word.length new 0 0 (text.take place)).getLast?.any inside = false := by
    rcases List.eq_nil_or_concat (text.take place) with hnil | ⟨front, d, hfront⟩
    · rw [hnil]
      rfl
    · rw [hfront, List.concat_eq_append] at hbefore
      rw [hfront, List.length_concat] at hlength
      rw [hfront, List.concat_eq_append, replaceFrom_last (List.length_pos_iff.mpr hword) fun i hi hlt hhit => by
        rw [hlength] at hlt ⊢
        exact hfits i hi hlt hhit]
      simpa using hbefore
  refine ⟨(replaceFrom here word.length new 0 0 (text.take place)).length, standsAt_iff.mpr ?_⟩
  rw [hparts, List.take_left, List.drop_left, List.drop_length_add_append, List.drop_left]
  exact ⟨hfront, List.prefix_append .., hbehind⟩

end Alone

end PromptForge.WordReplacements
