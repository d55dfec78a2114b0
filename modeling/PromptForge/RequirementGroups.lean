import PromptForge.TaskContractLaws

/-!
# The groups of a request

Each line of a request goes to one requirement or to the context of the request, in order. The
groups of a section are merged where they are more than 64.
-/
namespace PromptForge.TaskContracts
open Regex Runs

/-- The third list has the elements of the first two, each in their order. -/
inductive Interleaved {α : Type} : List α → List α → List α → Prop
  | nil : Interleaved [] [] []
  | first {x : α} {xs ys zs : List α} (h : Interleaved xs ys zs) : Interleaved (x :: xs) ys (x :: zs)
  | second {y : α} {xs ys zs : List α} (h : Interleaved xs ys zs) : Interleaved xs (y :: ys) (y :: zs)

/-- Texts that are made of lines: each line in one of them, in order. -/
def Pieces (lines : List Line) (texts : List (List Char)) : Prop :=
  ∃ parts : List (List Line), parts.flatten = lines ∧ (∀ part ∈ parts, part ≠ []) ∧ texts = parts.map joinLines

def Complete (lines : List Line) (texts : List (List Char)) (context : List Line) : Prop :=
  ∃ kept, Interleaved kept context lines ∧ Pieces kept texts

lemma Pieces.append {xs ys : List Line} {texts others : List (List Char)} (h : Pieces xs texts) (h' : Pieces ys others) :
    Pieces (xs ++ ys) (texts ++ others) := by
  obtain ⟨parts, rfl, hne, rfl⟩ := h
  obtain ⟨later, rfl, hne', rfl⟩ := h'
  exact ⟨parts ++ later, List.flatten_append, fun part hpart => (List.mem_append.mp hpart).elim (hne part) (hne' part), List.map_append.symm⟩

section
variable (u : Unicode)

lemma flatten_groupLines (fenced : Option Char) (current lines : List Line) :
    (groupLines u fenced current lines).flatten = current ++ lines := by
  induction lines generalizing fenced current with
  | nil =>
    rw [groupLines]
    split
    · rename_i hempty
      simp [List.isEmpty_iff.mp hempty]
    · simp
  | cons line rest ih =>
    simp only [groupLines]
    split
    · rw [List.flatten_cons, ih]
      rfl
    · rw [ih, List.append_assoc]
      rfl

lemma groupLines_ne_nil (fenced : Option Char) (current lines : List Line) : ∀ part ∈ groupLines u fenced current lines, part ≠ [] := by
  induction lines generalizing fenced current with
  | nil =>
    rw [groupLines]
    split
    · simp
    · rename_i hne
      intro part hpart
      rw [List.mem_singleton.mp hpart]
      simpa using hne
  | cons line rest ih =>
    simp only [groupLines]
    split
    · rename_i hstarts
      refine List.forall_mem_cons.mpr ⟨?_, ih _ _⟩
      intro hnil
      simp [startsGroup, hnil] at hstarts
    · exact ih _ _

/-- The lines at which a group begins, `current` being the group before them. -/
def groupStarts : Option Char → List Line → List Line → ℕ
  | _, _, [] => 0
  | fenced, current, line :: rest =>
    let fence := fence? line
    if current = [] ∨ (fenced = none ∧ fence = none ∧ startsGroup u current line = true) then
      groupStarts (fencedAfter fenced fence) [line] rest + 1
    else groupStarts (fencedAfter fenced fence) (current ++ [line]) rest

lemma length_groupLines (fenced : Option Char) (current lines : List Line) :
    (groupLines u fenced current lines).length = (if current = [] then 0 else 1) + groupStarts u fenced current lines := by
  induction lines generalizing fenced current with
  | nil =>
    simp only [groupLines, groupStarts, List.isEmpty_iff]
    split <;> rfl
  | cons line rest ih =>
    simp only [groupLines, groupStarts]
    by_cases hempty : current = []
    · have hnot : startsGroup u current line = false := by simp [startsGroup, hempty]
      rw [if_neg (by simp [hnot]), if_pos (Or.inl hempty), ih, hempty]
      simp
      omega
    · by_cases hstarts : fenced = none ∧ fence? line = none ∧ startsGroup u current line = true
      · rw [if_pos hstarts, if_pos (Or.inr hstarts), List.length_cons, ih, if_neg hempty, if_neg (List.cons_ne_nil _ _)]
        omega
      · rw [if_neg hstarts, if_neg (not_or.mpr ⟨hempty, hstarts⟩), ih, if_neg (by simp), if_neg hempty]

end

lemma leastPair_lt (groups : List (List Char)) (h : 2 ≤ groups.length) : leastPair groups + 2 ≤ groups.length := by
  induction groups with
  | nil => simp at h
  | cons a rest ih =>
    match rest, ih with
    | [], _ => simp at h
    | [b], _ => simp [leastPair]
    | b :: c :: rest, ih =>
      have hlater := ih (by simp)
      simp only [leastPair, List.length_cons] at hlater ⊢
      split <;> omega

lemma joinLines_append {xs ys : List Line} (hxs : xs ≠ []) (hys : ys ≠ []) : joinLines [joinLines xs, joinLines ys] = joinLines (xs ++ ys) := by
  induction xs with
  | nil => exact absurd rfl hxs
  | cons x xs ih =>
    cases xs with
    | nil => simp [joinLines, List.intercalate_cons_of_ne_nil hys]
    | cons x' xs =>
      have hrest := ih (List.cons_ne_nil _ _)
      simp only [joinLines, List.cons_append, List.intercalate_cons_cons, List.intercalate_singleton] at hrest ⊢
      rw [← hrest]
      simp

lemma Pieces.mergePair {lines : List Line} {texts : List (List Char)} (h : Pieces lines texts) (htwo : 2 ≤ texts.length) :
    Pieces lines (mergePair texts) ∧ (mergePair texts).length + 1 = texts.length := by
  obtain ⟨parts, rfl, hne, rfl⟩ := h
  have hbound := leastPair_lt _ htwo
  simp only [TaskContracts.mergePair]
  generalize leastPair (parts.map joinLines) = i at hbound
  rw [List.length_map] at hbound
  obtain ⟨before, a, b, after, rfl, rfl⟩ : ∃ before a b after, parts = before ++ a :: b :: after ∧ before.length = i := by
    have hsplit := List.take_append_drop i parts
    have hlength := @List.length_drop _ i parts
    match hdrop : parts.drop i with
    | [] => rw [hdrop, List.length_nil] at hlength; omega
    | [_] => rw [hdrop, List.length_singleton] at hlength; omega
    | a :: b :: after =>
      rw [hdrop] at hsplit
      exact ⟨_, a, b, after, hsplit.symm, by rw [List.length_take]; omega⟩
  have ha := hne a (by simp)
  have hb := hne b (by simp)
  have hmerged : ((before ++ a :: b :: after).map joinLines).take before.length ++
      joinLines ((((before ++ a :: b :: after).map joinLines).drop before.length).take 2) ::
        ((before ++ a :: b :: after).map joinLines).drop (before.length + 2) = (before ++ (a ++ b) :: after).map joinLines := by
    have hlength : (before.map joinLines).length = before.length := List.length_map _
    rw [List.map_append, ← hlength, List.take_left, List.drop_left, List.drop_length_add_append]
    simp [joinLines_append ha hb]
  rw [hmerged]
  refine ⟨⟨_, by simp, fun part hpart => ?_, rfl⟩, by simp; omega⟩
  rw [List.mem_append, List.mem_cons] at hpart
  obtain hin | rfl | hin := hpart
  · exact hne part (List.mem_append_left _ hin)
  · simp [ha]
  · exact hne part (by simp [hin])

lemma Pieces.mergeGroups {lines : List Line} {texts : List (List Char)} (h : Pieces lines texts) {n : ℕ} (hn : texts.length ≤ n + 64) :
    Pieces lines (mergeGroups n texts) ∧ (mergeGroups n texts).length = min 64 texts.length := by
  induction n generalizing texts with
  | zero => exact ⟨h, by rw [TaskContracts.mergeGroups]; omega⟩
  | succ n ih =>
    rw [TaskContracts.mergeGroups]
    split
    · obtain ⟨hpieces, hlength⟩ := h.mergePair (by omega)
      obtain ⟨hall, hcount⟩ := ih hpieces (by omega)
      exact ⟨hall, by omega⟩
    · exact ⟨h, by omega⟩

lemma logicalRequirementGroups_pieces (u : Unicode) (lines : List Line) :
    Pieces lines (logicalRequirementGroups u lines) ∧ (logicalRequirementGroups u lines).length = min 64 (groupStarts u none [] lines) := by
  have hpieces : Pieces lines ((groupLines u none [] lines).map joinLines) :=
    ⟨_, flatten_groupLines u none [] lines, groupLines_ne_nil u none [] lines, rfl⟩
  obtain ⟨hall, hcount⟩ := @Pieces.mergeGroups _ _ hpieces ((groupLines u none [] lines).map joinLines).length (by omega)
  refine ⟨hall, hcount.trans ?_⟩
  rw [List.length_map, length_groupLines, if_pos rfl, Nat.zero_add]

section
variable (u : Unicode)

/-- The lines between the labels; `lines` is the open section. -/
def sectionsOf : Option Char → List Line → List Line → List (List Line)
  | _, lines, [] => [lines]
  | fenced, lines, line :: rest =>
    let fence := fence? line
    if fenced = none ∧ fence = none ∧ fullMatch label (stripped line) = true then lines :: sectionsOf (fencedAfter fenced fence) [] rest
    else sectionsOf (fencedAfter fenced fence) (lines ++ [line]) rest

def groupCount (lines : List Line) : ℕ := ((sectionsOf none [] lines).map fun part => min 64 (groupStarts u none [] part)).sum

lemma requirementContent_complete (fenced : Option Char) (part lines : List Line) :
    (∃ kept, Interleaved kept (requirementContent u fenced part lines).2 lines ∧
      Pieces (part ++ kept) (requirementContent u fenced part lines).1) ∧
    (requirementContent u fenced part lines).1.length =
      ((sectionsOf fenced part lines).map fun part => min 64 (groupStarts u none [] part)).sum := by
  induction lines generalizing fenced part with
  | nil =>
    obtain ⟨hpieces, hlength⟩ := logicalRequirementGroups_pieces u part
    refine ⟨⟨[], .nil, ?_⟩, ?_⟩
    · rwa [List.append_nil]
    · simp [requirementContent, sectionsOf, hlength]
  | cons line rest ih =>
    simp only [requirementContent, sectionsOf]
    split
    · obtain ⟨⟨kept, hkept, hlater⟩, hcount⟩ := ih (fencedAfter fenced (fence? line)) []
      obtain ⟨hpieces, hlength⟩ := logicalRequirementGroups_pieces u part
      exact ⟨⟨kept, hkept.second, hpieces.append hlater⟩, by rw [List.length_append, List.map_cons, List.sum_cons, hlength, hcount]⟩
    · obtain ⟨⟨kept, hkept, hlater⟩, hcount⟩ := ih (fencedAfter fenced (fence? line)) (part ++ [line])
      rw [List.append_assoc] at hlater
      exact ⟨⟨line :: kept, hkept.first, hlater⟩, hcount⟩

end

variable {host : Host} {call : Call} {c : Contract}

lemma contents_create (h : createTaskContract host call = .ok c) :
    c.requirements.map Requirement.text = (content host call.request).1 ∧ c.requestContext = (content host call.request).2 := by
  obtain ⟨_, -, h⟩ := ok_of_bind h
  obtain ⟨root, -, h⟩ := ok_of_bind h
  cases Except.ok.inj h
  exact ⟨List.ext_getElem (by simp [requested]) fun i _ _ => by simp [requested], rfl⟩

/-- No line of a request is lost, and its requirements are at most 64 exactly where the groups of
    its sections are, each section taken as at most 64. -/
theorem requirements_complete (host : Host) :
    (∀ lines, Complete lines (requirementContent host.unicode none [] lines).1 (requirementContent host.unicode none [] lines).2) ∧
    ∀ call c, createTaskContract host call = .ok c →
      ((Complete (partitionRequest host call.request).1 (c.requirements.map Requirement.text) c.requestContext ∧
        c.requirements.length ≤ 64) ↔ groupCount host.unicode (partitionRequest host call.request).1 ≤ 64) := by
  have hlines : ∀ lines, Complete lines (requirementContent host.unicode none [] lines).1 (requirementContent host.unicode none [] lines).2 := by
    intro lines
    obtain ⟨⟨kept, hkept, hpieces⟩, -⟩ := requirementContent_complete host.unicode none [] lines
    exact ⟨kept, hkept, hpieces⟩
  refine ⟨hlines, fun call c h => ?_⟩
  obtain ⟨htexts, hcontext⟩ := contents_create h
  obtain ⟨-, hcount⟩ := requirementContent_complete host.unicode none [] (partitionRequest host call.request).1
  have hlength : c.requirements.length = groupCount host.unicode (partitionRequest host call.request).1 := by
    rw [groupCount, ← hcount, ← List.length_map Requirement.text, htexts]
    rfl
  rw [htexts, hcontext, hlength, and_iff_right]
  exact hlines _

theorem requirements_complete_aa : (boardContract "aa".toList).requirements.length ≤ 64 :=
  (((requirements_complete boardHost).2 (ask "aa".toList) _ (create_boardContract (by decide))).mpr (by decide +kernel)).2

/-- The bound is that of a section, and a second section has one more. -/
theorem sections_exceed : ¬ ∀ (host : Host) (call : Call) (c : Contract), createTaskContract host call = .ok c →
    Complete (partitionRequest host call.request).1 (c.requirements.map Requirement.text) c.requestContext ∧ c.requirements.length ≤ 64 := by
  intro hclaim
  have hfew := (hclaim boardHost (ask sections) _ (create_boardContract (by decide +kernel))).2
  have hmany : (boardContract sections).requirements.length = 65 := by decide +kernel
  omega

end PromptForge.TaskContracts
