import Mathlib.Data.List.Basic
import Mathlib.Tactic.Common

/-!
# Groups of differences

A script tells how to turn one list into another, range after range. Long equal ranges
between its changes are cut down to a context of some lines, which leaves the groups that a
unified diff shows.
-/
namespace PromptForge.LineDiffs

variable {α : Type}

def slice (xs : List α) (i j : ℕ) : List α := (xs.take j).drop i

@[simp] lemma slice_self (xs : List α) (i : ℕ) : slice xs i i = [] := by simp [slice]

lemma length_slice {xs : List α} {i j : ℕ} (hj : j ≤ xs.length) : (slice xs i j).length = j - i := by
  simp only [slice, List.length_drop, List.length_take]
  omega

lemma slice_append_drop {xs : List α} {i j : ℕ} (hij : i ≤ j) : slice xs i j ++ xs.drop j = xs.drop i := by
  have hdrop : (xs.drop i).drop (j - i) = xs.drop j := by
    rw [List.drop_drop]
    congr 1
    omega
  rw [slice, List.drop_take, ← hdrop, List.take_append_drop]

lemma take_append_slice {xs : List α} {i j : ℕ} (hij : i ≤ j) : xs.take i ++ slice xs i j = xs.take j := by
  have htake : xs.take i = (xs.take j).take i := by
    rw [List.take_take]
    congr 1
    omega
  rw [slice, htake, List.take_append_drop]

lemma slice_append_slice {xs : List α} {i j k : ℕ} (hij : i ≤ j) (hjk : j ≤ k) : slice xs i j ++ slice xs j k = slice xs i k := by
  have hcut : slice (xs.take k) i j = slice xs i j := by
    rw [slice, List.take_take, Nat.min_eq_left hjk, slice]
  rw [← hcut]
  exact slice_append_drop hij

inductive Tag where
  | equal
  | replace
  | delete
  | insert
  deriving DecidableEq

/-- `(tag, i1, i2, j1, j2)` -/
structure Opcode where
  tag : Tag
  i1 : ℕ
  i2 : ℕ
  j1 : ℕ
  j2 : ℕ
  deriving DecidableEq

/-- A range of one list stands for a range of the other. -/
structure Sound (a b : List α) (c : Opcode) : Prop where
  old : c.i1 ≤ c.i2
  new : c.j1 ≤ c.j2
  kept : c.tag = .equal → slice a c.i1 c.i2 = slice b c.j1 c.j2 ∧ c.i2 - c.i1 = c.j2 - c.j1
  removed : c.tag = .delete → c.j1 = c.j2
  added : c.tag = .insert → c.i1 = c.i2

/-- Ranges that follow each other from one place of both lists to another. -/
inductive Chain (a b : List α) : ℕ → ℕ → List Opcode → ℕ → ℕ → Prop
  | nil (i j : ℕ) : Chain a b i j [] i j
  | cons {c : Opcode} {rest : List Opcode} {i j : ℕ} (sound : Sound a b c) (next : Chain a b c.i2 c.j2 rest i j) :
      Chain a b c.i1 c.j1 (c :: rest) i j

/-- What computes the script of two lists. -/
structure Matcher (α : Type) where
  opcodes : List α → List α → List Opcode
  describes : ∀ a b, Chain a b 0 0 (opcodes a b) a.length b.length
  same : ∀ a, opcodes a a = if a = [] then [] else [⟨.equal, 0, a.length, 0, a.length⟩]

variable {a b : List α} {i j i' j' : ℕ} {codes : List Opcode}

lemma Chain.le (h : Chain a b i j codes i' j') : i ≤ i' ∧ j ≤ j' := by
  induction h with
  | nil => exact ⟨Nat.le_refl _, Nat.le_refl _⟩
  | cons sound _ ih => exact ⟨Nat.le_trans sound.old ih.1, Nat.le_trans sound.new ih.2⟩

lemma Chain.of_nil (h : Chain a b i j [] i' j') : i = i' ∧ j = j' := by
  cases h
  exact ⟨rfl, rfl⟩

lemma Chain.of_cons {c : Opcode} (h : Chain a b i j (c :: codes) i' j') :
    i = c.i1 ∧ j = c.j1 ∧ Sound a b c ∧ Chain a b c.i2 c.j2 codes i' j' := by
  cases h with
  | cons sound next => exact ⟨rfl, rfl, sound, next⟩

lemma Chain.append {codes' : List Opcode} {i'' j'' : ℕ} (h : Chain a b i j codes i' j') (h' : Chain a b i' j' codes' i'' j'') :
    Chain a b i j (codes ++ codes') i'' j'' := by
  induction h with
  | nil => exact h'
  | cons sound _ ih => exact .cons sound (ih h')

lemma Chain.single {c : Opcode} (sound : Sound a b c) : Chain a b c.i1 c.j1 [c] c.i2 c.j2 := .cons sound (.nil ..)

/-- `get_grouped_opcodes` at an equal range: the lines after a change, and those before the next. -/
def Opcode.after (c : Opcode) (n : ℕ) : Opcode := { c with i2 := min c.i2 (c.i1 + n), j2 := min c.j2 (c.j1 + n) }
def Opcode.before (c : Opcode) (n : ℕ) : Opcode := { c with i1 := max c.i1 (c.i2 - n), j1 := max c.j1 (c.j2 - n) }

def cutFirst (n : ℕ) : List Opcode → List Opcode
  | [] => []
  | c :: rest => (if c.tag = .equal then c.before n else c) :: rest

def cutLast (n : ℕ) : List Opcode → List Opcode
  | [] => []
  | [c] => [if c.tag = .equal then c.after n else c]
  | c :: d :: rest => c :: cutLast n (d :: rest)

def groupsFrom (n : ℕ) (group : List Opcode) : List Opcode → List (List Opcode)
  | [] => if group ≠ [] ∧ group.map (·.tag) ≠ [.equal] then [group] else []
  | c :: rest =>
    if c.tag = .equal ∧ n + n < c.i2 - c.i1 then (group ++ [c.after n]) :: groupsFrom n [c.before n] rest
    else groupsFrom n (group ++ [c]) rest

def groupedOpcodes (n : ℕ) (codes : List Opcode) : List (List Opcode) :=
  groupsFrom n [] (cutLast n (cutFirst n (if codes = [] then [⟨.equal, 0, 1, 0, 1⟩] else codes)))

/-- `_format_range_unified` -/
def formatRange (start stop : ℕ) : List Char :=
  if stop - start = 1 then Nat.toDigits 10 (start + 1)
  else Nat.toDigits 10 (if stop - start = 0 then start else start + 1) ++ ',' :: Nat.toDigits 10 (stop - start)

def Opcode.lines (a b : List (List Char)) (c : Opcode) : List (List Char) :=
  match c.tag with
  | .equal => (slice a c.i1 c.i2).map (' ' :: ·)
  | .replace => (slice a c.i1 c.i2).map ('-' :: ·) ++ (slice b c.j1 c.j2).map ('+' :: ·)
  | .delete => (slice a c.i1 c.i2).map ('-' :: ·)
  | .insert => (slice b c.j1 c.j2).map ('+' :: ·)

def hunkHeader (first last : Opcode) : List Char :=
  ['@', '@', ' ', '-'] ++ formatRange first.i1 last.i2 ++ [' ', '+'] ++ formatRange first.j1 last.j2 ++ [' ', '@', '@']

def hunkLines (a b : List (List Char)) : List Opcode → List (List Char)
  | [] => []
  | first :: rest => hunkHeader first ((first :: rest).getLast (List.cons_ne_nil _ _)) :: (first :: rest).flatMap (Opcode.lines a b)

/-- `unified_diff(a, b, fromfile, tofile, n=n, lineterm="")` -/
def unifiedDiff (m : Matcher (List Char)) (fromfile tofile : List Char) (a b : List (List Char)) (n : ℕ) : List (List Char) :=
  let groups := groupedOpcodes n (m.opcodes a b)
  if groups = [] then []
  else (['-', '-', '-', ' '] ++ fromfile) :: (['+', '+', '+', ' '] ++ tofile) :: groups.flatMap (hunkLines a b)

structure Gap (a b : List α) (i j i' j' : ℕ) : Prop where
  old : i ≤ i'
  new : j ≤ j'
  kept : slice a i i' = slice b j j'
  length : i' - i = j' - j

/-- Groups that tell all differences behind a place of the lists. -/
inductive Covers (a b : List α) (n : ℕ) : ℕ → ℕ → List (List Opcode) → Prop
  | nil {i j : ℕ} (rest : a.drop i = b.drop j) : Covers a b n i j []
  | cons {i j i1 j1 i2 j2 : ℕ} {group : List Opcode} {groups : List (List Opcode)} (filled : group ≠ []) (gap : Gap a b i j i1 j1)
      (chain : Chain a b i1 j1 group i2 j2) (placed : i1 = 0 ∨ (n = 0 ∧ i < i1) ∨ i1 < i2) (old : i2 ≤ a.length)
      (new : j2 ≤ b.length) (next : Covers a b n i2 j2 groups) : Covers a b n i j (group :: groups)

variable {n : ℕ}

lemma Gap.refl (a b : List α) (i j : ℕ) : Gap a b i j i j := ⟨Nat.le_refl _, Nat.le_refl _, by simp, by simp⟩

lemma slice_kept {c : Opcode} (sound : Sound a b c) (htag : c.tag = .equal) {d e : ℕ} (hde : d ≤ e) (he : c.i1 + e ≤ c.i2) :
    slice a (c.i1 + d) (c.i1 + e) = slice b (c.j1 + d) (c.j1 + e) := by
  obtain ⟨hslice, hlength⟩ := sound.kept htag
  have hnew := sound.new
  have hpart : ∀ (xs : List α) (i j : ℕ), i + e ≤ j → slice xs (i + d) (i + e) = ((slice xs i j).take e).drop d := by
    intro xs i j hj
    simp only [slice, List.drop_take, List.drop_drop, List.take_take]
    congr 1
    omega
  rw [hpart a c.i1 c.i2 he, hpart b c.j1 c.j2 (by omega), hslice]

lemma min_ahead {s e : ℕ} (h : s ≤ e) (n : ℕ) : min e (s + n) = s + min n (e - s) := by omega

lemma max_behind {s e : ℕ} (h : s ≤ e) (n : ℕ) : max s (e - n) = s + (e - s - n) := by omega

lemma Sound.after {c : Opcode} (sound : Sound a b c) (htag : c.tag = .equal) (n : ℕ) : Sound a b (c.after n) := by
  obtain ⟨hslice, hlength⟩ := sound.kept htag
  have hold := sound.old
  have hnew := sound.new
  refine ⟨?_, ?_, fun _ => ⟨?_, ?_⟩, fun hdelete => ?_, fun hinsert => ?_⟩
  · simp only [Opcode.after]
    omega
  · simp only [Opcode.after]
    omega
  · simp only [Opcode.after, min_ahead hold, min_ahead hnew, ← hlength]
    exact slice_kept sound htag (Nat.zero_le _) (by omega)
  · simp only [Opcode.after]
    omega
  · exact absurd (htag.symm.trans hdelete) (by decide)
  · exact absurd (htag.symm.trans hinsert) (by decide)

lemma Sound.before {c : Opcode} (sound : Sound a b c) (htag : c.tag = .equal) (n : ℕ) : Sound a b (c.before n) := by
  obtain ⟨hslice, hlength⟩ := sound.kept htag
  have hold := sound.old
  have hnew := sound.new
  refine ⟨?_, ?_, fun _ => ⟨?_, ?_⟩, fun hdelete => ?_, fun hinsert => ?_⟩
  · simp only [Opcode.before]
    omega
  · simp only [Opcode.before]
    omega
  · have hi2 : c.i2 = c.i1 + (c.i2 - c.i1) := by omega
    have hj2 : c.j2 = c.j1 + (c.i2 - c.i1) := by omega
    simp only [Opcode.before, max_behind hold, max_behind hnew, ← hlength]
    have hpart := slice_kept sound htag (Nat.sub_le (c.i2 - c.i1) n) (Nat.le_of_eq hi2.symm)
    rwa [← hi2, ← hj2] at hpart
  · simp only [Opcode.before]
    omega
  · exact absurd (htag.symm.trans hdelete) (by decide)
  · exact absurd (htag.symm.trans hinsert) (by decide)

lemma gap_between {c : Opcode} (sound : Sound a b c) (htag : c.tag = .equal) (hlong : n + n < c.i2 - c.i1) :
    Gap a b (c.after n).i2 (c.after n).j2 (c.before n).i1 (c.before n).j1 := by
  obtain ⟨-, hlength⟩ := sound.kept htag
  have hn : min n (c.i2 - c.i1) = n := by omega
  simp only [Opcode.after, Opcode.before, min_ahead sound.old, min_ahead sound.new, max_behind sound.old, max_behind sound.new, ← hlength, hn]
  clear hn
  exact ⟨by omega, by omega, slice_kept sound htag (by omega) (by omega), by omega⟩

lemma Gap.drop (gap : Gap a b i j i' j') (h : a.drop i' = b.drop j') : a.drop i = b.drop j := by
  rw [← slice_append_drop gap.old, ← slice_append_drop gap.new, gap.kept, h]

lemma Sound.gap {c : Opcode} (sound : Sound a b c) (htag : c.tag = .equal) : Gap a b c.i1 c.j1 c.i2 c.j2 :=
  ⟨sound.old, sound.new, (sound.kept htag).1, (sound.kept htag).2⟩

lemma groupsFrom_covers {group : List Opcode} {i0 j0 i1 j1 : ℕ} (gap : Gap a b i0 j0 i1 j1) (chain : Chain a b i1 j1 group i j)
    (placed : i1 = 0 ∨ (n = 0 ∧ i0 < i1) ∨ i1 < i) (rest : Chain a b i j codes i' j') (old : i' ≤ a.length) (new : j' ≤ b.length)
    (hend : a.drop i' = b.drop j') : Covers a b n i0 j0 (groupsFrom n group codes) := by
  induction codes generalizing group i0 j0 i1 j1 i j with
  | nil =>
    cases rest
    unfold groupsFrom
    split
    · rename_i hshown
      exact .cons hshown.1 gap chain placed old new (.nil hend)
    · rename_i hnone
      apply Covers.nil
      apply gap.drop
      cases chain with
      | nil => exact hend
      | @cons c rest _ _ sound next =>
        have htags : (c :: rest).map (·.tag) = [.equal] := by
          by_contra hne
          exact hnone ⟨List.cons_ne_nil _ _, hne⟩
        simp only [List.map_cons, List.cons.injEq, List.map_eq_nil_iff] at htags
        obtain ⟨htag, rfl⟩ := htags
        obtain ⟨rfl, rfl⟩ := next.of_nil
        exact (sound.gap htag).drop hend
  | cons c codes ih =>
    cases rest with
    | cons sound next =>
      have hle := next.le
      have hold := sound.old
      have hnew := sound.new
      unfold groupsFrom
      split
      · rename_i hlong
        have hafter := sound.after hlong.1 n
        have hbefore := sound.before hlong.1 n
        refine .cons (List.append_ne_nil_of_right_ne_nil _ (List.cons_ne_nil _ _)) gap (chain.append (.single hafter)) ?_ ?_ ?_ (ih (gap_between sound hlong.1 hlong.2) (.single hbefore) ?_ next)
        · have hmore := hafter.old
          change c.i1 ≤ (c.after n).i2 at hmore
          omega
        · simp only [Opcode.after]
          omega
        · simp only [Opcode.after]
          omega
        · simp only [Opcode.after, Opcode.before]
          omega
      · exact ih gap (chain.append (.single sound)) (by omega) next

lemma groupedOpcodes_equal {c : Opcode} (htag : c.tag = .equal) (hi : c.i1 ≤ c.i2) : groupedOpcodes n [c] = [] := by
  have hafter : ((c.before n).after n).tag = .equal := htag
  have hshort : ¬ n + n < ((c.before n).after n).i2 - ((c.before n).after n).i1 := by
    simp only [Opcode.after, Opcode.before]
    omega
  simp only [groupedOpcodes, List.cons_ne_nil, if_false, cutFirst, htag, if_true, cutLast]
  rw [if_pos (show (c.before n).tag = .equal from htag), groupsFrom, if_neg fun h => hshort h.2, groupsFrom]
  simp [hafter]

lemma cutLast_chain {c : Opcode} (h : Chain a b i j (c :: codes) a.length b.length) :
    ∃ c' rest i' j', cutLast n (c :: codes) = c' :: rest ∧ (c' = c ∨ (c.tag = .equal ∧ c' = c.after n)) ∧
      Chain a b i j (c' :: rest) i' j' ∧ i' ≤ a.length ∧ j' ≤ b.length ∧ a.drop i' = b.drop j' := by
  induction codes generalizing c i j with
  | nil =>
    obtain ⟨rfl, rfl, sound, next⟩ := h.of_cons
    obtain ⟨hi, hj⟩ := next.of_nil
    have hend : a.drop c.i2 = b.drop c.j2 := by simp [hi, hj]
    by_cases htag : c.tag = .equal
    · have hafter := sound.after htag n
      have hold := sound.old
      have hnew := sound.new
      obtain ⟨-, hlength⟩ := sound.kept htag
      refine ⟨c.after n, [], _, _, by rw [cutLast, if_pos htag], .inr ⟨htag, rfl⟩, .single hafter, ?_, ?_, ?_⟩
      · simp only [Opcode.after]
        omega
      · simp only [Opcode.after]
        omega
      · have hi' : (c.after n).i2 = c.i1 + min n (c.i2 - c.i1) := by
          simp only [Opcode.after]
          omega
        have hj' : (c.after n).j2 = c.j1 + min n (c.i2 - c.i1) := by
          simp only [Opcode.after]
          omega
        have hpart := slice_kept sound htag (Nat.min_le_right n (c.i2 - c.i1)) (by omega)
        rw [hi', hj', ← slice_append_drop (show c.i1 + min n (c.i2 - c.i1) ≤ c.i1 + (c.i2 - c.i1) by omega), hpart,
          ← slice_append_drop (show c.j1 + min n (c.i2 - c.i1) ≤ c.j1 + (c.i2 - c.i1) by omega)]
        have hi2 : c.i1 + (c.i2 - c.i1) = c.i2 := by omega
        have hj2 : c.j1 + (c.i2 - c.i1) = c.j2 := by omega
        rw [hi2, hj2, hend]
    · exact ⟨c, [], _, _, by rw [cutLast, if_neg htag], .inl rfl, .single sound, Nat.le_of_eq hi, Nat.le_of_eq hj, hend⟩
  | cons d codes ih =>
    obtain ⟨rfl, rfl, sound, next⟩ := h.of_cons
    obtain ⟨c', rest, i', j', hcut, -, hchain, hrest⟩ := ih next
    exact ⟨c, c' :: rest, i', j', by rw [cutLast, hcut], .inl rfl, .cons sound hchain, hrest⟩

lemma groupedOpcodes_covers (m : Matcher α) (a b : List α) (n : ℕ) : Covers a b n 0 0 (groupedOpcodes n (m.opcodes a b)) := by
  have hchain := m.describes a b
  cases hcodes : m.opcodes a b with
  | nil =>
    rw [hcodes] at hchain
    obtain ⟨ha, hb⟩ := hchain.of_nil
    have hgroups : groupedOpcodes n [] = [] := @groupedOpcodes_equal n ⟨.equal, 0, 1, 0, 1⟩ rfl (by decide)
    rw [hgroups]
    apply Covers.nil
    rw [List.drop_zero, List.drop_zero, List.length_eq_zero_iff.mp ha.symm, List.length_eq_zero_iff.mp hb.symm]
  | cons c codes =>
    rw [hcodes] at hchain
    obtain ⟨hi, hj, sound, next⟩ := hchain.of_cons
    have hfirst : ∃ first, cutFirst n (c :: codes) = first :: codes ∧ Sound a b first ∧ Gap a b 0 0 first.i1 first.j1 ∧
        (first.tag = .equal → first.i2 - first.i1 ≤ n) ∧ (first.i1 = 0 ∨ (n = 0 ∧ 0 < first.i1) ∨ (0 < n ∧ first.i1 < first.i2)) ∧
        Chain a b first.i2 first.j2 codes a.length b.length := by
      by_cases htag : c.tag = .equal
      · obtain ⟨-, hlength⟩ := sound.kept htag
        have hnew := sound.new
        have hpart := slice_kept sound htag (Nat.zero_le (c.i2 - c.i1 - n)) (by omega)
        refine ⟨c.before n, by rw [cutFirst, if_pos htag], sound.before htag n, ⟨Nat.zero_le _, Nat.zero_le _, ?_, ?_⟩, fun _ => ?_, ?_, next⟩
        · have hi' : (c.before n).i1 = c.i1 + (c.i2 - c.i1 - n) := by
            simp only [Opcode.before]
            omega
          have hj' : (c.before n).j1 = c.j1 + (c.i2 - c.i1 - n) := by
            simp only [Opcode.before]
            omega
          rw [hi', hj']
          simpa only [← hi, ← hj, Nat.zero_add, Nat.add_zero] using hpart
        · simp only [Opcode.before]
          omega
        · simp only [Opcode.before]
          omega
        · simp only [Opcode.before]
          omega
      · exact ⟨c, by rw [cutFirst, if_neg htag], sound, by rw [← hi, ← hj]; exact .refl .., fun h => absurd h htag, .inl hi.symm, next⟩
    obtain ⟨first, hcut, hsound, hgap, hshort, hplaced, hrest⟩ := hfirst
    obtain ⟨c', rest, i', j', hlast, hc', hchain', hi', hj', hend⟩ := @cutLast_chain α a b _ _ codes n first (.cons hsound hrest)
    have hgroups : groupedOpcodes n (c :: codes) = groupsFrom n [c'] rest := by
      have hlong : ¬ (c'.tag = .equal ∧ n + n < c'.i2 - c'.i1) := by
        rintro ⟨htag, hlong⟩
        rcases hc' with rfl | ⟨-, rfl⟩
        · have := hshort htag
          omega
        · simp only [Opcode.after] at hlong
          omega
      rw [groupedOpcodes, if_neg (List.cons_ne_nil _ _), hcut, hlast, groupsFrom, if_neg hlong, List.nil_append]
    rw [hgroups]
    obtain ⟨hi1, hj1, hsound', hnext⟩ := hchain'.of_cons
    have hold := hsound.old
    refine groupsFrom_covers (hi1 ▸ hj1 ▸ hgap) (.single hsound') ?_ hnext hi' hj' hend
    rcases hc' with rfl | ⟨-, rfl⟩
    · omega
    · simp only [Opcode.after]
      omega

lemma groupedOpcodes_same (m : Matcher α) (a : List α) (n : ℕ) : groupedOpcodes n (m.opcodes a a) = [] := by
  rw [m.same]
  split
  · exact @groupedOpcodes_equal n ⟨.equal, 0, 1, 0, 1⟩ rfl (by decide)
  · exact groupedOpcodes_equal rfl (Nat.zero_le _)

lemma groupedOpcodes_ne_nil (m : Matcher α) {a b : List α} (n : ℕ) (h : a ≠ b) : groupedOpcodes n (m.opcodes a b) ≠ [] := by
  intro hnil
  have hcovers := groupedOpcodes_covers m a b n
  rw [hnil] at hcovers
  cases hcovers with
  | nil rest => exact h (by simpa using rest)

end PromptForge.LineDiffs
