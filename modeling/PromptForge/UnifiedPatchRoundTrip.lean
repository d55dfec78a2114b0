import PromptForge.UnifiedPatchLaws

namespace PromptForge.UnifiedPatches
open Runs LineDiffs
open TaskContracts (Line breakLines splitLines isBreak joinLines)
open Texts (stripChars)

variable {digits : Digits} {a b : List Line} {codes : List Opcode} {i j i' j' n : ℕ}

lemma source_next {text : Line} {xs : List Line} {position : ℕ} (h : text :: xs <+: a.drop position) :
    a[position]? = some text ∧ xs <+: a.drop (position + 1) := by
  obtain ⟨rest, hrest⟩ := h
  constructor
  · have hget := congrArg (fun l => l[0]?) hrest
    simpa using hget.symm
  · refine ⟨rest, ?_⟩
    rw [← List.drop_drop, ← hrest]
    rfl

/-- Lines of one mark, which are read in the source, or written, or both. -/
lemma applyLines_marked {mark : Char} {reads writes : Bool}
    (hmark : (mark, reads, writes) ∈ [(' ', true, true), ('-', true, false), ('+', false, true)]) {xs : List Line} {s : Progress}
    (h : reads = true → xs <+: a.drop s.position) :
    (xs.map (mark :: ·)).foldlM (applyLine a) s = .ok ⟨s.position + (if reads then xs.length else 0),
      s.result ++ (if writes then xs else []), s.consumed + (if reads then xs.length else 0),
      s.produced + (if writes then xs.length else 0)⟩ := by
  induction xs generalizing s with
  | nil => simp [pure, Except.pure]
  | cons text xs ih =>
    have hstep : applyLine a s (mark :: text) = .ok ⟨s.position + (if reads then 1 else 0), s.result ++ (if writes then [text] else []),
        s.consumed + (if reads then 1 else 0), s.produced + (if writes then 1 else 0)⟩ := by
      have hsource := fun hreads => (source_next (h hreads)).1
      simp only [List.mem_cons, List.not_mem_nil, or_false, Prod.mk.injEq] at hmark
      rcases hmark with ⟨rfl, rfl, rfl⟩ | ⟨rfl, rfl, rfl⟩ | ⟨rfl, rfl, rfl⟩ <;>
        simp_all [applyLine, noNewline, require, bind, Except.bind, pure, Except.pure]
    rw [List.map_cons, List.foldlM_cons, hstep]
    change (xs.map (mark :: ·)).foldlM (applyLine a) _ = _
    rw [ih fun hreads => by simpa [hreads] using (source_next (h hreads)).2]
    cases reads <;> cases writes <;> simp <;> omega

lemma applyLines_kept {xs : List Line} {s : Progress} (h : xs <+: a.drop s.position) :
    (xs.map (' ' :: ·)).foldlM (applyLine a) s =
      .ok ⟨s.position + xs.length, s.result ++ xs, s.consumed + xs.length, s.produced + xs.length⟩ := by
  simpa using @applyLines_marked a ' ' true true (by decide) xs s fun _ => h

lemma applyLines_removed {xs : List Line} {s : Progress} (h : xs <+: a.drop s.position) :
    (xs.map ('-' :: ·)).foldlM (applyLine a) s = .ok ⟨s.position + xs.length, s.result, s.consumed + xs.length, s.produced⟩ := by
  simpa using @applyLines_marked a '-' true false (by decide) xs s fun _ => h

lemma applyLines_added (xs : List Line) (s : Progress) :
    (xs.map ('+' :: ·)).foldlM (applyLine a) s = .ok ⟨s.position, s.result ++ xs, s.consumed, s.produced + xs.length⟩ := by
  simpa using @applyLines_marked a '+' false true (by decide) xs s nofun

lemma applyLines_opcode {c : Opcode} (sound : Sound a b c) (hi : c.i2 ≤ a.length) (hj : c.j2 ≤ b.length) {s : Progress}
    (h : slice a c.i1 c.i2 <+: a.drop s.position) : (c.lines a b).foldlM (applyLine a) s =
      .ok ⟨s.position + (c.i2 - c.i1), s.result ++ slice b c.j1 c.j2, s.consumed + (c.i2 - c.i1), s.produced + (c.j2 - c.j1)⟩ := by
  have hold := @length_slice Line a c.i1 c.i2 hi
  have hnew := @length_slice Line b c.j1 c.j2 hj
  cases htag : c.tag with
  | equal =>
    obtain ⟨hslice, hlength⟩ := sound.kept htag
    simp only [Opcode.lines, htag]
    rw [applyLines_kept h, hold, hslice, hlength]
  | replace =>
    simp only [Opcode.lines, htag]
    rw [List.foldlM_append, applyLines_removed h]
    change ((slice b c.j1 c.j2).map ('+' :: ·)).foldlM (applyLine a) _ = _
    rw [applyLines_added, hold, hnew]
  | delete =>
    have hempty := sound.removed htag
    simp only [Opcode.lines, htag]
    rw [applyLines_removed h, hold, hempty, slice_self, List.append_nil, Nat.sub_self, Nat.add_zero]
  | insert =>
    have hempty := sound.added htag
    simp only [Opcode.lines, htag]
    rw [applyLines_added, hnew, hempty, Nat.sub_self, Nat.add_zero, Nat.add_zero]

lemma applyLines_chain (chain : Chain a b i j codes i' j') (hi : i' ≤ a.length) (hj : j' ≤ b.length) {s : Progress}
    (h : slice a i i' <+: a.drop s.position) : (codes.flatMap (Opcode.lines a b)).foldlM (applyLine a) s =
      .ok ⟨s.position + (i' - i), s.result ++ slice b j j', s.consumed + (i' - i), s.produced + (j' - j)⟩ := by
  induction chain generalizing s with
  | nil => simp [pure, Except.pure]
  | @cons c rest i j sound next ih =>
    have hle := next.le
    have hold := sound.old
    have hnew := sound.new
    have hfirst : slice a c.i1 c.i2 <+: a.drop s.position := by
      refine List.IsPrefix.trans ?_ h
      rw [← slice_append_slice hold hle.1]
      exact List.prefix_append ..
    have hlater : slice a c.i2 i <+: a.drop (s.position + (c.i2 - c.i1)) := by
      obtain ⟨rest, hrest⟩ := h
      refine ⟨rest, ?_⟩
      have hlength := @length_slice Line a c.i1 c.i2 (Nat.le_trans hle.1 hi)
      rw [← List.drop_drop, ← hrest, ← slice_append_slice hold hle.1, List.append_assoc, ← hlength, List.drop_left]
    rw [List.flatMap_cons, List.foldlM_append, applyLines_opcode sound (Nat.le_trans hle.1 hi) (Nat.le_trans hle.2 hj) hfirst]
    change (rest.flatMap (Opcode.lines a b)).foldlM (applyLine a) _ = _
    rw [@ih hi hj ⟨s.position + (c.i2 - c.i1), s.result ++ slice b c.j1 c.j2, s.consumed + (c.i2 - c.i1), s.produced + (c.j2 - c.j1)⟩ hlater]
    simp only [List.append_assoc, slice_append_slice hnew hle.2, Except.ok.injEq, Progress.mk.injEq]
    exact ⟨by omega, trivial, by omega, by omega⟩

lemma value_digit {c : Char} (h : c.isDigit = true) : digits.value c = some (c.toNat - 48) := by
  have hascii : c.toNat < 128 := by
    simp only [Char.isDigit, Bool.and_eq_true, decide_eq_true_eq] at h
    have hle : c.toNat ≤ 57 := h.2
    omega
  rw [digits.ascii c hascii, h, if_pos rfl]

lemma readNumber_toDigits (n : ℕ) {rest : Text} (hrest : ∀ c, rest.head? = some c → digits.value c = none) :
    readNumber digits (Nat.toDigits 10 n ++ rest) = some (n, rest) := by
  have hdigits : ∀ c ∈ Nat.toDigits 10 n, c.isDigit = true := fun c hc => Nat.isDigit_of_mem_toDigits (by decide) (by decide) hc
  have hsome : ∀ c ∈ Nat.toDigits 10 n, (digits.value c).isSome = true := by
    intro c hc
    rw [value_digit (hdigits c hc)]
    rfl
  have htake : (Nat.toDigits 10 n ++ rest).takeWhile (fun c => (digits.value c).isSome) = Nat.toDigits 10 n ∧
      (Nat.toDigits 10 n ++ rest).dropWhile (fun c => (digits.value c).isSome) = rest := by
    rw [List.takeWhile_append_of_pos hsome, List.dropWhile_append_of_pos hsome]
    cases rest with
    | nil => simp
    | cons c rest => simp [hrest c rfl]
  have hfold : ∀ (cs : List Char) (m : ℕ), (∀ c ∈ cs, c.isDigit = true) →
      cs.foldl (fun n c => n * 10 + (digits.value c).getD 0) m = Nat.ofDigitChars 10 cs m := by
    intro cs
    induction cs with
    | nil => exact fun m _ => rfl
    | cons c cs ih =>
      intro m hcs
      rw [List.foldl_cons, value_digit (hcs c (List.mem_cons_self ..)), ih _ fun d hd => hcs d (List.mem_cons_of_mem _ hd),
        Nat.ofDigitChars_cons, Nat.mul_comm]
      rfl
  have hne : Nat.toDigits 10 n ≠ [] := Nat.toDigits_ne_nil
  simp only [readNumber, htake.1, htake.2, if_neg hne]
  rw [hfold _ _ hdigits, Nat.ofDigitChars_ten_toDigits]

def rangeStart (start stop : ℕ) : ℕ := if stop - start = 0 then start else start + 1

lemma readRange (start stop : ℕ) (rest : Text) : ∃ mid, readNumber digits (formatRange start stop ++ ' ' :: rest) =
    some (rangeStart start stop, mid) ∧ readCount digits mid = (stop - start, ' ' :: rest) := by
  have hspace : ∀ c, (' ' :: rest).head? = some c → digits.value c = none := by
    intro c hc
    cases hc
    rw [digits.ascii _ (by decide)]
    rfl
  unfold formatRange rangeStart
  split
  · rename_i hone
    refine ⟨' ' :: rest, ?_, by rw [hone]; rfl⟩
    rw [readNumber_toDigits _ hspace, if_neg (by omega)]
  · refine ⟨',' :: (Nat.toDigits 10 (stop - start) ++ ' ' :: rest), ?_, ?_⟩
    · rw [List.append_assoc, List.cons_append]
      refine readNumber_toDigits _ fun c hc => ?_
      cases hc
      rw [digits.ascii _ (by decide)]
      rfl
    · rw [readCount, readNumber_toDigits _ hspace]
      rfl

lemma readText_append (expected rest : Text) : readText expected (expected ++ rest) = some rest := by
  rw [readText, if_pos (List.prefix_append ..), List.drop_left]

lemma readHeader_hunkHeader (first last : Opcode) : readHeader digits (hunkHeader first last) =
    some ⟨rangeStart first.i1 last.i2, last.i2 - first.i1, last.j2 - first.j1⟩ := by
  obtain ⟨mid, hold, holdCount⟩ := @readRange digits first.i1 last.i2 ('+' :: (formatRange first.j1 last.j2 ++ [' ', '@', '@']))
  obtain ⟨mid', hnew, hnewCount⟩ := @readRange digits first.j1 last.j2 ['@', '@']
  have htext : hunkHeader first last =
      ['@', '@', ' ', '-'] ++ (formatRange first.i1 last.i2 ++ ' ' :: '+' :: (formatRange first.j1 last.j2 ++ [' ', '@', '@'])) := by
    simp [hunkHeader]
  have hplus : readText [' ', '+'] (' ' :: '+' :: (formatRange first.j1 last.j2 ++ [' ', '@', '@'])) =
      some (formatRange first.j1 last.j2 ++ [' ', '@', '@']) := readText_append [' ', '+'] _
  have hclose : readText [' ', '@', '@'] [' ', '@', '@'] = some [] := readText_append [' ', '@', '@'] []
  rw [htext, readHeader, readText_append]
  simp only [bind, Option.bind, hold, holdCount, hplus, hnew, hnewCount, hclose, List.head?_nil]
  simp

def hunkOf (a b : List Line) : List Opcode → Line × List Line
  | [] => ([], [])
  | first :: rest => (hunkHeader first ((first :: rest).getLast (List.cons_ne_nil _ _)), (first :: rest).flatMap (Opcode.lines a b))

def Insertions (a b : List Line) (groups : List (List Opcode)) : Prop :=
  ∀ group ∈ groups, ∀ first ∈ group.head?, ∀ last ∈ group.getLast?, last.i2 = first.i1 → 0 < first.i1 →
    ∀ line ∈ slice b first.j1 last.j2, a[first.i1 - 1]? = some line

lemma chain_last (chain : Chain a b i j codes i' j') {last : Opcode} (h : codes.getLast? = some last) :
    i' = last.i2 ∧ j' = last.j2 := by
  induction chain with
  | nil => cases h
  | @cons c rest i j sound next ih =>
    cases rest with
    | nil =>
      obtain ⟨rfl, rfl⟩ := next.of_nil
      cases h
      exact ⟨rfl, rfl⟩
    | cons d rest => exact ih (by rwa [List.getLast?_cons_cons] at h)

def place (i i' : ℕ) : ℕ := if i' - i = 0 then i - 1 else i

lemma target_rangeStart (i i' oldCount newCount : ℕ) : (Header.mk (rangeStart i i') oldCount newCount).target = place i i' := by
  simp only [Header.target, rangeStart, place]
  split <;> split <;> omega

lemma applyHunk_of {hunk : Line × List Line} {header : Header} {t : ℕ × List Line} {done : Progress} (hread : readHeader digits hunk.1 = some header)
    (hrange : t.1 ≤ header.target ∧ header.target ≤ a.length)
    (hdone : hunk.2.foldlM (applyLine a) ⟨header.target, t.2 ++ slice a t.1 header.target, 0, 0⟩ = .ok done)
    (hcount : done.consumed = header.oldCount ∧ done.produced = header.newCount) :
    applyHunk digits a t hunk = .ok (done.position, done.result) := by
  unfold applyHunk
  rw [hread, Option.elim_some]
  change (require _ _ >>= _) = _
  rw [require_bind hrange, hdone]
  change (require _ _ >>= _) = _
  rw [require_bind hcount]
  rfl

lemma applyHunk_group {group : List Opcode} (filled : group ≠ []) (chain : Chain a b i j group i' j') (hi : i' ≤ a.length)
    (hj : j' ≤ b.length) {t : ℕ × List Line} (ht : t.1 ≤ place i i') : applyHunk digits a t (hunkOf a b group) =
      .ok (place i i' + (i' - i), t.2 ++ slice a t.1 (place i i') ++ slice b j j') := by
  cases group with
  | nil => exact absurd rfl filled
  | cons first rest =>
    obtain ⟨rfl, rfl, -, -⟩ := chain.of_cons
    obtain ⟨hi', hj'⟩ := chain_last chain (List.getLast?_eq_getLast_of_ne_nil (List.cons_ne_nil first rest))
    have hle := chain.le
    have hwithin : place first.i1 i' ≤ a.length := by
      unfold place
      split <;> omega
    have hsource : slice a first.i1 i' <+: a.drop (place first.i1 i') := by
      unfold place
      split
      · have hsame : i' = first.i1 := by omega
        rw [hsame, slice_self]
        exact List.nil_prefix
      · rw [← slice_append_drop hle.1]
        exact List.prefix_append ..
    have hbody := @applyLines_chain a b _ _ _ _ _ chain hi hj
      ⟨place first.i1 i', t.2 ++ slice a t.1 (place first.i1 i'), 0, 0⟩ hsource
    have hread : readHeader digits (hunkOf a b (first :: rest)).1 = some ⟨rangeStart first.i1 i', i' - first.i1, j' - first.j1⟩ := by
      rw [hi', hj']
      exact readHeader_hunkHeader ..
    have htarget := target_rangeStart first.i1 i' (i' - first.i1) (j' - first.j1)
    have hfold := hbody
    rw [← htarget] at hfold
    rw [← htarget] at ht hwithin ⊢
    exact applyHunk_of hread ⟨ht, hwithin⟩ hfold ⟨Nat.zero_add _, Nat.zero_add _⟩

lemma append_singleton_comm {xs : List Line} {x : Line} : xs ++ [x] = [x] ++ xs ↔ ∀ y ∈ xs, y = x := by
  induction xs with
  | nil => simp
  | cons y xs ih =>
    constructor
    · intro h
      simp only [List.cons_append, List.cons.injEq] at h
      obtain ⟨rfl, hrest⟩ := h
      have hall := ih.mp (by simpa using hrest)
      intro z hz
      cases List.mem_cons.mp hz with
      | inl hfirst => exact hfirst
      | inr hlater => exact hall z hlater
    · intro h
      have hfirst := h y (List.mem_cons_self ..)
      have hrest := ih.mpr fun z hz => h z (List.mem_cons_of_mem _ hz)
      rw [hfirst, List.cons_append, hrest]
      rfl

lemma insertions_cons {group : List Opcode} {groups : List (List Opcode)} (filled : group ≠ []) (chain : Chain a b i j group i' j') :
    Insertions a b (group :: groups) ↔
      (i' = i → 0 < i → ∀ line ∈ slice b j j', a[i - 1]? = some line) ∧ Insertions a b groups := by
  cases group with
  | nil => exact absurd rfl filled
  | cons first rest =>
    obtain ⟨rfl, rfl, -, -⟩ := chain.of_cons
    have hlast := List.getLast?_eq_getLast_of_ne_nil (List.cons_ne_nil first rest)
    obtain ⟨rfl, rfl⟩ := chain_last chain hlast
    constructor
    · intro h
      refine ⟨?_, fun other hother => h other (List.mem_cons_of_mem _ hother)⟩
      exact h (first :: rest) (List.mem_cons_self ..) first rfl _ hlast
    · rintro ⟨hfirst, hothers⟩ other hother first' hfirst' last hlast'
      cases List.mem_cons.mp hother with
      | inl hsame =>
        subst hsame
        cases hfirst'
        rw [hlast] at hlast'
        cases hlast'
        exact hfirst
      | inr hlater => exact hothers other hlater first' hfirst' last hlast'

lemma displaced_iff {B : List Line} (hi : i ≤ a.length) (hle : i ≤ i') :
    B ++ slice a (place i i') i = slice a (place i i') i ++ B ↔ (i' = i → 0 < i → ∀ line ∈ B, a[i - 1]? = some line) := by
  by_cases hhere : i' - i = 0 ∧ 0 < i
  · have hplace : place i i' = i - 1 := by
      unfold place
      rw [if_pos hhere.1]
    have hlast : i - 1 < a.length := by omega
    have hslice : slice a (i - 1) i = [a[i - 1]] := by
      have htake : a.take i = a.take (i - 1) ++ [a[i - 1]] := by
        have hsucc := @List.take_concat_get' Line a (i - 1) hlast
        rw [Nat.sub_add_cancel hhere.2] at hsucc
        exact hsucc.symm
      have hlength : (a.take (i - 1)).length = i - 1 := by
        rw [List.length_take]
        omega
      rw [slice, htake, List.drop_append_of_le_length (by omega), List.drop_eq_nil_of_le (by omega), List.nil_append]
    have hget : a[i - 1]? = some a[i - 1] := List.getElem?_eq_getElem hlast
    rw [hplace, hslice, append_singleton_comm, hget]
    constructor
    · exact fun h _ _ line hline => congrArg some (h line hline).symm
    · exact fun h line hline => (Option.some.inj (h (by omega) hhere.2 line hline)).symm
  · have hplace : place i i' = i := by
      unfold place
      split <;> omega
    rw [hplace, slice_self, List.append_nil, List.nil_append]
    exact ⟨fun _ hsame hpos => absurd ⟨by omega, hpos⟩ hhere, fun _ => rfl⟩

lemma applyHunks_covers {groups : List (List Opcode)} (cover : Covers a b n i j groups) {t : ℕ × List Line} (ht : t.1 ≤ i)
    (hi : i ≤ a.length) (hj : j ≤ b.length) (hlength : (t.2 ++ slice a t.1 i).length = j) :
    ∃ t', (groups.map (hunkOf a b)).foldlM (applyHunk digits a) t = .ok t' ∧ (resultOf a t').length = b.length ∧
      (resultOf a t' = b ↔ t.2 ++ slice a t.1 i = b.take j ∧ Insertions a b groups) := by
  induction cover generalizing t with
  | @nil i j rest =>
    have hresult : resultOf a t = (t.2 ++ slice a t.1 i) ++ b.drop j := by
      rw [resultOf, ← rest, List.append_assoc, slice_append_drop ht]
    refine ⟨t, rfl, ?_, ?_⟩
    · rw [hresult, List.length_append, hlength, List.length_drop]
      omega
    · have htake : (b.take j).length = j := by
        rw [List.length_take]
        omega
      have hall : Insertions a b [] := fun group hgroup => absurd hgroup List.not_mem_nil
      constructor
      · intro h
        rw [hresult] at h
        have hsame : (t.2 ++ slice a t.1 i) ++ b.drop j = b.take j ++ b.drop j := by rw [h, List.take_append_drop]
        exact ⟨List.append_cancel_right hsame, hall⟩
      · intro h
        rw [hresult, h.1, List.take_append_drop]
  | @cons i j i1 j1 i2 j2 group groups filled gap chain placed old new next ih =>
    have hle := chain.le
    have hgap := gap.old
    have hgap' := gap.new
    have hdistance := gap.length
    have hgo : t.1 ≤ place i1 i2 := by
      unfold place
      split <;> omega
    have hmid : i ≤ place i1 i2 ∧ place i1 i2 ≤ i1 := by
      unfold place
      split <;> omega
    have hreached : place i1 i2 + (i2 - i1) ≤ i2 ∧ slice a (place i1 i2 + (i2 - i1)) i2 = slice a (place i1 i2) i1 := by
      unfold place
      split
      · have hsame : i2 = i1 := by omega
        rw [hsame, Nat.sub_self, Nat.add_zero]
        exact ⟨by omega, rfl⟩
      · rw [Nat.add_sub_cancel' hle.1, slice_self, slice_self]
        exact ⟨Nat.le_refl _, rfl⟩
    have hstep := @applyHunk_group digits a b _ _ _ _ group filled chain old new t hgo
    -- what is written up to here, with the lines that are not written yet
    have hwritten : t.2 ++ slice a t.1 (place i1 i2) ++ slice b j1 j2 ++ slice a (place i1 i2 + (i2 - i1)) i2 =
        (t.2 ++ slice a t.1 i) ++ (slice a i (place i1 i2) ++ (slice b j1 j2 ++ slice a (place i1 i2) i1)) := by
      rw [hreached.2, ← slice_append_slice ht hmid.1]
      simp only [List.append_assoc]
    have hwanted : b.take j2 = b.take j ++ (slice a i (place i1 i2) ++ (slice a (place i1 i2) i1 ++ slice b j1 j2)) := by
      rw [← List.append_assoc (slice a i _), slice_append_slice hmid.1 hmid.2, gap.kept, slice_append_slice gap.new hle.2,
        take_append_slice (Nat.le_trans gap.new hle.2)]
    have hold := @length_slice Line a (place i1 i2) i1 (Nat.le_trans hle.1 old)
    have hcopied := @length_slice Line a i (place i1 i2) (Nat.le_trans hmid.2 (Nat.le_trans hle.1 old))
    have hnew := @length_slice Line b j1 j2 new
    obtain ⟨t', hrun, hlengths, hiff⟩ := @ih (place i1 i2 + (i2 - i1), t.2 ++ slice a t.1 (place i1 i2) ++ slice b j1 j2) hreached.1 old new (by
      rw [hwritten, List.length_append, hlength, List.length_append, List.length_append, hold, hcopied, hnew]
      omega)
    refine ⟨t', ?_, hlengths, hiff.trans ?_⟩
    · rw [List.map_cons, List.foldlM_cons, hstep]
      exact hrun
    · have htake : (b.take j).length = j := by
        rw [List.length_take]
        omega
      rw [hwritten, hwanted, insertions_cons filled chain, ← displaced_iff (Nat.le_trans hle.1 old) hle.1]
      constructor
      · rintro ⟨hsame, hrest⟩
        obtain ⟨hbefore, hbehind⟩ := List.append_inj hsame (hlength.trans htake.symm)
        exact ⟨hbefore, List.append_cancel_left hbehind, hrest⟩
      · rintro ⟨hbefore, hhere, hrest⟩
        exact ⟨by rw [hbefore, hhere], hrest⟩

lemma insertions_of_context {groups : List (List Opcode)} (cover : Covers a b n i j groups) (hn : 0 < n) : Insertions a b groups := by
  induction cover with
  | nil => exact fun group hgroup => absurd hgroup List.not_mem_nil
  | cons filled gap chain placed old new next ih =>
    refine (insertions_cons filled chain).mpr ⟨fun hsame hpos => ?_, ih⟩
    omega

lemma map_pieces {ending final : Text} {lines : List Line} (h : final ≠ [] ∨ lines.getLast? ≠ some []) :
    (pieces ending final lines).map Prod.fst = lines := by
  induction lines with
  | nil => rfl
  | cons line rest ih =>
    cases rest with
    | nil =>
      have hfilled : ¬ (line = [] ∧ final = []) := by
        rintro ⟨rfl, hfinal⟩
        rcases h with h | h
        · exact h hfinal
        · exact h rfl
      rw [pieces, if_neg hfilled]
      rfl
    | cons next rest =>
      rw [pieces, List.map_cons, ih (by rwa [List.getLast?_cons_cons] at h)]

lemma length_pieces {ending : Text} {lines : List Line} (h : lines.getLast? = some []) :
    (pieces ending [] lines).length + 1 = lines.length := by
  induction lines with
  | nil => cases h
  | cons line rest ih =>
    cases rest with
    | nil =>
      cases h
      rfl
    | cons next rest =>
      rw [pieces, List.length_cons, ih (by rwa [List.getLast?_cons_cons] at h)]
      rfl

lemma splitLines_joinLines {lines : List Line} (hlines : ∀ line ∈ lines, Unbroken line ∧ line ≠ []) : splitLines (joinLines lines) = lines := by
  by_cases hne : lines = []
  · rw [hne]
    rfl
  · have hpieces := @breakLines_pieces ['\n'] [] (.inl rfl) (.inl rfl) lines hne fun line hline => (hlines line hline).1
    rw [List.append_nil] at hpieces
    rw [splitLines, joinLines, hpieces]
    exact map_pieces (.inr fun hlast => (hlines [] (List.mem_of_getLast? hlast)).2 rfl)

lemma Unbroken.append {line line' : Line} (h : Unbroken line) (h' : Unbroken line') : Unbroken (line ++ line') := by
  intro c hc
  cases List.mem_append.mp hc with
  | inl hfirst => exact h c hfirst
  | inr hlater => exact h' c hlater

lemma unbroken_toDigits (n : ℕ) : Unbroken (Nat.toDigits 10 n) := by
  intro c hc
  have hdigit : c.isDigit = true := Nat.isDigit_of_mem_toDigits (by decide) (by decide) hc
  simp only [Char.isDigit, Bool.and_eq_true, decide_eq_true_eq] at hdigit
  have hlow : 48 ≤ c.toNat := hdigit.1
  have hhigh : c.toNat ≤ 57 := hdigit.2
  simp only [isBreak, Bool.or_eq_false_iff, Bool.and_eq_false_iff, decide_eq_false_iff_not, beq_eq_false_iff_ne]
  omega

lemma unbroken_formatRange (start stop : ℕ) : Unbroken (formatRange start stop) := by
  have hcomma : Unbroken [','] := by
    intro c hc
    rw [List.mem_singleton.mp hc]
    rfl
  unfold formatRange
  split
  · exact unbroken_toDigits _
  · exact (unbroken_toDigits _).append (hcomma.append (unbroken_toDigits _))

lemma unbroken_hunkHeader (first last : Opcode) : Unbroken (hunkHeader first last) := by
  have hconst : Unbroken ['@', '@', ' ', '-'] ∧ Unbroken [' ', '+'] ∧ Unbroken [' ', '@', '@'] := by
    simp [Unbroken, isBreak]
  exact (((hconst.1.append (unbroken_formatRange _ _)).append hconst.2.1).append (unbroken_formatRange _ _)).append hconst.2.2

lemma mem_slice {xs : List Line} {line : Line} (h : line ∈ slice xs i j) : line ∈ xs := List.mem_of_mem_take (List.mem_of_mem_drop h)

lemma mem_lines {c : Opcode} {line : Line} (h : line ∈ c.lines a b) :
    ∃ mark text, line = mark :: text ∧ (mark = ' ' ∨ mark = '-' ∨ mark = '+') ∧ (text ∈ a ∨ text ∈ b) := by
  have hmarked : ∀ {xs : List Line} {mark : Char}, line ∈ xs.map (mark :: ·) → ∃ text ∈ xs, line = mark :: text := by
    intro xs mark hline
    obtain ⟨text, htext, rfl⟩ := List.mem_map.mp hline
    exact ⟨text, htext, rfl⟩
  cases htag : c.tag <;> simp only [Opcode.lines, htag] at h
  case equal =>
    obtain ⟨text, htext, rfl⟩ := hmarked h
    exact ⟨' ', text, rfl, .inl rfl, .inl (mem_slice htext)⟩
  case replace =>
    cases List.mem_append.mp h with
    | inl hold =>
      obtain ⟨text, htext, rfl⟩ := hmarked hold
      exact ⟨'-', text, rfl, .inr (.inl rfl), .inl (mem_slice htext)⟩
    | inr hnew =>
      obtain ⟨text, htext, rfl⟩ := hmarked hnew
      exact ⟨'+', text, rfl, .inr (.inr rfl), .inr (mem_slice htext)⟩
  case delete =>
    obtain ⟨text, htext, rfl⟩ := hmarked h
    exact ⟨'-', text, rfl, .inr (.inl rfl), .inl (mem_slice htext)⟩
  case insert =>
    obtain ⟨text, htext, rfl⟩ := hmarked h
    exact ⟨'+', text, rfl, .inr (.inr rfl), .inr (mem_slice htext)⟩

lemma hunkLines_eq {group : List Opcode} (filled : group ≠ []) :
    hunkLines a b group = (hunkOf a b group).1 :: (hunkOf a b group).2 := by
  cases group with
  | nil => exact absurd rfl filled
  | cons first rest => rfl

lemma isHunk_hunkOf {group : List Opcode} (filled : group ≠ []) : isHunk (hunkOf a b group).1 = true := by
  cases group with
  | nil => exact absurd rfl filled
  | cons first rest => simp [hunkOf, hunkHeader, isHunk]

lemma isHunk_lines {group : List Opcode} : ∀ line ∈ (hunkOf a b group).2, isHunk line = false := by
  intro line hline
  cases group with
  | nil => cases hline
  | cons first rest =>
    obtain ⟨c, -, hc⟩ := List.mem_flatMap.mp hline
    obtain ⟨mark, text, rfl, hmark, -⟩ := mem_lines hc
    rcases hmark with rfl | rfl | rfl <;> rfl

lemma splitHunks_lines {body : List Line} (h : ∀ line ∈ body, isHunk line = false) (rest : List Line) :
    splitHunks (body ++ rest) = (body ++ (splitHunks rest).1, (splitHunks rest).2) := by
  induction body with
  | nil => rfl
  | cons line body ih =>
    have hline := h line (List.mem_cons_self ..)
    rw [List.cons_append, splitHunks, ih fun l hl => h l (List.mem_cons_of_mem _ hl), hline]
    rfl

lemma splitHunks_groups {groups : List (List Opcode)} (filled : ∀ group ∈ groups, group ≠ []) :
    splitHunks (groups.flatMap (hunkLines a b)) = ([], groups.map (hunkOf a b)) := by
  induction groups with
  | nil => rfl
  | cons group groups ih =>
    have hgroup := filled group (List.mem_cons_self ..)
    rw [List.flatMap_cons, hunkLines_eq hgroup, List.cons_append, splitHunks, splitHunks_lines isHunk_lines,
      ih fun g hg => filled g (List.mem_cons_of_mem _ hg), isHunk_hunkOf hgroup]
    simp

lemma covers_filled {groups : List (List Opcode)} (cover : Covers a b n i j groups) : ∀ group ∈ groups, group ≠ [] := by
  induction cover with
  | nil => exact fun group hgroup => absurd hgroup List.not_mem_nil
  | cons filled gap chain placed old new next ih =>
    intro group hgroup
    cases List.mem_cons.mp hgroup with
    | inl hfirst => exact hfirst ▸ filled
    | inr hlater => exact ih group hlater

structure Label (path : Text) where
  text : Line
  plain : Unbroken text
  names : ∀ named, headerPath (['-', '-', '-', ' '] ++ text) = some named → named = path

variable {m : Matcher Line} {path source target : Text}

def patchOf (m : Matcher Line) (fromfile tofile : Label path) (source target : Text) (n : ℕ) : Text :=
  joinLines (unifiedDiff m fromfile.text tofile.text (splitLines source) (splitLines target) n)

def RoundTrip (digits : Digits) (m : Matcher Line) (fromfile tofile : Label path) (source target : Text) (n : ℕ) : Prop :=
  applyUnifiedPatch digits source (patchOf m fromfile tofile source target n) path = .ok target

/-- The texts differ in a line, the lines of the second end as those of the first, and an insertion
    without context repeats the line before it. -/
structure Replayable (m : Matcher Line) (source target : Text) (n : ℕ) : Prop where
  differ : splitLines source ≠ splitLines target
  ended : target = written source (splitLines target)
  insertions : Insertions (splitLines source) (splitLines target) (groupedOpcodes n (m.opcodes (splitLines source) (splitLines target)))

lemma unbroken_lines {c : Opcode} {line : Line} (h : line ∈ c.lines (splitLines source) (splitLines target)) : Unbroken line := by
  obtain ⟨mark, text, rfl, hmark, htext⟩ := mem_lines h
  intro d hd
  cases List.mem_cons.mp hd with
  | inl hfirst =>
    rw [hfirst]
    rcases hmark with rfl | rfl | rfl <;> rfl
  | inr hlater =>
    cases htext with
    | inl hsource => exact splitLines_unbroken source text hsource d hlater
    | inr htarget => exact splitLines_unbroken target text htarget d hlater

lemma splitLines_patchOf {fromfile tofile : Label path} (h : splitLines source ≠ splitLines target) :
    splitLines (patchOf m fromfile tofile source target n) =
      (['-', '-', '-', ' '] ++ fromfile.text) :: (['+', '+', '+', ' '] ++ tofile.text) ::
        (groupedOpcodes n (m.opcodes (splitLines source) (splitLines target))).flatMap (hunkLines (splitLines source) (splitLines target)) := by
  have hgroups := groupedOpcodes_ne_nil m n h
  have hfilled := covers_filled (groupedOpcodes_covers m (splitLines source) (splitLines target) n)
  have hold : Unbroken ['-', '-', '-', ' '] ∧ Unbroken ['+', '+', '+', ' '] := by simp [Unbroken, isBreak]
  rw [patchOf, unifiedDiff]
  simp only [if_neg hgroups]
  refine splitLines_joinLines fun line hline => ?_
  simp only [List.mem_cons] at hline
  rcases hline with rfl | rfl | hline
  · exact ⟨hold.1.append fromfile.plain, by simp⟩
  · exact ⟨hold.2.append tofile.plain, by simp⟩
  · obtain ⟨group, hgroup, hline⟩ := List.mem_flatMap.mp hline
    cases group with
    | nil => exact absurd rfl (hfilled [] hgroup)
    | cons first rest =>
      cases List.mem_cons.mp hline with
      | inl hheader =>
        rw [hheader]
        exact ⟨unbroken_hunkHeader _ _, by simp [hunkHeader]⟩
      | inr hbody =>
        obtain ⟨c, -, hc⟩ := List.mem_flatMap.mp hbody
        refine ⟨unbroken_lines hc, ?_⟩
        obtain ⟨mark, text, rfl, -⟩ := mem_lines hc
        exact List.cons_ne_nil _ _

lemma isFileHeader_hunkOf {group : List Opcode} (filled : group ≠ []) : isFileHeader (hunkOf a b group).1 = false := by
  cases group with
  | nil => exact absurd rfl filled
  | cons first rest => rfl

lemma isFileHeader_labels (text : Line) :
    isFileHeader (['-', '-', '-', ' '] ++ text) = true ∧ isFileHeader (['+', '+', '+', ' '] ++ text) = true := by
  simp [isFileHeader]

lemma stripChars_ne_nil {c : Char} (h : Texts.isSpace c = false) (rest : Text) : stripChars (c :: rest) ≠ [] := by
  intro hnil
  rw [stripChars, List.dropWhile_cons_of_neg (by simp [h]), List.rdropWhile_eq_nil_iff] at hnil
  rw [hnil c (List.mem_cons_self ..)] at h
  cases h

lemma apply_patchOf (fromfile tofile : Label path) (n : ℕ) (h : splitLines source ≠ splitLines target) :
    ∃ t', ((groupedOpcodes n (m.opcodes (splitLines source) (splitLines target))).map
        (hunkOf (splitLines source) (splitLines target))).foldlM (applyHunk digits (splitLines source)) (0, []) = .ok t' ∧
      (resultOf (splitLines source) t').length = (splitLines target).length ∧
      (resultOf (splitLines source) t' = splitLines target ↔ Insertions (splitLines source) (splitLines target)
        (groupedOpcodes n (m.opcodes (splitLines source) (splitLines target)))) ∧
      applyUnifiedPatch digits source (patchOf m fromfile tofile source target n) path =
        .ok (written source (resultOf (splitLines source) t')) := by
  have hcovers := groupedOpcodes_covers m (splitLines source) (splitLines target) n
  have hfilled := covers_filled hcovers
  have hlines := @splitLines_patchOf n m path source target fromfile tofile h
  generalize hgroups : groupedOpcodes n (m.opcodes (splitLines source) (splitLines target)) = groups at hcovers hfilled hlines ⊢
  have hne : groups ≠ [] := hgroups ▸ groupedOpcodes_ne_nil m n h
  obtain ⟨t', hrun, hlength, hiff⟩ := @applyHunks_covers digits _ _ _ _ n groups hcovers (0, []) (Nat.le_refl _) (Nat.zero_le _)
    (Nat.zero_le _) (by simp)
  refine ⟨t', hrun, hlength, by simpa using hiff, ?_⟩
  obtain ⟨group, rest, rfl⟩ := List.exists_cons_of_ne_nil hne
  have hgroup := hfilled group (List.mem_cons_self ..)
  have hhead : (group :: rest).flatMap (hunkLines (splitLines source) (splitLines target)) =
      (hunkOf (splitLines source) (splitLines target) group).1 :: ((hunkOf (splitLines source) (splitLines target) group).2 ++
        rest.flatMap (hunkLines (splitLines source) (splitLines target))) := by
    rw [List.flatMap_cons, hunkLines_eq hgroup, List.cons_append]
  obtain ⟨hfrom, hto⟩ := And.intro (isFileHeader_labels fromfile.text).1 (isFileHeader_labels tofile.text).2
  have hbody : bodyOf (patchOf m fromfile tofile source target n) =
      (group :: rest).flatMap (hunkLines (splitLines source) (splitLines target)) := by
    rw [bodyOf, hlines, List.dropWhile_cons_of_pos hfrom, List.dropWhile_cons_of_pos hto, hhead,
      List.dropWhile_cons_of_neg (by rw [isFileHeader_hunkOf hgroup]; decide)]
  have hheaders : (splitLines (patchOf m fromfile tofile source target n)).takeWhile isFileHeader =
      [['-', '-', '-', ' '] ++ fromfile.text, ['+', '+', '+', ' '] ++ tofile.text] := by
    rw [hlines, List.takeWhile_cons_of_pos hfrom, List.takeWhile_cons_of_pos hto, hhead,
      List.takeWhile_cons_of_neg (by rw [isFileHeader_hunkOf hgroup]; decide)]
  have hmarked : ∃ rest', patchOf m fromfile tofile source target n = '-' :: rest' := by
    rw [patchOf, unifiedDiff]
    simp only [hgroups, if_neg hne]
    rw [joinLines, List.intercalate_cons_cons]
    exact ⟨_, rfl⟩
  have hfilledPatch : stripChars (patchOf m fromfile tofile source target n) ≠ [] := by
    obtain ⟨rest', hmark⟩ := hmarked
    rw [hmark]
    exact stripChars_ne_nil rfl rest'
  have hpaths : ∀ named ∈ ((splitLines (patchOf m fromfile tofile source target n)).takeWhile isFileHeader).filterMap headerPath,
      named = path := by
    intro named hnamed
    rw [hheaders] at hnamed
    obtain ⟨line, hline, hnamed⟩ := List.mem_filterMap.mp hnamed
    simp only [List.mem_cons, List.not_mem_nil, or_false] at hline
    rcases hline with rfl | rfl
    · exact fromfile.names named hnamed
    · exact tofile.names named hnamed
  have hfirst : (bodyOf (patchOf m fromfile tofile source target n)).head?.any isHunk = true := by
    rw [hbody, hhead]
    exact isHunk_hunkOf hgroup
  have hhunks : hunksOf (patchOf m fromfile tofile source target n) =
      (group :: rest).map (hunkOf (splitLines source) (splitLines target)) := by
    rw [hunksOf, hbody, splitHunks_groups hfilled]
  unfold applyUnifiedPatch
  rw [require_bind hfilledPatch, require_bind hpaths, require_bind hfirst, hhunks, hrun]
  rfl

lemma written_eq_iff {lines : List Line} (hlines : ∀ line ∈ lines, Unbroken line) (hlength : lines.length = (splitLines target).length) :
    written source lines = target ↔ lines = splitLines target ∧ target = written source (splitLines target) := by
  constructor
  · intro hwritten
    suffices hsame : lines = splitLines target from ⟨hsame, by rw [← hsame, hwritten]⟩
    by_cases hne : lines = []
    · rw [hne, List.length_nil] at hlength
      rw [hne, List.length_eq_zero_iff.mp hlength.symm]
    · have hpieces := @breakLines_pieces (newlineOf source) (if endsLine source then newlineOf source else []) (newlineOf_isEnd source) (by
        split
        · exact .inr (newlineOf_isEnd source)
        · exact .inl rfl) lines hne hlines
      have hsplit : splitLines target = (pieces (newlineOf source) (if endsLine source then newlineOf source else []) lines).map Prod.fst := by
        rw [splitLines, ← hwritten, written, hpieces]
      by_cases hlast : (if endsLine source then newlineOf source else []) ≠ [] ∨ lines.getLast? ≠ some []
      · rw [hsplit, map_pieces hlast]
      · obtain ⟨hfinal, hempty⟩ := not_or.mp hlast
        rw [not_not] at hfinal hempty
        have hless := @length_pieces (newlineOf source) lines hempty
        rw [hsplit, List.length_map, hfinal] at hlength
        omega
  · rintro ⟨rfl, hwritten⟩
    exact hwritten.symm

lemma mem_hunks {lines : List Line} : (∀ line ∈ (splitHunks lines).1, line ∈ lines) ∧
    ∀ hunk ∈ (splitHunks lines).2, ∀ line ∈ hunk.2, line ∈ lines := by
  induction lines with
  | nil => exact ⟨fun _ h => h, fun _ h => absurd h List.not_mem_nil⟩
  | cons first rest ih =>
    cases hfirst : isHunk first with
    | true =>
      simp only [splitHunks, hfirst, if_true]
      refine ⟨fun _ h => absurd h List.not_mem_nil, fun hunk hhunk line hline => List.mem_cons_of_mem _ ?_⟩
      cases List.mem_cons.mp hhunk with
      | inl hsame =>
        rw [hsame] at hline
        exact ih.1 line hline
      | inr hlater => exact ih.2 hunk hlater line hline
    | false =>
      simp only [splitHunks, hfirst, Bool.false_eq_true, if_false]
      refine ⟨fun line hline => ?_, fun hunk hhunk line hline => List.mem_cons_of_mem _ (ih.2 hunk hhunk line hline)⟩
      cases List.mem_cons.mp hline with
      | inl hsame => exact hsame ▸ List.mem_cons_self ..
      | inr hlater => exact List.mem_cons_of_mem _ (ih.1 line hlater)

lemma hunksOf_unbroken (patch : Text) : ∀ hunk ∈ hunksOf patch, ∀ line ∈ hunk.2, Unbroken line := by
  intro hunk hhunk line hline
  have hbody := mem_hunks.2 hunk hhunk line hline
  exact splitLines_unbroken patch line ((List.dropWhile_sublist _).mem hbody)

lemma roundTrip_iff (fromfile tofile : Label path) (n : ℕ) :
    RoundTrip digits m fromfile tofile source target n ↔ Replayable m source target n := by
  by_cases hdiffer : splitLines source = splitLines target
  · have hempty : patchOf m fromfile tofile source target n = [] := by
      have hgroups := groupedOpcodes_same m (splitLines target) n
      rw [patchOf, hdiffer, unifiedDiff]
      simp only [hgroups, if_true]
      rfl
    constructor
    · intro h
      rw [RoundTrip, hempty] at h
      cases h
    · exact fun h => absurd hdiffer h.differ
  · obtain ⟨t', hrun, hlength, hiff, happly⟩ := @apply_patchOf digits m path source target fromfile tofile n hdiffer
    have hfilled := covers_filled (groupedOpcodes_covers m (splitLines source) (splitLines target) n)
    have hhunks : ∀ hunk ∈ (groupedOpcodes n (m.opcodes (splitLines source) (splitLines target))).map
        (hunkOf (splitLines source) (splitLines target)), ∀ line ∈ hunk.2, Unbroken line := by
      intro hunk hhunk line hline
      obtain ⟨group, -, rfl⟩ := List.mem_map.mp hhunk
      cases group with
      | nil => cases hline
      | cons first rest =>
        obtain ⟨c, -, hc⟩ := List.mem_flatMap.mp hline
        exact unbroken_lines hc
    have hunbroken := resultOf_unbroken (splitLines_unbroken source) hhunks (fun _ h => absurd h List.not_mem_nil) hrun
    rw [RoundTrip, happly, Except.ok.injEq, written_eq_iff hunbroken hlength, hiff]
    exact ⟨fun h => ⟨hdiffer, h.2, h.1⟩, fun h => ⟨h.insertions, h.ended⟩⟩

def endingAt (source : Text) (length k' : ℕ) : Text :=
  if k' + 1 = length then (if endsLine source then newlineOf source else []) else newlineOf source

lemma getElem?_pieces {ending final : Text} {lines : List Line} {k : ℕ} {line : Line} (h : lines[k]? = some line) :
    (pieces ending final lines)[k]? =
      if k + 1 = lines.length then (if line = [] ∧ final = [] then none else some (line, final)) else some (line, ending) := by
  induction lines generalizing k with
  | nil => cases h
  | cons first rest ih =>
    cases rest with
    | nil =>
      cases k with
      | zero =>
        cases h
        simp only [pieces, List.length_singleton, Nat.zero_add, if_true]
        split <;> rfl
      | succ k => cases h
    | cons next rest =>
      cases k with
      | zero =>
        cases h
        rw [pieces, if_neg (by simp)]
        rfl
      | succ k =>
        rw [pieces, List.getElem?_cons_succ, ih (by simpa using h)]
        simp

def PreservesOutside (digits : Digits) (source patch updated : Text) : Prop :=
  ∀ k k', Outside (splitLines source).length (headersOf digits (hunksOf patch)) 0 0 k k' →
    (breakLines [] updated)[k']? = (breakLines [] source)[k]?

/-- A line outside the hunks ends as lines of the source are ended. -/
def EndsAlike (digits : Digits) (source patch : Text) : Prop :=
  ∀ k k', Outside (splitLines source).length (headersOf digits (hunksOf patch)) 0 0 k k' → ∀ piece, (breakLines [] source)[k]? = some piece →
    piece.2 = endingAt source (resultLength (splitLines source).length (headersOf digits (hunksOf patch)) 0 0) k'

def MatchesStated (digits : Digits) (source patch : Text) : Prop :=
  ∀ hunk ∈ hunksOf patch, ∃ header, readHeader digits hunk.1 = some header ∧
    (oldLines hunk.2 = [] ∨ (1 ≤ header.oldStart ∧ oldLines hunk.2 <+: (splitLines source).drop (header.oldStart - 1)))

def CountsFromOne (digits : Digits) (patch : Text) : Prop :=
  ∀ hunk ∈ hunksOf patch, ∀ header, readHeader digits hunk.1 = some header → header.oldStart = 0 → oldLines hunk.2 = []

variable {patch updated : Text}

variable (h : applyUnifiedPatch digits source patch path = .ok updated)

include h in
lemma applyUnifiedPatch_ok :
    ∃ t', (hunksOf patch).foldlM (applyHunk digits (splitLines source)) (0, []) = .ok t' ∧
      updated = written source (resultOf (splitLines source) t') := by
  obtain ⟨_, -, h⟩ := ok_of_bind h
  obtain ⟨_, -, h⟩ := ok_of_bind h
  obtain ⟨_, -, h⟩ := ok_of_bind h
  obtain ⟨t', hrun, h⟩ := ok_of_bind h
  cases h
  exact ⟨t', hrun, rfl⟩

include h in
lemma preservesOutside_iff :
    PreservesOutside digits source patch updated ↔ EndsAlike digits source patch := by
  obtain ⟨t', hrun, rfl⟩ := applyUnifiedPatch_ok h
  have hunbroken := resultOf_unbroken (splitLines_unbroken source) (hunksOf_unbroken patch) (fun _ h => absurd h List.not_mem_nil) hrun
  have hlength := length_resultOf hrun
  unfold PreservesOutside EndsAlike
  refine forall_congr' fun k => forall_congr' fun k' => forall_congr' fun hout => ?_
  obtain ⟨hline, hbelow⟩ := applyHunks_outside hrun hout
  have hlines : splitLines source = (breakLines [] source).map Prod.fst := rfl
  obtain ⟨⟨line, ending⟩, hpiece⟩ : ∃ piece, (breakLines [] source)[k]? = some piece := by
    rw [hlines, List.length_map] at hbelow
    exact ⟨_, List.getElem?_eq_getElem hbelow⟩
  have hfilled := (breakLines_unbroken (fun _ hc => absurd hc List.not_mem_nil) source (line, ending) (List.mem_of_getElem? hpiece)).2
  rw [hlines, List.getElem?_map, hpiece, ← hlines] at hline
  have hne : resultOf (splitLines source) t' ≠ [] := by
    intro hnil
    rw [hnil] at hline
    cases hline
  have hpieces := @breakLines_pieces (newlineOf source) (if endsLine source then newlineOf source else []) (newlineOf_isEnd source) (by
    split
    · exact .inr (newlineOf_isEnd source)
    · exact .inl rfl) (resultOf (splitLines source) t') hne hunbroken
  rw [written, hpieces, getElem?_pieces hline, hpiece, hlength]
  simp only [List.length_nil, endingAt, Option.some.injEq, forall_eq']
  generalize (if endsLine source = true then newlineOf source else []) = final
  by_cases hlast : k' + 1 = resultLength (splitLines source).length (headersOf digits (hunksOf patch)) 0 0
  · simp only [if_pos hlast]
    by_cases hempty : line = [] ∧ final = []
    · rw [if_pos hempty]
      constructor
      · nofun
      · intro hends
        rcases hfilled with hfilled | hfilled
        · exact absurd hempty.1 hfilled
        · exact absurd (hends.trans hempty.2) hfilled
    · rw [if_neg hempty]
      simp [eq_comm]
  · simp only [if_neg hlast]
    simp [eq_comm]

include h in
lemma matchesStated_iff :
    MatchesStated digits source patch ↔ CountsFromOne digits patch := by
  obtain ⟨t', hrun, -⟩ := applyUnifiedPatch_ok h
  have hold := applyHunks_old hrun
  constructor
  · intro hmatches hunk hhunk header hread hzero
    obtain ⟨header', hread', hold'⟩ := hmatches hunk hhunk
    rw [hread] at hread'
    cases hread'
    rcases hold' with hnone | ⟨hpos, -⟩
    · exact hnone
    · omega
  · intro hcounts hunk hhunk
    obtain ⟨header, hread, hstands⟩ := hold hunk hhunk
    refine ⟨header, hread, ?_⟩
    by_cases hzero : header.oldStart = 0
    · exact .inl (hcounts hunk hhunk header hread hzero)
    · rw [Header.target, if_neg hzero] at hstands
      exact .inr ⟨by omega, hstands⟩

/-- When a diff makes the second text of the first, and a patch leaves the lines outside its hunks alone. -/
theorem unifiedPatch_iff (digits : Digits) (m : Matcher Line) :
    (∀ (path source target : Text) (fromfile tofile : Label path) (n : ℕ),
      RoundTrip digits m fromfile tofile source target n ↔ Replayable m source target n) ∧
    (∀ path source patch updated : Text, applyUnifiedPatch digits source patch path = .ok updated →
      (PreservesOutside digits source patch updated ↔ EndsAlike digits source patch) ∧
      (MatchesStated digits source patch ↔ CountsFromOne digits patch)) :=
  ⟨fun _ _ _ fromfile tofile n => roundTrip_iff fromfile tofile n,
    fun _ _ _ _ h => ⟨preservesOutside_iff h, matchesStated_iff h⟩⟩

def replacing : Matcher Line where
  opcodes a b :=
    if a = b then if a = [] then [] else [⟨.equal, 0, a.length, 0, a.length⟩]
    else [⟨if a = [] then .insert else if b = [] then .delete else .replace, 0, a.length, 0, b.length⟩]
  describes a b := by
    split
    · rename_i hsame
      subst hsame
      split
      · rename_i hnil
        rw [hnil]
        exact .nil 0 0
      · exact @Chain.single Line a a ⟨.equal, 0, a.length, 0, a.length⟩
          ⟨Nat.zero_le _, Nat.zero_le _, fun _ => ⟨rfl, rfl⟩, nofun, nofun⟩
    · refine @Chain.single Line a b ⟨_, 0, a.length, 0, b.length⟩ ⟨Nat.zero_le _, Nat.zero_le _, ?_, ?_, ?_⟩
      · intro htag
        dsimp only at htag
        split at htag
        · cases htag
        · split at htag <;> cases htag
      · intro htag
        dsimp only at htag
        split at htag
        · cases htag
        · split at htag
          · rename_i hb
            rw [hb]
            rfl
          · cases htag
      · intro htag
        dsimp only at htag
        split at htag
        · rename_i ha
          rw [ha]
          rfl
        · split at htag <;> cases htag
  same a := if_pos rfl

def fileLabel : Label ['f'] := ⟨['f'], by simp [Unbroken, isBreak], fun named h => Option.some.inj (h.symm.trans (by decide))⟩

def secondLine : Text := ['@', '@', ' ', '-', '2', ' ', '+', '2', ' ', '@', '@', '\n', '-', 'b', '\n', '+', 'x']

theorem changed_roundTrip : RoundTrip asciiDigits replacing fileLabel fileLabel ['a', '\n'] ['b', '\n'] 3 ∧
    PreservesOutside asciiDigits ['a', '\n', 'b', '\n', 'c', '\n'] secondLine ['a', '\n', 'x', '\n', 'c', '\n'] ∧
    MatchesStated asciiDigits ['a', '\n', 'b', '\n', 'c', '\n'] secondLine := by
  have happly : applyUnifiedPatch asciiDigits ['a', '\n', 'b', '\n', 'c', '\n'] secondLine ['f'] = .ok ['a', '\n', 'x', '\n', 'c', '\n'] := by
    decide +kernel
  have hheaders : headersOf asciiDigits (hunksOf secondLine) = [⟨2, 1, 1⟩] := by decide +kernel
  have hpieces : breakLines [] ['a', '\n', 'b', '\n', 'c', '\n'] = [(['a'], ['\n']), (['b'], ['\n']), (['c'], ['\n'])] := by decide +kernel
  have hhunks : hunksOf secondLine = [(['@', '@', ' ', '-', '2', ' ', '+', '2', ' ', '@', '@'], [['-', 'b'], ['+', 'x']])] := by decide +kernel
  obtain ⟨hround, haccepted⟩ := unifiedPatch_iff asciiDigits replacing
  obtain ⟨hpreserves, hmatches⟩ := haccepted _ _ _ _ happly
  refine ⟨(hround _ _ _ fileLabel fileLabel 3).mpr ⟨by decide, by decide, ?_⟩, hpreserves.mpr ?_, hmatches.mpr ?_⟩
  · exact insertions_of_context (groupedOpcodes_covers replacing _ _ 3) (by decide)
  · intro k k' hout piece hpiece
    have hending : endingAt ['a', '\n', 'b', '\n', 'c', '\n'] (resultLength (splitLines ['a', '\n', 'b', '\n', 'c', '\n']).length
        (headersOf asciiDigits (hunksOf secondLine)) 0 0) k' = ['\n'] := by
      have hnewline : newlineOf ['a', '\n', 'b', '\n', 'c', '\n'] = ['\n'] ∧ endsLine ['a', '\n', 'b', '\n', 'c', '\n'] = true := by decide
      rw [endingAt, hnewline.1, hnewline.2, if_pos rfl]
      exact ite_self _
    have hall : ∀ p ∈ breakLines [] ['a', '\n', 'b', '\n', 'c', '\n'], p.2 = ['\n'] := by
      rw [hpieces]
      decide
    rw [hending]
    exact hall piece (List.mem_of_getElem? hpiece)
  · intro hunk hhunk header hread hzero
    rw [hhunks, List.mem_singleton] at hhunk
    subst hhunk
    have hheader : readHeader asciiDigits ['@', '@', ' ', '-', '2', ' ', '+', '2', ' ', '@', '@'] = some ⟨2, 1, 1⟩ := by decide +kernel
    rw [hheader] at hread
    cases hread
    cases hzero

/-- The new file comes without its last line end. -/
theorem created_differs :
    applyUnifiedPatch asciiDigits [] (patchOf replacing fileLabel fileLabel [] ['a', '\n'] 3) ['f'] = .ok ['a'] ∧
      ¬ RoundTrip asciiDigits replacing fileLabel fileLabel [] ['a', '\n'] 3 := by
  have happly : applyUnifiedPatch asciiDigits [] (patchOf replacing fileLabel fileLabel [] ['a', '\n'] 3) ['f'] = .ok ['a'] := by
    decide +kernel
  refine ⟨happly, fun h => ?_⟩
  rw [RoundTrip, happly] at h
  cases h

end PromptForge.UnifiedPatches
