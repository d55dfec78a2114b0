import PromptForge.CollisionRenames

namespace PromptForge.CollisionRenames
open Regex Texts WordReplacements

variable {u : Letters} {lexes double escaped starred : Bool} {scan : Scan} {c : Char} {i j : ℕ}
variable {first before after text rest word name className : Text}

def isPlain (c : Char) : Bool := !(c == '"' || c == '\'' || c == '\\' || c == '/' || c == '*' || c == '\n')

lemma isPlain_iff : isPlain c = true ↔ c ≠ '"' ∧ c ≠ '\'' ∧ c ≠ '\\' ∧ c ≠ '/' ∧ c ≠ '*' ∧ c ≠ '\n' := by
  simp only [isPlain, Bool.not_eq_true', Bool.or_eq_false_iff, beq_eq_false_iff_ne, ne_eq, and_assoc]

lemma plain_ne_mark (h : isPlain c = true) (double : Bool) : c ≠ mark double := by
  cases double with
  | true => exact (isPlain_iff.mp h).1
  | false => exact (isPlain_iff.mp h).2.1

def settle : Scan → Scan
  | .outside => .outside
  | .line => .line
  | .opening | .block _ => .block false
  | .quoted double _ => .quoted double false

lemma settle_settle (scan : Scan) : settle (settle scan) = settle scan := by cases scan <;> rfl

lemma scanOutside_ne (hmark : c ≠ '"') (hquote : c ≠ '\'') (hslash : c ≠ '/') (rest : Text) : scanOutside c rest = .outside := by
  unfold scanOutside
  rw [if_neg fun h => hslash h.1, if_neg fun h => hslash h.1, if_neg fun h => hmark h.1, if_neg fun h => hquote h.1]

lemma scanStep_plain (h : isPlain c = true) (scan : Scan) (rest : Text) : scanStep scan c rest = settle scan := by
  obtain ⟨hmark, hquote, hescape, hslash, hstar, hline⟩ := isPlain_iff.mp h
  cases scan with
  | outside => exact scanOutside_ne hmark hquote hslash rest
  | line => exact if_neg hline
  | opening => rfl
  | block starred =>
    have hplain : (c == '*') = false := beq_eq_false_iff_ne.mpr hstar
    simp only [scanStep, if_neg fun h : _ ∧ c = '/' => hslash h.2, hplain, settle]
  | quoted double escaped =>
    cases escaped with
    | true => rfl
    | false =>
      have hplain : (c == '\\') = false := beq_eq_false_iff_ne.mpr hescape
      simp only [scanStep, if_neg (plain_ne_mark h double), hplain, settle]

lemma closesQuoted_plain (h : isPlain c = true) (rest : Text) :
    closesQuoted double escaped (c :: rest) = closesQuoted double false rest := by
  obtain ⟨-, -, hescape, -, -, hline⟩ := isPlain_iff.mp h
  cases escaped with
  | true => simp [closesQuoted, hline]
  | false =>
    have hplain : (c == '\\') = false := beq_eq_false_iff_ne.mpr hescape
    simp [closesQuoted, plain_ne_mark h double, hplain]

lemma closesBlock_plain (h : isPlain c = true) (rest : Text) : closesBlock starred (c :: rest) = closesBlock false rest := by
  obtain ⟨-, -, -, hslash, hstar, -⟩ := isPlain_iff.mp h
  have hplain : (c == '*') = false := beq_eq_false_iff_ne.mpr hstar
  simp [closesBlock, hslash, hplain]

structure Alike (first second : Text) : Prop where
  quoted : ∀ double escaped, closesQuoted double escaped first = closesQuoted double escaped second
  block : ∀ starred, closesBlock starred first = closesBlock starred second

lemma Alike.append {second : Text} (h : Alike first second) (text : Text) : Alike (text ++ first) (text ++ second) := by
  induction text with
  | nil => exact h
  | cons c text ih =>
    constructor
    · intro double escaped
      cases escaped with
      | true => simp only [List.cons_append, closesQuoted, ih.quoted]
      | false => simp only [List.cons_append, closesQuoted, ih.quoted]
    · intro starred
      simp only [List.cons_append, closesBlock, ih.block]

lemma alike_plain {c d : Char} {first second : Text} (hfirst : ∀ a ∈ c :: first, isPlain a = true)
    (hsecond : ∀ a ∈ d :: second, isPlain a = true) (rest : Text) : Alike (c :: first ++ rest) (d :: second ++ rest) := by
  have hquoted : ∀ {text : Text}, (∀ a ∈ text, isPlain a = true) → ∀ double, closesQuoted double false (text ++ rest) = closesQuoted double false rest := by
    intro text htext double
    induction text with
    | nil => rfl
    | cons a text ih =>
      rw [List.cons_append, closesQuoted_plain (htext a List.mem_cons_self)]
      exact ih fun b hb => htext b (List.mem_cons_of_mem a hb)
  have hblock : ∀ {text : Text}, (∀ a ∈ text, isPlain a = true) → closesBlock false (text ++ rest) = closesBlock false rest := by
    intro text htext
    induction text with
    | nil => rfl
    | cons a text ih =>
      rw [List.cons_append, closesBlock_plain (htext a List.mem_cons_self)]
      exact ih fun b hb => htext b (List.mem_cons_of_mem a hb)
  obtain ⟨hc, hfirst⟩ := List.forall_mem_cons.mp hfirst
  obtain ⟨hd, hsecond⟩ := List.forall_mem_cons.mp hsecond
  constructor
  · intro double escaped
    rw [List.cons_append, List.cons_append, closesQuoted_plain hc, closesQuoted_plain hd, hquoted hfirst, hquoted hsecond]
  · intro starred
    rw [List.cons_append, List.cons_append, closesBlock_plain hc, closesBlock_plain hd, hblock hfirst, hblock hsecond]

def EndsBlank (text : Text) : Prop := text.getLast?.any isSpace = true

lemma EndsBlank.tail (h : EndsBlank (c :: text)) (hne : text ≠ []) : EndsBlank text := by
  obtain ⟨d, text, rfl⟩ := List.exists_cons_of_ne_nil hne
  exact h

lemma EndsBlank.drop (h : EndsBlank text) (hi : i < text.length) : EndsBlank (text.drop i) := by
  unfold EndsBlank
  rw [List.getLast?_drop, if_neg (Nat.not_le_of_lt hi)]
  exact h

def scanNext (lexes : Bool) (scan : Scan) (c : Char) (rest : Text) : Scan := if lexes then scanStep scan c rest else .outside

def scanAfter (lexes : Bool) : Scan → Text → Text → Scan
  | scan, [], _ => scan
  | scan, c :: text, rest => scanAfter lexes (scanNext lexes scan c (text ++ rest)) text rest

lemma scansFrom_right (scan : Scan) (text rest : Text) (j : ℕ) :
    (scansFrom lexes scan (text ++ rest))[text.length + j]? = (scansFrom lexes (scanAfter lexes scan text rest) rest)[j]? := by
  induction text generalizing scan with
  | nil => rw [List.length_nil, Nat.zero_add]; rfl
  | cons c text ih =>
    rw [List.length_cons, Nat.add_right_comm]
    exact ih _

lemma scanNext_alike {second : Text} (hends : EndsBlank (c :: text)) (h : lexes = true → Alike first second) (scan : Scan) :
    scanNext lexes scan c (text ++ first) = scanNext lexes scan c (text ++ second) := by
  cases lexes with
  | false => rfl
  | true =>
    have h := h rfl
    cases scan with
    | outside =>
      change scanOutside c _ = scanOutside c _
      cases text with
      | nil =>
        have hspace : isSpace c = true := hends
        have hne : ∀ d, isSpace d = false → c ≠ d := by
          rintro d hd rfl
          rw [hspace] at hd
          cases hd
        rw [scanOutside_ne (hne _ rfl) (hne _ rfl) (hne _ rfl), scanOutside_ne (hne _ rfl) (hne _ rfl) (hne _ rfl)]
      | cons d text =>
        unfold scanOutside
        rw [(h.append (d :: text)).quoted, (h.append (d :: text)).quoted]
        simp only [List.cons_append, List.head?_cons, List.tail_cons, (h.append text).block]
    | quoted double escaped => cases escaped <;> rfl
    | _ => rfl

lemma scansFrom_left {second : Text} (hends : EndsBlank text) (h : lexes = true → Alike first second) (scan : Scan) :
    scanAfter lexes scan text first = scanAfter lexes scan text second ∧
      ∀ i < text.length, (scansFrom lexes scan (text ++ first))[i]? = (scansFrom lexes scan (text ++ second))[i]? := by
  induction text generalizing scan with
  | nil => cases hends
  | cons c text ih =>
    have hnext := scanNext_alike hends h scan
    rcases eq_or_ne text [] with rfl | hne
    · refine ⟨hnext, fun i hi => ?_⟩
      obtain rfl := Nat.lt_one_iff.mp hi
      rfl
    · obtain ⟨hafter, hscans⟩ := ih (hends.tail hne) (scanNext lexes scan c (text ++ second))
      unfold scanAfter
      rw [hnext]
      refine ⟨hafter, fun i hi => ?_⟩
      cases i with
      | zero => rfl
      | succ i =>
        change (scansFrom lexes (scanNext lexes scan c (text ++ first)) (text ++ first))[i]? = _
        rw [hnext]
        exact hscans i (Nat.lt_of_succ_lt_succ hi)

lemma scanAfter_plain (hplain : lexes = true → ∀ a ∈ c :: text, isPlain a = true) (scan : Scan) (rest : Text) :
    scanAfter lexes scan (c :: text) rest = if lexes then settle scan else .outside := by
  cases lexes with
  | false =>
    have houtside : ∀ text : Text, scanAfter false .outside text rest = .outside := fun text => by
      induction text with
      | nil => rfl
      | cons a text ih => exact ih
    exact houtside text
  | true =>
    obtain ⟨hc, htext⟩ := List.forall_mem_cons.mp (hplain rfl)
    have hsettled : ∀ {text : Text}, (∀ a ∈ text, isPlain a = true) → ∀ scan, settle scan = scan → scanAfter true scan text rest = scan := by
      intro text htext scan hscan
      induction text with
      | nil => rfl
      | cons a text ih =>
        unfold scanAfter
        rw [show scanNext true scan a (text ++ rest) = settle scan from scanStep_plain (htext a List.mem_cons_self) scan _, hscan]
        exact ih fun b hb => htext b (List.mem_cons_of_mem a hb)
    unfold scanAfter
    rw [show scanNext true scan c (text ++ rest) = settle scan from scanStep_plain hc scan _]
    exact hsettled htext _ (settle_settle scan)

structure Renaming (u : Letters) (lexes : Bool) (word name : Text) : Prop where
  word_ne : word ≠ []
  inside : ∀ c ∈ word, isWord u.toUnicode c = true
  plain : ∀ c ∈ word, isPlain c = true ∧ isSpace c = false
  name_last : name.getLast?.any (fun c => isWord u.toUnicode c && !isSpace c) = true
  unaccessed : ∀ c ∈ name, c ≠ '.' ∧ c ≠ '-'
  apart : ∀ y, y ≠ [] → y <:+ name → ¬y <+: word
  lexed : lexes = true → ∀ c ∈ name, isPlain c = true

lemma Renaming.last (h : Renaming u lexes word name) : ∃ c, name.getLast? = some c ∧ isWord u.toUnicode c = true ∧ isSpace c = false := by
  obtain ⟨c, hc, hplain⟩ := (Option.any_eq_true _ _).mp h.name_last
  rw [Bool.and_eq_true, Bool.not_eq_true'] at hplain
  exact ⟨c, hc, hplain⟩

lemma Renaming.name_ne (h : Renaming u lexes word name) : name ≠ [] := by
  rintro rfl
  cases h.name_last

lemma prefix_left (hword : ∀ c ∈ word, isSpace c = false) (hends : EndsBlank text) (rest : Text) : word <+: text ++ rest ↔ word <+: text := by
  constructor
  · intro h
    rcases List.prefix_or_prefix_of_prefix h (List.prefix_append text rest) with hshort | hlong
    · exact hshort
    · exfalso
      obtain ⟨b, hb, hspace⟩ := (Option.any_eq_true _ _).mp hends
      have hmem : b ∈ word := hlong.subset (List.mem_of_getLast? hb)
      rw [hword b hmem] at hspace
      cases hspace
  · exact fun h => h.trans (List.prefix_append text rest)

lemma prefix_shorter (hword : ∀ c ∈ word, isSpace c = false) (hends : EndsBlank text) (h : word <+: text) : word.length < text.length := by
  refine lt_of_le_of_ne h.length_le fun hlength => ?_
  obtain ⟨b, hb, hspace⟩ := (Option.any_eq_true _ _).mp hends
  rw [← h.eq_of_length hlength] at hb
  rw [hword b (List.mem_of_getLast? hb)] at hspace
  cases hspace

lemma isAccessed_blank (h : isSpace c = true) (rest : Text) : isAccessed (c :: rest) = isAccessed rest := by
  unfold isAccessed
  rw [List.dropWhile_cons_of_pos h]

lemma isAccessed_ne (hspace : isSpace c = false) (hdot : c ≠ '.') (harrow : c ≠ '-') (rest : Text) : isAccessed (c :: rest) = false := by
  unfold isAccessed
  rw [List.dropWhile_cons_of_neg (by rw [hspace]; exact Bool.false_ne_true)]
  split
  · rename_i heq
    exact absurd (List.cons.inj heq).1 hdot
  · rename_i heq
    exact absurd (List.cons.inj heq).1 harrow
  · rfl

lemma isAccessed_name (hlast : text.getLast?.any (fun c => !isSpace c) = true) (hne : ∀ c ∈ text, c ≠ '.' ∧ c ≠ '-') (rest : Text) :
    isAccessed (text ++ rest) = false := by
  induction text with
  | nil => cases hlast
  | cons c text ih =>
    obtain ⟨⟨hdot, harrow⟩, htext⟩ := List.forall_mem_cons.mp hne
    cases hspace : isSpace c with
    | false => exact isAccessed_ne hspace hdot harrow _
    | true =>
      rw [List.cons_append, isAccessed_blank hspace]
      cases text with
      | nil =>
        simp only [List.getLast?_singleton, Option.any_some, hspace] at hlast
        cases hlast
      | cons d text => exact ih hlast htext

lemma isAccessed_new (h : Renaming u lexes word name) (hsuffix : text <:+ name) (hne : text ≠ []) (rest : Text) :
    isAccessed (text ++ rest) = false := by
  refine isAccessed_name ?_ (fun c hc => h.unaccessed c (hsuffix.subset hc)) rest
  obtain ⟨c, hlast, -, hspace⟩ := h.last
  obtain ⟨before, rfl⟩ := hsuffix
  rw [List.getLast?_append_of_ne_nil _ hne] at hlast
  rw [hlast, Option.any_some, hspace]
  rfl

lemma isAccessed_word (h : Renaming u lexes word name) (rest : Text) : isAccessed (word ++ rest) = false := by
  obtain ⟨c, word', rfl⟩ := List.exists_cons_of_ne_nil h.word_ne
  have hinside := h.inside c List.mem_cons_self
  refine isAccessed_ne (h.plain c List.mem_cons_self).2 ?_ ?_ _ <;> (rintro rfl; cases hinside)

lemma isAccessed_left {second : Text} (hends : EndsBlank text ∨ text = []) (h : isAccessed first = isAccessed second) :
    isAccessed (text ++ first) = isAccessed (text ++ second) := by
  induction text with
  | nil => exact h
  | cons c text ih =>
    have hends := hends.resolve_right (List.cons_ne_nil c text)
    cases hspace : isSpace c with
    | true =>
      rw [List.cons_append, List.cons_append, isAccessed_blank hspace, isAccessed_blank hspace]
      exact ih (or_iff_not_imp_right.mpr hends.tail)
    | false =>
      cases text with
      | nil =>
        rw [show isSpace c = true from hends] at hspace
        cases hspace
      | cons d text =>
        unfold isAccessed
        simp only [List.cons_append]
        have hneg : ¬isSpace c = true := Bool.eq_false_iff.mp hspace
        rw [List.dropWhile_cons_of_neg hneg, List.dropWhile_cons_of_neg hneg]
        by_cases hdot : c = '.'
        · subst hdot
          rfl
        · by_cases harrow : c = '-' ∧ d = '>'
          · obtain ⟨rfl, rfl⟩ := harrow
            rfl
          · split <;> split <;> simp_all

lemma boundary_left {second : Text} (hi : i < text.length) : isBoundary u (text ++ first) i = isBoundary u (text ++ second) i := by
  unfold isBoundary
  obtain ⟨a, rest, hdrop⟩ := List.exists_cons_of_ne_nil (List.ne_nil_of_length_pos (by rw [List.length_drop]; omega : 0 < (text.drop i).length))
  simp only [List.take_append_of_le_length hi.le, List.drop_append_of_le_length hi.le, hdrop, List.cons_append, List.head?_cons]

lemma boundary_right (hfirst : first.getLast?.any (isWord u.toUnicode) = before.getLast?.any (isWord u.toUnicode)) (rest : Text) (j : ℕ) :
    isBoundary u (first ++ rest) (first.length + j) = isBoundary u (before ++ rest) (before.length + j) := by
  unfold isBoundary
  simp only [List.take_length_add_append, List.drop_length_add_append, List.getLast?_append]
  cases (rest.take j).getLast? with
  | none => simp only [Option.none_or, hfirst]
  | some d => rfl

lemma usesAt_iff : usesAt u lexes word text i = true ↔ (scansFrom lexes .outside text)[i]? = some .outside ∧ isBoundary u text i = true ∧
    word <+: text.drop i ∧ isAccessed (text.drop (i + word.length)) = true := by
  simp only [usesAt, Bool.and_eq_true, decide_eq_true_eq, and_assoc]

section Uses
variable (h : Renaming u lexes word name) (hends : EndsBlank before)
include h hends

lemma usesAt_fits (hi : i < before.length) (huses : usesAt u lexes word (before ++ text) i = true) : i + word.length < before.length := by
  obtain ⟨-, -, hbegin, -⟩ := usesAt_iff.mp huses
  rw [List.drop_append_of_le_length hi.le, prefix_left (fun c hc => (h.plain c hc).2) (hends.drop hi)] at hbegin
  have hshorter := prefix_shorter (fun c hc => (h.plain c hc).2) (hends.drop hi) hbegin
  rw [List.length_drop] at hshorter
  omega

lemma usesAt_left (hi : i < before.length) : usesAt u lexes word (before ++ (name ++ rest)) i = usesAt u lexes word (before ++ (word ++ rest)) i := by
  obtain ⟨a, name', rfl⟩ := List.exists_cons_of_ne_nil h.name_ne
  obtain ⟨b, word', hword⟩ := List.exists_cons_of_ne_nil h.word_ne
  have halike : lexes = true → Alike (a :: name' ++ rest) (word ++ rest) := fun hlexes => by
    rw [hword]
    exact alike_plain (h.lexed hlexes) (hword ▸ fun c hc => (h.plain c hc).1) rest
  have hblank : ∀ c ∈ word, isSpace c = false := fun c hc => (h.plain c hc).2
  unfold usesAt
  rw [(scansFrom_left hends halike .outside).2 i hi, boundary_left hi, List.drop_append_of_le_length hi.le, List.drop_append_of_le_length hi.le]
  simp only [prefix_left hblank (hends.drop hi)]
  by_cases hbegin : word <+: before.drop i
  · have hshorter := prefix_shorter hblank (hends.drop hi) hbegin
    rw [List.length_drop] at hshorter
    have hle : i + word.length < before.length := by omega
    rw [List.drop_append_of_le_length hle.le, List.drop_append_of_le_length hle.le,
      isAccessed_left (.inl (hends.drop hle)) ((isAccessed_new h List.suffix_rfl h.name_ne rest).trans (isAccessed_word h rest).symm)]
  · rw [decide_eq_false hbegin, Bool.and_false, Bool.false_and, Bool.false_and]

omit hends in
lemma usesAt_name (hi : i < name.length) : usesAt u lexes word (before ++ (name ++ rest)) (before.length + i) = false := by
  refine Bool.eq_false_iff.mpr fun huses => ?_
  obtain ⟨-, -, hbegin, haccessed⟩ := usesAt_iff.mp huses
  rw [Nat.add_assoc, List.drop_length_add_append] at haccessed
  rw [List.drop_length_add_append, List.drop_append_of_le_length hi.le] at hbegin
  have hne : name.drop i ≠ [] := List.ne_nil_of_length_pos (by rw [List.length_drop]; omega)
  by_cases hwithin : i + word.length < name.length
  · rw [List.drop_append_of_le_length hwithin.le,
      isAccessed_new h (List.drop_suffix _ _) (List.ne_nil_of_length_pos (by rw [List.length_drop]; omega))] at haccessed
    cases haccessed
  · refine h.apart _ hne (List.drop_suffix i name) ?_
    exact List.prefix_of_prefix_length_le (List.prefix_append _ rest) hbegin (by rw [List.length_drop]; omega)

lemma usesAt_right (j : ℕ) : usesAt u lexes word (before ++ (name ++ rest)) (before.length + (name.length + j)) =
    usesAt u lexes word (before ++ (word ++ rest)) (before.length + (word.length + j)) := by
  obtain ⟨a, name', hname⟩ := List.exists_cons_of_ne_nil h.name_ne
  obtain ⟨b, word', hword⟩ := List.exists_cons_of_ne_nil h.word_ne
  have halike : lexes = true → Alike (name ++ rest) (word ++ rest) := fun hlexes => by
    rw [hname, hword]
    exact alike_plain (hname ▸ h.lexed hlexes) (hword ▸ fun c hc => (h.plain c hc).1) rest
  have hafter : ∀ scan, scanAfter lexes scan name rest = scanAfter lexes scan word rest := fun scan => by
    rw [hname, hword, scanAfter_plain (hname ▸ h.lexed), scanAfter_plain (hword ▸ fun _ c hc => (h.plain c hc).1)]
  have hscans : (scansFrom lexes .outside (before ++ (name ++ rest)))[before.length + (name.length + j)]? =
      (scansFrom lexes .outside (before ++ (word ++ rest)))[before.length + (word.length + j)]? := by
    rw [scansFrom_right, scansFrom_right, scansFrom_right, scansFrom_right, (scansFrom_left hends halike .outside).1, hafter]
  have hboundary : isBoundary u (before ++ (name ++ rest)) (before.length + (name.length + j)) =
      isBoundary u (before ++ (word ++ rest)) (before.length + (word.length + j)) := by
    simp only [← List.append_assoc, ← Nat.add_assoc, ← List.length_append]
    refine boundary_right ?_ rest j
    obtain ⟨c, hlast, hinside, -⟩ := h.last
    rw [List.getLast?_append_of_ne_nil _ h.name_ne, List.getLast?_append_of_ne_nil _ h.word_ne, hlast, Option.any_some, hinside,
      List.getLast?_eq_some_getLast h.word_ne, Option.any_some, h.inside _ (List.getLast_mem h.word_ne)]
  unfold usesAt
  rw [hscans, hboundary]
  simp only [Nat.add_assoc, List.drop_length_add_append]

end Uses

structure Declared (className word before rest : Text) : Prop where
  ends : EndsBlank before
  behind : endsDeclaration rest = true
  here : declaresAt className word (before ++ (word ++ rest)) before.length = true
  only : ∀ i, i ≠ before.length → declaresAt className word (before ++ (word ++ rest)) i = false

lemma declaresAt_iff : declaresAt className word text i = true ↔
    beginsDeclaration className (text.take i).reverse = true ∧ word <+: text.drop i ∧ endsDeclaration (text.drop (i + word.length)) = true := by
  simp only [declaresAt, Bool.and_eq_true, decide_eq_true_eq, and_assoc]

lemma ends_of_begins (h : beginsDeclaration className before.reverse = true) : EndsBlank before := by
  simp only [beginsDeclaration, Bool.and_eq_true, List.head?_reverse] at h
  exact h.1.1

lemma declaresAt_lt (hword : word ≠ []) (h : declaresAt className word text i = true) : i < text.length := by
  have hle := (declaresAt_iff.mp h).2.1.length_le
  have hpos := List.length_pos_iff.mpr hword
  rw [List.length_drop] at hle
  omega

lemma exists_declared (hword : word ≠ []) (h : declarations className word text = 1) :
    ∃ before rest, text = before ++ (word ++ rest) ∧ Declared className word before rest := by
  unfold declarations at h
  rw [List.countP_eq_length_filter, List.length_eq_one_iff] at h
  obtain ⟨i, hi⟩ := h
  have hmem : ∀ j, declaresAt className word text j = true ↔ j = i := fun j => by
    rw [← @List.mem_singleton _ j, ← hi, List.mem_filter, List.mem_range]
    exact ⟨fun hj => ⟨declaresAt_lt hword hj, hj⟩, And.right⟩
  have hhere := (hmem i).mpr rfl
  obtain ⟨hbegins, ⟨rest, hrest⟩, hends⟩ := declaresAt_iff.mp hhere
  have hlt := declaresAt_lt hword hhere
  have htext : text = text.take i ++ (word ++ rest) := by rw [hrest, List.take_append_drop]
  have hlength : (text.take i).length = i := List.length_take_of_le hlt.le
  have hdrop : text.drop (i + word.length) = rest := by rw [← List.drop_drop, ← hrest, List.drop_left]
  refine ⟨text.take i, rest, htext, ends_of_begins hbegins, hdrop ▸ hends, ?_, fun j hj => ?_⟩
  · rw [← htext, hlength]
    exact hhere
  · rw [← htext, Bool.eq_false_iff]
    exact fun hdeclares => hj (((hmem j).mp hdeclares).trans hlength.symm)

section Renamed
variable (h : Renaming u lexes word name) (hdeclared : Declared className word before rest)
include h hdeclared

lemma replace_declaration :
    replaceAt (declaresAt className word (before ++ (word ++ rest))) word.length name (before ++ (word ++ rest)) = before ++ (name ++ rest) := by
  unfold replaceAt
  have hbefore : ∀ i, 0 ≤ i → i < 0 + before.length → declaresAt className word (before ++ (word ++ rest)) i = false :=
    fun i _ hlt => hdeclared.only i (by omega)
  rw [replaceFrom_append (Nat.zero_le _) fun i hi hlt hhit => absurd hhit (Bool.eq_false_iff.mp (hbefore i hi hlt)),
    replaceFrom_none hbefore, Nat.zero_add, replaceFrom_word h.word_ne hdeclared.here, replaceFrom_none]
  have hpos := List.length_pos_iff.mpr h.word_ne
  exact fun i hi _ => hdeclared.only i (by omega)

lemma uses_fit (i : ℕ) (hlt : i < 0 + before.length) (huses : usesAt u lexes word (before ++ (name ++ rest)) i = true) :
    i + word.length < 0 + before.length := by
  have hshorter := usesAt_fits h hdeclared.ends (by omega) huses
  omega

lemma rename_parts : rename u lexes className word name (before ++ (word ++ rest)) =
    replaceFrom (usesAt u lexes word (before ++ (name ++ rest))) word.length name 0 0 before ++
      (name ++ replaceFrom (usesAt u lexes word (before ++ (name ++ rest))) word.length name 0 (0 + before.length + name.length) rest) := by
  unfold rename
  rw [replace_declaration h hdeclared]
  have hname : ∀ i, 0 + before.length ≤ i → i < 0 + before.length + name.length → usesAt u lexes word (before ++ (name ++ rest)) i = false :=
    fun i hi hlt => by
      obtain ⟨k, rfl⟩ : ∃ k, i = before.length + k := ⟨i - before.length, by omega⟩
      exact usesAt_name h (by omega)
  unfold replaceAt
  rw [replaceFrom_append (Nat.zero_le _) fun i _ hlt huses => (uses_fit h hdeclared i hlt huses).le,
    replaceFrom_append (Nat.zero_le _) fun i hi hlt huses => absurd huses (Bool.eq_false_iff.mp (hname i hi hlt)), replaceFrom_none hname]

lemma rename_eq : rename u lexes className word name (before ++ (word ++ rest)) =
    replaceAt (fun i => declaresAt className word (before ++ (word ++ rest)) i || usesAt u lexes word (before ++ (word ++ rest)) i)
      word.length name (before ++ (word ++ rest)) := by
  have hmarks : ∀ i, i ≠ before.length → (declaresAt className word (before ++ (word ++ rest)) i || usesAt u lexes word (before ++ (word ++ rest)) i) =
      usesAt u lexes word (before ++ (word ++ rest)) i := fun i hi => by rw [hdeclared.only i hi, Bool.false_or]
  have hbefore : ∀ i, 0 ≤ i → i < 0 + before.length → usesAt u lexes word (before ++ (name ++ rest)) i =
      (declaresAt className word (before ++ (word ++ rest)) i || usesAt u lexes word (before ++ (word ++ rest)) i) := fun i _ hlt => by
    rw [hmarks i (by omega), usesAt_left h hdeclared.ends (by omega)]
  unfold replaceAt
  rw [rename_parts h hdeclared, replaceFrom_congr hbefore,
    replaceFrom_append (Nat.zero_le _) fun i hi hlt hhit => (uses_fit h hdeclared i hlt ((hbefore i hi hlt).trans hhit)).le,
    replaceFrom_word h.word_ne]
  · congr 2
    have hshift : ∀ (here : ℕ → Bool) k, replaceFrom here word.length name 0 k rest = replaceFrom (fun i => here (k + i)) word.length name 0 0 rest :=
      fun here k => @replaceFrom_shift _ here word.length 0 0 name rest k
    refine (hshift _ _).trans ((replaceFrom_congr fun j _ _ => ?_).trans (hshift _ _).symm)
    have hpos := List.length_pos_iff.mpr h.word_ne
    rw [hmarks _ (by omega), Nat.zero_add, Nat.add_assoc, Nat.add_assoc]
    exact usesAt_right h hdeclared.ends j
  · rw [Nat.zero_add, hdeclared.here, Bool.true_or]

lemma renamed_ends : EndsBlank (replaceFrom (usesAt u lexes word (before ++ (name ++ rest))) word.length name 0 0 before) := by
  have hfits := uses_fit h hdeclared
  revert hfits
  generalize usesAt u lexes word (before ++ (name ++ rest)) = here
  intro hfits
  obtain ⟨b, hb, hspace⟩ := (Option.any_eq_true _ _).mp hdeclared.ends
  obtain ⟨front, rfl⟩ := List.getLast?_eq_some_iff.mp hb
  rw [List.length_append, List.length_singleton] at hfits
  rw [replaceFrom_last (List.length_pos_iff.mpr h.word_ne) fun i _ => hfits i]
  unfold EndsBlank
  rw [List.getLast?_append_of_ne_nil _ (List.cons_ne_nil _ _)]
  exact hspace

end Renamed

end PromptForge.CollisionRenames
