import PromptForge.PublicText
import PromptForge.RegexMatches

namespace PromptForge.PublicText
open Regex

variable (u : Unicode)

def Named (name : List Char) : Prop := ∃ tag ∈ tags, name.map foldCase = tag.toList.map foldCase

def Opens (text : List Char) : Prop := ∃ name attributes after, text = '<' :: (name ++ (attributes ++ '>' :: after)) ∧ Named name ∧
  (name.getLast?.any (isWord u) != (attributes ++ '>' :: after).head?.any (isWord u)) = true ∧ '>' ∉ attributes

variable {u}

lemma named_ne_nil {name : List Char} (h : Named name) : name ≠ [] := by
  rintro rfl
  obtain ⟨tag, htag, hsame⟩ := h
  simp only [tags, List.mem_cons, List.not_mem_nil, or_false] at htag
  rcases htag with rfl | rfl | rfl | rfl | rfl <;> simp at hsame

lemma matches_word {s s' : Cursor} : Matches (anyWord tags) s s' ↔ ∃ name rest, s.rest = name ++ rest ∧ Named name ∧ s' = s.past name rest := by
  unfold anyWord
  rw [matches_alts]
  constructor
  · rintro ⟨p, hp, h⟩
    obtain ⟨tag, htag, rfl⟩ := List.mem_map.mp hp
    obtain ⟨name, rest, hs, hsame, rfl⟩ := matches_takes.mp h
    exact ⟨name, rest, hs, ⟨tag, htag, hsame⟩, rfl⟩
  · rintro ⟨name, rest, hs, ⟨tag, htag, hsame⟩, rfl⟩
    exact ⟨word tag, List.mem_map_of_mem htag, matches_takes.mpr ⟨name, rest, hs, hsame, rfl⟩⟩

lemma matches_opening {s : Cursor} : (∃ s', Matches (opening u) s s') ↔ Opens u s.rest := by
  constructor
  · rintro ⟨s', s₁, ⟨c, rest, hs, hc, rfl⟩, s₂, ⟨m, hname, rfl⟩, s₃, ⟨hboundary, rfl⟩, s₄, hattributes, s₅, ⟨d, after, hafter, hd, rfl⟩, rfl⟩
    obtain ⟨name, rest', hrest, hnamed, rfl⟩ := matches_word.mp hname
    obtain ⟨attributes, rest'', hrest', hall, rfl⟩ := matches_star.mp hattributes
    obtain rfl : c = '<' := by simpa using hc
    obtain rfl : d = '>' := by simpa using hd
    change rest = name ++ rest' at hrest
    change rest' = attributes ++ rest'' at hrest'
    change rest'' = '>' :: after at hafter
    subst hafter hrest' hrest
    refine ⟨name, attributes, after, hs, hnamed, ?_, fun hmem => ?_⟩
    · obtain ⟨last, hlast⟩ := Option.isSome_iff_exists.mp (List.getLast?_isSome.mpr (named_ne_nil hnamed))
      simpa [Cursor.past, hlast] using hboundary
    · simpa using hall '>' hmem
  · rintro ⟨name, attributes, after, hs, hnamed, hboundary, hattributes⟩
    have hlast : ∀ previous : Option Char, name.getLast?.or previous = name.getLast? := fun previous => by
      obtain ⟨last, hlast⟩ := Option.isSome_iff_exists.mp (List.getLast?_isSome.mpr (named_ne_nil hnamed))
      rw [hlast, Option.some_or]
    refine ⟨_, _, ⟨'<', _, hs, rfl, rfl⟩, _, ⟨_, matches_word.mpr ⟨name, _, rfl, hnamed, rfl⟩, rfl⟩, _, ⟨?_, rfl⟩, _,
      matches_star.mpr ⟨attributes, '>' :: after, rfl, fun c hc => ?_, rfl⟩, _, ⟨'>', after, rfl, rfl, rfl⟩, rfl⟩
    · simpa only [Cursor.past, hlast] using hboundary
    · simp only [bne_iff_ne, ne_eq]
      rintro rfl
      exact hattributes hc

lemma matches_hidden {s : Cursor} : (∃ s', Matches (hiddenBlock u) s s') ↔ Opens u s.rest := by
  rw [← matches_opening]
  constructor
  · rintro ⟨s', m, hm, -⟩
    exact ⟨m, hm⟩
  · rintro ⟨m, hm⟩
    refine ⟨m.past m.rest [], m, hm, _, matches_star.mpr ⟨m.rest, [], by simp, by simp, rfl⟩, .inr (.inl ⟨rfl, rfl⟩)⟩

lemma consumes_hidden : Consumes (hiddenBlock u) := by
  rintro s s' ⟨m, ⟨s₁, ⟨c, rest, hs, -, rfl⟩, hopening⟩, hblock⟩
  have hlength := ((matches_suffix hblock).trans (matches_suffix hopening)).length_le
  rw [hs, List.length_cons]
  exact Nat.lt_succ_of_le hlength

lemma exec_hidden {previous : Option Char} {text : List Char} : (exec (hiddenBlock u) ⟨previous, text, []⟩ some).isSome = true ↔ Opens u text :=
  isSome_exec.trans matches_hidden

lemma exec_opening {previous : Option Char} {text : List Char} : (exec (opening u) ⟨previous, text, []⟩ some).isSome = true ↔ Opens u text :=
  isSome_exec.trans matches_opening

def pieces (ms : List Found) (last : List Char) : List (List Char) := ms.map Found.before ++ [last]

variable {previous : Option Char} {text last : List Char} {ms : List Found}

variable (h : Laid (hiddenBlock u) previous text ms last)

include h in
lemma pieces_subset : (pieces ms last).flatten ⊆ text := by
  induction h with
  | last => simp [pieces]
  | @more previous text last m ms hsplits hrest ih =>
    rw [hsplits.parts]
    intro c hc
    rcases List.mem_append.mp hc with hbefore | hlater
    · exact List.mem_append_left _ hbefore
    · exact List.mem_append_right _ (List.mem_append_right _ (ih hlater))

include h in
lemma not_opens {before after : List (List Char)} {a b : List Char} (hb : b ≠ [])
    (hpieces : pieces ms last = before ++ (a ++ b) :: after) : ∃ rest, ¬ Opens u (b ++ rest) ∧ after.flatten ⊆ rest := by
  induction h generalizing before with
  | @last previous text hnone =>
    cases before with
    | nil =>
      obtain ⟨hab, rfl⟩ := List.cons.inj hpieces
      refine ⟨[], fun hopens => ?_, by simp⟩
      rw [List.append_nil, ← exec_hidden, hnone a b hab] at hopens
      cases hopens
    | cons piece before => simp [pieces] at hpieces
  | @more previous text last m ms hsplits hrest ih =>
    cases before with
    | nil =>
      obtain ⟨hab, hafter⟩ := List.cons.inj hpieces
      refine ⟨m.text ++ m.after, fun hopens => ?_, ?_⟩
      · rw [← exec_hidden, hsplits.first a b hab hb] at hopens
        cases hopens
      · rw [← hafter]
        exact List.Subset.trans (pieces_subset hrest) (List.subset_append_right ..)
    | cons piece before => exact ih (List.cons.inj hpieces).2

def takePieces : ℕ → List (List Char) → List (List Char)
  | _, [] => []
  | n, piece :: rest => piece.take n :: takePieces (n - piece.length) rest

lemma flatten_takePieces (n : ℕ) (parts : List (List Char)) : (takePieces n parts).flatten = parts.flatten.take n := by
  induction parts generalizing n with
  | nil => simp [takePieces]
  | cons piece parts ih => simp [takePieces, ih, List.take_append]

lemma of_takePieces {n : ℕ} {parts before after : List (List Char)} {piece : List Char} (h : takePieces n parts = before ++ piece :: after) :
    ∃ before' rest after', parts = before' ++ (piece ++ rest) :: after' ∧ after.flatten ⊆ after'.flatten := by
  induction parts generalizing n before with
  | nil => simp [takePieces] at h
  | cons first parts ih =>
    cases before with
    | nil =>
      obtain ⟨rfl, rfl⟩ := List.cons.inj h
      refine ⟨[], first.drop n, parts, by simp, ?_⟩
      rw [flatten_takePieces]
      exact List.take_subset ..
    | cons other before =>
      obtain ⟨before', rest, after', rfl, hafter⟩ := ih (List.cons.inj h).2
      exact ⟨first :: before', rest, after', rfl, hafter⟩

lemma piece_of_flatten {parts : List (List Char)} {a b : List Char} {c : Char} (h : parts.flatten = a ++ c :: b) :
    ∃ before x y after, parts = before ++ (x ++ c :: y) :: after ∧ b = y ++ after.flatten := by
  induction parts generalizing a with
  | nil => simp at h
  | cons piece parts ih =>
    rw [List.flatten_cons] at h
    rcases List.append_eq_append_iff.mp h with ⟨a', rfl, hrest⟩ | ⟨x, rfl, hrest⟩
    · obtain ⟨before, x, y, after, rfl, hb⟩ := ih hrest
      exact ⟨piece :: before, x, y, after, rfl, hb⟩
    · cases x with
      | nil =>
        obtain ⟨before, x, y, after, rfl, hb⟩ := @ih [] hrest.symm
        exact ⟨(a ++ []) :: before, x, y, after, rfl, hb⟩
      | cons d y =>
        obtain ⟨rfl, rfl⟩ := List.cons.inj hrest
        exact ⟨[], a, y, parts, rfl, rfl⟩

/-- A piece ends with `<` and a beginning of a name, and the following pieces make an opening tag of it. -/
def Joins (u : Unicode) (parts : List (List Char)) : Prop :=
  ∃ before x y after name attributes rest, parts = before ++ (x ++ '<' :: y) :: after ∧ y ++ after.flatten = name ++ (attributes ++ '>' :: rest) ∧
    Named name ∧ (name.getLast?.any (isWord u) != (attributes ++ '>' :: rest).head?.any (isWord u)) = true ∧ '>' ∉ attributes ∧
    y.length ≤ name.length

lemma opens_of_joins {parts : List (List Char)} (h : Joins u parts) : ∃ a b, parts.flatten = a ++ b ∧ Opens u b := by
  obtain ⟨before, x, y, after, name, attributes, rest, rfl, hname, hnamed, hboundary, hattributes, -⟩ := h
  refine ⟨before.flatten ++ x, '<' :: (name ++ (attributes ++ '>' :: rest)), ?_, name, attributes, rest, rfl, hnamed, hboundary, hattributes⟩
  rw [← hname]
  simp

include h in
lemma joins_of_opens {n : ℕ} {a b : List Char}
    (hab : (takePieces n (pieces ms last)).flatten = a ++ b) (hopens : Opens u b) : Joins u (takePieces n (pieces ms last)) := by
  obtain ⟨name, attributes, rest, rfl, hnamed, hboundary, hattributes⟩ := hopens
  obtain ⟨before, x, y, after, hparts, hb⟩ := piece_of_flatten hab
  refine ⟨before, x, y, after, name, attributes, rest, hparts, hb.symm, hnamed, hboundary, hattributes, ?_⟩
  by_contra hlong
  rcases List.append_eq_append_iff.mp hb with ⟨tail, rfl, htail⟩ | ⟨missing, rfl, -⟩
  swap
  · simp at hlong
  cases tail with
  | nil => simp at hlong
  | cons d tail =>
    obtain ⟨before', cut, after', hpieces, hafter⟩ := of_takePieces hparts
    rw [List.append_assoc] at hpieces
    obtain ⟨following, hnot, hfollowing⟩ := not_opens h (by simp) hpieces
    have hclosed : '>' ∈ d :: tail ++ (cut ++ following) := by
      have hmem : '>' ∈ d :: tail ++ after.flatten := htail ▸ List.mem_append_right _ (List.mem_cons_self ..)
      rcases List.mem_append.mp hmem with hin | hlater
      · exact List.mem_append_left _ hin
      · exact List.mem_append_right _ (List.mem_append_right _ (hfollowing (hafter hlater)))
    obtain ⟨attributes', rest', hsplit, hnone⟩ := List.eq_append_cons_of_mem hclosed
    refine hnot ⟨name, attributes', rest', ?_, hnamed, ?_, hnone⟩
    · rw [← hsplit]
      simp
    · rw [← hsplit]
      rw [htail] at hboundary
      simpa using hboundary

def outsidePlaces : ℕ → List Found → List Char → List ℕ
  | offset, [], last => List.range' offset last.length
  | offset, m :: ms, last => List.range' offset m.before.length ++ outsidePlaces (offset + m.before.length + m.text.length) ms last

def blockPlaces : ℕ → List Found → List (ℕ × ℕ)
  | _, [] => []
  | offset, m :: ms =>
    (offset + m.before.length, offset + m.before.length + m.text.length) :: blockPlaces (offset + m.before.length + m.text.length) ms

lemma le_outsidePlaces {offset i : ℕ} (h : i ∈ outsidePlaces offset ms last) : offset ≤ i := by
  induction ms generalizing offset with
  | nil =>
    simp only [outsidePlaces, List.mem_range'_1] at h
    exact h.1
  | cons m ms ih =>
    rcases List.mem_append.mp h with hbefore | hlater
    · exact (List.mem_range'_1.mp hbefore).1
    · have hle := ih hlater
      omega

lemma le_blockPlaces {offset : ℕ} {block : ℕ × ℕ} (h : block ∈ blockPlaces offset ms) : offset ≤ block.1 := by
  induction ms generalizing offset with
  | nil => cases h
  | cons m ms ih =>
    rcases List.mem_cons.mp h with rfl | hlater
    · exact Nat.le_add_right ..
    · have hle := ih hlater
      omega

lemma outside_blocks {offset i : ℕ} {block : ℕ × ℕ} (hi : i ∈ outsidePlaces offset ms last) (hblock : block ∈ blockPlaces offset ms) :
    i < block.1 ∨ block.2 ≤ i := by
  induction ms generalizing offset with
  | nil => cases hblock
  | cons m ms ih =>
    rcases List.mem_append.mp hi with hbefore | hlater
    · have hlt := (List.mem_range'_1.mp hbefore).2
      rcases List.mem_cons.mp hblock with rfl | hblock
      · exact .inl hlt
      · have hle := le_blockPlaces hblock
        omega
    · rcases List.mem_cons.mp hblock with rfl | hblock
      · exact .inr (le_outsidePlaces hlater)
      · exact ih hlater hblock

include h in
lemma opening_in_block (offset : ℕ) {q : ℕ} (hopens : Opens u (text.drop q)) :
    ∃ block ∈ blockPlaces offset ms, block.1 ≤ offset + q ∧ offset + q < block.2 := by
  induction h generalizing offset q with
  | @last previous text hnone =>
    have hnever := hnone (text.take q) (text.drop q) (List.take_append_drop q text).symm
    rw [← exec_hidden, hnever] at hopens
    cases hopens
  | @more previous text last m ms hsplits hrest ih =>
    by_cases hbefore : q < m.before.length
    · have hdrop : text.drop q = m.before.drop q ++ (m.text ++ m.after) := by
        rw [hsplits.parts, List.drop_append_of_le_length (by omega)]
      have hnever := hsplits.first (m.before.take q) (m.before.drop q) (List.take_append_drop q m.before).symm (by simpa using hbefore)
      rw [hdrop, ← exec_hidden, hnever] at hopens
      cases hopens
    · by_cases hblock : q < m.before.length + m.text.length
      · exact ⟨_, List.mem_cons_self .., by simp only; omega, by simp only; omega⟩
      · have hdrop : text.drop q = m.after.drop (q - (m.before.length + m.text.length)) := by
          rw [hsplits.parts, ← List.append_assoc, List.drop_append, List.drop_eq_nil_of_le (by simp; omega), List.nil_append, List.length_append]
        rw [hdrop] at hopens
        obtain ⟨block, hmem, hlow, hhigh⟩ := ih (offset + m.before.length + m.text.length) hopens
        exact ⟨block, List.mem_cons_of_mem _ hmem, by omega, by omega⟩

section Statement
variable (u)

def closingTag (name : List Char) : Pattern := seqs [exactly "</", takes name, star space, .char (· == '>')]

/-- The number of characters up to the end of the closing tag of a name, where so many tags of the
    name have been opened and not closed since. -/
def closes (name : List Char) : ℕ → List Char → Option ℕ
  | _, [] => none
  | depth, c :: rest =>
    if ((matchAt (opening u) none [] (c :: rest)).map fun m => (m.group 1).map foldCase) = some (name.map foldCase) then
      (closes name (depth + 1) rest).map (· + 1)
    else
      match matchAt (closingTag name) none [] (c :: rest), depth with
      | some m, 0 => some m.text.length
      | some _, depth + 1 => (closes name depth rest).map (· + 1)
      | none, depth => (closes name depth rest).map (· + 1)

def blockLength (text : List Char) : Option ℕ :=
  (matchAt (opening u) none [] text).bind fun m => (closes u (m.group 1) 0 m.after).map (m.text.length + ·)

def lastPiece (text : List Char) : List Char := ((findAll (hiddenBlock u) text).getLast?.map Found.after).getD text

/-- The number of characters outside the blocks up to the limit, or up to the last `<` where a tag is unfinished. -/
def cutAt (text : List Char) (limit : ℕ) : ℕ := min limit (withoutUnfinished (erase (hiddenBlock u) text)).length

def shownPieces (text : List Char) (limit : ℕ) : List (List Char) := takePieces (cutAt u text limit) (split (hiddenBlock u) text)

def shownPlaces (text : List Char) (limit : ℕ) : List ℕ :=
  (outsidePlaces 0 (findAll (hiddenBlock u) text) (lastPiece u text)).take (cutAt u text limit)

/-- No hidden tag or block leaks, and the shown text is not changed when it is shown again. -/
structure Hides (text : List Char) (limit : ℕ) : Prop where
  opening : found (opening u) (publicText u text limit) = false
  unfinished : ∀ a b, publicText u text limit = a ++ '<' :: b → isUnfinished ('<' :: b) = false
  blocks : ∀ place length, blockLength u (text.drop place) = some length → ∀ i ∈ shownPlaces u text limit, i < place ∨ place + length ≤ i
  again : publicText u (publicText u text limit) limit = publicText u text limit

/-- What a text has to be for that. -/
structure Separate (text : List Char) (limit : ℕ) : Prop where
  seams : ¬ Joins u (shownPieces u text limit)
  cut : ∀ a b c, erase (hiddenBlock u) text = a ++ '<' :: (b ++ c) → a.length + 1 + b.length = cutAt u text limit → isUnfinished ('<' :: b) = false
  nested : ∀ block ∈ blockPlaces 0 (findAll (hiddenBlock u) text), ∀ place length, block.1 ≤ place → place < block.2 →
    blockLength u (text.drop place) = some length → ∀ i ∈ shownPlaces u text limit, block.2 ≤ i → place + length ≤ i

end Statement

lemma laid (text : List Char) : Laid (hiddenBlock u) none text (findAll (hiddenBlock u) text) (lastPiece u text) := laid_split consumes_hidden text

lemma lastTag_eq {text before tag : List Char} (h : lastTag? text = some (before, tag)) : text = before ++ tag ∧ ∃ after, tag = '<' :: after := by
  unfold lastTag? at h
  split at h
  · rename_i hmem
    cases h
    have hparts := @List.rdropWhile_append_rtakeWhile _ (· != '<') text
    have hne : text.rdropWhile (· != '<') ≠ [] := fun hnil => by
      have hall := List.rdropWhile_eq_nil_iff.mp hnil '<' (by simpa using hmem)
      simp at hall
    have hlast : (text.rdropWhile (· != '<')).getLast hne = '<' := by simpa using List.rdropWhile_last_not (· != '<') text hne
    have htext : (text.rdropWhile (· != '<')).dropLast ++ '<' :: text.rtakeWhile (· != '<') = text := by
      have hfront := List.dropLast_append_getLast hne
      rw [hlast] at hfront
      calc
        _ = ((text.rdropWhile (· != '<')).dropLast ++ ['<']) ++ text.rtakeWhile (· != '<') := by simp
        _ = text := by rw [hfront, hparts]
    refine ⟨?_, _, rfl⟩
    have hbefore : text.take (text.length - ((text.rtakeWhile (· != '<')).length + 1)) = (text.rdropWhile (· != '<')).dropLast := by
      have hlength := congrArg List.length htext
      rw [List.length_append, List.length_cons] at hlength
      have hplace : text.length - ((text.rtakeWhile (· != '<')).length + 1) = (text.rdropWhile (· != '<')).dropLast.length := by omega
      calc
        _ = ((text.rdropWhile (· != '<')).dropLast ++ '<' :: text.rtakeWhile (· != '<')).take (text.rdropWhile (· != '<')).dropLast.length := by
          rw [hplace, htext]
        _ = _ := List.take_left
    rw [hbefore, htext]
  · cases h

lemma withoutUnfinished_begins (text : List Char) : withoutUnfinished text <+: text := by
  unfold withoutUnfinished
  split
  · rename_i before tag htag
    split
    · exact ⟨tag, (lastTag_eq htag).1.symm⟩
    · exact List.prefix_refl _
  · exact List.prefix_refl _

lemma publicText_eq (text : List Char) (limit : ℕ) : publicText u text limit = (erase (hiddenBlock u) text).take (cutAt u text limit) := by
  have hwhole := List.prefix_iff_eq_take.mp (withoutUnfinished_begins (erase (hiddenBlock u) text))
  unfold publicText cutAt
  rw [← List.take_take, ← hwhole]

lemma publicText_pieces (text : List Char) (limit : ℕ) : publicText u text limit = (shownPieces u text limit).flatten := by
  rw [publicText_eq, shownPieces, flatten_takePieces]
  rfl

lemma not_found_iff {text : List Char} : found (opening u) text = false ↔ ∀ a b, text = a ++ b → ¬ Opens u b := by
  constructor
  · intro h a b hab hopens
    rw [← exec_opening, exec_of_not_found h hab] at hopens
    cases hopens
  · intro h
    unfold found search
    cases hsearch : searchFrom (opening u) none [] text with
    | none => rfl
    | some m =>
      obtain ⟨skipped, -, hsplits⟩ := splits_of_search hsearch
      exact absurd (exec_opening.mp hsplits.matched) (h _ _ hsplits.parts)

lemma erase_of_not_found {text : List Char} (h : ∀ a b, text = a ++ b → ¬ Opens u b) : erase (hiddenBlock u) text = text := by
  have hsearch : searchFrom (hiddenBlock u) none [] text = none := by
    cases hsearch : searchFrom (hiddenBlock u) none [] text with
    | none => rfl
    | some m =>
      obtain ⟨skipped, -, hsplits⟩ := splits_of_search hsearch
      exact absurd (exec_hidden.mp hsplits.matched) (h _ _ hsplits.parts)
  have hnone : findAll (hiddenBlock u) text = [] := by
    unfold findAll matches'
    rw [hsearch]
  unfold erase split
  rw [hnone]
  simp

lemma opens_of_blockLength {text : List Char} {length : ℕ} (h : blockLength u text = some length) : Opens u text := by
  obtain ⟨m, hm, -⟩ := Option.bind_eq_some_iff.mp h
  obtain ⟨s', hexec, -⟩ := Option.map_eq_some_iff.mp hm
  exact exec_opening.mp (Option.isSome_iff_exists.mpr ⟨s', hexec⟩)

def ascii : Unicode := ⟨fun _ => false, fun _ => false⟩

def joinedTag : List Char := "<th<think>x</think>ink>secret</think>".toList

end PromptForge.PublicText
