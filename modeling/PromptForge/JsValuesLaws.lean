import PromptForge.JsValues

namespace PromptForge.JsValues
open Numbers JsonText

section
variable {α : Type} {r : α → α → Prop} [DecidableRel r]

lemma pairwise_sort (htotal : ∀ a b, r a b ∨ r b a) (htrans : ∀ a b c, r a b → r b c → r a c) (xs : List α) :
    (xs.insertionSort r).Pairwise r :=
  haveI : Std.Total r := ⟨htotal⟩
  haveI : IsTrans α r := ⟨htrans⟩
  List.pairwise_insertionSort r xs

lemma sort_of_pairwise {xs : List α} (h : xs.Pairwise r) : xs.insertionSort r = xs := List.Pairwise.insertionSort_eq h

lemma filter_orderedInsert (htrans : ∀ a b c, r a b → r b c → r a c) (p : α → Bool) {xs : List α} (h : xs.Pairwise r) (a : α) :
    (xs.orderedInsert r a).filter p = if p a then (xs.filter p).orderedInsert r a else xs.filter p := by
  induction xs with
  | nil => cases hp : p a <;> simp [hp]
  | cons b xs ih =>
    obtain ⟨hb, hxs⟩ := List.pairwise_cons.mp h
    by_cases hab : r a b
    · rw [List.orderedInsert_cons_of_le r xs hab]
      cases hp : p a with
      | false => simp [hp]
      | true =>
        have hall : ∀ c ∈ (b :: xs).filter p, r a c := by
          intro c hc
          cases List.mem_cons.mp (List.mem_filter.mp hc).1 with
          | inl same => exact same ▸ hab
          | inr later => exact htrans a b c hab (hb c later)
        cases hs : (b :: xs).filter p with
        | nil => simp [hp, hs]
        | cons c cs => simp [hp, hs, List.orderedInsert_cons_of_le r cs (hall c (by simp [hs]))]
    · rw [List.orderedInsert_of_not_le r xs hab, List.filter_cons, ih hxs]
      cases hb : p b with
      | false => simp [hb]
      | true =>
        cases hp : p a with
        | false => simp [hb]
        | true => simp [hb, List.orderedInsert_of_not_le r _ hab]

lemma filter_sort (htotal : ∀ a b, r a b ∨ r b a) (htrans : ∀ a b c, r a b → r b c → r a c) (p : α → Bool) (xs : List α) :
    (xs.insertionSort r).filter p = (xs.filter p).insertionSort r := by
  induction xs with
  | nil => rfl
  | cons a xs ih =>
    rw [List.insertionSort_cons, filter_orderedInsert htrans p (pairwise_sort htotal htrans xs), ih, List.filter_cons]
    split <;> rfl

lemma sort_append_sort (htotal : ∀ a b, r a b ∨ r b a) (htrans : ∀ a b c, r a b → r b c → r a c) (xs ys : List α) :
    (xs ++ ys.insertionSort r).insertionSort r = (xs ++ ys).insertionSort r := by
  induction xs with
  | nil => exact sort_of_pairwise (pairwise_sort htotal htrans ys)
  | cons a xs ih => rw [List.cons_append, List.insertionSort_cons, ih, List.cons_append, List.insertionSort_cons]

lemma sort_eq_of_perm (htotal : ∀ a b, r a b ∨ r b a) (htrans : ∀ a b c, r a b → r b c → r a c) {xs ys : List α} (h : xs.Perm ys)
    (hanti : ∀ a ∈ xs, ∀ b ∈ xs, r a b → r b a → a = b) : xs.insertionSort r = ys.insertionSort r := by
  have hperm : (xs.insertionSort r).Perm (ys.insertionSort r) :=
    (List.perm_insertionSort r xs).trans (h.trans (List.perm_insertionSort r ys).symm)
  refine List.Perm.eq_of_pairwise (fun a b ha hb => ?_) (pairwise_sort htotal htrans xs) (pairwise_sort htotal htrans ys) hperm
  have ha' := (List.perm_insertionSort r xs).mem_iff.mp ha
  have hb' := h.mem_iff.mpr ((List.perm_insertionSort r ys).mem_iff.mp hb)
  exact hanti a ha' b hb'

end

lemma index?_inj {k k' : String} {n : ℕ} (h : index? k = some n) (h' : index? k' = some n) : k = k' := by
  have digits : ∀ {k : String}, index? k = some n → k.toList = Nat.toDigits 10 n := by
    intro k h
    simp only [index?] at h
    split at h
    · rename_i hk
      rw [← hk.1, Option.some.inj h]
    · cases h
  exact String.toList_inj.mp ((digits h).trans (digits h').symm)

variable {α β : Type}

lemma eq_of_key {entries : List (String × α)} (h : (entries.map Prod.fst).Nodup) {a b : String × α} (ha : a ∈ entries)
    (hb : b ∈ entries) (hkey : a.1 = b.1) : a = b := List.inj_on_of_nodup_map h ha hb hkey

lemma map_propertyOrder {f : String × α → String × β} (hf : ∀ e, (f e).1 = e.1) (entries : List (String × α)) :
    propertyOrder (entries.map f) = (propertyOrder entries).map f := by
  have hindex : ∀ p : Bool → Bool, (entries.map f).filter (fun e => p (isIndex e)) = (entries.filter fun e => p (isIndex e)).map f := by
    intro p
    rw [List.filter_map]
    congr 1
    refine List.filter_congr fun e _ => ?_
    simp [isIndex, hf]
  unfold propertyOrder
  rw [List.map_append, hindex fun b => !b, List.map_insertionSort IndexLe IndexLe f]
  · congr 2
    exact hindex id
  · intro a _ b _
    simp only [IndexLe, hf]

lemma sort_propertyOrder_sort {r : String × α → String × α → Prop} [DecidableRel r] (htotal : ∀ a b, r a b ∨ r b a)
    (htrans : ∀ a b c, r a b → r b c → r a c) {entries : List (String × α)} (hkeys : (entries.map Prod.fst).Nodup)
    (horder : propertyOrder entries = entries) :
    (propertyOrder (entries.insertionSort r)).insertionSort r = entries.insertionSort r := by
  have indices : ((entries.insertionSort r).filter isIndex).insertionSort IndexLe =
      (entries.filter isIndex).insertionSort IndexLe := by
    refine @sort_eq_of_perm _ IndexLe _ (fun a b => Nat.le_total _ _) (fun a b c => Nat.le_trans) _ _
      ((List.perm_insertionSort r entries).filter _) fun a ha b hb hab hba => ?_
    obtain ⟨ha, hai⟩ := List.mem_filter.mp ha
    obtain ⟨hb, hbi⟩ := List.mem_filter.mp hb
    obtain ⟨n, hn⟩ := Option.isSome_iff_exists.mp hai
    obtain ⟨m, hm⟩ := Option.isSome_iff_exists.mp hbi
    simp only [IndexLe, hn, hm, Option.getD_some] at hab hba
    have heq : n = m := Nat.le_antisymm hab hba
    subst heq
    exact eq_of_key hkeys ((List.perm_insertionSort r entries).mem_iff.mp ha) ((List.perm_insertionSort r entries).mem_iff.mp hb)
      (index?_inj hn hm)
  calc (propertyOrder (entries.insertionSort r)).insertionSort r
      = ((entries.filter isIndex).insertionSort IndexLe ++ (entries.filter fun e => !isIndex e).insertionSort r).insertionSort r := by
        rw [propertyOrder, indices, filter_sort htotal htrans]
    _ = (propertyOrder entries).insertionSort r := sort_append_sort htotal htrans _ _
    _ = entries.insertionSort r := by rw [horder]

lemma propertyOrder_of_names {entries : List (String × α)} (h : ∀ e ∈ entries, isIndex e = false) :
    propertyOrder entries = entries := by
  have hnone : entries.filter isIndex = [] := List.filter_eq_nil_iff.mpr fun e he => by simp [h e he]
  have hall : entries.filter (fun e => !isIndex e) = entries := List.filter_eq_self.mpr fun e he => by simp [h e he]
  rw [propertyOrder, hnone, hall]
  rfl

lemma filter_propertyOrder (p : String × α → Bool) (entries : List (String × α)) :
    (propertyOrder entries).filter p = propertyOrder (entries.filter p) := by
  have hsort := @filter_sort _ IndexLe _ (fun a b => Nat.le_total _ _) (fun a b c => Nat.le_trans) p (entries.filter isIndex)
  unfold propertyOrder
  rw [List.filter_append, hsort]
  congr 1
  · rw [List.filter_filter, List.filter_filter]
    simp only [Bool.and_comm]
  · rw [List.filter_filter, List.filter_filter]
    simp only [Bool.and_comm]

lemma perm_propertyOrder (entries : List (String × α)) : (propertyOrder entries).Perm entries :=
  ((List.perm_insertionSort _ _).append_right _).trans (List.filter_append_perm isIndex entries)

lemma readChar_escape (c : Char) (rest : List Char) : readChar (escapeChar c ++ rest) = some (c, rest) := by
  have h := readChar_escapeChar c rest
  unfold escapeChar
  unfold JsonText.escapeChar at h
  split
  · rename_i letter hc
    simpa [hc] using h
  · rename_i hc
    split
    · rename_i hlow
      have hplain : ¬ (32 ≤ c.toNat ∧ c.toNat ≤ 126) := by omega
      simpa [hc, hplain, hlow.trans (by norm_num : 32 < 0x10000)] using h
    · rename_i hlow
      refine readChar_plain ?_ hlow rest
      rintro rfl
      exact absurd hc (by decide)

lemma escapeChar_parts (c : Char) :
    escapeChar c ≠ [] ∧ (escapeChar c).head? ≠ some '"' ∧ ∀ d ∈ escapeChar c, d ≠ '\n' ∧ d ≠ '\r' := by
  have letters : ∀ entry ∈ shortEscapes, entry.2 ≠ '\n' ∧ entry.2 ≠ '\r' := by decide
  have digits : ∀ n, hexDigit n ≠ '\n' ∧ hexDigit n ≠ '\r' := by
    intro n
    by_cases hn : n < 16
    · interval_cases n <;> decide
    · have : hexDigit n = '0' := by
        have hlen : "0123456789abcdef".toList.length ≤ n := by
          have : "0123456789abcdef".toList.length = 16 := by decide
          omega
        rw [hexDigit, List.getD_eq_getElem?_getD, List.getElem?_eq_none hlen, Option.getD_none]
      rw [this]
      decide
  unfold escapeChar
  split
  · rename_i letter hc
    obtain ⟨l, r, hsplit, _⟩ := List.lookup_eq_some_iff.mp hc
    have hletter := letters (c, letter) (by simp [hsplit])
    refine ⟨List.cons_ne_nil _ _, by simp, fun d hd => ?_⟩
    simp only [List.mem_cons, List.not_mem_nil, or_false] at hd
    rcases hd with rfl | rfl
    · decide
    · exact hletter
  · rename_i hc
    split
    · refine ⟨List.cons_ne_nil _ _, by simp [escapeUnit], fun d hd => ?_⟩
      simp only [escapeUnit, hex4, List.mem_cons, List.not_mem_nil, or_false] at hd
      rcases hd with rfl | rfl | rfl | rfl | rfl | rfl
      · decide
      · decide
      · exact digits _
      · exact digits _
      · exact digits _
      · exact digits _
    · rename_i hlow
      refine ⟨List.cons_ne_nil _ _, fun hhead => ?_, fun d hd => ?_⟩
      · rw [Option.some.inj hhead] at hc
        exact absurd hc (by decide)
      · rw [List.mem_singleton.mp hd]
        refine ⟨?_, ?_⟩ <;> rintro rfl <;> exact hlow (by decide)

lemma readChars_quote (s rest : List Char) (n : ℕ) (h : (s.flatMap escapeChar).length < n) :
    readChars n (s.flatMap escapeChar ++ '"' :: rest) = some (s, rest) := by
  induction s generalizing n with
  | nil =>
    obtain ⟨n, rfl⟩ := Nat.exists_eq_succ_of_ne_zero h.ne'
    rfl
  | cons c s ih =>
    obtain ⟨hne, hhead, _⟩ := escapeChar_parts c
    rw [List.flatMap_cons, List.length_append] at h
    have hpos := List.length_pos_of_ne_nil hne
    obtain ⟨n, rfl⟩ := Nat.exists_eq_succ_of_ne_zero (Nat.ne_zero_of_lt h)
    have hquote : (escapeChar c ++ (s.flatMap escapeChar ++ '"' :: rest)).head? ≠ some '"' := by
      rwa [List.head?_append_of_ne_nil _ hne]
    rw [List.flatMap_cons, List.append_assoc]
    unfold readChars
    rw [if_neg hquote, readChar_escape]
    simp only [Option.bind_eq_bind, Option.bind_some]
    rw [ih n (by omega)]
    rfl

lemma readString_quote (s : String) (rest : List Char) :
    readString (s.toList.flatMap escapeChar ++ '"' :: rest) = some (s, rest) := by
  unfold readString
  rw [readChars_quote _ _ _ (by simp only [List.length_append, List.length_cons]; omega)]
  exact congrArg (fun t => some (t, rest)) String.ofList_toList

lemma readKey_quote (k : String) (cs : List Char) : readKey (quote k ++ ':' :: cs) = some (k, skip cs) := by
  have hshape : quote k ++ ':' :: cs = '"' :: (k.toList.flatMap escapeChar ++ '"' :: (':' :: cs)) := by simp [quote]
  rw [hshape]
  unfold readKey
  change (readString (k.toList.flatMap escapeChar ++ '"' :: (':' :: cs))).bind _ = _
  rw [readString_quote]
  rfl

structure Reads (text : List Char) (v : Json.Value) : Prop where
  starts : ∃ c tail, text = c :: tail ∧ isBlank c = false ∧ c ≠ ']'
  read : ∀ n rest, text.length ≤ n → Stops rest → readValue n (text ++ rest) = some (v, rest)

variable {text : List Char}

lemma Reads.skip {v : Json.Value} (h : Reads text v) (rest : List Char) :
    skip (text ++ rest) = text ++ rest := by
  obtain ⟨c, tail, rfl, hc, _⟩ := h.starts
  refine skip_of_head fun d hd => ?_
  rwa [← Option.some.inj hd]

lemma Reads.pos {v : Json.Value} (h : Reads text v) : 0 < text.length := by
  obtain ⟨c, tail, rfl, _⟩ := h.starts
  exact Nat.succ_pos _

lemma parse_of_reads {v : Json.Value} (h : Reads text v) : parse text = some (ofJson v) := by
  have hskip := h.skip []
  have hread := h.read (text.length + 1) [] (Nat.le_succ _) (fun c hc => by cases hc)
  rw [List.append_nil] at hskip hread
  unfold parse
  rw [hskip, hread]
  rfl

lemma reads_literal {word : List Char} {v : Json.Value}
    (hstarts : ∃ c tail, word = c :: tail ∧ isBlank c = false ∧ c ≠ ']')
    (h : ∀ n rest, readValue (n + 1) (word ++ rest) = some (v, rest)) : Reads word v := by
  refine ⟨hstarts, fun n rest hn _ => ?_⟩
  obtain ⟨c, tail, rfl, _⟩ := hstarts
  obtain ⟨n, rfl⟩ := Nat.exists_eq_succ_of_ne_zero (Nat.ne_zero_of_lt (Nat.lt_of_lt_of_le (Nat.succ_pos _) hn))
  exact h n rest

lemma reads_quote (s : String) : Reads (quote s) (.str s) := by
  refine reads_literal ⟨_, _, rfl, rfl, by decide⟩ fun n rest => ?_
  have hshape : quote s ++ rest = '"' :: (s.toList.flatMap escapeChar ++ '"' :: rest) := by simp [quote]
  rw [hshape]
  change (readString (s.toList.flatMap escapeChar ++ '"' :: rest)).map _ = _
  rw [readString_quote]
  rfl

variable {texts : List (List Char)}

lemma joined_cons (text : List Char) (h : texts ≠ []) :
    joined (text :: texts) = text ++ ',' :: joined texts := by
  cases texts with
  | nil => exact absurd rfl h
  | cons t ts => rfl

def bare : Style := exactStyle [] blank_nil

lemma readItems_joined {texts : List (List Char)} {vs : List Json.Value} (h : List.Forall₂ Reads texts vs) (hne : texts ≠ [])
    (n : ℕ) (rest : List Char) (hn : (joined texts).length < n) :
    readItems n (joined texts ++ ']' :: rest) = some (vs, rest) := by
  induction h generalizing n with
  | nil => exact absurd rfl hne
  | @cons text v texts vs hreads hrest ih =>
    obtain ⟨n, rfl⟩ := Nat.exists_eq_succ_of_ne_zero (Nat.ne_zero_of_lt hn)
    cases hrest with
    | nil => exact readItems_last (hreads.read n _ (Nat.le_of_lt_succ hn) (stops_cons (.inr (.inl rfl)) rest))
    | @cons text' v' texts vs hreads' hrest =>
      rw [joined_cons text (List.cons_ne_nil _ _)] at hn ⊢
      simp only [List.length_append, List.length_cons] at hn
      have htail := ih (List.cons_ne_nil _ _) n (by omega)
      have hskip : skip (joined (text' :: texts) ++ ']' :: rest) = joined (text' :: texts) ++ ']' :: rest := by
        cases texts with
        | nil => exact hreads'.skip _
        | cons text'' texts =>
          rw [joined_cons text' (List.cons_ne_nil _ _), List.append_assoc]
          exact hreads'.skip _
      rw [List.append_assoc, List.cons_append]
      exact readItems_more bare (hreads.read n _ (by omega) (stops_cons (.inl rfl) _)) (hskip.symm ▸ htail)

lemma skip_quote (k : String) (rest : List Char) : skip (quote k ++ rest) = quote k ++ rest := (reads_quote k).skip rest

lemma readEntries_joined {texts : List (String × List Char)} {vs : List (String × Json.Value)}
    (h : List.Forall₂ (fun text v => text.1 = v.1 ∧ Reads text.2 v.2) texts vs) (hne : texts ≠ []) (n : ℕ) (rest : List Char)
    (hn : (joined (texts.map pair)).length < n) :
    readEntries n (joined (texts.map pair) ++ '\x7d' :: rest) = some (vs, rest) := by
  induction h generalizing n with
  | nil => exact absurd rfl hne
  | @cons text v texts vs hreads hrest ih =>
    obtain ⟨k, text⟩ := text
    obtain ⟨k', v⟩ := v
    obtain ⟨hkey, hreads⟩ := hreads
    obtain rfl : k = k' := hkey
    change Reads text v at hreads
    obtain ⟨n, rfl⟩ := Nat.exists_eq_succ_of_ne_zero (Nat.ne_zero_of_lt hn)
    cases hrest with
    | nil =>
      simp only [List.map_cons, List.map_nil, joined, pair, List.length_append, List.length_cons] at hn ⊢
      have hk := readKey_quote k (text ++ '\x7d' :: rest)
      rw [hreads.skip] at hk
      rw [List.append_assoc, List.cons_append]
      exact readEntries_last hk (hreads.read n _ (by omega) (stops_cons (.inr (.inr rfl)) rest))
    | @cons entry v' texts vs hreads' hrest =>
      rw [List.map_cons, joined_cons _ (by simp)] at hn ⊢
      simp only [pair, List.length_append, List.length_cons] at hn
      have htail := ih (List.cons_ne_nil _ _) n (by simp only [List.map_cons, pair] at hn ⊢; omega)
      have hskip : ∀ tail, skip (joined ((entry :: texts).map pair) ++ tail) = joined ((entry :: texts).map pair) ++ tail := by
        intro tail
        cases texts with
        | nil =>
          simp only [List.map_cons, List.map_nil, joined, pair, List.append_assoc]
          exact skip_quote _ _
        | cons entry' texts =>
          rw [List.map_cons, joined_cons _ (by simp)]
          simp only [pair, List.append_assoc]
          exact skip_quote _ _
      have hk := readKey_quote k (text ++ ',' :: (joined ((entry :: texts).map pair) ++ '\x7d' :: rest))
      rw [hreads.skip] at hk
      have hshape : pair (k, text) ++ ',' :: joined ((entry :: texts).map pair) ++ '\x7d' :: rest =
          quote k ++ ':' :: (text ++ ',' :: (joined ((entry :: texts).map pair) ++ '\x7d' :: rest)) := by simp [pair]
      rw [hshape]
      exact readEntries_more bare hk (hreads.read n _ (by omega) (stops_cons (.inl rfl) _)) ((hskip _).symm ▸ htail)

lemma reads_array {vs : List Json.Value} (h : List.Forall₂ Reads texts vs) :
    Reads ('[' :: (joined texts ++ [']'])) (.arr vs) := by
  refine ⟨⟨_, _, rfl, rfl, by decide⟩, fun n rest hn _ => ?_⟩
  simp only [List.length_cons, List.length_append, List.length_nil] at hn
  obtain ⟨n, rfl⟩ := Nat.exists_eq_succ_of_ne_zero (Nat.ne_zero_of_lt (Nat.lt_of_lt_of_le (Nat.succ_pos _) hn))
  rw [List.cons_append, List.append_assoc]
  cases h with
  | nil => rfl
  | @cons text v texts vs hreads hrest =>
    have hne : text :: texts ≠ [] := List.cons_ne_nil _ _
    have hread := readItems_joined (.cons hreads hrest) hne n rest (by omega)
    obtain ⟨c, tail, htext, hblank, hc⟩ := hreads.starts
    obtain ⟨tail, hstart⟩ : ∃ tail, joined (text :: texts) ++ ']' :: rest = c :: tail := by
      cases texts with
      | nil => exact ⟨_, by rw [joined, htext]; rfl⟩
      | cons t ts => exact ⟨_, by rw [joined_cons _ (List.cons_ne_nil _ _), htext]; rfl⟩
    change (if (skip (joined (text :: texts) ++ ']' :: rest)).head? = some ']' then _ else
      (readItems n (skip (joined (text :: texts) ++ ']' :: rest))).map _) = _
    have hskip : skip (joined (text :: texts) ++ ']' :: rest) = joined (text :: texts) ++ ']' :: rest := by
      rw [hstart]
      exact skip_of_head fun d hd => Option.some.inj hd ▸ hblank
    rw [hskip, if_neg (by rw [hstart]; exact head_ne hc tail), hread]
    rfl

lemma reads_object {texts : List (String × List Char)} {vs : List (String × Json.Value)}
    (h : List.Forall₂ (fun text v => text.1 = v.1 ∧ Reads text.2 v.2) texts vs) (hkeys : (vs.map Prod.fst).Nodup) :
    Reads ('\x7b' :: (joined (texts.map pair) ++ ['\x7d'])) (.obj vs) := by
  refine ⟨⟨_, _, rfl, rfl, by decide⟩, fun n rest hn _ => ?_⟩
  simp only [List.length_cons, List.length_append, List.length_nil] at hn
  obtain ⟨n, rfl⟩ := Nat.exists_eq_succ_of_ne_zero (Nat.ne_zero_of_lt (Nat.lt_of_lt_of_le (Nat.succ_pos _) hn))
  rw [List.cons_append, List.append_assoc]
  cases h with
  | nil => rfl
  | @cons text v texts vs hreads hrest =>
    have hread := readEntries_joined (.cons hreads hrest) (List.cons_ne_nil _ _) n rest (by omega)
    obtain ⟨tail, hstart⟩ : ∃ tail, joined ((text :: texts).map pair) ++ '\x7d' :: rest = '"' :: tail := by
      cases texts with
      | nil => exact ⟨_, rfl⟩
      | cons t ts => exact ⟨_, by rw [List.map_cons, joined_cons _ (by simp)]; rfl⟩
    change (if (skip (joined ((text :: texts).map pair) ++ '\x7d' :: rest)).head? = some '\x7d' then _ else
      (readEntries n (skip (joined ((text :: texts).map pair) ++ '\x7d' :: rest))).map _) = _
    have hskip : skip (joined ((text :: texts).map pair) ++ '\x7d' :: rest) = joined ((text :: texts).map pair) ++ '\x7d' :: rest := by
      rw [hstart]
      exact skip_of_head fun d hd => Option.some.inj hd ▸ rfl
    rw [hskip, if_neg (by rw [hstart]; exact head_ne (by decide) tail), hread]
    change some (Json.Value.obj (dictOf (v :: vs)), rest) = _
    rw [dictOf_nodup hkeys]

lemma canonicalItems_eq_map (engine : Engine) (items : List Value) :
    canonicalItems engine items = items.map fun v => (canonical engine v).getD [] := by
  induction items with
  | nil => rfl
  | cons v vs ih => rw [canonicalItems, ih, List.map_cons]

def textOf (engine : Engine) (entry : String × Value) : String × List Char :=
  (entry.1, (canonical engine entry.2).getD ['u', 'n', 'd', 'e', 'f', 'i', 'n', 'e', 'd'])

lemma canonicalEntries_eq_map (engine : Engine) (entries : List (String × Value)) :
    canonicalEntries engine entries = entries.map (textOf engine) := by
  induction entries with
  | nil => rfl
  | cons e es ih => rw [canonicalEntries, ih, List.map_cons, textOf]

lemma ofItems_eq_map (items : List Json.Value) : ofItems items = items.map ofJson := by
  induction items with
  | nil => rfl
  | cons v vs ih => rw [ofItems, ih, List.map_cons]

lemma ofEntries_eq_map (entries : List (String × Json.Value)) : ofEntries entries = entries.map fun e => (e.1, ofJson e.2) := by
  induction entries with
  | nil => rfl
  | cons e es ih => rw [ofEntries, ih, List.map_cons]

lemma sortedItems_eq_map (items : List Value) : sortedItems items = items.map sorted := by
  induction items with
  | nil => rfl
  | cons v vs ih => rw [sortedItems, ih, List.map_cons]

lemma sortedEntries_eq_map (entries : List (String × Value)) : sortedEntries entries = entries.map fun e => (e.1, sorted e.2) := by
  induction entries with
  | nil => rfl
  | cons e es ih => rw [sortedEntries, ih, List.map_cons]

lemma properItems_iff {items : List Value} : ProperItems items ↔ ∀ v ∈ items, Proper v := by
  induction items with
  | nil => simp [ProperItems]
  | cons v vs ih => simp [ProperItems, ih]

variable {entries : List (String × Value)}

lemma properEntries_iff : ProperEntries entries ↔ ∀ e ∈ entries, Proper e.2 := by
  induction entries with
  | nil => simp [ProperEntries]
  | cons e es ih => simp [ProperEntries, ih]

lemma definedItems_iff {items : List Value} : DefinedItems items ↔ ∀ v ∈ items, Defined v := by
  induction items with
  | nil => simp [DefinedItems]
  | cons v vs ih => simp [DefinedItems, ih]

lemma definedEntries_iff : DefinedEntries entries ↔ ∀ e ∈ entries, Defined e.2 := by
  induction entries with
  | nil => simp [DefinedEntries]
  | cons e es ih => simp [DefinedEntries, ih]

section
variable (engine : Engine)

lemma sortKeys_map {α β : Type} {f : String × α → String × β} (hf : ∀ e, (f e).1 = e.1) (entries : List (String × α)) :
    sortKeys engine (entries.map f) = (sortKeys engine entries).map f := by
  unfold sortKeys
  rw [List.map_insertionSort (KeyLe engine) (KeyLe engine) f]
  intro a _ b _
  simp only [KeyLe, hf]

lemma forall₂_sortKeys {α β : Type} {R : α → β → Prop} {xs : List (String × α)} {ys : List (String × β)}
    (h : List.Forall₂ (fun x y => x.1 = y.1 ∧ R x.2 y.2) xs ys) :
    List.Forall₂ (fun x y => x.1 = y.1 ∧ R x.2 y.2) (sortKeys engine xs) (sortKeys engine ys) := by
  have insert : ∀ {xs : List (String × α)} {ys : List (String × β)}, List.Forall₂ (fun x y => x.1 = y.1 ∧ R x.2 y.2) xs ys →
      ∀ {x : String × α} {y : String × β}, x.1 = y.1 ∧ R x.2 y.2 → List.Forall₂ (fun x y => x.1 = y.1 ∧ R x.2 y.2)
        (xs.orderedInsert (KeyLe engine) x) (ys.orderedInsert (KeyLe engine) y) := by
    intro xs ys h x y hxy
    induction h with
    | nil => exact .cons hxy .nil
    | @cons x' y' xs ys hxy' hrest ih =>
      have hkeys : KeyLe engine y y' ↔ KeyLe engine x x' := by simp only [KeyLe, hxy.1, hxy'.1]
      by_cases hb : KeyLe engine x x'
      · rw [List.orderedInsert_cons_of_le _ xs hb, List.orderedInsert_cons_of_le _ ys (hkeys.mpr hb)]
        exact .cons hxy (.cons hxy' hrest)
      · rw [List.orderedInsert_of_not_le _ xs hb, List.orderedInsert_of_not_le _ ys (mt hkeys.mp hb)]
        exact .cons hxy' ih
  induction h with
  | nil => exact .nil
  | cons hxy _ ih => exact insert ih hxy

mutual

def decoded : Value → Json.Value
  | .undefined => .null
  | .null => .null
  | .bool b => .bool b
  | .num q => ((readNumber (engine.numberText q)).map Prod.fst).getD .null
  | .str s => .str s
  | .arr items => .arr (decodedItems items)
  | .obj entries => .obj (sortKeys engine (decodedEntries entries))

def decodedItems : List Value → List Json.Value
  | [] => []
  | v :: vs => decoded v :: decodedItems vs

def decodedEntries : List (String × Value) → List (String × Json.Value)
  | [] => []
  | (k, v) :: es => (k, decoded v) :: decodedEntries es

end

lemma decodedItems_eq_map (items : List Value) : decodedItems engine items = items.map (decoded engine) := by
  induction items with
  | nil => rfl
  | cons v vs ih => rw [decodedItems, ih, List.map_cons]

lemma decodedEntries_eq_map (entries : List (String × Value)) :
    decodedEntries engine entries = entries.map fun e => (e.1, decoded engine e.2) := by
  induction entries with
  | nil => rfl
  | cons e es ih => rw [decodedEntries, ih, List.map_cons]

end

variable {engine : Engine}

lemma reads_number (host : engine.Documented) {q : ℚ} (hq : nearest q = q) :
    Reads (engine.numberText q) (decoded engine (.num q)) ∧ ofJson (decoded engine (.num q)) = .num q := by
  obtain ⟨v, hv, hread⟩ := host.number q hq
  have hbare := hread [] nofun
  rw [List.append_nil] at hbare
  have hdecoded : decoded engine (.num q) = v := by simp [decoded, hbare]
  rw [hdecoded]
  obtain ⟨c, tail, htext, hc⟩ := head_of_readNumber hbare
  have hne := ne_of_numeric hc
  refine ⟨⟨⟨c, tail, htext, ?_, hne _ rfl⟩, fun n rest hn hrest => ?_⟩, hv⟩
  · simp [isBlank, hne ' ' rfl, hne '\t' rfl, hne '\n' rfl, hne '\r' rfl]
  · have hpos : n ≠ 0 := by
      rintro rfl
      rw [htext] at hn
      simp at hn
    obtain ⟨n, rfl⟩ := Nat.exists_eq_succ_of_ne_zero hpos
    exact readValue_of_readNumber (hread rest hrest) n

mutual

lemma reads_canonical (host : engine.Documented) (v : Value) (hv : Proper v) (hd : Defined v) :
    ∃ text, canonical engine v = some text ∧ Reads text (decoded engine v) := by
  match v, hv, hd with
  | .undefined, _, hd => exact hd.elim
  | .null, _, _ =>
    exact ⟨_, rfl, reads_literal ⟨_, _, rfl, rfl, by decide⟩ fun _ rest => literal_append "null".toList .null rest⟩
  | .bool true, _, _ =>
    exact ⟨_, rfl, reads_literal ⟨_, _, rfl, rfl, by decide⟩ fun _ rest => literal_append "true".toList (.bool true) rest⟩
  | .bool false, _, _ =>
    exact ⟨_, rfl, reads_literal ⟨_, _, rfl, rfl, by decide⟩ fun _ rest => literal_append "false".toList (.bool false) rest⟩
  | .num q, hv, _ => exact ⟨_, rfl, (reads_number host hv).1⟩
  | .str s, _, _ => exact ⟨_, rfl, reads_quote s⟩
  | .arr items, hv, hd =>
    exact ⟨_, rfl, reads_array (reads_items host items hv hd)⟩
  | .obj entries, hv, hd =>
    refine ⟨_, rfl, reads_object (forall₂_sortKeys engine (reads_entries host entries hv.2.2 hd)) ?_⟩
    rw [decodedEntries_eq_map, sortKeys_map engine (f := fun e => (e.1, decoded engine e.2)) fun _ => rfl, List.map_map]
    exact ((List.perm_insertionSort _ entries).map Prod.fst).nodup_iff.mpr hv.1

lemma reads_items (host : engine.Documented) (items : List Value) (hv : ProperItems items) (hd : DefinedItems items) :
    List.Forall₂ Reads (canonicalItems engine items) (decodedItems engine items) := by
  match items, hv, hd with
  | [], _, _ => exact .nil
  | v :: vs, hv, hd =>
    obtain ⟨text, htext, hreads⟩ := reads_canonical host v hv.1 hd.1
    refine .cons ?_ (reads_items host vs hv.2 hd.2)
    rwa [htext]

lemma reads_entries (host : engine.Documented) (entries : List (String × Value)) (hv : ProperEntries entries)
    (hd : DefinedEntries entries) :
    List.Forall₂ (fun text v => text.1 = v.1 ∧ Reads text.2 v.2) (canonicalEntries engine entries) (decodedEntries engine entries) := by
  match entries, hv, hd with
  | [], _, _ => exact .nil
  | (k, v) :: es, hv, hd =>
    obtain ⟨text, htext, hreads⟩ := reads_canonical host v hv.1 hd.1
    refine .cons ⟨rfl, ?_⟩ (reads_entries host es hv.2 hd.2)
    rwa [htext]

end

lemma parse_canonical (host : engine.Documented) {v : Value} (hv : Proper v) (hd : Defined v) :
    ∃ text, canonical engine v = some text ∧ parse text = some (ofJson (decoded engine v)) := by
  obtain ⟨text, htext, hreads⟩ := reads_canonical host v hv hd
  exact ⟨text, htext, parse_of_reads hreads⟩

mutual

lemma Value.rec_on {P : Value → Prop} (leaf : ∀ v, (∀ items, v ≠ .arr items) → (∀ entries, v ≠ .obj entries) → P v)
    (arr : ∀ items, (∀ v ∈ items, P v) → P (.arr items)) (obj : ∀ entries, (∀ e ∈ entries, P e.2) → P (.obj entries))
    (v : Value) : P v := by
  match v with
  | .undefined => exact leaf _ nofun nofun
  | .null => exact leaf _ nofun nofun
  | .bool _ => exact leaf _ nofun nofun
  | .num _ => exact leaf _ nofun nofun
  | .str _ => exact leaf _ nofun nofun
  | .arr items => exact arr items (rec_items leaf arr obj items)
  | .obj entries => exact obj entries (rec_entries leaf arr obj entries)

lemma rec_items {P : Value → Prop} (leaf : ∀ v, (∀ items, v ≠ .arr items) → (∀ entries, v ≠ .obj entries) → P v)
    (arr : ∀ items, (∀ v ∈ items, P v) → P (.arr items)) (obj : ∀ entries, (∀ e ∈ entries, P e.2) → P (.obj entries))
    (items : List Value) : ∀ v ∈ items, P v := by
  match items with
  | [] => exact fun v hv => absurd hv List.not_mem_nil
  | w :: ws =>
    intro v hv
    cases List.mem_cons.mp hv with
    | inl same => exact same ▸ Value.rec_on leaf arr obj w
    | inr later => exact rec_items leaf arr obj ws v later

lemma rec_entries {P : Value → Prop} (leaf : ∀ v, (∀ items, v ≠ .arr items) → (∀ entries, v ≠ .obj entries) → P v)
    (arr : ∀ items, (∀ v ∈ items, P v) → P (.arr items)) (obj : ∀ entries, (∀ e ∈ entries, P e.2) → P (.obj entries))
    (entries : List (String × Value)) : ∀ e ∈ entries, P e.2 := by
  match entries with
  | [] => exact fun e he => absurd he List.not_mem_nil
  | (_, w) :: es =>
    intro e he
    cases List.mem_cons.mp he with
    | inl same => exact same ▸ Value.rec_on leaf arr obj w
    | inr later => exact rec_entries leaf arr obj es e later

end

def settled (engine : Engine) (entry : String × Value) : String × Value := (entry.1, ofJson (decoded engine entry.2))

lemma ofJson_decoded_obj (engine : Engine) (entries : List (String × Value)) :
    ofJson (decoded engine (.obj entries)) = .obj (propertyOrder (sortKeys engine (entries.map (settled engine)))) := by
  have hmap : ofEntries (sortKeys engine (decodedEntries engine entries)) = sortKeys engine (entries.map (settled engine)) := by
    rw [decodedEntries_eq_map, ofEntries_eq_map, ← sortKeys_map engine (f := fun e => (e.1, ofJson e.2)) fun _ => rfl, List.map_map]
    rfl
  rw [← hmap]
  rfl

lemma keys_settled (engine : Engine) (entries : List (String × Value)) :
    (entries.map (settled engine)).map Prod.fst = entries.map Prod.fst := by
  rw [List.map_map]
  rfl

lemma sortKeys_settled (host : engine.Documented) (hkeys : (entries.map Prod.fst).Nodup)
    (horder : propertyOrder entries = entries) :
    sortKeys engine (propertyOrder (sortKeys engine (entries.map (settled engine)))) =
      sortKeys engine (entries.map (settled engine)) := by
  refine sort_propertyOrder_sort (fun a b => host.total a.1 b.1) (fun a b c => host.trans a.1 b.1 c.1) ?_ ?_
  · rwa [keys_settled]
  · rw [map_propertyOrder (f := settled engine) fun _ => rfl, horder]

lemma settled_leaf (host : engine.Documented) {v : Value} (harr : ∀ items, v ≠ .arr items) (hobj : ∀ entries, v ≠ .obj entries)
    (hv : Proper v) (hd : Defined v) : ofJson (decoded engine v) = v := by
  cases v with
  | undefined => exact hd.elim
  | num q => exact (reads_number host hv).2
  | arr items => exact absurd rfl (harr items)
  | obj entries => exact absurd rfl (hobj entries)
  | _ => rfl

lemma canonical_settled (host : engine.Documented) (v : Value) :
    Proper v → Defined v → canonical engine (ofJson (decoded engine v)) = canonical engine v := by
  induction v using Value.rec_on with
  | leaf v harr hobj => exact fun hv hd => by rw [settled_leaf host harr hobj hv hd]
  | arr items ih =>
    intro hv hd
    rw [decoded, ofJson, canonical, canonical, ofItems_eq_map, decodedItems_eq_map, canonicalItems_eq_map, canonicalItems_eq_map,
      List.map_map, List.map_map]
    congr 4
    refine List.map_congr_left fun v hmem => congrArg (Option.getD · []) ?_
    exact ih v hmem (properItems_iff.mp hv v hmem) (definedItems_iff.mp hd v hmem)
  | obj entries ih =>
    intro hv hd
    have htexts : (entries.map (settled engine)).map (textOf engine) = entries.map (textOf engine) := by
      rw [List.map_map]
      refine List.map_congr_left fun e hmem => ?_
      have htext := ih e hmem (properEntries_iff.mp hv.2.2 e hmem) (definedEntries_iff.mp hd e hmem)
      rw [Function.comp_apply, textOf, settled, htext, textOf]
    rw [ofJson_decoded_obj, canonical, canonical, canonicalEntries_eq_map, canonicalEntries_eq_map,
      sortKeys_map engine (f := textOf engine) fun _ => rfl, sortKeys_settled host hv.1 hv.2.1,
      ← sortKeys_map engine (f := textOf engine) fun _ => rfl, htexts]

lemma same_settled (host : engine.Documented) (v : Value) : Proper v → Defined v → Same (ofJson (decoded engine v)) v := by
  induction v using Value.rec_on with
  | leaf v harr hobj => exact fun hv hd => by rw [settled_leaf host harr hobj hv hd]; rfl
  | arr items ih =>
    intro hv hd
    unfold Same
    rw [decoded, ofJson, sorted, sorted, ofItems_eq_map, decodedItems_eq_map, sortedItems_eq_map, sortedItems_eq_map,
      List.map_map, List.map_map]
    exact congrArg Value.arr (List.map_congr_left fun v hmem =>
      ih v hmem (properItems_iff.mp hv v hmem) (definedItems_iff.mp hd v hmem))
  | obj entries ih =>
    intro hv hd
    have hvalues : (entries.map (settled engine)).map (fun e => (e.1, sorted e.2)) = entries.map fun e => (e.1, sorted e.2) := by
      rw [List.map_map]
      refine List.map_congr_left fun e hmem => ?_
      have hsame := ih e hmem (properEntries_iff.mp hv.2.2 e hmem) (definedEntries_iff.mp hd e hmem)
      rw [Function.comp_apply, settled, hsame]
    unfold Same
    rw [ofJson_decoded_obj, sorted, sorted, sortedEntries_eq_map, sortedEntries_eq_map]
    have hperm : ((propertyOrder (sortKeys engine (entries.map (settled engine)))).map fun e => (e.1, sorted e.2)).Perm
        (entries.map fun e => (e.1, sorted e.2)) := by
      rw [← hvalues]
      exact ((perm_propertyOrder _).trans (List.perm_insertionSort _ _)).map _
    have hnodup : ((entries.map fun e => (e.1, sorted e.2)).map Prod.fst).Nodup := by
      rw [List.map_map]
      exact hv.1
    have hsort := @sort_eq_of_perm (String × Value) (fun a b => a.1 ≤ b.1) _ (fun a b => String.le_total a.1 b.1)
      (fun a b c => String.le_trans) _ _ hperm
    refine congrArg Value.obj (hsort fun a ha b hb hab hba => ?_)
    exact eq_of_key hnodup (hperm.mem_iff.mp ha) (hperm.mem_iff.mp hb) (String.le_antisymm hab hba)

lemma same_of_canonical (host : engine.Documented) {v w : Value} (hv : Proper v) (hvd : Defined v) (hw : Proper w)
    (hwd : Defined w) (h : canonical engine v = canonical engine w) : Same v w := by
  obtain ⟨text, htext, hparse⟩ := parse_canonical host hv hvd
  obtain ⟨text', htext', hparse'⟩ := parse_canonical host hw hwd
  have heq : text = text' := by rw [htext, htext'] at h; exact Option.some.inj h
  rw [heq, hparse', Option.some.injEq] at hparse
  have hleft := same_settled host v hv hvd
  rw [← hparse] at hleft
  exact hleft.symm.trans (same_settled host w hw hwd)

lemma lookup_eq_of_perm {α : Type} {xs ys : List (String × α)} (h : xs.Perm ys) (hkeys : (xs.map Prod.fst).Nodup) (k : String) :
    xs.lookup k = ys.lookup k := by
  have mem_iff : ∀ {zs : List (String × α)} {v : α}, (zs.map Prod.fst).Nodup → (zs.lookup k = some v ↔ (k, v) ∈ zs) := by
    intro zs v hz
    constructor
    · intro hlookup
      obtain ⟨l, r, rfl, _⟩ := List.lookup_eq_some_iff.mp hlookup
      simp
    · intro hmem
      obtain ⟨l, r, rfl⟩ := List.append_of_mem hmem
      refine List.lookup_eq_some_iff.mpr ⟨l, r, rfl, fun e he => ?_⟩
      rw [List.map_append, List.nodup_append] at hz
      have hne := hz.2.2 e.1 (List.mem_map_of_mem he) k (by simp)
      simpa using Ne.symm hne
  refine Option.ext fun v => ?_
  rw [mem_iff hkeys, mem_iff ((h.map Prod.fst).nodup_iff.mp hkeys)]
  exact h.mem_iff

lemma member_settled (engine : Engine) (hkeys : (entries.map Prod.fst).Nodup) {k : String} {v : Value}
    (h : entries.lookup k = some v) : (ofJson (decoded engine (.obj entries))).member k = ofJson (decoded engine v) := by
  have hperm : (propertyOrder (sortKeys engine (entries.map (settled engine)))).Perm (entries.map (settled engine)) :=
    (perm_propertyOrder _).trans (List.perm_insertionSort _ _)
  have hlookup : (entries.map (settled engine)).lookup k = some (ofJson (decoded engine v)) := by
    obtain ⟨l, r, rfl, hl⟩ := List.lookup_eq_some_iff.mp h
    refine List.lookup_eq_some_iff.mpr ⟨l.map (settled engine), r.map (settled engine), by simp [settled], fun e he => ?_⟩
    obtain ⟨e', he', rfl⟩ := List.mem_map.mp he
    exact hl e' he'
  rw [ofJson_decoded_obj, Value.member, lookup_eq_of_perm hperm, hlookup]
  · rfl
  · rw [(hperm.map Prod.fst).nodup_iff, keys_settled]
    exact hkeys

lemma canonical_filter_settled (host : engine.Documented) (hv : Proper (.obj entries))
    (hd : Defined (.obj entries)) (p : String → Bool) :
    canonical engine (.obj ((propertyOrder (sortKeys engine (entries.map (settled engine)))).filter fun e => p e.1)) =
      canonical engine (.obj (entries.filter fun e => p e.1)) := by
  have hproper : Proper (.obj (entries.filter fun e => p e.1)) := by
    refine ⟨hv.1.sublist (List.filter_sublist.map Prod.fst), ?_, properEntries_iff.mpr fun e he => ?_⟩
    · rw [← filter_propertyOrder, hv.2.1]
    · exact properEntries_iff.mp hv.2.2 e (List.mem_filter.mp he).1
  have hdefined : Defined (.obj (entries.filter fun e => p e.1)) :=
    definedEntries_iff.mpr fun e he => definedEntries_iff.mp hd e (List.mem_filter.mp he).1
  rw [← canonical_settled host _ hproper hdefined, ofJson_decoded_obj]
  congr 2
  rw [filter_propertyOrder]
  congr 1
  unfold sortKeys
  rw [filter_sort (fun a b => host.total a.1 b.1) (fun a b c => host.trans a.1 b.1 c.1), List.filter_map]
  rfl

def InLine (c : Char) : Prop := c ≠ '\n' ∧ c ≠ '\r'

lemma inLine_quote (s : String) : ∀ c ∈ quote s, InLine c := by
  intro c hc
  simp only [quote, List.mem_cons, List.mem_append, List.mem_flatMap, List.not_mem_nil, or_false] at hc
  rcases hc with rfl | ⟨d, _, hd⟩ | rfl
  · exact ⟨by decide, by decide⟩
  · exact (escapeChar_parts d).2.2 c hd
  · exact ⟨by decide, by decide⟩

lemma inLine_joined (h : ∀ text ∈ texts, ∀ c ∈ text, InLine c) : ∀ c ∈ joined texts, InLine c := by
  induction texts with
  | nil => exact fun c hc => absurd hc List.not_mem_nil
  | cons text texts ih =>
    have hrest := ih fun t ht => h t (List.mem_cons_of_mem _ ht)
    have htext := h text List.mem_cons_self
    by_cases hne : texts = []
    · rw [hne]
      exact htext
    · rw [joined_cons text hne]
      intro c hc
      rcases List.mem_append.mp hc with hc | hc
      · exact htext c hc
      · rcases List.mem_cons.mp hc with rfl | hc
        · exact ⟨by decide, by decide⟩
        · exact hrest c hc

lemma inLine_enclosed (h : ∀ c ∈ text, InLine c) {left right : Char} (hleft : InLine left) (hright : InLine right) :
    ∀ c ∈ left :: (text ++ [right]), InLine c := by
  intro c hc
  simp only [List.mem_cons, List.mem_append, List.not_mem_nil, or_false] at hc
  rcases hc with rfl | hc | rfl
  · exact hleft
  · exact h c hc
  · exact hright

lemma inLine_canonical (host : engine.Documented) (v : Value) :
    Proper v → Defined v → ∀ text, canonical engine v = some text → ∀ c ∈ text, InLine c := by
  induction v using Value.rec_on with
  | leaf v harr hobj =>
    intro hv hd text htext
    cases v with
    | undefined => exact hd.elim
    | null => cases htext; exact fun c hc => by fin_cases hc <;> exact ⟨by decide, by decide⟩
    | bool b => cases b <;> cases htext <;> exact fun c hc => by fin_cases hc <;> exact ⟨by decide, by decide⟩
    | num q => cases htext; exact host.line q hv
    | str s => cases htext; exact inLine_quote s
    | arr items => exact absurd rfl (harr items)
    | obj entries => exact absurd rfl (hobj entries)
  | arr items ih =>
    intro hv hd text htext
    rw [canonical, Option.some.injEq, canonicalItems_eq_map] at htext
    rw [← htext]
    refine inLine_enclosed (inLine_joined fun t ht => ?_) ⟨by decide, by decide⟩ ⟨by decide, by decide⟩
    obtain ⟨v, hmem, rfl⟩ := List.mem_map.mp ht
    obtain ⟨t, htext, _⟩ := reads_canonical host v (properItems_iff.mp hv v hmem) (definedItems_iff.mp hd v hmem)
    rw [htext]
    exact ih v hmem (properItems_iff.mp hv v hmem) (definedItems_iff.mp hd v hmem) t htext
  | obj entries ih =>
    intro hv hd text htext
    rw [canonical, Option.some.injEq, canonicalEntries_eq_map] at htext
    rw [← htext]
    refine inLine_enclosed (inLine_joined fun t ht => ?_) ⟨by decide, by decide⟩ ⟨by decide, by decide⟩
    obtain ⟨entry, hentry, rfl⟩ := List.mem_map.mp ht
    obtain ⟨e, hmem, rfl⟩ := List.mem_map.mp ((List.perm_insertionSort _ _).mem_iff.mp hentry)
    have hproper := properEntries_iff.mp hv.2.2 e hmem
    have hdefined := definedEntries_iff.mp hd e hmem
    obtain ⟨t, htext, _⟩ := reads_canonical host e.2 hproper hdefined
    intro c hc
    rw [textOf, htext] at hc
    rcases List.mem_append.mp hc with hc | hc
    · exact inLine_quote _ c hc
    · rcases List.mem_cons.mp hc with rfl | hc
      · exact ⟨by decide, by decide⟩
      · exact ih e hmem hproper hdefined t htext c hc

def plainEngine : Engine where
  numberText q := if q.den = 1 then writeInt q.num else exactFloat q
  before a b := decide (a ≤ b)

lemma inLine_digits {ds : List Char} (h : ∀ c ∈ ds, c.isDigit = true) : ∀ c ∈ ds, InLine c := by
  intro c hc
  have hdigit := h c hc
  refine ⟨?_, ?_⟩ <;> rintro rfl <;> cases hdigit

lemma inLine_cons {c : Char} {cs : List Char} (hc : InLine c) (h : ∀ d ∈ cs, InLine d) : ∀ d ∈ c :: cs, InLine d := by
  intro d hd
  cases List.mem_cons.mp hd with
  | inl same => exact same ▸ hc
  | inr later => exact h d later

lemma inLine_exactUnsigned (n : ℕ) : ∀ c ∈ exactUnsigned n, InLine c := by
  intro c hc
  rcases List.mem_append.mp hc with hc | hc
  · exact inLine_digits (isDigit_toDigits _) c hc
  · exact inLine_cons ⟨by decide, by decide⟩ (inLine_digits (isDigit_padded _ _)) c hc

lemma plainEngine_documented : plainEngine.Documented where
  number q hq := by
    by_cases hden : q.den = 1
    · have hwhole : (q.num : ℚ) = q := Rat.coe_int_num_of_den_eq_one hden
      refine ⟨.int q.num, ?_, fun rest hrest => ?_⟩
      · rw [ofJson, hwhole, hq]
      · simp only [plainEngine, hden, if_true]
        exact readNumber_writeInt q.num hrest
    · refine ⟨.float q, rfl, fun rest hrest => ?_⟩
      simp only [plainEngine, hden, if_false]
      exact readNumber_exactFloat q hq rest hrest
  line q _ := by
    have sign : InLine '-' := ⟨by decide, by decide⟩
    simp only [plainEngine]
    split
    · unfold writeInt
      split
      · exact inLine_cons sign (inLine_digits (isDigit_toDigits _))
      · exact inLine_digits (isDigit_toDigits _)
    · unfold exactFloat
      split
      · exact inLine_cons sign (inLine_exactUnsigned _)
      · exact inLine_exactUnsigned _
  total a b := by simpa [plainEngine] using String.le_total a b
  trans a b c hab hbc := by
    simp only [plainEngine, decide_eq_true_eq] at hab hbc ⊢
    exact String.le_trans hab hbc

end PromptForge.JsValues
