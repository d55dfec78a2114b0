import PromptForge.JsonText

namespace PromptForge.JsonText
open Json Numbers Tables

lemma hexValue_hexDigit (k : ℕ) (h : k < 16) : hexValue (hexDigit k) = some k := by
  have hall : ∀ k < 16, hexValue (hexDigit k) = some k := by decide
  exact hall k h

lemma readHex4_hex4 {n : ℕ} (h : n < 0x10000) (rest : List Char) :
    readHex4 (hex4 n ++ rest) = some (n, rest) := by
  change (do
    let a ← hexValue (hexDigit (n / 4096 % 16))
    let b ← hexValue (hexDigit (n / 256 % 16))
    let c ← hexValue (hexDigit (n / 16 % 16))
    let d ← hexValue (hexDigit (n % 16))
    return (a * 4096 + b * 256 + c * 16 + d, rest) : Option (ℕ × List Char)) = some (n, rest)
  have hdigit (m : ℕ) : hexValue (hexDigit (m % 16)) = some (m % 16) :=
    hexValue_hexDigit _ (Nat.mod_lt _ (by decide))
  simp only [hdigit]
  have hsum : n / 4096 % 16 * 4096 + n / 256 % 16 * 256 + n / 16 % 16 * 16 + n % 16 = n := by omega
  exact congrArg (fun m => some (m, rest)) hsum

lemma readUnits_escapeUnit {n : ℕ} (h : n < 0x10000) (hpair : ¬ (0xD800 ≤ n ∧ n ≤ 0xDFFF))
    (rest : List Char) : readUnits (hex4 n ++ rest) = some (Char.ofNat n, rest) := by
  unfold readUnits
  rw [readHex4_hex4 h]
  change (if 0xD800 ≤ n ∧ n ≤ 0xDBFF then _ else _) = _
  rw [if_neg (by omega), if_neg (by omega)]

lemma readUnits_pair {q r : ℕ} (hq : q < 1024) (hr : r < 1024) (rest : List Char) :
    readUnits (hex4 (0xD800 + q) ++ (escapeUnit (0xDC00 + r) ++ rest)) =
      some (Char.ofNat (0x10000 + q * 1024 + r), rest) := by
  have hfirst : 0xD800 ≤ 0xD800 + q ∧ 0xD800 + q ≤ 0xDBFF := by omega
  have hsecond : 0xDC00 ≤ 0xDC00 + r ∧ 0xDC00 + r ≤ 0xDFFF := by omega
  unfold readUnits
  rw [readHex4_hex4 (by omega)]
  simp only [escapeUnit, List.cons_append, Option.bind_eq_bind, Option.bind_some, if_pos hfirst]
  rw [readHex4_hex4 (by omega)]
  simp only [Option.bind_some, if_pos hsecond, Nat.add_sub_cancel_left]

lemma toNat_lt (c : Char) : c.toNat < 0x110000 := by
  rcases c.valid with h | h
  · exact lt_trans h (by norm_num)
  · exact h.2

lemma not_half (c : Char) : ¬ (0xD800 ≤ c.toNat ∧ c.toNat ≤ 0xDFFF) := by
  intro hhalf
  rcases c.valid with h | h
  · exact absurd h (not_lt.2 hhalf.1)
  · exact absurd h.1 (not_lt.2 hhalf.2)

lemma readChar_plain {c : Char} (hc : c ≠ '\\') (hn : ¬ c.toNat < 32) (rest : List Char) :
    readChar (c :: rest) = some (c, rest) := by
  unfold readChar
  split
  · next h => exact absurd h (List.cons_ne_nil _ _)
  · next h => exact absurd (List.cons.inj h).1 hc
  · next h => exact absurd (List.cons.inj h).1 hc
  · next h =>
    obtain ⟨rfl, rfl⟩ := List.cons.inj h
    rw [if_neg hn]

lemma readChar_escapeChar (c : Char) (rest : List Char) :
    readChar (escapeChar c ++ rest) = some (c, rest) := by
  unfold escapeChar
  split
  · next letter h =>
    have hmem : (c, letter) ∈ shortEscapes := by
      obtain ⟨l, r, hsplit, -⟩ := List.lookup_eq_some_iff.1 h
      rw [hsplit]
      simp
    simp only [shortEscapes, List.mem_cons, Prod.mk.injEq, List.not_mem_nil, or_false] at hmem
    rcases hmem with ⟨rfl, rfl⟩ | ⟨rfl, rfl⟩ | ⟨rfl, rfl⟩ | ⟨rfl, rfl⟩ | ⟨rfl, rfl⟩ | ⟨rfl, rfl⟩ |
      ⟨rfl, rfl⟩ <;> rfl
  · next h =>
    have hslash : c ≠ '\\' := by
      rintro rfl
      exact absurd h (by decide)
    split
    · next hprint => exact readChar_plain hslash (by omega) rest
    · split
      · next hplane =>
        exact (readUnits_escapeUnit hplane (not_half c) rest).trans (by rw [Char.ofNat_toNat])
      · next hplane =>
        have hlt := toNat_lt c
        have hsum : 0x10000 + (c.toNat - 0x10000) / 1024 * 1024 + (c.toNat - 0x10000) % 1024 = c.toNat := by
          omega
        have hpair := readUnits_pair (q := (c.toNat - 0x10000) / 1024) (r := (c.toNat - 0x10000) % 1024)
          (by omega) (Nat.mod_lt _ (by norm_num)) rest
        rw [hsum, Char.ofNat_toNat] at hpair
        rw [List.append_assoc]
        exact hpair

lemma length_escapeChar (c : Char) : (escapeChar c).length ≤ 12 := by
  simp only [escapeChar]
  split
  · simp
  · split
    · simp
    · split <;> simp [escapeUnit, hex4]

lemma escapeChar_ne_nil (c : Char) : escapeChar c ≠ [] := by
  unfold escapeChar
  split
  · exact List.cons_ne_nil _ _
  · split
    · exact List.cons_ne_nil _ _
    · split
      · exact List.cons_ne_nil _ _
      · exact List.cons_ne_nil _ _

lemma head_escapeChar (c : Char) : (escapeChar c).head? ≠ some '"' := by
  unfold escapeChar
  split
  · intro hhead
    exact absurd (Option.some.inj hhead) (by decide)
  · next h =>
    split
    · intro hhead
      obtain rfl : c = '"' := Option.some.inj hhead
      exact absurd h (by decide)
    · split
      · intro hhead
        exact absurd (Option.some.inj hhead) (by decide)
      · intro hhead
        exact absurd (Option.some.inj hhead) (by decide)

lemma readChars_escape (s : List Char) (rest : List Char) (n : ℕ)
    (h : (s.flatMap escapeChar).length < n) :
    readChars n (s.flatMap escapeChar ++ '"' :: rest) = some (s, rest) := by
  induction s generalizing n with
  | nil =>
    obtain ⟨n, rfl⟩ := Nat.exists_eq_succ_of_ne_zero h.ne'
    rfl
  | cons c s ih =>
    rw [List.flatMap_cons, List.length_append] at h
    have hpos : 0 < (escapeChar c).length := List.length_pos_of_ne_nil (escapeChar_ne_nil c)
    obtain ⟨n, rfl⟩ := Nat.exists_eq_succ_of_ne_zero (Nat.ne_zero_of_lt h)
    have hquote : (escapeChar c ++ (s.flatMap escapeChar ++ '"' :: rest)).head? ≠ some '"' := by
      rw [List.head?_append_of_ne_nil _ (escapeChar_ne_nil c)]
      exact head_escapeChar c
    rw [List.flatMap_cons, List.append_assoc]
    unfold readChars
    rw [if_neg hquote, readChar_escapeChar]
    simp only [Option.bind_eq_bind, Option.bind_some]
    rw [ih n (by omega)]
    rfl

lemma readString_writeString (s : String) (rest : List Char) :
    readString (s.toList.flatMap escapeChar ++ '"' :: rest) = some (s, rest) := by
  unfold readString
  rw [readChars_escape _ _ _ (by simp only [List.length_append, List.length_cons]; omega)]
  exact congrArg (fun t => some (t, rest)) String.ofList_toList

lemma takeWhile_digits {ds rest : List Char} (hds : ∀ c ∈ ds, c.isDigit = true)
    (hrest : ∀ c, rest.head? = some c → c.isDigit = false) :
    (ds ++ rest).takeWhile Char.isDigit = ds ∧ (ds ++ rest).dropWhile Char.isDigit = rest := by
  rw [List.takeWhile_append_of_pos hds, List.dropWhile_append_of_pos hds]
  cases rest with
  | nil => simp
  | cons c rest =>
    have hc := hrest c rfl
    simp [hc]

lemma not_isDigit_of_stops {rest : List Char} (h : Stops rest) (c : Char) (hc : rest.head? = some c) :
    c.isDigit = false := by
  rcases h c hc with rfl | rfl | rfl <;> rfl

lemma isDigit_toDigits (n : ℕ) : ∀ c ∈ Nat.toDigits 10 n, c.isDigit = true :=
  fun _ hc => Nat.isDigit_of_mem_toDigits (by decide) (by decide) hc

lemma head_toDigits {n : ℕ} (h : 0 < n) : (Nat.toDigits 10 n).head? ≠ some '0' := by
  induction n using Nat.strongRec with
  | _ n ih =>
    rw [Nat.toDigits_eq_if (by decide)]
    split
    · next hlt =>
      have hall : ∀ m < 10, 0 < m → [Nat.digitChar m].head? ≠ some '0' := by decide
      exact hall n hlt h
    · next hge =>
      rw [List.head?_append_of_ne_nil _ Nat.toDigits_ne_nil]
      exact ih (n / 10) (by omega) (by omega)

lemma wholePart_toDigits (n : ℕ) {rest : List Char}
    (hrest : ∀ c, rest.head? = some c → c.isDigit = false) :
    wholePart (Nat.toDigits 10 n ++ rest) = some (n, rest) := by
  unfold wholePart
  by_cases h : n = 0
  · subst h
    rfl
  · have hhead : (Nat.toDigits 10 n ++ rest).head? ≠ some '0' := by
      rw [List.head?_append_of_ne_nil _ Nat.toDigits_ne_nil]
      exact head_toDigits (Nat.pos_of_ne_zero h)
    obtain ⟨htake, hdrop⟩ := takeWhile_digits (isDigit_toDigits n) hrest
    rw [if_neg hhead, htake, hdrop, if_neg Nat.toDigits_ne_nil]
    exact congrArg (fun m => some (m, rest)) Nat.ofDigitChars_ten_toDigits

lemma fractionPart_of_stops {rest : List Char} (h : Stops rest) : fractionPart rest = (none, rest) := by
  unfold fractionPart
  split
  · rcases h '.' rfl with h | h | h <;> exact absurd h (by decide)
  · rfl

lemma exponentPart_of_stops {rest : List Char} (h : Stops rest) : exponentPart rest = (none, rest) := by
  unfold exponentPart
  refine if_neg ?_
  rintro (he | he)
  · rcases h _ he with h | h | h <;> exact absurd h (by decide)
  · rcases h _ he with h | h | h <;> exact absurd h (by decide)

lemma readUnsigned_toDigits (n : ℕ) {rest : List Char} (h : Stops rest) :
    readUnsigned (Nat.toDigits 10 n ++ rest) = some (.int n, rest) := by
  unfold readUnsigned
  rw [wholePart_toDigits n (not_isDigit_of_stops h)]
  simp only [Option.bind_eq_bind, Option.bind_some, fractionPart_of_stops h, exponentPart_of_stops h]
  rfl

lemma readNumber_digits {ds : List Char} (hne : ds ≠ []) (hds : ∀ c ∈ ds, c.isDigit = true)
    (rest : List Char) : readNumber (ds ++ rest) = readUnsigned (ds ++ rest) := by
  obtain ⟨c, ds, rfl⟩ := List.exists_cons_of_ne_nil hne
  refine if_neg fun h => ?_
  obtain rfl : c = '-' := Option.some.inj h
  exact absurd (hds '-' (List.mem_cons_self ..)) (by decide)

lemma readNumber_minus (cs : List Char) :
    readNumber ('-' :: cs) = (readUnsigned cs).map fun r => (negative r.1, r.2) := rfl

lemma readNumber_writeInt (n : ℤ) {rest : List Char} (h : Stops rest) :
    readNumber (writeInt n ++ rest) = some (.int n, rest) := by
  unfold writeInt
  split
  · next hneg =>
    rw [List.cons_append, readNumber_minus, readUnsigned_toDigits _ h]
    have habs : -(n.natAbs : ℤ) = n := by omega
    exact congrArg (fun m => some (Value.int m, rest)) habs
  · next hpos =>
    rw [readNumber_digits Nat.toDigits_ne_nil (isDigit_toDigits _), readUnsigned_toDigits _ h]
    have habs : (n.natAbs : ℤ) = n := by omega
    exact congrArg (fun m => some (Value.int m, rest)) habs

lemma skip_of_head {cs : List Char} (h : ∀ c, cs.head? = some c → isBlank c = false) : skip cs = cs := by
  cases cs with
  | nil => rfl
  | cons c cs => exact List.dropWhile_cons_of_neg (by rw [h c rfl]; decide)

lemma skip_blank {gap : List Char} (h : ∀ c ∈ gap, isBlank c = true) (cs : List Char) :
    skip (gap ++ cs) = skip cs := List.dropWhile_append_of_pos h

lemma head_ne {c d : Char} (h : c ≠ d) (tail : List Char) : (c :: tail).head? ≠ some d :=
  fun he => h (Option.some.inj he)

def numeric (c : Char) : Bool := c == '-' || c.isDigit

lemma ne_of_numeric {c : Char} (h : numeric c = true) (d : Char) (hd : numeric d = false) : c ≠ d := by
  rintro rfl
  rw [hd] at h
  cases h

lemma head_of_readNumber {cs rest : List Char} {v : Value} (h : readNumber cs = some (v, rest)) :
    ∃ c tail, cs = c :: tail ∧ numeric c = true := by
  cases cs with
  | nil => cases h
  | cons c tail =>
    refine ⟨c, tail, rfl, by_contra fun hnumeric => ?_⟩
    have hminus : c ≠ '-' := by
      rintro rfl
      exact hnumeric rfl
    have hzero : c ≠ '0' := by
      rintro rfl
      exact hnumeric rfl
    have hdigit : ¬ c.isDigit = true := fun hd => hnumeric (by rw [numeric, hd, Bool.or_true])
    have hwhole : wholePart (c :: tail) = none := by
      unfold wholePart
      rw [if_neg (head_ne hzero tail), List.takeWhile_cons_of_neg hdigit, if_pos rfl]
    unfold readNumber at h
    rw [if_neg (head_ne hminus tail)] at h
    unfold readUnsigned at h
    rw [hwhole] at h
    cases h

lemma readValue_of_readNumber {cs rest : List Char} {v : Value} (h : readNumber cs = some (v, rest))
    (n : ℕ) : readValue (n + 1) cs = some (v, rest) := by
  obtain ⟨c, tail, rfl, hc⟩ := head_of_readNumber h
  unfold readValue
  have hne := ne_of_numeric hc
  rw [if_neg (hne _ rfl), if_neg (hne _ rfl), if_neg (hne _ rfl), if_neg (hne _ rfl),
    if_neg (hne _ rfl), if_neg (hne _ rfl), h]

lemma literal_append (word : List Char) (v : Value) (rest : List Char) :
    literal word v (word ++ rest) = some (v, rest) := by
  unfold literal
  rw [if_pos (List.prefix_append word rest), List.drop_left]

mutual

def Proper : Value → Prop
  | .float q => nearest q = q
  | .arr items => ProperItems items
  | .obj entries => (entries.map Prod.fst).Nodup ∧ ProperEntries entries
  | _ => True

def ProperItems : List Value → Prop
  | [] => True
  | v :: vs => Proper v ∧ ProperItems vs

def ProperEntries : List (String × Value) → Prop
  | [] => True
  | (_, v) :: es => Proper v ∧ ProperEntries es

end

lemma dictOf_append {entries acc : List (String × Value)} (h : ((acc ++ entries).map Prod.fst).Nodup) :
    entries.foldl (fun d entry => Dict.set entry.1 entry.2 d) acc = acc ++ entries := by
  induction entries generalizing acc with
  | nil => exact (List.append_nil _).symm
  | cons entry entries ih =>
    have hset : Dict.set entry.1 entry.2 acc = acc ++ [entry] := by
      refine congrArg (· ++ [entry]) (List.filter_eq_self.2 fun r hr => ?_)
      rw [List.map_append, List.nodup_append] at h
      exact decide_eq_true (h.2.2 _ (List.mem_map_of_mem hr) _ (List.mem_cons_self ..))
    rw [List.foldl_cons, hset, ih (by rwa [List.append_assoc]), List.append_assoc]
    rfl

lemma dictOf_nodup {entries : List (String × Value)} (h : (entries.map Prod.fst).Nodup) :
    dictOf entries = entries := @dictOf_append entries [] h

variable (style : Style)

lemma head_write {v : Value} (h : Proper v) :
    ∃ c tail, write style v = c :: tail ∧ isBlank c = false ∧ c ≠ ']' := by
  have hnumber {cs : List Char} {w : Value} (hread : readNumber (cs ++ []) = some (w, [])) :
      ∃ c tail, cs = c :: tail ∧ isBlank c = false ∧ c ≠ ']' := by
    rw [List.append_nil] at hread
    obtain ⟨c, tail, rfl, hc⟩ := head_of_readNumber hread
    have hne := ne_of_numeric hc
    refine ⟨c, tail, rfl, ?_, hne _ rfl⟩
    simp [isBlank, hne ' ' rfl, hne '\t' rfl, hne '\n' rfl, hne '\r' rfl]
  cases v with
  | null => exact ⟨'n', _, rfl, rfl, by decide⟩
  | bool b => cases b <;> exact ⟨_, _, rfl, rfl, by decide⟩
  | int n => exact hnumber (readNumber_writeInt n nofun)
  | float q => exact hnumber (style.reads q h [] nofun)
  | str s => exact ⟨'"', _, rfl, rfl, by decide⟩
  | arr items => exact ⟨'[', _, rfl, rfl, by decide⟩
  | obj entries => exact ⟨'{', _, rfl, rfl, by decide⟩

lemma skip_write {v : Value} (h : Proper v) (rest : List Char) :
    skip (write style v ++ rest) = write style v ++ rest := by
  obtain ⟨c, tail, hw, hblank, -⟩ := head_write style h
  rw [hw]
  refine skip_of_head fun d hd => ?_
  obtain rfl : c = d := Option.some.inj hd
  exact hblank

lemma readKey_writeString (k : String) (cs : List Char) :
    readKey (writeString k ++ ':' :: (style.gap ++ cs)) = some (k, skip cs) := by
  have hread := readString_writeString k (':' :: (style.gap ++ cs))
  unfold readKey writeString
  rw [List.cons_append, List.append_assoc]
  change (readString (k.toList.flatMap escapeChar ++ '"' :: (':' :: (style.gap ++ cs)))).bind _ = _
  rw [hread]
  exact congrArg (fun cs => some (k, cs)) (skip_blank style.blank cs)

lemma readString_step (s : String) (n : ℕ) (rest : List Char) :
    readValue (n + 1) (writeString s ++ rest) = some (.str s, rest) := by
  unfold writeString
  rw [List.cons_append, List.append_assoc]
  change (readString (s.toList.flatMap escapeChar ++ '"' :: rest)).map _ = _
  rw [readString_writeString]
  rfl

lemma readItems_more {n : ℕ} {cs rest tail : List Char} {v : Value} {vs : List Value}
    (h : readValue n cs = some (v, ',' :: (style.gap ++ rest)))
    (hrest : readItems n (skip rest) = some (vs, tail)) : readItems (n + 1) cs = some (v :: vs, tail) := by
  unfold readItems
  rw [h]
  change (readItems n (skip (style.gap ++ rest))).map _ = _
  rw [skip_blank style.blank, hrest]
  rfl

lemma readItems_last {n : ℕ} {cs rest : List Char} {v : Value}
    (h : readValue n cs = some (v, ']' :: rest)) : readItems (n + 1) cs = some ([v], rest) := by
  unfold readItems
  rw [h]
  rfl

lemma readEntries_more {n : ℕ} {cs ds rest tail : List Char} {k : String} {v : Value}
    {es : List (String × Value)} (hkey : readKey cs = some (k, ds))
    (h : readValue n ds = some (v, ',' :: (style.gap ++ rest)))
    (hrest : readEntries n (skip rest) = some (es, tail)) :
    readEntries (n + 1) cs = some ((k, v) :: es, tail) := by
  unfold readEntries
  rw [hkey]
  dsimp only
  rw [h]
  change (readEntries n (skip (style.gap ++ rest))).map _ = _
  rw [skip_blank style.blank, hrest]
  rfl

lemma readEntries_last {n : ℕ} {cs ds rest : List Char} {k : String} {v : Value}
    (hkey : readKey cs = some (k, ds)) (h : readValue n ds = some (v, '}' :: rest)) :
    readEntries (n + 1) cs = some ([(k, v)], rest) := by
  unfold readEntries
  rw [hkey]
  dsimp only
  rw [h]
  rfl

lemma stops_cons {c : Char} (h : c = ',' ∨ c = ']' ∨ c = '}') (rest : List Char) : Stops (c :: rest) := by
  intro d hd
  obtain rfl : c = d := Option.some.inj hd
  exact h

lemma skip_writeItems {items : List Value} (hne : items ≠ []) (h : ProperItems items) (rest : List Char) :
    skip (writeItems style items ++ rest) = writeItems style items ++ rest ∧
      (writeItems style items ++ rest).head? ≠ some ']' := by
  obtain ⟨v, vs, rfl⟩ := List.exists_cons_of_ne_nil hne
  obtain ⟨c, tail, hw, hblank, hc⟩ := head_write style h.1
  have hstart : ∃ tail, writeItems style (v :: vs) = c :: tail := by
    cases vs with
    | nil => exact ⟨tail, hw⟩
    | cons w vs =>
      unfold writeItems
      rw [hw]
      exact ⟨_, rfl⟩
  obtain ⟨tail, hstart⟩ := hstart
  rw [hstart]
  refine ⟨skip_of_head fun d hd => ?_, head_ne hc _⟩
  obtain rfl : c = d := Option.some.inj hd
  exact hblank

lemma skip_writeEntries {entries : List (String × Value)} (hne : entries ≠ []) (rest : List Char) :
    skip (writeEntries style entries ++ rest) = writeEntries style entries ++ rest ∧
      (writeEntries style entries ++ rest).head? ≠ some '}' := by
  obtain ⟨⟨k, v⟩, es, rfl⟩ := List.exists_cons_of_ne_nil hne
  have hstart : ∃ tail, writeEntries style ((k, v) :: es) = '"' :: tail := by
    cases es with
    | nil => exact ⟨_, rfl⟩
    | cons e es => exact ⟨_, rfl⟩
  obtain ⟨tail, hstart⟩ := hstart
  rw [hstart]
  exact ⟨rfl, head_ne (by decide) _⟩

lemma write_ne_nil {v : Value} (h : Proper v) : write style v ≠ [] := by
  obtain ⟨c, tail, hw, -, -⟩ := head_write style h
  rw [hw]
  exact List.cons_ne_nil _ _

mutual

lemma readValue_write (v : Value) (hv : Proper v) (n : ℕ) (rest : List Char)
    (hn : (write style v).length ≤ n) (hrest : Stops rest) :
    readValue n (write style v ++ rest) = some (v, rest) := by
  have hpos := List.length_pos_of_ne_nil (write_ne_nil style hv)
  obtain ⟨n, rfl⟩ := Nat.exists_eq_succ_of_ne_zero (Nat.ne_zero_of_lt (hpos.trans_le hn))
  match v, hv with
  | .null, _ => exact literal_append "null".toList .null rest
  | .bool true, _ => exact literal_append "true".toList (.bool true) rest
  | .bool false, _ => exact literal_append "false".toList (.bool false) rest
  | .int k, _ => exact readValue_of_readNumber (readNumber_writeInt k hrest) n
  | .float q, hv => exact readValue_of_readNumber (style.reads q hv rest hrest) n
  | .str s, _ => exact readString_step s n rest
  | .arr items, hv =>
    by_cases hitems : items = []
    · subst hitems
      rfl
    · obtain ⟨hskip, hhead⟩ := skip_writeItems style hitems hv (']' :: rest)
      have hlen : (writeItems style items).length < n := by
        simp only [write, List.length_cons, List.length_append, List.length_nil] at hn
        omega
      have hread := readItems_write items hitems hv n rest hlen
      unfold write
      rw [List.cons_append, List.append_assoc]
      change (if (skip (writeItems style items ++ ']' :: rest)).head? = some ']' then _ else
        (readItems n (skip (writeItems style items ++ ']' :: rest))).map _) = _
      rw [hskip, if_neg hhead, hread]
      rfl
  | .obj entries, hv =>
    by_cases hentries : entries = []
    · subst hentries
      rfl
    · obtain ⟨hskip, hhead⟩ := skip_writeEntries style hentries ('}' :: rest)
      have hlen : (writeEntries style entries).length < n := by
        simp only [write, List.length_cons, List.length_append, List.length_nil] at hn
        omega
      have hread := readEntries_write entries hentries hv.2 n rest hlen
      unfold write
      rw [List.cons_append, List.append_assoc]
      change (if (skip (writeEntries style entries ++ '}' :: rest)).head? = some '}' then _ else
        (readEntries n (skip (writeEntries style entries ++ '}' :: rest))).map _) = _
      rw [hskip, if_neg hhead, hread]
      change some (Value.obj (dictOf entries), rest) = _
      rw [dictOf_nodup hv.1]

lemma readItems_write (items : List Value) (hne : items ≠ []) (hitems : ProperItems items) (n : ℕ)
    (rest : List Char) (hn : (writeItems style items).length < n) :
    readItems n (writeItems style items ++ ']' :: rest) = some (items, rest) := by
  obtain ⟨n, rfl⟩ := Nat.exists_eq_succ_of_ne_zero (Nat.ne_zero_of_lt hn)
  match items, hitems with
  | [v], hv =>
    exact readItems_last
      (readValue_write v hv.1 n _ (Nat.le_of_lt_succ hn) (stops_cons (.inr (.inl rfl)) rest))
  | v :: w :: vs, hv =>
    simp only [writeItems, List.length_append, List.length_cons] at hn
    have hskip := (skip_writeItems style (List.cons_ne_nil w vs) hv.2 (']' :: rest)).1
    have htail := readItems_write (w :: vs) (List.cons_ne_nil w vs) hv.2 n rest (by omega)
    unfold writeItems
    rw [List.append_assoc, List.cons_append, List.append_assoc]
    exact readItems_more style (readValue_write v hv.1 n _ (by omega) (stops_cons (.inl rfl) _))
      (by rw [hskip, htail])

lemma readEntries_write (entries : List (String × Value)) (hne : entries ≠ [])
    (hentries : ProperEntries entries) (n : ℕ) (rest : List Char)
    (hn : (writeEntries style entries).length < n) :
    readEntries n (writeEntries style entries ++ '}' :: rest) = some (entries, rest) := by
  obtain ⟨n, rfl⟩ := Nat.exists_eq_succ_of_ne_zero (Nat.ne_zero_of_lt hn)
  match entries, hentries with
  | [(k, v)], hv =>
    simp only [writeEntries, List.length_append, List.length_cons] at hn
    have hkey := readKey_writeString style k (write style v ++ '}' :: rest)
    rw [skip_write style hv.1] at hkey
    unfold writeEntries
    rw [List.append_assoc, List.cons_append, List.append_assoc]
    exact readEntries_last hkey
      (readValue_write v hv.1 n _ (by omega) (stops_cons (.inr (.inr rfl)) rest))
  | (k, v) :: e :: es, hv =>
    simp only [writeEntries, List.length_append, List.length_cons] at hn
    have hskip := (skip_writeEntries style (List.cons_ne_nil e es) ('}' :: rest)).1
    have htail := readEntries_write (e :: es) (List.cons_ne_nil e es) hv.2 n rest (by omega)
    have hkey := readKey_writeString style k
      (write style v ++ ',' :: (style.gap ++ (writeEntries style (e :: es) ++ '}' :: rest)))
    rw [skip_write style hv.1] at hkey
    unfold writeEntries
    rw [List.append_assoc, List.cons_append, List.append_assoc, List.append_assoc, List.cons_append,
      List.append_assoc]
    exact readEntries_more style hkey (readValue_write v hv.1 n _ (by omega) (stops_cons (.inl rfl) _))
      (by rw [hskip, htail])

end

lemma canonItems_eq_map (items : List Value) : canonItems items = items.map canon := by
  induction items with
  | nil => rfl
  | cons v vs ih =>
    rw [List.map_cons, ← ih]
    rfl

lemma canonEntries_eq_map (entries : List (String × Value)) :
    canonEntries entries = entries.map fun e => (e.1, canon e.2) := by
  induction entries with
  | nil => rfl
  | cons e es ih =>
    rw [List.map_cons, ← ih]
    rfl

lemma properItems_iff {items : List Value} : ProperItems items ↔ ∀ v ∈ items, Proper v := by
  induction items with
  | nil => exact ⟨fun _ _ h => absurd h List.not_mem_nil, fun _ => trivial⟩
  | cons v vs ih =>
    rw [List.forall_mem_cons, ← ih]
    rfl

lemma properEntries_iff {entries : List (String × Value)} :
    ProperEntries entries ↔ ∀ e ∈ entries, Proper e.2 := by
  induction entries with
  | nil => exact ⟨fun _ _ h => absurd h List.not_mem_nil, fun _ => trivial⟩
  | cons e es ih =>
    rw [List.forall_mem_cons, ← ih]
    rfl

lemma keys_canonEntries (entries : List (String × Value)) :
    (canonEntries entries).map Prod.fst = entries.map Prod.fst := by
  rw [canonEntries_eq_map, List.map_map]
  rfl

instance : Std.Total fun a b : String × Value => a.1 ≤ b.1 := ⟨fun a b => String.le_total a.1 b.1⟩

instance : IsTrans (String × Value) fun a b => a.1 ≤ b.1 :=
  ⟨fun _ _ _ => String.le_trans⟩

lemma perm_sortEntries (entries : List (String × Value)) : (sortEntries entries).Perm entries :=
  List.perm_insertionSort _ entries

lemma sortEntries_sortEntries (entries : List (String × Value)) :
    sortEntries (sortEntries entries) = sortEntries entries :=
  (List.pairwise_insertionSort _ entries).insertionSort_eq

mutual

lemma proper_canon (v : Value) (h : Proper v) : Proper (canon v) := by
  match v, h with
  | .null, _ => trivial
  | .bool _, _ => trivial
  | .int _, _ => trivial
  | .float q, h => exact h
  | .str _, _ => trivial
  | .arr items, h => exact proper_canonItems items h
  | .obj entries, h =>
    have hperm := perm_sortEntries (canonEntries entries)
    refine ⟨(hperm.map Prod.fst).nodup_iff.2 (by rw [keys_canonEntries]; exact h.1), ?_⟩
    refine properEntries_iff.2 fun e he => ?_
    exact properEntries_iff.1 (proper_canonEntries entries h.2) e (hperm.mem_iff.1 he)

lemma proper_canonItems (items : List Value) (h : ProperItems items) : ProperItems (canonItems items) := by
  match items, h with
  | [], _ => trivial
  | v :: vs, h => exact ⟨proper_canon v h.1, proper_canonItems vs h.2⟩

lemma proper_canonEntries (entries : List (String × Value)) (h : ProperEntries entries) :
    ProperEntries (canonEntries entries) := by
  match entries, h with
  | [], _ => trivial
  | (_, v) :: es, h => exact ⟨proper_canon v h.1, proper_canonEntries es h.2⟩

end

mutual

lemma canon_canon (v : Value) : canon (canon v) = canon v := by
  match v with
  | .null | .bool _ | .int _ | .float _ | .str _ => rfl
  | .arr items => exact congrArg Value.arr (canonItems_canonItems items)
  | .obj entries =>
    have hfixed : canonEntries (sortEntries (canonEntries entries)) = sortEntries (canonEntries entries) := by
      rw [canonEntries_eq_map]
      calc
        _ = (sortEntries (canonEntries entries)).map id := by
          refine List.map_congr_left fun e he => Prod.ext rfl ?_
          exact canonEntries_canonEntries entries e ((perm_sortEntries _).mem_iff.1 he)
        _ = _ := List.map_id _
    change Value.obj (sortEntries (canonEntries (sortEntries (canonEntries entries)))) = _
    rw [hfixed, sortEntries_sortEntries]
    rfl

lemma canonItems_canonItems (items : List Value) : canonItems (canonItems items) = canonItems items := by
  match items with
  | [] => rfl
  | v :: vs =>
    change canon (canon v) :: canonItems (canonItems vs) = canon v :: canonItems vs
    rw [canon_canon v, canonItems_canonItems vs]

lemma canonEntries_canonEntries (entries : List (String × Value)) :
    ∀ e ∈ canonEntries entries, canon e.2 = e.2 := by
  match entries with
  | [] => exact fun _ h => absurd h List.not_mem_nil
  | (_, v) :: es =>
    exact List.forall_mem_cons.2 ⟨canon_canon v, canonEntries_canonEntries es⟩

end

mutual

lemma same_of_canon (v w : Value) (hv : Proper v) (hw : Proper w) (h : canon v = canon w) :
    same v w = true := by
  match v, w, h with
  | .null, .null, _ => rfl
  | .bool b, .bool _, h =>
    cases h
    cases b <;> rfl
  | .int n, .int _, h =>
    cases h
    exact decide_eq_true rfl
  | .float q, .float _, h =>
    cases h
    exact decide_eq_true rfl
  | .str s, .str _, h =>
    cases h
    exact decide_eq_true rfl
  | .arr xs, .arr ys, h => exact sameItems_of_canon xs ys hv hw (Value.arr.inj h)
  | .obj xs, .obj ys, h =>
    have hperm : (canonEntries xs).Perm (canonEntries ys) := by
      have hsorted : sortEntries (canonEntries xs) = sortEntries (canonEntries ys) := Value.obj.inj h
      exact (perm_sortEntries _).symm.trans (hsorted ▸ perm_sortEntries _)
    have hlen : xs.length = ys.length := by
      have := hperm.length_eq
      rwa [canonEntries_eq_map, canonEntries_eq_map, List.length_map, List.length_map] at this
    have hentries : sameEntries xs ys = true :=
      sameEntries_of_canon xs ys hv.2 hw fun e he => hperm.mem_iff.1 he
    unfold same
    rw [hentries, decide_eq_true hlen]
    rfl

lemma sameItems_of_canon (xs ys : List Value) (hxs : ProperItems xs) (hys : ProperItems ys)
    (h : canonItems xs = canonItems ys) : sameItems xs ys = true := by
  match xs, ys, h with
  | [], [], _ => rfl
  | x :: xs, y :: ys, h =>
    obtain ⟨hhead, htail⟩ := List.cons.inj h
    unfold sameItems
    rw [same_of_canon x y hxs.1 hys.1 hhead, sameItems_of_canon xs ys hxs.2 hys.2 htail]
    rfl

lemma sameEntries_of_canon (xs ys : List (String × Value)) (hxs : ProperEntries xs)
    (hys : Proper (.obj ys)) (h : ∀ e ∈ canonEntries xs, e ∈ canonEntries ys) :
    sameEntries xs ys = true := by
  match xs, hxs with
  | [], _ => rfl
  | (k, x) :: xs, hxs =>
    obtain ⟨hhead, htail⟩ := List.forall_mem_cons.1 h
    rw [canonEntries_eq_map ys] at hhead
    obtain ⟨⟨k', y⟩, hmem, hentry⟩ := List.mem_map.1 hhead
    obtain ⟨rfl, hcanon⟩ := Prod.mk.inj hentry
    have hget : Dict.get? ys k' = some y := by
      unfold Dict.get?
      rw [lookup_of_mem hys.1 hmem]
      rfl
    unfold sameEntries
    rw [hget, sameEntries_of_canon xs ys hxs.2 hys htail]
    dsimp only
    rw [same_of_canon x y hxs.1 (properEntries_iff.1 hys.2 _ hmem) hcanon.symm]
    rfl

end

lemma loads_write {v : Value} (h : Proper v) : loads (String.ofList (write style v)) = some v := by
  have hread := readValue_write style v h ((write style v).length + 1) [] (Nat.le_succ _) nofun
  rw [List.append_nil] at hread
  have hskip := skip_write style h []
  rw [List.append_nil] at hskip
  unfold loads
  rw [String.toList_ofList, hskip, hread]
  rfl

lemma loads_dumps {v : Value} (h : Proper v) : loads (dumps style v) = some (canon v) :=
  loads_write style (proper_canon v h)

lemma same_of_dumps {v w : Value} (hv : Proper v) (hw : Proper w) (h : dumps style v = dumps style w) :
    same v w = true := by
  have hloads := loads_dumps style hv
  rw [h, loads_dumps style hw] at hloads
  exact same_of_canon v w hv hw (Option.some.inj hloads).symm

lemma neg_double {q : ℚ} (h : nearest q = q) : nearest (-q) = -q := by
  refine nearest_of_multiple (m := -halfEven (q / 2 ^ grid q)) (e := grid q) ?_ ?_
  · conv_lhs => rw [← h]
    unfold nearest
    push_cast
    ring
  · unfold grid
    rw [abs_neg]

lemma proper_readUnsigned {cs rest : List Char} {v : Value} (h : readUnsigned cs = some (v, rest)) :
    Proper v ∧ Proper (negative v) := by
  unfold readUnsigned at h
  obtain ⟨⟨whole, after⟩, -, h⟩ := Option.bind_eq_some_iff.1 h
  dsimp only at h
  split at h
  · cases h
    exact ⟨trivial, trivial⟩
  · cases h
    have hdouble := nearest_nearest ((whole + number ((fractionPart after).1.getD []) /
      10 ^ ((fractionPart after).1.getD []).length) * 10 ^ ((exponentPart (fractionPart after).2).1.getD 0))
    exact ⟨hdouble, neg_double hdouble⟩

lemma proper_readNumber {cs rest : List Char} {v : Value} (h : readNumber cs = some (v, rest)) : Proper v := by
  unfold readNumber at h
  split at h
  · obtain ⟨⟨w, after⟩, hread, h⟩ := Option.map_eq_some_iff.1 h
    cases h
    exact (proper_readUnsigned hread).2
  · exact (proper_readUnsigned h).1

lemma proper_literal {word cs rest : List Char} {v w : Value} (hv : Proper v)
    (h : literal word v cs = some (w, rest)) : Proper w := by
  unfold literal at h
  split at h
  · cases h
    exact hv
  · cases h

lemma proper_dictOf {entries acc : List (String × Value)} (hacc : Proper (.obj acc))
    (h : ProperEntries entries) :
    Proper (.obj (entries.foldl (fun d entry => Dict.set entry.1 entry.2 d) acc)) := by
  induction entries generalizing acc with
  | nil => exact hacc
  | cons entry entries ih =>
    refine ih ⟨nodup_replaceRow hacc.1 entry, properEntries_iff.2 fun e he => ?_⟩ h.2
    rcases List.mem_append.1 he with he | he
    · exact properEntries_iff.1 hacc.2 e (List.mem_of_mem_filter he)
    · obtain rfl := List.mem_singleton.1 he
      exact h.1

def ProperAt (n : ℕ) : Prop :=
  (∀ cs v rest, readValue n cs = some (v, rest) → Proper v) ∧
  (∀ cs vs rest, readItems n cs = some (vs, rest) → ProperItems vs) ∧
  ∀ cs es rest, readEntries n cs = some (es, rest) → ProperEntries es

lemma properAt_succ {n : ℕ} (h : ProperAt n) : ProperAt (n + 1) := by
  obtain ⟨hvalue, hitems, hentries⟩ := h
  refine ⟨fun cs v rest hread => ?_, fun cs vs rest hread => ?_, fun cs es rest hread => ?_⟩
  · cases cs with
    | nil => cases hread
    | cons c cs =>
      unfold readValue at hread
      split_ifs at hread with hs ha hempty ho hnone hn ht hf
      · obtain ⟨_, -, h⟩ := Option.map_eq_some_iff.1 hread
        cases h
        trivial
      · cases hread
        trivial
      · obtain ⟨⟨vs, after⟩, hvs, h⟩ := Option.map_eq_some_iff.1 hread
        cases h
        exact hitems _ _ _ hvs
      · cases hread
        exact ⟨List.nodup_nil, trivial⟩
      · obtain ⟨⟨es, after⟩, hes, h⟩ := Option.map_eq_some_iff.1 hread
        cases h
        exact proper_dictOf ⟨List.nodup_nil, trivial⟩ (hentries _ _ _ hes)
      · exact proper_literal (v := .null) trivial hread
      · exact proper_literal (v := .bool true) trivial hread
      · exact proper_literal (v := .bool false) trivial hread
      · exact proper_readNumber hread
  · unfold readItems at hread
    rcases hv : readValue n cs with _ | ⟨v, after⟩
    · rw [hv] at hread
      cases hread
    · rw [hv] at hread
      dsimp only at hread
      split at hread
      · obtain ⟨⟨vs, _⟩, hvs, h⟩ := Option.map_eq_some_iff.1 hread
        cases h
        exact ⟨hvalue _ _ _ hv, hitems _ _ _ hvs⟩
      · cases hread
        exact ⟨hvalue _ _ _ hv, trivial⟩
      · cases hread
  · unfold readEntries at hread
    rcases hk : readKey cs with _ | ⟨k, after⟩
    · rw [hk] at hread
      cases hread
    · rw [hk] at hread
      dsimp only at hread
      rcases hv : readValue n after with _ | ⟨v, after'⟩
      · rw [hv] at hread
        cases hread
      · rw [hv] at hread
        dsimp only at hread
        split at hread
        · obtain ⟨⟨es, _⟩, hes, h⟩ := Option.map_eq_some_iff.1 hread
          cases h
          exact ⟨hvalue _ _ _ hv, hentries _ _ _ hes⟩
        · cases hread
          exact ⟨hvalue _ _ _ hv, trivial⟩
        · cases hread

lemma properAt (n : ℕ) : ProperAt n := by
  induction n with
  | zero => exact ⟨nofun, nofun, nofun⟩
  | succ n ih => exact properAt_succ ih

lemma proper_loads {text : String} {v : Value} (h : loads text = some v) : Proper v := by
  unfold loads at h
  obtain ⟨⟨w, rest⟩, hread, h⟩ := Option.bind_eq_some_iff.1 h
  dsimp only at h
  split at h
  · cases h
    exact (properAt _).1 _ _ _ hread
  · cases h

def padded (width n : ℕ) : List Char :=
  List.replicate (width - (Nat.toDigits 10 n).length) '0' ++ Nat.toDigits 10 n

def places : ℕ := 1074

def scaled (q : ℚ) : ℕ := ⌊|q| * 10 ^ places⌋₊

def exactUnsigned (n : ℕ) : List Char :=
  Nat.toDigits 10 (n / 10 ^ places) ++ '.' :: padded places (n % 10 ^ places)

def exactFloat (q : ℚ) : List Char :=
  if q < 0 then '-' :: exactUnsigned (scaled q) else exactUnsigned (scaled q)

lemma length_padded {width n : ℕ} (hw : 0 < width) (h : n < 10 ^ width) :
    (padded width n).length = width := by
  have hlen : (Nat.toDigits 10 n).length ≤ width := (Nat.length_toDigits_le_iff (by decide) hw).2 h
  unfold padded
  rw [List.length_append, List.length_replicate]
  omega

lemma isDigit_padded (width n : ℕ) : ∀ c ∈ padded width n, c.isDigit = true := by
  intro c hc
  rcases List.mem_append.1 hc with hc | hc
  · rw [List.eq_of_mem_replicate hc]
    rfl
  · exact isDigit_toDigits n c hc

lemma number_padded (width n : ℕ) : number (padded width n) = n := by
  unfold number padded
  rw [Nat.ofDigitChars_append, Nat.ofDigitChars_replicate_zero, Nat.mul_zero]
  exact Nat.ofDigitChars_ten_toDigits

lemma abs_double {q : ℚ} (h : nearest q = q) : nearest |q| = |q| := by
  refine nearest_of_multiple (m := |halfEven (q / 2 ^ grid q)|) (e := grid q) ?_ ?_
  · conv_lhs => rw [← h]
    unfold nearest
    rw [abs_mul, abs_of_pos (two_zpow_pos _), Int.cast_abs]
  · unfold grid
    rw [abs_abs]

lemma scaled_of_double {q : ℚ} (h : nearest q = q) : (scaled q : ℚ) = |q| * 10 ^ places := by
  obtain ⟨j, hj⟩ : ∃ j : ℕ, grid q = (j : ℤ) - places := by
    have hlow : -(places : ℤ) ≤ grid q := le_max_right _ _
    exact ⟨(grid q + places).toNat, by omega⟩
  have hwhole : |q| * 10 ^ places = ((halfEven (q / 2 ^ grid q)).natAbs * 2 ^ j * 5 ^ places : ℕ) := by
    conv_lhs => rw [← h]
    unfold nearest
    generalize halfEven (q / 2 ^ grid q) = z
    rw [abs_mul, abs_of_pos (two_zpow_pos _), hj, zpow_sub₀ (by norm_num), zpow_natCast, zpow_natCast,
      show (10 : ℚ) = 2 * 5 by norm_num, mul_pow]
    push_cast
    rw [Nat.cast_natAbs, Int.cast_abs]
    have hne : (2 : ℚ) ^ places ≠ 0 := pow_ne_zero _ (by norm_num)
    field_simp
  unfold scaled
  rw [hwhole, Nat.floor_natCast]

lemma decimalValue_exact {q : ℚ} (h : nearest q = q) :
    decimalValue (scaled q / 10 ^ places) (padded places (scaled q % 10 ^ places)) 0 = |q| := by
  have hpos : (10 : ℚ) ^ places ≠ 0 := pow_ne_zero _ (by norm_num)
  have hlen : (padded places (scaled q % 10 ^ places)).length = places :=
    length_padded (by decide) (Nat.mod_lt _ (Nat.pow_pos (by decide)))
  have hsplit := congrArg (Nat.cast (R := ℚ)) (Nat.div_add_mod (scaled q) (10 ^ places))
  push_cast at hsplit
  unfold decimalValue
  rw [number_padded, hlen, zpow_zero, mul_one]
  have hvalue : ((scaled q / 10 ^ places : ℕ) : ℚ) + ((scaled q % 10 ^ places : ℕ) : ℚ) / 10 ^ places = |q| := by
    rw [scaled_of_double h] at hsplit
    field_simp
    linarith
  rw [hvalue, abs_double h]

lemma readUnsigned_exact {q : ℚ} (h : nearest q = q) {rest : List Char} (hrest : Stops rest) :
    readUnsigned (exactUnsigned (scaled q) ++ rest) = some (.float |q|, rest) := by
  have hpoint : ∀ c, ('.' :: (padded places (scaled q % 10 ^ places) ++ rest)).head? = some c →
      c.isDigit = false := by
    intro c hc
    obtain rfl : '.' = c := Option.some.inj hc
    rfl
  have hne : padded places (scaled q % 10 ^ places) ≠ [] := fun hnil =>
    Nat.toDigits_ne_nil (List.append_eq_nil_iff.1 hnil).2
  obtain ⟨htake, hdrop⟩ := takeWhile_digits (isDigit_padded places (scaled q % 10 ^ places))
    (not_isDigit_of_stops hrest)
  have hfraction : fractionPart ('.' :: (padded places (scaled q % 10 ^ places) ++ rest)) =
      (some (padded places (scaled q % 10 ^ places)), rest) := by
    change (if (padded places (scaled q % 10 ^ places) ++ rest).takeWhile Char.isDigit = [] then _ else
      (some ((padded places (scaled q % 10 ^ places) ++ rest).takeWhile Char.isDigit),
        (padded places (scaled q % 10 ^ places) ++ rest).dropWhile Char.isDigit)) = _
    rw [htake, hdrop, if_neg hne]
  unfold exactUnsigned readUnsigned
  rw [List.append_assoc, List.cons_append, wholePart_toDigits _ hpoint]
  simp only [Option.bind_eq_bind, Option.bind_some, hfraction, exponentPart_of_stops hrest]
  exact congrArg (fun x => some (Value.float x, rest)) (decimalValue_exact h)

lemma readNumber_exactFloat (q : ℚ) (h : nearest q = q) (rest : List Char) (hrest : Stops rest) :
    readNumber (exactFloat q ++ rest) = some (.float q, rest) := by
  unfold exactFloat
  split
  · next hneg =>
    rw [List.cons_append, readNumber_minus, readUnsigned_exact h hrest]
    have habs : -|q| = q := by rw [abs_of_neg hneg, neg_neg]
    exact congrArg (fun x => some (Value.float x, rest)) habs
  · next hpos =>
    have hread := readUnsigned_exact h hrest
    rw [abs_of_nonneg (not_lt.1 hpos)] at hread
    unfold exactUnsigned at hread ⊢
    rw [List.append_assoc] at hread ⊢
    rw [readNumber_digits Nat.toDigits_ne_nil (isDigit_toDigits _), hread]

def exactStyle (gap : List Char) (h : ∀ c ∈ gap, isBlank c = true) : Style where
  gap := gap
  float := exactFloat
  blank := h
  reads := readNumber_exactFloat

end PromptForge.JsonText
