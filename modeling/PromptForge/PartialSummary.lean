import PromptForge.JsonText
import PromptForge.ObjectExtraction
import PromptForge.Texts

/-!
# The summary of a plan that is still arriving

While a provider sends a plan, its summary is read out of the text that is there.
-/
namespace PromptForge.PartialSummary
open JsonText (letterEscapes readHex4)
open ObjectExtraction (Blanks IsHex IsJson Part)
open Texts (isSpace)

abbrev Text := List Char

local instance (priority := 1100) decidableForallMem {α : Type} (p : α → Prop) [DecidablePred p] (l : List α) : Decidable (∀ x ∈ l, p x) :=
  List.decidableBAll p l

/-- `\s*c`, for a character that is not a space, and what follows. -/
def afterMark (c : Char) (text : Text) : Option Text := (text.dropWhile isSpace).dropPrefix? [c]

/-- `"key"\s*:\s*"` at the beginning of a text, and what follows. -/
def opened (key text : Text) : Option Text :=
  ((text.dropPrefix? ('"' :: (key ++ ['"']))).bind (afterMark ':')).bind (afterMark '"')

def search (key : Text) : Text → Option Text
  | [] => none
  | c :: cs => (opened key (c :: cs)).or (search key cs)

section Reader
variable (other : Text → Option ℕ)

/-- `int(digits, 16)`, which takes some texts besides four hexadecimal digits. -/
def int16 (digits : Text) : Option ℕ := ((readHex4 digits).map Prod.fst).or (other digits)

def decodeFrom : Text → List ℕ
  | [] => []
  | char :: text =>
    if char = '"' then []
    else if char = '\\' then
      match text with
      | [] => []
      | code :: text =>
        if code = 'u' then
          match text with
          | a :: b :: c :: d :: text =>
            match int16 other [a, b, c, d] with
            | some u => u :: decodeFrom text
            | none => []
          | _ => []
        else
          match letterEscapes.lookup code with
          | some mapped => mapped.toNat :: decodeFrom text
          | none => []
    else char.toNat :: decodeFrom text

def partialJsonStringValue (text key : Text) : List ℕ := ((search key text).map (decodeFrom other)).getD []

end Reader

/-- The units that the characters and the escapes of a literal stand for. -/
inductive Spells : Text → List ℕ → Prop
  | nil : Spells [] []
  | character {c cs us} : 0x20 ≤ c.toNat → c ≠ '"' → c ≠ '\\' → Spells cs us → Spells (c :: cs) (c.toNat :: us)
  | escape {e c cs us} : e ≠ 'u' → letterEscapes.lookup e = some c → Spells cs us → Spells ('\\' :: e :: cs) (c.toNat :: us)
  | unicode {a b c d u cs us} : readHex4 [a, b, c, d] = some (u, []) → Spells cs us →
      Spells ('\\' :: 'u' :: a :: b :: c :: d :: cs) (u :: us)

abbrev IsHigh (u : ℕ) : Prop := 0xD800 ≤ u ∧ u < 0xDC00

abbrev IsLow (u : ℕ) : Prop := 0xDC00 ≤ u ∧ u < 0xE000

/-- The characters of a string: the halves of a pair make one. -/
def merge : List ℕ → List ℕ
  | [] => []
  | [u] => [u]
  | h :: l :: us =>
    if IsHigh h ∧ IsLow l then (0x10000 + (h - 0xD800) * 0x400 + (l - 0xDC00)) :: merge us else h :: merge (l :: us)

/-- The members of an object: the characters of the key, and the text of the value. -/
inductive Members : Text → List (List ℕ × Text) → Prop
  | last {b k us b' v} : Blanks b → Spells k us → Blanks b' → IsJson .element v →
      Members (b ++ '"' :: (k ++ '"' :: (b' ++ ':' :: v))) [(merge us, v)]
  | next {b k us b' v ms es} : Blanks b → Spells k us → Blanks b' → IsJson .element v → Members ms es →
      Members (b ++ '"' :: (k ++ '"' :: (b' ++ ':' :: (v ++ ',' :: ms)))) ((merge us, v) :: es)

def summaryKey : Text := "summary".toList

/-- The JSON text of an object with a string for its summary, of these characters. -/
def IsPlan (o : Text) (summary : List ℕ) : Prop :=
  ∃ w ms w' es b body us b', o = w ++ '{' :: (ms ++ '}' :: w') ∧ Blanks w ∧ Blanks w' ∧ Members ms es ∧ (es.map Prod.fst).Nodup ∧
    (summaryKey.map Char.toNat, b ++ '"' :: (body ++ '"' :: b')) ∈ es ∧ Blanks b ∧ Spells body us ∧ Blanks b' ∧ merge us = summary

variable {other : Text → Option ℕ} {key text o rest : Text} {us summary : List ℕ}

structure Streams (other : Text → Option ℕ) (o : Text) (summary : List ℕ) : Prop where
  isPrefix : ∀ p, p <+: o → partialJsonStringValue other p summaryKey <+: summary
  grows : ∀ p q, p <+: q → q <+: o → partialJsonStringValue other p summaryKey <+: partialJsonStringValue other q summaryKey
  complete : partialJsonStringValue other o summaryKey = summary
  surrogates : ∀ p, p <+: o → (∃ u ∈ partialJsonStringValue other p summaryKey, IsHigh u ∨ IsLow u) →
    ∃ u ∈ summary, IsHigh u ∨ IsLow u

/-- The first match is before a literal that spells the summary with one character or one escape for
    each of its characters. -/
def Introduced (o : Text) (summary : List ℕ) : Prop :=
  match search summaryKey o with
  | none => summary = []
  | some rest => ∃ body after, rest = body ++ '"' :: after ∧ Spells body summary

def Spaces (b : Text) : Prop := ∀ c ∈ b, isSpace c = true

lemma afterMark_eq_some_iff {c : Char} (hc : isSpace c = false) :
    afterMark c text = some rest ↔ ∃ b, Spaces b ∧ text = b ++ c :: rest := by
  unfold afterMark
  rw [List.dropPrefix?_eq_some_iff]
  constructor
  · rintro ⟨_, hdrop, hbeq⟩
    obtain rfl := eq_of_beq hbeq
    exact ⟨text.takeWhile isSpace, fun d hd => List.mem_takeWhile_imp hd,
      by rw [← List.singleton_append, ← hdrop, List.takeWhile_append_dropWhile]⟩
  · rintro ⟨b, hb, rfl⟩
    exact ⟨[c], by rw [List.dropWhile_append_of_pos hb, List.dropWhile_cons, hc]; rfl, beq_self_eq_true _⟩

lemma opened_eq_some_iff : opened key text = some rest ↔
    ∃ b b', Spaces b ∧ Spaces b' ∧ text = '"' :: (key ++ '"' :: (b ++ ':' :: (b' ++ '"' :: rest))) := by
  simp only [opened, Option.bind_eq_some_iff, List.dropPrefix?_eq_some_iff, afterMark_eq_some_iff (show isSpace ':' = false by decide),
    afterMark_eq_some_iff (show isSpace '"' = false by decide)]
  constructor
  · rintro ⟨_, ⟨_, ⟨_, rfl, hbeq⟩, b, hb, rfl⟩, b', hb', rfl⟩
    exact ⟨b, b', hb, hb', by rw [eq_of_beq hbeq]; simp⟩
  · rintro ⟨b, b', hb, hb', rfl⟩
    exact ⟨_, ⟨_, ⟨_, by simp, beq_self_eq_true _⟩, b, hb, rfl⟩, b', hb', rfl⟩

lemma opened_append (h : opened key text = some rest) (extra : Text) : opened key (text ++ extra) = some (rest ++ extra) := by
  obtain ⟨b, b', hb, hb', rfl⟩ := opened_eq_some_iff.mp h
  exact opened_eq_some_iff.mpr ⟨b, b', hb, hb', by simp⟩

lemma search_count (h : search key text = some rest) : 3 ≤ text.count '"' := by
  induction text with
  | nil => cases h
  | cons c cs ih =>
    rcases Option.or_eq_some_iff.mp h with h | ⟨-, h⟩
    · obtain ⟨b, b', -, -, hcs⟩ := opened_eq_some_iff.mp h
      rw [hcs]
      simp only [List.count_cons, List.count_append, beq_self_eq_true, if_true]
      omega
    · exact (ih h).trans (List.count_le_count_cons ..)

lemma count_spaces {b : Text} (hb : Spaces b) : b.count '"' = 0 :=
  List.count_eq_zero.mpr fun h => absurd (hb _ h) (by decide)

/-- A match has three quotes, so that none which is cut off begins before one that is whole. -/
lemma search_append (hkey : '"' ∉ key) (h : search key text = some rest) (extra : Text) :
    search key (text ++ extra) = some (rest ++ extra) := by
  induction text with
  | nil => cases h
  | cons c cs ih =>
    refine Option.or_eq_some_iff.mpr ?_
    rcases Option.or_eq_some_iff.mp h with h | ⟨hnone, h⟩
    · exact .inl (opened_append h extra)
    · refine .inr ⟨Option.eq_none_iff_forall_ne_some.mpr fun r hr => ?_, ih h⟩
      obtain ⟨b, b', hb, hb', hcut⟩ := opened_eq_some_iff.mp hr
      have hmatch : '"' :: (key ++ '"' :: (b ++ ':' :: b')) ++ ['"'] <+: c :: cs ++ extra := ⟨r, by simpa using hcut.symm⟩
      have hwhole : ¬ '"' :: (key ++ '"' :: (b ++ ':' :: b')) ++ ['"'] <+: c :: cs := by
        rintro ⟨m, hm⟩
        rw [← hm, (@opened_eq_some_iff _ _ m).mpr ⟨b, b', hb, hb', by simp⟩] at hnone
        cases hnone
      have hpart := (List.prefix_or_prefix_of_prefix hmatch (List.prefix_append ..)).resolve_left hwhole
      rcases List.prefix_concat_iff.mp hpart with heq | hpart
      · exact hwhole (heq ▸ List.prefix_rfl)
      · have htwo := hpart.sublist.count_le '"'
        simp only [List.count_cons, List.count_append, count_spaces hb, count_spaces hb', List.count_eq_zero.mpr hkey] at htwo
        have hthree := search_count h
        simp at htwo
        omega

lemma decodeFrom_append (text extra : Text) : decodeFrom other text <+: decodeFrom other (text ++ extra) := by
  induction text using decodeFrom.induct other <;> (rw [decodeFrom.eq_def, decodeFrom.eq_def _ (_ ++ _)]; simp [*])

lemma decodeFrom_spelled {body : Text} (h : Spells body us) (after : Text) : decodeFrom other (body ++ '"' :: after) = us := by
  induction h with
  | nil => simp [decodeFrom.eq_def]
  | character _ hquote hback _ ih =>
    rw [decodeFrom.eq_def]
    simp [hquote, hback, ih]
  | escape hu hlookup _ ih =>
    rw [decodeFrom.eq_def]
    simp [hu, hlookup, ih]
  | unicode hread _ ih =>
    rw [decodeFrom.eq_def]
    simp [int16, hread, ih]

lemma value_grows (hkey : '"' ∉ key) {p q : Text} (h : p <+: q) :
    partialJsonStringValue other p key <+: partialJsonStringValue other q key := by
  obtain ⟨extra, rfl⟩ := h
  unfold partialJsonStringValue
  cases hsearch : search key p with
  | none => exact List.nil_prefix
  | some rest =>
    rw [search_append hkey hsearch extra]
    exact decodeFrom_append rest extra

/-- What a JSON text is made of: characters outside of literals, and literals. -/
inductive Lexed : Text → Prop
  | nil : Lexed []
  | plain {c t} : c ≠ '"' → c ≠ 'm' → Lexed t → Lexed (c :: t)
  | literal {cs us t} : Spells cs us → Lexed t → Lexed ('"' :: (cs ++ '"' :: t))

lemma Lexed.append {s t : Text} (hs : Lexed s) (ht : Lexed t) : Lexed (s ++ t) := by
  induction hs with
  | nil => exact ht
  | plain hquote hm _ ih => exact .plain hquote hm ih
  | literal hcs _ ih => simpa using Lexed.literal hcs ih

lemma lexed_plain {cs : Text} (h : ∀ c ∈ cs, c ≠ '"' ∧ c ≠ 'm') : Lexed cs := by
  induction cs with
  | nil => exact .nil
  | cons c cs ih =>
    obtain ⟨hc, hcs⟩ := List.forall_mem_cons.mp h
    exact .plain hc.1 hc.2 (ih hcs)

lemma lexed_blanks {b : Text} (h : Blanks b) : Lexed b := by
  have hall : ∀ c ∈ [' ', '\t', '\n', '\r'], c ≠ '"' ∧ c ≠ 'm' := by decide
  exact lexed_plain fun c hc => hall c (h c hc)

lemma lexed_number {s w f e : Text} (h : ObjectExtraction.IsNumber s w f e) : Lexed (s ++ (w ++ (f ++ e))) := by
  have hall : ∀ c ∈ "+-.eE".toList, c ≠ '"' ∧ c ≠ 'm' := by decide
  refine lexed_plain fun c hc => (ObjectExtraction.mem_number h c hc).elim (fun hdigit => ?_) (hall c)
  constructor <;> (rintro rfl; cases hdigit)

lemma exists_hexValue {c : Char} (h : IsHex c) : ∃ n, JsonText.hexValue c = some n := by
  rcases h with h | h
  · rw [Char.isDigit, Bool.and_eq_true, decide_eq_true_eq, decide_eq_true_eq] at h
    exact ⟨_, if_pos h⟩
  · have hall : ∀ c ∈ "abcdefABCDEF".toList, (JsonText.hexValue c).isSome := by decide
    exact Option.isSome_iff_exists.mp (hall c h)

def Reads : Part → Text → Prop
  | .characters, t => ∃ us, Spells t us
  | _, t => Lexed t

lemma reads_json {part : Part} {t : Text} (h : IsJson part t) : Reads part t := by
  induction h with
  | nil => exact ⟨_, .nil⟩
  | character hc hquote hback _ ih =>
    obtain ⟨us, hus⟩ := ih
    exact ⟨_, .character hc hquote hback hus⟩
  | escape he _ ih =>
    obtain ⟨us, hus⟩ := ih
    have hall : ∀ e ∈ "\"\\/bfnrt".toList, e ≠ 'u' ∧ (letterEscapes.lookup e).isSome := by decide
    obtain ⟨c, hc⟩ := Option.isSome_iff_exists.mp (hall _ he).2
    exact ⟨_, .escape (hall _ he).1 hc hus⟩
  | @unicode digits cs hlength hhex _ ih =>
    obtain ⟨us, hus⟩ := ih
    obtain ⟨a, b, c, d, rfl⟩ : ∃ a b c d, digits = [a, b, c, d] := by
      match digits, hlength with
      | [a, b, c, d], _ => exact ⟨a, b, c, d, rfl⟩
    simp only [List.forall_mem_cons] at hhex
    obtain ⟨_, ha⟩ := exists_hexValue hhex.1
    obtain ⟨_, hb⟩ := exists_hexValue hhex.2.1
    obtain ⟨_, hc⟩ := exists_hexValue hhex.2.2.1
    obtain ⟨_, hd⟩ := exists_hexValue hhex.2.2.2.1
    exact ⟨_, .unicode (by simp only [readHex4, ha, hb, hc, hd]; rfl) hus⟩
  | string _ ih =>
    obtain ⟨us, hus⟩ := ih
    exact .literal hus .nil
  | member hb _ hb' _ ihk ihv =>
    exact (lexed_blanks hb).append (Lexed.append ihk ((lexed_blanks hb').append (.plain (by decide) (by decide) ihv)))
  | lastMember _ ih | lastElement _ ih | ofString _ ih | ofObject _ ih | ofArray _ ih => exact ih
  | members _ _ ih ihs | elements _ _ ih ihs => exact Lexed.append ih (.plain (by decide) (by decide) ihs)
  | emptyObject hb | emptyArray hb =>
    exact .plain (by decide) (by decide) ((lexed_blanks hb).append (lexed_plain (by decide)))
  | object _ ih | array _ ih => exact .plain (by decide) (by decide) (Lexed.append ih (lexed_plain (by decide)))
  | element hb _ hb' ih => exact (lexed_blanks hb).append (Lexed.append ih (lexed_blanks hb'))
  | number hn => exact lexed_number hn
  | literal hw =>
    simp only [List.mem_cons, List.not_mem_nil, or_false] at hw
    rcases hw with rfl | rfl | rfl <;> exact lexed_plain (by decide)

/-- A text that begins with a literal, after its quote. -/
def Literal (rest : Text) : Prop := ∃ body us after, rest = body ++ '"' :: after ∧ Spells body us

lemma Lexed.tail {c : Char} {t : Text} (h : Lexed (c :: t)) (hc : c ≠ '"') : Lexed t := by
  cases h with
  | plain _ _ ht => exact ht
  | literal _ _ => cases hc rfl

lemma Lexed.afterSpaces {b t : Text} (h : Lexed (b ++ t)) (hb : Spaces b) : Lexed t := by
  induction b with
  | nil => exact h
  | cons c b ih =>
    obtain ⟨hc, hb⟩ := List.forall_mem_cons.mp hb
    exact ih (h.tail (by rintro rfl; cases hc)) hb

lemma Spells.closes {cs k t x : Text} (h : Spells cs us) (hk : ∀ c ∈ k, c ≠ '"' ∧ c ≠ '\\')
    (heq : cs ++ '"' :: t = k ++ '"' :: x) : t = x := by
  induction h generalizing k with
  | nil =>
    cases k with
    | nil => exact (List.cons.inj heq).2
    | cons c k => cases (hk c (by simp)).1 (List.cons.inj heq).1.symm
  | character _ hquote hback _ ih =>
    cases k with
    | nil => cases hquote (List.cons.inj heq).1
    | cons c k => exact ih (fun d hd => hk d (by simp [hd])) (List.cons.inj heq).2
  | escape | unicode =>
    cases k with
    | nil => cases (List.cons.inj heq).1
    | cons c k => cases (hk c (by simp)).2 (List.cons.inj heq).1.symm

/-- What is opened behind a quote that is the first of a literal, or an escaped one inside. -/
lemma literal_of_opened {cs t : Text} (hkey : ∀ c ∈ key, c ≠ '"' ∧ c ≠ '\\') (hcs : Spells cs us) (ht : Lexed t)
    (h : opened key ('"' :: (cs ++ '"' :: t)) = some rest) : Literal rest := by
  obtain ⟨b, b', hb, hb', heq⟩ := opened_eq_some_iff.mp h
  obtain rfl := hcs.closes hkey (List.cons.inj heq).2
  cases (((ht.afterSpaces hb).tail (by decide)).afterSpaces hb') with
  | plain hquote _ _ => cases hquote rfl
  | literal hbody _ => exact ⟨_, _, _, rfl, hbody⟩

lemma search_skip {c : Char} (hc : c ≠ '"') (cs : Text) : search key (c :: cs) = search key cs := by
  have hnone : opened key (c :: cs) = none := Option.eq_none_iff_forall_ne_some.mpr fun r hr => by
    obtain ⟨_, _, _, _, heq⟩ := opened_eq_some_iff.mp hr
    exact hc (List.cons.inj heq).1
  rw [search, hnone, Option.none_or]

lemma literal_inside {cs t : Text} (hcs : Spells cs us) (ht : Lexed t)
    (ih : search summaryKey t = some rest → Literal rest) (h : search summaryKey (cs ++ '"' :: t) = some rest) : Literal rest := by
  induction hcs with
  | nil =>
    rcases Option.or_eq_some_iff.mp h with h | ⟨-, h⟩
    · -- outside of a literal there is no `summary`
      obtain ⟨_, _, _, _, heq⟩ := opened_eq_some_iff.mp h
      obtain rfl := (List.cons.inj heq).2
      cases (ht.tail (by decide)).tail (by decide) with
      | plain _ hm _ => cases hm rfl
    · exact ih h
  | character _ hquote _ _ ihcs => exact ihcs (by rwa [List.cons_append, search_skip hquote] at h)
  | @escape e _ cs _ hu _ hcs ihcs =>
    rw [List.cons_append, search_skip (by decide)] at h
    rcases Option.or_eq_some_iff.mp h with h | ⟨-, h⟩
    · by_cases he : e = '"'
      · subst he
        exact literal_of_opened (by decide) hcs ht h
      · obtain ⟨_, _, _, _, heq⟩ := opened_eq_some_iff.mp h
        cases he (List.cons.inj heq).1
    · exact ihcs h
  | unicode hread _ ihcs =>
    have hquote : ∀ c n, JsonText.hexValue c = some n → c ≠ '"' := by
      rintro c n hc rfl
      cases hc
    simp only [readHex4, Option.bind_eq_bind, Option.bind_eq_some_iff] at hread
    obtain ⟨_, ha, _, hb, _, hc, _, hd, -⟩ := hread
    simp only [List.cons_append] at h
    rw [search_skip (by decide), search_skip (by decide), search_skip (hquote _ _ ha), search_skip (hquote _ _ hb),
      search_skip (hquote _ _ hc), search_skip (hquote _ _ hd)] at h
    exact ihcs h

lemma literal_of_search (ht : Lexed text) (h : search summaryKey text = some rest) : Literal rest := by
  induction ht with
  | nil => cases h
  | plain hquote _ _ ih => exact ih (by rwa [search_skip hquote] at h)
  | literal hcs ht ih =>
    rcases Option.or_eq_some_iff.mp h with h | ⟨-, h⟩
    · exact literal_of_opened (by decide) hcs ht h
    · exact literal_inside hcs ht ih h

lemma Members.lexed {ms : Text} {es : List (List ℕ × Text)} (h : Members ms es) : Lexed ms := by
  induction h with
  | last hb hk hb' hv =>
    exact (lexed_blanks hb).append (.literal hk ((lexed_blanks hb').append (.plain (by decide) (by decide) (reads_json hv))))
  | next hb hk hb' hv _ ih =>
    have hrest := Lexed.append (reads_json hv) (.plain (c := ',') (by decide) (by decide) ih)
    exact (lexed_blanks hb).append (.literal hk ((lexed_blanks hb').append (.plain (by decide) (by decide) hrest)))

lemma IsPlan.lexed (h : IsPlan o summary) : Lexed o := by
  obtain ⟨w, ms, w', es, -, -, -, -, rfl, hw, hw', hms, -⟩ := h
  exact (lexed_blanks hw).append (.plain (by decide) (by decide) (hms.lexed.append (.plain (by decide) (by decide) (lexed_blanks hw'))))

lemma value_eq_iff (h : Lexed o) : partialJsonStringValue other o summaryKey = summary ↔ Introduced o summary := by
  unfold partialJsonStringValue Introduced
  cases hsearch : search summaryKey o with
  | none => exact eq_comm
  | some rest =>
    obtain ⟨body, us, after, rfl, hbody⟩ := literal_of_search h hsearch
    rw [Option.map_some, Option.getD_some]
    constructor
    · intro hsummary
      rw [decodeFrom_spelled hbody] at hsummary
      exact ⟨body, after, rfl, hsummary ▸ hbody⟩
    · rintro ⟨body', after', hsame, hspelled⟩
      rw [hsame, decodeFrom_spelled hspelled]

theorem streams_iff (other : Text → Option ℕ) (o : Text) (summary : List ℕ) (h : IsPlan o summary) :
    Streams other o summary ↔ Introduced o summary := by
  constructor
  · exact fun hs => (value_eq_iff h.lexed).mp hs.complete
  · intro hi
    have hcomplete := (@value_eq_iff other o summary h.lexed).mpr hi
    have hvalue := fun p q => @value_grows other summaryKey (by decide) p q
    refine ⟨fun p hp => hcomplete ▸ hvalue p o hp, fun p q hpq _ => hvalue p q hpq, hcomplete, ?_⟩
    rintro p hp ⟨u, hu, hsurrogate⟩
    exact ⟨u, hcomplete ▸ (hvalue p o hp).subset hu, hsurrogate⟩

/-- A plan without calls, with this text between the quotes of its summary. -/
def finalPlan (body : Text) : Text :=
  "\x7b\"version\":\"forgex.toolplan.v2\",\"tool_calls\":[],\"final\":true,\"summary\":\"".toList ++ (body ++ ['"']) ++ ['}']

lemma spells_letters {cs : Text} (h : ∀ c ∈ cs, 0x20 ≤ c.toNat ∧ c ≠ '"' ∧ c ≠ '\\') :
    Spells cs (cs.map Char.toNat) ∧ IsJson .characters cs := by
  induction cs with
  | nil => exact ⟨.nil, .nil⟩
  | cons c cs ih =>
    obtain ⟨⟨hc, hquote, hback⟩, hcs⟩ := List.forall_mem_cons.mp h
    exact ⟨.character hc hquote hback (ih hcs).1, .character hc hquote hback (ih hcs).2⟩

lemma isPlan_finalPlan {body : Text} (hus : Spells body us) (hjson : IsJson .characters body) :
    IsPlan (finalPlan body) (merge us) := by
  have hblank : Blanks [] := fun c hc => by cases hc
  have hkey : ∀ k ∈ ["version".toList, "tool_calls".toList, "final".toList, summaryKey], Spells k (k.map Char.toNat) := by
    intro k hk
    refine (spells_letters ?_).1
    revert k
    decide
  have helement : ∀ v, IsJson .value v → IsJson .element v := fun v hv => by simpa using IsJson.element hblank hv hblank
  have hversion := helement _ (.ofString (.string (spells_letters (show ∀ c ∈ "forgex.toolplan.v2".toList, _ by decide)).2))
  have hcalls := helement _ (.ofArray (.emptyArray hblank))
  have hfinal := helement _ (.literal (show "true".toList ∈ _ by decide))
  have hmembers := Members.next hblank (hkey "version".toList (by decide)) hblank hversion
    (.next hblank (hkey "tool_calls".toList (by decide)) hblank hcalls
      (.next hblank (hkey "final".toList (by decide)) hblank hfinal
        (.last hblank (hkey summaryKey (by decide)) hblank (helement _ (.ofString (.string hjson))))))
  exact ⟨[], _, [], _, [], body, us, [], rfl, hblank, hblank, hmembers, by simp only [List.map]; decide, .tail _ (.tail _ (.tail _ (.head _))), hblank, hus,
    hblank, rfl⟩

/-- Two escapes of one character are two characters. -/
theorem pair_split : ¬∀ other o summary, IsPlan o summary → Streams other o summary := by
  intro hall
  have hus : Spells "\\ud83d\\ude00".toList [0xD83D, 0xDE00] := .unicode (by decide) (.unicode (by decide) .nil)
  have hjson : IsJson .characters "\\ud83d\\ude00".toList :=
    @IsJson.unicode "d83d".toList _ rfl (by unfold IsHex; decide) (@IsJson.unicode "de00".toList _ rfl (by unfold IsHex; decide) .nil)
  have hs := (hall (fun _ => none) _ _ (isPlan_finalPlan hus hjson)).complete
  revert hs
  decide +kernel

theorem streams_ok : IsPlan (finalPlan "ok".toList) ("ok".toList.map Char.toNat) ∧
    (Streams (fun _ => none) (finalPlan "ok".toList) ("ok".toList.map Char.toNat) ↔
      Introduced (finalPlan "ok".toList) ("ok".toList.map Char.toNat)) := by
  have hletters := spells_letters (show ∀ c ∈ "ok".toList, _ by decide)
  exact ⟨isPlan_finalPlan hletters.1 hletters.2, streams_iff _ _ _ (isPlan_finalPlan hletters.1 hletters.2)⟩

/-- `content_delta`, as the parts of a response arrive: the calls of `on_summary`. -/
def contentDelta (other : Text → Option ℕ) (content : Text) (lastSummary : List ℕ) : List Text → List (List ℕ)
  | [] => []
  | delta :: deltas =>
    let summary := partialJsonStringValue other (content ++ delta) summaryKey
    if summary ≠ [] ∧ summary ≠ lastSummary then summary :: contentDelta other (content ++ delta) summary deltas
    else contentDelta other (content ++ delta) lastSummary deltas

/-- In whatever parts the rest of a response arrives, each summary that is shown extends the one
    before, and the last one is read from the whole. -/
theorem shown_summaries_grow (other : Text → Option ℕ) (content : Text) (deltas : List Text) :
    let last := partialJsonStringValue other content summaryKey
    (last :: contentDelta other content last deltas).IsChain (fun shown later => shown <+: later ∧ shown ≠ later) ∧
      (contentDelta other content last deltas).getLastD last = partialJsonStringValue other (content ++ deltas.flatten) summaryKey := by
  induction deltas generalizing content with
  | nil => simp [contentDelta]
  | cons delta deltas ih =>
    have hgrow := @value_grows other summaryKey (by decide) _ _ (List.prefix_append content delta)
    obtain ⟨hchain, hfinal⟩ := ih (content ++ delta)
    dsimp only [contentDelta]
    rw [List.flatten_cons, ← List.append_assoc]
    split
    next h => exact ⟨.cons_cons ⟨hgrow, h.2.symm⟩ hchain, by rwa [List.getLastD_cons]⟩
    next h =>
      have hsame : partialJsonStringValue other content summaryKey = partialJsonStringValue other (content ++ delta) summaryKey :=
        by_contra fun hne => h ⟨fun hnil => hne (hnil ▸ List.prefix_nil.mp (hnil ▸ hgrow)), Ne.symm hne⟩
      rw [hsame]
      exact ⟨hchain, hfinal⟩

end PromptForge.PartialSummary
