import Mathlib.Data.Int.Notation
import Mathlib.Data.List.Basic

/-!
# The object inside a reply

Where a reply is not JSON as a whole, its first object is cut out of it by counting
braces.
-/
namespace PromptForge.ObjectExtraction

abbrev Text := List Char

local instance (priority := 1100) decidableForallMem {α : Type} (p : α → Prop) [DecidablePred p] (l : List α) : Decidable (∀ x ∈ l, p x) :=
  List.decidableBAll p l

def closing : ℕ → ℤ → Bool → Bool → Text → Option ℕ
  | _, _, _, _, [] => none
  | index, depth, inString, escaped, char :: rest =>
    if escaped then closing (index + 1) depth inString false rest
    else if char = '\\' then closing (index + 1) depth inString true rest
    else if char = '"' then closing (index + 1) depth (!inString) escaped rest
    else if inString then closing (index + 1) depth inString escaped rest
    else if char = '{' then closing (index + 1) (depth + 1) inString escaped rest
    else if char = '}' then
      if depth - 1 = 0 then some index else closing (index + 1) (depth - 1) inString escaped rest
    else closing (index + 1) depth inString escaped rest

def extractJsonObject (value : Text) : Option Text :=
  (value.findIdx? (· == '{')).bind fun start =>
    (closing start 0 false false (value.drop start)).map fun index => (value.take (index + 1)).drop start

inductive Part
  | characters | string | members | member | object | elements | element | array | value
  deriving DecidableEq

def Blanks (b : Text) : Prop := ∀ c ∈ b, c ∈ [' ', '\t', '\n', '\r']

def Digits (ds : Text) : Prop := ds ≠ [] ∧ ∀ c ∈ ds, c.isDigit = true

def IsHex (c : Char) : Prop := c.isDigit = true ∨ c ∈ "abcdefABCDEF".toList

structure IsNumber (sign whole fraction exponent : Text) : Prop where
  sign : sign = [] ∨ sign = ['-']
  whole : Digits whole ∧ (whole.head? = some '0' → whole = ['0'])
  fraction : fraction = [] ∨ ∃ ds, Digits ds ∧ fraction = '.' :: ds
  exponent : exponent = [] ∨ ∃ e s ds, e ∈ ['e', 'E'] ∧ s ∈ [[], ['+'], ['-']] ∧ Digits ds ∧ exponent = e :: (s ++ ds)

inductive IsJson : Part → Text → Prop
  | nil : IsJson .characters []
  | character {c cs} : 0x20 ≤ c.toNat → c ≠ '"' → c ≠ '\\' → IsJson .characters cs → IsJson .characters (c :: cs)
  | escape {c cs} : c ∈ "\"\\/bfnrt".toList → IsJson .characters cs → IsJson .characters ('\\' :: c :: cs)
  | unicode {digits cs} : digits.length = 4 → (∀ c ∈ digits, IsHex c) → IsJson .characters cs →
      IsJson .characters ('\\' :: 'u' :: (digits ++ cs))
  | string {cs} : IsJson .characters cs → IsJson .string ('"' :: (cs ++ ['"']))
  | member {b k b' v} : Blanks b → IsJson .string k → Blanks b' → IsJson .element v →
      IsJson .member (b ++ (k ++ (b' ++ ':' :: v)))
  | lastMember {m} : IsJson .member m → IsJson .members m
  | members {m ms} : IsJson .member m → IsJson .members ms → IsJson .members (m ++ ',' :: ms)
  | emptyObject {b} : Blanks b → IsJson .object ('{' :: (b ++ ['}']))
  | object {ms} : IsJson .members ms → IsJson .object ('{' :: (ms ++ ['}']))
  | element {b v b'} : Blanks b → IsJson .value v → Blanks b' → IsJson .element (b ++ (v ++ b'))
  | lastElement {e} : IsJson .element e → IsJson .elements e
  | elements {e es} : IsJson .element e → IsJson .elements es → IsJson .elements (e ++ ',' :: es)
  | emptyArray {b} : Blanks b → IsJson .array ('[' :: (b ++ [']']))
  | array {es} : IsJson .elements es → IsJson .array ('[' :: (es ++ [']']))
  | ofString {t} : IsJson .string t → IsJson .value t
  | ofObject {t} : IsJson .object t → IsJson .value t
  | ofArray {t} : IsJson .array t → IsJson .value t
  | number {s w f e} : IsNumber s w f e → IsJson .value (s ++ (w ++ (f ++ e)))
  | literal {w} : w ∈ ["true".toList, "false".toList, "null".toList] → IsJson .value w

/-- How far a reader is: the braces still open, and whether it stands in a string. -/
structure Place where
  depth : ℕ
  inString : Bool
  escaped : Bool
  deriving DecidableEq

def home : Place := ⟨0, false, false⟩

/-- `none` at a brace that closes what none opened. -/
def Place.next (everywhere : Bool) (p : Place) (c : Char) : Option Place :=
  if p.escaped then some { p with escaped := false }
  else if c = '\\' ∧ (everywhere || p.inString) = true then some { p with escaped := true }
  else if c = '"' then some { p with inString := !p.inString }
  else if p.inString then some p
  else if c = '{' then some { p with depth := p.depth + 1 }
  else if c = '}' then if p.depth = 0 then none else some { p with depth := p.depth - 1 }
  else some p

def reads (everywhere : Bool) (p : Place) (cs : Text) : Option Place := cs.foldlM (Place.next everywhere) p

/-- The braces outside the strings match, and every string is closed. -/
def Balanced (s : Text) : Prop := reads false home s = some home

instance (s : Text) : Decidable (Balanced s) := inferInstanceAs (Decidable (_ = _))

variable {everywhere : Bool} {p q : Place} {c : Char} {cs : Text} {d : ℕ}

@[simp] lemma reads_nil : reads everywhere p [] = some p := rfl

lemma reads_cons : reads everywhere p (c :: cs) = (p.next everywhere c).bind (reads everywhere · cs) := rfl

lemma reads_append (xs ys : Text) : reads everywhere p (xs ++ ys) = (reads everywhere p xs).bind (reads everywhere · ys) := by
  unfold reads
  rw [List.foldlM_append]
  rfl

lemma reads_skip {xs : Text} (h : reads everywhere p xs = some p) (ys : Text) :
    reads everywhere p (xs ++ ys) = reads everywhere p ys := by
  rw [reads_append, h, Option.bind_some]

def special : List Char := ['{', '}', '"', '\\']

lemma reads_plain {s : Bool} (h : ∀ c ∈ cs, c ∉ special) : reads everywhere ⟨d, s, false⟩ cs = some ⟨d, s, false⟩ := by
  induction cs with
  | nil => rfl
  | cons c cs ih =>
    obtain ⟨hc, hcs⟩ := List.forall_mem_cons.mp h
    simp only [special, List.mem_cons, List.not_mem_nil, or_false, not_or] at hc
    rw [reads_cons, show Place.next everywhere ⟨d, s, false⟩ c = some ⟨d, s, false⟩ by simp [Place.next, hc]]
    exact ih hcs

lemma plain_of_digit (h : c.isDigit = true) : c ∉ special := by
  intro hmem
  simp only [special, List.mem_cons, List.not_mem_nil, or_false] at hmem
  rcases hmem with rfl | rfl | rfl | rfl <;> cases h

lemma plain_of_hex (h : IsHex c) : c ∉ special := by
  rcases h with h | h
  · exact plain_of_digit h
  · revert c
    decide

lemma plain_of_blanks {b : Text} (h : Blanks b) : ∀ c ∈ b, c ∉ special := by
  intro c hc
  have hall : ∀ c ∈ [' ', '\t', '\n', '\r'], c ∉ special := by decide
  exact hall c (h c hc)

lemma mem_number {s w f e : Text} (h : IsNumber s w f e) : ∀ c ∈ s ++ (w ++ (f ++ e)), c.isDigit = true ∨ c ∈ "+-.eE".toList := by
  have hdigits : ∀ ds, Digits ds → ∀ c ∈ ds, c.isDigit = true ∨ c ∈ "+-.eE".toList := fun ds hds c hc => .inl (hds.2 c hc)
  simp only [List.forall_mem_append]
  refine ⟨?_, hdigits w h.whole.1, ?_, ?_⟩
  · rcases h.sign with rfl | rfl <;> decide
  · rcases h.fraction with rfl | ⟨ds, hds, rfl⟩
    · decide
    · exact List.forall_mem_cons.mpr ⟨by decide, hdigits ds hds⟩
  · rcases h.exponent with rfl | ⟨m, s, ds, hm, hs, hds, rfl⟩
    · decide
    · have hmarks : ∀ m ∈ ['e', 'E'], m.isDigit = true ∨ m ∈ "+-.eE".toList := by decide
      have hsigns : ∀ s ∈ [[], ['+'], ['-']], ∀ c ∈ s, c.isDigit = true ∨ c ∈ "+-.eE".toList := by decide
      exact List.forall_mem_cons.mpr ⟨hmarks m hm, List.forall_mem_append.mpr ⟨hsigns s hs, hdigits ds hds⟩⟩

lemma plain_of_number {s w f e : Text} (h : IsNumber s w f e) : ∀ c ∈ s ++ (w ++ (f ++ e)), c ∉ special := by
  have hall : ∀ c ∈ "+-.eE".toList, c ∉ special := by decide
  exact fun c hc => (mem_number h c hc).elim plain_of_digit (hall c)

def inside : Part → Bool
  | .characters => true
  | _ => false

lemma reads_json {part : Part} {t : Text} (h : IsJson part t) (d : ℕ) :
    reads everywhere ⟨d, inside part, false⟩ t = some ⟨d, inside part, false⟩ := by
  induction h generalizing d with
  | nil => rfl
  | character hc hquote hback hcs ih => simpa [reads_cons, Place.next, hquote, hback, inside] using ih d
  | escape hc hcs ih => simpa [reads_cons, Place.next, inside] using ih d
  | unicode hlength hhex hcs ih =>
    have hdigits := reads_skip (@reads_plain everywhere _ d true fun c hc => plain_of_hex (hhex c hc))
    simpa [reads_cons, Place.next, inside, hdigits] using ih d
  | string hcs ih =>
    have hread := reads_skip (ih d)
    simp only [inside] at hread
    simp [reads_cons, Place.next, inside, hread]
  | member hb hk hb' hv ihk ihv =>
    have hkey := reads_skip (ihk d)
    have hfront := fun b hb => reads_skip (@reads_plain everywhere b d false (plain_of_blanks hb))
    simp only [inside] at hkey ihv ⊢
    rw [hfront _ hb, hkey, hfront _ hb']
    simpa [reads_cons, Place.next] using ihv d
  | lastMember hm ih => exact ih d
  | members hm hms ih ihs =>
    have hread := reads_skip (ih d)
    simp only [inside] at hread ihs ⊢
    rw [hread]
    simpa [reads_cons, Place.next] using ihs d
  | emptyObject hb => simp [reads_cons, reads_append, Place.next, inside, reads_plain (plain_of_blanks hb)]
  | object hms ih => simp_all [reads_cons, reads_append, Place.next, inside]
  | element hb hv hb' ih =>
    have hread := reads_skip (ih d)
    simp only [inside] at hread ⊢
    rw [reads_skip (reads_plain (plain_of_blanks hb)), hread]
    exact reads_plain (plain_of_blanks hb')
  | lastElement he ih => exact ih d
  | elements he hes ih ihs =>
    have hread := reads_skip (ih d)
    simp only [inside] at hread ihs ⊢
    rw [hread]
    simpa [reads_cons, Place.next] using ihs d
  | emptyArray hb => simp [reads_cons, reads_append, Place.next, inside, reads_plain (plain_of_blanks hb)]
  | array hes ih => simp_all [reads_cons, reads_append, Place.next, inside]
  | ofString ht ih => exact ih d
  | ofObject ht ih => exact ih d
  | ofArray ht ih => exact ih d
  | number hn => exact reads_plain (plain_of_number hn)
  | literal hw =>
    simp only [List.mem_cons, List.not_mem_nil, or_false] at hw
    rcases hw with rfl | rfl | rfl <;> exact reads_plain (by decide)

lemma IsJson.body {o : Text} (h : IsJson .object o) : ∃ body, o = '{' :: (body ++ ['}']) ∧ reads true home body = some home := by
  cases h with
  | emptyObject hb => exact ⟨_, rfl, reads_plain (plain_of_blanks hb)⟩
  | object hms => exact ⟨_, rfl, reads_json hms 0⟩

lemma next_eq_none_iff : p.next true c = none ↔ p = home ∧ c = '}' := by
  obtain ⟨d, s, e⟩ := p
  unfold Place.next
  constructor
  · intro h
    split_ifs at h
    simp_all [home]
  · rintro ⟨hhome, rfl⟩
    cases hhome
    rfl

lemma closing_cons (index : ℕ) (p : Place) (c : Char) (rest : Text) :
    closing index (p.depth + 1) p.inString p.escaped (c :: rest) =
      match p.next true c with
      | none => some index
      | some q => closing (index + 1) (q.depth + 1) q.inString q.escaped rest := by
  obtain ⟨d, s, e⟩ := p
  -- only a closing brace takes the depth down, and the one case left is where others are still open
  have hdown : d ≠ 0 → ((d - 1 : ℕ) : ℤ) + 1 = d := by omega
  simp only [closing, Place.next, Bool.true_or, and_true]
  split_ifs <;> simp_all

lemma closing_eq_some_iff (index k : ℕ) (p : Place) (cs : Text) :
    closing index (p.depth + 1) p.inString p.escaped cs = some k ↔
      ∃ body after, cs = body ++ '}' :: after ∧ k = index + body.length ∧ reads true p body = some home := by
  induction cs generalizing index p with
  | nil => simp [closing]
  | cons c rest ih =>
    rw [closing_cons]
    cases hnext : p.next true c with
    | none =>
      obtain ⟨rfl, rfl⟩ := next_eq_none_iff.mp hnext
      constructor
      · rintro ⟨⟩
        exact ⟨[], rest, rfl, rfl, rfl⟩
      · rintro ⟨body, after, hsplit, hk, hread⟩
        cases body with
        | nil => exact congrArg some hk.symm
        | cons d body =>
          cases hsplit
          rw [reads_cons, hnext] at hread
          cases hread
    | some q =>
      refine (ih (index + 1) q).trans ⟨?_, ?_⟩
      · rintro ⟨body, after, rfl, rfl, hread⟩
        refine ⟨c :: body, after, rfl, ?_, ?_⟩
        · rw [List.length_cons]
          omega
        · rw [reads_cons, hnext]
          exact hread
      · rintro ⟨body, after, hsplit, rfl, hread⟩
        cases body with
        | nil =>
          cases hsplit
          cases hread
          cases hnext
        | cons d body =>
          cases hsplit
          rw [reads_cons, hnext] at hread
          refine ⟨body, after, rfl, ?_, hread⟩
          rw [List.length_cons]
          omega

lemma extractJsonObject_eq_some_iff (value s : Text) :
    extractJsonObject value = some s ↔ ∃ before body after, value = before ++ '{' :: (body ++ '}' :: after) ∧
      '{' ∉ before ∧ reads true home body = some home ∧ s = '{' :: (body ++ ['}']) := by
  have hclosing : ∀ (n : ℕ) (rest : Text) (k : ℕ), closing n 0 false false ('{' :: rest) = some k ↔
      ∃ body after, rest = body ++ '}' :: after ∧ k = n + 1 + body.length ∧ reads true home body = some home :=
    fun n rest k => closing_eq_some_iff (n + 1) k home rest
  have hcut : ∀ before body after : Text,
      ((before ++ '{' :: (body ++ '}' :: after)).take (before.length + 1 + body.length + 1)).drop before.length =
        '{' :: (body ++ ['}']) := by
    intro before body after
    rw [List.drop_take, List.drop_left, show before.length + 1 + body.length + 1 - before.length = body.length + 1 + 1 by omega]
    simp [List.take_append, List.take_of_length_le]
  have hstart : ∀ before rest : Text, '{' ∉ before → (before ++ '{' :: rest).findIdx? (· == '{') = some before.length := by
    intro before rest hnot
    rw [List.findIdx?_append, List.findIdx?_eq_none_iff.mpr fun c hc => by simpa using fun h : c = '{' => hnot (h ▸ hc)]
    simp [List.findIdx?_cons]
  unfold extractJsonObject
  constructor
  · intro h
    by_cases hmem : '{' ∈ value
    · obtain ⟨before, rest, rfl, hnot⟩ := List.eq_append_cons_of_mem hmem
      rw [hstart before rest hnot, Option.bind_some, List.drop_left] at h
      obtain ⟨k, hk, rfl⟩ := Option.map_eq_some_iff.mp h
      obtain ⟨body, after, rfl, rfl, hread⟩ := (hclosing _ _ k).mp hk
      exact ⟨before, body, after, rfl, hnot, hread, hcut before body after⟩
    · rw [List.findIdx?_eq_none_iff.mpr fun c hc => by simpa using fun h : c = '{' => hmem (h ▸ hc)] at h
      cases h
  · rintro ⟨before, body, after, rfl, hnot, hread, rfl⟩
    rw [hstart before _ hnot, Option.bind_some, List.drop_left, (hclosing before.length _ _).mpr ⟨body, after, rfl, rfl, hread⟩,
      Option.map_some, hcut]

def ExtractsObject (value : Text) : Prop :=
  ∀ before o after, value = before ++ (o ++ after) → '{' ∉ before → IsJson .object o → extractJsonObject value = some o

def ReturnsBalanced (value : Text) : Prop := ∀ s, extractJsonObject value = some s → Balanced s

/-- What the counter takes for the first object is balanced also where a backslash outside a string
    hides nothing. -/
def HidesInStrings (value : Text) : Prop :=
  ∀ before body after, value = before ++ '{' :: (body ++ '}' :: after) → '{' ∉ before → reads true home body = some home →
    Balanced ('{' :: (body ++ ['}']))

lemma extractsObject (value : Text) : ExtractsObject value := by
  rintro before o after rfl hnot ho
  obtain ⟨body, rfl, hread⟩ := ho.body
  exact (extractJsonObject_eq_some_iff _ _).mpr ⟨before, body, after, by simp, hnot, hread, rfl⟩

end PromptForge.ObjectExtraction
