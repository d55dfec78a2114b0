import Mathlib.Data.List.Infix
import Mathlib.Tactic

/-!
# Words of a shell

`shlex.split`: a text is read from left to right into words, where quotes and backslashes
join what blanks would part. A text without either has the words that stand between blanks.
-/
namespace PromptForge.ShellWords

def isBlank (c : Char) : Bool := c == ' ' || c == '\t' || c == '\r' || c == '\n'

def isQuote (c : Char) : Bool := c == '\'' || c == '"'

def isMark (c : Char) : Bool := isQuote c || c == '\\'

inductive State where
  | between
  | word (token : List Char)
  | quoted (token : List Char) (quote : Char)
  /-- After a backslash, in a word or within a quote. -/
  | escaped (token : List Char) (quote : Option Char)

def enter (token : List Char) (c : Char) : State :=
  if c = '\\' then .escaped token none
  else if isQuote c then .quoted token c
  else .word (token ++ [c])

def splitFrom : State → List Char → Option (List (List Char))
  | .between, [] => some []
  | .between, c :: rest => if isBlank c then splitFrom .between rest else splitFrom (enter [] c) rest
  | .word token, [] => some [token]
  | .word token, c :: rest =>
    if isBlank c then (splitFrom .between rest).map (token :: ·) else splitFrom (enter token c) rest
  | .quoted _ _, [] => none
  | .quoted token quote, c :: rest =>
    if c = quote then splitFrom (.word token) rest
    else if c = '\\' ∧ quote = '"' then splitFrom (.escaped token (some quote)) rest
    else splitFrom (.quoted (token ++ [c]) quote) rest
  | .escaped _ _, [] => none
  | .escaped token none, c :: rest => splitFrom (.word (token ++ [c])) rest
  | .escaped token (some quote), c :: rest =>
    splitFrom (.quoted (token ++ if c = '\\' ∨ c = quote then [c] else ['\\', c]) quote) rest

/-- `shlex.split`, none where a quote is not closed or nothing follows a backslash. -/
def split (text : List Char) : Option (List (List Char)) := splitFrom .between text

example : split "-D 'a b'c \"\\\"x\\y\"".toList = some ["-D".toList, "a bc".toList, "\"x\\y".toList] := by decide +kernel

def words (text : List Char) : List (List Char) := (text.splitOnP isBlank).filter (· ≠ [])

def Unmarked (text : List Char) : Prop := ∀ c ∈ text, isMark c = false

lemma enter_unmarked {c : Char} (h : isMark c = false) (token : List Char) : enter token c = .word (token ++ [c]) := by
  simp only [isMark, Bool.or_eq_false_iff, beq_eq_false_iff_ne] at h
  simp only [enter, h.1, h.2, Bool.false_eq_true, if_false]

lemma words_blank {c : Char} (h : isBlank c) (text : List Char) : words (c :: text) = words text := by
  simp [words, List.splitOnP_cons_eq_if_modifyHead, h]

lemma splitFrom_unmarked {text : List Char} (h : Unmarked text) :
    splitFrom .between text = some (words text) ∧ ∀ token, token ≠ [] →
      splitFrom (.word token) text = some (((text.splitOnP isBlank).modifyHead (token ++ ·)).filter (· ≠ [])) := by
  induction text with
  | nil =>
    refine ⟨rfl, fun token ht => ?_⟩
    simp [splitFrom, List.splitOnP_nil, ht]
  | cons c text ih =>
    obtain ⟨between, word⟩ := ih fun d hd => h d (List.mem_cons_of_mem c hd)
    have enters := enter_unmarked (h c List.mem_cons_self)
    by_cases hc : isBlank c
    · refine ⟨?_, fun token ht => ?_⟩
      · rw [splitFrom, if_pos hc, between, words_blank hc]
      · rw [splitFrom, if_pos hc, between]
        simp [words, List.splitOnP_cons_eq_if_modifyHead, hc, ht]
    · refine ⟨?_, fun token ht => ?_⟩
      · rw [splitFrom, if_neg hc, enters, word _ (by simp)]
        simp [words, List.splitOnP_cons_eq_if_modifyHead, hc]
      · rw [splitFrom, if_neg hc, enters, word _ (by simp), List.splitOnP_cons_eq_if_modifyHead, if_neg hc]
        congr 2
        cases text.splitOnP isBlank with
        | nil => rfl
        | cons first rest => simp

lemma split_unmarked {text : List Char} (h : Unmarked text) : split text = some (words text) := (splitFrom_unmarked h).1

lemma words_append {word text : List Char} (hword : word ≠ []) (hb : ∀ c ∈ word, isBlank c = false)
    (htext : ∀ c, text.head? = some c → isBlank c) : words (word ++ text) = word :: words text := by
  cases text with
  | nil => simp [words, List.splitOnP_eq_singleton hb, List.splitOnP_nil, hword]
  | cons c text =>
    have hc := htext c rfl
    rw [words_blank hc]
    simp [words, List.splitOnP_append_cons _ _ hc, List.splitOnP_eq_singleton hb, hword]

lemma words_append_words (text : List Char) {text' : List Char} (h : ∀ c, text'.head? = some c → isBlank c) :
    words (text ++ text') = words text ++ words text' := by
  cases text' with
  | nil => simp [words, List.splitOnP_nil]
  | cons c text' =>
    have hc := h c rfl
    rw [words_blank hc]
    simp [words, List.splitOnP_append_cons _ _ hc]

lemma splitOnP_parts {p : Char → Bool} {text first : List Char} {rest : List (List Char)}
    (h : text.splitOnP p = first :: rest) :
    first <+: text ∧ ∀ part ∈ rest, ∃ before c after, text = before ++ c :: part ++ after ∧ p c := by
  induction text generalizing first rest with
  | nil =>
    rw [List.splitOnP_nil] at h
    cases h
    exact ⟨List.prefix_rfl, fun part hpart => absurd hpart List.not_mem_nil⟩
  | cons c text ih =>
    obtain ⟨head, tail, hs⟩ := List.exists_cons_of_ne_nil (List.splitOnP_ne_nil p text)
    obtain ⟨⟨after, hhead⟩, htail⟩ := ih hs
    have later : ∀ part ∈ tail, ∃ before d after, c :: text = before ++ d :: part ++ after ∧ p d := by
      intro part hpart
      obtain ⟨before, d, after, htext, hd⟩ := htail part hpart
      exact ⟨c :: before, d, after, by simp [htext], hd⟩
    rw [List.splitOnP_cons_eq_if_modifyHead] at h
    split at h
    · rename_i hc
      cases h
      refine ⟨List.nil_prefix, fun part hpart => ?_⟩
      rw [hs] at hpart
      cases List.mem_cons.mp hpart with
      | inl same => exact ⟨[], c, after, by simp [same, hhead], hc⟩
      | inr older => exact later part older
    · rw [hs, List.modifyHead_cons] at h
      cases h
      exact ⟨⟨after, by simp [hhead]⟩, later⟩

lemma of_mem_words {text word : List Char} (h : word ∈ words text) :
    ∃ before after, text = before ++ word ++ after ∧ (before = [] ∨ ∃ before' c, before = before' ++ [c] ∧ isBlank c) := by
  obtain ⟨first, rest, hs⟩ := List.exists_cons_of_ne_nil (List.splitOnP_ne_nil isBlank text)
  obtain ⟨⟨after, hfirst⟩, hrest⟩ := splitOnP_parts hs
  have hmem : word ∈ first :: rest := hs ▸ (List.mem_filter.mp h).1
  cases List.mem_cons.mp hmem with
  | inl same => exact ⟨[], after, by simp [same, hfirst], .inl rfl⟩
  | inr later =>
    obtain ⟨before, c, after', htext, hc⟩ := hrest word later
    exact ⟨before ++ [c], after', by simp [htext], .inr ⟨before, c, rfl, hc⟩⟩

end PromptForge.ShellWords
