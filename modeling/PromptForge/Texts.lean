import Mathlib.Data.List.DropRight
import Mathlib.Tactic

/-!
# Texts

The methods of `str` that identifiers, titles and messages go through. The case
mappings are given as far as a text can come out in ASCII.
-/
namespace PromptForge.Texts

def isSpace (c : Char) : Bool :=
  let n := c.toNat
  (9 ≤ n && n ≤ 13) || (28 ≤ n && n ≤ 32) || n == 0x85 || n == 0xA0 || n == 0x1680 ||
    (0x2000 ≤ n && n ≤ 0x200A) || n == 0x2028 || n == 0x2029 || n == 0x202F || n == 0x205F || n == 0x3000

def words (text : String) : List String :=
  ((text.toList.splitOnP isSpace).filter fun word => !word.isEmpty).map String.ofList

/-- `str.upper`, as far as a mode can be spelled: the letters outside ASCII whose upper
    case is in ASCII. -/
def upperChar (c : Char) : List Char :=
  if c = 'ı' then ['I']
  else if c = 'ſ' then ['S']
  else if c = 'ﬅ' ∨ c = 'ﬆ' then ['S', 'T']
  else [c.toUpper]

def upper (text : String) : String := String.ofList (text.toList.flatMap upperChar)

/-- `str.casefold`: the letters outside ASCII that fold to ASCII letters alone. -/
def foldChar (c : Char) : List Char :=
  if c = 'ſ' then ['s']
  else if c = '\u212A' then ['k']
  else if c = 'ß' ∨ c = 'ẞ' then ['s', 's']
  else if c = 'ﬀ' then ['f', 'f']
  else if c = 'ﬁ' then ['f', 'i']
  else if c = 'ﬂ' then ['f', 'l']
  else if c = 'ﬃ' then ['f', 'f', 'i']
  else if c = 'ﬄ' then ['f', 'f', 'l']
  else if c = 'ﬅ' ∨ c = 'ﬆ' then ['s', 't']
  else [c.toLower]

def casefold (text : String) : String := String.ofList (text.toList.flatMap foldChar)

def stripChars (cs : List Char) : List Char := (cs.dropWhile isSpace).rdropWhile isSpace

def strip (text : String) : String := String.ofList (stripChars text.toList)

lemma head_dropWhile {cs rest : List Char} {c : Char} (h : cs.dropWhile isSpace = c :: rest) : isSpace c = false := by
  induction cs with
  | nil => cases h
  | cons d cs ih =>
    rw [List.dropWhile_cons] at h
    split at h
    · exact ih h
    · rename_i hd
      rw [← (List.cons.inj h).1]
      simpa using hd

lemma stripChars_stripChars (cs : List Char) : stripChars (stripChars cs) = stripChars cs := by
  have hleft : (stripChars cs).dropWhile isSpace = stripChars cs := by
    rcases hs : stripChars cs with _ | ⟨c, rest⟩
    · rfl
    · obtain ⟨rest', hrest⟩ : stripChars cs <+: cs.dropWhile isSpace := List.rdropWhile_prefix ..
      rw [hs] at hrest
      have hc : isSpace c = false := head_dropWhile hrest.symm
      rw [List.dropWhile_cons, hc]
      rfl
  change ((stripChars cs).dropWhile isSpace).rdropWhile isSpace = _
  rw [hleft]
  exact List.rdropWhile_idempotent ..

lemma strip_strip (text : String) : strip (strip text) = strip text := by
  unfold strip
  rw [String.toList_ofList, stripChars_stripChars]

end PromptForge.Texts
