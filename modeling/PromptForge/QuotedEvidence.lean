import PromptForge.SourceLexing
import PromptForge.Texts

/-! # Quotes of source code -/
namespace PromptForge.QuotedEvidence
open SourceLexing Texts

abbrev Text := List Char

/-- How many characters are before the mark that closes a literal: `(?:\\.|[^"\\])*"`. -/
def closing (quote : Char) : Text → Option ℕ
  | [] => none
  | c :: rest =>
    if c = quote then some 0
    else if c = '\\' then
      match rest with
      | [] => none
      | d :: rest => if d = '\n' then none else (closing quote rest).map (· + 2)
    else (closing quote rest).map (· + 1)

inductive Scan where
  | outside
  /-- In a literal, with so many characters after the next. -/
  | literal (more : ℕ)
  | lineComment
  /-- Before the star that opens a comment. -/
  | star
  | blockComment (star : Bool)
  deriving DecidableEq

def scanOutside (c : Char) (rest : Text) : Bool × Scan :=
  if c = '"' ∨ c = '\'' then
    match closing c rest with
    | some more => (false, .literal more)
    | none => (false, .outside)
  else if c = '/' ∧ rest.head? = some '/' then (true, .lineComment)
  else if c = '/' ∧ rest.head? = some '*' then (true, .star)
  else (false, .outside)

/-- `$` also holds before the newline at the end, so that a comment that is not closed ends there. -/
def scanStep : Scan → Char → Text → Bool × Scan
  | .outside, c, rest => scanOutside c rest
  | .literal 0, _, _ => (false, .outside)
  | .literal (more + 1), _, _ => (false, .literal more)
  | .lineComment, c, rest => if isNewline c then scanOutside c rest else (true, .lineComment)
  | .star, _, _ => (true, .blockComment false)
  | .blockComment star, c, rest =>
    if star = true ∧ c = '/' then (true, .outside)
    else if c = '\n' ∧ rest = [] then (false, .outside)
    else (true, .blockComment (c == '*'))

def masksFrom : Scan → Text → List Bool
  | _, [] => []
  | scan, c :: rest => (scanStep scan c rest).1 :: masksFrom (scanStep scan c rest).2 rest

/-- `(?m)^[ \t]*[;#][^\r\n]*`, with the comments of a configuration. -/
def isSetApart (line : Text) : Bool :=
  match line.dropWhile fun c => c == ' ' || c == '\t' with
  | c :: _ => c == ';' || c == '#'
  | [] => false

def iniMasks : (start inside : Bool) → Text → List Bool
  | _, _, [] => []
  | start, inside, c :: rest =>
    let commented := !isNewline c && (inside || start && isSetApart (c :: rest))
    commented :: iniMasks (c == '\n') commented rest

def masks (content : Text) (suffix : String) : List Bool :=
  if suffix = ".ini" then iniMasks true false content else masksFrom .outside content

/-- The occurrences that do not overlap, from the front; the next one is behind so many characters. -/
def occurrences (quote : Text) : (skipped place : ℕ) → Text → List ℕ
  | _, _, [] => []
  | skipped + 1, place, _ :: rest => occurrences quote skipped (place + 1) rest
  | 0, place, c :: rest =>
    if quote ≠ [] ∧ quote <+: c :: rest then place :: occurrences quote (quote.length - 1) (place + 1) rest
    else occurrences quote 0 (place + 1) rest

def shows {α : Type} (plain : α → Bool) (marked : List (Char × α)) (place length : ℕ) : Bool :=
  ((marked.drop place).take length).any fun (c, mark) => plain mark && !isSpace c

def hasNoncommentQuote (content quote : Text) (suffix : String) : Bool :=
  (occurrences quote 0 0 content).any fun place => shows not (content.zip (masks content suffix)) place quote.length

def isOutsideComment (place : Place) : Bool := decide (place ≠ .comment)

def isQuotedCode (content quote : Text) : Bool :=
  (List.range content.length).any fun place =>
    decide (quote <+: content.drop place) && shows isOutsideComment (content.zip (places content)) place quote.length

end PromptForge.QuotedEvidence
