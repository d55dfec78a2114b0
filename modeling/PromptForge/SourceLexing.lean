import Mathlib.Data.List.Basic
import Mathlib.Data.Nat.Basic

/-!
# Comments and literals of C++

A source text is read a character at a time, as the phases of translation have it: a backslash
before the end of a line splices it, but for raw strings; a quotation mark after a digit and before
a letter or a digit is a separator of a number; a string may be raw. Characters outside ASCII count as letters.
-/
namespace PromptForge.SourceLexing

inductive Place where
  | code
  | comment
  | literal
  deriving DecidableEq

inductive Mode where
  | blank
  | word (text : List Char)
  | number (last : Char) (separators : ℕ)
  /-- After the first slash of a comment. -/
  | opening (line : Bool)
  | lineComment
  | blockComment (star : Bool)
  | quoted (quote : Char) (escaped : Bool)
  /-- Before the parenthesis of a raw string. -/
  | delimiter (text : List Char)
  | raw (close read : List Char)
  deriving DecidableEq

def isNewline (c : Char) : Bool := c == '\n' || c == '\r'

def isWordChar (c : Char) : Bool := c.isAlphanum || c == '_' || decide (128 ≤ c.toNat)

def spliceLength : List Char → ℕ
  | '\\' :: '\n' :: _ => 2
  | '\\' :: '\r' :: '\n' :: _ => 3
  | '\\' :: '\r' :: _ => 2
  | _ => 0

def peekAfter : ℕ → List Char → Option Char
  | _, [] => none
  | skipped + 1, _ :: rest => peekAfter skipped rest
  | 0, c :: rest => if 0 < spliceLength (c :: rest) then peekAfter (spliceLength (c :: rest) - 1) rest else some c

def peek (text : List Char) : Option Char := peekAfter 0 text

namespace Mode

def place : Mode → Place
  | .blank | .word _ | .number _ _ => .code
  | .opening _ | .lineComment | .blockComment _ => .comment
  | .quoted _ _ | .delimiter _ | .raw _ _ => .literal

def splices : Mode → Bool
  | .delimiter _ | .raw _ _ => false
  | _ => true

def isRawPrefix (text : List Char) : Bool := decide (String.ofList text ∈ ["R", "u8R", "uR", "UR", "LR"])

def opensRaw : Mode → Bool
  | .word text => isRawPrefix text
  | _ => false

/-- A number goes on with letters, digits, periods and the signs of exponents. -/
def isNumberChar (last c : Char) : Bool :=
  isWordChar c || c == '.' || ((c == '+' || c == '-') && (last == 'e' || last == 'E' || last == 'p' || last == 'P'))

def afterWord (m : Mode) (c : Char) (next : Option Char) : Mode :=
  match m with
  | .number last separators =>
    if isNumberChar last c then .number c separators else .blank
  | .word text => if isWordChar c then .word (text ++ [c]) else if c = '.' ∧ next.any Char.isDigit then .number c 0 else .blank
  | _ =>
    if c.isDigit ∨ c = '.' ∧ next.any Char.isDigit then .number c 0
    else if isWordChar c then .word [c]
    else .blank

def separates (m : Mode) (next : Option Char) : Option ℕ :=
  match m with
  | .number _ separators => if next.any isWordChar then some (separators + 1) else none
  | _ => none

def codeStep (m : Mode) (c : Char) (next : Option Char) : Place × Mode :=
  if c = '/' ∧ next = some '/' then (.comment, .opening true)
  else if c = '/' ∧ next = some '*' then (.comment, .opening false)
  else if c = '"' then (.literal, if m.opensRaw then .delimiter [] else .quoted '"' false)
  else if c = '\'' then
    match m.separates next with
    | some separators => (.code, .number '\'' separators)
    | none => (.literal, .quoted '\'' false)
  else (.code, m.afterWord c next)

def quotedStep (quote : Char) (escaped : Bool) (c : Char) : Place × Mode :=
  if isNewline c then (.code, .blank)
  else if escaped then (.literal, .quoted quote false)
  else if c = quote then (.literal, .blank)
  else (.literal, .quoted quote (c == '\\'))

def isDelimiterChar (c : Char) : Bool := !(c == ' ' || c == ')' || c == '\\' || c == '"' || c == '\t' || isNewline c)

def step (m : Mode) (c : Char) (next : Option Char) : Place × Mode :=
  match m with
  | .blank | .word _ | .number _ _ => codeStep m c next
  | .opening line => (.comment, if line then .lineComment else .blockComment false)
  | .lineComment => if isNewline c then (.code, .blank) else (.comment, .lineComment)
  | .blockComment star => (.comment, if star ∧ c = '/' then .blank else .blockComment (c == '*'))
  | .quoted quote escaped => quotedStep quote escaped c
  | .delimiter text =>
    if c = '(' then (.literal, .raw (')' :: text ++ ['"']) [])
    else if isDelimiterChar c ∧ text.length < 16 then (.literal, .delimiter (text ++ [c]))
    else quotedStep '"' false c
  | .raw close read => (.literal, if close <:+ read ++ [c] then .blank else .raw close (read ++ [c]))

end Mode

/-- The place of each character; the first ones may be left of a splice. -/
def placesFrom : Mode → ℕ → List Char → List Place
  | _, _, [] => []
  | m, skipped + 1, _ :: rest => m.place :: placesFrom m skipped rest
  | m, 0, c :: rest =>
    if m.splices = true ∧ 0 < spliceLength (c :: rest) then m.place :: placesFrom m (spliceLength (c :: rest) - 1) rest
    else (m.step c (peek rest)).1 :: placesFrom (m.step c (peek rest)).2 0 rest

def places (text : List Char) : List Place := placesFrom .blank 0 text

end PromptForge.SourceLexing
