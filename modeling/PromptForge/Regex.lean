import PromptForge.Texts

/-!
# Regular expressions

The module `re`, by backtracking: the matcher tries the ways to match in the order
of preference and hands each to a continuation.
-/
namespace PromptForge.Regex

/-- The characters outside ASCII that `\w` and `\d` take. -/
structure Unicode where
  alnum : Char → Bool
  decimal : Char → Bool

inductive Pattern where
  | empty
  | char (accepts : Char → Bool)
  | seq (p q : Pattern)
  | alt (p q : Pattern)
  /-- At least `low` and at most `high` times, as often or as rarely as possible. -/
  | rep (low : ℕ) (high : Option ℕ) (greedy : Bool) (p : Pattern)
  | group (index : ℕ) (p : Pattern)
  | backref (index : ℕ)
  | ahead (p : Pattern)
  /-- A condition on the characters before and after the place. -/
  | place (holds : Option Char → Option Char → Bool)

/-- A place in a text, and what the groups have taken. -/
structure Cursor where
  previous : Option Char
  rest : List Char
  groups : List (ℕ × List Char)

def Cursor.advance (s : Cursor) (c : Char) (rest : List Char) : Cursor := { s with previous := some c, rest := rest }

def between (s s' : Cursor) : List Char := s.rest.take (s.rest.length - s'.rest.length)

abbrev Continuation := Cursor → Option Cursor

def moreRounds (body : Cursor → Continuation → Option Cursor) (greedy : Bool) :
    ℕ → Cursor → Continuation → Option Cursor
  | 0, s, k => k s
  | high + 1, s, k =>
    if greedy then (body s fun s' => moreRounds body greedy high s' k).orElse fun _ => k s
    else (k s).orElse fun _ => body s fun s' => moreRounds body greedy high s' k

/-- Rounds of a repetition: `low` must be made and `high` more may be. -/
def rounds (body : Cursor → Continuation → Option Cursor) (greedy : Bool) :
    ℕ → ℕ → Cursor → Continuation → Option Cursor
  | 0, high, s, k => moreRounds body greedy high s k
  | low + 1, high, s, k => body s fun s' => rounds body greedy low high s' k

def lowerChar (c : Char) : Char := if c = 'İ' then 'i' else if c = '\u212A' then 'k' else c.toLower

/-- Letters that `re.I` takes for one another. -/
def foldCase (c : Char) : Char :=
  if c = 'ı' then 'i' else if c = 'ſ' then 's' else lowerChar c

def takes (text : List Char) : Pattern :=
  text.foldr (fun c p => .seq (.char fun d => decide (foldCase d = foldCase c)) p) .empty

/-- Each round takes a character, so that the text bounds their number. -/
def exec : Pattern → Cursor → Continuation → Option Cursor
  | .empty, s, k => k s
  | .char accepts, s, k =>
    match s.rest with
    | c :: rest => if accepts c then k (s.advance c rest) else none
    | [] => none
  | .seq p q, s, k => exec p s fun s' => exec q s' k
  | .alt p q, s, k => (exec p s k).orElse fun _ => exec q s k
  | .rep low high greedy p, s, k =>
    rounds (exec p) greedy low ((high.map (· - low)).getD s.rest.length) s k
  | .group index p, s, k => exec p s fun s' => k { s' with groups := (index, between s s') :: s'.groups }
  | .backref index, s, k =>
    match s.groups.lookup index with
    | none => none
    | some text =>
      if (s.rest.take text.length).map lowerChar = text.map lowerChar then
        k { s with previous := text.getLast?.or s.previous, rest := s.rest.drop text.length }
      else none
  | .ahead p, s, k => (exec p s some).bind fun s' => k { s with groups := s'.groups }
  | .place holds, s, k => if holds s.previous s.rest.head? then k s else none

structure Found where
  before : List Char
  text : List Char
  after : List Char
  groups : List (ℕ × List Char)

def Found.group (m : Found) (index : ℕ) : List Char := (m.groups.lookup index).getD []

variable (p : Pattern)

def matchAt (previous : Option Char) (before rest : List Char) : Option Found :=
  let s : Cursor := ⟨previous, rest, []⟩
  (exec p s some).map fun s' => ⟨before.reverse, between s s', s'.rest, s'.groups⟩

/-- The first match at or after a place; `before` is what was passed, from the last
    character on. -/
def searchFrom (previous : Option Char) (before : List Char) : List Char → Option Found
  | [] => matchAt p previous before []
  | c :: rest => (matchAt p previous before (c :: rest)).orElse fun _ => searchFrom (some c) (c :: before) rest

def matchStart (text : List Char) : Option Found := matchAt p none [] text

def fullMatch (text : List Char) : Bool :=
  (exec p ⟨none, text, []⟩ fun s => if s.rest = [] then some s else none).isSome

def search (text : List Char) : Option Found := searchFrom p none [] text

def found (text : List Char) : Bool := (search p text).isSome

/-- The matches that do not overlap, for a pattern that takes a character. -/
def matches' : ℕ → Option Char → List Char → List Found
  | 0, _, _ => []
  | n + 1, previous, rest =>
    match searchFrom p previous [] rest with
    | none => []
    | some m => m :: matches' n ((m.before ++ m.text).getLast?.or previous) m.after

def findAll (text : List Char) : List Found := matches' p (text.length + 1) none text

/-- `re.split` without groups: what stands before each match, and after the last. -/
def split (text : List Char) : List (List Char) :=
  let ms := findAll p text
  ms.map Found.before ++ [(ms.getLast?.map Found.after).getD text]

/-- `re.sub(p, "", text)` -/
def erase (text : List Char) : List Char := (split p text).flatten

variable (u : Unicode)

def isWord (c : Char) : Bool := if c.toNat < 128 then c.isAlphanum || c == '_' else u.alnum c

def isDecimal (c : Char) : Bool := if c.toNat < 128 then c.isDigit else u.decimal c

def boundary : Pattern := .place fun a b => (a.any (isWord u)) != (b.any (isWord u))

def space : Pattern := .char Texts.isSpace

def digit : Pattern := .char (isDecimal u)

def start : Pattern := .place fun a _ => a.isNone

/-- `$`: the end, or a line break before it. -/
def stop : Pattern := .alt (.place fun _ b => b.isNone)
  (.ahead (.seq (.char (· == '\n')) (.place fun _ b => b.isNone)))

def among (chars : String) : Pattern := .char fun c => chars.toList.contains c

/-- A text of the pattern, with `re.I`. -/
def word (text : String) : Pattern := takes text.toList

def exactly (text : String) : Pattern := text.toList.foldr (fun c p => .seq (.char (· == c)) p) .empty

def seqs (ps : List Pattern) : Pattern := ps.foldr .seq .empty

def alts : List Pattern → Pattern
  | [] => .char fun _ => false
  | [p] => p
  | p :: ps => .alt p (alts ps)

def anyWord (texts : List String) : Pattern := alts (texts.map word)

def star (p : Pattern) : Pattern := .rep 0 none true p

def plus (p : Pattern) : Pattern := .rep 1 none true p

def maybe (p : Pattern) : Pattern := .rep 0 (some 1) true p

end PromptForge.Regex
