import PromptForge.Regex
import PromptForge.SourceLexing
import PromptForge.WordReplacements

/-!
# Names that collide with the C library

A global object has the name of a function of the C library, as the diagnostics of the compiler
say.
-/
namespace PromptForge.CollisionRenames
open Regex SourceLexing Texts WordReplacements

abbrev Text := List Char

/-- The characters outside ASCII: which are letters, and what `str.lower` makes of one. -/
structure Letters extends Unicode where
  lower : Char → Text
  lower_ne : ∀ c, ∀ d ∈ lower c, d ≠ '.' ∧ d ≠ '-'
  alnum_space : ∀ c, isSpace c = true → alnum c = false

variable (u : Letters)

def endsLine (text : Text) : Bool :=
  match text.dropWhile fun c => isSpace c && c != '\n' with
  | [] => true
  | c :: _ => c == '\n'

/-- `\s*;\s*$` -/
def endsDeclaration (text : Text) : Bool :=
  match text.dropWhile isSpace with
  | ';' :: rest => endsLine rest
  | _ => false

/-- `^\s*CLASS\s+`, read towards the front. -/
def beginsDeclaration (className : Text) (before : Text) : Bool :=
  before.head?.any isSpace && decide (className.reverse <+: before.dropWhile isSpace) &&
    endsLine ((before.dropWhile isSpace).drop className.length)

/-- Where `(?m)^(\s*CLASS\s+)WORD(\s*;\s*)$` has the word. -/
def declaresAt (className word text : Text) (i : ℕ) : Bool :=
  beginsDeclaration className (text.take i).reverse && decide (word <+: text.drop i) && endsDeclaration (text.drop (i + word.length))

def declarations (className word text : Text) : ℕ := (List.range text.length).countP fun i => declaresAt className word text i

/-- Where a match of a comment or of a literal is. -/
inductive Scan where
  | outside
  | line
  /-- Before the star that opens a comment. -/
  | opening
  | block (starred : Bool)
  /-- In a literal, with double marks or single ones, perhaps behind a backslash. -/
  | quoted (double escaped : Bool)
  deriving DecidableEq

def mark (double : Bool) : Char := if double then '"' else '\''

/-- `(?:\\.|[^"\\])*"` -/
def closesQuoted (double : Bool) : (escaped : Bool) → Text → Bool
  | _, [] => false
  | true, c :: rest => c != '\n' && closesQuoted double false rest
  | false, c :: rest => c == mark double || closesQuoted double (c == '\\') rest

/-- `[\s\S]*?\*/` -/
def closesBlock : (starred : Bool) → Text → Bool
  | _, [] => false
  | starred, c :: rest => starred && c == '/' || closesBlock (c == '*') rest

def scanOutside (c : Char) (rest : Text) : Scan :=
  if c = '/' ∧ rest.head? = some '/' then .line
  else if c = '/' ∧ rest.head? = some '*' ∧ closesBlock false rest.tail = true then .opening
  else if c = '"' ∧ closesQuoted true false rest = true then .quoted true false
  else if c = '\'' ∧ closesQuoted false false rest = true then .quoted false false
  else .outside

def scanStep : Scan → Char → Text → Scan
  | .outside, c, rest => scanOutside c rest
  | .line, c, _ => if c = '\n' then .outside else .line
  | .opening, _, _ => .block false
  | .block starred, c, _ => if starred = true ∧ c = '/' then .outside else .block (c == '*')
  | .quoted double true, _, _ => .quoted double false
  | .quoted double false, c, _ => if c = mark double then .outside else .quoted double (c == '\\')

/-- Where the match is before each character; the expression may not have comments and literals. -/
def scansFrom (lexes : Bool) : Scan → Text → List Scan
  | _, [] => []
  | scan, c :: rest => scan :: scansFrom lexes (if lexes then scanStep scan c rest else .outside) rest

def isBoundary (text : Text) (i : ℕ) : Bool :=
  (text.take i).getLast?.any (isWord u.toUnicode) != (text.drop i).head?.any (isWord u.toUnicode)

/-- `\s*(?:\.|->)` -/
def isAccessed (text : Text) : Bool :=
  match text.dropWhile isSpace with
  | '.' :: _ => true
  | '-' :: '>' :: _ => true
  | _ => false

/-- Where `\bWORD(?=\s*(?:\.|->))` matches, perhaps beside comments and literals. -/
def usesAt (lexes : Bool) (word text : Text) (i : ℕ) : Bool :=
  decide ((scansFrom lexes .outside text)[i]? = some .outside) && isBoundary u text i && decide (word <+: text.drop i) &&
    isAccessed (text.drop (i + word.length))

def rename (lexes : Bool) (className word name source : Text) : Text :=
  let declared := replaceAt (declaresAt className word source) word.length name source
  replaceAt (usesAt u lexes word declared) word.length name declared

/-- What is written: the text of a file, with a new name for the object of a class. -/
structure Rewrite where
  path : Text
  source : Text
  className : Text
  name : Text
  text : Text
  deriving DecidableEq

/-- `^(.+?\.cpp):\d+(?::\d+)?:\s*error:\s*'`, with what follows. -/
def errorPattern (what : Pattern) : Pattern :=
  seqs [.place fun a _ => a.isNone || a == some '\n',
    .group 1 (seqs [.rep 1 none false (.char fun c => c != '\n'), exactly ".cpp"]),
    exactly ":", plus (digit u.toUnicode), maybe (seqs [exactly ":", plus (digit u.toUnicode)]), exactly ":", star space,
    exactly "error:", star space, exactly "'", what]

/-- `([A-Za-z_][\w:]*)` -/
def classPattern : Pattern :=
  .group 2 (.seq (.char fun c => c.isAlpha || c == '_') (star (.char fun c => isWord u.toUnicode c || c == ':')))

def hasWord (name text : Text) : Bool :=
  (List.range (text.length + 1)).any fun i => isBoundary u text i && decide (name <+: text.drop i) && isBoundary u text (i + name.length)

def unqualified : Text → Text
  | [] => []
  | c :: rest =>
    if [':', ':'] <:+: rest then unqualified rest
    else if c = ':' ∧ rest.head? = some ':' then rest.tail
    else c :: rest

def instanceName (className : Text) : Option Text :=
  match unqualified className with
  | [] => none
  | c :: rest => some ((if c.toNat < 128 then [c.toLower] else u.lower c) ++ rest ++ "Instance".toList)

def repairSystemNameCollision (arduino : Bool) (sourceOf : Text → Option Text) (diagnostics : Text) : Option Rewrite :=
  if arduino = false ∨ ¬"previous declaration 'int system(".toList <:+: diagnostics then none
  else do
    let error ← search (errorPattern u (.seq (classPattern u) (exactly " system' redeclared as different kind of symbol"))) diagnostics
    let path := stripChars (error.group 1)
    let source ← sourceOf path
    let className := error.group 2
    if declarations className "system".toList source ≠ 1 then none
    else do
      let name ← instanceName u className
      let rewritten := rename u false className "system".toList name source
      if hasWord u name source = true ∨ hasWord u "system".toList rewritten = true ∨ rewritten = source then none
      else some ⟨path, source, className, name, rewritten⟩

/-- `previous declaration\s+['`][^\n]*\balarm\s*\(` -/
def alarmDeclared : Pattern :=
  seqs [exactly "previous declaration", plus space, among "'`", star (.char fun c => c != '\n'), boundary u.toUnicode, exactly "alarm",
    star space, exactly "("]

def repairAlarmNameCollision (sourceOf : Text → Option Text) (diagnostics : Text) : Option Rewrite :=
  if found (alarmDeclared u) diagnostics = false then none
  else do
    let error ← search (errorPattern u (exactly "AlarmManager alarm' redeclared as different kind of symbol")) diagnostics
    let path := stripChars (error.group 1)
    let source ← sourceOf path
    let className := "AlarmManager".toList
    let name := "alarmManagerInstance".toList
    if declarations className "alarm".toList source ≠ 1 ∨ name <:+: source then none
    else
      let rewritten := rename u true className "alarm".toList name source
      let accessed := (List.range rewritten.length).any fun i =>
        isBoundary u rewritten i && decide (name <+: rewritten.drop i) && isAccessed (rewritten.drop (i + name.length))
      if rewritten = source ∨ accessed = false then none
      else some ⟨path, source, className, name, rewritten⟩

inductive Collision where
  | system
  | alarm
  deriving DecidableEq

def Collision.word : Collision → Text
  | .system => "system".toList
  | .alarm => "alarm".toList

def repairNameCollision (arduino : Bool) (sourceOf : Text → Option Text) (diagnostics : Text) : Collision → Option Rewrite
  | .system => repairSystemNameCollision u arduino sourceOf diagnostics
  | .alarm => repairAlarmNameCollision u sourceOf diagnostics

/-- The word at a place of the code is the object that the language binds it to. -/
def isReference (refers : Text → ℕ → Bool) (word source : Text) (i : ℕ) : Bool :=
  standsAt (isWord u.toUnicode) word source i && decide ((places source)[i]? = some .code) && refers source i

def RenamesReferences (refers : Text → ℕ → Bool) (word : Text) (w : Rewrite) : Prop :=
  w.text = replaceAt (isReference u refers word w.source) word.length w.name w.source

/-- A word of a file that is written is renamed. -/
def isRenamed (w : Rewrite) (i : ℕ) : Collision → Bool
  | .system => true
  | .alarm => declaresAt w.className "alarm".toList w.source i || usesAt u true "alarm".toList w.source i

end PromptForge.CollisionRenames
