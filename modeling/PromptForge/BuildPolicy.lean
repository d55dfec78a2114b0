import PromptForge.RegexLaws
import PromptForge.Runs
import PromptForge.ShellWords

/-!
# The build policy

`validate_build_configuration` reads the values of a `platformio.ini` as they are written,
section by section.
-/
namespace PromptForge.BuildPolicy
open Runs Regex

abbrev Text := List Char

local instance lawfulText : LawfulBEq Text := inferInstance

/-- `str.lower`, as far as a text can come out in ASCII. -/
def lower (text : Text) : Text :=
  text.flatMap fun c => if c = '\u212A' then ['k'] else if c = 'İ' then ['i', '\u0307'] else [c.toLower]

def casefold (text : Text) : Text := text.flatMap Texts.foldChar

abbrev Options := List (Text × Text)

/-- A `RawConfigParser` that has read a file: the keys are in lower case. -/
structure Ini where
  defaults : Options
  sections : List (Text × Options)

namespace Ini

variable (ini : Ini)

def hasSection (section' : Text) : Bool := (ini.sections.lookup section').isSome

def get (section' key : Text) : Option Text :=
  (ini.sections.lookup section').bind fun own => (own.lookup (lower key)).or (ini.defaults.lookup (lower key))

/-- `items(section, raw=True)`: the defaults, where the section has none of its own, and the rest. -/
def items (own : Options) : Options :=
  (ini.defaults.map fun (key, value) => (key, (own.lookup key).getD value)) ++
    own.filter fun (key, _) => (ini.defaults.lookup key).isNone

end Ini

inductive Refusal where
  /-- `BUILD_CONFIGURATION_REQUIRES_TRUST: {section}.{key}` -/
  | requiresTrust (section' key : Text)
  /-- `BUILD_TARGET_FORBIDDEN: {section}.{key}` -/
  | targetForbidden (section' key : Text)
  deriving DecidableEq

def defaultSection : Text := ['D', 'E', 'F', 'A', 'U', 'L', 'T']

def platform : Text := ['p', 'l', 'a', 't', 'f', 'o', 'r', 'm']
def board : Text := ['b', 'o', 'a', 'r', 'd']
def libDeps : Text := ['l', 'i', 'b', '_', 'd', 'e', 'p', 's']
def buildFlags : Text := ['b', 'u', 'i', 'l', 'd', '_', 'f', 'l', 'a', 'g', 's']
def buildUnflags : Text := ['b', 'u', 'i', 'l', 'd', '_', 'u', 'n', 'f', 'l', 'a', 'g', 's']
def targets : Text := ['t', 'a', 'r', 'g', 'e', 't', 's']

def registryOptions : List Text := [platform, board, libDeps]
def flagOptions : List Text := [buildFlags, buildUnflags]

def forbidden : List Text :=
  [['e', 'x', 't', 'r', 'a', '_', 's', 'c', 'r', 'i', 'p', 't', 's'],
    ['e', 'x', 't', 'r', 'a', '_', 'c', 'o', 'n', 'f', 'i', 'g', 's'],
    ['p', 'l', 'a', 't', 'f', 'o', 'r', 'm', '_', 'p', 'a', 'c', 'k', 'a', 'g', 'e', 's'],
    ['u', 'p', 'l', 'o', 'a', 'd', '_', 'c', 'o', 'm', 'm', 'a', 'n', 'd'],
    ['l', 'i', 'b', '_', 'e', 'x', 't', 'r', 'a', '_', 'd', 'i', 'r', 's']]

def allowedTargets : List Text :=
  [['b', 'u', 'i', 'l', 'd', 'p', 'r', 'o', 'g'], ['c', 'h', 'e', 'c', 'k', 'p', 'r', 'o', 'g', 's', 'i', 'z', 'e']]

def isLetter (c : Char) : Bool := ('a' ≤ c && c ≤ 'z') || ('A' ≤ c && c ≤ 'Z')

def isAlphanumeric (c : Char) : Bool := isLetter c || ('0' ≤ c && c ≤ '9')

def isSlash (c : Char) : Bool := c == '/' || c == '\\'

def oneOf (others : List Char) : Pattern := .char fun c => isAlphanumeric c || others.contains c

/-- `[A-Za-z0-9][A-Za-z0-9_.-]*` -/
def identifier (others : List Char) : Pattern := .seq (oneOf []) (star (oneOf others))

def registryName : Pattern :=
  .seq (identifier ['_', '.', '-'])
    (maybe (.seq (spelled ['@']) (plus (oneOf ['^', '~', '<', '>', '=', '!', '.', '*', ',', '+', '-']))))

def registryLibrary : Pattern :=
  seqs [maybe (.seq (identifier ['_', '.', '-']) (spelled ['/'])),
    identifier ['_', '.', ' ', '-'],
    maybe (seqs [star space, spelled ['@'], star space,
      plus (oneOf ['^', '~', '<', '>', '=', '!', '.', '*', ',', '+', ' ', '-'])])]

def pathFlags : List Text :=
  [['I'], ['L'], ['i', 'n', 'c', 'l', 'u', 'd', 'e'], ['i', 'm', 'a', 'c', 'r', 'o', 's'], ['s', 'p', 'e', 'c', 's'], ['B']]

def plugin : Text := ['-', 'f', 'p', 'l', 'u', 'g', 'i', 'n']

/-- The pattern of `build_flags` that is not to be found. -/
def unsafeFlags : Pattern :=
  alts [spelled plugin, spelled ['@'],
    .seq (.alt start space) (.seq (spelled ['-']) (alts (pathFlags.map spelled))),
    .seq (.char isLetter) (.seq (spelled [':']) (.char isSlash)),
    .seq (spelled ['.', '.']) (.char isSlash)]

def isLineBreak (c : Char) : Bool :=
  ['\n', '\r', '\x0b', '\x0c', '\x1c', '\x1d', '\x1e', '\u0085', '\u2028', '\u2029'].contains c

def entries (value : Text) : List Text := ((value.splitOnP isLineBreak).map Texts.stripChars).filter (· ≠ [])

def registryOnly (section' key value : Text) : Except Refusal Unit :=
  require (if key = platform ∨ key = board then fullMatch registryName (Texts.stripChars value) = true
    else ∀ item ∈ entries value, fullMatch registryLibrary item = true) (.requiresTrust section' key)

def targetsOf (value : Text) : List Text :=
  ((value.map fun c => if c = ',' then ' ' else c).splitOnP Texts.isSpace).filter (· ≠ [])

def whenever (c : Prop) [Decidable c] (check : Except Refusal Unit) : Except Refusal Unit := if c then check else .ok ()

def checkOption (section' : Text) (option : Text × Text) : Except Refusal Unit :=
  let (key, value) := option
  if Texts.stripChars value = [] then .ok ()
  else do
    require (casefold key ∉ forbidden) (.requiresTrust section' key)
    whenever (casefold key ∈ registryOptions) (registryOnly section' (casefold key) value)
    require (casefold key ∈ flagOptions → found unsafeFlags value = false) (.requiresTrust section' key)
    require (casefold key = targets → ∀ target ∈ targetsOf value, target ∈ allowedTargets) (.targetForbidden section' key)

def checkSection (section' : Text) (options : Options) : Except Refusal Unit := options.forM (checkOption section')

def validateBuildConfiguration (ini : Ini) : Except Refusal Unit := do
  checkSection defaultSection ini.defaults
  ini.sections.forM fun (section', own) => checkSection section' (ini.items own)

inductive Unresolved where
  | cyclic
  | undefinedSection (section' : Text)
  | unresolvedValue
  | unresolvedReference (reference : Text)
  deriving DecidableEq

inductive Piece where
  | char (c : Char)
  | reference (name : Text)
  deriving DecidableEq

def literal (text : Text) : List Piece := text.map .char

/-- The matches of `\$\{([^}]+)\}` and what stands between them; the name that is being
    read is kept backwards. -/
def pieces : Option Text → Text → List Piece
  | none, [] => []
  | none, '$' :: '\x7b' :: rest => pieces (some []) rest
  | none, c :: rest => .char c :: pieces none rest
  | some name, [] => literal ('$' :: '\x7b' :: name.reverse)
  | some name, c :: rest =>
    if c = '\x7d' then (if name = [] then literal ['$', '\x7b', '\x7d'] else [.reference name.reverse]) ++ pieces none rest
    else pieces (some (c :: name)) rest

def fill (answer : Text → Except Unresolved Text) : List Piece → Except Unresolved Text
  | [] => .ok []
  | .char c :: rest => return c :: (← fill answer rest)
  | .reference name :: rest => return (← answer name) ++ (← fill answer rest)

def interpolate (answer : Text → Except Unresolved Text) (value : Text) : Except Unresolved Text :=
  fill answer (pieces none value)

def splitReference (reference : Text) : Option (Text × Text) :=
  match reference.dropWhile fun c => decide (c ≠ '.') with
  | [] => none
  | _ :: name => some (reference.takeWhile fun c => decide (c ≠ '.'), name)

def sysenv : Text := ['s', 'y', 's', 'e', 'n', 'v']
def env : Text := ['e', 'n', 'v']
def envPrefix : Text := ['e', 'n', 'v', ':']
def extends' : Text := ['e', 'x', 't', 'e', 'n', 'd', 's']

/-- `getenv` answers the empty text for an unset variable. -/
def lookUp (getenv : Text → Text) (resolve : Text → Text → Except Unresolved Text) (group key : Text) :
    Except Unresolved Text :=
  if group = sysenv then .ok (getenv key) else resolve group key

def reference (getenv : Text → Text) (resolve : Text → Text → Except Unresolved Text) (name : Text) :
    Except Unresolved Text :=
  match splitReference name with
  | none => .error .unresolvedValue
  | some (group, key) => do
    let result ← lookUp getenv resolve group key
    require (result ≠ []) (.unresolvedReference name)
    return result

def parents (ini : Ini) (section' : Text) : List Text :=
  (((((ini.get section' extends').getD []).splitOnP fun c => c == ',' || c == '\n').reverse.map Texts.stripChars).filter
    (· ≠ [])).map fun parent =>
      if !ini.hasSection parent && ini.hasSection (envPrefix ++ parent) then envPrefix ++ parent else parent

def firstValue (resolve : Text → Except Unresolved Text) : List Text → Except Unresolved Text
  | [] => .ok []
  | parent :: rest => do
    let value ← resolve parent
    if value ≠ [] then return value else firstValue resolve rest

def inherited (ini : Ini) (resolve : Text → Except Unresolved Text) (section' : Text) : Except Unresolved Text := do
  let value ← firstValue resolve (parents ini section')
  if value = [] ∧ envPrefix <+: section' ∧ ini.hasSection env = true then resolve env else return value

def own (value : Option Text) (otherwise : Except Unresolved Text) : Except Unresolved Text :=
  match value with
  | some value => .ok (Texts.stripChars value)
  | none => otherwise

def resolve (ini : Ini) (getenv : Text → Text) : ℕ → List (Text × Text) → Text → Text → Except Unresolved Text
  | 0, _, _, _ => .error .cyclic
  | depth + 1, visited, section', key => do
    require ((section', key) ∉ visited) .cyclic
    require (ini.hasSection section' = true) (.undefinedSection section')
    let deeper := resolve ini getenv depth (visited ++ [(section', key)])
    let value ← own (ini.get section' key) (inherited ini (fun parent => deeper parent key) section')
    interpolate (reference getenv deeper) value

def resolveOption (ini : Ini) (getenv : Text → Text) (environment option : Text) : Except Unresolved Text :=
  resolve ini getenv 33 [] (envPrefix ++ environment) option

def beginnings : List Text := plugin :: ['@'] :: pathFlags.map ('-' :: ·)

/-- `[A-Za-z]:[\\/]` stands in the text. -/
def drivePath : Text → Bool
  | [] => false
  | c :: rest =>
    (match rest with
      | ':' :: s :: _ => isLetter c && isSlash s
      | _ => false) || drivePath rest

/-- `\.\.[\\/]` stands in the text. -/
def parentPath : Text → Bool
  | [] => false
  | c :: rest =>
    (match rest with
      | '.' :: s :: _ => c == '.' && isSlash s
      | _ => false) || parentPath rest

/-- A word of the compiler's command that the policy has nothing against. -/
def Allowed (word : Text) : Prop :=
  (∀ start ∈ beginnings, ¬ start <+: word) ∧ drivePath word = false ∧ parentPath word = false

def Executed (ini : Ini) (getenv : Text → Text) (environment option word : Text) : Prop :=
  ∃ value words, resolveOption ini getenv environment option = .ok value ∧ ShellWords.split value = some words ∧ word ∈ words

/-- No forbidden setting among what an environment executes. -/
structure Enforced (ini : Ini) (getenv : Text → Text) (environment : Text) : Prop where
  flags : ∀ option ∈ flagOptions, ∀ word, Executed ini getenv environment option word → Allowed word
  packages : ∀ option ∈ [platform, board], ∀ value, resolveOption ini getenv environment option = .ok value → value ≠ [] →
    fullMatch registryName value = true
  libraries : ∀ value, resolveOption ini getenv environment libDeps = .ok value → ∀ item ∈ entries value,
    fullMatch registryLibrary item = true

end PromptForge.BuildPolicy
