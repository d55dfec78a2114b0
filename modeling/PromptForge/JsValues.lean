import Mathlib.Data.List.Sort
import PromptForge.JsonTextLaws

/-!
# Values of JavaScript and their canonical text

Values that JSON can write, and `undefined`. `canonical` writes an object with its keys in
the order of `localeCompare`; `JSON.parse` gives the properties of an object in the order
that the language keeps them: array indices first, then the other keys as they came. How a
number is written and how two keys compare is left to the engine.
-/
namespace PromptForge.JsValues
open Numbers JsonText

inductive Value where
  | undefined
  | null
  | bool (b : Bool)
  | num (q : ℚ)
  | str (s : String)
  | arr (items : List Value)
  | obj (entries : List (String × Value))

namespace Value

/-- A property; `undefined` where there is none. -/
def member : Value → String → Value
  | .obj entries, key => (entries.lookup key).getD .undefined
  | _, _ => .undefined

/-- `===`, of two values that are not the same object. -/
def strictEq : Value → Value → Bool
  | .undefined, .undefined => true
  | .null, .null => true
  | .bool a, .bool b => a == b
  | .num p, .num q => p == q
  | .str s, .str t => s == t
  | _, _ => false

end Value

def index? (key : String) : Option ℕ :=
  let n := number key.toList
  if Nat.toDigits 10 n = key.toList ∧ n < 2 ^ 32 - 1 then some n else none

def isIndex {α : Type} (entry : String × α) : Bool := (index? entry.1).isSome

abbrev IndexLe {α : Type} (a b : String × α) : Prop := (index? a.1).getD 0 ≤ (index? b.1).getD 0

def propertyOrder {α : Type} (entries : List (String × α)) : List (String × α) :=
  (entries.filter isIndex).insertionSort IndexLe ++ entries.filter fun entry => !isIndex entry

structure Engine where
  /-- The text of a finite number. -/
  numberText : ℚ → List Char
  /-- `left.localeCompare(right) <= 0` -/
  before : String → String → Bool

def escapeChar (c : Char) : List Char :=
  match shortEscapes.lookup c with
  | some letter => ['\\', letter]
  | none => if c.toNat < 32 then escapeUnit c.toNat else [c]

def quote (s : String) : List Char := '"' :: (s.toList.flatMap escapeChar ++ ['"'])

def joined : List (List Char) → List Char
  | [] => []
  | [text] => text
  | text :: rest => text ++ ',' :: joined rest

def pair (entry : String × List Char) : List Char := quote entry.1 ++ ':' :: entry.2

variable (engine : Engine)

abbrev KeyLe {α : Type} (a b : String × α) : Prop := engine.before a.1 b.1 = true

def sortKeys {α : Type} (entries : List (String × α)) : List (String × α) := entries.insertionSort (KeyLe engine)

mutual

/-- The entries of an object are sorted after their values are written, by the keys alone. -/
def canonical : Value → Option (List Char)
  | .undefined => none
  | .null => some ['n', 'u', 'l', 'l']
  | .bool true => some ['t', 'r', 'u', 'e']
  | .bool false => some ['f', 'a', 'l', 's', 'e']
  | .num q => some (engine.numberText q)
  | .str s => some (quote s)
  | .arr items => some ('[' :: (joined (canonicalItems items) ++ [']']))
  | .obj entries => some ('\x7b' :: (joined ((sortKeys engine (canonicalEntries entries)).map pair) ++ ['\x7d']))

/-- `join` takes `undefined` for the empty text. -/
def canonicalItems : List Value → List (List Char)
  | [] => []
  | v :: vs => (canonical v).getD [] :: canonicalItems vs

/-- A template takes `undefined` for its name. -/
def canonicalEntries : List (String × Value) → List (String × List Char)
  | [] => []
  | (k, v) :: es => (k, (canonical v).getD ['u', 'n', 'd', 'e', 'f', 'i', 'n', 'e', 'd']) :: canonicalEntries es

end

mutual

def ofJson : Json.Value → Value
  | .null => .null
  | .bool b => .bool b
  | .int n => .num (nearest n)
  | .float q => .num q
  | .str s => .str s
  | .arr items => .arr (ofItems items)
  | .obj entries => .obj (propertyOrder (ofEntries entries))

def ofItems : List Json.Value → List Value
  | [] => []
  | v :: vs => ofJson v :: ofItems vs

def ofEntries : List (String × Json.Value) → List (String × Value)
  | [] => []
  | (k, v) :: es => (k, ofJson v) :: ofEntries es

end

def parse (text : List Char) : Option Value := do
  let (v, rest) ← readValue (text.length + 1) (skip text)
  if skip rest = [] then return ofJson v else none

mutual

/-- What a value of the language is: doubles, and objects with their properties in order. -/
def Proper : Value → Prop
  | .num q => nearest q = q
  | .arr items => ProperItems items
  | .obj entries => (entries.map Prod.fst).Nodup ∧ propertyOrder entries = entries ∧ ProperEntries entries
  | _ => True

def ProperItems : List Value → Prop
  | [] => True
  | v :: vs => Proper v ∧ ProperItems vs

def ProperEntries : List (String × Value) → Prop
  | [] => True
  | (_, v) :: es => Proper v ∧ ProperEntries es

end

mutual

/-- Nothing in the value is `undefined`. -/
def Defined : Value → Prop
  | .undefined => False
  | .arr items => DefinedItems items
  | .obj entries => DefinedEntries entries
  | _ => True

def DefinedItems : List Value → Prop
  | [] => True
  | v :: vs => Defined v ∧ DefinedItems vs

def DefinedEntries : List (String × Value) → Prop
  | [] => True
  | (_, v) :: es => Defined v ∧ DefinedEntries es

end

mutual

/-- The value with the keys of each object in the order of their characters. -/
def sorted : Value → Value
  | .arr items => .arr (sortedItems items)
  | .obj entries => .obj ((sortedEntries entries).insertionSort fun a b => a.1 ≤ b.1)
  | v => v

def sortedItems : List Value → List Value
  | [] => []
  | v :: vs => sorted v :: sortedItems vs

def sortedEntries : List (String × Value) → List (String × Value)
  | [] => []
  | (k, v) :: es => (k, sorted v) :: sortedEntries es

end

def Same (v w : Value) : Prop := sorted v = sorted w

/-- What the language promises of its engines. -/
structure Engine.Documented : Prop where
  /-- The text of a double reads back as the double. -/
  number : ∀ q, nearest q = q → ∃ v, ofJson v = .num q ∧
    ∀ rest, Stops rest → readNumber (engine.numberText q ++ rest) = some (v, rest)
  line : ∀ q, nearest q = q → ∀ c ∈ engine.numberText q, c ≠ '\n' ∧ c ≠ '\r'
  total : ∀ a b, engine.before a b = true ∨ engine.before b a = true
  trans : ∀ a b c, engine.before a b = true → engine.before b c = true → engine.before a c = true

end PromptForge.JsValues
