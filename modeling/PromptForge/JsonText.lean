import PromptForge.Json
import PromptForge.Numbers

/-!
# The text of a JSON value

`json.dumps` with sorted keys and only ASCII characters, and `json.loads`. A
character outside the plane of sixteen bits is written as two escapes.
-/
namespace PromptForge.JsonText
open Json Numbers Tables

def isBlank (c : Char) : Bool := c == ' ' || c == '\t' || c == '\n' || c == '\r'

lemma blank_nil : ∀ c ∈ ([] : List Char), isBlank c = true := List.forall_mem_nil _

lemma blank_space : ∀ c ∈ [' '], isBlank c = true := List.forall_mem_singleton.2 rfl

def skip (cs : List Char) : List Char := cs.dropWhile isBlank

def hexValue (c : Char) : Option ℕ :=
  if '0' ≤ c ∧ c ≤ '9' then some (c.toNat - '0'.toNat)
  else if 'a' ≤ c ∧ c ≤ 'f' then some (c.toNat - 'a'.toNat + 10)
  else if 'A' ≤ c ∧ c ≤ 'F' then some (c.toNat - 'A'.toNat + 10)
  else none

def readHex4 : List Char → Option (ℕ × List Char)
  | a :: b :: c :: d :: rest => do
    let a ← hexValue a
    let b ← hexValue b
    let c ← hexValue c
    let d ← hexValue d
    return (a * 4096 + b * 256 + c * 16 + d, rest)
  | _ => none

/-- What stands after `\u`: one unit, or two where the first is half of a pair. -/
def readUnits (cs : List Char) : Option (Char × List Char) := do
  let (u, rest) ← readHex4 cs
  if 0xD800 ≤ u ∧ u ≤ 0xDBFF then
    match rest with
    | '\\' :: 'u' :: cs => do
      let (w, rest) ← readHex4 cs
      if 0xDC00 ≤ w ∧ w ≤ 0xDFFF then some (Char.ofNat (0x10000 + (u - 0xD800) * 1024 + (w - 0xDC00)), rest)
      else none
    | _ => none
  else if 0xDC00 ≤ u ∧ u ≤ 0xDFFF then none
  else some (Char.ofNat u, rest)

def letterEscapes : List (Char × Char) :=
  [('"', '"'), ('\\', '\\'), ('/', '/'), ('n', '\n'), ('r', '\r'), ('t', '\t'), ('b', '\x08'), ('f', '\x0c')]

def readChar : List Char → Option (Char × List Char)
  | [] => none
  | '\\' :: 'u' :: cs => readUnits cs
  | '\\' :: letter :: cs => (letterEscapes.lookup letter).map fun c => (c, cs)
  | c :: cs => if c.toNat < 32 then none else some (c, cs)

def readChars : ℕ → List Char → Option (List Char × List Char)
  | 0, _ => none
  | n + 1, cs =>
    if cs.head? = some '"' then some ([], cs.tail)
    else do
      let (c, rest) ← readChar cs
      let (s, rest) ← readChars n rest
      return (c :: s, rest)

def readString (cs : List Char) : Option (String × List Char) :=
  (readChars (cs.length + 1) cs).map fun r => (String.ofList r.1, r.2)

def number (digits : List Char) : ℕ := Nat.ofDigitChars 10 digits 0

def wholePart (cs : List Char) : Option (ℕ × List Char) :=
  if cs.head? = some '0' then some (0, cs.tail)
  else if cs.takeWhile Char.isDigit = [] then none
  else some (number (cs.takeWhile Char.isDigit), cs.dropWhile Char.isDigit)

def fractionPart : List Char → Option (List Char) × List Char
  | '.' :: cs =>
    if cs.takeWhile Char.isDigit = [] then (none, '.' :: cs)
    else (some (cs.takeWhile Char.isDigit), cs.dropWhile Char.isDigit)
  | cs => (none, cs)

def signOf : List Char → ℤ × List Char
  | '-' :: cs => (-1, cs)
  | '+' :: cs => (1, cs)
  | cs => (1, cs)

def exponentPart (cs : List Char) : Option ℤ × List Char :=
  if cs.head? = some 'e' ∨ cs.head? = some 'E' then
    let (sign, digits) := signOf cs.tail
    if digits.takeWhile Char.isDigit = [] then (none, cs)
    else (some (sign * number (digits.takeWhile Char.isDigit)), digits.dropWhile Char.isDigit)
  else (none, cs)

def decimalValue (whole : ℕ) (fraction : List Char) (exponent : ℤ) : ℚ :=
  nearest ((whole + number fraction / 10 ^ fraction.length) * 10 ^ exponent)

def readUnsigned (cs : List Char) : Option (Value × List Char) := do
  let (whole, rest) ← wholePart cs
  let (fraction, rest) := fractionPart rest
  let (exponent, rest) := exponentPart rest
  if fraction.isNone && exponent.isNone then return (.int whole, rest)
  else return (.float (decimalValue whole (fraction.getD []) (exponent.getD 0)), rest)

def negative : Value → Value
  | .int n => .int (-n)
  | .float q => .float (-q)
  | v => v

def readNumber (cs : List Char) : Option (Value × List Char) :=
  if cs.head? = some '-' then (readUnsigned cs.tail).map fun r => (negative r.1, r.2) else readUnsigned cs

def Stops (rest : List Char) : Prop := ∀ c, rest.head? = some c → c = ',' ∨ c = ']' ∨ c = '}'

def literal (word : List Char) (v : Value) (cs : List Char) : Option (Value × List Char) :=
  if word <+: cs then some (v, cs.drop word.length) else none

def dictOf (entries : List (String × Value)) : Dict := entries.foldl (fun d entry => d.set entry.1 entry.2) []

def readKey (cs : List Char) : Option (String × List Char) := do
  if cs.head? = some '"' then
    let (k, rest) ← readString cs.tail
    if (skip rest).head? = some ':' then return (k, skip (skip rest).tail) else none
  else none

mutual

def readValue : ℕ → List Char → Option (Value × List Char)
  | 0, _ => none
  | _ + 1, [] => none
  | n + 1, c :: cs =>
    if c = '"' then (readString cs).map fun r => (.str r.1, r.2)
    else if c = '[' then
      if (skip cs).head? = some ']' then some (.arr [], (skip cs).tail)
      else (readItems n (skip cs)).map fun r => (.arr r.1, r.2)
    else if c = '{' then
      if (skip cs).head? = some '}' then some (.obj [], (skip cs).tail)
      else (readEntries n (skip cs)).map fun r => (.obj (dictOf r.1), r.2)
    else if c = 'n' then literal "null".toList .null (c :: cs)
    else if c = 't' then literal "true".toList (.bool true) (c :: cs)
    else if c = 'f' then literal "false".toList (.bool false) (c :: cs)
    else readNumber (c :: cs)

def readItems : ℕ → List Char → Option (List Value × List Char)
  | 0, _ => none
  | n + 1, cs =>
    match readValue n cs with
    | none => none
    | some (v, rest) =>
      match skip rest with
      | ',' :: rest => (readItems n (skip rest)).map fun r => (v :: r.1, r.2)
      | ']' :: rest => some ([v], rest)
      | _ => none

def readEntries : ℕ → List Char → Option (List (String × Value) × List Char)
  | 0, _ => none
  | n + 1, cs =>
    match readKey cs with
    | none => none
    | some (k, rest) =>
      match readValue n rest with
      | none => none
      | some (v, rest) =>
        match skip rest with
        | ',' :: rest => (readEntries n (skip rest)).map fun r => ((k, v) :: r.1, r.2)
        | '}' :: rest => some ([(k, v)], rest)
        | _ => none

end

def loads (text : String) : Option Value := do
  let (v, rest) ← readValue (text.toList.length + 1) (skip text.toList)
  if skip rest = [] then return v else none

def hexDigit (n : ℕ) : Char := "0123456789abcdef".toList.getD n '0'

def hex4 (n : ℕ) : List Char :=
  [hexDigit (n / 4096 % 16), hexDigit (n / 256 % 16), hexDigit (n / 16 % 16), hexDigit (n % 16)]

def escapeUnit (n : ℕ) : List Char := '\\' :: 'u' :: hex4 n

def shortEscapes : List (Char × Char) :=
  [('"', '"'), ('\\', '\\'), ('\n', 'n'), ('\r', 'r'), ('\t', 't'), ('\x08', 'b'), ('\x0c', 'f')]

def escapeChar (c : Char) : List Char :=
  match shortEscapes.lookup c with
  | some letter => ['\\', letter]
  | none =>
    if 32 ≤ c.toNat ∧ c.toNat ≤ 126 then [c]
    else if c.toNat < 0x10000 then escapeUnit c.toNat
    else escapeUnit (0xD800 + (c.toNat - 0x10000) / 1024) ++ escapeUnit (0xDC00 + (c.toNat - 0x10000) % 1024)

def writeString (s : String) : List Char := '"' :: (s.toList.flatMap escapeChar ++ ['"'])

def writeInt (n : ℤ) : List Char :=
  if n < 0 then '-' :: Nat.toDigits 10 n.natAbs else Nat.toDigits 10 n.natAbs

/-- What follows a comma and a colon, and the text of a float, from which the float is
    read back. -/
structure Style where
  gap : List Char
  float : ℚ → List Char
  blank : ∀ c ∈ gap, isBlank c = true
  reads : ∀ q, nearest q = q → ∀ rest, Stops rest → readNumber (float q ++ rest) = some (.float q, rest)

variable (style : Style)

mutual

def write : Value → List Char
  | .null => "null".toList
  | .bool true => "true".toList
  | .bool false => "false".toList
  | .int n => writeInt n
  | .float q => style.float q
  | .str s => writeString s
  | .arr items => '[' :: (writeItems items ++ [']'])
  | .obj entries => '{' :: (writeEntries entries ++ ['}'])

def writeItems : List Value → List Char
  | [] => []
  | [v] => write v
  | v :: vs => write v ++ ',' :: (style.gap ++ writeItems vs)

def writeEntries : List (String × Value) → List Char
  | [] => []
  | [(k, v)] => writeString k ++ ':' :: (style.gap ++ write v)
  | (k, v) :: es => writeString k ++ ':' :: (style.gap ++ (write v ++ ',' :: (style.gap ++ writeEntries es)))

end

def sortEntries (entries : List (String × Value)) : List (String × Value) :=
  entries.insertionSort fun a b => a.1 ≤ b.1

mutual

def canon : Value → Value
  | .arr items => .arr (canonItems items)
  | .obj entries => .obj (sortEntries (canonEntries entries))
  | v => v

def canonItems : List Value → List Value
  | [] => []
  | v :: vs => canon v :: canonItems vs

def canonEntries : List (String × Value) → List (String × Value)
  | [] => []
  | (k, v) :: es => (k, canon v) :: canonEntries es

end

/-- `json.dumps(value, ensure_ascii=True, sort_keys=True)` -/
def dumps (v : Value) : String := String.ofList (write style (canon v))

end PromptForge.JsonText
