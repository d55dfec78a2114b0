import PromptForge.LineDiffs
import PromptForge.RequestText
import PromptForge.Runs

/-!
# Unified patches

`_apply_unified_patch` reads the hunks of a patch of one file one after the other.
-/
namespace PromptForge.UnifiedPatches
open Runs LineDiffs
open TaskContracts (Line breakLines splitLines)
open Texts (stripChars isSpace)

abbrev Text := List Char

inductive Refusal where
  /-- `patch_empty` -/
  | empty
  /-- `patch_path_mismatch` -/
  | pathMismatch
  /-- `patch_hunk_missing` -/
  | hunkMissing
  /-- `patch_hunk_header_invalid` -/
  | hunkHeaderInvalid
  /-- `patch_hunk_range_invalid` -/
  | hunkRangeInvalid
  /-- `patch_line_invalid` -/
  | lineInvalid
  /-- `patch_context_mismatch` -/
  | contextMismatch
  /-- `patch_hunk_count_mismatch` -/
  | hunkCountMismatch
  deriving DecidableEq

/-- The decimal digits that `\d` and `int` know. -/
structure Digits where
  value : Char → Option ℕ
  ascii : ∀ c, c.toNat < 128 → value c = if c.isDigit then some (c.toNat - 48) else none

def asciiDigits : Digits := ⟨fun c => if c.isDigit then some (c.toNat - 48) else none, fun _ _ => rfl⟩

variable (digits : Digits)

def readNumber (text : Text) : Option (ℕ × Text) :=
  let read := text.takeWhile fun c => (digits.value c).isSome
  if read = [] then none
  else some (read.foldl (fun n c => n * 10 + (digits.value c).getD 0) 0, text.dropWhile fun c => (digits.value c).isSome)

/-- `(?:,(\d+))?`, and `1` where it is missing. -/
def readCount : Text → ℕ × Text
  | ',' :: rest => (readNumber digits rest).getD (1, ',' :: rest)
  | text => (1, text)

def readText (expected text : Text) : Option Text := if expected <+: text then some (text.drop expected.length) else none

structure Header where
  oldStart : ℕ
  oldCount : ℕ
  newCount : ℕ
  deriving DecidableEq

/-- `_HUNK_RE` -/
def readHeader (line : Line) : Option Header := do
  let rest ← readText ['@', '@', ' ', '-'] line
  let (oldStart, rest) ← readNumber digits rest
  let (oldCount, rest) := readCount digits rest
  let rest ← readText [' ', '+'] rest
  let (_, rest) ← readNumber digits rest
  let (newCount, rest) := readCount digits rest
  let rest ← readText [' ', '@', '@'] rest
  if rest = [] ∨ rest.head? = some ' ' then some ⟨oldStart, oldCount, newCount⟩ else none

def Header.target (header : Header) : ℕ := if header.oldStart = 0 then 0 else header.oldStart - 1

def isFileHeader (line : Line) : Bool := ['-', '-', '-', ' '].isPrefixOf line || ['+', '+', '+', ' '].isPrefixOf line

def devNull : Text := ['/', 'd', 'e', 'v', '/', 'n', 'u', 'l', 'l']

/-- The path that a file header names, unless it is `/dev/null`. -/
def headerPath (line : Line) : Option Text :=
  let token := stripChars ((line.drop 4).takeWhile (· ≠ '\t'))
  if token = devNull then none
  else some ((if ['a', '/'] <+: token ∨ ['b', '/'] <+: token then token.drop 2 else token).map fun c => if c = '\\' then '/' else c)

def isHunk (line : Line) : Bool := ['@', '@'].isPrefixOf line

/-- The lines before the first hunk, and the hunks: a header and the lines up to the next one. -/
def splitHunks : List Line → List Line × List (Line × List Line)
  | [] => ([], [])
  | line :: rest =>
    let (before, hunks) := splitHunks rest
    if isHunk line then ([], (line, before) :: hunks) else (line :: before, hunks)

def noNewline : Line :=
  ['\\', ' ', 'N', 'o', ' ', 'n', 'e', 'w', 'l', 'i', 'n', 'e', ' ', 'a', 't', ' ', 'e', 'n', 'd', ' ', 'o', 'f', ' ', 'f', 'i', 'l', 'e']

/-- `source_index`, `result`, `consumed_old` and `produced_new` -/
structure Progress where
  position : ℕ
  result : List Line
  consumed : ℕ
  produced : ℕ

def applyLine (source : List Line) (s : Progress) (line : Line) : Except Refusal Progress :=
  if line = noNewline then .ok s
  else
    match line with
    | ' ' :: text => do
      require (source[s.position]? = some text) .contextMismatch
      return ⟨s.position + 1, s.result ++ [text], s.consumed + 1, s.produced + 1⟩
    | '-' :: text => do
      require (source[s.position]? = some text) .contextMismatch
      return ⟨s.position + 1, s.result, s.consumed + 1, s.produced⟩
    | '+' :: text => return ⟨s.position, s.result ++ [text], s.consumed, s.produced + 1⟩
    | _ => .error .lineInvalid

def applyHunk (source : List Line) (s : ℕ × List Line) (hunk : Line × List Line) : Except Refusal (ℕ × List Line) := do
  let header ← (readHeader digits hunk.1).elim (.error .hunkHeaderInvalid) .ok
  require (s.1 ≤ header.target ∧ header.target ≤ source.length) .hunkRangeInvalid
  let done ← hunk.2.foldlM (applyLine source) ⟨header.target, s.2 ++ slice source s.1 header.target, 0, 0⟩
  require (done.consumed = header.oldCount ∧ done.produced = header.newCount) .hunkCountMismatch
  return (done.position, done.result)

def crlf : Text := ['\r', '\n']

def newlineOf (text : Text) : Text := if crlf <:+: text then crlf else ['\n']

def endsLine (text : Text) : Bool := text.getLast? == some '\n' || text.getLast? == some '\r'

def written (source : Text) (lines : List Line) : Text :=
  List.intercalate (newlineOf source) lines ++ if endsLine source then newlineOf source else []

def bodyOf (patch : Text) : List Line := (splitLines patch).dropWhile isFileHeader

def hunksOf (patch : Text) : List (Line × List Line) := (splitHunks (bodyOf patch)).2

/-- `_apply_unified_patch`; there is a hunk where the first line begins one, so that
    `hunk_count` is not 0. -/
def applyUnifiedPatch (current patch expectedPath : Text) : Except Refusal Text := do
  require (stripChars patch ≠ []) .empty
  require (∀ path ∈ ((splitLines patch).takeWhile isFileHeader).filterMap headerPath, path = expectedPath) .pathMismatch
  require ((bodyOf patch).head?.any isHunk = true) .hunkMissing
  let (position, result) ← (hunksOf patch).foldlM (applyHunk digits (splitLines current)) (0, [])
  return written current (result ++ (splitLines current).drop position)

end PromptForge.UnifiedPatches
