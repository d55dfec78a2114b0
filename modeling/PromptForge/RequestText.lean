import PromptForge.Regex

/-!
# What a request asks for

The lines of a request that are obligations, put together into the texts of its
requirements, and the phrases by which a later request takes earlier ones back.
-/
namespace PromptForge.TaskContracts
open Regex

abbrev Line := List Char

def isBreak (c : Char) : Bool :=
  let n := c.toNat
  (10 ≤ n && n ≤ 13) || (28 ≤ n && n ≤ 30) || n == 0x85 || n == 0x2028 || n == 0x2029

/-- The lines and the breaks that end them; `current` is the line so far, from its end. -/
def breakLines (current : List Char) : List Char → List (Line × List Char)
  | [] => if current.isEmpty then [] else [(current.reverse, [])]
  | '\r' :: '\n' :: rest => (current.reverse, ['\r', '\n']) :: breakLines [] rest
  | c :: rest => if isBreak c then (current.reverse, [c]) :: breakLines [] rest else breakLines (c :: current) rest

def splitLines (text : List Char) : List Line := (breakLines [] text).map Prod.fst

def splitLinesKeeping (text : List Char) : List Line := (breakLines [] text).map fun l => l.1 ++ l.2

lemma flatten_breakLines (current text : List Char) :
    ((breakLines current text).map fun l => l.1 ++ l.2).flatten = current.reverse ++ text := by
  induction current, text using breakLines.induct with
  | case1 current hempty => simp_all [breakLines]
  | case2 current hempty => simp [breakLines, hempty]
  | case3 current rest ih => simp [breakLines, ih]
  | case4 current c rest hne hbreak ih => simp [breakLines, hbreak, ih]
  | case5 current c rest hne hbreak ih => simp [breakLines, hbreak, ih]

lemma flatten_splitLinesKeeping (text : List Char) : (splitLinesKeeping text).flatten = text := flatten_breakLines [] text

lemma length_breakLines (current text : List Char) :
    (breakLines current text).length ≤ (if current.isEmpty then 0 else 1) + text.length := by
  induction current, text using breakLines.induct with
  | case1 current hempty => simp [breakLines, hempty]
  | case2 current hempty => simp [breakLines, hempty]
  | case3 current rest ih =>
    simp only [breakLines, List.length_cons, List.isEmpty_nil, if_true] at ih ⊢
    omega
  | case4 current c rest hne hbreak ih =>
    simp only [breakLines, hbreak, if_true, List.length_cons, List.isEmpty_nil] at ih ⊢
    omega
  | case5 current c rest hne hbreak ih =>
    simp only [breakLines, hbreak, List.length_cons, List.isEmpty_cons] at ih ⊢
    simp only [Bool.false_eq_true, if_false] at ih ⊢
    omega

lemma length_splitLinesKeeping (text : List Char) : (splitLinesKeeping text).length ≤ text.length := by
  have h := length_breakLines [] text
  simpa [splitLinesKeeping] using h

def blank (line : Line) : Bool := line.all Texts.isSpace

def stripped (line : Line) : Line := Texts.stripChars line

def strippedOf (chars : List Char) (line : Line) : Line :=
  (line.dropWhile chars.contains).rdropWhile chars.contains

def joinLines (lines : List Line) : List Char := List.intercalate ['\n'] lines

def fencePattern : Pattern := .alt (.rep 3 none true (among "`")) (.rep 3 none true (among "~"))

def fence? (line : Line) : Option Char := (matchStart fencePattern line).bind fun _ => line.head?

def fencedAfter (fenced fence : Option Char) : Option Char :=
  match fence with
  | none => fenced
  | some mark => if fenced = some mark then none else if fenced = none then some mark else fenced

variable (u : Unicode)

def turnLine : Pattern := seqs [exactly "Turn ", plus (digit u)]

def guidance : Pattern :=
  seqs [maybe (seqs [.rep 1 (some 6) true (among "#"), star space]),
    anyWord ["User guidance", "Latest user request", "Confirmed choices"], among ":"]

def panelStarts (line : Line) (following : List Line) : Bool :=
  line == "ForgeX".toList && following.head? == some "Agent activity".toList &&
    following.contains "thinking.summary".toList && following.any (fullMatch (turnLine u))

/-- `_request_context_lines`: each line, and whether it is copied diagnostics. -/
def requestContextLines : Option Char → Bool → List Line → List (Line × Bool)
  | _, _, [] => []
  | fenced, diagnostic, line :: rest =>
    let fence := fence? (stripped line)
    let fenced' := fencedAfter fenced fence
    let diagnostic' :=
      if fenced' = none ∧ fence = none then
        if panelStarts u (stripped line) (((rest.take 29).map stripped).filter fun l => !l.isEmpty) then true
        else if diagnostic && (matchStart guidance (stripped line)).isSome then false
        else diagnostic
      else diagnostic
    (line, diagnostic') :: requestContextLines fenced' diagnostic' rest

/-- `_split_diagnostic_context`, the part that is the specification. -/
def specification (request : List Char) : List Char :=
  ((requestContextLines u none false (splitLinesKeeping request)).filter fun l => !l.2).flatMap Prod.fst

def future : Pattern :=
  seqs [boundary u, alts [
    seqs [word "future", plus space, alts [seqs [word "extension", maybe (word "s")], word "features", word "expansion"]],
    word "optional future", word "out of scope"], boundary u]

def prohibition : Pattern :=
  seqs [boundary u, alts [word "do not", word "don't", word "never", word "must not", word "prohibited",
    seqs [word "skip", plus space, maybe (seqs [word "the", plus space]),
      alts [word "build", word "compilation", word "simulation", seqs [word "unit test", maybe (word "s")],
        seqs [word "test case", maybe (word "s")]]]], boundary u]

def sectionStart : Pattern :=
  seqs [star space, alts [seqs [.rep 1 (some 6) true (among "#"), plus space],
    seqs [plus (digit u), among ".)", plus space]]]

def clauseBreak : Pattern :=
  .alt (seqs [.place fun a _ => a.any ".!?;".toList.contains, plus space])
    (seqs [alts [seqs [among ",", star space], seqs [plus space, anyWord ["and", "but"], plus space]],
      .ahead (prohibition u)])

def clauses (line : Line) : List Line :=
  if found (prohibition u) line then split (clauseBreak u) line else [line]

/-- The obligations and the exclusions of the lines; `excluding` inside a section of
    later work. -/
def partitionLines : Bool → List Line → List Line × List Line
  | _, [] => ([], [])
  | excluding, raw :: rest =>
    let line := strippedOf " \t-*#".toList raw
    let isFuture := found (future u) line
    let excluding' := isFuture || (excluding && !(matchStart (sectionStart u) raw).isSome)
    let (active, exclusions) := partitionLines excluding' rest
    if excluding' then (active, line :: exclusions)
    else
      let parts := ((clauses u line).map stripped).filter fun clause => !clause.isEmpty
      (parts.filter (fun clause => !found (prohibition u) clause) ++ active,
        parts.filter (found (prohibition u)) ++ exclusions)

def partitionSpecification (request : List Char) : List Line × List Line :=
  partitionLines u false ((splitLines request).filter fun line => !blank line)

def instruction : Pattern :=
  alts [seqs [plus (digit u), among ".)", space],
    anyWord ["Hardware:", "Main behavior:", "Example patterns:"], seqs [word "Pattern ", among "12", among ":"],
    anyWord ["Unknown pattern:", "Suggested states:", "Requirements:", "Learning mode:", "Serial Monitor:",
      "Code architecture:", "Important ESP32 considerations:", "Provide:", "Before finishing:"],
    seqs [anyWord ["Use", "Add", "Record", "Save", "Implement", "Only print", "Keep", "Configure", "Explain",
      "Protect", "Build", "Fix", "Verify", "Review", "Check", "Clearly state"], boundary u],
    seqs [word "The ", anyWord ["ESP32", "system", "learned pattern"], boundary u]]

/-- Whether a line starts a group of its own after the lines of `current`. -/
def startsGroup (current : List Line) (line : Line) : Bool :=
  let headed := (current.head?.bind List.getLast?) == some ':'
  !current.isEmpty && (!headed || (matchStart (instruction u) line).isSome) && (decide (1 < current.length) || !headed)

/-- The groups of the lines, `current` being the one that is open. -/
def groupLines : Option Char → List Line → List Line → List (List Line)
  | _, current, [] => if current.isEmpty then [] else [current]
  | fenced, current, line :: rest =>
    let fence := fence? line
    let fenced' := fencedAfter fenced fence
    if fenced = none ∧ fence = none ∧ startsGroup u current line = true then
      current :: groupLines fenced' [line] rest
    else groupLines fenced' (current ++ [line]) rest

def leastPair : List (List Char) → ℕ
  | a :: b :: c :: rest =>
    let later := leastPair (b :: c :: rest)
    let pair := (b :: c :: rest).drop later
    if a.length + b.length ≤ ((pair.take 2).map List.length).sum then 0 else later + 1
  | _ => 0

def mergePair (groups : List (List Char)) : List (List Char) :=
  let i := leastPair groups
  groups.take i ++ joinLines ((groups.drop i).take 2) :: groups.drop (i + 2)

def mergeGroups : ℕ → List (List Char) → List (List Char)
  | 0, groups => groups
  | n + 1, groups => if 64 < groups.length then mergeGroups n (mergePair groups) else groups

def logicalRequirementGroups (lines : List Line) : List (List Char) :=
  let groups := (groupLines u none [] lines).map joinLines
  mergeGroups groups.length groups

def label : Pattern :=
  alts [seqs [word "Project", star space, among ":", plus (.char (· ≠ '\n'))],
    seqs [word "Requirements", star space, maybe (among ":")], seqs [word "Provide", star space, among ":"],
    seqs [alts [word "Firmware", word "Code", word "Documentation", word "Document",
      seqs [word "README", maybe (word ".md")]], star space, maybe (word "requirements"), star space, maybe (among ":")]]

/-- `_requirement_content`: the texts of the sections, and the labels between them; `lines` is
    the open section. -/
def requirementContent : Option Char → List Line → List Line → List (List Char) × List Line
  | _, lines, [] => (logicalRequirementGroups u lines, [])
  | fenced, lines, line :: rest =>
    let fence := fence? line
    let fenced' := fencedAfter fenced fence
    if fenced = none ∧ fence = none ∧ fullMatch label (stripped line) = true then
      let (groups, context) := requirementContent fenced' [] rest
      (logicalRequirementGroups u lines ++ groups, line :: context)
    else requirementContent fenced' (lines ++ [line]) rest

def isNameChar (c : Char) : Bool := (foldCase c).isAlphanum && (foldCase c).toNat < 128 || c == '_' || c == '-'

/-- `[A-Za-z][A-Za-z0-9_-]{1,63}` as a group, with `re.I`. -/
def name : Pattern :=
  .group 1 (.seq (.char fun c => (foldCase c).isLower) (.rep 1 (some 63) true (.char isNameChar)))

def targetAfter (verbs : List String) : Pattern :=
  seqs [boundary u, anyWord verbs, plus space, maybe (seqs [word "the", plus space]), name, boundary u]

def foldName (text : List Char) : List Char :=
  text.flatMap fun c => if c = 'İ' then ['i', '\u0307'] else Texts.foldChar c

def targetsAfter (verbs : List String) (text : List Char) : List (List Char) :=
  (findAll (targetAfter u verbs) text).map fun m => foldName (m.group 1)

def correctionTargets (request : List Char) : List (List Char) :=
  targetsAfter u ["instead of", "rather than", "replace", "stop using", "no longer use", "remove", "drop",
    "do not use", "don't use"] request

def newlyAllowedTargets (lines : List Line) : List (List Char) :=
  lines.flatMap (targetsAfter u ["implement", "include", "enable", "allow", "use"])

def mentionsTarget (text target : List Char) : Bool :=
  found (seqs [.place fun a _ => !a.any isNameChar, takes target, .place fun _ b => !b.any isNameChar]) text

def allOf (p : Pattern) (text : List Char) : List (List Char) := (findAll p text).map Found.text

def component : Pattern :=
  seqs [boundary u, anyWord ["led", "button", "relay", "buzzer", "sensor", "display", "motor", "sda", "scl"], boundary u]

def pin : Pattern := seqs [boundary u, word "GPIO", maybe (word "_NUM_"), .group 1 (plus (digit u)), boundary u]

def timing : Pattern := seqs [boundary u, anyWord ["interval", "debounce", "timeout", "period"], boundary u]

def duration : Pattern :=
  seqs [boundary u, plus (digit u), star space, alts [word "ms", seqs [word "millisecond", maybe (word "s")],
    seqs [word "second", maybe (word "s")]], boundary u]

def sameAssignmentSlot (old new : List Char) : Bool :=
  let shared := fun p => ((allOf p old).map foldName).any ((allOf p new).map foldName).contains
  let pins := fun text => ((findAll (pin u) text).map fun m => m.group 1).dedup
  let values := fun text => (allOf (duration u) text).dedup
  if old.contains '\n' || new.contains '\n' then false
  else if shared (component u) && (pins old).length == 1 && (pins new).length == 1 then pins old != pins new
  else shared (timing u) && (values old).length == 1 && (values new).length == 1 &&
    (values old).map foldName != (values new).map foldName

end PromptForge.TaskContracts
