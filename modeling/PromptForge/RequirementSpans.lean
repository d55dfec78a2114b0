import PromptForge.Json
import PromptForge.Runs
import PromptForge.Spans

/-!
# Arguments of a check of requirements

A check cites the lines of files as evidence.
-/
namespace PromptForge.RequirementSpans
open Json Runs Spans

/-- `{**entries, key: value}`: an entry that is there keeps its place. -/
def merge (key : String) (value : Value) (entries : Dict) : Dict :=
  if (entries.get? key).isSome = true then entries.map fun entry => if entry.1 = key then (key, value) else entry
  else entries ++ [(key, value)]

lemma get?_merge (key : String) (value : Value) (entries : Dict) (name : String) :
    (merge key value entries).get? name = if name = key then some value else entries.get? name := by
  have hmap : ∀ entries : Dict, Dict.get? (entries.map fun entry => if entry.1 = key then (key, value) else entry) name =
      if name = key then (entries.get? key).map fun _ => value else entries.get? name := by
    intro entries
    induction entries with
    | nil => simp [Dict.get?, Tables.lookup]
    | cons entry entries ih =>
      simp only [Dict.get?, Tables.lookup, List.map_cons, List.find?_cons] at ih ⊢
      by_cases hentry : entry.1 = key <;> by_cases hname : name = key <;> by_cases hsame : entry.1 = name <;>
        simp_all
  unfold merge
  by_cases hsome : (entries.get? key).isSome = true
  · obtain ⟨old, hold⟩ := Option.isSome_iff_exists.mp hsome
    rw [if_pos hsome, hmap, hold]
    rfl
  · rw [if_neg hsome]
    have hnone : entries.get? key = none := by simpa using hsome
    by_cases hname : name = key
    · rw [if_pos hname, hname]
      have hnot : ∀ entry ∈ entries, entry.1 ≠ key := Dict.get?_eq_none.mp hnone
      have hfind : entries.find? (fun entry => decide (entry.1 = key)) = none :=
        List.find?_eq_none.mpr fun entry hentry => by simpa using hnot entry hentry
      simp [Dict.get?, Tables.lookup, List.find?_append, hfind]
    · rw [if_neg hname]
      simp only [Dict.get?, Tables.lookup, List.find?_append, List.find?_cons, List.find?_nil]
      simp [Ne.symm hname]

lemma merge_merge (key : String) (value value' : Value) (entries : Dict) :
    merge key value' (merge key value entries) = merge key value' entries := by
  have hsome : ((merge key value entries).get? key).isSome = true := by simp [get?_merge]
  conv_lhs => rw [merge, if_pos hsome]
  unfold merge
  by_cases hold : (entries.get? key).isSome = true
  · rw [if_pos hold, if_pos hold, List.map_map]
    apply List.map_congr_left
    intro entry _
    by_cases hentry : entry.1 = key <;> simp [hentry]
  · rw [if_neg hold, if_neg hold, List.map_append]
    have hnot : ∀ entry ∈ entries, entry.1 ≠ key := Dict.get?_eq_none.mp (by simpa using hold)
    have hsame : (entries.map fun entry => if entry.1 = key then (key, value') else entry) = entries := by
      conv_rhs => rw [← List.map_id entries]
      apply List.map_congr_left
      intro entry hentry
      simp [hnot entry hentry]
    rw [hsame]
    simp

def spanReference (path : Value) (span : Span) : Value :=
  .obj [("path", path), ("start_line", .int span.first), ("end_line", .int span.last)]

def spanKeys : List String := ["path", "start_line", "end_line"]

/-- The lines that a reference cites, where it cites lines by their numbers. -/
def spanOf : Value → Option Span
  | .obj reference =>
    match Dict.get? reference "start_line", Dict.get? reference "end_line" with
    | some (.int first), some (.int last) => if Dict.HasKeys reference spanKeys then some ⟨first, last⟩ else none
    | _, _ => none
  | _ => none

def pathOf : Value → Value
  | .obj reference => Dict.get reference "path"
  | _ => .null

/-- A span that is too long for a reference, and short enough for eight. -/
def isLong (span : Span) : Prop := 1 ≤ span.first ∧ span.first ≤ span.last ∧ span.last ≤ 10000000 ∧ 80 < span.count ∧ span.count ≤ 640

instance (span : Span) : Decidable (isLong span) := inferInstanceAs (Decidable (_ ∧ _))

def splitReference (reference : Value) : List Value :=
  match spanOf reference with
  | some span => if isLong span then (span.cut 80).map (spanReference (pathOf reference)) else [reference]
  | none => [reference]

/-- Coverage is not discarded, and the cap is not relaxed, to accept a call. -/
def splitCheck : Value → Value
  | .obj check =>
    match Dict.get? check "evidence" with
    | some (.arr evidence) =>
      if (evidence.flatMap splitReference).length ≤ 8 then .obj (merge "evidence" (.arr (evidence.flatMap splitReference)) check)
      else .obj check
    | _ => .obj check
  | check => check

def splitRequirementSpans : Value → Value
  | .arr checks => if 1 ≤ checks.length ∧ checks.length ≤ 256 then .arr (checks.map splitCheck) else .arr checks
  | checks => checks

/-- The `argument_issue` of a `RequirementArgumentError`. -/
structure ArgumentIssue where
  field : String
  constraint : String
  expected : String
  deriving DecidableEq

def isText (maxLength : ℕ) : Option Value → Bool
  | some (.str text) => decide (1 ≤ text.length ∧ text.length ≤ maxLength)
  | _ => false

def validateLines (location : String) : Value → Value → Except ArgumentIssue Unit
  | .int first, .int last => do
    require (1 ≤ first ∧ first ≤ last ∧ last ≤ 10000000) ⟨location, "line_order", "1 <= start_line <= end_line <= 10000000."⟩
    require (last - first < 80) ⟨location, "line_span", "At most 80 lines inclusive. Split longer spans into separate references."⟩
  | .int _, _ => .error ⟨location ++ ".end_line", "type", "An integer; strings and booleans are invalid."⟩
  | _, _ => .error ⟨location ++ ".start_line", "type", "An integer; strings and booleans are invalid."⟩

def validateReference (location : String) : Value → Except ArgumentIssue Unit
  | .obj reference => do
    require (isText 1024 (Dict.get? reference "path") = true)
      ⟨location ++ ".path", "string", "A nonempty project-relative file path, at most 1024 characters."⟩
    if Dict.HasKeys reference ["path", "quote"] then
      require (isText 4096 (Dict.get? reference "quote") = true)
        ⟨location ++ ".quote", "string", "An exact nonempty current quote, at most 4096 characters."⟩
    else if Dict.HasKeys reference spanKeys then
      validateLines location (Dict.get reference "start_line") (Dict.get reference "end_line")
    else
      .error ⟨location, "fields", "Exactly \x7bpath,quote\x7d OR \x7bpath,start_line,end_line\x7d; do not mix the two forms."⟩
  | _ => .error ⟨location, "type", "An object containing a file reference."⟩

def validateEvidence (field : String) : Value → Except ArgumentIssue Unit
  | .arr evidence => do
    require (evidence.length ≤ 8) ⟨field ++ ".evidence", "count", "At most 8 references per requirement."⟩
    evidence.zipIdx.forM fun (reference, number) => validateReference s!"{field}.evidence[{number}]" reference
  | _ => .error ⟨field ++ ".evidence", "type", "A JSON array of file references."⟩

def isStatus : Value → Bool
  | .str status => decide (status ∈ ["implemented", "unmet"])
  | _ => false

def validateCheck (field : String) : Value → Except ArgumentIssue Unit
  | .obj check => do
    require (Dict.HasKeys check ["id", "status", "evidence"]) ⟨field, "fields", "Exactly id, status and evidence; no other fields."⟩
    require (isText 4096 (Dict.get? check "id") = true)
      ⟨field ++ ".id", "string", "A nonempty authoritative requirement ID, at most 4096 characters."⟩
    require (isStatus (Dict.get check "status") = true)
      ⟨field ++ ".status", "enum", "Exactly \"implemented\" or \"unmet\"; review verdicts are separate."⟩
    validateEvidence field (Dict.get check "evidence")
  | _ => .error ⟨field, "type", "An object containing id, status and evidence."⟩

def validateRequirementChecks : Value → Except ArgumentIssue Unit
  | .arr checks => do
    require (1 ≤ checks.length ∧ checks.length ≤ 256) ⟨"checks", "count", "1 to 256 checks; prefer batches of at most 8."⟩
    checks.zipIdx.forM fun (check, index) => validateCheck s!"checks[{index}]" check
  | _ => .error ⟨"checks", "type", "A JSON array of check objects."⟩

end PromptForge.RequirementSpans
