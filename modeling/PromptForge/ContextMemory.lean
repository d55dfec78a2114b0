import PromptForge.JsonText
import PromptForge.Texts
import PromptForge.Runs

/-!
# Context memory

The observations that a loop of the agent shows to the next request. A loop keeps
all its observations and shows the last of them, as many as fit a count and a number
of characters, behind a checkpoint that stands for the others.
-/
namespace PromptForge.ContextMemory
open Runs Json JsonText

/-- A character as `json.dumps(…, ensure_ascii=False)` writes it. -/
def plainChar (c : Char) : List Char :=
  match shortEscapes.lookup c with
  | some letter => ['\\', letter]
  | none => if c.toNat < 32 then escapeUnit c.toNat else [c]

def plainString (s : String) : List Char := '"' :: (s.toList.flatMap plainChar ++ ['"'])

-- The text of a float.
variable (floatText : ℚ → List Char)

mutual

def plain : Value → List Char
  | .null => "null".toList
  | .bool true => "true".toList
  | .bool false => "false".toList
  | .int n => writeInt n
  | .float q => floatText q
  | .str s => plainString s
  | .arr items => '[' :: (plainItems items ++ [']'])
  | .obj entries => '{' :: (plainEntries entries ++ ['}'])

def plainItems : List Value → List Char
  | [] => []
  | [v] => plain v
  | v :: vs => plain v ++ ',' :: ' ' :: plainItems vs

def plainEntries : List (String × Value) → List Char
  | [] => []
  | [(k, v)] => plainString k ++ ':' :: ' ' :: plain v
  | (k, v) :: es => plainString k ++ ':' :: ' ' :: (plain v ++ ',' :: ' ' :: plainEntries es)

end

def encoded (item : Dict) : List Char := plain floatText (.obj item)

def size (item : Dict) : ℕ := (encoded floatText item).length

def lastItems {α : Type} (k : ℕ) (xs : List α) : List α := xs.drop (xs.length - k)

/-- The loop of `detailed_tail` over the sizes, the last one first. -/
def countWithin (charBudget : ℕ) : ℕ → ℕ → List ℕ → ℕ
  | _, count, [] => count
  | used, count, size :: rest =>
    if count ≠ 0 ∧ charBudget < used + size then count
    else countWithin charBudget (used + size) (count + 1) rest

def detailedTail (observations : List Dict) (keep charBudget : ℕ) : ℕ :=
  max 1 (countWithin charBudget 0 0 ((lastItems keep observations).reverse.map (size floatText)))

def boundedObservation (item : Dict) (maxChars : ℕ) : Dict :=
  if size floatText item ≤ maxChars then item
  else [("call_id", item.get "call_id"), ("tool", item.get "tool"), ("status", item.get "status"),
    ("output", .obj [("preview", .str (String.ofList ((encoded floatText item).take (maxChars - 500)))),
      ("truncated", .bool true), ("retrieval", .str "session_event_search"),
      ("original_call_id", item.get "call_id")])]

def tail (observations : List Dict) : ℕ := detailedTail floatText observations 24 32000

def bounded (item : Dict) : Dict := boundedObservation floatText item 16000

inductive Loop where
  | autonomous
  | overlay
  deriving DecidableEq

/-- What a loop puts behind the observations. -/
inductive Focus where
  | buildRepair | interfaceRepair | editRepair | sourceRepair | compilerRepair | linkerRepair
  | generationWork | sourceContract
  deriving DecidableEq

def Focus.tool : Focus → String
  | .buildRepair => "build_repair_focus"
  | .interfaceRepair => "interface_repair_focus"
  | .editRepair => "edit_repair_focus"
  | .sourceRepair => "source_repair_focus"
  | .compilerRepair => "compiler_repair_focus"
  | .linkerRepair => "linker_repair_focus"
  | .generationWork => "generation_work_focus"
  | .sourceContract => "source_contract_focus"

structure Pinned where
  focus : Focus
  output : Value

def Pinned.item (p : Pinned) : Dict :=
  [("tool", .str p.focus.tool), ("status", .str "completed"), ("output", p.output)]

/-- The observations of a loop, the results of the last settled turn, and what was handed on. -/
structure State where
  observations : List Dict
  results : List ℕ
  compacted : ℕ
  deltas : List (List Dict)

def State.start (observations : List Dict) : State := ⟨observations, [], 0, []⟩

inductive Action where
  /-- A message of the user or of the host. -/
  | observe (item : Dict)
  /-- A turn settles. -/
  | settle (items : List (Dict × Bool))
  /-- The view for the next request is built. -/
  | request (pinned : List Pinned)

inductive Outcome where
  | stored
  | view (items : List Dict)
  /-- A `KeyError`, `TypeError` or `ValueError` that ends the run. -/
  | raised

def checkpoint (callId : String) (older : ℕ) : Dict :=
  [("call_id", .str callId), ("status", .str "completed"), ("tool", .str "context_compaction"),
    ("output", .obj [("compacted_observations", .int older)])]

def shown (callId : ℕ → String) (observations : List Dict) (keep : ℕ) : List Dict :=
  if observations.length ≤ keep then observations.map (bounded floatText)
  else checkpoint (callId (observations.length - keep)) (observations.length - keep) ::
    (lastItems keep observations).map (bounded floatText)

def emit (s : State) (count : ℕ) : State :=
  if s.compacted < count then
    { s with compacted := count, deltas := s.deltas ++ [(s.observations.take count).drop s.compacted] }
  else s

def autonomousView (s : State) (pinned : List Pinned) : Outcome × State :=
  let keep := min s.observations.length (max 6 (tail floatText s.observations))
  let callId := fun older => "context_checkpoint_" ++ toString older
  (.view (shown floatText callId s.observations keep ++ pinned.map Pinned.item),
    if s.observations.length ≤ keep then s else emit s (s.observations.length - keep))

def digitGroups (cs : List Char) : Option ℤ :=
  let groups := cs.splitOn '_'
  if groups.all (fun g => !g.isEmpty && g.all Char.isDigit) then some (number groups.flatten) else none

def intOf : Value → Option ℤ
  | .bool b => some (if b then 1 else 0)
  | .int n => some n
  | .float q => some (q.num.tdiv q.den)
  | .str s =>
    let (sign, digits) := signOf (Texts.strip s).toList
    (digitGroups digits).map (sign * ·)
  | _ => none

/-- `int(item["output"]["compacted_observations"])` -/
def compactedCount (item : Dict) : Option ℤ := do
  let output ← item.get? "output"
  let output ← obj? output
  let count ← output.get? "compacted_observations"
  intOf count

def isCheckpoint (item : Dict) : Bool := str? (item.get "tool") = some "context_compaction"

/-- `_compact_tool_observations` and what its caller does with the view. -/
def overlayView (s : State) (pinned : List Pinned) : Outcome × State :=
  let keep := tail floatText s.observations
  let compacted := shown floatText (fun _ => "context_checkpoint") s.observations keep ++ pinned.map Pinned.item
  match compacted.head? with
  | none => (.view compacted, s)
  | some first =>
    if isCheckpoint first then
      match compactedCount first with
      | none => (.raised, s)
      | some count => (.view compacted, emit s count.toNat)
    else (.view compacted, s)

/-- The places of the marked items, the first of which has the place `n`. -/
def marked : ℕ → List (Dict × Bool) → List ℕ
  | _, [] => []
  | n, (_, true) :: items => n :: marked (n + 1) items
  | n, (_, false) :: items => marked (n + 1) items

def step (loop : Loop) (s : State) : Action → Outcome × State
  | .observe item => (.stored, { s with observations := s.observations ++ [item] })
  | .settle items =>
    (.stored, { s with
      observations := s.observations ++ items.map Prod.fst
      results := marked s.observations.length items })
  | .request pinned =>
    match loop with
    | .autonomous => autonomousView floatText s pinned
    | .overlay => overlayView floatText s pinned

end PromptForge.ContextMemory
