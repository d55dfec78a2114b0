import PromptForge.JsonText
import PromptForge.RequestText
import PromptForge.Runs

/-!
# The observations that a model sees

The newest observations are rendered as one JSON list of a bounded size.
-/
namespace PromptForge.ObservationContext
open Json JsonText Numbers Runs TaskContracts

inductive Failure where
  | budgetTooSmall
  | budgetExceeded
  | typeError
  | attributeError
  deriving DecidableEq

def Failure.message : Failure → Option String
  | .budgetTooSmall => some "observation_budget_too_small"
  | .budgetExceeded => some "observation_budget_exceeded"
  | .typeError | .attributeError => none

variable (style : Style)

/-- The separators that `json.dumps` has by default. -/
def spaced : Style := { style with gap := [' '], blank := blank_space }

/-- `json.dumps(value, ensure_ascii=True, sort_keys=True)` -/
def encode (v : Value) : List Char := write (spaced style) (canon v)

def size (v : Value) : ℕ := (encode style v).length

def pick (keys : List String) (d : Dict) : Dict := keys.filterMap fun key => (d.get? key).map fun v => (key, v)

/-- The items of a list under a key; no items where there is no list. -/
def itemsOf (d : Dict) (key : String) : List Value :=
  match d.get? key with
  | some (.arr items) => items
  | _ => []

/-- The place of the first item of the largest size, among those that have one. -/
def largest (sizes : List (Option ℕ)) : Option ℕ := sizes.reduceOption.max?.bind fun most => sizes.findIdx? (· == some most)

def preview? : Value → Option (List Char)
  | .obj source =>
    match Dict.get? source "numbered_preview" with
    | some (.str text) => if text.toList = [] then none else some text.toList
    | _ => none
  | _ => none

def halfPreview (preview : List Char) : List Char := ((preview.take (preview.length / 2)).rdropWhile (· != '\n')).dropLast

def shortenPreview : Value → Value
  | .obj source =>
    .obj (Dict.set "preview_truncated" (.bool true)
      (Dict.set "numbered_preview" (.str (String.ofList (halfPreview ((preview? (.obj source)).getD [])))) source))
  | v => v

def increment : Option Value → Except Failure Value
  | none => .ok (.int 1)
  | some (.int n) => .ok (.int (n + 1))
  | some (.bool b) => .ok (.int ((if b then 1 else 0) + 1))
  | some (.float q) => .ok (.float (nearest (q + 1)))
  | some _ => .error .typeError

/-- `output[key].pop()`, which is counted. -/
def popItem (key counter : String) (output : Dict) : Except Failure Dict :=
  (increment (output.get? counter)).map fun count => Dict.set counter count (Dict.set key (.arr (itemsOf output key).dropLast) output)

/-- What one round of the loop makes of an output; `none` where nothing is left to shorten. -/
def focusRound (output : Dict) : Except Failure (Option Dict) :=
  let sources := itemsOf output "current_sources"
  match largest (sources.map fun source => (preview? source).map List.length) with
  | some place => .ok (some (Dict.set "current_sources" (.arr (sources.modify place shortenPreview)) output))
  | none =>
    if 1 < sources.length then (popItem "current_sources" "omitted_source_count" output).map some
    else if 1 < (itemsOf output "diagnostics").length then (popItem "diagnostics" "omitted_diagnostic_count" output).map some
    else .ok none

/-- The items of the headers; a text or an object has no records among its items. -/
def headersOf (output : Dict) : Except Failure (List Value) :=
  match output.get? "headers" with
  | none | some (.str _) | some (.obj _) => .ok []
  | some (.arr items) => .ok items
  | some _ => .error .typeError

/-- `len(item["numbered_source"])` of a record whose source counts as true -/
def sourceSize? : Value → Except Failure (Option ℕ)
  | .obj header =>
    let source := Dict.get header "numbered_source"
    if truthy source then
      match source with
      | .str text => .ok (some text.toList.length)
      | .arr items => .ok (some items.length)
      | .obj entries => .ok (some entries.length)
      | _ => .error .typeError
    else .ok none
  | _ => .ok none

def sourceOf : Value → List Char
  | .obj header =>
    match Dict.get header "numbered_source" with
    | .str text => text.toList
    | _ => []
  | _ => []

def halfSource (source : List Char) : List Char := joinLines ((splitLines source).take ((splitLines source).length / 2))

def shortenSource : Value → Except Failure Value
  | .obj header =>
    match Dict.get header "numbered_source" with
    | .str text => .ok (.obj (Dict.set "truncated" (.bool true) (Dict.set "numbered_source" (.str (String.ofList (halfSource text.toList))) header)))
    | _ => .error .attributeError
  | v => .ok v

def contractRound (output : Dict) : Except Failure (Option Dict) := do
  let headers ← headersOf output
  let sizes ← headers.mapM sourceSize?
  match largest sizes with
  | none => return none
  | some place => do
    let shortened ← shortenSource (headers.getD place .null)
    return some (Dict.set "headers" (.arr (headers.set place shortened)) output)

def previewWeight (v : Value) : ℕ := ((preview? v).getD []).length

def focusWeight (output : Dict) : ℕ :=
  ((itemsOf output "current_sources").map previewWeight).sum + (itemsOf output "current_sources").length + (itemsOf output "diagnostics").length

def contractWeight (output : Dict) : ℕ := ((itemsOf output "headers").map fun header => (sourceOf header).length).sum

lemma mem_of_largest {sizes : List (Option ℕ)} {place : ℕ} (h : largest sizes = some place) : ∃ n, sizes[place]? = some (some n) := by
  obtain ⟨most, -, hplace⟩ := Option.bind_eq_some_iff.mp h
  obtain ⟨hlt, hfound, -⟩ := List.findIdx?_eq_some_iff_getElem.mp hplace
  exact ⟨most, by rw [List.getElem?_eq_getElem hlt]; simpa using hfound⟩

lemma sum_modify_lt {α : Type} {items : List α} {place : ℕ} {item : α} (weight : α → ℕ) (f : α → α) (hitem : items[place]? = some item)
    (h : weight (f item) < weight item) : ((items.modify place f).map weight).sum < (items.map weight).sum := by
  induction items generalizing place with
  | nil => simp at hitem
  | cons first items ih =>
    cases place with
    | zero =>
      cases hitem
      simpa using h
    | succ place => simpa using ih hitem

lemma get_itemsOf_set (d : Dict) (key key' : String) (v : Value) (h : key ≠ key') : itemsOf (Dict.set key' v d) key = itemsOf d key := by
  unfold itemsOf
  rw [Dict.get?_set, if_neg h]

@[simp] lemma itemsOf_set (d : Dict) (key : String) (items : List Value) : itemsOf (Dict.set key (.arr items) d) key = items := by
  unfold itemsOf
  rw [Dict.get?_set, if_pos rfl]

lemma length_halfPreview {preview : List Char} (h : preview ≠ []) : (halfPreview preview).length < preview.length := by
  have hpos := List.length_pos_iff.mpr h
  have hbegins := List.rdropWhile_prefix (· != '\n') (preview.take (preview.length / 2))
  have hsub : ((preview.take (preview.length / 2)).rdropWhile (· != '\n')).length ≤ preview.length / 2 :=
    hbegins.length_le.trans (by simp)
  have hlast : (halfPreview preview).length ≤ preview.length / 2 := by
    unfold halfPreview
    rw [List.length_dropLast]
    omega
  omega

lemma preview_ne {v : Value} {preview : List Char} (h : preview? v = some preview) : preview ≠ [] := by
  unfold preview? at h
  split at h
  · split at h
    · split at h
      · cases h
      · cases h
        assumption
    · cases h
  · cases h

lemma previewWeight_shorten {v : Value} {preview : List Char} (h : preview? v = some preview) : previewWeight (shortenPreview v) < previewWeight v := by
  have hne := preview_ne h
  cases v with
  | obj source =>
    have hshort : preview? (shortenPreview (.obj source)) = if halfPreview preview = [] then none else some (halfPreview preview) := by
      dsimp only [shortenPreview]
      rw [h]
      dsimp only [preview?]
      rw [Dict.get?_set, if_neg (by decide), Dict.get?_set, if_pos rfl]
      simp
    have hlength := length_halfPreview hne
    unfold previewWeight
    rw [hshort, h]
    split <;> simp_all
  | _ => cases h

lemma popItem_items {key counter : String} {output output' : Dict} (hne : key ≠ counter) (h : popItem key counter output = .ok output') :
    itemsOf output' key = (itemsOf output key).dropLast ∧ ∀ other, other ≠ key → other ≠ counter → itemsOf output' other = itemsOf output other := by
  obtain ⟨count, -, rfl⟩ := ok_of_map h
  constructor
  · rw [get_itemsOf_set _ _ _ _ hne, itemsOf_set]
  · intro other hkey hcounter
    rw [get_itemsOf_set _ _ _ _ hcounter, get_itemsOf_set _ _ _ _ hkey]

lemma of_map_some {α : Type} {x : Except Failure α} {a : α} (h : x.map some = .ok (some a)) : x = .ok a := by
  obtain ⟨b, hb, hsome⟩ := ok_of_map h
  rw [hb, Option.some.inj hsome]

lemma focusRound_cases {output next : Dict} (h : focusRound output = .ok (some next)) :
    (∃ place source preview, (itemsOf output "current_sources")[place]? = some source ∧ preview? source = some preview ∧
      next = Dict.set "current_sources" (.arr ((itemsOf output "current_sources").modify place shortenPreview)) output) ∨
    (1 < (itemsOf output "current_sources").length ∧ popItem "current_sources" "omitted_source_count" output = .ok next) ∨
    (1 < (itemsOf output "diagnostics").length ∧ popItem "diagnostics" "omitted_diagnostic_count" output = .ok next) := by
  unfold focusRound at h
  cases hplace : largest ((itemsOf output "current_sources").map fun source => (preview? source).map List.length) with
  | some place =>
    simp only [hplace, Except.ok.injEq, Option.some.injEq] at h
    obtain ⟨n, hn⟩ := mem_of_largest hplace
    rw [List.getElem?_map, Option.map_eq_some_iff] at hn
    obtain ⟨source, hsource, hsize⟩ := hn
    obtain ⟨preview, hpreview, -⟩ := Option.map_eq_some_iff.mp hsize
    exact .inl ⟨place, source, preview, hsource, hpreview, h.symm⟩
  | none =>
    simp only [hplace] at h
    split at h
    · rename_i hsources
      exact .inr (.inl ⟨hsources, of_map_some h⟩)
    · split at h
      · rename_i hdiagnostics
        exact .inr (.inr ⟨hdiagnostics, of_map_some h⟩)
      · cases h

lemma focusRound_lt {output output' : Dict} (h : focusRound output = .ok (some output')) : focusWeight output' < focusWeight output := by
  unfold focusWeight
  rcases focusRound_cases h with ⟨place, source, preview, hsource, hpreview, rfl⟩ | ⟨hmany, hpop⟩ | ⟨hmany, hpop⟩
  · have hless := sum_modify_lt previewWeight shortenPreview hsource (previewWeight_shorten hpreview)
    rw [itemsOf_set, get_itemsOf_set _ _ _ _ (by decide), List.length_modify]
    omega
  · obtain ⟨hitems, hother⟩ := popItem_items (by decide) hpop
    have hsum : (((itemsOf output "current_sources").dropLast).map previewWeight).sum ≤ ((itemsOf output "current_sources").map previewWeight).sum :=
      ((List.dropLast_sublist _).map _).sum_le_sum (by simp)
    rw [hitems, hother "diagnostics" (by decide) (by decide), List.length_dropLast]
    omega
  · obtain ⟨hitems, hother⟩ := popItem_items (by decide) hpop
    rw [hitems, hother "current_sources" (by decide) (by decide), List.length_dropLast]
    omega

lemma sum_breakLines (current text : List Char) :
    ((breakLines current text).map fun l => l.1.length + 1).sum ≤ current.length + text.length + 1 := by
  induction current, text using breakLines.induct with
  | case1 current hempty => simp_all [breakLines]
  | case2 current hempty => simp [breakLines, hempty]
  | case3 current rest ih =>
    simp only [breakLines, List.map_cons, List.sum_cons, List.length_reverse, List.length_cons, List.length_nil] at ih ⊢
    omega
  | case4 current c rest hne hbreak ih =>
    simp only [breakLines, hbreak, if_true, List.map_cons, List.sum_cons, List.length_reverse, List.length_cons, List.length_nil] at ih ⊢
    omega
  | case5 current c rest hne hbreak ih =>
    simp only [breakLines, hbreak, List.length_cons] at ih ⊢
    simp only [Bool.false_eq_true, if_false]
    omega

lemma length_joinLines (lines : List Line) (hne : lines ≠ []) : (joinLines lines).length + 1 = (lines.map fun line => line.length + 1).sum := by
  induction lines with
  | nil => exact absurd rfl hne
  | cons line lines ih =>
    cases lines with
    | nil => simp [joinLines]
    | cons next lines =>
      have h := ih (by simp)
      unfold joinLines at h ⊢
      rw [List.intercalate_cons_cons, List.length_append, List.length_append, List.map_cons, List.sum_cons, ← h]
      simp only [List.length_singleton]
      omega

lemma length_halfSource {source : List Char} (h : source ≠ []) : (halfSource source).length < source.length := by
  have hpos := List.length_pos_iff.mpr h
  have hall : ((splitLines source).map fun line => line.length + 1).sum ≤ source.length + 1 := by
    simpa [splitLines, Function.comp_def] using sum_breakLines [] source
  by_cases hhalf : (splitLines source).take ((splitLines source).length / 2) = []
  · simpa [halfSource, hhalf, joinLines] using hpos
  · have hcount : 0 < (splitLines source).length / 2 := by
      refine Nat.pos_of_ne_zero fun hzero => hhalf ?_
      rw [hzero, List.take_zero]
    have hjoined := length_joinLines _ hhalf
    have hparts := List.sum_take_add_sum_drop ((splitLines source).map fun line => line.length + 1) ((splitLines source).length / 2)
    have hrest : 0 < (((splitLines source).map fun line => line.length + 1).drop ((splitLines source).length / 2)).sum := by
      refine List.sum_pos _ (fun n hn => ?_) (by simp; omega)
      obtain ⟨line, -, rfl⟩ := List.mem_map.mp (List.mem_of_mem_drop hn)
      omega
    rw [List.map_take] at hjoined
    unfold halfSource
    omega

lemma headersOf_items {output : Dict} {headers : List Value} (h : headersOf output = .ok headers) : itemsOf output "headers" = headers := by
  unfold headersOf at h
  unfold itemsOf
  split at h <;> cases h <;> simp_all

lemma shortened_lt {header shortened : Value} {n : ℕ} (hsize : sourceSize? header = .ok (some n)) (h : shortenSource header = .ok shortened) :
    (sourceOf shortened).length < (sourceOf header).length := by
  cases header with
  | obj header =>
    dsimp only [shortenSource] at h
    split at h
    · rename_i text htext
      cases h
      have htruthy : text ≠ "" := by
        intro hempty
        simp [sourceSize?, htext, hempty, truthy] at hsize
      have hne : text.toList ≠ [] := by simpa using htruthy
      have hbefore : sourceOf (.obj header) = text.toList := by
        dsimp only [sourceOf]
        rw [htext]
      rw [hbefore]
      simpa [sourceOf, Dict.get] using length_halfSource hne
    · cases h
  | _ => cases hsize

lemma contractRound_cases {output next : Dict} (h : contractRound output = .ok (some next)) : ∃ place header shortened n,
    (itemsOf output "headers")[place]? = some header ∧ sourceSize? header = .ok (some n) ∧ shortenSource header = .ok shortened ∧
      next = Dict.set "headers" (.arr ((itemsOf output "headers").set place shortened)) output := by
  obtain ⟨headers, hheaders, h⟩ := ok_of_bind h
  obtain ⟨sizes, hsizes, h⟩ := ok_of_bind h
  cases hplace : largest sizes with
  | none => simp [hplace, pure, Except.pure] at h
  | some place =>
    simp only [hplace] at h
    obtain ⟨shortened, hshortened, h⟩ := ok_of_bind h
    cases h
    obtain ⟨n, hn⟩ := mem_of_largest hplace
    have hall := mapM_iff.mp hsizes
    have hlt : place < headers.length := by
      rw [hall.length_eq]
      exact (List.getElem?_eq_some_iff.mp hn).1
    have hheader : headers[place]? = some headers[place] := List.getElem?_eq_getElem hlt
    have hsize : sourceSize? headers[place] = .ok (some n) := by
      have hsame := hall.get hlt (hall.length_eq ▸ hlt)
      rw [List.getElem?_eq_getElem (hall.length_eq ▸ hlt), Option.some.injEq] at hn
      simpa [hn] using hsame
    rw [List.getD_eq_getElem?_getD, hheader, Option.getD_some] at hshortened
    rw [headersOf_items hheaders]
    exact ⟨place, headers[place], shortened, n, hheader, hsize, hshortened, rfl⟩

lemma contractRound_lt {output output' : Dict} (h : contractRound output = .ok (some output')) : contractWeight output' < contractWeight output := by
  obtain ⟨place, header, shortened, n, hheader, hsize, hshortened, rfl⟩ := contractRound_cases h
  unfold contractWeight
  rw [itemsOf_set, List.set_eq_modify]
  exact sum_modify_lt (fun header => (sourceOf header).length) (fun _ => shortened) hheader (shortened_lt hsize hshortened)

/-- A loop that goes on while its value is too large, until a round finds nothing more to do. -/
def rounds (fits : Dict → Bool) (round : Dict → Except Failure (Option Dict)) (weight : Dict → ℕ)
    (h : ∀ {d d'}, round d = .ok (some d') → weight d' < weight d) (d : Dict) : Except Failure Dict :=
  if fits d then .ok d
  else
    match _hround : round d with
    | .error failure => .error failure
    | .ok none => .ok d
    | .ok (some d') => rounds fits round weight h d'
  termination_by weight d
  decreasing_by exact h _hround

/-- The output of a compiler or linker focus whose sources and diagnostics are lists. -/
def focusOutput? (candidate : Dict) : Except Failure (Option Dict) :=
  match candidate.get "tool" with
  | .arr _ | .obj _ => .error .typeError
  | .str tool =>
    match candidate.get? "output" with
    | some (.obj output) =>
      if tool ∈ ["compiler_repair_focus", "linker_repair_focus"] ∧ isList (Dict.get? output "current_sources") ∧ isList (Dict.get? output "diagnostics") then
        .ok (some output)
      else .ok none
    | _ => .ok none
  | _ => .ok none
where
  isList : Option Value → Bool
    | none | some (.arr _) => true
    | some _ => false

def boundedCompilerFocus (candidate : Dict) (maxChars : ℕ) : Except Failure Dict := do
  match ← focusOutput? candidate with
  | none => return candidate
  | some output =>
    let shown (output : Dict) : Dict := candidate.set "output" (.obj output)
    (rounds (fun output => size style (.obj (shown output)) ≤ maxChars) focusRound focusWeight focusRound_lt output).map shown

def contractOutput? (candidate : Dict) : Option Dict :=
  match candidate.get "tool", candidate.get? "output" with
  | .str "source_contract_focus", some (.obj output) => some output
  | _, _ => none

def shrinkSourceContracts (output : Dict) (maxChars : ℕ) : Except Failure Dict :=
  rounds (fun output => size style (.obj output) ≤ maxChars) contractRound contractWeight contractRound_lt output

def shortenContract (candidate : Dict) (maxChars : ℕ) : Except Failure Dict :=
  match contractOutput? candidate with
  | none => .ok candidate
  | some output => (shrinkSourceContracts style output maxChars).map fun output => candidate.set "output" (.obj output)

def recordKeys : List String := ["call_id", "tool", "status", "error"]

def evidenceKeys : List String := ["path", "success", "exit_code", "offset", "end_line", "next_offset", "total_lines", "content_sha256",
  "truncated_lines", "citation_ranges", "artifact_id"]

def truncated (remaining : ℕ) (observation : Dict) : Dict :=
  let candidate := Dict.set "output_truncated" (.bool true) (pick recordKeys observation)
  let candidate := match observation.get? "output" with
    | some (.obj output) => Dict.set "evidence" (.obj (pick evidenceKeys output)) candidate
    | _ => candidate
  Dict.set "output_preview" (.str (String.ofList ((encode style (observation.get "output")).take (max 128 (remaining / 4))))) candidate

def fitted (remaining : ℕ) (observation : Dict) : Except Failure Dict :=
  if size style (.obj observation) ≤ remaining then .ok observation
  else do
    let candidate ← boundedCompilerFocus style observation (remaining - 4)
    let candidate ← shortenContract style candidate (remaining - 140)
    return if size style (.obj candidate) ≤ remaining then candidate else truncated style remaining observation

structure State where
  selected : List Dict
  used : ℕ
  omitted : ℕ

def State.omit (s : State) : State := { s with omitted := s.omitted + 1 }

def place (available : ℕ) (s : State) (observation : Dict) : Except Failure State :=
  let remaining := available - s.used - 2
  if remaining < 256 then .ok s.omit
  else do
    let candidate ← fitted style remaining observation
    return if available < s.used + size style (.obj candidate) + 2 then s.omit
      else ⟨candidate :: s.selected, s.used + size style (.obj candidate) + 2, s.omitted⟩

def choose (available : ℕ) : List Dict → Except Failure State
  | [] => .ok ⟨[], 2, 0⟩
  | observation :: newer => do place style available (← choose available newer) observation

def checkpoint (omitted : ℕ) : Dict :=
  [("tool", .str "context_checkpoint"), ("omitted_observations", .int omitted),
    ("instruction", .str "Older evidence was omitted. Re-read affected files before relying on their contents.")]

def reserve (maxChars : ℕ) : ℕ := min 2048 (maxChars / 8)

def shown (s : State) : List Value := (if s.omitted = 0 then s.selected else checkpoint s.omitted :: s.selected).map .obj

def renderObservations (observations : List Dict) (maxChars : ℕ) : Except Failure String := do
  require (1024 ≤ maxChars) .budgetTooSmall
  let s ← choose style (maxChars - reserve maxChars) observations
  let result := encode style (.arr (shown s))
  require (result.length ≤ maxChars) .budgetExceeded
  return String.ofList result

end PromptForge.ObservationContext
