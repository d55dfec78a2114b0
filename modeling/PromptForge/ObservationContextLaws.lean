import Mathlib.Data.List.ReduceOption
import PromptForge.JsonTextLaws
import PromptForge.ObservationContext

namespace PromptForge.ObservationContext
open Json JsonText Numbers Runs

variable {style : Style}

lemma length_writeItems {items : List Value} (hne : items ≠ []) :
    (writeItems (spaced style) items).length + 2 = (items.map fun v => (write (spaced style) v).length + 2).sum := by
  induction items with
  | nil => exact absurd rfl hne
  | cons v items ih =>
    cases items with
    | nil => simp [writeItems]
    | cons w items =>
      have h := ih (by simp)
      have hgap : (spaced style).gap = [' '] := rfl
      rw [List.map_cons, List.sum_cons, ← h, writeItems, hgap]
      · simp only [List.length_append, List.length_cons, List.length_nil]
        omega
      · simp

lemma size_arr {items : List Value} (hne : items ≠ []) : size style (.arr items) = (items.map fun v => size style v + 2).sum := by
  have hcanon : canonItems items ≠ [] := by
    rw [canonItems_eq_map]
    simpa using hne
  have h := @length_writeItems style _ hcanon
  rw [canonItems_eq_map, List.map_map] at h
  have hwrite : size style (.arr items) = (writeItems (spaced style) (items.map canon)).length + 2 := by
    rw [← canonItems_eq_map]
    exact (List.length_cons ..).trans (by rw [List.length_append]; rfl)
  rw [hwrite, h]
  rfl

lemma size_nil : size style (.arr []) = 2 := rfl

variable {key : String}

lemma proper_set {d : Dict} {v : Value} (hd : Proper (.obj d)) (hv : Proper v) : Proper (.obj (Dict.set key v d)) := by
  refine ⟨Tables.nodup_replaceRow hd.1 (key, v), properEntries_iff.mpr fun entry hentry => ?_⟩
  rcases mem_concat.1 hentry with hold | rfl
  · exact properEntries_iff.mp hd.2 entry (List.mem_of_mem_filter hold)
  · exact hv

lemma proper_of_get? {d : Dict} {v : Value} (hd : Proper (.obj d)) (h : d.get? key = some v) : Proper v :=
  properEntries_iff.mp hd.2 _ (Dict.mem_of_get? h)

lemma keys_pick (keys : List String) (d : Dict) : ((pick keys d).map Prod.fst).Sublist keys := by
  induction keys with
  | nil => exact List.Sublist.refl _
  | cons key keys ih =>
    unfold pick at ih ⊢
    rw [List.filterMap_cons]
    cases d.get? key with
    | none => exact ih.cons key
    | some v => exact ih.cons_cons key

lemma proper_pick {keys : List String} {d : Dict} (hkeys : keys.Nodup) (hd : Proper (.obj d)) : Proper (.obj (pick keys d)) := by
  refine ⟨hkeys.sublist (keys_pick keys d), properEntries_iff.mpr fun entry hentry => ?_⟩
  obtain ⟨key, -, hentry⟩ := List.mem_filterMap.mp hentry
  obtain ⟨v, hv, rfl⟩ := Option.map_eq_some_iff.mp hentry
  exact proper_of_get? hd hv

lemma get?_pick {keys : List String} {d : Dict} (hkeys : keys.Nodup) (hkey : key ∈ keys) : (pick keys d).get? key = d.get? key := by
  cases hv : d.get? key with
  | none =>
    rw [Dict.get?_eq_none]
    intro entry hentry hsame
    obtain ⟨key', -, hentry⟩ := List.mem_filterMap.mp hentry
    obtain ⟨v, hv', rfl⟩ := Option.map_eq_some_iff.mp hentry
    rw [← hsame, hv'] at hv
    cases hv
  | some v => exact Dict.get?_of_mem (hkeys.sublist (keys_pick keys d)) (List.mem_filterMap.mpr ⟨key, hkey, by rw [hv]; rfl⟩)

lemma proper_items {d : Dict} (hd : Proper (.obj d)) (key : String) : ∀ v ∈ itemsOf d key, Proper v := by
  unfold itemsOf
  split
  · rename_i items hitems
    exact properItems_iff.mp (proper_of_get? hd hitems)
  · simp

section Loop
variable {fits : Dict → Bool} {round : Dict → Except Failure (Option Dict)} {weight : Dict → ℕ}
  {hless : ∀ {d d'}, round d = .ok (some d') → weight d' < weight d} {d d' : Dict}

inductive ComesTo (fits : Dict → Bool) (round : Dict → Except Failure (Option Dict)) : Dict → Dict → Prop where
  | here (d : Dict) : ComesTo fits round d d
  | later {d d' d'' : Dict} (hlarge : fits d = false) (hround : round d = .ok (some d')) (hrest : ComesTo fits round d' d'') : ComesTo fits round d d''

lemma rounds_keeps {P : Dict → Prop} (hround : ∀ d d', P d → round d = .ok (some d') → P d') (hd : P d) (h : rounds fits round weight hless d = .ok d') :
    P d' := by
  induction d using rounds.induct fits round weight hless with
  | case1 d hfits =>
    rw [rounds, if_pos hfits] at h
    cases h
    exact hd
  | case2 d hfits failure hfailure =>
    rw [rounds, if_neg hfits] at h
    split at h <;> simp_all
  | case3 d hfits hnone =>
    rw [rounds, if_neg hfits] at h
    split at h <;> simp_all
  | case4 d hfits next hnext ih =>
    rw [rounds, if_neg hfits] at h
    split at h
    · simp_all
    · simp_all
    · rename_i other hother
      cases hnext.symm.trans hother
      exact ih (hround d next hd hnext) h

lemma rounds_ok_iff : (∃ d', rounds fits round weight hless d = .ok d') ↔
    ∀ d', ComesTo fits round d d' → fits d' = false → ∃ next, round d' = .ok next := by
  induction d using rounds.induct fits round weight hless with
  | case1 d hfits =>
    rw [rounds, if_pos hfits]
    refine ⟨fun _ d' hcomes hlarge => ?_, fun _ => ⟨d, rfl⟩⟩
    cases hcomes with
    | here => simp_all
    | later hlarge => simp_all
  | case2 d hfits failure hfailure =>
    rw [rounds, if_neg hfits]
    constructor
    · rintro ⟨d', h⟩
      split at h <;> simp_all
    · intro hall
      obtain ⟨next, hnext⟩ := hall d (.here d) (by simpa using hfits)
      cases hfailure.symm.trans hnext
  | case3 d hfits hnone =>
    rw [rounds, if_neg hfits]
    refine ⟨fun _ d' hcomes hlarge => ?_, fun _ => ⟨d, by split <;> simp_all⟩⟩
    cases hcomes with
    | here => exact ⟨none, hnone⟩
    | later _ hround => cases hnone.symm.trans hround
  | case4 d hfits next hnext ih =>
    have hstep : rounds fits round weight hless d = rounds fits round weight hless next := by
      rw [rounds, if_neg hfits]
      split <;> simp_all
    rw [hstep, ih]
    constructor
    · intro hall d' hcomes hlarge
      cases hcomes with
      | here => exact ⟨some next, hnext⟩
      | later _ hround hrest =>
        cases hnext.symm.trans hround
        exact hall d' hrest hlarge
    · exact fun hall d' hcomes => hall d' (.later (by simpa using hfits) hnext hcomes)

end Loop

def Counts (found : Option Value) : Prop := ∀ v, found = some v → (number? v).isSome = true

structure FocusTyped (output : Dict) : Prop where
  sources : (∀ source ∈ itemsOf output "current_sources", preview? source = none) → 1 < (itemsOf output "current_sources").length →
    Counts (output.get? "omitted_source_count")
  diagnostics : (∀ source ∈ itemsOf output "current_sources", preview? source = none) → (itemsOf output "current_sources").length ≤ 1 →
    1 < (itemsOf output "diagnostics").length → Counts (output.get? "omitted_diagnostic_count")

def hasLength : Value → Bool
  | .str _ | .arr _ | .obj _ => true
  | _ => false

def sourceLength? (header : Value) : Option ℕ := (sourceSize? header).toOption.join

/-- The headers can be passed, the sources that count as true have a length, and the longest is a text. -/
structure ContractTyped (output : Dict) : Prop where
  headers : ∀ v, output.get? "headers" = some v → hasLength v = true
  sources : ∀ header, Value.obj header ∈ itemsOf output "headers" → truthy (Dict.get header "numbered_source") = true →
    hasLength (Dict.get header "numbered_source") = true
  longest : ∀ place header, largest ((itemsOf output "headers").map sourceLength?) = some place →
    (itemsOf output "headers")[place]? = some (.obj header) → ∃ text, Dict.get header "numbered_source" = .str text

lemma increment_ok {found : Option Value} : (∃ count, increment found = .ok count) ↔ Counts found := by
  unfold Counts
  cases found with
  | none => simp [increment]
  | some v => cases v <;> simp [increment, number?]

variable {output : Dict}

lemma popItem_ok {counter : String} : (∃ next, (popItem key counter output).map some = .ok next) ↔ Counts (output.get? counter) := by
  rw [← increment_ok]
  unfold popItem
  cases increment (output.get? counter) <;> simp [Except.map]

lemma largest_eq_none {sizes : List (Option ℕ)} : largest sizes = none ↔ ∀ n ∈ sizes, n = none := by
  constructor
  · intro h n hn
    cases n with
    | none => rfl
    | some n =>
      have hmem : n ∈ sizes.reduceOption := List.reduceOption_mem_iff.mpr hn
      obtain ⟨most, hmost⟩ := Option.isSome_iff_exists.mp (List.isSome_max?_of_mem hmem)
      unfold largest at h
      rw [hmost, Option.bind_some, List.findIdx?_eq_none_iff] at h
      have hfound := h (some most) (List.reduceOption_mem_iff.mp (List.max?_mem hmost))
      simp at hfound
  · intro h
    have hempty : sizes.reduceOption = [] := List.eq_nil_iff_forall_not_mem.mpr fun n hn => by
      cases h _ (List.reduceOption_mem_iff.mp hn)
    simp [largest, hempty]

lemma focusRound_ok : (∃ next, focusRound output = .ok next) ↔ FocusTyped output := by
  unfold focusRound
  cases hplace : largest ((itemsOf output "current_sources").map fun source => (preview? source).map List.length) with
  | some place =>
    obtain ⟨n, hn⟩ := mem_of_largest hplace
    rw [List.getElem?_map, Option.map_eq_some_iff] at hn
    obtain ⟨source, hsource, hsize⟩ := hn
    have hsome : ¬ ∀ source ∈ itemsOf output "current_sources", preview? source = none := fun hall => by
      rw [hall source (List.mem_of_getElem? hsource)] at hsize
      cases hsize
    simp only [hplace]
    exact ⟨fun _ => ⟨fun hall => absurd hall hsome, fun hall => absurd hall hsome⟩, fun _ => ⟨_, rfl⟩⟩
  | none =>
    have hall : ∀ source ∈ itemsOf output "current_sources", preview? source = none := fun source hsource => by
      simpa using largest_eq_none.mp hplace _ (List.mem_map_of_mem hsource)
    simp only [hplace]
    split
    · rename_i hsources
      rw [popItem_ok]
      exact ⟨fun h => ⟨fun _ _ => h, fun _ hfew => by omega⟩, fun h => h.sources hall hsources⟩
    · rename_i hsources
      split
      · rename_i hdiagnostics
        rw [popItem_ok]
        exact ⟨fun h => ⟨fun _ hmany => by omega, fun _ _ _ => h⟩, fun h => h.diagnostics hall (by omega) hdiagnostics⟩
      · rename_i hdiagnostics
        exact ⟨fun _ => ⟨fun _ hmany => by omega, fun _ _ hmany => by omega⟩, fun _ => ⟨none, rfl⟩⟩

lemma headersOf_ok : (∃ headers, headersOf output = .ok headers) ↔ ∀ v, output.get? "headers" = some v → hasLength v = true := by
  unfold headersOf
  cases output.get? "headers" with
  | none => simp
  | some v => cases v <;> simp [hasLength]

lemma sourceSize_ok {header : Value} : (∃ n, sourceSize? header = .ok n) ↔
    ∀ fields, header = .obj fields → truthy (Dict.get fields "numbered_source") = true → hasLength (Dict.get fields "numbered_source") = true := by
  cases header with
  | obj fields =>
    simp only [sourceSize?, Value.obj.injEq, forall_eq']
    generalize Dict.get fields "numbered_source" = source
    by_cases htruthy : truthy source = true
    · rw [if_pos htruthy]
      cases source <;> simp [hasLength, htruthy]
    · simp [htruthy]
  | _ => simp [sourceSize?]

lemma shortenSource_ok {header : Value} : (∃ shortened, shortenSource header = .ok shortened) ↔
    ∀ fields, header = .obj fields → ∃ text, Dict.get fields "numbered_source" = .str text := by
  cases header with
  | obj fields =>
    simp only [shortenSource, Value.obj.injEq, forall_eq']
    cases Dict.get fields "numbered_source" <;> simp
  | _ => simp [shortenSource]

lemma lengths_of_sizes {headers : List Value} {sizes : List (Option ℕ)} (h : headers.mapM sourceSize? = .ok sizes) :
    headers.map sourceLength? = sizes := by
  have hsame : List.Forall₂ (fun header size => sourceLength? header = size) headers sizes :=
    (mapM_iff.mp h).imp fun header size hsize => by simp [sourceLength?, hsize, Except.toOption]
  rwa [← List.forall₂_map_left_iff, List.forall₂_eq_eq_eq] at hsame

lemma contractRound_ok : (∃ next, contractRound output = .ok next) ↔ ContractTyped output := by
  constructor
  · rintro ⟨next, h⟩
    obtain ⟨headers, hheaders, h⟩ := ok_of_bind h
    obtain ⟨sizes, hsizes, h⟩ := ok_of_bind h
    have hitems := headersOf_items hheaders
    have hlengths := lengths_of_sizes hsizes
    refine ⟨headersOf_ok.mp ⟨headers, hheaders⟩, fun header hmem => ?_, fun place header hplace hheader => ?_⟩
    · rw [hitems] at hmem
      obtain ⟨size, -, hsize⟩ := (mapM_mem hsizes).2 _ hmem
      exact sourceSize_ok.mp ⟨size, hsize⟩ header rfl
    · rw [hitems, hlengths] at hplace
      rw [hitems] at hheader
      simp only [hplace] at h
      obtain ⟨shortened, hshortened, -⟩ := ok_of_bind h
      rw [List.getD_eq_getElem?_getD, hheader, Option.getD_some] at hshortened
      exact shortenSource_ok.mp ⟨shortened, hshortened⟩ header rfl
  · intro h
    obtain ⟨headers, hheaders⟩ := headersOf_ok.mpr h.headers
    have hitems := headersOf_items hheaders
    obtain ⟨sizes, hsizes⟩ := @mapM_exists _ _ _ sourceSize? headers fun header hmem => sourceSize_ok.mpr fun fields hfields => by
      subst hfields
      exact h.sources fields (hitems ▸ hmem)
    have hlengths := lengths_of_sizes hsizes
    unfold contractRound
    rw [bind_ok hheaders, bind_ok hsizes]
    cases hplace : largest sizes with
    | none => exact ⟨none, rfl⟩
    | some place =>
      have hlt : place < headers.length := by
        obtain ⟨n, hn⟩ := mem_of_largest hplace
        rw [(mapM_iff.mp hsizes).length_eq]
        exact (List.getElem?_eq_some_iff.mp hn).1
      have hheader : headers[place]? = some headers[place] := List.getElem?_eq_getElem hlt
      obtain ⟨shortened, hshortened⟩ := shortenSource_ok.mpr fun fields (hfields : headers[place] = .obj fields) =>
        h.longest place fields (by rw [hitems, hlengths, hplace]) (by rw [hitems, hheader, hfields])
      have hgetD : headers.getD place .null = headers[place] := by rw [List.getD_eq_getElem?_getD, hheader, Option.getD_some]
      rw [← hgetD] at hshortened
      exact ⟨_, bind_ok hshortened _⟩

lemma proper_shortenPreview {v : Value} (h : Proper v) : Proper (shortenPreview v) := by
  cases v with
  | obj source => exact proper_set (proper_set h trivial) trivial
  | _ => exact h

lemma proper_increment {found : Option Value} {count : Value} (h : increment found = .ok count) : Proper count := by
  unfold increment at h
  split at h <;> cases h
  · trivial
  · trivial
  · trivial
  · exact nearest_nearest _

lemma proper_popItem {counter : String} {next : Dict} (hd : Proper (.obj output)) (h : popItem key counter output = .ok next) :
    Proper (.obj next) := by
  obtain ⟨count, hcount, rfl⟩ := ok_of_map h
  refine proper_set (proper_set hd (properItems_iff.mpr fun v hv => ?_)) (proper_increment hcount)
  exact proper_items hd key v (List.dropLast_subset _ hv)

lemma proper_focusRound {next : Dict} (hd : Proper (.obj output)) (h : focusRound output = .ok (some next)) : Proper (.obj next) := by
  rcases focusRound_cases h with ⟨place, source, preview, hsource, hpreview, rfl⟩ | ⟨-, hpop⟩ | ⟨-, hpop⟩
  · refine proper_set hd (properItems_iff.mpr fun v hv => ?_)
    obtain ⟨i, hi, rfl⟩ := List.mem_iff_getElem.mp hv
    rw [List.getElem_modify]
    have hmem := proper_items hd "current_sources" _ (List.getElem_mem (by simpa using hi))
    split
    · exact proper_shortenPreview hmem
    · exact hmem
  · exact proper_popItem hd hpop
  · exact proper_popItem hd hpop

lemma proper_shortenSource {header shortened : Value} (hd : Proper header) (h : shortenSource header = .ok shortened) : Proper shortened := by
  cases header with
  | obj header =>
    dsimp only [shortenSource] at h
    split at h
    · cases h
      exact proper_set (proper_set hd trivial) trivial
    · cases h
  | _ =>
    cases h
    exact hd

lemma proper_contractRound {next : Dict} (hd : Proper (.obj output)) (h : contractRound output = .ok (some next)) : Proper (.obj next) := by
  obtain ⟨place, header, shortened, n, hheader, -, hshortened, rfl⟩ := contractRound_cases h
  have hproper := proper_items hd "headers"
  refine proper_set hd (properItems_iff.mpr fun v hv => ?_)
  rcases List.mem_or_eq_of_mem_set hv with hold | rfl
  · exact hproper v hold
  · exact proper_shortenSource (hproper header (List.mem_of_getElem? hheader)) hshortened

/-- A record shows an observation: what it says of the call, its tool and its result is the same. -/
def Shows (observation candidate : Dict) : Prop := ∀ key ∈ recordKeys, candidate.get? key = observation.get? key

lemma shows_output {observation : Dict} (v : Value) : Shows observation (Dict.set "output" v observation) := by
  intro key hkey
  rw [Dict.get?_set, if_neg]
  rintro rfl
  simp [recordKeys] at hkey

variable {candidate : Dict}

lemma output_of_focus (h : focusOutput? candidate = .ok (some output)) :
    candidate.get? "output" = some (.obj output) ∧ ∃ tool, candidate.get "tool" = .str tool ∧ tool ∈ ["compiler_repair_focus", "linker_repair_focus"] := by
  unfold focusOutput? at h
  split at h
  · cases h
  · cases h
  · rename_i tool htool
    split at h
    · rename_i output' houtput
      split at h
      · rename_i hfocus
        cases h
        exact ⟨houtput, tool, htool, hfocus.1⟩
      · cases h
    · cases h
  · cases h

lemma output_of_contract (h : contractOutput? candidate = some output) :
    candidate.get? "output" = some (.obj output) ∧ candidate.get "tool" = .str "source_contract_focus" := by
  unfold contractOutput? at h
  split at h
  · rename_i htool houtput
    cases h
    exact ⟨houtput, htool⟩
  · cases h

variable {maxChars : ℕ}

lemma kept_by_focus {observation : Dict} (h : boundedCompilerFocus style observation maxChars = .ok candidate) :
    Shows observation candidate ∧ (Proper (.obj observation) → Proper (.obj candidate)) := by
  obtain ⟨found, hfound, h⟩ := ok_of_bind h
  cases found with
  | none =>
    cases h
    exact ⟨fun _ _ => rfl, id⟩
  | some output =>
    obtain ⟨result, hresult, rfl⟩ := ok_of_map h
    refine ⟨shows_output _, fun hproper => proper_set hproper ?_⟩
    exact rounds_keeps (fun d d' hd => proper_focusRound hd) (proper_of_get? hproper (output_of_focus hfound).1) hresult

lemma kept_by_contract {observation : Dict} (h : shortenContract style observation maxChars = .ok candidate) :
    Shows observation candidate ∧ (Proper (.obj observation) → Proper (.obj candidate)) := by
  unfold shortenContract at h
  cases hfound : contractOutput? observation with
  | none =>
    simp only [hfound] at h
    cases h
    exact ⟨fun _ _ => rfl, id⟩
  | some output =>
    simp only [hfound] at h
    obtain ⟨result, hresult, rfl⟩ := ok_of_map h
    refine ⟨shows_output _, fun hproper => proper_set hproper ?_⟩
    exact rounds_keeps (fun d d' hd => proper_contractRound hd) (proper_of_get? hproper (output_of_contract hfound).1) hresult

lemma kept_by_truncated (remaining : ℕ) (observation : Dict) :
    Shows observation (truncated style remaining observation) ∧ (Proper (.obj observation) → Proper (.obj (truncated style remaining observation))) := by
  constructor
  · intro key hkey
    have hnot : key ≠ "output_preview" ∧ key ≠ "evidence" ∧ key ≠ "output_truncated" := by
      simp only [recordKeys, List.mem_cons, List.not_mem_nil, or_false] at hkey
      rcases hkey with rfl | rfl | rfl | rfl <;> decide
    have hpick : (pick recordKeys observation).get? key = observation.get? key := get?_pick (by decide) hkey
    unfold truncated
    rw [Dict.get?_set, if_neg hnot.1]
    split
    · rw [Dict.get?_set, if_neg hnot.2.1, Dict.get?_set, if_neg hnot.2.2, hpick]
    · rw [Dict.get?_set, if_neg hnot.2.2, hpick]
  · intro hproper
    have hpick : Proper (.obj (Dict.set "output_truncated" (.bool true) (pick recordKeys observation))) :=
      proper_set (proper_pick (by decide) hproper) trivial
    unfold truncated
    refine proper_set ?_ trivial
    split
    · rename_i output houtput
      exact proper_set hpick (proper_pick (by decide) (proper_of_get? hproper houtput))
    · exact hpick

lemma kept_by_fitted {remaining : ℕ} {observation : Dict} (h : fitted style remaining observation = .ok candidate) :
    Shows observation candidate ∧ (Proper (.obj observation) → Proper (.obj candidate)) := by
  unfold fitted at h
  split at h
  · cases h
    exact ⟨fun _ _ => rfl, id⟩
  · obtain ⟨focused, hfocused, h⟩ := ok_of_bind h
    obtain ⟨shortened, hshortened, h⟩ := ok_of_bind h
    obtain ⟨hshows, hproper⟩ := kept_by_focus hfocused
    obtain ⟨hshows', hproper'⟩ := kept_by_contract hshortened
    cases h
    split
    · exact ⟨fun key hkey => (hshows' key hkey).trans (hshows key hkey), hproper' ∘ hproper⟩
    · exact kept_by_truncated remaining observation

def hashable : Value → Bool
  | .arr _ | .obj _ => false
  | _ => true

structure Shortens (style : Style) (remaining : ℕ) (observation : Dict) : Prop where
  tool : hashable (observation.get "tool") = true
  focus : ∀ output, focusOutput? observation = .ok (some output) →
    ∀ output', ComesTo (fun output => size style (.obj (Dict.set "output" (.obj output) observation)) ≤ remaining - 4) focusRound output output' →
      remaining - 4 < size style (.obj (Dict.set "output" (.obj output') observation)) → FocusTyped output'
  contract : ∀ output, contractOutput? observation = some output →
    ∀ output', ComesTo (fun output => size style (.obj output) ≤ remaining - 140) contractRound output output' →
      remaining - 140 < size style (.obj output') → ContractTyped output'

lemma focusOutput_ok {observation : Dict} : (∃ found, focusOutput? observation = .ok found) ↔ hashable (observation.get "tool") = true := by
  unfold focusOutput?
  cases observation.get "tool" with
  | str tool =>
    simp only [hashable, iff_true]
    split
    · split
      · exact ⟨_, rfl⟩
      · exact ⟨_, rfl⟩
    · exact ⟨_, rfl⟩
  | _ => simp [hashable]

lemma focus_ok {observation : Dict} (hfound : focusOutput? observation = .ok (some output)) :
    (∃ candidate, boundedCompilerFocus style observation maxChars = .ok candidate) ↔
      ∀ output', ComesTo (fun output => size style (.obj (Dict.set "output" (.obj output) observation)) ≤ maxChars) focusRound output output' →
        maxChars < size style (.obj (Dict.set "output" (.obj output') observation)) → FocusTyped output' := by
  unfold boundedCompilerFocus
  rw [bind_ok hfound]
  dsimp only
  rw [map_ok, rounds_ok_iff]
  simp only [focusRound_ok, decide_eq_false_iff_not, not_le]

lemma contract_ok (hfound : contractOutput? candidate = some output) :
    (∃ shortened, shortenContract style candidate maxChars = .ok shortened) ↔
      ∀ output', ComesTo (fun output => size style (.obj output) ≤ maxChars) contractRound output output' →
        maxChars < size style (.obj output') → ContractTyped output' := by
  unfold shortenContract shrinkSourceContracts
  simp only [hfound]
  rw [map_ok, rounds_ok_iff]
  simp only [contractRound_ok, decide_eq_false_iff_not, not_le]

lemma contract_of_focus {observation : Dict} (hfound : focusOutput? observation = .ok (some output))
    (hshows : Shows observation candidate) : contractOutput? candidate = none := by
  obtain ⟨-, tool, htool, hmem⟩ := output_of_focus hfound
  have hsame : candidate.get "tool" = .str tool := by rw [← htool, Dict.get_congr (hshows "tool" (by decide))]
  cases hcontract : contractOutput? candidate with
  | none => rfl
  | some output' =>
    have hcontract := (output_of_contract hcontract).2
    rw [hsame] at hcontract
    cases hcontract
    simp at hmem

lemma fitted_ok {remaining : ℕ} {observation : Dict} : (∃ candidate, fitted style remaining observation = .ok candidate) ↔
    size style (.obj observation) ≤ remaining ∨ Shortens style remaining observation := by
  unfold fitted
  by_cases hfits : size style (.obj observation) ≤ remaining
  · simp [hfits]
  rw [if_neg hfits, or_iff_right hfits]
  constructor
  · rintro ⟨candidate, h⟩
    obtain ⟨focused, hfocused, h⟩ := ok_of_bind h
    obtain ⟨shortened, hshortened, -⟩ := ok_of_bind h
    obtain ⟨found, hfound, hrest⟩ := ok_of_bind hfocused
    refine ⟨focusOutput_ok.mp ⟨found, hfound⟩, fun output houtput => (focus_ok houtput).mp ⟨focused, hfocused⟩, fun output houtput => ?_⟩
    cases found with
    | none =>
      cases hrest
      exact (contract_ok houtput).mp ⟨shortened, hshortened⟩
    | some focus =>
      rw [contract_of_focus hfound fun _ _ => rfl] at houtput
      cases houtput
  · intro h
    obtain ⟨found, hfound⟩ := focusOutput_ok.mpr h.tool
    cases found with
    | none =>
      have hfocused : boundedCompilerFocus style observation (remaining - 4) = .ok observation := by
        unfold boundedCompilerFocus
        rw [bind_ok hfound]
        rfl
      have hshortened : ∃ shortened, shortenContract style observation (remaining - 140) = .ok shortened := by
        cases hcontract : contractOutput? observation with
        | none => exact ⟨observation, by simp [shortenContract, hcontract]⟩
        | some output => exact (contract_ok hcontract).mpr (h.contract output hcontract)
      obtain ⟨shortened, hshortened⟩ := hshortened
      rw [bind_ok hfocused, bind_ok hshortened]
      exact ⟨_, rfl⟩
    | some output =>
      obtain ⟨focused, hfocused⟩ := (focus_ok hfound).mpr (h.focus output hfound)
      have hshortened : shortenContract style focused (remaining - 140) = .ok focused := by
        simp [shortenContract, contract_of_focus hfound (kept_by_focus hfocused).1]
      rw [bind_ok hfocused, bind_ok hshortened]
      exact ⟨_, rfl⟩

variable {available : ℕ} {s s' : State} {observation : Dict} {observations : List Dict}

lemma place_cases (h : place style available s observation = .ok s') : s' = s.omit ∨
    ∃ candidate, fitted style (available - s.used - 2) observation = .ok candidate ∧ s.used + size style (.obj candidate) + 2 ≤ available ∧
      s' = ⟨candidate :: s.selected, s.used + size style (.obj candidate) + 2, s.omitted⟩ := by
  unfold place at h
  dsimp only at h
  split at h
  · cases h
    exact .inl rfl
  · obtain ⟨candidate, hcandidate, h⟩ := ok_of_bind h
    cases h
    split
    · exact .inl rfl
    · rename_i hroom
      exact .inr ⟨candidate, hcandidate, by omega, rfl⟩

structure Chosen (style : Style) (available : ℕ) (observations : List Dict) (s : State) : Prop where
  used : s.used = 2 + (s.selected.map fun candidate => size style (.obj candidate) + 2).sum
  within : s.used ≤ max 2 available
  count : s.selected.length + s.omitted = observations.length
  order : ∃ kept, kept.Sublist observations ∧ List.Forall₂ Shows kept s.selected
  proper : (∀ observation ∈ observations, Proper (.obj observation)) → ∀ candidate ∈ s.selected, Proper (.obj candidate)

lemma chosen_of_choose (h : choose style available observations = .ok s) : Chosen style available observations s := by
  induction observations generalizing s with
  | nil =>
    cases h
    exact ⟨rfl, le_max_left .., rfl, ⟨[], List.Sublist.refl _, .nil⟩, by simp⟩
  | cons observation newer ih =>
    obtain ⟨before, hbefore, hplace⟩ := ok_of_bind h
    have hchosen := ih hbefore
    obtain ⟨kept, hsublist, hshows⟩ := hchosen.order
    rcases place_cases hplace with rfl | ⟨candidate, hcandidate, hroom, rfl⟩
    · refine ⟨hchosen.used, hchosen.within, ?_, ⟨kept, hsublist.cons _, hshows⟩, fun hproper => ?_⟩
      · have hcount := hchosen.count
        simp only [State.omit, List.length_cons]
        omega
      · exact hchosen.proper fun other hother => hproper other (List.mem_cons_of_mem _ hother)
    · obtain ⟨hshow, hkeeps⟩ := kept_by_fitted hcandidate
      refine ⟨?_, ?_, ?_, ⟨observation :: kept, hsublist.cons_cons _, .cons hshow hshows⟩, fun hproper => ?_⟩
      · simp only [hchosen.used, List.map_cons, List.sum_cons]
        omega
      · exact hroom.trans (le_max_right ..)
      · have hcount := hchosen.count
        simp only [List.length_cons]
        omega
      · obtain ⟨hfirst, hrest⟩ := List.forall_mem_cons.mp hproper
        exact List.forall_mem_cons.mpr ⟨hkeeps hfirst, hchosen.proper hrest⟩

/-- Each observation that is too large for the space that remains at its turn can be shortened. -/
def Meets (style : Style) (available : ℕ) : List Dict → Prop
  | [] => True
  | observation :: newer => Meets style available newer ∧ ∀ s, choose style available newer = .ok s → 256 ≤ available - s.used - 2 →
      available - s.used - 2 < size style (.obj observation) → Shortens style (available - s.used - 2) observation

lemma place_ok : (∃ s', place style available s observation = .ok s') ↔ (256 ≤ available - s.used - 2 →
    available - s.used - 2 < size style (.obj observation) → Shortens style (available - s.used - 2) observation) := by
  have hfitted := @fitted_ok style (available - s.used - 2) observation
  unfold place
  dsimp only
  split
  · rename_i hfew
    exact ⟨fun _ hmany => by omega, fun _ => ⟨_, rfl⟩⟩
  · rename_i hmany
    constructor
    · rintro ⟨s', h⟩ - hlarge
      obtain ⟨candidate, hcandidate, -⟩ := ok_of_bind h
      exact (hfitted.mp ⟨candidate, hcandidate⟩).resolve_left (by omega)
    · intro h
      obtain ⟨candidate, hcandidate⟩ := hfitted.mpr (or_iff_not_imp_left.mpr fun hlarge => h (by omega) (by omega))
      exact ⟨_, bind_ok hcandidate _⟩

lemma choose_ok : (∃ s, choose style available observations = .ok s) ↔ Meets style available observations := by
  induction observations with
  | nil => exact ⟨fun _ => trivial, fun _ => ⟨_, rfl⟩⟩
  | cons observation newer ih =>
    constructor
    · rintro ⟨s', h⟩
      obtain ⟨s, hs, hplace⟩ := ok_of_bind h
      refine ⟨ih.mp ⟨s, hs⟩, fun other hother => ?_⟩
      cases hs.symm.trans hother
      exact place_ok.mp ⟨s', hplace⟩
    · rintro ⟨hnewer, hturn⟩
      obtain ⟨s, hs⟩ := ih.mpr hnewer
      obtain ⟨s', hs'⟩ := place_ok.mpr (hturn s hs)
      exact ⟨s', (bind_ok hs _).trans hs'⟩

structure Observation where
  fields : Dict
  proper : Proper (.obj fields)

def Room (style : Style) (observations : List Observation) (maxChars : ℕ) : Prop :=
  ∀ s, choose style (maxChars - reserve maxChars) (observations.map Observation.fields) = .ok s →
    s.omitted = 0 ∨ s.used + size style (.obj (checkpoint s.omitted)) ≤ maxChars

/-- The text is a JSON list that fits: the records of some of the observations, in their order, and
    first the number of the others. -/
def Renders (style : Style) (observations : List Observation) (maxChars : ℕ) : Prop :=
  ∃ text s kept, renderObservations style (observations.map Observation.fields) maxChars = .ok text ∧ text.length ≤ maxChars ∧
    loads text = some (.arr ((shown s).map canon)) ∧ kept.Sublist (observations.map Observation.fields) ∧ List.Forall₂ Shows kept s.selected ∧
    s.selected.length + s.omitted = observations.length

lemma size_shown {fields : List Dict} (h : Chosen style available fields s) :
    size style (.arr (shown s)) = if s.omitted = 0 then max 2 (s.used - 2) else s.used + size style (.obj (checkpoint s.omitted)) := by
  have hused := h.used
  have hsum : ((s.selected.map Value.obj).map fun v => size style v + 2).sum = (s.selected.map fun candidate => size style (.obj candidate) + 2).sum := by
    rw [List.map_map]
    rfl
  unfold shown
  split
  · cases hselected : s.selected with
    | nil =>
      rw [hselected] at hused
      simp [hused, size_nil]
    | cons candidate rest =>
      rw [← hselected, size_arr (by simp [hselected]), hsum]
      simp only [hselected, List.map_cons, List.sum_cons] at hused ⊢
      omega
  · rw [List.map_cons, size_arr (by simp), List.map_cons, List.sum_cons, hsum]
    omega

lemma proper_checkpoint (omitted : ℕ) : Proper (.obj (checkpoint omitted)) := ⟨by simp [checkpoint], trivial, trivial, trivial, trivial⟩

lemma proper_shown {fields : List Dict} (h : Chosen style available fields s) (hfields : ∀ observation ∈ fields, Proper (.obj observation)) :
    Proper (.arr (shown s)) := by
  have hselected : ∀ v ∈ s.selected.map Value.obj, Proper v := fun v hv => by
    obtain ⟨candidate, hcandidate, rfl⟩ := List.mem_map.mp hv
    exact h.proper hfields candidate hcandidate
  refine properItems_iff.mpr ?_
  unfold shown
  split
  · exact hselected
  · exact List.forall_mem_cons.mpr ⟨proper_checkpoint _, hselected⟩

lemma size_of_room {observations : List Observation} (hmin : 1024 ≤ maxChars)
    (hs : choose style (maxChars - reserve maxChars) (observations.map Observation.fields) = .ok s) :
    size style (.arr (shown s)) ≤ maxChars ↔ s.omitted = 0 ∨ s.used + size style (.obj (checkpoint s.omitted)) ≤ maxChars := by
  have hchosen := chosen_of_choose hs
  have hwithin := hchosen.within
  rw [size_shown hchosen]
  split
  · rename_i hnone
    simp only [hnone, true_or, iff_true]
    omega
  · rename_i hsome
    simp [hsome]

lemma size_checkpoint (style : Style) (omitted : ℕ) : size style (.obj (checkpoint omitted)) = 159 + (Nat.toDigits 10 omitted).length := by
  have hcanon : canon (.obj (checkpoint omitted)) = .obj (checkpoint omitted).reverse := by simp [canon, canonEntries, sortEntries, checkpoint]
  have hgap : (spaced style).gap = [' '] := rfl
  have hnumber : writeInt omitted = Nat.toDigits 10 omitted := by simp [writeInt]
  unfold size encode
  rw [hcanon]
  simp only [checkpoint, List.reverse_cons, List.reverse_nil, List.nil_append, List.cons_append, write, writeEntries, writeString, hgap, hnumber,
    List.length_cons, List.length_append, List.length_nil]
  have htext : ("Older evidence was omitted. Re-read affected files before relying on their contents.".toList.flatMap escapeChar).length = 84 := by
    rw [String.toList_ofList]
    decide +kernel
  have hkey : ("instruction".toList.flatMap escapeChar).length = 11 ∧ ("omitted_observations".toList.flatMap escapeChar).length = 20 ∧
      ("tool".toList.flatMap escapeChar).length = 4 ∧ ("context_checkpoint".toList.flatMap escapeChar).length = 18 := by
    repeat rw [String.toList_ofList]
    decide +kernel
  omega

lemma size_checkpoint_le (style : Style) {m n : ℕ} (h : m ≤ n) : size style (.obj (checkpoint m)) ≤ 159 + (Nat.toDigits 10 n).length := by
  have hpos : 0 < (Nat.toDigits 10 n).length := Nat.length_toDigits_pos
  have hlt : n < 10 ^ (Nat.toDigits 10 n).length := (Nat.length_toDigits_le_iff (by decide) hpos).mp (le_refl _)
  rw [size_checkpoint]
  have hdigits := (Nat.length_toDigits_le_iff (by decide) hpos).mpr (h.trans_lt hlt)
  omega

/-- The observations are rendered exactly if those that are too large at their turn can be shortened and the
    records leave room for the number of the others. -/
theorem render_exact (style : Style) (observations : List Observation) (maxChars : ℕ) :
    (Renders style observations maxChars ↔ 1024 ≤ maxChars ∧
      Meets style (maxChars - reserve maxChars) (observations.map Observation.fields) ∧ Room style observations maxChars) ∧
    (1024 ≤ maxChars → 159 + (Nat.toDigits 10 observations.length).length ≤ reserve maxChars → Room style observations maxChars) := by
  constructor
  · constructor
    · rintro ⟨text, -, -, h, -⟩
      obtain ⟨hmin, h⟩ := require_iff.mp h
      obtain ⟨s, hs, h⟩ := ok_of_bind h
      obtain ⟨hfits, -⟩ := require_iff.mp h
      refine ⟨hmin, choose_ok.mp ⟨s, hs⟩, fun other hother => ?_⟩
      cases hs.symm.trans hother
      exact (size_of_room hmin hs).mp hfits
    · rintro ⟨hmin, hmeets, hroom⟩
      obtain ⟨s, hs⟩ := choose_ok.mpr hmeets
      have hchosen := chosen_of_choose hs
      have hfits : size style (.arr (shown s)) ≤ maxChars := (size_of_room hmin hs).mpr (hroom s hs)
      obtain ⟨kept, hsublist, hshows⟩ := hchosen.order
      have hproper := proper_shown hchosen fun fields hfields => by
        obtain ⟨observation, -, rfl⟩ := List.mem_map.mp hfields
        exact observation.proper
      refine ⟨String.ofList (encode style (.arr (shown s))), s, kept, ?_, ?_, ?_, hsublist, hshows, by simpa using hchosen.count⟩
      · unfold renderObservations
        rw [require_bind hmin, bind_ok hs]
        exact require_bind hfits _ _
      · rw [String.length_ofList]
        exact hfits
      · refine (loads_dumps (spaced style) hproper).trans ?_
        rw [← canonItems_eq_map]
        rfl
  · intro hmin hreserve s hs
    have hchosen := chosen_of_choose hs
    have hcount := hchosen.count
    rw [List.length_map] at hcount
    have hsize := size_checkpoint_le style (show s.omitted ≤ observations.length by omega)
    have hwithin := hchosen.within
    have hsmall : reserve maxChars ≤ maxChars / 8 := min_le_right ..
    omega

def fileRead (n : ℕ) : Dict := [("output", .str (String.ofList (List.replicate n 'a'))), ("tool", .str "read_file")]

lemma size_fileRead (style : Style) (n : ℕ) : size style (.obj (fileRead n)) = n + 35 := by
  have hletters : (List.replicate n 'a').flatMap escapeChar = List.replicate n 'a' := by
    induction n with
    | zero => rfl
    | succ n ih => rw [List.replicate_succ, List.flatMap_cons, ih]; rfl
  have hcanon : canon (.obj (fileRead n)) = .obj (fileRead n) := by simp [canon, canonEntries, sortEntries, fileRead]
  have hgap : (spaced style).gap = [' '] := rfl
  unfold size encode
  rw [hcanon]
  simp only [fileRead, write, writeEntries, writeString, String.toList_ofList, hletters, hgap, List.length_cons, List.length_append, List.length_replicate,
    List.length_nil]
  have hkey : ("output".toList.flatMap escapeChar).length = 6 ∧ ("tool".toList.flatMap escapeChar).length = 4 ∧
      ("read_file".toList.flatMap escapeChar).length = 9 := by decide
  omega

def commas : Style := exactStyle [' '] blank_space

def readTwice : List Observation := [⟨fileRead 0, by decide, trivial, trivial, trivial⟩, ⟨fileRead 857, by decide, trivial, trivial, trivial⟩]

lemma choose_readTwice (style : Style) : choose style 896 (readTwice.map Observation.fields) = .ok ⟨[fileRead 857], 896, 1⟩ := by
  have hlast : choose style 896 [fileRead 857] = .ok ⟨[fileRead 857], 896, 0⟩ := by
    have hfits : fitted style 892 (fileRead 857) = .ok (fileRead 857) := by simp [fitted, size_fileRead]
    have hplace : place style 896 ⟨[], 2, 0⟩ (fileRead 857) = .ok ⟨[fileRead 857], 896, 0⟩ := by
      unfold place
      dsimp only
      rw [if_neg (by decide), bind_ok hfits, size_fileRead]
      rfl
    exact (bind_ok rfl _).trans hplace
  exact (bind_ok hlast _).trans rfl

/-- Two files have been read. -/
theorem readTwice_refused : renderObservations commas (readTwice.map Observation.fields) 1024 = .error .budgetExceeded ∧
    ¬ Renders commas readTwice 1024 := by
  have hsize : (encode commas (.arr (shown ⟨[fileRead 857], 896, 1⟩))).length = 1056 := by
    have hshown := size_shown (chosen_of_choose (choose_readTwice commas))
    rw [if_neg (by decide), size_checkpoint] at hshown
    exact hshown
  have hrefused : renderObservations commas (readTwice.map Observation.fields) 1024 = .error .budgetExceeded := by
    unfold renderObservations
    rw [require_bind (le_refl _)]
    refine (bind_ok (choose_readTwice commas) _).trans ?_
    simp only [hsize]
    rfl
  refine ⟨hrefused, ?_⟩
  rintro ⟨text, -, -, htext, -⟩
  cases hrefused.symm.trans htext

end PromptForge.ObservationContext
