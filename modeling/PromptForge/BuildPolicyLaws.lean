import Mathlib.Logic.Relation
import PromptForge.BuildPolicy

namespace PromptForge.BuildPolicy
open Runs Regex ShellWords
open Texts (stripChars)

variable {ini : Ini} {getenv : Text → Text} {environment : Text}

structure Checked (key value : Text) : Prop where
  name : casefold key = platform ∨ casefold key = board → fullMatch registryName (stripChars value) = true
  libraries : casefold key = libDeps → ∀ item ∈ entries value, fullMatch registryLibrary item = true
  flags : casefold key ∈ flagOptions → found unsafeFlags value = false

lemma of_checkOption {section' key value : Text} (h : checkOption section' (key, value) = .ok ())
    (hvalue : stripChars value ≠ []) : Checked key value := by
  simp only [checkOption, if_neg hvalue] at h
  obtain ⟨_, _, h⟩ := ok_of_bind h
  obtain ⟨_, hregistry, h⟩ := ok_of_bind h
  obtain ⟨_, hflags, _⟩ := ok_of_bind h
  have registry : casefold key ∈ registryOptions → registryOnly section' (casefold key) value = .ok () := by
    intro hkey
    simpa [whenever, hkey] using hregistry
  constructor
  · intro hkey
    have hr := of_require (registry (by simp only [registryOptions, List.mem_cons]; tauto))
    simpa [hkey] using hr
  · intro hkey
    have hr := of_require (registry (by simp [registryOptions, hkey]))
    simpa [hkey, libDeps, platform, board] using hr
  · exact of_require hflags

lemma mem_items {own : Options} {key value : Text} (h : (own.lookup key).or (ini.defaults.lookup key) = some value) :
    (key, value) ∈ ini.items own := by
  have mem : ∀ {options : Options} {value : Text}, options.lookup key = some value → (key, value) ∈ options := by
    intro options value h
    obtain ⟨before, after, rfl, _⟩ := List.lookup_eq_some_iff.mp h
    simp
  cases hdefault : ini.defaults.lookup key with
  | none =>
    rw [hdefault, Option.or_none] at h
    exact List.mem_append_right _ (List.mem_filter.mpr ⟨mem h, by simp [hdefault]⟩)
  | some default =>
    refine List.mem_append_left _ (List.mem_map.mpr ⟨(key, default), mem hdefault, ?_⟩)
    rw [hdefault] at h
    cases hown : own.lookup key <;> simpa [hown] using h

variable (h : validateBuildConfiguration ini = .ok ())

include h in
lemma checked_of_get {section' key value : Text}
    (hget : ini.get section' key = some value) (hvalue : stripChars value ≠ []) : Checked (lower key) value := by
  obtain ⟨own, hown, hkey⟩ := Option.bind_eq_some_iff.mp hget
  obtain ⟨before, after, hsections, _⟩ := List.lookup_eq_some_iff.mp hown
  obtain ⟨_, _, h⟩ := ok_of_bind h
  have hsection := forM_iff.mp h (section', own) (by simp [hsections])
  exact of_checkOption (forM_iff.mp hsection (lower key, value) (mem_items hkey)) hvalue

lemma drivePath_parts {word : Text} (h : drivePath word = true) :
    ∃ before c slash after, word = before ++ c :: ':' :: slash :: after ∧ isLetter c = true ∧ isSlash slash = true := by
  induction word with
  | nil => cases h
  | cons c rest ih =>
    unfold drivePath at h
    rw [Bool.or_eq_true] at h
    cases h with
    | inl here =>
      split at here
      · rename_i slash after
        rw [Bool.and_eq_true] at here
        exact ⟨[], c, slash, after, rfl, here⟩
      · cases here
    | inr later =>
      obtain ⟨before, d, slash, after, rfl, hd⟩ := ih later
      exact ⟨c :: before, d, slash, after, rfl, hd⟩

lemma parentPath_parts {word : Text} (h : parentPath word = true) :
    ∃ before slash after, word = before ++ '.' :: '.' :: slash :: after ∧ isSlash slash = true := by
  induction word with
  | nil => cases h
  | cons c rest ih =>
    unfold parentPath at h
    rw [Bool.or_eq_true] at h
    cases h with
    | inl here =>
      split at here
      · rename_i slash after
        simp only [Bool.and_eq_true, beq_iff_eq] at here
        exact ⟨[], slash, after, by rw [here.1]; rfl, here.2⟩
      · cases here
    | inr later =>
      obtain ⟨before, slash, after, rfl, hs⟩ := ih later
      exact ⟨c :: before, slash, after, rfl, hs⟩

lemma exec_pathFlag {flag : Text} (hflag : flag ∈ pathFlags) {s : Cursor} (h : '-' :: flag <+: s.rest) :
    exec (.seq (spelled ['-']) (alts (pathFlags.map spelled))) s some ≠ none := by
  obtain ⟨after, hs⟩ := h
  obtain ⟨s', hexec, hrest⟩ := exec_spelled ['-'] s (fun s => exec (alts (pathFlags.map spelled)) s some)
    ⟨flag ++ after, by simp [← hs]⟩
  intro none
  rw [exec, hexec] at none
  obtain ⟨s'', hflags, _⟩ := exec_spelled flag s' some ⟨after, by simp [hrest, ← hs]⟩
  rw [exec_alts none (List.mem_map_of_mem hflag)] at hflags
  cases hflags

lemma allowed_of_part {value before word after : Text} (h : found unsafeFlags value = false)
    (hvalue : value = before ++ word ++ after)
    (hbefore : before = [] ∨ ∃ before' c, before = before' ++ [c] ∧ Texts.isSpace c = true) : Allowed word := by
  have fails : ∀ {a b : Text} {p : Pattern}, p ∈ ([spelled plugin, spelled ['@'],
      .seq (.alt start space) (.seq (spelled ['-']) (alts (pathFlags.map spelled))),
      .seq (.char isLetter) (.seq (spelled [':']) (.char isSlash)),
      .seq (spelled ['.', '.']) (.char isSlash)] : List Pattern) → value = a ++ b → exec p ⟨a.getLast?, b, []⟩ some = none :=
    fun hp hab => exec_alts (exec_of_not_found h hab) hp
  have text : ∀ {cs : Text}, spelled cs ∈ [spelled plugin, spelled ['@']] → ¬ cs <+: word := by
    intro cs hcs hstart
    obtain ⟨s', hexec, _⟩ := exec_spelled cs ⟨before.getLast?, word ++ after, []⟩ some (hstart.trans (List.prefix_append ..))
    have none := @fails before (word ++ after) (spelled cs) (by simp only [List.mem_cons] at hcs ⊢; tauto) (by simp [hvalue])
    rw [none] at hexec
    cases hexec
  have path : ∀ {flag : Text}, flag ∈ pathFlags → ¬ '-' :: flag <+: word := by
    intro flag hflag hstart
    have hstart' := hstart.trans (List.prefix_append word after)
    cases hbefore with
    | inl first =>
      have none := @fails [] (word ++ after) _ (List.mem_cons_of_mem _ (List.mem_cons_of_mem _ List.mem_cons_self))
        (by simp [hvalue, first])
      exact exec_pathFlag hflag hstart' (orElse_none none).1
    | inr blank =>
      obtain ⟨before', c, hbefore, hc⟩ := blank
      have none := @fails before' (c :: (word ++ after)) _ (List.mem_cons_of_mem _ (List.mem_cons_of_mem _ List.mem_cons_self))
        (by simp [hvalue, hbefore])
      have behind := (orElse_none none).2
      simp only [space, exec, hc, if_true] at behind
      exact exec_pathFlag hflag hstart' behind
  refine ⟨fun first hfirst => ?_, ?_, ?_⟩
  · simp only [beginnings, List.mem_cons, List.mem_map] at hfirst
    obtain rfl | rfl | ⟨flag, hflag, rfl⟩ := hfirst
    · exact text List.mem_cons_self
    · exact text (List.mem_cons_of_mem _ List.mem_cons_self)
    · exact path hflag
  · by_contra hdrive
    obtain ⟨x, c, slash, y, rfl, hc, hslash⟩ := drivePath_parts (Bool.eq_true_of_not_eq_false hdrive)
    have none := @fails (before ++ x) (c :: ':' :: slash :: (y ++ after)) (.seq (.char isLetter) (.seq (spelled [':']) (.char isSlash)))
      (by simp) (by simp [hvalue])
    simp [exec, spelled, Cursor.advance, hc, hslash] at none
  · by_contra hparent
    obtain ⟨x, slash, y, rfl, hslash⟩ := parentPath_parts (Bool.eq_true_of_not_eq_false hparent)
    have none := @fails (before ++ x) ('.' :: '.' :: slash :: (y ++ after)) (.seq (spelled ['.', '.']) (.char isSlash))
      (by simp) (by simp [hvalue])
    simp [exec, spelled, Cursor.advance, hslash] at none

def Seen (ini : Ini) (word : Text) : Prop :=
  ∃ section' key value, ini.get section' key = some value ∧ lower key ∈ flagOptions ∧ word ∈ words (stripChars value)

lemma isSpace_of_isBlank {c : Char} (h : isBlank c = true) : Texts.isSpace c = true := by
  simp only [isBlank, Bool.or_eq_true, beq_iff_eq] at h
  rcases h with ((rfl | rfl) | rfl) | rfl <;> rfl

lemma stripChars_parts (value : Text) :
    ∃ before after, value = before ++ stripChars value ++ after ∧ (∀ c ∈ before, Texts.isSpace c = true) ∧
      ∀ c ∈ after, Texts.isSpace c = true := by
  refine ⟨value.takeWhile Texts.isSpace, (value.dropWhile Texts.isSpace).rtakeWhile Texts.isSpace, ?_,
    fun c hc => List.mem_takeWhile_imp hc, fun c hc => List.mem_rtakeWhile_imp hc⟩
  rw [List.append_assoc, stripChars, List.rdropWhile_append_rtakeWhile, List.takeWhile_append_dropWhile]

lemma casefold_flagOption {key : Text} (h : key ∈ flagOptions) : casefold key = key := by
  simp only [flagOptions, List.mem_cons, List.not_mem_nil, or_false] at h
  rcases h with rfl | rfl <;> rfl

include h in
lemma Seen.allowed {word : Text} (hword : Seen ini word) : Allowed word := by
  obtain ⟨section', key, value, hget, hkey, hmem⟩ := hword
  have hvalue : stripChars value ≠ [] := by
    intro hnil
    rw [hnil] at hmem
    simp [words, List.splitOnP_nil] at hmem
  have hfound := (checked_of_get h hget hvalue).flags (by rwa [casefold_flagOption hkey])
  obtain ⟨left, right, hparts, hleft, _⟩ := stripChars_parts value
  obtain ⟨before, after, hstrip, hbefore⟩ := of_mem_words hmem
  apply @allowed_of_part value (left ++ before) word (after ++ right) hfound
  · calc value = left ++ stripChars value ++ right := hparts
      _ = left ++ (before ++ word ++ after) ++ right := by rw [← hstrip]
      _ = left ++ before ++ word ++ (after ++ right) := by simp
  · cases hbefore with
    | inl first =>
      rw [first, List.append_nil]
      cases hl : left.getLast? with
      | none => exact .inl (List.getLast?_eq_none_iff.mp hl)
      | some c =>
        obtain ⟨left', rfl⟩ := List.getLast?_eq_some_iff.mp hl
        exact .inr ⟨left', c, rfl, hleft c (by simp)⟩
    | inr blank =>
      obtain ⟨before', c, rfl, hc⟩ := blank
      exact .inr ⟨left ++ before', c, by simp, isSpace_of_isBlank hc⟩

def opens : Text → Bool
  | [] => false
  | c :: rest => (c == '$' && rest.head? == some '\x7b') || opens rest

lemma pieces_char {c : Char} {rest : Text} (h : (c == '$' && rest.head? == some '\x7b') = false) :
    pieces none (c :: rest) = .char c :: pieces none rest := by
  rw [pieces]
  rintro rest' rfl rfl
  simp at h

lemma opens_append {text rest : Text} (h : rest.head? ≠ some '\x7b') : opens (text ++ rest) = (opens text || opens rest) := by
  induction text with
  | nil => rfl
  | cons c text ih =>
    cases text with
    | nil => simp [opens, h]
    | cons d text =>
      change ((c == '$' && some d == some '\x7b') || opens (d :: text ++ rest)) =
        (((c == '$' && some d == some '\x7b') || opens (d :: text)) || opens rest)
      rw [ih, Bool.or_assoc]

lemma pieces_append {text rest : Text} (h : opens text = false) (hrest : rest.head? ≠ some '\x7b') :
    pieces none (text ++ rest) = literal text ++ pieces none rest := by
  induction text with
  | nil => rfl
  | cons c text ih =>
    rw [opens, Bool.or_eq_false_iff] at h
    have here : (c == '$' && (text ++ rest).head? == some '\x7b') = false := by
      cases text with
      | nil => simp [hrest]
      | cons d text => simpa using h.1
    rw [List.cons_append, pieces_char here, ih h.2]
    rfl

lemma pieces_literal {text : Text} (h : opens text = false) : pieces none text = literal text := by
  simpa [pieces] using @pieces_append text [] h (by simp)

lemma pieces_name {name rest : Text} (acc : Text) (hname : '\x7d' ∉ name) :
    pieces (some acc) (name ++ '\x7d' :: rest) = pieces (some (name.reverse ++ acc)) ('\x7d' :: rest) := by
  induction name generalizing acc with
  | nil => rfl
  | cons c name ih =>
    have hc : c ≠ '\x7d' := fun same => hname (same ▸ List.mem_cons_self)
    rw [List.cons_append, pieces, if_neg hc, ih _ fun h => hname (List.mem_cons_of_mem c h)]
    simp

def refer (name : Text) : Text := '$' :: '\x7b' :: (name ++ ['\x7d'])

lemma pieces_refer {name rest : Text} (hname : '\x7d' ∉ name) (hne : name ≠ []) :
    pieces none (refer name ++ rest) = .reference name :: pieces none rest := by
  have hshape : refer name ++ rest = '$' :: '\x7b' :: (name ++ '\x7d' :: rest) := by simp [refer]
  rw [hshape, pieces, pieces_name [] hname, pieces]
  simp [hne]

lemma fill_literal (answer : Text → Except Unresolved Text) (text : Text) (rest : List Piece) :
    fill answer (literal text ++ rest) = (text ++ ·) <$> fill answer rest := by
  induction text with
  | nil =>
    change fill answer rest = _
    cases fill answer rest <;> rfl
  | cons c text ih =>
    change (do return c :: (← fill answer (literal text ++ rest))) = _
    rw [ih]
    cases fill answer rest <;> rfl

lemma interpolate_literal {text : Text} (h : opens text = false) (answer : Text → Except Unresolved Text) :
    interpolate answer text = .ok text := by
  have hfill := fill_literal answer text []
  rw [List.append_nil] at hfill
  rw [interpolate, pieces_literal h, hfill]
  simp [fill]

lemma firstValue_ok {resolve : Text → Except Unresolved Text} {sections : List Text} {value : Text}
    (h : firstValue resolve sections = .ok value) : value = [] ∨ ∃ parent ∈ sections, resolve parent = .ok value := by
  induction sections with
  | nil => exact .inl (Except.ok.inj h).symm
  | cons parent rest ih =>
    obtain ⟨v, hv, h⟩ := ok_of_bind h
    split at h
    · exact .inr ⟨parent, List.mem_cons_self, by rw [hv]; exact h⟩
    · cases ih h with
      | inl hnil => exact .inl hnil
      | inr later =>
        obtain ⟨parent', hmem, hparent⟩ := later
        exact .inr ⟨parent', List.mem_cons_of_mem _ hmem, hparent⟩

def Ancestor (ini : Ini) (section' ancestor : Text) : Prop :=
  ancestor ∈ parents ini section' ∨ (envPrefix <+: section' ∧ ancestor = env)

lemma inherited_ok {resolve : Text → Except Unresolved Text} {section' value : Text}
    (h : inherited ini resolve section' = .ok value) :
    value = [] ∨ ∃ ancestor, Ancestor ini section' ancestor ∧ resolve ancestor = .ok value := by
  obtain ⟨first, hfirst, h⟩ := ok_of_bind h
  split at h
  · rename_i hbase
    exact .inr ⟨env, .inr ⟨hbase.2.1, rfl⟩, h⟩
  · cases h
    cases firstValue_ok hfirst with
    | inl hnil => exact .inl hnil
    | inr later =>
      obtain ⟨parent, hmem, hparent⟩ := later
      exact .inr ⟨parent, .inl hmem, hparent⟩

lemma resolve_ok {depth : ℕ} {visited : List (Text × Text)} {section' key value : Text}
    (h : resolve ini getenv (depth + 1) visited section' key = .ok value) :
    ∃ base, interpolate (reference getenv (resolve ini getenv depth (visited ++ [(section', key)]))) base = .ok value ∧
      ((∃ raw, ini.get section' key = some raw ∧ base = stripChars raw) ∨ base = [] ∨
        (ini.get section' key = none ∧ ∃ ancestor, Ancestor ini section' ancestor ∧
          resolve ini getenv depth (visited ++ [(section', key)]) ancestor key = .ok base)) := by
  obtain ⟨_, _, h⟩ := ok_of_bind h
  obtain ⟨_, _, h⟩ := ok_of_bind h
  obtain ⟨base, hbase, h⟩ := ok_of_bind h
  refine ⟨base, h, ?_⟩
  cases hget : ini.get section' key with
  | some raw =>
    rw [hget] at hbase
    exact .inl ⟨raw, rfl, (Except.ok.inj hbase).symm⟩
  | none =>
    rw [hget] at hbase
    cases inherited_ok hbase with
    | inl hnil => exact .inr (.inl hnil)
    | inr older => exact .inr (.inr ⟨rfl, older⟩)

lemma resolve_literal {Q : Text → Prop} {key : Text} (hnil : Q [])
    (hown : ∀ section' raw, ini.get section' key = some raw → Q (stripChars raw)) (hQ : ∀ text, Q text → opens text = false)
    {depth : ℕ} {visited : List (Text × Text)} {section' value : Text}
    (h : resolve ini getenv depth visited section' key = .ok value) : Q value := by
  induction depth generalizing visited section' value with
  | zero => cases h
  | succ depth ih =>
    obtain ⟨base, hvalue, hbase⟩ := resolve_ok h
    have hq : Q base := by
      obtain ⟨raw, hraw, rfl⟩ | rfl | ⟨_, ancestor, _, hresolve⟩ := hbase
      · exact hown section' raw hraw
      · exact hnil
      · exact ih hresolve
    rw [interpolate_literal (hQ base hq)] at hvalue
    exact Except.ok.inj hvalue ▸ hq

lemma mem_stripChars {text : Text} {c : Char} (h : c ∈ text) (hc : Texts.isSpace c = false) : c ∈ stripChars text := by
  obtain ⟨before, after, htext, hbefore, hafter⟩ := stripChars_parts text
  rw [htext, List.append_assoc, List.mem_append, List.mem_append] at h
  rcases h with h | h | h
  · simp [hbefore c h] at hc
  · exact h
  · simp [hafter c h] at hc

lemma stripChars_cons {c : Char} (h : Texts.isSpace c = true) (text : Text) : stripChars (c :: text) = stripChars text := by
  rw [stripChars, List.dropWhile_cons_of_pos h, stripChars]

lemma stripChars_concat {c : Char} (h : Texts.isSpace c = true) (text : Text) : stripChars (text ++ [c]) = stripChars text := by
  unfold stripChars
  rw [List.dropWhile_append]
  split
  · rename_i hnil
    rw [List.isEmpty_iff.mp hnil]
    simp [h]
  · exact List.rdropWhile_concat_pos _ _ _ h

lemma splitOnP_concat {p : Char → Bool} {c : Char} (hc : p c = false) (text : Text) :
    ∃ parts last, text.splitOnP p = parts ++ [last] ∧ (text ++ [c]).splitOnP p = parts ++ [last ++ [c]] := by
  induction text with
  | nil => exact ⟨[], [], rfl, by simp [List.splitOnP_cons_eq_if_modifyHead, List.splitOnP_nil, hc]⟩
  | cons d text ih =>
    obtain ⟨parts, last, htext, hconcat⟩ := ih
    rw [List.cons_append, List.splitOnP_cons_eq_if_modifyHead, List.splitOnP_cons_eq_if_modifyHead, htext, hconcat]
    by_cases hd : p d
    · exact ⟨[] :: parts, last, by simp [hd], by simp [hd]⟩
    · cases parts with
      | nil => exact ⟨[], d :: last, by simp [hd], by simp [hd]⟩
      | cons first parts => exact ⟨(d :: first) :: parts, last, by simp [hd], by simp [hd]⟩

lemma entries_cons {c : Char} (h : Texts.isSpace c = true) (text : Text) : entries (c :: text) = entries text := by
  unfold entries
  rw [List.splitOnP_cons_eq_if_modifyHead]
  split
  · simp [stripChars]
  · cases text.splitOnP isLineBreak with
    | nil => rfl
    | cons first rest => simp [stripChars_cons h]

lemma entries_concat {c : Char} (h : Texts.isSpace c = true) (text : Text) : entries (text ++ [c]) = entries text := by
  unfold entries
  by_cases hc : isLineBreak c
  · rw [List.splitOnP_append_cons _ _ hc, List.splitOnP_nil]
    simp [stripChars]
  · obtain ⟨parts, last, htext, hconcat⟩ := splitOnP_concat (Bool.eq_false_of_not_eq_true hc) text
    rw [htext, hconcat]
    simp [stripChars_concat h]

lemma entries_stripChars (value : Text) : entries (stripChars value) = entries value := by
  have left : ∀ before text, (∀ c ∈ before, Texts.isSpace c = true) → entries (before ++ text) = entries text := by
    intro before text h
    induction before with
    | nil => rfl
    | cons c before ih => rw [List.cons_append, entries_cons (h c List.mem_cons_self), ih fun d hd => h d (List.mem_cons_of_mem c hd)]
  have right : ∀ after text, (∀ c ∈ after, Texts.isSpace c = true) → entries (text ++ after) = entries text := by
    intro after text h
    induction after generalizing text with
    | nil => rw [List.append_nil]
    | cons c after ih =>
      rw [List.append_cons, ih _ fun d hd => h d (List.mem_cons_of_mem c hd), entries_concat (h c List.mem_cons_self)]
  obtain ⟨before, after, hparts, hbefore, hafter⟩ := stripChars_parts value
  calc entries (stripChars value) = entries (before ++ stripChars value) := (left before _ hbefore).symm
    _ = entries (before ++ stripChars value ++ after) := (right after _ hafter).symm
    _ = entries value := by rw [← hparts]

lemma exists_part {p : Char → Bool} {text : Text} {c : Char} (h : c ∈ text) (hc : p c = false) :
    ∃ part ∈ text.splitOnP p, c ∈ part := by
  induction text with
  | nil => cases h
  | cons d text ih =>
    rw [List.splitOnP_cons_eq_if_modifyHead]
    split
    · rename_i hd
      have later : c ∈ text := by
        cases List.mem_cons.mp h with
        | inl same => simp [same, hd] at hc
        | inr later => exact later
      obtain ⟨part, hpart, hmem⟩ := ih later
      exact ⟨part, List.mem_cons_of_mem _ hpart, hmem⟩
    · obtain ⟨first, rest, hs⟩ := List.exists_cons_of_ne_nil (List.splitOnP_ne_nil p text)
      rw [hs] at ih ⊢
      cases List.mem_cons.mp h with
      | inl same => exact ⟨d :: first, by simp, same ▸ List.mem_cons_self⟩
      | inr later =>
        obtain ⟨part, hpart, hmem⟩ := ih later
        cases List.mem_cons.mp hpart with
        | inl head => exact ⟨d :: first, by simp, List.mem_cons_of_mem d (head ▸ hmem)⟩
        | inr tail => exact ⟨part, by simp [tail], hmem⟩

lemma exists_entry {text : Text} {c : Char} (h : c ∈ text) (hc : Texts.isSpace c = false) :
    ∃ item ∈ entries text, c ∈ item := by
  have hbreak : isLineBreak c = false := by
    by_contra hb
    simp only [isLineBreak, Bool.not_eq_false, List.contains_iff_mem, List.mem_cons, List.not_mem_nil, or_false] at hb
    rcases hb with rfl | rfl | rfl | rfl | rfl | rfl | rfl | rfl | rfl | rfl <;> cases hc
  obtain ⟨part, hpart, hmem⟩ := exists_part h hbreak
  have hstrip := mem_stripChars hmem hc
  exact ⟨stripChars part, List.mem_filter.mpr ⟨List.mem_map_of_mem hpart, by simpa using List.ne_nil_of_mem hstrip⟩, hstrip⟩

lemma over_oneOf {others : List Char} (h : '$' ∉ others) : Over (· ≠ '$') (oneOf others) := by
  rintro c hc rfl
  simp [isAlphanumeric, isLetter, h] at hc

lemma over_spelled {cs : Text} (h : '$' ∉ cs) : Over (· ≠ '$') (spelled cs) := by
  induction cs with
  | nil => trivial
  | cons c cs ih =>
    refine ⟨fun d hd hdollar => h ?_, ih fun hmem => h (List.mem_cons_of_mem c hmem)⟩
    rw [← hdollar, beq_iff_eq.mp hd]
    exact List.mem_cons_self

lemma over_identifier {others : List Char} (h : '$' ∉ others) : Over (· ≠ '$') (identifier others) :=
  ⟨over_oneOf List.not_mem_nil, over_oneOf h⟩

lemma over_space : Over (· ≠ '$') space := by
  rintro c hc rfl
  cases hc

lemma over_registryName : Over (· ≠ '$') registryName :=
  ⟨over_identifier (by decide), over_spelled (by decide), over_oneOf (by decide)⟩

lemma over_registryLibrary : Over (· ≠ '$') registryLibrary :=
  ⟨⟨over_identifier (by decide), over_spelled (by decide)⟩, over_identifier (by decide),
    ⟨over_space, over_spelled (by decide), over_space, over_oneOf (by decide), trivial⟩, trivial⟩

lemma opens_of_not_mem {text : Text} (h : ∀ c ∈ text, c ≠ '$') : opens text = false := by
  induction text with
  | nil => rfl
  | cons c text ih =>
    have hc : c ≠ '$' := h c List.mem_cons_self
    simp [opens, hc, ih fun d hd => h d (List.mem_cons_of_mem c hd)]

lemma opens_of_entries {text : Text} (h : ∀ item ∈ entries text, fullMatch registryLibrary item = true) :
    opens text = false := by
  apply opens_of_not_mem
  rintro c hc rfl
  obtain ⟨item, hitem, hmem⟩ := exists_entry hc rfl
  exact of_fullMatch over_registryLibrary (h item hitem) '$' hmem rfl

variable {depth : ℕ} {visited : List (Text × Text)} {section' value : Text}

include h in
lemma resolve_name {key : Text} (hkey : key ∈ [platform, board])
    (hvalue : resolve ini getenv depth visited section' key = .ok value) (hne : value ≠ []) :
    fullMatch registryName value = true := by
  refine @resolve_literal ini getenv (fun text => text ≠ [] → fullMatch registryName text = true) key (fun h => absurd rfl h)
    ?_ ?_ depth visited section' value hvalue hne
  · intro section' raw hget hraw
    apply (checked_of_get h hget hraw).name
    simp only [List.mem_cons, List.not_mem_nil, or_false] at hkey
    rcases hkey with rfl | rfl
    · exact .inl rfl
    · exact .inr rfl
  · intro text htext
    by_cases hnil : text = []
    · rw [hnil]
      rfl
    · exact opens_of_not_mem (of_fullMatch over_registryName (htext hnil))

include h in
lemma resolve_libraries (hvalue : resolve ini getenv depth visited section' libDeps = .ok value) :
    ∀ item ∈ entries value, fullMatch registryLibrary item = true := by
  refine @resolve_literal ini getenv (fun text => ∀ item ∈ entries text, fullMatch registryLibrary item = true) libDeps ?_
    ?_ (fun text => opens_of_entries) depth visited section' value hvalue
  · intro item hitem
    simp [entries, List.splitOnP_nil, stripChars] at hitem
  · intro section' raw hget
    by_cases hraw : stripChars raw = []
    · rw [hraw]
      intro item hitem
      simp [entries, List.splitOnP_nil, stripChars] at hitem
    · rw [entries_stripChars]
      exact (checked_of_get h hget hraw).libraries rfl

def Parted (rest : Text) : Prop := ∀ c, rest.head? = some c → isBlank c = true

def RefersFlags (name : Text) : Prop :=
  ∃ group key, splitReference name = some (group, key) ∧ group ≠ sysenv ∧ lower key ∈ flagOptions

/-- Words without quotes and backslashes between blanks, each written out or a reference to
    flags. -/
inductive Verbatim : Text → Prop where
  | nil : Verbatim []
  | blank {c : Char} {rest : Text} (hc : isBlank c = true) (hrest : Verbatim rest) : Verbatim (c :: rest)
  | word {word rest : Text} (hne : word ≠ []) (hword : ∀ c ∈ word, isBlank c = false ∧ isMark c = false)
      (hopens : opens word = false) (hparted : Parted rest) (hrest : Verbatim rest) : Verbatim (word ++ rest)
  | reference {name rest : Text} (hname : '\x7d' ∉ name) (hrefers : RefersFlags name) (hparted : Parted rest)
      (hrest : Verbatim rest) : Verbatim (refer name ++ rest)

structure Plain (ini : Ini) (value : Text) : Prop where
  unmarked : Unmarked value
  closed : opens value = false
  seen : ∀ word ∈ words value, Seen ini word

lemma ne_brace_of_isBlank {c : Char} (h : isBlank c = true) : c ≠ '\x7b' := by
  rintro rfl
  cases h

lemma Parted.head_ne {rest : Text} (h : Parted rest) : rest.head? ≠ some '\x7b' :=
  fun hrest => ne_brace_of_isBlank (h _ hrest) rfl

lemma isMark_of_isBlank {c : Char} (h : isBlank c = true) : isMark c = false := by
  simp only [isBlank, Bool.or_eq_true, beq_iff_eq] at h
  rcases h with ((rfl | rfl) | rfl) | rfl <;> rfl

lemma Plain.nil : Plain ini [] := ⟨fun _ h => absurd h List.not_mem_nil, rfl, fun _ h => by simp [words, List.splitOnP_nil] at h⟩

lemma Plain.blank {c : Char} {rest : Text} (hc : isBlank c = true) (h : Plain ini rest) : Plain ini (c :: rest) := by
  refine ⟨fun d hd => ?_, ?_, ?_⟩
  · cases List.mem_cons.mp hd with
    | inl same => exact same ▸ isMark_of_isBlank hc
    | inr later => exact h.unmarked d later
  · have hdollar : c ≠ '$' := by
      rintro rfl
      cases hc
    simp [opens, hdollar, h.closed]
  · rw [words_blank hc]
    exact h.seen

lemma Plain.append {text rest : Text} (h : Plain ini text) (hrest : Plain ini rest) (hparted : Parted rest) :
    Plain ini (text ++ rest) := by
  refine ⟨fun c hc => ?_, ?_, ?_⟩
  · cases List.mem_append.mp hc with
    | inl h' => exact h.unmarked c h'
    | inr h' => exact hrest.unmarked c h'
  · rw [opens_append hparted.head_ne, h.closed, hrest.closed]
    rfl
  · rw [words_append_words text hparted]
    intro word hword
    cases List.mem_append.mp hword with
    | inl h' => exact h.seen word h'
    | inr h' => exact hrest.seen word h'

lemma Plain.word {word : Text} (hword : ∀ c ∈ word, isBlank c = false ∧ isMark c = false) (hopens : opens word = false)
    (hseen : Seen ini word) : Plain ini word := by
  refine ⟨fun c hc => (hword c hc).2, hopens, fun other hother => ?_⟩
  rw [words, List.splitOnP_eq_singleton fun c hc => (hword c hc).1] at hother
  rw [List.mem_singleton.mp (List.mem_filter.mp hother).1]
  exact hseen

lemma Verbatim.plain {text value : Text} (h : Verbatim text) (hseen : ∀ word ∈ words text, Seen ini word)
    {answer : Text → Except Unresolved Text}
    (hanswer : ∀ name result, .reference name ∈ pieces none text → RefersFlags name → answer name = .ok result → Plain ini result)
    (hvalue : fill answer (pieces none text) = .ok value) : Plain ini value ∧ (Parted text → Parted value) := by
  induction h generalizing value with
  | nil =>
    cases hvalue
    exact ⟨Plain.nil, id⟩
  | @blank c rest hc hrest ih =>
    have hdollar : (c == '$' && rest.head? == some '\x7b') = false := by
      have : c ≠ '$' := by
        rintro rfl
        cases hc
      simp [this]
    rw [pieces_char hdollar] at hvalue hanswer
    obtain ⟨tail, htail, hv⟩ := ok_of_bind hvalue
    cases hv
    rw [words_blank hc] at hseen
    obtain ⟨plain, _⟩ := ih hseen (fun name result hmem => hanswer name result (List.mem_cons_of_mem _ hmem)) htail
    exact ⟨plain.blank hc, fun _ d hd => Option.some.inj hd ▸ hc⟩
  | @word word rest hne hword hopens hparted hrest ih =>
    rw [pieces_append hopens hparted.head_ne] at hvalue hanswer
    rw [fill_literal] at hvalue
    rw [words_append hne (fun c hc => (hword c hc).1) hparted] at hseen
    cases htail : fill answer (pieces none rest) with
    | error e =>
      rw [htail] at hvalue
      cases hvalue
    | ok tail =>
      rw [htail] at hvalue
      cases hvalue
      obtain ⟨plain, parted⟩ := ih (fun other hother => hseen other (List.mem_cons_of_mem _ hother))
        (fun name result hmem => hanswer name result (List.mem_append_right _ hmem)) htail
      refine ⟨(Plain.word hword hopens (hseen word List.mem_cons_self)).append plain (parted hparted), fun hstart => ?_⟩
      obtain ⟨c, word', rfl⟩ := List.exists_cons_of_ne_nil hne
      have hc := hstart c rfl
      rw [(hword c List.mem_cons_self).1] at hc
      cases hc
  | @reference name rest hname hrefers hparted hrest ih =>
    have hne : name ≠ [] := by
      rintro rfl
      obtain ⟨group, key, hsplit, _⟩ := hrefers
      cases hsplit
    rw [pieces_refer hname hne] at hvalue hanswer
    rw [words_append_words _ hparted] at hseen
    obtain ⟨result, hresult, h⟩ := ok_of_bind hvalue
    obtain ⟨tail, htail, hv⟩ := ok_of_bind h
    cases hv
    obtain ⟨plain, parted⟩ := ih (fun other hother => hseen other (List.mem_append_right _ hother))
      (fun name result hmem => hanswer name result (List.mem_cons_of_mem _ hmem)) htail
    refine ⟨(hanswer name result List.mem_cons_self hrefers hresult).append plain (parted hparted), fun hstart => ?_⟩
    have hdollar := hstart '$' rfl
    cases hdollar

inductive Uses (ini : Ini) : Text × Text → Text × Text → Prop where
  | inherits {section' key ancestor : Text} (hget : ini.get section' key = none) (h : Ancestor ini section' ancestor) :
    Uses ini (section', key) (ancestor, key)
  | refers {section' key raw name group key' : Text} (hget : ini.get section' key = some raw)
      (hname : .reference name ∈ pieces none (stripChars raw)) (hsplit : splitReference name = some (group, key'))
      (hgroup : group ≠ sysenv) : Uses ini (section', key) (group, key')

def Straight (ini : Ini) (option : Text × Text) : Prop :=
  ∀ used, Relation.ReflTransGen (Uses ini) option used → ∀ raw, ini.get used.1 used.2 = some raw → Verbatim (stripChars raw)

lemma Straight.uses {option used : Text × Text} (h : Straight ini option) (huses : Uses ini option used) : Straight ini used :=
  fun other hother => h other (.head huses hother)

lemma reference_ok {resolve : Text → Text → Except Unresolved Text} {name group key result : Text}
    (hsplit : splitReference name = some (group, key)) (hgroup : group ≠ sysenv)
    (h : reference getenv resolve name = .ok result) : resolve group key = .ok result := by
  simp only [reference, hsplit, lookUp, if_neg hgroup] at h
  obtain ⟨value, hvalue, h⟩ := ok_of_bind h
  obtain ⟨_, _, h⟩ := ok_of_bind h
  cases h
  exact hvalue

lemma resolve_plain {key : Text} (hkey : lower key ∈ flagOptions) (h : Straight ini (section', key))
    (hvalue : resolve ini getenv depth visited section' key = .ok value) : Plain ini value := by
  induction depth generalizing visited section' key value with
  | zero => cases hvalue
  | succ depth ih =>
    obtain ⟨base, hfill, hbase⟩ := resolve_ok hvalue
    obtain ⟨raw, hraw, rfl⟩ | rfl | ⟨hget, ancestor, hancestor, hresolve⟩ := hbase
    · have verbatim := h (section', key) .refl raw hraw
      refine (verbatim.plain (fun word hword => ⟨section', key, raw, hraw, hkey, hword⟩) ?_ hfill).1
      rintro name result hname ⟨group, key', hsplit, hgroup, hkey'⟩ hresult
      exact ih hkey' (h.uses (.refers hraw hname hsplit hgroup)) (reference_ok hsplit hgroup hresult)
    · cases hfill
      exact Plain.nil
    · have plain := ih hkey (h.uses (.inherits hget hancestor)) hresolve
      rw [interpolate_literal plain.closed] at hfill
      exact Except.ok.inj hfill ▸ plain

/-- What an accepted configuration executes is within the policy exactly where the words are that no value
    holds as such. -/
theorem enforced_iff (h : validateBuildConfiguration ini = .ok ()) (getenv : Text → Text) (environment : Text) :
    (Enforced ini getenv environment ↔
      ∀ option ∈ flagOptions, ∀ word, Executed ini getenv environment option word → ¬ Seen ini word → Allowed word) ∧
    ((∀ option ∈ flagOptions, Straight ini (envPrefix ++ environment, option)) → Enforced ini getenv environment) := by
  have assembled : (∀ option ∈ flagOptions, ∀ word, Executed ini getenv environment option word → ¬ Seen ini word → Allowed word) →
      Enforced ini getenv environment := by
    intro hassembled
    constructor
    · intro option hoption word hword
      by_cases hseen : Seen ini word
      · exact hseen.allowed h
      · exact hassembled option hoption word hword hseen
    · exact fun option hoption value hvalue hne => resolve_name h hoption hvalue hne
    · exact fun value hvalue => resolve_libraries h hvalue
  refine ⟨⟨fun henforced option hoption word hword _ => henforced.flags option hoption word hword, assembled⟩, fun hstraight => ?_⟩
  apply assembled
  rintro option hoption word ⟨value, words', hvalue, hsplit, hword⟩ hunseen
  have hlower : lower option = option := by
    simp only [flagOptions, List.mem_cons, List.not_mem_nil, or_false] at hoption
    rcases hoption with rfl | rfl <;> rfl
  have plain := resolve_plain (by rwa [hlower]) (hstraight option hoption) hvalue
  rw [split_unmarked plain.unmarked, Option.some.injEq] at hsplit
  subst hsplit
  exact absurd (plain.seen word hword) hunseen

/-- `[env:a]` with `build_flags = -${x.path} "-I/etc"`, and `[x]` with `path = Ilib`. -/
def assembling : Ini :=
  ⟨[], [(['e', 'n', 'v', ':', 'a'], [(platform, ['e', 's', 'p', '3', '2']),
      (buildFlags, ['-', '$', '\x7b', 'x', '.', 'p', 'a', 't', 'h', '\x7d', ' ', '"', '-', 'I', '/', 'e', 't', 'c', '"'])]),
    (['x'], [(['p', 'a', 't', 'h'], ['I', 'l', 'i', 'b'])])]⟩

lemma assembling_flags : resolveOption assembling (fun _ => []) ['a'] buildFlags =
    .ok ['-', 'I', 'l', 'i', 'b', ' ', '"', '-', 'I', '/', 'e', 't', 'c', '"'] := by decide +kernel

theorem assembling_not_enforced :
    validateBuildConfiguration assembling = .ok () ∧ ¬ Enforced assembling (fun _ => []) ['a'] := by
  refine ⟨by decide +kernel, fun h => ?_⟩
  have hword : Executed assembling (fun _ => []) ['a'] buildFlags ['-', 'I', 'l', 'i', 'b'] :=
    ⟨_, [['-', 'I', 'l', 'i', 'b'], ['-', 'I', '/', 'e', 't', 'c']], assembling_flags, by decide +kernel, by simp⟩
  exact (h.flags buildFlags List.mem_cons_self _ hword).1 ['-', 'I'] (by decide) (by decide)

/-- `[env]` with `build_flags = -Os`, and `[env:a]` with `build_flags = ${env.build_flags} -Wall`. -/
def writtenOut : Ini :=
  ⟨[], [(env, [(buildFlags, ['-', 'O', 's'])]),
    (['e', 'n', 'v', ':', 'a'], [(buildFlags, refer (env ++ '.' :: buildFlags) ++ [' ', '-', 'W', 'a', 'l', 'l'])])]⟩

lemma writtenOut_straight (option : Text × Text) : Straight writtenOut option := by
  have last : ∀ word : Text, word ≠ [] → (∀ c ∈ word, isBlank c = false ∧ isMark c = false) → opens word = false → Verbatim word := by
    intro word hne hword hopens
    simpa using @Verbatim.word word [] hne hword hopens (by simp [Parted]) .nil
  rintro ⟨section', key⟩ _ raw hraw
  obtain ⟨own, hown, hkey⟩ := Option.bind_eq_some_iff.mp hraw
  simp only [writtenOut, List.lookup_nil, Option.or_none] at hown hkey
  have cases : raw = ['-', 'O', 's'] ∨ raw = refer (env ++ '.' :: buildFlags) ++ [' ', '-', 'W', 'a', 'l', 'l'] := by
    grind
  rcases cases with rfl | rfl
  · exact last ['-', 'O', 's'] (by decide) (by simp [isBlank, isMark, isQuote]) (by decide)
  · change Verbatim (refer (env ++ '.' :: buildFlags) ++ ' ' :: ['-', 'W', 'a', 'l', 'l'])
    have flags : RefersFlags (env ++ '.' :: buildFlags) := ⟨env, buildFlags, by decide, by decide, by decide⟩
    have blank : Parted (' ' :: ['-', 'W', 'a', 'l', 'l']) := fun c hc => Option.some.inj hc ▸ rfl
    have behind := last ['-', 'W', 'a', 'l', 'l'] (by decide) (by simp [isBlank, isMark, isQuote]) (by decide)
    exact .reference (by decide) flags blank (.blank rfl behind)

theorem writtenOut_enforced : Enforced writtenOut (fun _ => []) ['a'] :=
  (enforced_iff (by decide +kernel) (fun _ => []) ['a']).2 fun option _ => writtenOut_straight _

end PromptForge.BuildPolicy
