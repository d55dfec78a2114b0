import PromptForge.ChangePaths

namespace PromptForge.ChangePaths
open ChangeSets (ignoredDirs sensitiveNames sensitiveMarkers)
open Runs Texts

variable {fold : Char → List Char} {path result value lead trail part : Text} {parts names : List Text}

def suffix (trail : Text) : List Text → List Text
  | [] => []
  | [part] => [part ++ trail]
  | part :: rest => part :: suffix trail rest

lemma suffix_cons (trail part : Text) (h : parts ≠ []) : suffix trail (part :: parts) = part :: suffix trail parts := by
  cases parts with
  | nil => exact absurd rfl h
  | cons next rest => rfl

lemma splitOn_append_left (hlead : '/' ∉ lead) (value : Text) :
    (lead ++ value).splitOn '/' = (value.splitOn '/').modifyHead (lead ++ ·) := by
  induction lead with
  | nil => cases h : value.splitOn '/' <;> simp [h]
  | cons c rest ih =>
    obtain ⟨hc, hrest⟩ := List.ne_and_not_mem_of_not_mem_cons hlead
    have hsep : (c == '/') = false := by simpa using Ne.symm hc
    rw [List.cons_append, List.splitOn_cons_eq_if_modifyHead, hsep, ih hrest]
    simp only [Bool.false_eq_true, if_false, List.modifyHead_modifyHead]
    rfl

lemma splitOn_append_right (htrail : '/' ∉ trail) (value : Text) :
    (value ++ trail).splitOn '/' = suffix trail (value.splitOn '/') := by
  induction value with
  | nil =>
    rw [List.nil_append, List.splitOn_eq_singleton htrail]
    rfl
  | cons c rest ih =>
    have hne := List.splitOn_ne_nil '/' rest
    rw [List.cons_append, List.splitOn_cons_eq_if_modifyHead, List.splitOn_cons_eq_if_modifyHead, ih]
    by_cases hsep : (c == '/') = true
    · rw [if_pos hsep, if_pos hsep, suffix_cons _ _ hne]
    · rw [if_neg hsep, if_neg hsep]
      obtain ⟨first, others, hsplit⟩ := List.exists_cons_of_ne_nil hne
      rw [hsplit]
      cases others <;> rfl

lemma splitOn_injective {value' : Text} (h : value.splitOn '/' = value'.splitOn '/') : value = value' := by
  rw [← @List.intercalate_splitOn _ value _ _ '/', h, List.intercalate_splitOn]

structure Accepts (fold : Char → List Char) (path : Text) : Prop where
  text : path ≠ [] ∧ '\x00' ∉ path
  separators : '\\' ∉ path
  relative : stripChars path ≠ ['.'] ∧ stripChars path ≠ ['.', '.'] ∧ (stripChars path).head? ≠ some '/'
  drive : (stripChars path)[1]? ≠ some ':'
  components : ∀ part ∈ (stripChars path).splitOn '/', part ≠ [] ∧ part ≠ ['.'] ∧ part ≠ ['.', '.']
  hidden : ∀ part ∈ (stripChars path).splitOn '/', isHidden part = false
  ignored : ∀ part ∈ (stripChars path).splitOn '/', isIgnored fold part = false
  sensitive : ∀ part ∈ (stripChars path).splitOn '/', isSensitiveName fold part = false ∧ isMarked fold part = false

lemma normalizeRelative_iff : normalizeRelative fold path = .ok result ↔ Accepts fold path ∧ result = stripChars path := by
  unfold normalizeRelative
  simp only [require_iff, List.intercalate_splitOn]
  constructor
  · rintro ⟨htext, hseparators, hrelative, hdrive, hcomponents, hhidden, hignored, hsensitive, h⟩
    exact ⟨⟨htext, hseparators, hrelative, hdrive, hcomponents, hhidden, hignored, hsensitive⟩, (Except.ok.inj h).symm⟩
  · rintro ⟨h, rfl⟩
    exact ⟨h.text, h.separators, h.relative, h.drive, h.components, h.hidden, h.ignored, h.sensitive, rfl⟩

lemma exists_strip (path : Text) : ∃ lead trail, path = lead ++ stripChars path ++ trail ∧
    (∀ c ∈ lead, isSpace c = true) ∧ ∀ c ∈ trail, isSpace c = true := by
  refine ⟨path.takeWhile isSpace, (path.dropWhile isSpace).rtakeWhile isSpace, ?_, ?_, ?_⟩
  · unfold stripChars
    rw [List.append_assoc, List.rdropWhile_append_rtakeWhile, List.takeWhile_append_dropWhile]
  · exact fun c hc => List.mem_takeWhile_imp hc
  · exact fun c hc => List.mem_rtakeWhile_imp hc

lemma slash_not_mem (h : ∀ c ∈ lead, isSpace c = true) : '/' ∉ lead := by
  intro hmem
  exact absurd (h _ hmem) (by decide)

lemma mem_of_mem_strip {c : Char} (h : c ∈ stripChars path) : c ∈ path := by
  obtain ⟨lead, trail, hpath, -, -⟩ := exists_strip path
  rw [hpath]
  simp [h]

lemma Accepts.strip (h : Accepts fold path) : Accepts fold (stripChars path) where
  text := by
    constructor
    · intro hnil
      have hparts := h.components [] (by rw [hnil]; simp)
      exact hparts.1 rfl
    · exact fun hmem => h.text.2 (mem_of_mem_strip hmem)
  separators := fun hmem => h.separators (mem_of_mem_strip hmem)
  relative := by rw [stripChars_stripChars]; exact h.relative
  drive := by rw [stripChars_stripChars]; exact h.drive
  components := by rw [stripChars_stripChars]; exact h.components
  hidden := by rw [stripChars_stripChars]; exact h.hidden
  ignored := by rw [stripChars_stripChars]; exact h.ignored
  sensitive := by rw [stripChars_stripChars]; exact h.sensitive

def Solid (part : Text) : Prop := ∃ c rest, part = c :: rest ∧ c ≠ '.'

lemma Solid.append (h : Solid part) (trail : Text) : Solid (part ++ trail) := by
  obtain ⟨c, rest, rfl, hc⟩ := h
  exact ⟨c, rest ++ trail, rfl, hc⟩

lemma Solid.prepend (h : Solid part) (hlead : ∀ c ∈ lead, isSpace c = true) : Solid (lead ++ part) := by
  cases lead with
  | nil => exact h
  | cons c rest =>
    refine ⟨c, rest ++ part, rfl, fun hperiod => ?_⟩
    rw [hperiod] at hlead
    exact absurd (hlead '.' (List.mem_cons_self ..)) (by decide)

lemma Accepts.solid (h : Accepts fold path) : ∀ part ∈ (stripChars path).splitOn '/', Solid part := by
  intro part hpart
  cases part with
  | nil => exact absurd rfl (h.components [] hpart).1
  | cons c rest =>
    have hhidden := h.hidden _ hpart
    exact ⟨c, rest, rfl, by simpa [isHidden] using hhidden⟩

lemma walk_solid (h : ∀ part ∈ parts, Solid part) : walk parts = some parts := by
  have hfold : ∀ names, parts.foldl enter (some names) = some (names ++ parts) := by
    induction parts with
    | nil => simp
    | cons part rest ih =>
      intro names
      obtain ⟨⟨c, tail, rfl, hc⟩, hrest⟩ := List.forall_mem_cons.mp h
      have henter : enter (some names) (c :: tail) = some (names ++ [c :: tail]) := by simp [enter, hc]
      rw [List.foldl_cons, henter, ih hrest]
      simp
  exact hfold []

lemma splitOn_surrounded (hlead : ∀ c ∈ lead, isSpace c = true) (htrail : ∀ c ∈ trail, isSpace c = true) (value : Text) :
    (lead ++ value ++ trail).splitOn '/' = (suffix trail (value.splitOn '/')).modifyHead (lead ++ ·) := by
  rw [List.append_assoc, splitOn_append_left (slash_not_mem hlead), splitOn_append_right (slash_not_mem htrail)]

lemma solid_suffix (h : ∀ part ∈ parts, Solid part) (trail : Text) : ∀ part ∈ suffix trail parts, Solid part := by
  induction parts with
  | nil => exact h
  | cons part rest ih =>
    obtain ⟨hpart, hrest⟩ := List.forall_mem_cons.mp h
    cases rest with
    | nil => simpa [suffix] using hpart.append trail
    | cons next others =>
      rw [suffix_cons _ _ (List.cons_ne_nil _ _)]
      exact List.forall_mem_cons.mpr ⟨hpart, ih hrest⟩

lemma solid_modifyHead (h : ∀ part ∈ parts, Solid part) (hlead : ∀ c ∈ lead, isSpace c = true) :
    ∀ part ∈ parts.modifyHead (lead ++ ·), Solid part := by
  cases parts with
  | nil => exact h
  | cons part rest =>
    obtain ⟨hpart, hrest⟩ := List.forall_mem_cons.mp h
    exact List.forall_mem_cons.mpr ⟨hpart.prepend hlead, hrest⟩

lemma Accepts.solid_path (h : Accepts fold path) : ∀ part ∈ path.splitOn '/', Solid part := by
  obtain ⟨lead, trail, hpath, hlead, htrail⟩ := exists_strip path
  rw [hpath, splitOn_surrounded hlead htrail]
  exact solid_modifyHead (solid_suffix h.solid trail) hlead

lemma head_ne_slash (h : ∀ part ∈ path.splitOn '/', Solid part) : path.head? ≠ some '/' := by
  cases path with
  | nil => simp
  | cons c rest =>
    intro hslash
    rw [List.head?_cons, Option.some.injEq] at hslash
    obtain ⟨d, tail, hd, -⟩ := h [] (by rw [hslash, List.splitOn_cons_eq_if_modifyHead]; simp)
    cases hd

lemma opened_posix (h : ∀ part ∈ path.splitOn '/', Solid part) : opened .posix path = some (path.splitOn '/') := by
  unfold opened
  rw [if_neg (head_ne_slash h)]
  exact walk_solid h

lemma dropTail_append (before after : Text) : dropTail (before ++ after) = if dropTail after = [] then dropTail before else before ++ dropTail after := by
  unfold dropTail List.rdropWhile
  rw [List.reverse_append, List.dropWhile_append]
  by_cases hempty : after.reverse.dropWhile (fun c => decide (c = ' ' ∨ c = '.')) = []
  · rw [hempty, if_pos List.isEmpty_nil, if_pos List.reverse_nil]
  · rw [if_neg (by rwa [List.isEmpty_iff]), if_neg (by rwa [List.reverse_eq_nil_iff])]
    rw [List.reverse_append, List.reverse_reverse]

lemma dropTail_cons_ne_nil {c : Char} (rest : Text) (h : ¬(c = ' ' ∨ c = '.')) : dropTail (c :: rest) ≠ [] := by
  unfold dropTail
  intro hnil
  have hall := List.rdropWhile_eq_nil_iff.mp hnil c (List.mem_cons_self ..)
  exact h (by simpa using hall)

lemma dropTail_begins (part : Text) : dropTail part <+: part := List.rdropWhile_prefix ..

lemma dropPeriod_begins (part : Text) : dropPeriod part <+: part := by
  unfold dropPeriod
  split
  · exact List.dropLast_prefix part
  · exact List.prefix_rfl

lemma dropPeriod_append (lead : Text) (h : Solid part) : dropPeriod (lead ++ part) = lead ++ dropPeriod part := by
  obtain ⟨c, rest, rfl, hc⟩ := h
  have hne : c :: rest ≠ [] := List.cons_ne_nil _ _
  unfold dropPeriod
  rw [List.getLast?_append_of_ne_nil _ hne, List.dropLast_append_of_ne_nil hne]
  cases rest with
  | nil => simp [hc]
  | cons d rest =>
    have hinit : (c :: d :: rest).dropLast ≠ [] := by simp
    have hjoined : lead ++ (c :: d :: rest).dropLast ≠ [] := by simp
    rw [List.getLast?_append_of_ne_nil _ hinit]
    simp only [hinit, hjoined, ne_eq, not_false_iff, true_and]
    split <;> rfl

lemma trimmed_cons (part : Text) (h : parts ≠ []) : trimmed (part :: parts) = dropPeriod part :: trimmed parts := by
  cases parts with
  | nil => exact absurd rfl h
  | cons next rest => rfl

lemma suffix_ne_nil (trail : Text) (h : parts ≠ []) : suffix trail parts ≠ [] := by
  cases parts with
  | nil => exact h
  | cons part rest => cases rest <;> simp [suffix]

lemma prefix_of_mem_trimmed {name : Text} (h : name ∈ trimmed parts) : ∃ part ∈ parts, name <+: part := by
  induction parts with
  | nil => cases h
  | cons part rest ih =>
    cases rest with
    | nil =>
      rw [List.mem_singleton.mp h]
      exact ⟨part, List.mem_singleton.mpr rfl, dropTail_begins part⟩
    | cons next others =>
      rw [trimmed_cons part (List.cons_ne_nil _ _)] at h
      rcases List.mem_cons.mp h with rfl | h
      · exact ⟨part, List.mem_cons_self .., dropPeriod_begins part⟩
      · obtain ⟨other, hother, hbegin⟩ := ih h
        exact ⟨other, List.mem_cons_of_mem _ hother, hbegin⟩

lemma trimmed_suffix_blanks (n : ℕ) (parts : List Text) : trimmed (suffix (List.replicate n ' ') parts) = trimmed parts := by
  induction parts with
  | nil => rfl
  | cons part rest ih =>
    cases rest with
    | nil =>
      have hblanks : dropTail (List.replicate n ' ') = [] :=
        List.rdropWhile_eq_nil_iff.mpr fun c hc => by simp [List.eq_of_mem_replicate hc]
      simp only [suffix, trimmed, dropTail_append, hblanks, if_true]
    | cons next others =>
      have hne : next :: others ≠ [] := List.cons_ne_nil _ _
      rw [suffix_cons _ _ hne, trimmed_cons _ (suffix_ne_nil _ hne), trimmed_cons _ hne, ih]

lemma length_trimmed_suffix (trail : Text) (h : parts ≠ []) : (trimmed parts).flatten.length ≤ (trimmed (suffix trail parts)).flatten.length ∧
    (dropTail trail ≠ [] → (trimmed parts).flatten.length < (trimmed (suffix trail parts)).flatten.length) := by
  induction parts with
  | nil => exact absurd rfl h
  | cons part rest ih =>
    cases rest with
    | nil =>
      have hbegin := (dropTail_begins part).length_le
      simp only [suffix, trimmed, dropTail_append, List.flatten_singleton]
      split
      · rename_i hnil
        exact ⟨Nat.le_refl _, fun hne => absurd hnil hne⟩
      · rename_i hne
        have hpos := List.length_pos_of_ne_nil hne
        rw [List.length_append]
        omega
    | cons next others =>
      have hne : next :: others ≠ [] := List.cons_ne_nil _ _
      have hrest := ih hne
      rw [suffix_cons _ _ hne, trimmed_cons _ (suffix_ne_nil _ hne), trimmed_cons _ hne]
      simp only [List.flatten_cons, List.length_append]
      exact ⟨by omega, fun htrail => by have hless := hrest.2 htrail; omega⟩

lemma length_trimmed_modifyHead (lead : Text) {first : Text} {rest : List Text} (h : Solid first) (hblank : first.head? ≠ some ' ') :
    (trimmed ((first :: rest).modifyHead (lead ++ ·))).flatten.length = lead.length + (trimmed (first :: rest)).flatten.length := by
  cases rest with
  | nil =>
    obtain ⟨c, tail, rfl, hc⟩ := h
    have hkept : dropTail (c :: tail) ≠ [] := by
      apply dropTail_cons_ne_nil
      rintro (rfl | rfl)
      · exact hblank rfl
      · exact hc rfl
    simp only [List.modifyHead_cons, trimmed, dropTail_append, if_neg hkept, List.flatten_singleton, List.length_append]
  | cons next others =>
    have hne : next :: others ≠ [] := List.cons_ne_nil _ _
    rw [List.modifyHead_cons, trimmed_cons _ hne, trimmed_cons _ hne, dropPeriod_append lead h]
    simp only [List.flatten_cons, List.length_append]
    omega

lemma onDrive_self {drive : Char} (h : part[1]? ≠ some ':') : onDrive drive part = some part := by
  unfold onDrive
  split
  · exact absurd rfl h
  · rfl

lemma onDrive_none (h : part[1]? = some ':') : ∃ drive, onDrive drive part = none := by
  rcases part with _ | ⟨letter, _ | ⟨c, rest⟩⟩
  · cases h
  · cases h
  · obtain rfl : c = ':' := by simpa using h
    by_cases hletter : letter.toLower = 'c'
    · exact ⟨'d', by simp [onDrive, hletter]⟩
    · exact ⟨'c', by simp [onDrive, hletter]⟩

lemma mapM_onDrive {drive : Char} (h : ∀ part ∈ parts, part[1]? ≠ some ':') : parts.mapM (onDrive drive) = some parts := by
  induction parts with
  | nil => rfl
  | cons part rest ih =>
    obtain ⟨hpart, hrest⟩ := List.forall_mem_cons.mp h
    rw [List.mapM_cons, onDrive_self hpart, ih hrest]
    rfl

lemma mapM_onDrive_none {drive : Char} (hpart : part ∈ parts) (h : onDrive drive part = none) : parts.mapM (onDrive drive) = none := by
  induction parts with
  | nil => cases hpart
  | cons first rest ih =>
    rw [List.mapM_cons]
    rcases List.mem_cons.mp hpart with rfl | hpart
    · rw [h]
      rfl
    · rw [ih hpart]
      cases onDrive drive first <;> rfl

lemma opened_windows {drive : Char} (h : ∀ part ∈ path.splitOn '/', Solid part) (hdrives : ∀ part ∈ path.splitOn '/', part[1]? ≠ some ':') :
    opened (.windows drive) path = some ((trimmed (path.splitOn '/')).filter fun name => decide (name ≠ [])) := by
  unfold opened
  rw [if_neg (head_ne_slash h)]
  simp only [mapM_onDrive hdrives, Option.bind_some, walk_solid h, Option.map_some]

lemma drives_of_opened (h : ∀ drive, opened (.windows drive) path ≠ none) : ∀ part ∈ path.splitOn '/', part[1]? ≠ some ':' := by
  intro part hpart hcolon
  obtain ⟨drive, hdrive⟩ := onDrive_none hcolon
  apply h drive
  unfold opened
  split
  · rfl
  · simp only [mapM_onDrive_none hpart hdrive, Option.bind_none]

structure Canonical (fold : Char → List Char) (host : Host) (path result : Text) : Prop where
  fixed : normalizeRelative fold result = .ok result
  same : opened host path = opened host result
  inside : ∃ names, opened host result = some names ∧ ∀ name ∈ names, isForbidden fold (entryName host name) = false
  distinct : host = .posix → ∀ other result', normalizeRelative fold other = .ok result' → result' ≠ result →
    opened host other ≠ opened host path ∧ opened host result' ≠ opened host result

/-- Windows reads the path as it is: no component has a drive or loses its end to an ignored name. -/
structure ReadPlainly (fold : Char → List Char) (path : Text) : Prop where
  blanks : ∃ n, path = stripChars path ++ List.replicate n ' '
  drives : ∀ part ∈ (stripChars path).splitOn '/', part[1]? ≠ some ':'
  ends : ∀ name ∈ trimmed ((stripChars path).splitOn '/'),
    isIgnored fold (withoutStream name) = false ∧ isSensitiveName fold (withoutStream name) = false

lemma Accepts.fixed (h : Accepts fold path) : normalizeRelative fold (stripChars path) = .ok (stripChars path) :=
  normalizeRelative_iff.mpr ⟨h.strip, (stripChars_stripChars path).symm⟩

lemma Accepts.opened_posix (h : Accepts fold path) : opened .posix path = some (path.splitOn '/') :=
  ChangePaths.opened_posix h.solid_path

lemma canonical_posix (h : Accepts fold path) : Canonical fold .posix path (stripChars path) ↔ stripChars path = path := by
  have hvalue := h.strip.opened_posix
  constructor
  · intro hcanonical
    have hsame := hcanonical.same
    rw [h.opened_posix, hvalue] at hsame
    exact (splitOn_injective (Option.some.inj hsame)).symm
  · intro hstrip
    refine ⟨h.fixed, by rw [hstrip], ⟨_, hvalue, fun part hpart => ?_⟩, fun _ other result' hother hne => ?_⟩
    · simp only [entryName, isForbidden, h.hidden part hpart, h.ignored part hpart, h.sensitive part hpart, Bool.or_false]
    · obtain ⟨haccepts, rfl⟩ := normalizeRelative_iff.mp hother
      constructor
      · rw [haccepts.opened_posix, h.opened_posix]
        intro hsame
        exact hne (congrArg stripChars (splitOn_injective (Option.some.inj hsame)))
      · rw [haccepts.strip.opened_posix, hvalue]
        intro hsame
        exact hne (splitOn_injective (Option.some.inj hsame))

lemma withoutStream_begins (name : Text) : withoutStream name <+: name := List.takeWhile_prefix _

lemma isMarked_of_begins {name : Text} (hname : name <+: part) (h : isMarked fold part = false) : isMarked fold name = false := by
  obtain ⟨rest, rfl⟩ := hname
  unfold isMarked at h ⊢
  rw [List.any_eq_false] at h ⊢
  intro marker hmarker hin
  have hin' : marker.toList <:+: name.flatMap fold := by simpa using hin
  apply h marker hmarker
  rw [List.flatMap_append]
  exact decide_eq_true (hin'.trans (List.prefix_append ..).isInfix)

lemma isHidden_of_begins {name : Text} (hname : name <+: part) (h : isHidden part = false) : isHidden name = false := by
  obtain ⟨rest, rfl⟩ := hname
  cases name with
  | nil => rfl
  | cons c tail => exact h

lemma Accepts.isForbidden_trimmed (h : Accepts fold path) {name : Text} (hname : name ∈ trimmed ((stripChars path).splitOn '/')) :
    isForbidden fold (withoutStream name) = (isIgnored fold (withoutStream name) || isSensitiveName fold (withoutStream name)) := by
  obtain ⟨part, hpart, hbegin⟩ := prefix_of_mem_trimmed hname
  have hbegins := (withoutStream_begins name).trans hbegin
  unfold isForbidden
  rw [isHidden_of_begins hbegins (h.hidden part hpart), isMarked_of_begins hbegins (h.sensitive part hpart).2]
  simp

lemma head_strip {c : Char} {rest : Text} (h : stripChars path = c :: rest) : isSpace c = false := by
  obtain ⟨after, hafter⟩ : stripChars path <+: path.dropWhile isSpace := List.rdropWhile_prefix ..
  rw [h] at hafter
  exact head_dropWhile hafter.symm

lemma Accepts.first_component (h : Accepts fold path) : ∃ first rest, (stripChars path).splitOn '/' = first :: rest ∧
    Solid first ∧ first.head? ≠ some ' ' := by
  have hsolid := h.solid
  cases hvalue : stripChars path with
  | nil =>
    obtain ⟨c, rest, hc, -⟩ := hsolid [] (by rw [hvalue]; simp)
    cases hc
  | cons c tail =>
    have hspace := head_strip hvalue
    obtain ⟨first, rest, hsplit⟩ := List.exists_cons_of_ne_nil (List.splitOn_ne_nil '/' tail)
    rw [hvalue, List.splitOn_cons_eq_if_modifyHead, hsplit] at hsolid
    rw [List.splitOn_cons_eq_if_modifyHead, hsplit]
    by_cases hslash : (c == '/') = true
    · rw [if_pos hslash] at hsolid
      obtain ⟨d, others, hd, -⟩ := hsolid [] (List.mem_cons_self ..)
      cases hd
    · rw [if_neg hslash] at hsolid ⊢
      refine ⟨c :: first, rest, rfl, hsolid _ (List.mem_cons_self ..), fun hblank => ?_⟩
      rw [List.head?_cons, Option.some.injEq] at hblank
      rw [hblank] at hspace
      exact absurd hspace (by decide)

lemma length_trimmed_surrounded (lead trail : Text) {first : Text} {rest : List Text} (h : Solid first) (hblank : first.head? ≠ some ' ')
    (hsame : (trimmed ((suffix trail (first :: rest)).modifyHead (lead ++ ·))).flatten.length = (trimmed (first :: rest)).flatten.length) :
    lead = [] ∧ dropTail trail = [] := by
  have hsuffix := length_trimmed_suffix trail (List.cons_ne_nil first rest)
  have hlead : (trimmed ((suffix trail (first :: rest)).modifyHead (lead ++ ·))).flatten.length =
      lead.length + (trimmed (suffix trail (first :: rest))).flatten.length := by
    cases rest with
    | nil =>
      apply length_trimmed_modifyHead lead (h.append trail)
      obtain ⟨c, tail, rfl, -⟩ := h
      exact hblank
    | cons next others =>
      rw [suffix_cons _ _ (List.cons_ne_nil _ _)]
      exact length_trimmed_modifyHead lead h hblank
  constructor
  · apply List.eq_nil_of_length_eq_zero
    omega
  · by_contra htrail
    have hless := hsuffix.2 htrail
    omega

lemma replicate_of_dropTail (htrail : ∀ c ∈ trail, isSpace c = true) (h : dropTail trail = []) : trail = List.replicate trail.length ' ' := by
  apply List.eq_replicate_of_mem
  intro c hc
  have hdropped : c = ' ' ∨ c = '.' := by simpa using List.rdropWhile_eq_nil_iff.mp h c hc
  rcases hdropped with hblank | hperiod
  · exact hblank
  · rw [hperiod] at hc
    exact absurd (htrail _ hc) (by decide)

lemma drives_suffix (n : ℕ) (h : ∀ part ∈ parts, part[1]? ≠ some ':') :
    ∀ part ∈ suffix (List.replicate n ' ') parts, part[1]? ≠ some ':' := by
  induction parts with
  | nil => exact h
  | cons part rest ih =>
    obtain ⟨hpart, hrest⟩ := List.forall_mem_cons.mp h
    cases rest with
    | nil =>
      intro longer hlonger hcolon
      rw [suffix, List.mem_singleton] at hlonger
      rw [hlonger, List.getElem?_append] at hcolon
      split at hcolon
      · exact hpart hcolon
      · have hblank := List.eq_of_mem_replicate (List.mem_of_getElem? hcolon)
        cases hblank
    | cons next others =>
      rw [suffix_cons _ _ (List.cons_ne_nil _ _)]
      exact List.forall_mem_cons.mpr ⟨hpart, ih hrest⟩

lemma canonical_windows (h : Accepts fold path) :
    (∀ drive, Canonical fold (.windows drive) path (stripChars path)) ↔ ReadPlainly fold path := by
  have hsolid := h.strip.solid_path
  constructor
  · intro hcanonical
    have hdrives := drives_of_opened fun drive hnone => by
      obtain ⟨names, hnames, -⟩ := (hcanonical drive).inside
      rw [hnone] at hnames
      cases hnames
    have hopened := fun drive => @opened_windows (stripChars path) drive hsolid hdrives
    have hdrives' := drives_of_opened fun drive hnone => by
      have hsame := (hcanonical drive).same
      rw [hnone, hopened] at hsame
      cases hsame
    refine ⟨?_, hdrives, fun name hname => ?_⟩
    · have hsame := (hcanonical 'c').same
      rw [opened_windows h.solid_path hdrives', hopened, Option.some.injEq] at hsame
      have hlength := congrArg (fun names => names.flatten.length) hsame
      simp only [List.flatten_filter_ne_nil] at hlength
      obtain ⟨lead, trail, hpath, hlead, htrail⟩ := exists_strip path
      obtain ⟨first, rest, hsplit, hfirst, hblank⟩ := h.first_component
      rw [hpath, splitOn_surrounded hlead htrail, ← hpath, hsplit] at hlength
      obtain ⟨rfl, hdropped⟩ := length_trimmed_surrounded lead trail hfirst hblank hlength
      refine ⟨trail.length, ?_⟩
      rw [← replicate_of_dropTail htrail hdropped]
      exact hpath
    · obtain ⟨names, hnames, hallowed⟩ := (hcanonical 'c').inside
      rw [hopened, Option.some.injEq] at hnames
      by_cases hnil : name = []
      · rw [hnil]
        exact ⟨rfl, rfl⟩
      · have hforbidden := hallowed name (by rw [← hnames]; exact List.mem_filter.mpr ⟨hname, decide_eq_true hnil⟩)
        rw [entryName, h.isForbidden_trimmed hname, Bool.or_eq_false_iff] at hforbidden
        exact hforbidden
  · intro hplain drive
    have hopened := @opened_windows (stripChars path) drive hsolid hplain.drives
    refine ⟨h.fixed, ?_, ⟨_, hopened, fun name hname => ?_⟩, fun hposix => by cases hposix⟩
    · obtain ⟨n, hblanks⟩ := hplain.blanks
      have hslash : '/' ∉ List.replicate n ' ' := by simp
      have hsplit : path.splitOn '/' = suffix (List.replicate n ' ') ((stripChars path).splitOn '/') := by
        conv_lhs => rw [hblanks]
        exact splitOn_append_right hslash _
      have hdrives : ∀ part ∈ path.splitOn '/', part[1]? ≠ some ':' := hsplit ▸ drives_suffix n hplain.drives
      rw [opened_windows h.solid_path hdrives, hopened, hsplit, trimmed_suffix_blanks]
    · obtain ⟨hname, -⟩ := List.mem_filter.mp hname
      rw [entryName, h.isForbidden_trimmed hname, (hplain.ends name hname).1, (hplain.ends name hname).2]
      rfl

end PromptForge.ChangePaths
