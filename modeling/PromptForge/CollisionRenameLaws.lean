import Mathlib
import PromptForge.CollisionRenamePasses
import PromptForge.RegexMatches

namespace PromptForge.CollisionRenames
open Regex SourceLexing Texts WordReplacements

variable {u : Letters} {lexes : Bool} {c : Char} {i : ℕ} {text word name className before rest : Text}

lemma isSpace_of_alphanum (h : c.isAlphanum = true) : isSpace c = false := by
  have hrange : 48 ≤ c.toNat ∧ c.toNat < 128 := by
    simp [Char.isAlphanum, Char.isAlpha, Char.isUpper, Char.isLower, Char.isDigit, UInt32.le_iff_toNat_le] at h
    omega
  simp [isSpace]
  omega

lemma isSpace_of_word (h : isWord u.toUnicode c = true) : isSpace c = false := by
  unfold isWord at h
  split at h
  · rw [Bool.or_eq_true, beq_iff_eq] at h
    rcases h with h | rfl
    · exact isSpace_of_alphanum h
    · rfl
  · refine Bool.eq_false_iff.mpr fun hspace => ?_
    rw [u.alnum_space c hspace] at h
    cases h

lemma not_word_of_space (h : isSpace c = true) : isWord u.toUnicode c = false :=
  Bool.eq_false_iff.mpr fun hword => by
    rw [isSpace_of_word hword] at h
    cases h

lemma not_word_head (h : ∀ c rest, text = c :: rest → isSpace c = true ∨ c = ';' ∨ c = '.' ∨ c = '-') :
    text.head?.any (isWord u.toUnicode) = false := by
  cases text with
  | nil => rfl
  | cons c rest =>
    rcases h c rest rfl with hspace | rfl | rfl | rfl
    · exact not_word_of_space hspace
    · rfl
    · rfl
    · rfl

lemma not_word_of_accessed (h : isAccessed text = true) : text.head?.any (isWord u.toUnicode) = false := by
  refine not_word_head fun c rest htext => ?_
  subst htext
  by_contra! hne
  rw [isAccessed_ne (Bool.eq_false_iff.mpr hne.1) hne.2.2.1 hne.2.2.2] at h
  cases h

lemma not_word_of_declared (h : endsDeclaration text = true) : text.head?.any (isWord u.toUnicode) = false := by
  refine not_word_head fun c rest htext => ?_
  subst htext
  by_contra! hne
  unfold endsDeclaration at h
  rw [List.dropWhile_cons_of_neg hne.1] at h
  split at h
  · rename_i heq
    exact hne.2.1 (List.cons.inj heq).1
  · cases h

lemma stands_of_declares (h : declaresAt className word text i = true) : standsAt (isWord u.toUnicode) word text i = true := by
  obtain ⟨hbegins, hbegin, hends⟩ := declaresAt_iff.mp h
  refine standsAt_iff.mpr ⟨?_, hbegin, not_word_of_declared hends⟩
  obtain ⟨b, hb, hspace⟩ := (Option.any_eq_true _ _).mp (ends_of_begins hbegins)
  rw [hb, Option.any_some, not_word_of_space hspace]

lemma stands_of_uses (hword : word ≠ []) (hinside : ∀ c ∈ word, isWord u.toUnicode c = true) (h : usesAt u lexes word text i = true) :
    standsAt (isWord u.toUnicode) word text i = true := by
  obtain ⟨-, hboundary, hbegin, haccessed⟩ := usesAt_iff.mp h
  refine standsAt_iff.mpr ⟨?_, hbegin, not_word_of_accessed haccessed⟩
  obtain ⟨c, word', rfl⟩ := List.exists_cons_of_ne_nil hword
  obtain ⟨rest, hrest⟩ := hbegin
  unfold isBoundary at hboundary
  rw [← hrest, List.cons_append, List.head?_cons, Option.any_some, hinside c List.mem_cons_self, bne_iff_ne, ne_eq, Bool.not_eq_true] at hboundary
  exact hboundary

lemma renames_iff (h : Renaming u lexes word name) (hdistinct : Distinct (isWord u.toUnicode) word name)
    (hdeclared : Declared className word before rest) (refers : Text → ℕ → Bool) :
    rename u lexes className word name (before ++ (word ++ rest)) =
        replaceAt (isReference u refers word (before ++ (word ++ rest))) word.length name (before ++ (word ++ rest)) ↔
      ∀ i, standsAt (isWord u.toUnicode) word (before ++ (word ++ rest)) i = true →
        (declaresAt className word (before ++ (word ++ rest)) i || usesAt u lexes word (before ++ (word ++ rest)) i) =
          isReference u refers word (before ++ (word ++ rest)) i := by
  rw [rename_eq h hdeclared]
  refine replaceAt_eq_iff h.inside h.word_ne hdistinct (fun i hi => ?_) fun i hi => ?_
  · rcases Bool.or_eq_true .. |>.mp hi with hi | hi
    · exact stands_of_declares hi
    · exact stands_of_uses h.word_ne h.inside hi
  · simp only [isReference, Bool.and_eq_true] at hi
    exact hi.1.1

lemma alarm_renaming (u : Letters) : Renaming u true "alarm".toList "alarmManagerInstance".toList where
  word_ne := by decide
  inside := by simp [isWord, Char.isAlphanum]
  plain := by simp [isPlain, isSpace]
  name_last := by rfl
  unaccessed := by simp
  apart := by
    intro y hne hsuffix hbegin
    revert hne hsuffix
    rw [← List.mem_inits] at hbegin
    revert y
    decide
  lexed := fun _ => by simp [isPlain]

lemma alarm_distinct (u : Letters) : Distinct (isWord u.toUnicode) "alarm".toList "alarmManagerInstance".toList := by
  intro before after hafter hsame
  have hrest : "ManagerInstance".toList ++ before = after := @List.append_cancel_left _ "alarm".toList _ _ hsame
  rw [← hrest] at hafter
  cases hafter

lemma unqualified_suffix (className : Text) : unqualified className <:+ className := by
  induction className with
  | nil => exact List.suffix_rfl
  | cons c rest ih =>
    unfold unqualified
    split_ifs
    · exact ih.trans (List.suffix_cons c rest)
    · exact (List.tail_suffix rest).trans (List.suffix_cons c rest)
    · exact List.suffix_rfl

lemma lower_ne (hdot : c ≠ '.') (harrow : c ≠ '-') : ∀ d ∈ (if c.toNat < 128 then [c.toLower] else u.lower c), d ≠ '.' ∧ d ≠ '-' := by
  split_ifs with hascii
  · have hall : ∀ n < 128, Char.ofNat n ≠ '.' → Char.ofNat n ≠ '-' → (Char.ofNat n).toLower ≠ '.' ∧ (Char.ofNat n).toLower ≠ '-' := by decide
    have hlower := hall c.toNat hascii
    rw [Char.ofNat_toNat] at hlower
    exact List.forall_mem_singleton.mpr (hlower hdot harrow)
  · exact u.lower_ne c

lemma system_renaming (hclass : ∀ c ∈ className, c ≠ '.' ∧ c ≠ '-') (hname : instanceName u className = some name) :
    Renaming u false "system".toList name := by
  obtain ⟨front, hfront, rfl⟩ : ∃ front : Text, (∀ c ∈ front, c ≠ '.' ∧ c ≠ '-') ∧ name = front ++ "Instance".toList := by
    unfold instanceName at hname
    split at hname
    · cases hname
    · rename_i c rest hshort
      cases hname
      have hall : ∀ d ∈ c :: rest, d ≠ '.' ∧ d ≠ '-' := fun d hd => hclass d ((hshort ▸ unqualified_suffix className).subset hd)
      obtain ⟨⟨hdot, harrow⟩, hrest⟩ := List.forall_mem_cons.mp hall
      exact ⟨_, List.forall_mem_append.mpr ⟨lower_ne hdot harrow, hrest⟩, rfl⟩
  constructor
  · decide
  · simp [isWord, Char.isAlphanum]
  · simp [isPlain, isSpace]
  · rw [List.getLast?_append_of_ne_nil _ (by decide)]
    rfl
  · exact List.forall_mem_append.mpr ⟨hfront, by simp⟩
  · intro y hne hsuffix hbegin
    have hshort : y <:+ "Instance".toList :=
      List.suffix_of_suffix_length_le hsuffix (List.suffix_append front _) (hbegin.length_le.trans (by decide))
    rw [← List.mem_inits] at hbegin
    clear hsuffix
    revert hne hshort
    revert y
    decide
  · exact fun h => absurd h Bool.false_ne_true

lemma system_distinct (h : Renaming u lexes word name) (hdeclared : Declared className word before rest)
    (hleft : hasWord u word (rename u lexes className word name (before ++ (word ++ rest))) = false) :
    Distinct (isWord u.toUnicode) word name := by
  intro front after hafter hsame
  have hlong : ¬name <+: word := h.apart name h.name_ne List.suffix_rfl
  obtain ⟨tail, rfl⟩ : word <+: name := by
    rcases List.prefix_or_prefix_of_prefix ⟨front, hsame⟩ (List.prefix_append word after) with hshort | hbegin
    · exact absurd hshort hlong
    · exact hbegin
  have htail : tail ≠ [] := by
    rintro rfl
    exact hlong (by rw [List.append_nil])
  obtain ⟨d, tail, rfl⟩ := List.exists_cons_of_ne_nil htail
  have hd : isWord u.toUnicode d = false := by
    rw [List.append_assoc] at hsame
    rw [← List.append_cancel_left hsame] at hafter
    exact hafter
  rw [rename_parts h hdeclared] at hleft
  have hends := renamed_ends h hdeclared
  revert hleft hends
  generalize replaceFrom _ _ _ 0 0 before = front
  generalize replaceFrom _ _ _ 0 _ rest = back
  intro hleft hends
  refine Bool.eq_false_iff.mp hleft (List.any_eq_true.mpr ⟨front.length, List.mem_range.mpr ?_, ?_⟩)
  · simp only [List.length_append]
    omega
  · obtain ⟨b, hb, hspace⟩ := (Option.any_eq_true _ _).mp hends
    obtain ⟨a, word', hword⟩ := List.exists_cons_of_ne_nil h.word_ne
    have hfirst : isWord u.toUnicode a = true := h.inside a (hword ▸ List.mem_cons_self)
    have hlast : isWord u.toUnicode (word.getLast h.word_ne) = true := h.inside _ (List.getLast_mem h.word_ne)
    simp only [isBoundary, Bool.and_eq_true, decide_eq_true_eq, bne_iff_ne]
    refine ⟨⟨?_, ?_⟩, ?_⟩
    · rw [List.take_left, List.drop_left, hb, hword]
      simp [not_word_of_space hspace, hfirst]
    · rw [List.drop_left, List.append_assoc]
      exact List.prefix_append ..
    · rw [List.take_length_add_append, List.drop_length_add_append, List.append_assoc, List.take_left, List.drop_left,
        List.getLast?_append_of_ne_nil _ h.word_ne, List.getLast?_eq_some_getLast h.word_ne]
      simp [hlast, hd]

lemma matched_of_searchFrom {p : Pattern} {previous : Option Char} {before rest : Text} {m : Found}
    (h : searchFrom p previous before rest = some m) : ∃ s s', Matches p s s' ∧ m.groups = s'.groups := by
  have here : ∀ {previous before rest}, matchAt p previous before rest = some m → ∃ s s', Matches p s s' ∧ m.groups = s'.groups := by
    intro previous before rest hm
    obtain ⟨s', hexec, rfl⟩ := Option.map_eq_some_iff.mp hm
    obtain ⟨r, hmatches, hr⟩ := (exec_finds p).sound hexec
    cases hr
    exact ⟨_, s', hmatches, rfl⟩
  induction rest generalizing previous before with
  | nil => exact here h
  | cons c rest ih =>
    unfold searchFrom at h
    exact (some_of_orElse h).elim here ih

lemma matches_seqs_last {ps : List Pattern} {p : Pattern} {s s' : Cursor} (h : Matches (seqs (ps ++ [p])) s s') : ∃ m, Matches p m s' := by
  induction ps generalizing s with
  | nil =>
    obtain ⟨m, hm, rfl⟩ := h
    exact ⟨s, hm⟩
  | cons q ps ih =>
    obtain ⟨m, -, hrest⟩ := h
    exact ih hrest

lemma groups_of_exactly {chars : Text} {s s' : Cursor}
    (h : Matches (chars.foldr (fun c p => .seq (.char (· == c)) p) .empty) s s') : s'.groups = s.groups := by
  induction chars generalizing s with
  | nil =>
    cases h
    rfl
  | cons c chars ih =>
    obtain ⟨m, ⟨d, rest, -, -, rfl⟩, hrest⟩ := h
    have hgroups := ih hrest
    exact hgroups

lemma class_ne {what : String} {diagnostics : Text} {error : Found}
    (h : search (errorPattern u (.seq (classPattern u) (exactly what))) diagnostics = some error) :
    ∀ c ∈ error.group 2, c ≠ '.' ∧ c ≠ '-' := by
  obtain ⟨s, s', hmatches, hgroups⟩ := matched_of_searchFrom h
  have hmatches : Matches (seqs ([_, _, _, _, _, _, _, _, _, _] ++ [_])) s s' := hmatches
  obtain ⟨m, m', ⟨m'', ⟨first, ⟨d, rest, hs, hd, rfl⟩, hstar⟩, rfl⟩, hwhat⟩ := matches_seqs_last hmatches
  obtain ⟨taken, rest', hrest, htaken, rfl⟩ := matches_star.mp hstar
  have hbetween : between m (Cursor.past (m.advance d rest) taken rest') = d :: taken := by
    have hrest : rest = taken ++ rest' := hrest
    have hlength : (d :: taken ++ rest').length - rest'.length = (d :: taken).length := by
      rw [List.length_append, Nat.add_sub_cancel]
    unfold between
    rw [hs, hrest]
    exact (congrArg (List.take · (d :: taken ++ rest')) hlength).trans List.take_left
  have hgroup : error.group 2 = d :: taken := by
    unfold Found.group
    rw [hgroups, groups_of_exactly hwhat, hbetween]
    rfl
  rw [hgroup]
  refine List.forall_mem_cons.mpr ⟨⟨?_, ?_⟩, fun c hc => ?_⟩
  · rintro rfl
    cases hd
  · rintro rfl
    cases hd
  · have hc := htaken c hc
    constructor
    · rintro rfl
      cases hc
    · rintro rfl
      cases hc

/-- What is written is the source with the declaration and the uses of the object renamed. -/
structure Renames (u : Letters) (lexes : Bool) (word : Text) (w : Rewrite) : Prop where
  names : Renaming u lexes word w.name
  declared : ∃ before rest, w.source = before ++ (word ++ rest) ∧ Declared w.className word before rest
  text : w.text = rename u lexes w.className word w.name w.source

lemma system_renames {arduino : Bool} {sourceOf : Text → Option Text} {diagnostics : Text} {w : Rewrite}
    (h : repairSystemNameCollision u arduino sourceOf diagnostics = some w) :
    Renames u false "system".toList w ∧ hasWord u "system".toList w.text = false := by
  unfold repairSystemNameCollision at h
  split_ifs at h
  obtain ⟨error, hsearch, h⟩ := Option.bind_eq_some_iff.mp h
  obtain ⟨source, -, h⟩ := Option.bind_eq_some_iff.mp h
  dsimp only at h
  split_ifs at h with hcount
  obtain ⟨name, hname, h⟩ := Option.bind_eq_some_iff.mp h
  split_ifs at h with hleft
  cases h
  have hrenaming := system_renaming (class_ne hsearch) hname
  exact ⟨⟨hrenaming, exists_declared hrenaming.word_ne (not_not.mp hcount), rfl⟩, Bool.eq_false_iff.mpr fun hword => hleft (.inr (.inl hword))⟩

lemma alarm_renames {sourceOf : Text → Option Text} {diagnostics : Text} {w : Rewrite}
    (h : repairAlarmNameCollision u sourceOf diagnostics = some w) :
    Renames u true "alarm".toList w ∧ w.name = "alarmManagerInstance".toList := by
  unfold repairAlarmNameCollision at h
  split_ifs at h
  obtain ⟨error, -, h⟩ := Option.bind_eq_some_iff.mp h
  obtain ⟨source, -, h⟩ := Option.bind_eq_some_iff.mp h
  dsimp only at h
  split_ifs at h with hcount
  cases h
  have hrenaming := alarm_renaming u
  exact ⟨⟨hrenaming, exists_declared hrenaming.word_ne (not_not.mp (not_or.mp hcount).1), rfl⟩, rfl⟩

lemma hasWord_of_stands (hinside : ∀ c ∈ word, isWord u.toUnicode c = true) (hword : word ≠ [])
    (h : standsAt (isWord u.toUnicode) word text i = true) : hasWord u word text = true := by
  obtain ⟨hbefore, ⟨tail, htail⟩, hbehind⟩ := standsAt_iff.mp h
  obtain ⟨a, word', rfl⟩ := List.exists_cons_of_ne_nil hword
  have hlt : i < text.length := by
    by_contra hge
    rw [List.drop_eq_nil_of_le (Nat.le_of_not_lt hge)] at htail
    cases htail
  refine List.any_eq_true.mpr ⟨i, List.mem_range.mpr (by omega), ?_⟩
  simp only [isBoundary, Bool.and_eq_true, decide_eq_true_eq, bne_iff_ne]
  refine ⟨⟨?_, tail, htail⟩, ?_⟩
  · rw [hbefore, ← htail, List.cons_append, List.head?_cons, Option.any_some, hinside a List.mem_cons_self]
    exact Bool.false_ne_true
  · rw [hbehind, List.take_add, ← htail, List.take_left, List.getLast?_append_of_ne_nil _ hword, List.getLast?_eq_some_getLast hword,
      Option.any_some, hinside _ (List.getLast_mem hword)]
    exact Bool.noConfusion

lemma all_renamed (h : Renaming u lexes word name) (hdeclared : Declared className word before rest)
    (hleft : hasWord u word (rename u lexes className word name (before ++ (word ++ rest))) = false)
    (hstands : standsAt (isWord u.toUnicode) word (before ++ (word ++ rest)) i = true) :
    (declaresAt className word (before ++ (word ++ rest)) i || usesAt u lexes word (before ++ (word ++ rest)) i) = true := by
  by_contra hkept
  rw [rename_eq h hdeclared] at hleft
  obtain ⟨j, hj⟩ := @stands_of_kept _ (fun i => declaresAt className word (before ++ (word ++ rest)) i || usesAt u lexes word (before ++ (word ++ rest)) i)
    i name (before ++ (word ++ rest)) word _ _ h.inside h.word_ne (fun i hi => (Bool.or_eq_true .. |>.mp hi).elim stands_of_declares
      (stands_of_uses h.word_ne h.inside)) hstands (Bool.eq_false_iff.mpr hkept)
  rw [hasWord_of_stands h.inside h.word_ne hj] at hleft
  cases hleft

/-- A repair renames the references to the object, and nothing else, where the words it renames are these. -/
theorem repair_renames_iff (u : Letters) (arduino : Bool) (sourceOf : Text → Option Text) (diagnostics : Text) (refers : Text → ℕ → Bool)
    (k : Collision) (w : Rewrite) (h : repairNameCollision u arduino sourceOf diagnostics k = some w) :
    RenamesReferences u refers k.word w ↔
      ∀ i, standsAt (isWord u.toUnicode) k.word w.source i = true → isRenamed u w i k = isReference u refers k.word w.source i := by
  unfold RenamesReferences
  cases k with
  | system =>
    obtain ⟨⟨hrenaming, ⟨before, rest, hsource, hdeclared⟩, htext⟩, hleft⟩ := system_renames h
    rw [htext, hsource] at hleft ⊢
    refine (renames_iff hrenaming (system_distinct hrenaming hdeclared hleft) hdeclared refers).trans (forall₂_congr fun i hi => ?_)
    rw [all_renamed hrenaming hdeclared hleft hi]
    rfl
  | alarm =>
    obtain ⟨⟨hrenaming, ⟨before, rest, hsource, hdeclared⟩, htext⟩, hname⟩ := alarm_renames h
    rw [htext, hsource]
    refine (renames_iff hrenaming (hname ▸ alarm_distinct u) hdeclared refers).trans (forall₂_congr fun i _ => ?_)
    rw [isRenamed, hsource]
    rfl

def plainLetters : Letters := ⟨⟨fun _ => false, fun _ => false⟩, fun _ => [], fun _ _ hd => absurd hd List.not_mem_nil, fun _ _ => rfl⟩

def alarmDiagnostics : Text := ("m.cpp:1: error: 'AlarmManager alarm' redeclared as different kind of symbol\n" ++
  "previous declaration 'unsigned alarm()'").toList

def passedAlarm : Rewrite :=
  ⟨"m.cpp".toList, "AlarmManager alarm;\nint x=alarm.x+f(alarm);".toList, "AlarmManager".toList, "alarmManagerInstance".toList,
    "AlarmManager alarmManagerInstance;\nint x=alarmManagerInstance.x+f(alarm);".toList⟩

lemma passedAlarm_written :
    repairNameCollision plainLetters true (fun _ => some passedAlarm.source) alarmDiagnostics .alarm = some passedAlarm := by
  unfold alarmDiagnostics passedAlarm
  rw [String.toList_append]
  repeat rw [String.toList_ofList]
  decide +kernel

theorem passed_alarm_iff : RenamesReferences plainLetters (fun _ _ => true) "alarm".toList passedAlarm ↔
    ∀ i, standsAt (isWord plainLetters.toUnicode) "alarm".toList passedAlarm.source i = true →
      isRenamed plainLetters passedAlarm i .alarm = isReference plainLetters (fun _ _ => true) "alarm".toList passedAlarm.source i :=
  repair_renames_iff plainLetters true _ alarmDiagnostics (fun _ _ => true) .alarm passedAlarm passedAlarm_written

/-- A reference that is passed on keeps the old name. -/
theorem passed_alarm_kept : repairNameCollision plainLetters true (fun _ => some passedAlarm.source) alarmDiagnostics .alarm = some passedAlarm ∧
    ¬RenamesReferences plainLetters (fun _ _ => true) "alarm".toList passedAlarm := by
  refine ⟨passedAlarm_written, ?_⟩
  unfold RenamesReferences passedAlarm
  repeat rw [String.toList_ofList]
  decide +kernel

end PromptForge.CollisionRenames
