import Mathlib.Tactic
import PromptForge.DataMigration

namespace PromptForge.DataMigration
open Runs

lemma part_main (p : Path) : p.part .main = p := by
  unfold Path.part
  simp [Part.ending]

lemma ending_inj {s t : Part} (h : s.ending = t.ending) : s = t := by
  cases s <;> cases t <;> first | rfl | (revert h; decide)

lemma part_inj {p : Path} {s t : Part} (h : p.part s = p.part t) : s = t := by
  have hname : p.name ++ s.ending = p.name ++ t.ending := congrArg Path.name h
  exact ending_inj (List.append_cancel_left hname)

lemma isSide_part (p : Path) {s : Part} (h : s = .wal ∨ s = .shm) : isSide (p.part s).name = true := by
  unfold isSide
  rw [decide_eq_true_eq]
  rcases h with rfl | rfl
  · exact .inl (List.suffix_append _ _)
  · exact .inr (List.suffix_append _ _)

lemma last_of_database {name : Name} (h : isDatabase name = true) :
    ∃ c, name.getLast? = some c ∧ c.toLower ∈ ['b', 'e', '3'] := by
  unfold isDatabase at h
  rw [decide_eq_true_eq] at h
  unfold suffix at h
  generalize htail : (name.reverse.takeWhile fun c => decide (c ≠ '.')).reverse = tail at h
  have hends : tail <:+ name := by
    rw [← htail, ← List.reverse_prefix, List.reverse_reverse]
    exact List.takeWhile_prefix _
  by_cases hproper : tail ≠ [] ∧ 1 < name.length - tail.length
  · simp only [if_pos hproper, List.map_cons] at h
    obtain ⟨front, hfront⟩ := hends
    have hlast : name.getLast? = tail.getLast? := by
      rw [← hfront, List.getLast?_append_of_ne_nil _ hproper.1]
    obtain ⟨c, hc⟩ := Option.isSome_iff_exists.1 (List.getLast?_isSome.2 hproper.1)
    have hlower : (tail.map Char.toLower).getLast? = some c.toLower := by
      rw [List.getLast?_map, hc]
      rfl
    refine ⟨c, hlast.trans hc, ?_⟩
    simp only [List.mem_cons, List.not_mem_nil, or_false] at h
    rcases h with h | h | h
    · have htext : tail.map Char.toLower = ['d', 'b'] := List.tail_eq_of_cons_eq h
      rw [htext] at hlower
      rw [← Option.some.inj hlower]
      simp
    · have htext : tail.map Char.toLower = ['s', 'q', 'l', 'i', 't', 'e'] := List.tail_eq_of_cons_eq h
      rw [htext] at hlower
      rw [← Option.some.inj hlower]
      simp
    · have htext : tail.map Char.toLower = ['s', 'q', 'l', 'i', 't', 'e', '3'] := List.tail_eq_of_cons_eq h
      rw [htext] at hlower
      rw [← Option.some.inj hlower]
      simp
  · simp only [if_neg hproper, List.map_nil] at h
    exact absurd h (by decide)

lemma not_database_of_last {name : Name} {c : Char} (h : name.getLast? = some c) (hc : c.toLower ∉ ['b', 'e', '3']) :
    isDatabase name = false := by
  cases hdatabase : isDatabase name with
  | false => rfl
  | true =>
    obtain ⟨d, hd, hlower⟩ := last_of_database hdatabase
    rw [h] at hd
    cases hd
    exact absurd hlower hc

lemma not_database_part (p : Path) {s : Part} (h : s ≠ .main) : isDatabase (p.part s).name = false := by
  unfold Path.part
  cases s with
  | main => exact absurd rfl h
  | journal => exact not_database_of_last (c := 'l') (by simp [Part.ending]) (by decide)
  | wal => exact not_database_of_last (c := 'l') (by simp [Part.ending]) (by decide)
  | shm => exact not_database_of_last (c := 'm') (by simp [Part.ending]) (by decide)

lemma not_side_of_database {name : Name} (h : isDatabase name = true) : isSide name = false := by
  cases hside : isSide name with
  | false => rfl
  | true =>
    unfold isSide at hside
    rw [decide_eq_true_eq] at hside
    rcases hside with ⟨front, rfl⟩ | ⟨front, rfl⟩
    · rw [not_database_of_last (c := 'l') (by simp) (by decide)] at h
      cases h
    · rw [not_database_of_last (c := 'm') (by simp) (by decide)] at h
      cases h

lemma not_side_journal (p : Path) : isSide (p.part .journal).name = false := by
  unfold isSide
  rw [decide_eq_false_iff_not]
  rintro (⟨front, hfront⟩ | ⟨front, hfront⟩)
  · have hback := congrArg List.reverse hfront
    simp [Path.part, Part.ending] at hback
  · have hback := congrArg List.reverse hfront
    simp [Path.part, Part.ending] at hback

lemma part_disjoint {p q : Path} (hp : isDatabase p.name = true) (hq : isDatabase q.name = true) {s t : Part}
    (h : p.part s = q.part t) : p = q := by
  by_cases hs : s = .main
  · by_cases ht : t = .main
    · rw [hs, ht, part_main, part_main] at h
      exact h
    · rw [hs, part_main] at h
      rw [h, not_database_part q ht] at hp
      cases hp
  · by_cases ht : t = .main
    · rw [ht, part_main] at h
      rw [← h, not_database_part p hs] at hq
      cases hq
    · have hfolder : (p.part s).folder = (q.part t).folder := congrArg Path.folder h
      change p.folder = q.folder at hfolder
      have hname : p.name ++ s.ending = q.name ++ t.ending := congrArg Path.name h
      have hsame : s.ending = t.ending := by
        have hback := congrArg List.reverse hname
        cases s <;> cases t <;> first | rfl | exact absurd rfl hs | exact absurd rfl ht | simp [Part.ending] at hback
      rw [hsame] at hname
      cases p
      cases q
      simp_all

lemma putFamily_part (files : Files) (p : Path) (family : Family) (s : Part) :
    putFamily files p family (p.part s) = family s := by
  have hfind : (parts.find? fun t => decide (p.part t = p.part s)) = some s := by
    have heq : (fun t => decide (p.part t = p.part s)) = fun t => decide (t = s) := by
      funext t
      exact decide_eq_decide.2 ⟨part_inj, congrArg _⟩
    rw [heq]
    cases s <;> rfl
  unfold putFamily
  rw [hfind]

lemma putFamily_other (files : Files) {p q : Path} (h : ∀ s, q ≠ p.part s) (family : Family) :
    putFamily files p family q = files q := by
  have hfind : (parts.find? fun t => decide (p.part t = q)) = none := by
    rw [List.find?_eq_none]
    intro t _
    rw [decide_eq_true_eq]
    exact Ne.symm (h t)
  unfold putFamily
  rw [hfind]

lemma familyOf_putFamily (files : Files) (p : Path) (family : Family) :
    familyOf (putFamily files p family) p = family := by
  funext s
  exact putFamily_part files p family s

lemma familyOf_putFamily_other (files : Files) {p q : Path} (hp : isDatabase p.name = true)
    (hq : isDatabase q.name = true) (h : q ≠ p) (family : Family) :
    familyOf (putFamily files p family) q = familyOf files q := by
  funext s
  exact putFamily_other files (fun t hsame => h (part_disjoint hq hp hsame)) family

/-- What the migration relies on. -/
structure Meaning (κ : Type) where
  content : Family → Option κ
  closed : Family → Family
  reading : Family → Family → Prop
  writing : Family → Prop

/-- What is read and left where killed readers and writers have left files of their own. -/
structure Documented {κ : Type} (sqlite : Sqlite) (m : Meaning κ) : Prop where
  rest : ∀ f, m.reading f f
  again : ∀ f g h, m.reading f g → m.reading g h → m.reading f h
  close : ∀ f, m.reading f (m.closed f)
  main : ∀ f g, m.reading f g → (f .main).isSome = true → (g .main).isSome = true
  journal : ∀ f g, m.reading f g → f .journal = none → g .journal = none
  fresh : m.writing fun _ => none
  backup : ∀ f g w c, m.content f = some c → f .journal = none → m.reading f g → m.writing w → ∃ copied,
    sqlite.backup g w = some (m.closed f, alone (some copied)) ∧ m.content (alone (some copied)) = some c ∧
      m.writing (alone (some copied))

section
variable {κ : Type} (m : Meaning κ) (files : Files)

def Database (p : Path) : Prop := (files p).isSome = true ∧ isDatabase p.name = true

def Ordinary (p : Path) : Prop := (files p).isSome = true ∧ isSide p.name = false ∧ isDatabase p.name = false

def InFamily (q : Path) : Prop := ∃ p s, Database files p ∧ q = p.part s

def TrueSide (q : Path) : Prop :=
  ∃ p s, (s = .wal ∨ s = .shm) ∧ q = p.part s ∧ (files p).isSome = true ∧ (m.content (familyOf files p)).isSome = true

def kept (family : Family) : Family
  | .wal | .shm => none
  | part => family part

structure Movable : Prop where
  sides : ∀ p, (files p).isSome = true → isSide p.name = true → TrueSide m files p
  databases : ∀ p, Database files p → (m.content (familyOf files p)).isSome = true ∧ files (p.part .journal) = none
  others : ∀ p c, Ordinary files p → m.content (familyOf files p) = some c →
    m.content (kept (familyOf files p)) = some c

/-- The files are there with their bytes, databases with their content, and nothing else. -/
structure Carried (out : Files) : Prop where
  sides : ∀ p, TrueSide m files p → out p = none
  databases : ∀ p c, (files p).isSome = true → ¬ TrueSide m files p → m.content (familyOf files p) = some c →
    (out p).isSome = true ∧ m.content (familyOf out p) = some c
  others : ∀ p, (files p).isSome = true → ¬ TrueSide m files p → m.content (familyOf files p) = none → out p = files p
  only : ∀ p, files p = none → out p = none

end

section
variable {κ : Type} {m : Meaning κ} {files : Files}

lemma TrueSide.isSide {q : Path} (h : TrueSide m files q) : isSide q.name = true := by
  obtain ⟨p, s, hs, rfl, -⟩ := h
  exact isSide_part p hs

lemma not_inFamily_of_ordinary (hmovable : Movable m files) {q : Path} (h : Ordinary files q) : ¬ InFamily files q := by
  rintro ⟨p, s, hp, rfl⟩
  cases s with
  | main =>
    rw [part_main] at h
    exact absurd (h.2.2.symm.trans hp.2) (by decide)
  | journal =>
    have hfile := h.1
    rw [(hmovable.databases p hp).2] at hfile
    cases hfile
  | wal => exact absurd (h.2.1.symm.trans (isSide_part p (.inl rfl))) (by decide)
  | shm => exact absurd (h.2.1.symm.trans (isSide_part p (.inr rfl))) (by decide)

variable (m files)

structure Copyable (source staged : Files) : Prop where
  reading : ∀ p, Database files p → m.reading (familyOf files p) (familyOf source p)
  same : ∀ q, ¬ InFamily files q → source q = files q
  writing : ∀ p, Database files p → m.writing (familyOf staged p)
  only : ∀ q, (staged q).isSome = true → Ordinary files q ∨ InFamily files q

structure Copied (source staged : Files) (p : Path) : Prop where
  ordinary : Ordinary files p → staged p = files p
  database : Database files p → familyOf source p = m.closed (familyOf files p) ∧ ∃ copied,
    familyOf staged p = alone (some copied) ∧ m.content (alone (some copied)) = m.content (familyOf files p)

def Met (p : Path) : Prop := isSide p.name = true ∨ Database files p ∨ Ordinary files p

variable {m files}

lemma met_of_source {sqlite : Sqlite} (hdoc : Documented sqlite m) (hmovable : Movable m files) {source staged : Files}
    (h : Copyable m files source staged) {p : Path} (hp : (source p).isSome = true) : Met files p := by
  by_cases hfamily : InFamily files p
  · obtain ⟨q, s, hq, rfl⟩ := hfamily
    cases s with
    | main =>
      rw [part_main]
      exact .inr (.inl hq)
    | journal =>
      have hjournal := hdoc.journal _ _ (h.reading q hq) (hmovable.databases q hq).2
      change source (q.part .journal) = none at hjournal
      rw [hjournal] at hp
      cases hp
    | wal => exact .inl (isSide_part q (.inl rfl))
    | shm => exact .inl (isSide_part q (.inr rfl))
  · rw [h.same p hfamily] at hp
    cases hside : isSide p.name with
    | true => exact .inl hside
    | false =>
      cases hdatabase : isDatabase p.name with
      | true => exact absurd ⟨p, .main, ⟨hp, hdatabase⟩, (part_main p).symm⟩ hfamily
      | false => exact .inr (.inr ⟨hp, hside, hdatabase⟩)

lemma source_of_file {sqlite : Sqlite} (hdoc : Documented sqlite m) (hmovable : Movable m files)
    {source staged : Files} (h : Copyable m files source staged) {p : Path} (hp : Database files p ∨ Ordinary files p) :
    (source p).isSome = true := by
  rcases hp with hp | hp
  · have hmain := hdoc.main _ _ (h.reading p hp) (by
      change (files (p.part .main)).isSome = true
      rw [part_main]
      exact hp.1)
    change (source (p.part .main)).isSome = true at hmain
    rw [part_main] at hmain
    exact hmain
  · rw [h.same p (not_inFamily_of_ordinary hmovable hp)]
    exact hp.1

lemma not_part_of_other (hmovable : Movable m files) {p q : Path} (hp : Database files p)
    (hq : Database files q ∨ Ordinary files q) (hne : q ≠ p) (s : Part) : q ≠ p.part s := by
  rintro hsame
  rcases hq with hq | hq
  · apply hne
    apply part_disjoint hq.2 hp.2
    rw [part_main]
    exact hsame
  · exact not_inFamily_of_ordinary hmovable hq ⟨p, s, hp, hsame⟩

section
variable {source staged : Files} {p : Path}

lemma Copyable.putFamily (h : Copyable m files source staged) (hp : Database files p) {reader writer : Family}
    (hreader : m.reading (familyOf files p) reader) (hwriter : m.writing writer) :
    Copyable m files (putFamily source p reader) (putFamily staged p writer) := by
  refine ⟨?_, ?_, ?_, ?_⟩
  · intro q hq
    by_cases hsame : q = p
    · rw [hsame, familyOf_putFamily]
      exact hreader
    · rw [familyOf_putFamily_other source hp.2 hq.2 hsame]
      exact h.reading q hq
  · intro q hq
    rw [putFamily_other source fun s hsame => hq ⟨p, s, hp, hsame⟩]
    exact h.same q hq
  · intro q hq
    by_cases hsame : q = p
    · rw [hsame, familyOf_putFamily]
      exact hwriter
    · rw [familyOf_putFamily_other staged hp.2 hq.2 hsame]
      exact h.writing q hq
  · intro q hq
    by_cases hpart : ∃ s, q = p.part s
    · obtain ⟨s, rfl⟩ := hpart
      exact .inr ⟨p, s, hp, rfl⟩
    · rw [putFamily_other staged fun s hsame => hpart ⟨s, hsame⟩] at hq
      exact h.only q hq

lemma familyOf_update (hmovable : Movable m files) (hp : Ordinary files p) {q : Path} (hq : Database files q)
    (bytes : Option Bytes) : familyOf (Function.update staged p bytes) q = familyOf staged q := by
  funext s
  apply Function.update_of_ne
  intro hsame
  exact not_inFamily_of_ordinary hmovable hp ⟨q, s, hq, hsame.symm⟩

lemma Copyable.update (hmovable : Movable m files) (h : Copyable m files source staged) (hp : Ordinary files p)
    (bytes : Option Bytes) : Copyable m files source (Function.update staged p bytes) := by
  refine ⟨h.reading, h.same, ?_, ?_⟩
  · intro q hq
    rw [familyOf_update hmovable hp hq]
    exact h.writing q hq
  · intro q hq
    by_cases hsame : q = p
    · exact .inl (hsame ▸ hp)
    · rw [Function.update_of_ne hsame] at hq
      exact h.only q hq

end

structure Turn (m : Meaning κ) (files : Files) (p : Path) (source staged source' staged' : Files) : Prop where
  copyable : Copyable m files source' staged'
  copied : Copied m files source' staged' p
  others : ∀ q, q ≠ p → Copied m files source staged q → Copied m files source' staged' q
  keep : ∀ q, q ≠ p → Database files q ∨ Ordinary files q → staged' q = staged q
  families : ∀ q, q ≠ p → Database files q → familyOf source' q = familyOf source q

def Lists {δ : Type} (hash : Bytes → δ) (staged : Files) (manifest : List (Path × δ)) : Prop :=
  ∀ e ∈ manifest, ∃ bytes, staged e.1 = some bytes ∧ hash bytes = e.2

section
variable {δ : Type} {hash : Bytes → δ} {sqlite : Sqlite} {source staged : Files} {p : Path}

lemma copyFile_ok (hdoc : Documented sqlite m) (hmovable : Movable m files) (h : Copyable m files source staged)
    (hmet : Met files p) : ∃ source' staged' entries,
      copyFile hash sqlite p source staged = .ok (source', staged', entries) ∧
        Turn m files p source staged source' staged' ∧
        (∀ e ∈ entries, e.1 = p ∧ (Database files p ∨ Ordinary files p)) ∧ Lists hash staged' entries := by
  unfold copyFile
  by_cases hside : isSide p.name = true
  · rw [if_pos hside]
    refine ⟨source, staged, [], rfl, ⟨h, ⟨?_, ?_⟩, fun _ _ hq => hq, fun _ _ _ => rfl, fun _ _ _ => rfl⟩, by simp, by simp [Lists]⟩
    · intro hp
      exact absurd (hp.2.1.symm.trans hside) (by decide)
    · intro hp
      exact absurd ((not_side_of_database hp.2).symm.trans hside) (by decide)
  · rw [if_neg hside]
    rcases hmet with hmet | hmet | hmet
    · exact absurd hmet hside
    · -- a database goes through SQLite
      obtain ⟨c, hc⟩ := Option.isSome_iff_exists.1 (hmovable.databases p hmet).1
      obtain ⟨copied, hbackup, hcontent, hwriting⟩ := hdoc.backup _ _ _ c hc (hmovable.databases p hmet).2
        (h.reading p hmet) (h.writing p hmet)
      rw [if_pos hmet.2, hbackup]
      have hturn := h.putFamily hmet (hdoc.close _) hwriting
      have hmain : putFamily staged p (alone (some copied)) p = some copied := by
        have hpart := putFamily_part staged p (alone (some copied)) .main
        rw [part_main] at hpart
        exact hpart
      refine ⟨_, _, _, rfl, ⟨hturn, ⟨?_, ?_⟩, ?_, ?_, ?_⟩, ?_, ?_⟩
      · intro hp
        exact absurd (hp.2.2.symm.trans hmet.2) (by decide)
      · intro _
        refine ⟨familyOf_putFamily .., copied, familyOf_putFamily .., ?_⟩
        rw [hcontent, hc]
      · intro q hne hq
        refine ⟨fun hordinary => ?_, fun hdatabase => ?_⟩
        · rw [putFamily_other staged (not_part_of_other hmovable hmet (.inr hordinary) hne)]
          exact hq.ordinary hordinary
        · rw [familyOf_putFamily_other source hmet.2 hdatabase.2 hne, familyOf_putFamily_other staged hmet.2 hdatabase.2 hne]
          exact hq.database hdatabase
      · intro q hne hq
        exact putFamily_other staged (not_part_of_other hmovable hmet hq hne) _
      · intro q hne hq
        exact familyOf_putFamily_other source hmet.2 hq.2 hne _
      · intro e he
        rw [List.mem_singleton.1 he]
        exact ⟨rfl, .inl hmet⟩
      · intro e he
        rw [List.mem_singleton.1 he]
        exact ⟨copied, hmain, rfl⟩
    · -- any other file byte by byte
      have hdatabase : ¬ isDatabase p.name = true := by
        rw [hmet.2.2]
        decide
      have hsource : source p = files p := h.same p (not_inFamily_of_ordinary hmovable hmet)
      obtain ⟨bytes, hbytes⟩ := Option.isSome_iff_exists.1 hmet.1
      rw [if_neg hdatabase, hsource, hbytes]
      refine ⟨_, _, _, rfl, ⟨h.update hmovable hmet _, ⟨?_, ?_⟩, ?_, ?_, fun _ _ _ => rfl⟩, ?_, ?_⟩
      · intro _
        rw [Function.update_self, hbytes]
      · intro hp
        exact absurd hp.2 hdatabase
      · intro q hne hq
        refine ⟨fun hordinary => ?_, fun hother => ?_⟩
        · rw [Function.update_of_ne hne]
          exact hq.ordinary hordinary
        · rw [familyOf_update hmovable hmet hother]
          exact hq.database hother
      · intro q hne _
        exact Function.update_of_ne hne _ _
      · intro e he
        rw [List.mem_singleton.1 he]
        exact ⟨rfl, .inr hmet⟩
      · intro e he
        rw [List.mem_singleton.1 he]
        exact ⟨bytes, Function.update_self .., rfl⟩

def Possible (m : Meaning κ) (source : Files) (p : Path) (damage : Damage) : Prop :=
  isDatabase p.name = true → m.reading (familyOf source p) damage.reader ∧ m.writing damage.writer

lemma breakFile_copyable (hdoc : Documented sqlite m) (hmovable : Movable m files) (h : Copyable m files source staged)
    (hmet : Met files p) {damage : Damage} (hpossible : Possible m source p damage) :
    Copyable m files (breakFile damage p source staged).1 (breakFile damage p source staged).2 := by
  unfold breakFile
  by_cases hside : isSide p.name = true
  · rw [if_pos hside]
    exact h
  · rw [if_neg hside]
    rcases hmet with hmet | hmet | hmet
    · exact absurd hmet hside
    · rw [if_pos hmet.2]
      obtain ⟨hreader, hwriter⟩ := hpossible hmet.2
      exact h.putFamily hmet (hdoc.again _ _ _ (h.reading p hmet) hreader) hwriter
    · rw [if_neg (by rw [hmet.2.2]; decide)]
      cases damage.copied with
      | none => exact h
      | some bytes => exact h.update hmovable hmet _

end

end

end PromptForge.DataMigration
