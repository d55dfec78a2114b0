import PromptForge.DataMigrationLaws

namespace PromptForge.DataMigration
open Runs

section
variable {κ δ : Type} {m : Meaning κ} {files : Files} {hash : Bytes → δ} {sqlite : Sqlite}

structure Behind (m : Meaning κ) (files : Files) (hash : Bytes → δ) (behind : Path → Prop) (source staged : Files)
    (manifest : List (Path × δ)) : Prop where
  copyable : Copyable m files source staged
  copied : ∀ p, behind p → Copied m files source staged p
  named : ∀ e ∈ manifest, behind e.1 ∧ (Database files e.1 ∨ Ordinary files e.1)
  listed : Lists hash staged manifest

lemma Behind.turn {behind : Path → Prop} {source staged source' staged' : Files} {manifest entries : List (Path × δ)}
    {p : Path} (h : Behind m files hash behind source staged manifest) (hp : ¬ behind p)
    (hturn : Turn m files p source staged source' staged')
    (hentries : ∀ e ∈ entries, e.1 = p ∧ (Database files p ∨ Ordinary files p)) (hlists : Lists hash staged' entries) :
    Behind m files hash (fun q => q = p ∨ behind q) source' staged' (manifest ++ entries) := by
  have hne : ∀ q, behind q → q ≠ p := fun q hq hsame => hp (hsame ▸ hq)
  refine ⟨hturn.copyable, ?_, ?_, ?_⟩
  · rintro q (rfl | hq)
    · exact hturn.copied
    · exact hturn.others q (hne q hq) (h.copied q hq)
  · intro e he
    rcases List.mem_append.1 he with he | he
    · exact ⟨.inr (h.named e he).1, (h.named e he).2⟩
    · obtain ⟨hsame, hkind⟩ := hentries e he
      exact ⟨.inl hsame, hsame ▸ hkind⟩
  · intro e he
    rcases List.mem_append.1 he with he | he
    · obtain ⟨bytes, hbytes, hhash⟩ := h.listed e he
      refine ⟨bytes, ?_, hhash⟩
      rw [hturn.keep e.1 (hne _ (h.named e he).1) (h.named e he).2]
      exact hbytes
    · exact hlists e he

lemma copyFiles_ok (hdoc : Documented sqlite m) (hmovable : Movable m files) {fault : Option (ℕ × Damage)}
    {walk : List Path} {behind : Path → Prop} {source staged : Files} {manifest : List (Path × δ)}
    (h : Behind m files hash behind source staged manifest) (hwalk : walk.Nodup) (hmet : ∀ p ∈ walk, Met files p)
    (hfresh : ∀ p ∈ walk, ¬ behind p)
    (hpossible : ∀ index damage p, fault = some (index, damage) → walk[index]? = some p → Possible m source p damage) :
    ∃ result source' staged', copyFiles hash sqlite fault walk source staged manifest = (result, source', staged') ∧
      ((∃ manifest', result = .done manifest' ∧
          Behind m files hash (fun q => q ∈ walk ∨ behind q) source' staged' manifest') ∨
        (result = .crashed ∧ fault ≠ none ∧ Copyable m files source' staged')) := by
  induction walk generalizing fault behind source staged manifest with
  | nil =>
    refine ⟨.done manifest, source, staged, by unfold copyFiles; rfl, .inl ⟨manifest, rfl, ?_⟩⟩
    simpa using h
  | cons p walk ih =>
    rw [List.forall_mem_cons] at hmet hfresh
    rw [List.nodup_cons] at hwalk
    obtain ⟨source', staged', entries, hcopy, hturn, hentries, hlists⟩ :=
      @copyFile_ok κ m files δ hash sqlite source staged p hdoc hmovable h.copyable hmet.1
    have hstep := h.turn hfresh.1 hturn hentries hlists
    have hfresh' : ∀ q ∈ walk, ¬ (q = p ∨ behind q) := by
      rintro q hq (rfl | hbehind)
      · exact hwalk.1 hq
      · exact hfresh.2 q hq hbehind
    have hset : (fun q => q ∈ walk ∨ q = p ∨ behind q) = fun q => q ∈ p :: walk ∨ behind q := by
      funext q
      rw [List.mem_cons, ← or_assoc, or_comm (a := q ∈ walk)]
    have hpossible' : ∀ index damage q, fault = some (index + 1, damage) → walk[index]? = some q →
        Possible m source' q damage := by
      intro index damage q hfault hq hname
      have hold := hpossible (index + 1) damage q hfault hq hname
      have hne : q ≠ p := fun hsame => hwalk.1 (hsame ▸ List.mem_of_getElem? hq)
      have hkind : Database files q := by
        rcases hmet.2 q (List.mem_of_getElem? hq) with hside | hdatabase | hordinary
        · exact absurd ((not_side_of_database hname).symm.trans hside) (by decide)
        · exact hdatabase
        · exact absurd (hordinary.2.2.symm.trans hname) (by decide)
      rw [hturn.families q hne hkind]
      exact hold
    rcases fault with _ | ⟨_ | index, damage⟩
    · obtain ⟨result, source'', staged'', hrun, hresult⟩ := @ih none _ _ _ _ hstep hwalk.2 hmet.2 hfresh'
        (fun _ _ _ hfault => by cases hfault)
      refine ⟨result, source'', staged'', ?_, ?_⟩
      · simp only [copyFiles, hcopy]
        exact hrun
      · rw [hset] at hresult
        exact hresult
    · refine ⟨.crashed, (breakFile damage p source staged).1, (breakFile damage p source staged).2, ?_, .inr ⟨rfl, by simp, ?_⟩⟩
      · simp only [copyFiles]
      · exact breakFile_copyable hdoc hmovable h.copyable hmet.1 (hpossible 0 damage p rfl rfl)
    · obtain ⟨result, source'', staged'', hrun, hresult⟩ := @ih (some (index, damage)) _ _ _ _ hstep hwalk.2 hmet.2
        hfresh' (fun i d q hfault hq => by
          cases hfault
          exact hpossible' index damage q rfl hq)
      refine ⟨result, source'', staged'', ?_, ?_⟩
      · simp only [copyFiles, hcopy]
        exact hrun
      · rw [hset] at hresult
        simpa using hresult

structure Finished (m : Meaning κ) (files source out : Files) : Prop where
  closed : ∀ p, Database files p → familyOf source p = m.closed (familyOf files p)
  same : ∀ q, ¬ InFamily files q → source q = files q
  ordinary : ∀ p, Ordinary files p → out p = files p
  database : ∀ p, Database files p → ∃ copied, familyOf out p = alone (some copied) ∧
    m.content (alone (some copied)) = m.content (familyOf files p)
  only : ∀ q, (out q).isSome = true → Ordinary files q ∨ InFamily files q

lemma Behind.finished {behind : Path → Prop} {source staged : Files} {manifest : List (Path × δ)}
    (h : Behind m files hash behind source staged manifest)
    (hall : ∀ p, Database files p ∨ Ordinary files p → behind p) : Finished m files source staged :=
  ⟨fun p hp => ((h.copied p (hall p (.inl hp))).database hp).1, h.copyable.same,
    fun p hp => (h.copied p (hall p (.inr hp))).ordinary hp,
    fun p hp => ((h.copied p (hall p (.inl hp))).database hp).2, h.copyable.only⟩

lemma behind_start (hash : Bytes → δ) {source staged : Files} (h : Copyable m files source staged) :
    Behind m files hash (fun _ => False) source staged ([] : List (Path × δ)) :=
  ⟨h, fun _ hfalse => hfalse.elim, by simp, by simp [Lists]⟩

variable (m files hash)

inductive Stage : Option Files → Option Files → Option Files → Option (List (Path × δ)) → Prop
  | copying {source : Files} {staged : Option Files} :
    Copyable m files source (staged.getD fun _ => none) → Stage (some source) staged none none
  | copied {source out : Files} {manifest : List (Path × δ)} :
    Finished m files source out → Lists hash out manifest → Stage (some source) (some out) none (some manifest)
  | placed {source out : Files} {staged : Option Files} {manifest : List (Path × δ)} :
    Finished m files source out → Lists hash out manifest → Stage (some source) staged (some out) (some manifest)

variable {m files hash}

lemma copyable_start {sqlite : Sqlite} (hdoc : Documented sqlite m) : Copyable m files files fun _ => none :=
  ⟨fun _ _ => hdoc.rest _, fun _ _ => rfl, fun _ _ => hdoc.fresh, fun _ h => by cases h⟩

section
variable (m hash) (T : Area → Option Files) (origin : String)

def Rests (w : World δ) (record : Record δ) (area : Area) : Prop :=
  match T area with
  | none => w.source area = none ∧ w.placed area = none
  | some files => Stage m files hash (w.source area) (w.staged area) (w.placed area) (record.directories area)

def InPlace (w : World δ) (area : Area) : Prop := (T area).isSome = true → (w.placed area).isSome = true

structure Marked (record : Record δ) (w : World δ) : Prop where
  marker : w.marker = some record
  source : record.source = origin
  rests : ∀ area, Rests m hash T w record area
  complete : record.complete = true → ∀ area, InPlace T w area

def Inv (w : World δ) : Prop :=
  (w.marker = none ∧ w.source = T ∧ (∀ area, w.staged area = none) ∧ ∀ area, w.placed area = none) ∨
    ∃ record, Marked m hash T origin record w

/-- What can happen in a directory: the walk meets the files that are there, and a crash leaves of a
    database what SQLite can leave. -/
structure AdmissibleAt (call : Call) (area : Area) (source : Files) : Prop where
  walk : (call.walk area).Nodup ∧ ∀ p, p ∈ call.walk area ↔ (source p).isSome = true
  damage : ∀ index damage p, call.crash = some (.file area index damage) → (call.walk area)[index]? = some p →
    Possible m source p damage

def Admissible (w : World δ) (call : Call) : Prop :=
  ∀ area source, w.source area = some source → AdmissibleAt m call area source

end

structure Apart (area : Area) (w w' : World δ) : Prop where
  source : ∀ a, a ≠ area → w'.source a = w.source a
  staged : ∀ a, a ≠ area → w'.staged a = w.staged a
  placed : ∀ a, a ≠ area → w'.placed a = w.placed a

section
variable {T : Area → Option Files} {origin : String} {w w' : World δ} {record record' : Record δ} {area : Area} {call : Call}

lemma Apart.refl : Apart area w w := ⟨fun _ _ => rfl, fun _ _ => rfl, fun _ _ => rfl⟩

lemma apart_place : Apart area w (w.place area) :=
  ⟨fun _ _ => rfl, fun _ ha => Function.update_of_ne ha _ _, fun _ ha => Function.update_of_ne ha _ _⟩

lemma apart_copy (source staged : Option Files) : Apart area w ((w.setSource area source).setStaged area staged) :=
  ⟨fun _ ha => Function.update_of_ne ha _ _, fun _ ha => Function.update_of_ne ha _ _, fun _ _ => rfl⟩

lemma Apart.trans {w'' : World δ} (h : Apart area w w') (h' : Apart area w' w'') : Apart area w w'' :=
  ⟨fun a ha => (h'.source a ha).trans (h.source a ha), fun a ha => (h'.staged a ha).trans (h.staged a ha),
    fun a ha => (h'.placed a ha).trans (h.placed a ha)⟩

lemma Rests.apart (h : Apart area w w') (hrecord : ∀ a, a ≠ area → record'.directories a = record.directories a)
    {a : Area} (ha : a ≠ area) (hrests : Rests m hash T w record a) : Rests m hash T w' record' a := by
  unfold Rests at hrests ⊢
  rw [h.source a ha, h.staged a ha, h.placed a ha, hrecord a ha]
  exact hrests

lemma stage_of_rests {files : Files} (harea : T area = some files) (h : Rests m hash T w record area) :
    Stage m files hash (w.source area) (w.staged area) (w.placed area) (record.directories area) := by
  unfold Rests at h
  rw [harea] at h
  exact h

lemma rests_of_stage {files : Files} (harea : T area = some files)
    (h : Stage m files hash (w.source area) (w.staged area) (w.placed area) (record.directories area)) :
    Rests m hash T w record area := by
  unfold Rests
  rw [harea]
  exact h

lemma Marked.step {files : Files} (h : Marked m hash T origin record w) (harea : T area = some files)
    (hapart : Apart area w w') (hmarker : w'.marker = some record')
    (hrecord : ∀ a, a ≠ area → record'.directories a = record.directories a) (hsource : record'.source = record.source)
    (hcomplete : record'.complete = false)
    (hstage : Stage m files hash (w'.source area) (w'.staged area) (w'.placed area) (record'.directories area)) :
    Marked m hash T origin record' w' := by
  refine ⟨hmarker, hsource.trans h.source, ?_, fun hdone => by rw [hcomplete] at hdone; cases hdone⟩
  intro a
  by_cases ha : a = area
  · rw [ha]
    exact rests_of_stage harea hstage
  · exact (h.rests a).apart hapart hrecord ha

structure Went (m : Meaning κ) (hash : Bytes → δ) (T : Area → Option Files) (origin : String) (area : Area)
    (w : World δ) (record' : Record δ) (w' : World δ) : Prop where
  marked : Marked m hash T origin record' w'
  going : record'.complete = false
  placed : InPlace T w' area
  apart : Apart area w w'

lemma Marked.place {files source out : Files} {manifest : List (Path × δ)} (h : Marked m hash T origin record w)
    (hgoing : record.complete = false) (harea : T area = some files) (hlisted : record.directories area = some manifest)
    (hsource : w.source area = some source) (hstaged : w.staged area = some out) (hfinished : Finished m files source out)
    (hlists : Lists hash out manifest) : Went m hash T origin area w record (w.place area) := by
  have hplaced : (w.place area).placed area = some out := by
    rw [← hstaged]
    exact Function.update_self ..
  refine ⟨?_, hgoing, fun _ => by rw [hplaced]; rfl, apart_place⟩
  refine h.step harea apart_place h.marker (fun _ _ => rfl) rfl hgoing ?_
  rw [hplaced, hlisted]
  change Stage m files hash (w.source area) _ _ _
  rw [hsource]
  exact .placed hfinished hlists

lemma crash_of_dies {point : Point → Bool} (h : call.dies point = true) : call.crash ≠ none := by
  intro hnone
  unfold Call.dies at h
  rw [hnone] at h
  cases h

lemma marked_start (hdoc : Documented sqlite m) (hsource : w.source = T) (hstaged : ∀ area, w.staged area = none)
    (hplaced : ∀ area, w.placed area = none) :
    Marked m hash T origin ⟨origin, false, fun _ => none⟩ (w.setMarker ⟨origin, false, fun _ => none⟩) := by
  refine ⟨rfl, rfl, ?_, fun hdone => by cases hdone⟩
  intro area
  unfold Rests
  change (match T area with
    | none => w.source area = none ∧ w.placed area = none
    | some files => Stage m files hash (w.source area) (w.staged area) (w.placed area) none)
  rw [hsource, hstaged, hplaced]
  cases T area with
  | none => exact ⟨rfl, rfl⟩
  | some files => exact .copying (copyable_start hdoc)

lemma prepare_ok (call : Call) (hdoc : Documented sqlite m) (h : Inv m hash T origin w) :
    (∃ record w', prepare origin call w = .next record w' ∧ Marked m hash T origin record w' ∧ record.complete = false ∧
      w'.source = w.source) ∨
    (prepare origin call w = .stop .crashed w ∧ call.crash ≠ none) ∨
    (prepare origin call w = .stop (.returned true) w ∧ ∃ record, Marked m hash T origin record w ∧
      record.complete = true) := by
  unfold prepare
  rcases h with ⟨hmarker, hsource, hstaged, hplaced⟩ | ⟨record, hmarked⟩
  · have hempty : ¬ (areas.any fun area => (w.placed area).isSome) = true := by
      simp [areas, hplaced]
    simp only [hmarker, if_neg hempty]
    by_cases hdies : call.dies Point.isStart = true
    · simp only [if_pos hdies]
      exact .inr (.inl ⟨trivial, crash_of_dies hdies⟩)
    · simp only [if_neg hdies]
      exact .inl ⟨_, _, rfl, marked_start hdoc hsource hstaged hplaced, rfl, rfl⟩
  · simp only [hmarked.marker]
    cases hcomplete : record.complete with
    | true => exact .inr (.inr ⟨by simp, record, hmarked, hcomplete⟩)
    | false => exact .inl ⟨record, w, by simp [hmarked.source], hmarked, hcomplete, rfl⟩

lemma InPlace.apart (hapart : Apart area w w') {a : Area} (ha : a ≠ area) (h : InPlace T w a) : InPlace T w' a := by
  unfold InPlace at h ⊢
  rw [hapart.placed a ha]
  exact h

end

end

section
variable {κ δ : Type} [DecidableEq δ] {m : Meaning κ} {hash : Bytes → δ} {sqlite : Sqlite}
variable {T : Area → Option Files} {origin : String} {w w' : World δ} {record record' : Record δ} {area : Area} {call : Call}
variable {files : Files}

lemma verify_of_lists {out : Files} {manifest : List (Path × δ)} (h : Lists hash out manifest) :
    verifyManifest hash (some out) manifest = true := by
  unfold verifyManifest
  rw [List.all_eq_true]
  intro e he
  obtain ⟨bytes, hbytes, hhash⟩ := h e he
  simp only [Option.bind_some, hbytes]
  exact decide_eq_true hhash

def Died (m : Meaning κ) (hash : Bytes → δ) (T : Area → Option Files) (origin : String) (call : Call)
    (flow : Flow δ (Record δ)) : Prop :=
  ∃ w' record', flow = .stop .crashed w' ∧ call.crash ≠ none ∧ Marked m hash T origin record' w'

lemma placeArea_ok {manifest : List (Path × δ)} (h : Marked m hash T origin record w) (hgoing : record.complete = false)
    (harea : T area = some files) (hlisted : record.directories area = some manifest) :
    (∃ w', placeArea hash call area manifest w = .next () w' ∧ Went m hash T origin area w record w') ∨
      (placeArea hash call area manifest w = .stop .crashed w ∧ call.crash ≠ none) := by
  have hstage := stage_of_rests harea (h.rests area)
  unfold placeArea
  generalize hsource : w.source area = source at hstage
  generalize hstaged : w.staged area = staged at hstage
  generalize hplaced : w.placed area = placed at hstage
  rw [hlisted] at hstage
  cases hstage with
  | copied hfinished hlists =>
    have hverify := verify_of_lists hlists
    simp only [hverify, if_true]
    by_cases hdies : call.dies (Point.isPlace area) = true
    · rw [if_pos hdies]
      exact .inr ⟨rfl, crash_of_dies hdies⟩
    · rw [if_neg hdies]
      exact .inl ⟨w.place area, rfl, h.place hgoing harea hlisted hsource hstaged hfinished hlists⟩
  | placed hfinished hlists =>
    have hverify := verify_of_lists hlists
    simp only [hverify, if_true]
    refine .inl ⟨w, rfl, h, hgoing, fun _ => ?_, Apart.refl⟩
    rw [hplaced]
    rfl

lemma copyArea_ok {source : Files} (hdoc : Documented sqlite m) (hmovable : Movable m files)
    (h : Marked m hash T origin record w) (hgoing : record.complete = false) (harea : T area = some files)
    (hlisted : record.directories area = none) (hsource : w.source area = some source)
    (hcall : AdmissibleAt m call area source) :
    (∃ record' w', copyArea hash sqlite call area source record w = .next record' w' ∧
      Went m hash T origin area w record' w') ∨
      Died m hash T origin call (copyArea hash sqlite call area source record w) := by
  have hstage := stage_of_rests harea (h.rests area)
  rw [hlisted, hsource] at hstage
  generalize hstaged : w.staged area = staged at hstage
  generalize hplaced : w.placed area = placed at hstage
  cases hstage with
  | copying hcopyable =>
    obtain ⟨hnodup, hmem⟩ := hcall.walk
    have hmet : ∀ p ∈ call.walk area, Met files p := fun p hp =>
      met_of_source hdoc hmovable hcopyable ((hmem p).1 hp)
    have hpossible : ∀ index damage p, call.fault area = some (index, damage) → (call.walk area)[index]? = some p →
        Possible m source p damage := by
      intro index damage p hfault hp
      apply hcall.damage index damage p ?_ hp
      unfold Call.fault at hfault
      split at hfault
      · rename_i a i d hcrash
        by_cases ha : a = area
        · rw [if_pos ha] at hfault
          cases hfault
          rw [hcrash, ha]
        · rw [if_neg ha] at hfault
          cases hfault
      · cases hfault
    obtain ⟨result, source', staged', hcopy, hresult⟩ := copyFiles_ok hdoc hmovable
      (behind_start hash hcopyable) hnodup hmet (fun _ _ hfalse => hfalse) hpossible
    unfold copyArea
    simp only [hstaged, hcopy]
    have hset : ((w.setSource area (some source')).setStaged area (some staged')).source area = some source' :=
      Function.update_self ..
    have hset' : ((w.setSource area (some source')).setStaged area (some staged')).staged area = some staged' :=
      Function.update_self ..
    have hapart := @apart_copy δ w area (some source') (some staged')
    have hcopying : Copyable m files source' staged' →
        Marked m hash T origin record ((w.setSource area (some source')).setStaged area (some staged')) := by
      intro hcopyable'
      apply h.step harea hapart h.marker (fun _ _ => rfl) rfl hgoing
      rw [hset, hset', hlisted]
      change Stage m files hash _ _ (w.placed area) _
      rw [hplaced]
      exact .copying hcopyable'
    rcases hresult with ⟨manifest, rfl, hbehind⟩ | ⟨rfl, hfault, hcopyable'⟩
    · by_cases hdies : call.dies (Point.isRecord area) = true
      · refine .inr ⟨_, record, ?_, crash_of_dies hdies, hcopying hbehind.copyable⟩
        simp only [if_pos hdies]
      · have hfinished := hbehind.finished fun p hp =>
          .inl ((hmem p).2 (source_of_file hdoc hmovable hcopyable hp))
        have hverify := verify_of_lists hbehind.listed
        let w₂ := ((w.setSource area (some source')).setStaged area (some staged')).setMarker (record.list area manifest)
        have hdirectories : (record.list area manifest).directories area = some manifest := Function.update_self ..
        have hapart₂ : Apart area w w₂ := ⟨hapart.source, hapart.staged, hapart.placed⟩
        have hmarked : Marked m hash T origin (record.list area manifest) w₂ := by
          refine h.step harea hapart₂ rfl (fun a ha => Function.update_of_ne ha _ _) rfl hgoing ?_
          change Stage m files hash (((w.setSource area (some source')).setStaged area (some staged')).source area)
            (((w.setSource area (some source')).setStaged area (some staged')).staged area) (w.placed area)
            ((record.list area manifest).directories area)
          rw [hset, hset', hplaced, hdirectories]
          exact .copied hfinished hbehind.listed
        simp only [if_neg hdies, hverify, if_true]
        by_cases hplace : call.dies (Point.isPlace area) = true
        · rw [if_pos hplace]
          exact .inr ⟨w₂, record.list area manifest, rfl, crash_of_dies hplace, hmarked⟩
        · rw [if_neg hplace]
          have hempty : w₂.placed area = none := hplaced
          have hwent := hmarked.place hgoing harea hdirectories hset hset' hfinished hbehind.listed
          refine .inl ⟨record.list area manifest, w₂.place area, ?_, hwent.marked, hgoing, hwent.placed,
            hapart₂.trans hwent.apart⟩
          simp only [w₂, hempty]
    · refine .inr ⟨_, record, rfl, ?_, hcopying hcopyable'⟩
      intro hnone
      unfold Call.fault at hfault
      rw [hnone] at hfault
      exact hfault rfl

lemma moveArea_ok (hdoc : Documented sqlite m) (hmovable : ∀ area files, T area = some files → Movable m files)
    (h : Marked m hash T origin record w) (hgoing : record.complete = false)
    (hcall : ∀ source, w.source area = some source → AdmissibleAt m call area source) :
    (∃ record' w', moveArea hash sqlite call area record w = .next record' w' ∧
      Went m hash T origin area w record' w') ∨
      Died m hash T origin call (moveArea hash sqlite call area record w) := by
  rcases harea : T area with _ | files
  · have hrests := h.rests area
    unfold Rests at hrests
    rw [harea] at hrests
    refine .inl ⟨record, w, ?_, h, hgoing, fun hsome => ?_, Apart.refl⟩
    · unfold moveArea
      rw [hrests.1]
    · rw [harea] at hsome
      cases hsome
  · have hpresent : ∃ source, w.source area = some source := by
      have hstage := stage_of_rests harea (h.rests area)
      generalize w.source area = source at hstage
      generalize w.staged area = staged at hstage
      generalize w.placed area = placed at hstage
      generalize record.directories area = listed at hstage
      cases hstage <;> exact ⟨_, rfl⟩
    obtain ⟨source, hsource⟩ := hpresent
    unfold moveArea
    rw [hsource]
    rcases hlisted : record.directories area with _ | manifest
    · exact copyArea_ok hdoc (hmovable area files harea) h hgoing harea hlisted hsource (hcall source hsource)
    · rcases @placeArea_ok κ δ _ m hash T origin w record area call files manifest h hgoing harea hlisted with
        ⟨w', hplace, hwent⟩ | ⟨hdied, hcrash⟩
      · simp only [hplace]
        exact .inl ⟨record, w', rfl, hwent⟩
      · simp only [hdied]
        exact .inr ⟨w, record, rfl, hcrash, h⟩

lemma moveAreas_ok (hdoc : Documented sqlite m) (hmovable : ∀ area files, T area = some files → Movable m files)
    {rest : List Area} (hrest : rest.Nodup) (h : Marked m hash T origin record w) (hgoing : record.complete = false)
    (hcall : ∀ area ∈ rest, ∀ source, w.source area = some source → AdmissibleAt m call area source) :
    (∃ record' w', moveAreas hash sqlite call rest record w = .next record' w' ∧ Marked m hash T origin record' w' ∧
      record'.complete = false ∧ (∀ area, area ∈ rest ∨ InPlace T w area → InPlace T w' area)) ∨
      Died m hash T origin call (moveAreas hash sqlite call rest record w) := by
  induction rest generalizing record w with
  | nil =>
    refine .inl ⟨record, w, rfl, h, hgoing, ?_⟩
    simp
  | cons area rest ih =>
    rw [List.nodup_cons] at hrest
    rw [List.forall_mem_cons] at hcall
    unfold moveAreas
    rcases @moveArea_ok κ δ _ m hash sqlite T origin w record area call hdoc hmovable h hgoing hcall.1 with
      ⟨record₁, w₁, hmove, hwent⟩ | ⟨w₁, record₁, hmove, hdied⟩
    · simp only [hmove]
      have hcall' : ∀ a ∈ rest, ∀ source, w₁.source a = some source → AdmissibleAt m call a source := by
        intro a ha source hsource
        rw [hwent.apart.source a fun hsame => hrest.1 (hsame ▸ ha)] at hsource
        exact hcall.2 a ha source hsource
      rcases ih hrest.2 hwent.marked hwent.going hcall' with ⟨record₂, w₂, hrun, hmarked, hstill, hplaced⟩ | hdied
      · refine .inl ⟨record₂, w₂, hrun, hmarked, hstill, ?_⟩
        intro a ha
        apply hplaced
        by_cases hsame : a = area
        · exact .inr (hsame ▸ hwent.placed)
        · rcases ha with ha | ha
          · exact .inl ((List.mem_cons.1 ha).resolve_left hsame)
          · exact .inr (ha.apart hwent.apart hsame)
      · exact .inr hdied
    · simp only [hmove]
      exact .inr ⟨w₁, record₁, rfl, hdied⟩

lemma migrate_ok (hdoc : Documented sqlite m) (hmovable : ∀ area files, T area = some files → Movable m files)
    (h : Inv m hash T origin w) (hcall : Admissible m w call) :
    Inv m hash T origin (migrateLegacyData hash sqlite origin w call).2 ∧
      (((migrateLegacyData hash sqlite origin w call).1 = .crashed ∧ call.crash ≠ none) ∨
        ((migrateLegacyData hash sqlite origin w call).1 = .returned true ∧ ∃ record,
          Marked m hash T origin record (migrateLegacyData hash sqlite origin w call).2 ∧ record.complete = true)) := by
  unfold migrateLegacyData
  rcases prepare_ok call hdoc h with ⟨record, w₁, hprepare, hmarked, hgoing, hsource⟩ |
    ⟨hprepare, hcrash⟩ | ⟨hprepare, record, hmarked, hcomplete⟩
  · simp only [hprepare]
    have hcall' : ∀ area ∈ areas, ∀ source, w₁.source area = some source → AdmissibleAt m call area source := by
      intro area _ source hat
      rw [hsource] at hat
      exact hcall area source hat
    rcases @moveAreas_ok κ δ _ m hash sqlite T origin w₁ record call hdoc hmovable areas (by decide) hmarked hgoing hcall'
      with ⟨record₂, w₂, hmove, hmarked₂, hgoing₂, hplaced⟩ | ⟨w₂, record₂, hmove, hcrash, hmarked₂⟩
    · simp only [hmove]
      by_cases hdies : call.dies Point.isComplete = true
      · simp only [if_pos hdies]
        exact ⟨.inr ⟨record₂, hmarked₂⟩, .inl ⟨trivial, crash_of_dies hdies⟩⟩
      · simp only [if_neg hdies]
        have hdone : Marked m hash T origin { record₂ with complete := true }
            (w₂.setMarker { record₂ with complete := true }) := by
          refine ⟨rfl, hmarked₂.source, hmarked₂.rests, fun _ area => ?_⟩
          have hin : area ∈ areas := by cases area <;> decide
          exact hplaced area (.inl hin)
        exact ⟨.inr ⟨_, hdone⟩, .inr ⟨trivial, _, hdone, rfl⟩⟩
    · simp only [hmove]
      exact ⟨.inr ⟨record₂, hmarked₂⟩, .inl ⟨trivial, hcrash⟩⟩
  · simp only [hprepare]
    exact ⟨h, .inl ⟨trivial, hcrash⟩⟩
  · simp only [hprepare]
    exact ⟨h, .inr ⟨trivial, record, hmarked, hcomplete⟩⟩

lemma migrate_complete (hmarker : w.marker = some record) (hcomplete : record.complete = true) (call : Call) :
    migrateLegacyData hash sqlite origin w call = (.returned true, w) := by
  unfold migrateLegacyData prepare
  simp only [hmarker, hcomplete, if_true]

end

section
variable {κ : Type} {m : Meaning κ} {files source out : Files}

lemma copied_of_out (h : Finished m files source out) {q : Path} (hq : (out q).isSome = true) :
    Ordinary files q ∨ Database files q := by
  rcases h.only q hq with hordinary | ⟨p, s, hp, rfl⟩
  · exact .inl hordinary
  · obtain ⟨copied, halone, -⟩ := h.database p hp
    have hpart : out (p.part s) = alone (some copied) s := congrFun halone s
    cases s with
    | main =>
      rw [part_main]
      exact .inr hp
    | _ =>
      rw [hpart] at hq
      cases hq

lemma out_eq_none (h : Finished m files source out) {q : Path} (hordinary : ¬ Ordinary files q)
    (hdatabase : ¬ Database files q) : out q = none := by
  rcases hq : out q with _ | bytes
  · rfl
  · rcases copied_of_out h (q := q) (by rw [hq]; rfl) with hcopied | hcopied
    · exact absurd hcopied hordinary
    · exact absurd hcopied hdatabase

lemma familyOf_of_finished (h : Finished m files source out) {p : Path} (hp : Ordinary files p) :
    familyOf out p = kept (familyOf files p) := by
  have hside : ∀ s, s = .wal ∨ s = .shm → out (p.part s) = none := by
    intro s hs
    apply out_eq_none h
    · exact fun hordinary => absurd (hordinary.2.1.symm.trans (isSide_part p hs)) (by decide)
    · exact fun hdatabase => absurd ((not_side_of_database hdatabase.2).symm.trans (isSide_part p hs)) (by decide)
  funext s
  cases s with
  | main =>
    change out (p.part .main) = files (p.part .main)
    rw [part_main]
    exact h.ordinary p hp
  | journal =>
    change out (p.part .journal) = files (p.part .journal)
    rcases hfile : files (p.part .journal) with _ | bytes
    · apply out_eq_none h
      · exact fun hordinary => by
          have hsome := hordinary.1
          rw [hfile] at hsome
          cases hsome
      · exact fun hdatabase => by
          have hsome := hdatabase.1
          rw [hfile] at hsome
          cases hsome
    · rw [← hfile]
      apply h.ordinary
      exact ⟨by rw [hfile]; rfl, not_side_journal p, not_database_part p (by decide)⟩
  | wal => exact hside .wal (.inl rfl)
  | shm => exact hside .shm (.inr rfl)

lemma kind_of_file (hmovable : Movable m files) {p : Path} (hp : (files p).isSome = true)
    (hside : ¬ TrueSide m files p) : Ordinary files p ∨ Database files p := by
  cases hname : isSide p.name with
  | true => exact absurd (hmovable.sides p hp hname) hside
  | false =>
    cases hdatabase : isDatabase p.name with
    | true => exact .inr ⟨hp, hdatabase⟩
    | false => exact .inl ⟨hp, hname, hdatabase⟩

lemma carried_of_finished (hmovable : Movable m files) (h : Finished m files source out) : Carried m files out := by
  refine ⟨?_, ?_, ?_, ?_⟩
  · intro p hp
    apply out_eq_none h
    · exact fun hordinary => absurd (hordinary.2.1.symm.trans hp.isSide) (by decide)
    · exact fun hdatabase => absurd ((not_side_of_database hdatabase.2).symm.trans hp.isSide) (by decide)
  · intro p c hp hside hc
    rcases kind_of_file hmovable hp hside with hordinary | hdatabase
    · constructor
      · rw [h.ordinary p hordinary]
        exact hp
      · rw [familyOf_of_finished h hordinary]
        exact hmovable.others p c hordinary hc
    · obtain ⟨copied, halone, hcontent⟩ := h.database p hdatabase
      constructor
      · have hmain : out (p.part .main) = some copied := congrFun halone .main
        rw [part_main] at hmain
        rw [hmain]
        rfl
      · rw [halone, hcontent]
        exact hc
  · intro p hp hside hnone
    rcases kind_of_file hmovable hp hside with hordinary | hdatabase
    · exact h.ordinary p hordinary
    · have hcontent := (hmovable.databases p hdatabase).1
      rw [hnone] at hcontent
      cases hcontent
  · intro p hp
    have habsent : ¬ (files p).isSome = true := by
      rw [hp]
      decide
    exact out_eq_none h (fun hordinary => habsent hordinary.1) fun hdatabase => habsent hdatabase.1

lemma untouched_iff (h : Finished m files source out) :
    source = files ↔ ∀ p, Database files p → m.closed (familyOf files p) = familyOf files p := by
  constructor
  · intro hsame p hp
    rw [← h.closed p hp, hsame]
  · intro hclosed
    funext q
    by_cases hq : InFamily files q
    · obtain ⟨p, s, hp, rfl⟩ := hq
      have hfamily := h.closed p hp
      rw [hclosed p hp] at hfamily
      exact congrFun hfamily s
    · exact h.same q hq

end

section
variable {κ δ : Type} {m : Meaning κ} {hash : Bytes → δ} {sqlite : Sqlite} {T : Area → Option Files}

def initial (δ : Type) (T : Area → Option Files) : World δ := ⟨T, none, fun _ => none, fun _ => none⟩

def Migrated (m : Meaning κ) (T : Area → Option Files) (w : World δ) : Prop :=
  ∀ area, match T area with
    | none => w.placed area = none
    | some files => ∃ out, w.placed area = some out ∧ Carried m files out

lemma inv_initial (origin : String) : Inv m hash T origin (initial δ T) :=
  .inl ⟨rfl, rfl, fun _ => rfl, fun _ => rfl⟩

lemma finished_of_marked {origin : String} {record : Record δ} {w : World δ} (h : Marked m hash T origin record w)
    (hcomplete : record.complete = true) {area : Area} {files : Files} (harea : T area = some files) :
    ∃ source out, w.source area = some source ∧ w.placed area = some out ∧ Finished m files source out := by
  have hplaced := h.complete hcomplete area (by rw [harea]; rfl)
  have hstage := stage_of_rests harea (h.rests area)
  generalize w.source area = source at hstage ⊢
  generalize w.staged area = staged at hstage
  generalize w.placed area = placed at hstage hplaced ⊢
  generalize record.directories area = listed at hstage
  cases hstage with
  | placed hfinished _ => exact ⟨_, _, rfl, rfl, hfinished⟩
  | _ => cases hplaced

lemma migrated_of_marked (hmovable : ∀ area files, T area = some files → Movable m files) {origin : String}
    {record : Record δ} {w : World δ} (h : Marked m hash T origin record w) (hcomplete : record.complete = true) :
    Migrated m T w := by
  intro area
  rcases harea : T area with _ | files
  · have hrests := h.rests area
    unfold Rests at hrests
    rw [harea] at hrests
    exact hrests.2
  · obtain ⟨source, out, -, hplaced, hfinished⟩ := finished_of_marked h hcomplete harea
    exact ⟨out, hplaced, carried_of_finished (hmovable area files harea) hfinished⟩

def Undisturbed (m : Meaning κ) (T : Area → Option Files) : Prop :=
  ∀ area files, T area = some files → ∀ p, Database files p → m.closed (familyOf files p) = familyOf files p

lemma source_of_marked {origin : String} {record : Record δ} {w : World δ} (h : Marked m hash T origin record w)
    (hcomplete : record.complete = true) : w.source = T ↔ Undisturbed m T := by
  constructor
  · intro hsame area files harea
    obtain ⟨source, out, hsource, -, hfinished⟩ := finished_of_marked h hcomplete harea
    rw [hsame, harea] at hsource
    cases hsource
    exact (untouched_iff hfinished).1 rfl
  · intro hrest
    funext area
    rcases harea : T area with _ | files
    · have hrests := h.rests area
      unfold Rests at hrests
      rw [harea] at hrests
      exact hrests.1
    · obtain ⟨source, out, hsource, -, hfinished⟩ := finished_of_marked h hcomplete harea
      rw [hsource, (untouched_iff hfinished).2 (hrest area files harea)]

variable [DecidableEq δ]

lemma inv_calls (hdoc : Documented sqlite m) (hmovable : ∀ area files, T area = some files → Movable m files)
    (origin : String) {calls : List Call}
    (hcalls : ∀ e ∈ trace (migrateLegacyData hash sqlite origin) (initial δ T) calls, Admissible m e.before e.action) :
    Inv m hash T origin (final (migrateLegacyData hash sqlite origin) (initial δ T) calls) := by
  apply (@invariant_of _ _ _ (migrateLegacyData hash sqlite origin) (Inv m hash T origin)
    (fun e => Admissible m e.before e.action) ?_ _ _ (inv_initial origin) hcalls).2
  intro w call hinv hcall
  exact (migrate_ok hdoc hmovable hinv hcall).1

lemma migrate_again {origin : String} {record : Record δ} {w : World δ} (hmarker : w.marker = some record)
    (hcomplete : record.complete = true) (calls : List Call) :
    final (migrateLegacyData hash sqlite origin) w calls = w ∧
      ∀ e ∈ trace (migrateLegacyData hash sqlite origin) w calls, e.outcome = .returned true := by
  induction calls with
  | nil => simp
  | cons call calls ih =>
    have hcall := @migrate_complete δ _ hash sqlite origin w record hmarker hcomplete call
    rw [final_cons, trace_cons, hcall]
    refine ⟨ih.1, ?_⟩
    intro e he
    rcases List.mem_cons.1 he with rfl | he
    · rw [entry_outcome, hcall]
    · exact ih.2 e he

/-- Whatever calls have died before, a call that does not die returns with everything in place, and
    leaves nothing to later calls. -/
theorem migration_completes (hdoc : Documented sqlite m) (hmovable : ∀ area files, T area = some files → Movable m files)
    (origin : String) (calls : List Call)
    (hcalls : ∀ e ∈ trace (migrateLegacyData hash sqlite origin) (initial δ T) calls, Admissible m e.before e.action)
    (last : Call) (hlast : Admissible m (final (migrateLegacyData hash sqlite origin) (initial δ T) calls) last)
    (hlives : last.crash = none) :
    (migrateLegacyData hash sqlite origin
        (final (migrateLegacyData hash sqlite origin) (initial δ T) calls) last).1 = .returned true ∧
      Migrated m T (final (migrateLegacyData hash sqlite origin) (initial δ T) (calls ++ [last])) ∧
      ((final (migrateLegacyData hash sqlite origin) (initial δ T) (calls ++ [last])).source = T ↔ Undisturbed m T) ∧
      ∀ more, final (migrateLegacyData hash sqlite origin) (initial δ T) (calls ++ [last] ++ more) =
          final (migrateLegacyData hash sqlite origin) (initial δ T) (calls ++ [last]) ∧
        ∀ e ∈ trace (migrateLegacyData hash sqlite origin)
          (final (migrateLegacyData hash sqlite origin) (initial δ T) (calls ++ [last])) more, e.outcome = .returned true := by
  have hinv := inv_calls hdoc hmovable origin hcalls
  have hend := (migrate_ok hdoc hmovable hinv hlast).2
  have hfinal : final (migrateLegacyData hash sqlite origin) (initial δ T) (calls ++ [last]) =
      (migrateLegacyData hash sqlite origin
        (final (migrateLegacyData hash sqlite origin) (initial δ T) calls) last).2 := by
    rw [final_append]
    rfl
  rcases hend with ⟨-, hcrash⟩ | ⟨hreturned, record, hmarked, hcomplete⟩
  · exact absurd hlives hcrash
  · rw [← hfinal] at hmarked
    refine ⟨hreturned, migrated_of_marked hmovable hmarked hcomplete, source_of_marked hmarked hcomplete, ?_⟩
    intro more
    have hagain := @migrate_again δ hash sqlite _ origin record _ hmarked.marker hcomplete more
    rw [final_append]
    exact hagain

end

def emptyBackup : Sqlite where
  backup reader _ := if reader .main = some [] then some (alone (some []), alone (some [])) else none

def emptyMeaning : Meaning Unit where
  content family := if family .main = some [] then some () else none
  closed family := alone (family .main)
  reading family left := left .main = family .main ∧ (family .journal = none → left .journal = none)
  writing _ := True

lemma emptyBackup_documented : Documented emptyBackup emptyMeaning := by
  refine ⟨fun f => ⟨rfl, id⟩, fun f g h hfg hgh => ⟨hgh.1.trans hfg.1, fun hf => hgh.2 (hfg.2 hf)⟩,
    fun f => ⟨rfl, fun _ => rfl⟩, fun f g hfg hf => hfg.1 ▸ hf, fun f g hfg => hfg.2, trivial, ?_⟩
  intro f g w c hc _ hfg _
  simp only [emptyMeaning] at hc hfg
  split at hc
  · rename_i hmain
    refine ⟨[], ?_, rfl, trivial⟩
    simp only [emptyBackup, emptyMeaning, hfg.1, hmain, if_true]
  · cases hc

def rootPath (name : Name) : Path := ⟨[], name⟩

def workspaceTree (entries : List (Path × Bytes)) : Area → Option Files
  | .promptforge => none
  | .workspace => some fun p => (entries.find? fun e => decide (e.1 = p)).map Prod.snd

def callOf (walk : List Path) (crash : Option Point) : Call := ⟨fun _ => walk, crash⟩

def notes : Path := rootPath ['n', 'o', 't', 'e', 's', '-', 'w', 'a', 'l']
def textDatabase : Path := rootPath ['l', 'o', 'g', '.', 'd', 'b']

/-- A text whose name ends like that of a write-ahead log is left out of a migration that reports
    success, and a text under the suffix of a database makes every call raise. -/
theorem left_out_and_stuck :
    ((migrateLegacyData id emptyBackup "old" (initial Bytes (workspaceTree [(notes, [1])])) (callOf [notes] none)).1 =
        .returned true ∧
      ((migrateLegacyData id emptyBackup "old" (initial Bytes (workspaceTree [(notes, [1])])) (callOf [notes] none)).2.placed
        .workspace).map (fun files => files notes) = some none) ∧
    (migrateLegacyData id emptyBackup "old" (initial Bytes (workspaceTree [(textDatabase, [1])]))
      (callOf [textDatabase] none)).1 = .raised .database := by
  decide +kernel

def mainFile : Path := rootPath ['m', 'a', 'i', 'n', '.', 'c', 'p', 'p']
def emptyDatabase : Path := rootPath ['a', '.', 'd', 'b']

def project : List (Path × Bytes) := [(mainFile, [1]), (emptyDatabase, [])]

def cutShort : Call := callOf [mainFile, emptyDatabase]
  (some (.file .workspace 0 ⟨some [], fun _ => none, fun _ => none⟩))

def wholeCall : Call := callOf [mainFile, emptyDatabase] none

lemma project_files {p : Path} {files : Files} (hfiles : workspaceTree project .workspace = some files) :
    (files p).isSome = true ↔ p = mainFile ∨ p = emptyDatabase := by
  cases hfiles
  by_cases hmain : p = mainFile
  · simp [project, hmain]
  · by_cases hempty : p = emptyDatabase
    · subst hempty
      exact iff_of_true rfl (.inr rfl)
    · simp [project, hmain, hempty, Ne.symm hmain, Ne.symm hempty]

lemma project_movable (area : Area) (files : Files) (h : workspaceTree project area = some files) :
    Movable emptyMeaning files := by
  cases area with
  | promptforge => cases h
  | workspace =>
    have hfiles := fun p => @project_files p files h
    cases h
    refine ⟨?_, ?_, ?_⟩
    · intro p hp hside
      rcases (hfiles p).1 hp with rfl | rfl
      · exact absurd hside (by decide)
      · exact absurd hside (by decide)
    · rintro p ⟨hp, hdatabase⟩
      rcases (hfiles p).1 hp with rfl | rfl
      · exact absurd hdatabase (by decide)
      · exact ⟨by decide, by decide⟩
    · rintro p c ⟨hp, -, hdatabase⟩ hc
      rcases (hfiles p).1 hp with rfl | rfl
      · exact hc
      · exact absurd hdatabase (by decide)

lemma project_admissible {w : World Bytes} (hw : w.source = workspaceTree project) {call : Call}
    (hwalk : call.walk = fun _ => [mainFile, emptyDatabase])
    (hdamage : ∀ area index damage p, call.crash = some (.file area index damage) →
      (call.walk area)[index]? = some p → isDatabase p.name = false) : Admissible emptyMeaning w call := by
  intro area source hsource
  rw [hw] at hsource
  cases area with
  | promptforge => cases hsource
  | workspace =>
    refine ⟨?_, ?_⟩
    · rw [hwalk]
      refine ⟨by decide, fun p => ?_⟩
      rw [project_files hsource]
      simp
    · intro index damage p hcrash hp hdatabase
      rw [hdamage _ index damage p hcrash hp] at hdatabase
      cases hdatabase

theorem project_migrated :
    (migrateLegacyData id emptyBackup "old" (final (migrateLegacyData id emptyBackup "old")
        (initial Bytes (workspaceTree project)) [cutShort]) wholeCall).1 = .returned true ∧
      Migrated emptyMeaning (workspaceTree project) (final (migrateLegacyData id emptyBackup "old")
        (initial Bytes (workspaceTree project)) ([cutShort] ++ [wholeCall])) := by
  have hcut : Admissible emptyMeaning (initial Bytes (workspaceTree project)) cutShort := by
    apply project_admissible rfl rfl
    intro area index damage p hcrash hp
    cases hcrash
    cases hp
    decide
  have hwhole : Admissible emptyMeaning (final (migrateLegacyData id emptyBackup "old")
      (initial Bytes (workspaceTree project)) [cutShort]) wholeCall := by
    refine project_admissible ?_ rfl (fun _ _ _ _ hcrash _ => by cases hcrash)
    funext area
    cases area <;> rfl
  have hcompletes := migration_completes emptyBackup_documented project_movable "old" [cutShort]
    (fun e he => by
      rw [List.mem_singleton.1 he]
      exact hcut) wholeCall hwhole rfl
  exact ⟨hcompletes.1, hcompletes.2.1⟩

end PromptForge.DataMigration
