import PromptForge.ActivityStream

namespace PromptForge.Activities
open Json

def Envelope.key (e : Envelope) : Option (String × String) := e.activityRecord.map fun a => (e.runId, a.id)

lemma sameActivity_iff {e x : Envelope} {a : ActivityRecord} (ha : e.activityRecord = some a) :
    sameActivity e.runId a.id x = true ↔ x.key = e.key := by
  unfold sameActivity Envelope.key
  rw [ha]
  cases x.activityRecord <;> simp

lemma key_eq_none {e : Envelope} : e.key = none ↔ e.activityRecord = none := by
  simp [Envelope.key]

def KeyedList (l : List Envelope) : Prop := l.Pairwise fun x y => x.key = y.key → x.key = none

lemma KeyedList.eq {l : List Envelope} (hl : KeyedList l) {x y : Envelope} (hx : x ∈ l) (hy : y ∈ l)
    (hkey : x.key = y.key) (hsome : x.key ≠ none) : x = y := by
  induction l with
  | nil => cases hx
  | cons z l ih =>
    obtain ⟨hz, hl⟩ := List.pairwise_cons.1 hl
    rcases List.mem_cons.1 hx with rfl | hxl <;> rcases List.mem_cons.1 hy with rfl | hyl
    · rfl
    · exact absurd (hz y hyl hkey) hsome
    · exact absurd (hkey.trans (hz x hxl hkey.symm)) hsome
    · exact ih hl hxl hyl

lemma eraseP_eq_filter {l : List Envelope} (hl : KeyedList l) {e : Envelope} {a : ActivityRecord}
    (ha : e.activityRecord = some a) :
    l.eraseP (sameActivity e.runId a.id) = l.filter fun x => !sameActivity e.runId a.id x := by
  induction l with
  | nil => rfl
  | cons z l ih =>
    obtain ⟨hz, hl⟩ := List.pairwise_cons.1 hl
    cases hsame : sameActivity e.runId a.id z with
    | false => simp [hsame, ih hl]
    | true =>
      have hkey := (sameActivity_iff ha).1 hsame
      have hnone : e.key ≠ none := by simp [key_eq_none, ha]
      have hrest : ∀ x ∈ l, sameActivity e.runId a.id x = false := by
        intro x hx
        by_contra hx'
        have hxkey := (sameActivity_iff ha).1 (by simpa using hx')
        exact hnone (hkey ▸ hz x hx (hkey.trans hxkey.symm))
      rw [List.eraseP_cons_of_pos hsame, List.filter_cons_of_neg (by simp [hsame])]
      exact (List.filter_eq_self.2 fun x hx => by simp [hrest x hx]).symm

lemma mem_withoutPrevious {l : List Envelope} (hl : KeyedList l) (e x : Envelope) :
    x ∈ withoutPrevious l e ↔ x ∈ l ∧ (e.key ≠ none → x.key ≠ e.key) := by
  unfold withoutPrevious
  cases ha : e.activityRecord with
  | none => simp [key_eq_none.2 ha]
  | some a =>
    have hnone : e.key ≠ none := by simp [key_eq_none, ha]
    simp only [eraseP_eq_filter hl ha, List.mem_filter, Bool.not_eq_true', hnone, ne_eq, not_false_eq_true,
      forall_const, ← sameActivity_iff ha, Bool.not_eq_true]

lemma withoutPrevious_sublist (l : List Envelope) (e : Envelope) : (withoutPrevious l e).Sublist l := by
  unfold withoutPrevious
  split
  · exact List.Sublist.refl l
  · exact List.eraseP_sublist

lemma previous_eq_some {l : List Envelope} (hl : KeyedList l) {e x : Envelope} (hx : x ∈ l) (hkey : x.key = e.key)
    (hsome : e.key ≠ none) : previous l e = some x := by
  obtain ⟨a, ha⟩ := Option.ne_none_iff_exists'.1 (mt key_eq_none.2 hsome)
  unfold previous
  rw [ha, Option.bind_some]
  have hmatch : sameActivity e.runId a.id x = true := (sameActivity_iff ha).2 hkey
  cases hfind : l.find? (sameActivity e.runId a.id) with
  | none => exact absurd hmatch (by simpa using List.find?_eq_none.1 hfind x hx)
  | some y =>
    have hy := (sameActivity_iff ha).1 (List.find?_some hfind)
    rw [hl.eq (List.mem_of_find?_eq_some hfind) hx (hy.trans hkey.symm) (hy ▸ hsome)]

lemma mem_of_previous {l : List Envelope} {e x : Envelope} (h : previous l e = some x) :
    x ∈ l ∧ x.key = e.key ∧ e.key ≠ none := by
  unfold previous at h
  obtain ⟨a, ha, hfind⟩ := Option.bind_eq_some_iff.1 h
  exact ⟨List.mem_of_find?_eq_some hfind, (sameActivity_iff ha).1 (List.find?_some hfind), by simp [key_eq_none, ha]⟩

section Step
variable {parseDate : String → Option ℚ}

def touch (parseDate : String → Option ℚ) (e x : Envelope) : Envelope :=
  if e.isTerminal then settle parseDate e x else x

def shown (parseDate : String → Option ℚ) (listed : Option NNRat) (e : Envelope) : Envelope :=
  { e with activityRecord := e.activityRecord.map (normalize parseDate e.toHeader listed) }

def listedDuration (l : List Envelope) (e : Envelope) : Option NNRat :=
  (previous l e).bind fun old => old.activityRecord.bind (·.durationMs)

@[simp] lemma toHeader_settle (e x : Envelope) : (settle parseDate e x).toHeader = x.toHeader := by
  unfold settle
  split
  · rfl
  · split <;> rfl

lemma id_settleActivity (a : ActivityRecord) (outcome : String) (finishedAt : Option ℚ) :
    (settleActivity a outcome finishedAt).id = a.id ∧ (settleActivity a outcome finishedAt).startedAt = a.startedAt := by
  unfold settleActivity
  split <;> exact ⟨rfl, rfl⟩

lemma id_normalize (h : Header) (listed : Option NNRat) (a : ActivityRecord) :
    (normalize parseDate h listed a).id = a.id ∧ (normalize parseDate h listed a).startedAt = a.startedAt := by
  unfold normalize
  split <;> exact ⟨rfl, rfl⟩

@[simp] lemma key_settle (e x : Envelope) : (settle parseDate e x).key = x.key := by
  unfold settle
  cases ha : x.activityRecord with
  | none => rfl
  | some a =>
    dsimp only
    split
    · rfl
    · simp [Envelope.key, ha, (id_settleActivity ..).1]

@[simp] lemma toHeader_touch (e x : Envelope) : (touch parseDate e x).toHeader = x.toHeader := by
  unfold touch
  split
  · exact toHeader_settle e x
  · rfl

@[simp] lemma key_touch (e x : Envelope) : (touch parseDate e x).key = x.key := by
  unfold touch
  split
  · exact key_settle e x
  · rfl

lemma touch_plain {x : Envelope} (hx : x.activityRecord = none) (e : Envelope) : touch parseDate e x = x := by
  unfold touch settle
  rw [hx]
  split <;> rfl

@[simp] lemma toHeader_shown (listed : Option NNRat) (e : Envelope) : (shown parseDate listed e).toHeader = e.toHeader := rfl

@[simp] lemma key_shown (listed : Option NNRat) (e : Envelope) : (shown parseDate listed e).key = e.key := by
  unfold shown Envelope.key
  cases e.activityRecord with
  | none => rfl
  | some a => simp [(id_normalize ..).1]

lemma shown_plain {e : Envelope} (he : e.activityRecord = none) (listed : Option NNRat) :
    shown parseDate listed e = e := by
  obtain ⟨header, record⟩ := e
  cases he
  rfl

instance : Std.Total bySequence := ⟨fun x y => le_total x.sequence y.sequence⟩

instance : IsTrans Envelope bySequence := ⟨fun _ _ _ => le_trans⟩

def placed (parseDate : String → Option ℚ) (l : List Envelope) (e : Envelope) : List Envelope :=
  (withoutPrevious l e).map (touch parseDate e) ++ [shown parseDate (listedDuration l e) e]

lemma place_eq (l : List Envelope) (e : Envelope) :
    place parseDate l e = ((placed parseDate l e).insertionSort bySequence).rtake 2000 := by
  unfold place placed touch
  cases he : e.isTerminal with
  | true => simp [shown, listedDuration]
  | false => simp [shown, listedDuration]

lemma place_perm {l : List Envelope} {e : Envelope} (hfew : (placed parseDate l e).length ≤ 2000) :
    (place parseDate l e).Perm (placed parseDate l e) := by
  rw [place_eq, List.rtake, List.length_insertionSort, Nat.sub_eq_zero_of_le hfew, List.drop_zero]
  exact List.perm_insertionSort ..

lemma place_sorted (l : List Envelope) (e : Envelope) : (place parseDate l e).Pairwise bySequence := by
  rw [place_eq]
  exact (List.pairwise_insertionSort ..).sublist (List.drop_sublist ..)

end Step

structure EventSet where
  packets : List Packet
  distinct : (packets.map (·.sequence)).Nodup
  few : packets.length ≤ 2000

namespace EventSet

def envelopes (s : EventSet) : List Envelope := s.packets.filterMap Packet.envelope

def Delivers (s : EventSet) (ds : List Packet) : Prop := ∀ p, p ∈ ds ↔ p ∈ s.packets

end EventSet

lemma toHeader_envelope {p : Packet} {e : Envelope} (h : p.envelope = some e) : e.toHeader = p.toHeader := by
  unfold Packet.envelope at h
  split at h
  · cases h
  · split at h
    · cases h
      rfl
    · obtain ⟨a, -, h⟩ := Option.bind_eq_some_iff.1 h
      split at h
      · cases h
        rfl
      · cases h

section Views
variable {parseDate : String → Option ℚ} {s : EventSet}

lemma packet_eq {p q : Packet} (hp : p ∈ s.packets) (hq : q ∈ s.packets) (h : p.sequence = q.sequence) : p = q :=
  List.inj_on_of_nodup_map s.distinct hp hq h

lemma envelope_eq {e e' : Envelope} (he : e ∈ s.envelopes) (he' : e' ∈ s.envelopes) (h : e.sequence = e'.sequence) :
    e = e' := by
  obtain ⟨p, hp, hpe⟩ := List.mem_filterMap.1 he
  obtain ⟨q, hq, hqe⟩ := List.mem_filterMap.1 he'
  have hseq : p.sequence = q.sequence := by
    rw [← toHeader_envelope hpe, ← toHeader_envelope hqe]
    exact h
  rw [packet_eq hp hq hseq, hqe] at hpe
  exact (Option.some.inj hpe).symm

/-- What a list shows of the envelopes `seen`, whatever their order: those without an activity,
    and the newest of each activity. -/
structure View (seen : Envelope → Prop) (l : List Envelope) : Prop where
  sorted : l.Pairwise fun x y => x.sequence < y.sequence
  keyed : KeyedList l
  comes : ∀ x ∈ l, ∃ e, seen e ∧ x.toHeader = e.toHeader ∧ x.key = e.key
  plain : ∀ e, seen e → e.key = none → e ∈ l
  newest : ∀ e, seen e → e.key ≠ none → ∃ x ∈ l, x.key = e.key ∧ e.sequence ≤ x.sequence

lemma View.nodup {seen : Envelope → Prop} {l : List Envelope} (h : View seen l) : (l.map (·.sequence)).Nodup :=
  List.pairwise_map.2 (h.sorted.imp fun hlt => hlt.ne)

lemma View.length_le {l : List Envelope} (hsub : ∀ x ∈ l, ∃ e ∈ s.envelopes, x.toHeader = e.toHeader)
    (hnodup : (l.map (·.sequence)).Nodup) : l.length ≤ 2000 := by
  have hsubset : l.map (·.sequence) ⊆ s.packets.map (·.sequence) := by
    intro n hn
    obtain ⟨x, hx, rfl⟩ := List.mem_map.1 hn
    obtain ⟨e, he, hheader⟩ := hsub x hx
    obtain ⟨p, hp, hpe⟩ := List.mem_filterMap.1 he
    refine List.mem_map.2 ⟨p, hp, ?_⟩
    rw [hheader, toHeader_envelope hpe]
  have hle := (List.subperm_of_subset hnodup hsubset).length_le
  rw [List.length_map, List.length_map] at hle
  exact hle.trans s.few

lemma View.fresh {seen : Envelope → Prop} {l : List Envelope} (h : View seen l)
    (hseen : ∀ e, seen e → e ∈ s.envelopes) {p : Packet} {e : Envelope} (hp : p ∈ s.packets) (hpe : p.envelope = some e)
    (hnew : (l.any fun old => old.runId = p.runId && old.sequence = p.sequence) = false) :
    ∀ x ∈ l, x.sequence ≠ e.sequence := by
  intro x hx hseq
  obtain ⟨e', he', hheader, -⟩ := h.comes x hx
  have heq : e' = e := by
    refine envelope_eq (hseen e' he') (List.mem_filterMap.2 ⟨p, hp, hpe⟩) ?_
    rw [← hheader]
    exact hseq
  have hpx : x.toHeader = p.toHeader := by rw [hheader, heq, toHeader_envelope hpe]
  have hmem := List.any_eq_false.1 hnew x hx
  simp [hpx] at hmem

lemma View.congr {seen seen' : Envelope → Prop} {l : List Envelope} (h : View seen l)
    (hiff : ∀ e, seen e ↔ seen' e) : View seen' l := by
  rwa [show seen' = seen from funext fun e => propext (hiff e).symm]

lemma placed_sequences (l : List Envelope) (e : Envelope) :
    (placed parseDate l e).map (·.sequence) = (withoutPrevious l e).map (·.sequence) ++ [e.sequence] := by
  unfold placed
  rw [List.map_append, List.map_map]
  congr 1
  refine List.map_congr_left fun x _ => ?_
  simp [toHeader_touch]

section Place
variable {seen : Envelope → Prop} {l : List Envelope} {e : Envelope}

lemma placed_nodup (h : View seen l) (hfresh : ∀ x ∈ l, x.sequence ≠ e.sequence) :
    ((placed parseDate l e).map (·.sequence)).Nodup := by
  rw [placed_sequences]
  refine List.nodup_append'.2 ⟨h.nodup.sublist ((withoutPrevious_sublist l e).map _), List.nodup_singleton _, ?_⟩
  intro n hn hn'
  obtain ⟨x, hx, rfl⟩ := List.mem_map.1 hn
  exact hfresh x ((withoutPrevious_sublist l e).subset hx) (List.mem_singleton.1 hn')

lemma place_perm_of_view (h : View seen l) (hseen : ∀ e, seen e → e ∈ s.envelopes) (he : e ∈ s.envelopes)
    (hfresh : ∀ x ∈ l, x.sequence ≠ e.sequence) : (place parseDate l e).Perm (placed parseDate l e) := by
  refine place_perm (@View.length_le s _ ?_ (placed_nodup h hfresh))
  intro y hy
  rcases List.mem_append.1 hy with hy | hy
  · obtain ⟨x, hx, rfl⟩ := List.mem_map.1 hy
    obtain ⟨e', he', hheader, -⟩ := h.comes x ((withoutPrevious_sublist l e).subset hx)
    exact ⟨e', hseen e' he', (toHeader_touch e x).trans hheader⟩
  · rw [List.mem_singleton.1 hy]
    exact ⟨e, he, rfl⟩

lemma mem_place (h : View seen l) (hseen : ∀ e, seen e → e ∈ s.envelopes) (he : e ∈ s.envelopes)
    (hfresh : ∀ x ∈ l, x.sequence ≠ e.sequence) (y : Envelope) :
    y ∈ place parseDate l e ↔
      (∃ x ∈ l, (e.key ≠ none → x.key ≠ e.key) ∧ touch parseDate e x = y) ∨
        y = shown parseDate (listedDuration l e) e := by
  rw [(place_perm_of_view h hseen he hfresh).mem_iff]
  unfold placed
  simp only [List.mem_append, List.mem_map, List.mem_singleton, mem_withoutPrevious h.keyed, and_assoc]

lemma View.place (h : View seen l) (hseen : ∀ e, seen e → e ∈ s.envelopes) (he : e ∈ s.envelopes)
    (hfresh : ∀ x ∈ l, x.sequence ≠ e.sequence) (hlater : ∀ old, previous l e = some old → old.sequence ≤ e.sequence) :
    View (fun e' => seen e' ∨ e' = e) (place parseDate l e) := by
  have hmem := @mem_place parseDate s seen l e h hseen he hfresh
  have hperm := @place_perm_of_view parseDate s seen l e h hseen he hfresh
  constructor
  · have hnodup : ((Activities.place parseDate l e).map (·.sequence)).Nodup :=
      (hperm.map _).nodup_iff.2 (placed_nodup h hfresh)
    exact ((place_sorted l e).and (List.pairwise_map.1 hnodup)).imp fun hxy => lt_of_le_of_ne hxy.1 hxy.2
  · refine hperm.symm.pairwise ?_ fun hxy hyx => ?_
    · unfold placed
      refine List.pairwise_append.2 ⟨?_, List.pairwise_singleton .., ?_⟩
      · refine List.pairwise_map.2 ((h.keyed.sublist (withoutPrevious_sublist l e)).imp ?_)
        intro x y hxy
        rwa [key_touch, key_touch]
      · intro y hy z hz
        obtain ⟨x, hx, rfl⟩ := List.mem_map.1 hy
        rw [List.mem_singleton.1 hz, key_touch, key_shown]
        intro hkey
        by_contra hnone
        exact ((mem_withoutPrevious h.keyed e x).1 hx).2 (hkey ▸ hnone) hkey
    · rw [hyx]
      exact hxy hyx.symm
  · intro y hy
    rcases (hmem y).1 hy with ⟨x, hx, -, rfl⟩ | rfl
    · obtain ⟨e', he', hheader, hkey⟩ := h.comes x hx
      exact ⟨e', .inl he', (toHeader_touch e x).trans hheader, (key_touch e x).trans hkey⟩
    · exact ⟨e, .inr rfl, rfl, key_shown ..⟩
  · rintro e' (he' | rfl) hkey
    · refine (hmem e').2 (.inl ⟨e', h.plain e' he' hkey, fun hsome heq => ?_, touch_plain (key_eq_none.1 hkey) e⟩)
      exact hsome (heq ▸ hkey)
    · refine (hmem e').2 (.inr ?_)
      rw [shown_plain (key_eq_none.1 hkey)]
  · rintro e' (he' | rfl) hkey
    · obtain ⟨x, hx, hxkey, hle⟩ := h.newest e' he' hkey
      by_cases hsame : x.key = e.key
      · have hprevious := previous_eq_some h.keyed hx hsame (hsame ▸ hxkey ▸ hkey)
        refine ⟨shown parseDate (listedDuration l e) e, (hmem _).2 (.inr rfl), ?_, ?_⟩
        · rw [key_shown, ← hsame, hxkey]
        · exact hle.trans (hlater x hprevious)
      · refine ⟨touch parseDate e x, (hmem _).2 (.inl ⟨x, hx, fun _ => hsame, rfl⟩), ?_, ?_⟩
        · rw [key_touch, hxkey]
        · rw [toHeader_touch]
          exact hle
    · exact ⟨_, (hmem _).2 (.inr rfl), key_shown .., le_rfl⟩

end Place

structure Placeable (s : EventSet) (seen : Envelope → Prop) (l : List Envelope) (e : Envelope) : Prop where
  view : View seen l
  known : ∀ e, seen e → e ∈ s.envelopes
  mem : e ∈ s.envelopes
  fresh : ∀ x ∈ l, x.sequence ≠ e.sequence
  later : ∀ old, previous l e = some old → old.sequence ≤ e.sequence

lemma merge_cases {seen : Envelope → Prop} {l : List Envelope} (h : View seen l)
    (hseen : ∀ e, seen e → e ∈ s.envelopes) {p : Packet} (hp : p ∈ s.packets) :
    (mergeActivityEvents parseDate l p = l ∧ View (fun e => seen e ∨ p.envelope = some e) l) ∨
      ∃ e, p.envelope = some e ∧ Placeable s seen l e ∧ mergeActivityEvents parseDate l p = place parseDate l e := by
  unfold mergeActivityEvents
  cases hdup : l.any fun old => old.runId = p.runId && old.sequence = p.sequence with
  | true =>
    refine .inl ⟨by simp, h.congr fun e => ⟨.inl, ?_⟩⟩
    rintro (he | hpe)
    · exact he
    obtain ⟨x, hx, hsame⟩ := List.any_eq_true.1 hdup
    obtain ⟨e', he', hheader, -⟩ := h.comes x hx
    have hseq : e'.sequence = e.sequence := by
      simp only [Bool.and_eq_true, decide_eq_true_eq] at hsame
      rw [← hheader, hsame.2, ← toHeader_envelope hpe]
    rwa [← envelope_eq (hseen e' he') (List.mem_filterMap.2 ⟨p, hp, hpe⟩) hseq]
  | false =>
    cases hpe : p.envelope with
    | none => exact .inl ⟨by simp, h.congr fun e => by simp⟩
    | some e =>
      have he : e ∈ s.envelopes := List.mem_filterMap.2 ⟨p, hp, hpe⟩
      cases hprevious : previous l e with
      | none =>
        refine .inr ⟨e, rfl, ⟨h, hseen, he, h.fresh hseen hp hpe hdup, fun old hold => ?_⟩, by simp [hprevious]⟩
        rw [hprevious] at hold
        cases hold
      | some old =>
        by_cases hlt : e.sequence < old.sequence
        · obtain ⟨hold, hkey, hsome⟩ := mem_of_previous hprevious
          refine .inl ⟨by simp [hprevious, hlt], h.sorted, h.keyed, ?_, ?_, ?_⟩
          · intro x hx
            obtain ⟨e', he', hx'⟩ := h.comes x hx
            exact ⟨e', .inl he', hx'⟩
          · rintro e' (he' | he') hnone
            · exact h.plain e' he' hnone
            · cases he'
              exact absurd hnone hsome
          · rintro e' (he' | he') hsome'
            · exact h.newest e' he' hsome'
            · cases he'
              exact ⟨old, hold, hkey, hlt.le⟩
        · refine .inr ⟨e, rfl, ⟨h, hseen, he, h.fresh hseen hp hpe hdup, fun old' hold' => ?_⟩, by simp [hprevious, hlt]⟩
          rw [hprevious] at hold'
          cases hold'
          exact not_lt.1 hlt

def Among (ds : List Packet) (e : Envelope) : Prop := ∃ p ∈ ds, p.envelope = some e

lemma fold_keeps {Q : List Envelope → Prop}
    (hplace : ∀ seen l e, Placeable s seen l e → Q l → Q (place parseDate l e))
    {seen : Envelope → Prop} {l : List Envelope} (h : View seen l) (hseen : ∀ e, seen e → e ∈ s.envelopes)
    {ds : List Packet} (hds : ∀ p ∈ ds, p ∈ s.packets) (hQ : Q l) :
    View (fun e => seen e ∨ Among ds e) (ds.foldl (mergeActivityEvents parseDate) l) ∧
      Q (ds.foldl (mergeActivityEvents parseDate) l) := by
  induction ds generalizing seen l with
  | nil => exact ⟨h.congr fun e => by simp [Among], hQ⟩
  | cons p ds ih =>
    have hp : p ∈ s.packets := hds p (List.mem_cons_self ..)
    have hrest : ∀ q ∈ ds, q ∈ s.packets := fun q hq => hds q (List.mem_cons_of_mem _ hq)
    have hmerge : View (fun e => seen e ∨ p.envelope = some e) (mergeActivityEvents parseDate l p) ∧
        Q (mergeActivityEvents parseDate l p) := by
      rcases @merge_cases parseDate s seen l h hseen p hp with ⟨heq, hview⟩ | ⟨e, hpe, hplaceable, heq⟩
      · rw [heq]
        exact ⟨hview, hQ⟩
      · rw [heq]
        refine ⟨?_, hplace seen l e hplaceable hQ⟩
        exact (h.place hseen hplaceable.mem hplaceable.fresh hplaceable.later).congr fun e' => by
          rw [hpe, Option.some.injEq, eq_comm]
    have hseen' : ∀ e, seen e ∨ p.envelope = some e → e ∈ s.envelopes := by
      rintro e (he | he)
      · exact hseen e he
      · exact List.mem_filterMap.2 ⟨p, hp, he⟩
    obtain ⟨hview, hQ'⟩ := ih hmerge.1 hseen' hrest hmerge.2
    refine ⟨hview.congr fun e => ?_, hQ'⟩
    simp only [Among, List.mem_cons, exists_eq_or_imp, or_assoc]

def Top (s : EventSet) (e : Envelope) : Prop :=
  e ∈ s.envelopes ∧ e.key ≠ none ∧ ∀ e' ∈ s.envelopes, e'.key = e.key → e'.sequence ≤ e.sequence

def Envelope.listed (x : Envelope) : Option NNRat := x.activityRecord.bind (·.durationMs)

def Envelope.endDuration (parseDate : String → Option ℚ) (e : Envelope) : Option NNRat :=
  e.activityRecord.bind fun a =>
    if (e.rootStatus a).isSome ∧ a.durationMs = none then some (elapsed (e.time parseDate) a.startedAt) else none

def Possible (parseDate : String → Option ℚ) (s : EventSet) (q : Envelope) (d : NNRat) : Prop :=
  (shown parseDate none q).listed = some d ∨ (shown parseDate none q).listed = none ∧
    ∃ a, q.activityRecord = some a ∧ ∃ t ∈ s.envelopes, t.isTerminal = true ∧ t.runId = q.runId ∧ t.key ≠ q.key ∧
      elapsed (t.finishedAt parseDate) a.startedAt = d

/-- That no order of delivery makes a difference. -/
structure Convergent (parseDate : String → Option ℚ) (s : EventSet) : Prop where
  settled : ∀ e, Top s e → ∀ a, (shown parseDate none e).activityRecord = some a →
    ∀ t ∈ s.envelopes, t.isTerminal = true → t.runId = e.runId →
      a.isActive = false ∧ (t.key ≠ e.key → a.durationMs ≠ none)
  durations : ∀ e, Top s e → ∀ d, e.endDuration parseDate = some d →
    ∀ q ∈ s.envelopes, q.key = e.key → q ≠ e → ∀ d', Possible parseDate s q d' → d' = d

section Durations
variable {e x : Envelope} {a : ActivityRecord} {d : NNRat}

@[simp] lemma durationMs_settleActivity (a : ActivityRecord) (outcome : String) (finishedAt : Option ℚ) :
    (settleActivity a outcome finishedAt).durationMs = a.durationMs.or (some (elapsed finishedAt a.startedAt)) := by
  unfold settleActivity
  split <;> rfl

lemma settle_cases (t : Envelope) (ha : x.activityRecord = some a) :
    settle parseDate t x = x ∨
      x.runId = t.runId ∧ (a.durationMs = none ∨ a.isActive = true) ∧
        settle parseDate t x =
          { x with activityRecord := some (settleActivity a (t.eventType.getD "") (t.finishedAt parseDate)) } := by
  unfold settle
  rw [ha]
  dsimp only
  split
  · exact .inl rfl
  · rename_i hguard
    rw [not_or, not_and_or, not_not, not_not] at hguard
    exact .inr ⟨hguard.1, by simpa using hguard.2, rfl⟩

lemma listed_shown (hd : e.endDuration parseDate = some d) (listed : Option NNRat) :
    (shown parseDate listed e).listed = listed.or (some d) := by
  obtain ⟨a, ha, hd⟩ := Option.bind_eq_some_iff.1 hd
  split at hd
  · rename_i hroot
    obtain ⟨status, hstatus⟩ := Option.isSome_iff_exists.1 hroot.1
    cases hd
    simp [shown, Envelope.listed, ha, normalize, hstatus, hroot.2]
  · cases hd

lemma shown_of_endDuration (hd : e.endDuration parseDate = some d) : shown parseDate (some d) e = shown parseDate none e := by
  obtain ⟨a, ha, hd⟩ := Option.bind_eq_some_iff.1 hd
  split at hd
  · rename_i hroot
    obtain ⟨status, hstatus⟩ := Option.isSome_iff_exists.1 hroot.1
    cases hd
    simp [shown, ha, normalize, hstatus, hroot.2]
  · cases hd

lemma shown_of_none (hd : e.endDuration parseDate = none) (listed : Option NNRat) :
    shown parseDate listed e = shown parseDate none e := by
  cases ha : e.activityRecord with
  | none => rw [shown_plain ha, shown_plain ha]
  | some a =>
    unfold Envelope.endDuration at hd
    rw [ha, Option.bind_some, ite_eq_right_iff] at hd
    cases hstatus : e.rootStatus a with
    | none => simp [shown, ha, normalize, hstatus]
    | some status =>
      obtain ⟨d, hdur⟩ := Option.ne_none_iff_exists'.1 fun hnone => absurd (hd ⟨by simp [hstatus], hnone⟩) nofun
      simp [shown, ha, normalize, hstatus, hdur]

end Durations

structure Fits (parseDate : String → Option ℚ) (s : EventSet) (x e : Envelope) : Prop where
  mem : e ∈ s.envelopes
  header : x.toHeader = e.toHeader
  key : x.key = e.key
  started : x.activityRecord.map (·.startedAt) = e.activityRecord.map (·.startedAt)
  top : Top s e → x = shown parseDate none e
  untimed : x.listed = none → (shown parseDate none e).listed = none
  older : ∀ e', Top s e' → e'.key = e.key → e' ≠ e → ∀ d, e'.endDuration parseDate = some d →
    ∀ d', x.listed = some d' → d' = d

lemma startedAt_shown (listed : Option NNRat) (e : Envelope) :
    (shown parseDate listed e).activityRecord.map (·.startedAt) = e.activityRecord.map (·.startedAt) := by
  unfold shown
  cases e.activityRecord with
  | none => rfl
  | some a => simp [(id_normalize ..).2]

lemma shown_of_fits {e q x : Envelope} (he : Top s e) (hx : Fits parseDate s x q) (hkey : q.key = e.key) (hne : e ≠ q) :
    shown parseDate x.listed e = shown parseDate none e := by
  cases hd : e.endDuration parseDate with
  | none => exact shown_of_none hd _
  | some d =>
    cases hlisted : x.listed with
    | none => rfl
    | some d' =>
      rw [hx.older e he hkey.symm hne d hd d' hlisted]
      exact shown_of_endDuration hd

lemma fits_shown (hconv : Convergent parseDate s) {e : Envelope} (he : e ∈ s.envelopes) {listed : Option NNRat}
    (hlisted : ∀ d, listed = some d → ∃ q x, Fits parseDate s x q ∧ q.key = e.key ∧ e ≠ q ∧ x.listed = some d) :
    Fits parseDate s (shown parseDate listed e) e := by
  constructor
  · exact he
  · rfl
  · exact key_shown ..
  · exact startedAt_shown ..
  · intro htop
    cases listed with
    | none => rfl
    | some d =>
      obtain ⟨q, x, hx, hkey, hne, hd⟩ := hlisted d rfl
      rw [← hd]
      exact shown_of_fits htop hx hkey hne
  · intro hnone
    cases hd : e.endDuration parseDate with
    | none => rwa [shown_of_none hd] at hnone
    | some d =>
      rw [listed_shown hd] at hnone
      cases listed <;> cases hnone
  · intro e' htop hkey hne d hd d' hd'
    have hpossible : ∀ d'', Possible parseDate s e d'' → d'' = d :=
      hconv.durations e' htop d hd e he hkey.symm (Ne.symm hne)
    cases hend : e.endDuration parseDate with
    | none =>
      rw [shown_of_none hend] at hd'
      exact hpossible d' (.inl hd')
    | some own =>
      rw [listed_shown hend] at hd'
      cases listed with
      | none =>
        refine hpossible d' (.inl ?_)
        rwa [listed_shown hend]
      | some before =>
        obtain ⟨q, x, hx, hqkey, -, hbefore⟩ := hlisted before rfl
        cases hd'
        by_cases hq : e' = q
        · subst hq
          have hxtop := hx.top htop
          rw [hxtop, listed_shown hd] at hbefore
          exact (Option.some.inj hbefore).symm
        · exact hx.older e' htop (hkey.trans hqkey.symm) hq d hd _ hbefore

lemma fits_touch (hconv : Convergent parseDate s) {x e t : Envelope} (hx : Fits parseDate s x e) (ht : t ∈ s.envelopes)
    (hkey : x.key ≠ none → t.key ≠ x.key) : Fits parseDate s (touch parseDate t x) e := by
  unfold touch
  split
  swap
  · exact hx
  rename_i hterminal
  cases ha : x.activityRecord with
  | none =>
    have hsame : settle parseDate t x = x := by
      unfold settle
      rw [ha]
    rwa [hsame]
  | some a =>
    rcases settle_cases t ha with hsame | ⟨hrun, hguard, hsettled⟩
    · rwa [hsame]
    have hxkey : x.key ≠ none := by simp [key_eq_none, ha]
    have hother : t.key ≠ e.key := hx.key ▸ hkey hxkey
    have hrun' : t.runId = e.runId := by
      rw [← hrun, hx.header]
    by_cases htop : Top s e
    · have hown := hx.top htop
      obtain ⟨hover, htimed⟩ := hconv.settled e htop a (hown ▸ ha) t ht hterminal hrun'
      rcases hguard with hnone | hactive
      · exact absurd hnone (htimed hother)
      · rw [hover] at hactive
        cases hactive
    · rw [hsettled]
      have hstarted : e.activityRecord.map (·.startedAt) = some a.startedAt := by
        rw [← hx.started, ha]
        rfl
      constructor
      · exact hx.mem
      · exact hx.header
      · rw [← hx.key]
        simp [Envelope.key, ha, (id_settleActivity ..).1]
      · rw [hstarted]
        simp [(id_settleActivity ..).2]
      · exact fun h => absurd h htop
      · intro hnone
        simp [Envelope.listed] at hnone
      · intro e' htop' hkey' hne d hd d' hd'
        have hlisted : a.durationMs.or (some (elapsed (t.finishedAt parseDate) a.startedAt)) = some d' := by
          simpa [Envelope.listed] using hd'
        cases hdur : a.durationMs with
        | some before =>
          rw [hdur] at hlisted
          cases hlisted
          exact hx.older e' htop' hkey' hne d hd _ (by simp [Envelope.listed, ha, hdur])
        | none =>
          rw [hdur] at hlisted
          obtain ⟨raw, hraw, hrawstart⟩ := Option.map_eq_some_iff.1 hstarted
          refine hconv.durations e' htop' d hd e hx.mem hkey'.symm (Ne.symm hne) d' (.inr ⟨?_, raw, hraw, t, ht,
            hterminal, hrun', hother, ?_⟩)
          · exact hx.untimed (by simp [Envelope.listed, ha, hdur])
          · rw [hrawstart]
            exact Option.some.inj hlisted

def view (parseDate : String → Option ℚ) (ds : List Packet) : List Envelope :=
  ds.foldl (mergeActivityEvents parseDate) []

lemma view_nil : View (fun _ => False) [] :=
  ⟨List.Pairwise.nil, List.Pairwise.nil, by simp, by simp, by simp⟩

lemma among_delivered {ds : List Packet} (hds : s.Delivers ds) (e : Envelope) : Among ds e ↔ e ∈ s.envelopes := by
  unfold Among EventSet.envelopes
  rw [List.mem_filterMap]
  simp only [hds _]

lemma view_keeps {Q : List Envelope → Prop}
    (hplace : ∀ seen l e, Placeable s seen l e → Q l → Q (place parseDate l e)) {ds : List Packet} (hds : s.Delivers ds)
    (hQ : Q []) : View (· ∈ s.envelopes) (view parseDate ds) ∧ Q (view parseDate ds) := by
  obtain ⟨hview, hQ'⟩ := fold_keeps hplace view_nil (fun _ h => h.elim) (fun p hp => (hds p).1 hp) hQ
  refine ⟨hview.congr fun e => ?_, hQ'⟩
  rw [false_or, among_delivered hds]

lemma view_delivered {ds : List Packet} (hds : s.Delivers ds) : View (· ∈ s.envelopes) (view parseDate ds) :=
  (@view_keeps parseDate s (fun _ => True) (fun _ _ _ _ _ => trivial) ds hds trivial).1

lemma fits_of_delivered (hconv : Convergent parseDate s) {ds : List Packet} (hds : s.Delivers ds) :
    ∀ x ∈ view parseDate ds, ∃ e, Fits parseDate s x e := by
  refine (@view_keeps parseDate s (fun l => ∀ x ∈ l, ∃ e, Fits parseDate s x e) ?_ ds hds (by simp)).2
  intro seen l e hplaceable hfits y hy
  rcases (mem_place hplaceable.view hplaceable.known hplaceable.mem hplaceable.fresh y).1 hy with ⟨x, hx, hkey, rfl⟩ | rfl
  · obtain ⟨q, hq⟩ := hfits x hx
    refine ⟨q, fits_touch hconv hq hplaceable.mem fun hsome hsame => ?_⟩
    exact hkey (hsame ▸ hsome) hsame.symm
  · refine ⟨e, fits_shown hconv hplaceable.mem fun d hd => ?_⟩
    obtain ⟨x, hprevious, hlisted⟩ := Option.bind_eq_some_iff.1 hd
    obtain ⟨hx, hkey, -⟩ := mem_of_previous hprevious
    obtain ⟨q, hq⟩ := hfits x hx
    refine ⟨q, x, hq, hq.key ▸ hkey, ?_, hlisted⟩
    rintro rfl
    exact hplaceable.fresh x hx (by rw [hq.header])

lemma mem_view (hconv : Convergent parseDate s) {ds : List Packet} (hds : s.Delivers ds) (x : Envelope) :
    x ∈ view parseDate ds ↔ (x ∈ s.envelopes ∧ x.key = none) ∨ ∃ e, Top s e ∧ x = shown parseDate none e := by
  have hview := @view_delivered parseDate s ds hds
  constructor
  · intro hx
    by_cases hkey : x.key = none
    · obtain ⟨e, he, hheader, hsame⟩ := hview.comes x hx
      have hxe : x = e := by
        obtain ⟨header, record⟩ := x
        obtain ⟨header', record'⟩ := e
        have hrecord : record = none := key_eq_none.1 hkey
        have hrecord' : record' = none := key_eq_none.1 (hsame.symm.trans hkey)
        cases hheader
        rw [hrecord, hrecord']
      exact .inl ⟨hxe ▸ he, hkey⟩
    · obtain ⟨e, he⟩ := fits_of_delivered hconv hds x hx
      have htop : Top s e := by
        refine ⟨he.mem, he.key ▸ hkey, fun e' he' hsame => ?_⟩
        have hsome : e'.key ≠ none := by rwa [hsame, ← he.key]
        obtain ⟨y, hy, hykey, hle⟩ := hview.newest e' he' hsome
        have hyx : y = x := hview.keyed.eq hy hx (hykey.trans (hsame.trans he.key.symm)) (hykey ▸ hsome)
        rw [hyx, he.header] at hle
        exact hle
      exact .inr ⟨e, htop, he.top htop⟩
  · rintro (⟨hx, hkey⟩ | ⟨e, htop, rfl⟩)
    · exact hview.plain x hx hkey
    · obtain ⟨x, hx, hkey, hle⟩ := hview.newest e htop.1 htop.2.1
      obtain ⟨q, hq⟩ := fits_of_delivered hconv hds x hx
      have hqe : q = e := by
        refine envelope_eq hq.mem htop.1 (le_antisymm (htop.2.2 q hq.mem (hq.key ▸ hkey)) ?_)
        rw [hq.header] at hle
        exact hle
      subst hqe
      rwa [← hq.top htop]

lemma view_eq (hconv : Convergent parseDate s) {ds ds' : List Packet} (hds : s.Delivers ds) (hds' : s.Delivers ds') :
    view parseDate ds = view parseDate ds' := by
  have hview := @view_delivered parseDate s ds hds
  have hview' := @view_delivered parseDate s ds' hds'
  refine List.Perm.eq_of_pairwise (fun a b _ _ hab hba => absurd hab hba.not_gt) hview.sorted hview'.sorted ?_
  refine (List.perm_ext_iff_of_nodup (hview.nodup.of_map _) (hview'.nodup.of_map _)).2 fun x => ?_
  rw [mem_view hconv hds, mem_view hconv hds']

lemma placeable {seen : Envelope → Prop} {l : List Envelope} (h : View seen l) (hseen : ∀ e, seen e → e ∈ s.envelopes)
    {e : Envelope} (he : e ∈ s.envelopes) (hnew : ¬ seen e)
    (hlater : ∀ old ∈ l, old.key = e.key → e.key ≠ none → old.sequence ≤ e.sequence) : Placeable s seen l e := by
  refine ⟨h, hseen, he, fun x hx hseq => ?_, fun old hold => ?_⟩
  · obtain ⟨e', he', hheader, -⟩ := h.comes x hx
    have heq : e' = e := envelope_eq (hseen e' he') he (by rw [← hheader, hseq])
    exact hnew (heq ▸ he')
  · obtain ⟨hmem, hkey, hsome⟩ := mem_of_previous hold
    exact hlater old hmem hkey hsome

lemma merge_eq_place {seen : Envelope → Prop} {l : List Envelope} {e : Envelope} (h : Placeable s seen l e) {p : Packet}
    (hp : p.envelope = some e) : mergeActivityEvents parseDate l p = place parseDate l e := by
  unfold mergeActivityEvents
  have hdup : (l.any fun old => old.runId = p.runId && old.sequence = p.sequence) = false := by
    refine List.any_eq_false.2 fun x hx hsame => h.fresh x hx ?_
    simp only [Bool.and_eq_true, decide_eq_true_eq] at hsame
    rw [hsame.2, toHeader_envelope hp]
  have hprevious : ((previous l e).any fun old => decide (e.sequence < old.sequence)) = false := by
    cases hold : previous l e with
    | none => rfl
    | some old => simpa using h.later old hold
  simp only [hdup, hp, hprevious, Bool.false_eq_true, if_false]

lemma Placeable.next {seen : Envelope → Prop} {l : List Envelope} {e : Envelope} (h : Placeable s seen l e) :
    View (fun e' => seen e' ∨ e' = e) (place parseDate l e) ∧ (∀ e', (seen e' ∨ e' = e) → e' ∈ s.envelopes) := by
  refine ⟨h.view.place h.known h.mem h.fresh h.later, ?_⟩
  rintro e' (he' | rfl)
  · exact h.known e' he'
  · exact h.mem

lemma stays {e x : Envelope} {a : ActivityRecord} (htop : Top s e) (hheader : x.toHeader = e.toHeader)
    (hkey : x.key = e.key) (ha : x.activityRecord = some a) (hover : a.isActive = false) (htimed : a.durationMs ≠ none)
    {seen : Envelope → Prop} {l : List Envelope} (h : View seen l) (hseen : ∀ e, seen e → e ∈ s.envelopes) (hx : x ∈ l)
    {ds : List Packet} (hds : ∀ p ∈ ds, p ∈ s.packets) : x ∈ ds.foldl (mergeActivityEvents parseDate) l := by
  refine (@fold_keeps parseDate s (x ∈ ·) ?_ seen l h hseen ds hds hx).2
  intro seen l e' hplaceable hx
  refine (mem_place hplaceable.view hplaceable.known hplaceable.mem hplaceable.fresh x).2 (.inl ⟨x, hx, ?_, ?_⟩)
  · intro hsome hsame
    have hprevious := previous_eq_some hplaceable.view.keyed hx hsame hsome
    have hle : e'.sequence ≤ x.sequence := by
      rw [hheader]
      exact htop.2.2 e' hplaceable.mem (hsame.symm.trans hkey)
    exact hplaceable.fresh x hx (le_antisymm (hplaceable.later x hprevious) hle)
  · unfold touch
    split
    · rcases settle_cases e' ha with hsame | ⟨-, hguard, -⟩
      · exact hsame
      · rcases hguard with hnone | hactive
        · exact absurd hnone htimed
        · rw [hover] at hactive
          cases hactive
    · rfl

lemma delivered_last {e : Envelope} (htop : Top s e) :
    ∃ ds, s.Delivers ds ∧ ∃ listed, shown parseDate listed e ∈ view parseDate ds := by
  obtain ⟨p, hp, hpe⟩ := List.mem_filterMap.1 htop.1
  let before := s.packets.filter fun q => q.sequence ≠ p.sequence
  have hbefore : ∀ q ∈ before, q ∈ s.packets := fun q hq => (List.mem_filter.1 hq).1
  have hknown : ∀ e', Among before e' → e' ∈ s.envelopes := fun e' ⟨q, hq, hqe⟩ =>
    List.mem_filterMap.2 ⟨q, hbefore q hq, hqe⟩
  have hview : View (Among before) (view parseDate before) :=
    (@fold_keeps parseDate s (fun _ => True) (fun _ _ _ _ _ => trivial) _ [] view_nil (fun _ h => h.elim) before hbefore
      trivial).1.congr fun e' => by simp
  have hnew : ¬ Among before e := by
    rintro ⟨q, hq, hqe⟩
    have hseq : q.sequence ≠ p.sequence := by simpa using (List.mem_filter.1 hq).2
    refine hseq ?_
    rw [← toHeader_envelope hqe, ← toHeader_envelope hpe]
  have hplaceable : Placeable s (Among before) (view parseDate before) e := by
    refine placeable hview hknown htop.1 hnew fun old hold hkey _ => ?_
    obtain ⟨e', he', hheader, hsame⟩ := hview.comes old hold
    rw [hheader]
    exact htop.2.2 e' (hknown e' he') (hsame.symm.trans hkey)
  refine ⟨before ++ [p], fun q => ?_, listedDuration (view parseDate before) e, ?_⟩
  · rw [List.mem_append, List.mem_singleton]
    constructor
    · rintro (hq | rfl)
      · exact hbefore q hq
      · exact hp
    · intro hq
      by_cases hseq : q.sequence = p.sequence
      · exact .inr (packet_eq hq hp hseq)
      · exact .inl (List.mem_filter.2 ⟨hq, by simpa using hseq⟩)
  · unfold view at hplaceable ⊢
    rw [List.foldl_append, List.foldl_cons, List.foldl_nil, merge_eq_place hplaceable hpe]
    exact (mem_place hplaceable.view hplaceable.known hplaceable.mem hplaceable.fresh _).2 (.inr rfl)

lemma placeable_nil {e : Envelope} (he : e ∈ s.envelopes) : Placeable s (fun _ => False) [] e :=
  placeable view_nil (fun _ h => h.elim) he id (by simp)

lemma mem_place_nil {e : Envelope} (he : e ∈ s.envelopes) (y : Envelope) :
    y ∈ place parseDate [] e ↔ y = shown parseDate none e := by
  have h := @placeable_nil s e he
  rw [mem_place h.view h.known h.mem h.fresh]
  simp [listedDuration, previous]

lemma placeable_other {q t : Envelope} (hq : q ∈ s.envelopes) (ht : t ∈ s.envelopes) (hkey : t.key ≠ q.key) :
    Placeable s (fun e => e = q) (place parseDate [] q) t ∧
      touch parseDate t (shown parseDate none q) ∈ place parseDate (place parseDate [] q) t := by
  have hnext := @Placeable.next parseDate s _ [] q (placeable_nil hq)
  have hview : View (fun e => e = q) (place parseDate [] q) := hnext.1.congr fun e => by simp
  have hplaceable : Placeable s (fun e => e = q) (place parseDate [] q) t := by
    refine placeable hview (fun e he => he ▸ hq) ht (fun h => hkey (h ▸ rfl)) fun old hold hold' _ => ?_
    rw [(mem_place_nil hq old).1 hold, key_shown] at hold'
    exact absurd hold'.symm hkey
  refine ⟨hplaceable, ?_⟩
  refine (mem_place hplaceable.view hplaceable.known hplaceable.mem hplaceable.fresh _).2 (.inl ⟨_, (mem_place_nil hq _).2 rfl, ?_, rfl⟩)
  intro _ hsame
  rw [key_shown] at hsame
  exact hkey hsame.symm

lemma delivers_append {ps : List Packet} (hps : ∀ p ∈ ps, p ∈ s.packets) : s.Delivers (ps ++ s.packets) := by
  intro p
  rw [List.mem_append, or_iff_right_of_imp (hps p)]

lemma view_append (ps : List Packet) :
    view parseDate (ps ++ s.packets) = s.packets.foldl (mergeActivityEvents parseDate) (view parseDate ps) :=
  List.foldl_append ..

def ActivityRecord.face (a : ActivityRecord) : ActivityStatus × Option String × Option Value :=
  (a.status, a.displayStatus, a.state)

lemma face_normalize (h : Header) (listed listed' : Option NNRat) (a : ActivityRecord) :
    (normalize parseDate h listed a).face = (normalize parseDate h listed' a).face := by
  unfold normalize
  split <;> rfl

lemma isActive_of_face {a b : ActivityRecord} (h : a.face = b.face) : a.isActive = b.isActive := by
  unfold ActivityRecord.isActive
  rw [show a.status = b.status from congrArg Prod.fst h]

lemma outcomeStatus_over {outcome : String} {status : ActivityStatus} (h : outcomeStatus outcome = some status) :
    status ∉ [ActivityStatus.queued, .running, .awaitingApproval] := by
  unfold outcomeStatus at h
  split at h <;> cases h <;> decide

lemma over_of_endDuration {e : Envelope} {d : NNRat} (hd : e.endDuration parseDate = some d) (listed : Option NNRat) :
    ∃ a, (shown parseDate listed e).activityRecord = some a ∧ a.isActive = false ∧ a.durationMs = listed.or (some d) := by
  have hlisted := listed_shown hd listed
  obtain ⟨a, ha, hroot⟩ := Option.bind_eq_some_iff.1 hd
  split at hroot
  · rename_i hended
    obtain ⟨status, hstatus⟩ := Option.isSome_iff_exists.1 hended.1
    refine ⟨normalize parseDate e.toHeader listed a, by simp [shown, ha], ?_, ?_⟩
    · obtain ⟨t, -, ht⟩ : ∃ t, e.eventType = some t ∧
          (if "runtime.".toList.isPrefixOf t.toList then
            outcomeStatus (e.status.getD (String.ofList (t.toList.drop "runtime.".toList.length))) else none) = some status := by
        unfold Header.rootStatus at hstatus
        split at hstatus
        · exact Option.bind_eq_some_iff.1 hstatus
        · cases hstatus
      split at ht
      · simp [normalize, hstatus, ActivityRecord.isActive, outcomeStatus_over ht]
      · cases ht
    · simpa [Envelope.listed, shown, ha] using hlisted
  · cases hroot

section Orders
variable (hsame : ∀ ds ds', s.Delivers ds → s.Delivers ds' → view parseDate ds = view parseDate ds')
include hsame

lemma entry_eq {ds ds' : List Packet} (hds : s.Delivers ds) (hds' : s.Delivers ds') {x x' : Envelope}
    (hx : x ∈ view parseDate ds) (hx' : x' ∈ view parseDate ds') (hkey : x.key = x'.key) (hsome : x.key ≠ none) : x = x' :=
  (view_delivered hds).keyed.eq hx (hsame ds ds' hds hds' ▸ hx') hkey hsome

lemma duration_eq {e : Envelope} (htop : Top s e) {d d' : NNRat} (hd : e.endDuration parseDate = some d)
    {ps : List Packet} (hps : ∀ p ∈ ps, p ∈ s.packets) {seen : Envelope → Prop} (hview : View seen (view parseDate ps))
    (hseen : ∀ e, seen e → e ∈ s.envelopes) (hx : shown parseDate (some d') e ∈ view parseDate ps) : d' = d := by
  have keeps : ∀ {listed : Option NNRat} {qs : List Packet} {seen : Envelope → Prop}, (∀ p ∈ qs, p ∈ s.packets) →
      View seen (view parseDate qs) → (∀ e, seen e → e ∈ s.envelopes) → shown parseDate listed e ∈ view parseDate qs →
        shown parseDate listed e ∈ view parseDate (qs ++ s.packets) := by
    intro listed qs seen hqs hview hseen hx
    obtain ⟨a, ha, hover, htimed⟩ := @over_of_endDuration parseDate e d hd listed
    rw [view_append]
    refine stays htop (toHeader_shown ..) (key_shown ..) ha hover ?_ hview hseen hx fun _ h => h
    rw [htimed]
    cases listed <;> nofun
  obtain ⟨p, hp, hpe⟩ := List.mem_filterMap.1 htop.1
  have hplaceable := @placeable_nil s e htop.1
  have hfirst : view parseDate [p] = place parseDate [] e := merge_eq_place hplaceable hpe
  have halone : shown parseDate none e ∈ view parseDate ([p] ++ s.packets) := by
    have hnext := @Placeable.next parseDate s _ [] e hplaceable
    refine keeps (by simpa using hp) (hfirst ▸ hnext.1) hnext.2 ?_
    rw [hfirst]
    exact (mem_place_nil htop.1 _).2 rfl
  have hentry := entry_eq hsame (delivers_append hps) (delivers_append (by simpa using hp)) (keeps hps hview hseen hx) halone
    (by rw [key_shown, key_shown]) (by rw [key_shown]; exact htop.2.1)
  have hlisted := congrArg Envelope.listed hentry
  rw [listed_shown hd, listed_shown hd] at hlisted
  exact Option.some.inj hlisted

/-- After `q`, the newest envelope of its activity. -/
lemma duration_of_shown {e q : Envelope} (htop : Top s e) {d d' : NNRat} (hd : e.endDuration parseDate = some d)
    (hq : q ∈ s.envelopes) (hkey : q.key = e.key) (hne : q ≠ e) (hd' : (shown parseDate none q).listed = some d') :
    d' = d := by
  obtain ⟨p, hp, hpe⟩ := List.mem_filterMap.1 htop.1
  obtain ⟨pq, hpq, hpqe⟩ := List.mem_filterMap.1 hq
  have hfirst := @placeable_nil s q hq
  obtain ⟨hview, hseen⟩ := @Placeable.next parseDate s _ [] q hfirst
  have hsecond : Placeable s (fun e' => False ∨ e' = q) (place parseDate [] q) e := by
    refine placeable hview hseen htop.1 (fun h => hne (h.resolve_left id).symm) fun old hold _ _ => ?_
    rw [(mem_place_nil hq old).1 hold]
    exact htop.2.2 q hq hkey
  obtain ⟨hview', hseen'⟩ := hsecond.next
  have hview_eq : view parseDate [pq, p] = place parseDate (place parseDate [] q) e := by
    change mergeActivityEvents parseDate (mergeActivityEvents parseDate [] pq) p = _
    rw [merge_eq_place hfirst hpqe, merge_eq_place hsecond hpe]
  refine @duration_eq parseDate s hsame e htop d d' hd [pq, p] ?_ _ (hview_eq ▸ hview') hseen' ?_
  · simp [hp, hpq]
  · rw [hview_eq, mem_place hsecond.view hsecond.known hsecond.mem hsecond.fresh]
    have hprevious := previous_eq_some hsecond.view.keyed ((mem_place_nil hq _).2 rfl)
      ((key_shown none q).trans hkey) htop.2.1
    refine .inr ?_
    rw [listedDuration, hprevious]
    exact congrArg (shown parseDate · e) hd'.symm

/-- After `q` and a terminal envelope `t` of its run, the newest envelope of the activity of `q`. -/
lemma duration_of_settled {e q t : Envelope} (htop : Top s e) {d : NNRat} (hd : e.endDuration parseDate = some d)
    (hq : q ∈ s.envelopes) (hkey : q.key = e.key) (hne : q ≠ e) (hnone : (shown parseDate none q).listed = none)
    {a : ActivityRecord} (ha : q.activityRecord = some a) (ht : t ∈ s.envelopes) (hterminal : t.isTerminal = true)
    (hrun : t.runId = q.runId) (hother : t.key ≠ q.key) : elapsed (t.finishedAt parseDate) a.startedAt = d := by
  obtain ⟨p, hp, hpe⟩ := List.mem_filterMap.1 htop.1
  obtain ⟨pq, hpq, hpqe⟩ := List.mem_filterMap.1 hq
  obtain ⟨pt, hpt, hpte⟩ := List.mem_filterMap.1 ht
  have hfirst := @placeable_nil s q hq
  obtain ⟨hsecond, hmem⟩ := @placeable_other parseDate s q t hq ht hother
  obtain ⟨hview, hseen⟩ := hsecond.next
  have hte : t ≠ e := fun h => hother (h ▸ hkey.symm)
  have hthird : Placeable s (fun e' => e' = q ∨ e' = t) (place parseDate (place parseDate [] q) t) e := by
    refine placeable hview hseen htop.1 (fun h => h.elim (fun h => hne h.symm) fun h => hte h.symm) fun old hold hold' _ => ?_
    obtain ⟨e', he', hheader, hsame'⟩ := hview.comes old hold
    rw [hheader]
    exact htop.2.2 e' (hseen e' he') (hsame'.symm.trans hold')
  obtain ⟨hview', hseen'⟩ := hthird.next
  have hview_eq : view parseDate [pq, pt, p] = place parseDate (place parseDate (place parseDate [] q) t) e := by
    change mergeActivityEvents parseDate (mergeActivityEvents parseDate (mergeActivityEvents parseDate [] pq) pt) p = _
    rw [merge_eq_place hfirst hpqe, merge_eq_place hsecond hpte, merge_eq_place hthird hpe]
  have hsettled : (touch parseDate t (shown parseDate none q)).listed =
      some (elapsed (t.finishedAt parseDate) a.startedAt) := by
    have hrecord : (shown parseDate none q).activityRecord = some (normalize parseDate q.toHeader none a) := by
      simp [shown, ha]
    have hdur : (normalize parseDate q.toHeader none a).durationMs = none := by
      simpa [Envelope.listed, hrecord] using hnone
    unfold touch settle
    rw [if_pos hterminal, hrecord]
    simp [hdur, Envelope.listed, hrun, (id_normalize ..).2]
  refine @duration_eq parseDate s hsame e htop d _ hd [pq, pt, p] ?_ _ (hview_eq ▸ hview') hseen' ?_
  · simp [hp, hpq, hpt]
  · rw [hview_eq, mem_place hthird.view hthird.known hthird.mem hthird.fresh]
    have hprevious := previous_eq_some hthird.view.keyed hmem
      ((key_touch t _).trans ((key_shown none q).trans hkey)) htop.2.1
    refine .inr ?_
    rw [listedDuration, hprevious]
    exact congrArg (shown parseDate · e) hsettled.symm

lemma timed_of_settled {e t : Envelope} (htop : Top s e) {a : ActivityRecord}
    (ha : (shown parseDate none e).activityRecord = some a) (hover : a.isActive = false) (ht : t ∈ s.envelopes)
    (hterminal : t.isTerminal = true) (hrun : t.runId = e.runId) (hother : t.key ≠ e.key) : a.durationMs ≠ none := by
  intro hnone
  obtain ⟨p, hp, hpe⟩ := List.mem_filterMap.1 htop.1
  obtain ⟨pt, hpt, hpte⟩ := List.mem_filterMap.1 ht
  have hfirst := @placeable_nil s e htop.1
  obtain ⟨hsecond, hmem⟩ := @placeable_other parseDate s e t htop.1 ht hother
  obtain ⟨hview, hseen⟩ := @Placeable.next parseDate s _ _ t hsecond
  have hview_eq : view parseDate [p, pt] = place parseDate (place parseDate [] e) t := by
    change mergeActivityEvents parseDate (mergeActivityEvents parseDate [] p) pt = _
    rw [merge_eq_place hfirst hpe, merge_eq_place hsecond hpte]
  obtain ⟨a', ha', hface, htimed⟩ : ∃ a', (touch parseDate t (shown parseDate none e)).activityRecord = some a' ∧
      a'.isActive = a.isActive ∧ a'.durationMs ≠ none := by
    refine ⟨settleActivity a (t.eventType.getD "") (t.finishedAt parseDate), ?_, ?_, by simp⟩
    · unfold touch settle
      rw [if_pos hterminal, ha]
      simp [hnone, hrun]
    · unfold settleActivity
      rw [hover]
      exact hover
  have hps : ∀ q ∈ [p, pt], q ∈ s.packets := by simp [hp, hpt]
  have hstays : touch parseDate t (shown parseDate none e) ∈ view parseDate ([p, pt] ++ s.packets) := by
    rw [view_append, hview_eq]
    have hheader : (touch parseDate t (shown parseDate none e)).toHeader = e.toHeader := toHeader_touch ..
    exact stays htop hheader ((key_touch t (shown parseDate none e)).trans (key_shown none e)) ha' (hface.trans hover) htimed hview
      hseen hmem fun _ h => h
  obtain ⟨ds, hds, listed, hlast⟩ := @delivered_last parseDate s e htop
  have hentry := entry_eq hsame (delivers_append hps) hds hstays hlast (by simp) (by simpa using htop.2.1)
  have hend : e.endDuration parseDate = none := by
    cases hd : e.endDuration parseDate with
    | none => rfl
    | some d =>
      have hlisted := @listed_shown parseDate e d hd none
      simp [Envelope.listed, ha, hnone] at hlisted
  rw [hentry, shown_of_none hend, ha] at ha'
  cases ha'
  exact htimed hnone

end Orders

/-- That the views of a set agree, and leave no activity active in a run with a terminal envelope. -/
structure Converges (parseDate : String → Option ℚ) (s : EventSet) : Prop where
  same : ∀ ds ds', s.Delivers ds → s.Delivers ds' → view parseDate ds = view parseDate ds'
  newest : ∀ ds, s.Delivers ds → ∀ e, Top s e → ∃ x ∈ view parseDate ds, ∃ a b, x.toHeader = e.toHeader ∧
    x.activityRecord = some a ∧ (shown parseDate none e).activityRecord = some b ∧
      (∀ t ∈ s.envelopes, t.isTerminal = true → t.runId = e.runId →
        a.face = (settleActivity b (t.eventType.getD "") (t.finishedAt parseDate)).face) ∧
      ((∀ t ∈ s.envelopes, t.isTerminal = true → t.runId ≠ e.runId) → a.face = b.face)
  settled : ∀ ds, s.Delivers ds → ∀ x ∈ view parseDate ds, ∀ a, x.activityRecord = some a →
    ∀ t ∈ s.envelopes, t.isTerminal = true → t.runId = x.runId → a.isActive = false
  text : ∀ ds ds', s.Delivers ds → s.Delivers ds' → ∀ runId,
    streamedAgentText (view parseDate ds) runId = streamedAgentText (view parseDate ds') runId

lemma face_settleActivity {a : ActivityRecord} (h : a.isActive = false) (outcome : String) (finishedAt : Option ℚ) :
    (settleActivity a outcome finishedAt).face = a.face := by
  unfold settleActivity
  rw [h]
  rfl

lemma converges_of_convergent (hconv : Convergent parseDate s) : Converges parseDate s := by
  constructor
  · exact fun ds ds' hds hds' => view_eq hconv hds hds'
  · intro ds hds e htop
    obtain ⟨b, hb⟩ := Option.ne_none_iff_exists'.1 fun hnone => htop.2.1 ((@key_shown parseDate none e).symm.trans
      (key_eq_none.2 hnone))
    refine ⟨shown parseDate none e, (mem_view hconv hds _).2 (.inr ⟨e, htop, rfl⟩), b, b, rfl, hb, hb, ?_, fun _ => rfl⟩
    intro t ht hterminal hrun
    rw [face_settleActivity (hconv.settled e htop b hb t ht hterminal hrun).1]
  · intro ds hds x hx a ha t ht hterminal hrun
    rcases (mem_view hconv hds x).1 hx with ⟨-, hkey⟩ | ⟨e, htop, rfl⟩
    · rw [key_eq_none.1 hkey] at ha
      cases ha
    · exact (hconv.settled e htop a ha t ht hterminal hrun).1
  · intro ds ds' hds hds' runId
    rw [view_eq hconv hds hds']

lemma convergent_of_converges (h : Converges parseDate s) : Convergent parseDate s := by
  constructor
  · intro e htop a ha t ht hterminal hrun
    have hover : a.isActive = false := by
      obtain ⟨ds, hds, listed, hlast⟩ := @delivered_last parseDate s e htop
      obtain ⟨raw, hraw⟩ := Option.ne_none_iff_exists'.1 (mt key_eq_none.2 htop.2.1)
      have hlisted : (shown parseDate listed e).activityRecord = some (normalize parseDate e.toHeader listed raw) := by
        simp [shown, hraw]
      have hown : a = normalize parseDate e.toHeader none raw := by
        simpa [shown, hraw] using ha.symm
      rw [hown, isActive_of_face (face_normalize e.toHeader none listed raw)]
      exact h.settled ds hds _ hlast _ hlisted t ht hterminal hrun
    exact ⟨hover, timed_of_settled h.same htop ha hover ht hterminal hrun⟩
  · intro e htop d hd q hq hkey hne d' hd'
    rcases hd' with hown | ⟨hnone, a, ha, t, ht, hterminal, hrun, hother, rfl⟩
    · exact duration_of_shown h.same htop hd hq hkey hne hown
    · exact duration_of_settled h.same htop hd hq hkey hne hnone ha ht hterminal hrun hother

end Views

def started : Packet where
  runId := "one"
  sequence := 1
  eventType := some "tool.started"
  status := none
  timestamp := none
  createdAt := none
  message := none
  content := none
  turn := none
  attemptId := none
  frameIndex := none
  activityRecord := .obj [("id", .str "cmd"), ("runId", .str "one"), ("kind", .str "command"), ("title", .str "Command"),
    ("status", .str "running"), ("startedAt", .int 1000), ("durationMs", .null), ("details", .obj [])]

def cancelledRun : Packet where
  toHeader := { started.toHeader with sequence := 2, eventType := some "runtime.cancelled", status := some "cancelled" }
  activityRecord := .null

def cancelledSet : EventSet := ⟨[started, cancelledRun], by decide, by decide⟩

def command : ActivityRecord where
  id := "cmd"
  runId := "one"
  kind := "command"
  title := "Command"
  state := none
  eventType := none
  displayStatus := none
  status := .running
  startedAt := (1000 : ℤ)
  durationMs := none
  details := .obj []

end PromptForge.Activities
