import PromptForge.Admission

namespace PromptForge.Admission
open Runs Tables Queueing

variable (controller : ProviderAdmissionController)

def Slot.place (r : Slot) : ℕ × Ticket := (r.sequence, r.ticket)

def slotsView : View Slots Endpoint (ℕ × Ticket) where
  waiting db k := (waitingRows k db).map Slot.place
  holding db k := (activeRows k db).map Slot.place
  rank := Prod.fst
  next := Slots.nextSequence

variable {db : Slots}

lemma mem_waitingRows {k : Endpoint} {r : Slot} :
    r ∈ waitingRows k db ↔ r ∈ db.rows ∧ r.endpoint = k ∧ r.active = false := by
  simp [waitingRows]

lemma mem_activeRows {k : Endpoint} {r : Slot} :
    r ∈ activeRows k db ↔ r ∈ db.rows ∧ r.endpoint = k ∧ r.active = true := by
  simp [activeRows]

structure Sound (db : Slots) : Prop where
  tickets : (db.rows.map Slot.ticket).Nodup
  ordered : db.rows.Pairwise fun r r' => r.sequence < r'.sequence
  below : ∀ r ∈ db.rows, r.sequence < db.nextSequence
  capacity : ∀ k, (activeRows k db).length ≤ limit controller k.providerId

variable {controller}

variable (h : Sound controller db)

include h in
lemma numbered_of_sound : Numbered slotsView db := by
  rintro k p (hp | hp)
  · obtain ⟨r, hr, rfl⟩ := List.mem_map.1 hp
    exact h.below r (mem_waitingRows.1 hr).1
  · obtain ⟨r, hr, rfl⟩ := List.mem_map.1 hp
    exact h.below r (mem_activeRows.1 hr).1

include h in
lemma sound_filter (p : Slot → Bool) :
    Sound controller { db with rows := db.rows.filter p } where
  tickets := h.tickets.sublist (List.filter_sublist.map _)
  ordered := h.ordered.sublist List.filter_sublist
  below r hr := h.below r (List.mem_filter.1 hr).1
  capacity k := ((List.filter_sublist.filter _).length_le).trans (h.capacity k)

lemma orderly_filter (db : Slots) (p : Slot → Bool) :
    Orderly slotsView db { db with rows := db.rows.filter p } :=
  orderly_of_subset rfl
    (fun _ => ((List.filter_sublist.filter _).map _).subset)
    (fun _ => ((List.filter_sublist.filter _).map _).subset)

structure Still (f : Slot → Slot) : Prop where
  place : ∀ r, (f r).place = r.place
  endpoint : ∀ r, (f r).endpoint = r.endpoint
  active : ∀ r, (f r).active = r.active

lemma still_renewed (until_ : ℚ) : Still (Slot.renewed until_) := ⟨fun _ => rfl, fun _ => rfl, fun _ => rfl⟩

variable {f : Slot → Slot}

lemma rows_updateWhere {β : Type*} {g : Slot → β} (hg : ∀ r, g (f r) = g r)
    (p : Slot → Bool) (rows : List Slot) : (updateWhere p f rows).map g = rows.map g :=
  map_key_updateWhere hg rows

lemma waiting_still (hf : Still f) (db : Slots) (p : Slot → Bool) (k : Endpoint) :
    slotsView.waiting { db with rows := updateWhere p f db.rows } k = slotsView.waiting db k :=
  filter_updateWhere (fun r => by simp only [hf.endpoint, hf.active]) hf.place db.rows

lemma holding_still (hf : Still f) (db : Slots) (p : Slot → Bool) (k : Endpoint) :
    slotsView.holding { db with rows := updateWhere p f db.rows } k = slotsView.holding db k :=
  filter_updateWhere (fun r => by simp only [hf.endpoint, hf.active]) hf.place db.rows

lemma orderly_still (hf : Still f) (db : Slots) (p : Slot → Bool) :
    Orderly slotsView db { db with rows := updateWhere p f db.rows } :=
  orderly_of_subset rfl (fun k _ h => waiting_still hf db p k ▸ h) (fun k _ h => holding_still hf db p k ▸ h)

include h in
lemma sound_update (p : Slot → Bool)
    (hplace : ∀ r, (f r).place = r.place)
    (hcap : ∀ k, (activeRows k { db with rows := updateWhere p f db.rows }).length ≤
      limit controller k.providerId) :
    Sound controller { db with rows := updateWhere p f db.rows } where
  tickets := by
    rw [rows_updateWhere (fun r => congrArg Prod.snd (hplace r))]
    exact h.tickets
  ordered := by
    have hmap : (updateWhere p f db.rows).map Slot.sequence = db.rows.map Slot.sequence :=
      rows_updateWhere (fun r => congrArg Prod.fst (hplace r)) p db.rows
    have := List.pairwise_map.2 h.ordered
    rw [← hmap] at this
    exact List.pairwise_map.1 this
  below r hr := by
    obtain ⟨r₀, hr₀, rfl⟩ := mem_updateWhere.1 hr
    have hseq : (if p r₀ then f r₀ else r₀).sequence = r₀.sequence := by
      split
      · exact congrArg Prod.fst (hplace r₀)
      · rfl
    rw [hseq]
    exact h.below r₀ hr₀
  capacity := hcap

include h in
lemma sound_still (hf : Still f)
    (p : Slot → Bool) : Sound controller { db with rows := updateWhere p f db.rows } := by
  refine sound_update h p hf.place fun k => ?_
  have := congrArg List.length (holding_still hf db p k)
  simp only [slotsView, List.length_map] at this
  rw [this]
  exact h.capacity k

lemma enqueue_cases (ticket : Ticket) (endpoint : Endpoint) (until_ : ℚ) (db : Slots) :
    enqueue ticket endpoint until_ db = db ∨
    lookup Slot.ticket db.rows ticket = none ∧ enqueue ticket endpoint until_ db =
      ⟨db.rows ++ [⟨db.nextSequence, ticket, endpoint, false, until_⟩], db.nextSequence + 1⟩ := by
  unfold enqueue
  rcases hins : insertRow Slot.ticket ⟨db.nextSequence, ticket, endpoint, false, until_⟩ db.rows with _ | rows
  · exact .inl rfl
  · obtain ⟨hfresh, rfl⟩ := insertRow_eq_some hins
    exact .inr ⟨hfresh, rfl⟩

include h in
lemma sound_enqueue (ticket : Ticket) (endpoint : Endpoint)
    (until_ : ℚ) : Sound controller (enqueue ticket endpoint until_ db) := by
  rcases enqueue_cases ticket endpoint until_ db with he | ⟨hfresh, he⟩
  · rwa [he]
  · rw [he]
    refine ⟨?_, ?_, ?_, ?_⟩
    · exact nodup_map_concat h.tickets (lookup_eq_none.1 hfresh)
    · refine List.pairwise_append.2 ⟨h.ordered, List.pairwise_singleton _ _, fun r hr r' hr' => ?_⟩
      rw [List.mem_singleton] at hr'
      subst hr'
      exact h.below r hr
    · intro r hr
      rcases mem_concat.1 hr with hr | rfl
      · exact (h.below r hr).trans (Nat.lt_succ_self _)
      · exact Nat.lt_succ_self _
    · intro k
      change ((db.rows ++ [_]).filter _).length ≤ _
      rw [List.filter_append, List.filter_singleton]
      simpa [activeRows] using h.capacity k

lemma orderly_enqueue (db : Slots) (ticket : Ticket) (endpoint : Endpoint) (until_ : ℚ) :
    Orderly slotsView db (enqueue ticket endpoint until_ db) := by
  rcases enqueue_cases ticket endpoint until_ db with he | ⟨-, he⟩
  · rw [he]
    exact orderly_of_subset rfl (fun _ => List.Subset.refl _) (fun _ => List.Subset.refl _)
  · rw [he]
    refine ⟨Nat.le_succ _, fun k p hp => ?_, fun k q hq => .inl ?_⟩
    · obtain ⟨r, hr, rfl⟩ := List.mem_map.1 hp
      obtain ⟨hr, hk⟩ := mem_waitingRows.1 hr
      rcases mem_concat.1 hr with hr | rfl
      · exact .inl (List.mem_map_of_mem (mem_waitingRows.2 ⟨hr, hk⟩))
      · exact .inr (le_refl _)
    · obtain ⟨r, hr, rfl⟩ := List.mem_map.1 hq
      obtain ⟨hr, hk, ha⟩ := mem_activeRows.1 hr
      rcases mem_concat.1 hr with hr | rfl
      · exact List.mem_map_of_mem (mem_activeRows.2 ⟨hr, hk, ha⟩)
      · cases ha

variable {ticket : Ticket} {endpoint : Endpoint}

include h in
lemma head_spec (hhead : (waitingRows endpoint db).head?.map Slot.ticket = some ticket) :
    ∃ r, lookup Slot.ticket db.rows ticket = some r ∧ r ∈ waitingRows endpoint db ∧
      ∀ r' ∈ waitingRows endpoint db, r' ≠ r → r.sequence < r'.sequence := by
  rcases hw : waitingRows endpoint db with _ | ⟨r, rest⟩
  · rw [hw] at hhead
    cases hhead
  · rw [hw, List.head?_cons, Option.map_some, Option.some.injEq] at hhead
    subst hhead
    have hr : r ∈ waitingRows endpoint db := by rw [hw]; exact List.mem_cons_self ..
    refine ⟨r, lookup_of_mem h.tickets (mem_waitingRows.1 hr).1, List.mem_cons_self .., ?_⟩
    intro r' hr' hne
    have hsorted : (waitingRows endpoint db).Pairwise fun r r' => r.sequence < r'.sequence :=
      h.ordered.sublist List.filter_sublist
    rw [hw, List.pairwise_cons] at hsorted
    rcases List.mem_cons.1 hr' with rfl | hr'
    · exact absurd rfl hne
    · exact hsorted.1 r' hr'

lemma place_activated (r : Slot) : r.activated.place = r.place := rfl

include h in
lemma activate_ok (hroom : (activeRows endpoint db).length < limit controller endpoint.providerId)
    (hhead : (waitingRows endpoint db).head?.map Slot.ticket = some ticket) :
    Sound controller (updateTicket ticket Slot.activated db) ∧
      Orderly slotsView db (updateTicket ticket Slot.activated db) := by
  obtain ⟨r, hr, hrw, hfirst⟩ := head_spec h hhead
  obtain ⟨hrows, hend, hidle⟩ := mem_waitingRows.1 hrw
  have hcount (k : Endpoint) : (activeRows k (updateTicket ticket Slot.activated db)).length =
      (activeRows k db).length + if endpoint = k then 1 else 0 := by
    have := countP_updateWhere h.tickets hr
      (fun r => decide (r.endpoint = k) && r.active) Slot.activated
    change (((updateWhere _ _ db.rows).filter _).length) = ((db.rows.filter _).length) + _
    rw [← List.countP_eq_length_filter, ← List.countP_eq_length_filter]
    simp only [hidle, hend, Slot.activated, Bool.and_false, Bool.and_true, Bool.false_eq_true,
      if_false, decide_eq_true_eq] at this
    exact this
  -- a row of the new table, and the row it was
  have horigin : ∀ r' ∈ (updateTicket ticket Slot.activated db).rows, ∃ r₀ ∈ db.rows,
      (r₀.ticket = ticket ∧ r' = r₀.activated) ∨ (r₀.ticket ≠ ticket ∧ r' = r₀) := by
    intro r' hr'
    obtain ⟨r₀, hr₀, rfl⟩ := mem_updateWhere.1 hr'
    refine ⟨r₀, hr₀, ?_⟩
    by_cases ht : r₀.ticket = ticket
    · exact .inl ⟨ht, by simp [ht]⟩
    · exact .inr ⟨ht, by simp [ht]⟩
  have hwaits : ∀ k p, p ∈ slotsView.waiting (updateTicket ticket Slot.activated db) k →
      ∃ r₀ ∈ waitingRows k db, r₀.ticket ≠ ticket ∧ p = r₀.place := by
    intro k p hp
    obtain ⟨r', hr', rfl⟩ := List.mem_map.1 hp
    obtain ⟨hr', hk, hi⟩ := mem_waitingRows.1 hr'
    obtain ⟨r₀, hr₀, ⟨-, rfl⟩ | ⟨hne, rfl⟩⟩ := horigin r' hr'
    · cases hi
    · exact ⟨_, mem_waitingRows.2 ⟨hr₀, hk, hi⟩, hne, rfl⟩
  refine ⟨sound_update h _ place_activated fun k => ?_, ?_, ?_, ?_⟩
  · change (activeRows k (updateTicket ticket Slot.activated db)).length ≤ _
    rw [hcount k]
    split
    · rename_i hk
      subst hk
      exact hroom
    · exact h.capacity k
  · exact le_refl _
  · intro k p hp
    obtain ⟨r₀, hr₀, -, rfl⟩ := hwaits k p hp
    exact .inl (List.mem_map_of_mem hr₀)
  · intro k q hq
    obtain ⟨r', hr', rfl⟩ := List.mem_map.1 hq
    obtain ⟨hr', hk, ha⟩ := mem_activeRows.1 hr'
    obtain ⟨r₀, hr₀, ⟨ht, rfl⟩ | ⟨-, rfl⟩⟩ := horigin r' hr'
    · obtain rfl : r₀ = r := by
        have := lookup_of_mem h.tickets hr₀
        rw [ht, hr] at this
        exact (Option.some.inj this).symm
      obtain rfl : r₀.endpoint = k := hk
      subst hend
      refine .inr ⟨.inl (List.mem_map.2 ⟨_, hrw, rfl⟩), fun p hp => ?_⟩
      obtain ⟨r₁, hr₁, hne, rfl⟩ := hwaits _ p hp
      exact hfirst r₁ hr₁ fun he => hne (he ▸ ht)
    · exact .inl (List.mem_map_of_mem (mem_activeRows.2 ⟨hr₀, hk, ha⟩))

include h in
lemma acquire_ok (ticket : Ticket) (endpoint : Endpoint)
    (now : ℚ) :
    Sound controller (distributedAcquire ticket endpoint (limit controller endpoint.providerId) now db).2 ∧
      Orderly slotsView db
        (distributedAcquire ticket endpoint (limit controller endpoint.providerId) now db).2 := by
  have h₁ : Sound controller (expire now db) := sound_filter h _
  have h₂ := sound_enqueue h₁ ticket endpoint (now + 10)
  have h₃ : Sound controller (updateTicket ticket (Slot.renewed (now + 10))
      (enqueue ticket endpoint (now + 10) (expire now db))) := sound_still h₂ (still_renewed _) _
  have horder : Orderly slotsView db (updateTicket ticket (Slot.renewed (now + 10))
      (enqueue ticket endpoint (now + 10) (expire now db))) :=
    orderly_trans (numbered_of_sound h₁) (orderly_filter db _)
      (orderly_trans (numbered_of_sound h₂) (orderly_enqueue _ _ _ _)
        (orderly_still (still_renewed _) _ _))
  unfold distributedAcquire
  dsimp only
  split
  · rename_i hin
    obtain ⟨hsound, hlast⟩ := activate_ok h₃ hin.1 hin.2
    exact ⟨hsound, orderly_trans (numbered_of_sound h₃) horder hlast⟩
  · exact ⟨h₃, horder⟩

lemma ticket_of_acquired {limit : ℕ} {now : ℚ}
    {r : Slot} (hr : r ∈ (distributedAcquire ticket endpoint limit now db).2.rows) :
    r.ticket = ticket ∨ ∃ r₀ ∈ db.rows, r₀.ticket = r.ticket := by
  have hupdate : ∀ {f : Slot → Slot} {db : Slots} {r : Slot}, (∀ r, (f r).ticket = r.ticket) →
      r ∈ (updateTicket ticket f db).rows → ∃ r₀ ∈ db.rows, r₀.ticket = r.ticket := by
    intro f db r hf hr
    obtain ⟨r₀, hr₀, rfl⟩ := mem_updateWhere.1 hr
    refine ⟨r₀, hr₀, ?_⟩
    split
    · exact (hf r₀).symm
    · rfl
  have hqueued : ∀ r ∈ (updateTicket ticket (Slot.renewed (now + 10))
      (enqueue ticket endpoint (now + 10) (expire now db))).rows,
      r.ticket = ticket ∨ ∃ r₀ ∈ db.rows, r₀.ticket = r.ticket := by
    intro r hr
    obtain ⟨r₁, hr₁, ht⟩ := hupdate (renewed_ticket _) hr
    rcases enqueue_cases ticket endpoint (now + 10) (expire now db) with he | ⟨-, he⟩
    · rw [he] at hr₁
      exact .inr ⟨r₁, (List.mem_filter.1 hr₁).1, ht⟩
    · rw [he] at hr₁
      rcases mem_concat.1 hr₁ with hr₁ | rfl
      · exact .inr ⟨r₁, (List.mem_filter.1 hr₁).1, ht⟩
      · exact .inl ht.symm
  unfold distributedAcquire at hr
  dsimp only at hr
  split at hr
  · obtain ⟨r₁, hr₁, ht⟩ := hupdate activated_ticket hr
    rw [← ht]
    exact hqueued r₁ hr₁
  · exact hqueued r hr

def Finished (w : World) (place : ℕ × Ticket) : Prop :=
  ∃ r ending, waiter? w place.2 = some r ∧ r.phase = .finished ending

def worldView : View World Endpoint (ℕ × Ticket) where
  waiting w k := slotsView.waiting w.db k
  holding w k := slotsView.holding w.db k
  rank := Prod.fst
  next w := w.db.nextSequence

def Live (w : World) : Prop :=
  ∀ r ∈ w.db.rows, ∃ v, waiter? w r.ticket = some v ∧ ∀ ending, v.phase ≠ .finished ending

variable (controller) in
structure Running (w : World) : Prop where
  sound : Sound controller w.db
  live : Live w

def NotWhileClosing (e : Entry World Action Bool) : Prop :=
  ∀ ticket r ending, e.action = .cancel ticket → waiter? e.before ticket = some r →
    r.phase ≠ .closing ending

variable {w : World} {r : Waiter}

lemma waiter?_update {f : Waiter → Waiter} (hf : ∀ r, (f r).ticket = r.ticket) (ticket other : Ticket) :
    waiter? (w.update ticket f) other =
      (waiter? w other).map fun r => if r.ticket = ticket then f r else r := by
  rw [waiter?]
  change lookup Waiter.ticket (updateWhere _ f w.waiters) other = _
  rw [lookup_updateWhere hf]
  simp

lemma running_update (h : Running controller w) (hr : waiter? w r.ticket = some r)
    {f : Waiter → Waiter} (hf : ∀ r, (f r).ticket = r.ticket)
    (hlive : ∀ ending, (f r).phase ≠ .finished ending) : Running controller (w.update r.ticket f) where
  sound := h.sound
  live row hrow := by
    obtain ⟨v, hv, hphase⟩ := h.live row hrow
    rw [waiter?_update hf, hv]
    refine ⟨_, rfl, ?_⟩
    dsimp only
    split
    · rename_i ht
      have hvt : v.ticket = row.ticket := lookup_key hv
      rw [← hvt, ht, hr] at hv
      rw [← Option.some.inj hv]
      exact hlive
    · exact hphase

lemma running_db (hsound : Sound controller db)
    (hrows : ∀ row ∈ db.rows, ∃ v, waiter? w row.ticket = some v ∧ ∀ ending, v.phase ≠ .finished ending) :
    Running controller { w with db := db } :=
  ⟨hsound, hrows⟩

lemma running_release (h : Running controller w) (ending : Ending) :
    Running controller ({ w with db := release r.ticket w.db }.update r.ticket
      (.goes (.finished ending))) where
  sound := sound_filter h.sound _
  live row hrow := by
    obtain ⟨hrow, hne⟩ := List.mem_filter.1 hrow
    have hne : row.ticket ≠ r.ticket := by simpa using hne
    obtain ⟨v, hv, hphase⟩ := h.live row hrow
    rw [waiter?_update (goes_ticket _)]
    refine ⟨v, ?_, hphase⟩
    have hvt : v.ticket = row.ticket := lookup_key hv
    change (waiter? w row.ticket).map _ = _
    rw [hv, Option.map_some, if_neg (by rw [hvt]; exact hne)]

lemma running_arrive (h : Running controller w) (v : Waiter) :
    Running controller { w with waiters := w.waiters ++ [v], nextTicket := w.nextTicket + 1 } where
  sound := h.sound
  live row hrow := by
    obtain ⟨u, hu, hphase⟩ := h.live row hrow
    refine ⟨u, ?_, hphase⟩
    change lookup Waiter.ticket (w.waiters ++ [v]) row.ticket = some u
    rw [lookup_append, show lookup Waiter.ticket w.waiters row.ticket = some u from hu]
    rfl

lemma orderly_refl (db : Slots) : Orderly slotsView db db :=
  orderly_of_subset rfl (fun _ => List.Subset.refl _) (fun _ => List.Subset.refl _)

lemma goes_ok (h : Running controller w) (hr : waiter? w r.ticket = some r) {phase : Phase}
    (hphase : ∀ ending, phase ≠ .finished ending) : Running controller (w.update r.ticket (.goes phase)) ∧
      Orderly slotsView w.db (w.update r.ticket (.goes phase)).db :=
  ⟨running_update h hr (goes_ticket _) hphase, orderly_refl _⟩

lemma acquired_ok (h : Running controller w) (hr : waiter? w r.ticket = some r) (hq : r.phase = .queued) (now : ℚ) :
    let db := (distributedAcquire r.ticket r.endpoint (limit controller r.endpoint.providerId) now w.db).2
    Running controller { w with db := db } ∧ Orderly slotsView w.db db := by
  obtain ⟨hsound, horder⟩ := acquire_ok h.sound r.ticket r.endpoint now
  refine ⟨running_db hsound fun row hrow => ?_, horder⟩
  rcases ticket_of_acquired hrow with ht | ⟨row₀, hrow₀, ht⟩
  · rw [ht]
    exact ⟨r, hr, fun ending => by rw [hq]; nofun⟩
  · rw [← ht]
    exact h.live row₀ hrow₀

lemma renewed_ok (h : Running controller w) (now now' : ℚ) :
    let db := (renew r.ticket now now' w.db).2
    Running controller { w with db := db } ∧ Orderly slotsView w.db db := by
  refine ⟨running_db (sound_still h.sound (still_renewed _) _) fun row hrow => ?_, orderly_still (still_renewed _) _ _⟩
  obtain ⟨row₀, hrow₀, rfl⟩ := mem_updateWhere.1 hrow
  split
  · exact h.live row₀ hrow₀
  · exact h.live row₀ hrow₀

lemma loses_ok (h : Running controller w) (hr : waiter? w r.ticket = some r) (hhold : r.phase = .holding) :
    Running controller (w.update r.ticket .loses) := by
  refine running_update h hr loses_ticket fun ending => ?_
  change r.phase ≠ _
  rw [hhold]
  nofun

lemma act_ok (h : Running controller w) (hr : waiter? w r.ticket = some r) {a : Action}
    (hcancel : ∀ ticket ending, a = .cancel ticket → r.phase ≠ .closing ending) {w' : World}
    (ha : act controller w r a = some w') :
    Running controller w' ∧ Orderly slotsView w.db w'.db := by
  cases a with
  | arrive endpoint started deadline => cases ha
  | poll ticket monotonic now =>
    simp only [act] at ha
    split at ha
    · cases ha
    rename_i hphase
    split at ha
    · cases ha
      exact goes_ok h hr nofun
    obtain ⟨hdb, horder⟩ := acquired_ok h hr (not_not.1 hphase) now
    split at ha
    · rename_i db hacq
      cases ha
      rw [hacq] at hdb horder
      exact ⟨running_update hdb hr (goes_ticket _) nofun, horder⟩
    · rename_i db hacq
      cases ha
      rw [hacq] at hdb horder
      exact ⟨hdb, horder⟩
  | pollRaises ticket =>
    simp only [act] at ha
    split at ha
    · cases ha
      exact goes_ok h hr nofun
    · cases ha
  | beat ticket now now' =>
    simp only [act] at ha
    split at ha
    · rename_i hhold
      obtain ⟨hdb, horder⟩ := @renewed_ok controller w r h now now'
      split at ha
      · rename_i db hren
        cases ha
        rw [hren] at hdb horder
        exact ⟨hdb, horder⟩
      · rename_i db hren
        cases ha
        rw [hren] at hdb horder
        exact ⟨loses_ok hdb hr hhold.1, horder⟩
    · cases ha
  | beatRaises ticket =>
    simp only [act] at ha
    split at ha
    · rename_i hhold
      cases ha
      exact ⟨loses_ok h hr hhold.1, orderly_refl _⟩
    · cases ha
  | leave ticket ending =>
    simp only [act] at ha
    split at ha
    · cases ha
      exact goes_ok h hr nofun
    · cases ha
  | cancel ticket =>
    simp only [act] at ha
    split at ha
    · cases ha
      exact goes_ok h hr nofun
    · cases ha
      exact goes_ok h hr nofun
    · rename_i ending hclosing
      exact absurd hclosing (hcancel ticket ending rfl)
    · cases ha
    · cases ha
  | heartbeatEnded ticket =>
    simp only [act] at ha
    split at ha
    · cases ha
      exact goes_ok h hr nofun
    · cases ha
  | release ticket =>
    simp only [act] at ha
    split at ha
    · cases ha
      exact ⟨running_release h _, orderly_filter _ _⟩
    · cases ha

variable (controller) in
lemma step_cases (w : World) (a : Action) :
    (∃ endpoint started deadline, a = .arrive endpoint started deadline) ∨
    (step controller w a).2 = w ∨
    ∃ r, a.ticket? = some r.ticket ∧ waiter? w r.ticket = some r ∧
      act controller w r a = some (step controller w a).2 := by
  by_cases harrive : ∃ endpoint started deadline, a = .arrive endpoint started deadline
  · exact .inl harrive
  have hstep : (step controller w a).2 = ((a.ticket?.bind (waiter? w)).bind fun r => act controller w r a).getD w := by
    cases a with
    | arrive endpoint started deadline => exact absurd ⟨_, _, _, rfl⟩ harrive
    | _ =>
      simp only [step]
      split
      next hnone =>
        rw [hnone]
        rfl
      next r hr =>
        rw [hr, Option.bind_some]
        split
        next hact =>
          rw [hact]
          rfl
        next hact =>
          rw [hact]
          rfl
  refine .inr ?_
  rw [hstep]
  rcases hr : a.ticket?.bind (waiter? w) with _ | r
  · exact .inl rfl
  · obtain ⟨ticket, ht, hrow⟩ := Option.bind_eq_some_iff.1 hr
    obtain rfl : r.ticket = ticket := lookup_key hrow
    rw [Option.bind_some]
    rcases hact : act controller w r a with _ | w'
    · exact .inl rfl
    · exact .inr ⟨r, ht, hrow, hact⟩

lemma step_ok (h : Running controller w) (a : Action)
    (hok : NotWhileClosing (entry (step controller) w a)) :
    Running controller (step controller w a).2 ∧ Orderly slotsView w.db (step controller w a).2.db := by
  rcases step_cases controller w a with ⟨endpoint, started, deadline, rfl⟩ | hidle | ⟨r, ht, hr, hact⟩
  · exact ⟨running_arrive h _, orderly_refl _⟩
  · rw [hidle]
    exact ⟨h, orderly_refl _⟩
  · refine act_ok h hr (fun ticket ending ha => ?_) hact
    subst ha
    obtain rfl : ticket = r.ticket := Option.some.inj ht
    exact hok _ r ending rfl hr

lemma running_initial : Running controller .initial where
  sound := ⟨List.nodup_nil, List.Pairwise.nil, nofun, fun _ => Nat.zero_le _⟩
  live := nofun

lemma fair_shared (actions : List Action)
    (hok : ∀ e ∈ trace (step controller) .initial actions, NotWhileClosing e) :
    Fair worldView (fun k => limit controller k.providerId) Finished
      (trace (step controller) .initial actions) := by
  have hall := (@invariant_of _ _ _ (step controller) (Running controller) NotWhileClosing
    (fun _ a h hok => (step_ok h a hok).1) .initial actions running_initial hok).1
  refine ⟨fun e he k => ?_, ?_, fun e he k p hp => ?_⟩
  · change ((activeRows k e.after.db).map Slot.place).length ≤ _
    rw [List.length_map]
    exact (hall e he).2.sound.capacity k
  · refine inOrder_of (fun w a h hok => (step_ok h a hok).1) (fun w h => ?_) (fun w a h hok => ?_)
      running_initial hok
    · exact numbered_of_sound h.sound
    · obtain ⟨hnext, hwaits, hserves⟩ := (step_ok h a hok).2
      exact ⟨hnext, hwaits, hserves⟩
  · obtain ⟨v, ending, hv, hphase⟩ := hp
    have hgone : ∀ row ∈ e.after.db.rows, row.place ≠ p := by
      rintro row hrow rfl
      obtain ⟨u, hu, hlive⟩ := (hall e he).2.live row hrow
      obtain rfl : v = u := Option.some.inj (hv.symm.trans hu)
      exact hlive ending hphase
    refine ⟨fun hin => ?_, fun hin => ?_⟩
    · obtain ⟨row, hrow, hplace⟩ := List.mem_map.1 hin
      exact hgone row (mem_waitingRows.1 hrow).1 hplace
    · obtain ⟨row, hrow, hplace⟩ := List.mem_map.1 hin
      exact hgone row (mem_activeRows.1 hrow).1 hplace

namespace Local

def Finished (w : World) (ticket : Ticket) : Prop :=
  ∃ r ending, waiter? w ticket = some r ∧ r.phase = .finished ending

def holds (k : Endpoint) (r : Waiter) : Bool := decide (r.key = k ∧ r.phase = .holding)

def localView : View World Endpoint Ticket where
  waiting w k := (w.queues k).waiting
  holding w k := (w.waiters.filter (holds k)).map Waiter.ticket
  rank := id
  next := World.nextTicket

variable (controller) in
structure Running (w : World) : Prop where
  tickets : (w.waiters.map Waiter.ticket).Nodup
  below : ∀ r ∈ w.waiters, r.ticket < w.nextTicket
  ordered : ∀ k, (w.queues k).waiting.Pairwise (· < ·)
  queued : ∀ k, ∀ ticket ∈ (w.queues k).waiting,
    ∃ r, waiter? w ticket = some r ∧ r.key = k ∧ r.phase = .queued
  active : ∀ k, (w.queues k).active = w.waiters.countP (holds k)
  capacity : ∀ k, (w.queues k).active ≤ limit controller k.providerId

variable {w : World} {r : Waiter}

lemma waiter?_update {f : Waiter → Waiter} (hf : ∀ r, (f r).ticket = r.ticket) (ticket other : Ticket) :
    waiter? (w.update ticket f) other =
      (waiter? w other).map fun r => if r.ticket = ticket then f r else r := by
  rw [waiter?]
  change lookup Waiter.ticket (updateWhere _ f w.waiters) other = _
  rw [lookup_updateWhere hf]
  simp

lemma holds_goes (k : Endpoint) (phase : Phase) (r : Waiter) :
    holds k (r.goes phase) = decide (r.key = k ∧ phase = .holding) := rfl

lemma running_goes (h : Running controller w) (hr : waiter? w r.ticket = some r)
    (queue : AdmissionQueue) (phase : Phase)
    (hsub : queue.waiting.Sublist (w.queues r.key).waiting) (hout : r.ticket ∉ queue.waiting)
    (hactive : queue.active + (if r.phase = .holding then 1 else 0) =
      (w.queues r.key).active + (if phase = .holding then 1 else 0))
    (hcap : queue.active ≤ limit controller r.key.providerId) :
    Running controller ((w.setQueue r.key queue).update r.ticket (.goes phase)) where
  tickets := nodup_updateWhere (goes_ticket phase) h.tickets
  below v hv := by
    obtain ⟨v₀, hv₀, rfl⟩ := mem_updateWhere.1 hv
    split
    · exact h.below v₀ hv₀
    · exact h.below v₀ hv₀
  ordered k := by
    change ((Function.update w.queues r.key queue) k).waiting.Pairwise _
    by_cases hk : k = r.key
    · subst hk
      rw [Function.update_self]
      exact (h.ordered r.key).sublist hsub
    · rw [Function.update_of_ne hk]
      exact h.ordered k
  queued k ticket hin := by
    have hold : ticket ∈ (w.queues k).waiting ∧ ticket ≠ r.ticket := by
      change ticket ∈ ((Function.update w.queues r.key queue) k).waiting at hin
      by_cases hk : k = r.key
      · subst hk
        rw [Function.update_self] at hin
        exact ⟨hsub.subset hin, fun he => hout (he ▸ hin)⟩
      · rw [Function.update_of_ne hk] at hin
        refine ⟨hin, fun he => hk ?_⟩
        obtain ⟨v, hv, hkey, -⟩ := h.queued k ticket hin
        rw [he, hr] at hv
        rw [← hkey, Option.some.inj hv]
    obtain ⟨v, hv, hkey, hphase⟩ := h.queued k ticket hold.1
    have hvt : v.ticket = ticket := lookup_key hv
    rw [waiter?_update (goes_ticket phase)]
    refine ⟨v, ?_, hkey, hphase⟩
    change (waiter? w ticket).map _ = _
    rw [hv, Option.map_some, if_neg (by rw [hvt]; exact hold.2)]
  active k := by
    have hcount := countP_updateWhere h.tickets hr (holds k) (.goes phase)
    rw [holds_goes] at hcount
    change ((Function.update w.queues r.key queue) k).active =
      (updateWhere (fun v => decide (v.ticket = r.ticket)) (.goes phase) w.waiters).countP (holds k)
    by_cases hk : k = r.key
    · subst hk
      rw [Function.update_self]
      have hold := h.active r.key
      simp only [holds, true_and, decide_eq_true_eq] at hcount hold
      omega
    · rw [Function.update_of_ne hk, h.active k]
      simp only [holds, Ne.symm hk, false_and, decide_false, Bool.false_eq_true, if_false] at hcount ⊢
      omega
  capacity k := by
    change ((Function.update w.queues r.key queue) k).active ≤ _
    by_cases hk : k = r.key
    · subst hk
      rw [Function.update_self]
      exact hcap
    · rw [Function.update_of_ne hk]
      exact h.capacity k

lemma orderly_goes (h : Running controller w) (hr : waiter? w r.ticket = some r)
    (queue : AdmissionQueue) (phase : Phase)
    (hsub : queue.waiting.Sublist (w.queues r.key).waiting)
    (hhead : phase = .holding → (w.queues r.key).waiting = r.ticket :: queue.waiting) :
    Orderly localView w ((w.setQueue r.key queue).update r.ticket (.goes phase)) where
  next_le := le_refl _
  waits k p hp := by
    refine .inl ?_
    change p ∈ ((Function.update w.queues r.key queue) k).waiting at hp
    by_cases hk : k = r.key
    · subst hk
      rw [Function.update_self] at hp
      exact hsub.subset hp
    · rw [Function.update_of_ne hk] at hp
      exact hp
  serves k q hq := by
    obtain ⟨v, hv, rfl⟩ := List.mem_map.1 hq
    obtain ⟨hv, hholds⟩ := List.mem_filter.1 hv
    obtain ⟨v₀, hv₀, rfl⟩ := mem_updateWhere.1 hv
    by_cases ht : v₀.ticket = r.ticket
    · obtain rfl : v₀ = r := by
        have hfound := lookup_of_mem h.tickets hv₀
        rw [ht] at hfound
        exact Option.some.inj (hfound.symm.trans hr)
      simp only [decide_true, if_true] at hholds ⊢
      rw [holds_goes, decide_eq_true_eq] at hholds
      obtain ⟨rfl, rfl⟩ := hholds
      have hline := hhead rfl
      refine .inr ⟨.inl ?_, fun p hp => ?_⟩
      · change v₀.ticket ∈ (w.queues v₀.key).waiting
        rw [hline]
        exact List.mem_cons_self ..
      · change p ∈ ((Function.update w.queues v₀.key queue) v₀.key).waiting at hp
        rw [Function.update_self] at hp
        have hsorted := h.ordered v₀.key
        rw [hline, List.pairwise_cons] at hsorted
        exact hsorted.1 p hp
    · simp only [ht, decide_false, Bool.false_eq_true, if_false] at hholds ⊢
      exact .inl (List.mem_map_of_mem (List.mem_filter.2 ⟨hv₀, hholds⟩))

lemma giveUp_ok (h : Running controller w) (hr : waiter? w r.ticket = some r)
    (hphase : r.phase = .queued) (ending : Ending) :
    Running controller (giveUp r ending w) ∧ Orderly localView w (giveUp r ending w) := by
  have hnodup : (w.queues r.key).waiting.Nodup := (h.ordered r.key).imp fun hlt => hlt.ne
  refine ⟨running_goes h hr _ _ List.erase_sublist ?_ ?_ (h.capacity r.key),
    orderly_goes h hr _ _ List.erase_sublist nofun⟩
  · exact fun hin => (hnodup.mem_erase_iff.1 hin).1 rfl
  · rw [hphase]
    rfl

lemma giveBack_ok (h : Running controller w) (hr : waiter? w r.ticket = some r)
    (hphase : r.phase = .holding) (ending : Ending) :
    Running controller (giveBack r ending w) ∧ Orderly localView w (giveBack r ending w) := by
  have hpos : 0 < (w.queues r.key).active := by
    rw [h.active r.key]
    exact List.countP_pos_iff.2 ⟨r, lookup_mem hr, by simp [holds, hphase]⟩
  refine ⟨running_goes h hr _ _ (List.Sublist.refl _) ?_ ?_
    ((Nat.sub_le _ _).trans (h.capacity r.key)), orderly_goes h hr _ _ (List.Sublist.refl _) nofun⟩
  · intro hin
    obtain ⟨v, hv, -, hq⟩ := h.queued r.key r.ticket hin
    rw [hr] at hv
    rw [← Option.some.inj hv, hphase] at hq
    cases hq
  · rw [hphase]
    change (w.queues r.key).active - 1 + 1 = (w.queues r.key).active + 0
    omega

lemma act_ok (h : Running controller w) (hr : waiter? w r.ticket = some r) {a : Action} {w' : World}
    (ha : act controller w r a = some w') : Running controller w' ∧ Orderly localView w w' := by
  cases a with
  | arrive key started => cases ha
  | poll ticket =>
    simp only [act] at ha
    split at ha
    · rename_i hin
      obtain ⟨hphase, hhead, hroom⟩ := hin
      cases ha
      have hline : (w.queues r.key).waiting = r.ticket :: (w.queues r.key).waiting.tail := by
        rcases hw : (w.queues r.key).waiting with _ | ⟨t, rest⟩
        · rw [hw] at hhead
          cases hhead
        · rw [hw] at hhead
          rw [List.tail_cons, Option.some.inj hhead]
      refine ⟨running_goes h hr _ _ (List.tail_sublist _) ?_ ?_ hroom,
        orderly_goes h hr _ _ (List.tail_sublist _) fun _ => hline⟩
      · have hsorted := h.ordered r.key
        rw [hline, List.pairwise_cons] at hsorted
        exact fun hin => (hsorted.1 _ hin).ne rfl
      · rw [hphase]
        rfl
    · cases ha
  | timeOut ticket monotonic =>
    simp only [act] at ha
    split at ha
    · rename_i hdue
      cases ha
      exact giveUp_ok h hr hdue.1 _
    · cases ha
  | cancel ticket =>
    simp only [act] at ha
    split at ha
    · rename_i hphase
      cases ha
      exact giveUp_ok h hr hphase _
    · rename_i hphase
      cases ha
      exact giveBack_ok h hr hphase _
    · cases ha
  | leave ticket ending =>
    simp only [act] at ha
    split at ha
    · rename_i hphase
      cases ha
      exact giveBack_ok h hr hphase _
    · cases ha

def arrived (w : World) (key : Endpoint) (started : ℚ) : World :=
  { w.setQueue key { w.queues key with waiting := (w.queues key).waiting ++ [w.nextTicket] } with
    waiters := w.waiters ++ [⟨w.nextTicket, key, started, .queued⟩]
    nextTicket := w.nextTicket + 1 }

lemma queues_arrived (key : Endpoint) (started : ℚ) (k : Endpoint) :
    ((arrived w key started).queues k).active = (w.queues k).active ∧
    ((arrived w key started).queues k).waiting =
      (w.queues k).waiting ++ if k = key then [w.nextTicket] else [] := by
  change ((Function.update w.queues key _) k).active = _ ∧ ((Function.update w.queues key _) k).waiting = _
  by_cases hk : k = key
  · subst hk
    rw [Function.update_self, if_pos rfl]
    exact ⟨rfl, rfl⟩
  · rw [Function.update_of_ne hk, if_neg hk, List.append_nil]
    exact ⟨rfl, rfl⟩

lemma below_queued (h : Running controller w) {k : Endpoint} {ticket : Ticket}
    (hin : ticket ∈ (w.queues k).waiting) : ticket < w.nextTicket := by
  obtain ⟨v, hv, -, -⟩ := h.queued k ticket hin
  rw [← lookup_key hv]
  exact h.below v (lookup_mem hv)

lemma arrive_ok (h : Running controller w) (key : Endpoint) (started : ℚ) :
    Running controller (arrived w key started) ∧ Orderly localView w (arrived w key started) := by
  refine ⟨⟨?_, ?_, fun k => ?_, fun k ticket hin => ?_, fun k => ?_, fun k => ?_⟩,
    Nat.le_succ _, fun k p hp => ?_, fun k q hq => .inl ?_⟩
  · exact nodup_map_concat h.tickets fun v hv => (h.below v hv).ne
  · intro v hv
    rcases mem_concat.1 hv with hv | rfl
    · exact (h.below v hv).trans (Nat.lt_succ_self _)
    · exact Nat.lt_succ_self _
  · rw [(queues_arrived key started k).2]
    refine List.pairwise_append.2 ⟨h.ordered k, by split <;> simp, fun a ha b hb => ?_⟩
    split at hb
    · rw [List.mem_singleton] at hb
      subst hb
      exact below_queued h ha
    · cases hb
  · rw [(queues_arrived key started k).2] at hin
    change ∃ v, lookup Waiter.ticket (w.waiters ++ [_]) ticket = some v ∧ _
    rw [lookup_append]
    rcases List.mem_append.1 hin with hold | hnew
    · obtain ⟨v, hv, hkey, hphase⟩ := h.queued k ticket hold
      rw [show lookup Waiter.ticket w.waiters ticket = some v from hv]
      exact ⟨v, rfl, hkey, hphase⟩
    · split at hnew
      · rename_i hk
        rw [List.mem_singleton] at hnew
        subst hk hnew
        have hfresh : lookup Waiter.ticket w.waiters w.nextTicket = none :=
          lookup_eq_none.2 fun v hv => (h.below v hv).ne
        rw [hfresh, lookup_cons]
        exact ⟨_, by rw [if_pos rfl]; rfl, rfl, rfl⟩
      · cases hnew
  · rw [(queues_arrived key started k).1, h.active k]
    change _ = (w.waiters ++ [_]).countP (holds k)
    rw [List.countP_append]
    simp [holds]
  · rw [(queues_arrived key started k).1]
    exact h.capacity k
  · change p ∈ ((arrived w key started).queues k).waiting at hp
    rw [(queues_arrived key started k).2] at hp
    rcases List.mem_append.1 hp with hp | hp
    · exact .inl hp
    · split at hp
      · rw [List.mem_singleton] at hp
        subst hp
        exact .inr (le_refl _)
      · cases hp
  · obtain ⟨v, hv, rfl⟩ := List.mem_map.1 hq
    obtain ⟨hv, hholds⟩ := List.mem_filter.1 hv
    rcases mem_concat.1 hv with hv | rfl
    · exact List.mem_map_of_mem (List.mem_filter.2 ⟨hv, hholds⟩)
    · simp [holds] at hholds

variable (controller) in
lemma step_cases (w : World) (a : Action) :
    (∃ key started, a = .arrive key started) ∨ (step controller w a).2 = w ∨
    ∃ r, waiter? w r.ticket = some r ∧ act controller w r a = some (step controller w a).2 := by
  by_cases harrive : ∃ key started, a = .arrive key started
  · exact .inl harrive
  have hstep : (step controller w a).2 = ((a.ticket?.bind (waiter? w)).bind fun r => act controller w r a).getD w := by
    cases a with
    | arrive key started => exact absurd ⟨_, _, rfl⟩ harrive
    | _ =>
      simp only [step]
      split
      next hnone =>
        rw [hnone]
        rfl
      next r hr =>
        rw [hr, Option.bind_some]
        split
        next hact =>
          rw [hact]
          rfl
        next hact =>
          rw [hact]
          rfl
  refine .inr ?_
  rw [hstep]
  rcases hr : a.ticket?.bind (waiter? w) with _ | r
  · exact .inl rfl
  · obtain ⟨ticket, -, hrow⟩ := Option.bind_eq_some_iff.1 hr
    obtain rfl : r.ticket = ticket := lookup_key hrow
    rw [Option.bind_some]
    rcases hact : act controller w r a with _ | w'
    · exact .inl rfl
    · exact .inr ⟨r, hrow, hact⟩

lemma step_ok (h : Running controller w) (a : Action) :
    Running controller (step controller w a).2 ∧ Orderly localView w (step controller w a).2 := by
  rcases step_cases controller w a with ⟨key, started, rfl⟩ | hidle | ⟨r, hr, hact⟩
  · exact arrive_ok h key started
  · rw [hidle]
    exact ⟨h, orderly_of_subset rfl (fun _ => List.Subset.refl _) (fun _ => List.Subset.refl _)⟩
  · exact act_ok h hr hact

lemma running_initial : Running controller .initial where
  tickets := List.nodup_nil
  below := nofun
  ordered _ := List.Pairwise.nil
  queued _ := nofun
  active _ := rfl
  capacity _ := Nat.zero_le _

lemma fair_local (actions : List Action) :
    Fair localView (fun k => limit controller k.providerId) Finished
      (trace (step controller) .initial actions) := by
  have hall := (@invariant _ _ _ (step controller) (Running controller)
    (fun _ a h => (step_ok h a).1) .initial actions running_initial).1
  refine ⟨fun e he k => ?_, ?_, fun e he k ticket hfin => ?_⟩
  · obtain ⟨-, h⟩ := hall e he
    change ((e.after.waiters.filter (holds k)).map Waiter.ticket).length ≤ _
    rw [List.length_map, ← List.countP_eq_length_filter, ← h.active k]
    exact h.capacity k
  · refine @inOrder_of _ _ _ _ _ localView (step controller) (Running controller) (fun _ => True)
      (fun w a h _ => (step_ok h a).1) (fun w h => ?_) (fun w a h _ => (step_ok h a).2)
      .initial actions running_initial fun _ _ => trivial
    rintro k p (hp | hp)
    · exact below_queued h hp
    · obtain ⟨v, hv, rfl⟩ := List.mem_map.1 hp
      exact h.below v (List.mem_filter.1 hv).1
  · obtain ⟨-, h⟩ := hall e he
    obtain ⟨v, ending, hv, hphase⟩ := hfin
    refine ⟨fun hin => ?_, fun hin => ?_⟩
    · obtain ⟨u, hu, -, hq⟩ := h.queued k ticket hin
      obtain rfl : v = u := Option.some.inj (hv.symm.trans hu)
      rw [hphase] at hq
      cases hq
    · obtain ⟨u, hu, rfl⟩ := List.mem_map.1 hin
      obtain ⟨hu, hholds⟩ := List.mem_filter.1 hu
      obtain rfl : v = u := Option.some.inj (hv.symm.trans (lookup_of_mem h.tickets hu))
      simp [holds, hphase] at hholds

end Local

variable (controller)

/-- Both controllers are fair lines, the shared one as long as no cancellation strikes
    the await before the row is deleted. -/
theorem fair_of_notWhileClosing (actions : List Action) (actions' : List Local.Action)
    (hok : ∀ e ∈ trace (step controller) .initial actions, NotWhileClosing e) :
    Fair worldView (fun k => limit controller k.providerId) Finished
      (trace (step controller) .initial actions) ∧
    Fair Local.localView (fun k => limit controller k.providerId) Local.Finished
      (trace (Local.step controller) .initial actions') :=
  ⟨fair_shared actions hok, Local.fair_local actions'⟩

def oneSlot : ProviderAdmissionController := .new [] 30
def nim : Endpoint := ⟨"nvidia_nim", "model", "same"⟩

def cancelledAtTheEnd : List Action :=
  [.arrive nim 0 none, .poll 0 0 100, .leave 0 .returned, .cancel 0]

/-- The cancelled call is over and its row still holds the only slot. -/
theorem cancelled_keeps_slot : ¬ ∀ (controller : ProviderAdmissionController) (actions : List Action),
    Fair worldView (fun k => limit controller k.providerId) Finished
      (trace (step controller) .initial actions) := by
  intro h
  have hfair := h oneSlot cancelledAtTheEnd
  have hmem : entry (step oneSlot) (final (step oneSlot) .initial (cancelledAtTheEnd.take 3)) (.cancel 0) ∈
      trace (step oneSlot) .initial cancelledAtTheEnd := by
    change _ ∈ trace (step oneSlot) .initial (cancelledAtTheEnd.take 3 ++ [.cancel 0])
    rw [trace_append]
    exact List.mem_append_right _ (List.mem_singleton_self _)
  refine (hfair.noneKept _ hmem nim (1, 0) ⟨⟨0, nim, 30, false, .finished .cancelled⟩, .cancelled, ?_, rfl⟩).2 ?_
  · decide +kernel
  · decide +kernel

/-- Two calls take turns at one slot, in the table and in memory. -/
theorem fair_of_notWhileClosing_turns :
    Fair worldView (fun k => limit oneSlot k.providerId) Finished
      (trace (step oneSlot) .initial [.arrive nim 0 none, .arrive nim 0 none, .poll 0 0 100,
        .poll 1 0 100, .leave 0 .returned, .heartbeatEnded 0, .release 0, .poll 1 1 101]) ∧
    Fair Local.localView (fun k => limit oneSlot k.providerId) Local.Finished
      (trace (Local.step oneSlot) .initial [.arrive nim 0, .arrive nim 0, .poll 0, .poll 1,
        .leave 0 .returned, .poll 1]) := by
  refine fair_of_notWhileClosing oneSlot _ _ fun e he => ?_
  simp only [trace_cons, trace_nil, List.mem_cons, List.not_mem_nil, or_false] at he
  rcases he with rfl | rfl | rfl | rfl | rfl | rfl | rfl | rfl <;> rintro ticket r ending ⟨⟩

end PromptForge.Admission
