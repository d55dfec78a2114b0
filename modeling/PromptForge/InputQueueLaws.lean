import PromptForge.InputQueue
import PromptForge.JournalHealth

namespace PromptForge.Store
open Runs Tables Json Texts

variable {host : Host}

abbrev Turn := Entry State QueueRequest (Except StoreError QueueReply)

variable (host) in
abbrev turns (requests : List QueueRequest) : List Turn := trace (serve host) .initial requests

def Closed (r : QueueRow) : Prop := r.status = .acknowledged ∨ r.status = .removed

structure Matched (r : QueueRow) : Prop where
  itemId : r.payload.itemId = r.itemId
  sessionId : r.payload.sessionId = r.sessionId
  runId : r.payload.runId = r.runId
  mode : r.payload.mode = r.mode
  status : r.payload.status = r.status
  insertionSequence : r.payload.insertionSequence = r.insertionSequence

structure Follows (r r' : QueueRow) : Prop where
  itemId : r'.itemId = r.itemId
  sessionId : r'.sessionId = r.sessionId
  insertionSequence : r'.insertionSequence = r.insertionSequence
  closed : Closed r → r' = r

def Inserts (e : Turn) (r : QueueRow) : Prop := e.after.db.queue = e.before.db.queue ++ [r]

/-- The step makes a run the holder of an item: afterwards the item is claimed, and it
    was not claimed before, or by another run. -/
def Claims (e : Turn) (r r' : QueueRow) : Prop :=
  r ∈ e.before.db.queue ∧ r' ∈ e.after.db.queue ∧ r.itemId = r'.itemId ∧ r'.status = .claimed ∧
    ¬ (r.status = .claimed ∧ r.runId = r'.runId)

structure Durable (es : List Turn) : Prop where
  /-- The table is in the order of insertion. -/
  sequences : ∀ e ∈ es, e.after.db.queue.Pairwise fun r r' =>
    r.sessionId = r'.sessionId → r.insertionSequence < r'.insertionSequence
  increasing : es.Pairwise fun e e' => ∀ r r', Inserts e r → Inserts e' r' →
    r.sessionId = r'.sessionId → r.insertionSequence < r'.insertionSequence
  columns : ∀ e ∈ es, ∀ r ∈ e.after.db.queue, Matched r
  /-- No item is lost, and one that is acknowledged or removed stays as it is. -/
  kept : es.Pairwise fun e e' => ∀ r ∈ e.after.db.queue, ∃ r' ∈ e'.after.db.queue, Follows r r'
  claimed : ∀ e ∈ es, ∀ r r', Claims e r r' → ∃ p sessionId runId modes limit draw,
    e.action = .claim p sessionId runId modes limit draw ∧ eligible sessionId runId modes r = true
  inOrder : ∀ e ∈ es, ∀ p sessionId runId modes limit draw,
    e.action = .claim p sessionId runId modes limit draw → ∀ early ∈ e.before.db.queue,
      eligible sessionId runId modes early = true → ∀ r r', Claims e r r' →
        early.insertionSequence < r.insertionSequence → ∃ early', Claims e early early'
  handedOut : ∀ e ∈ es, ∀ p sessionId runId modes limit draw items,
    e.action = .claim p sessionId runId modes limit draw → e.outcome = .ok (.items items) →
      items.Pairwise fun item item' => item.insertionSequence < item'.insertionSequence
  oneHolder : ∀ e ∈ es, ∀ r ∈ e.after.db.queue, ∀ r' ∈ e.after.db.queue, r.itemId = r'.itemId → r = r'
  notAgain : es.Pairwise fun e e' => ∀ id, (∃ r ∈ e.after.db.queue, r.itemId = id ∧ r.status = .acknowledged) →
    ∀ r r', Claims e' r r' → r.itemId ≠ id

structure Sound (q : List QueueRow) : Prop where
  ids : (q.map QueueRow.itemId).Nodup
  ordered : q.Pairwise fun r r' => r.sessionId = r'.sessionId → r.insertionSequence < r'.insertionSequence
  matched : ∀ r ∈ q, Matched r

structure Moves (f : QueueRow → QueueRow) : Prop where
  itemId : ∀ r, (f r).itemId = r.itemId
  sessionId : ∀ r, (f r).sessionId = r.sessionId
  insertionSequence : ∀ r, (f r).insertionSequence = r.insertionSequence
  matched : ∀ r, Matched r → Matched (f r)

def Calm (f : QueueRow → QueueRow) : Prop :=
  ∀ r, (f r).status = .claimed → r.status = .claimed ∧ (f r).runId = r.runId

inductive Change (q : List QueueRow) : List QueueRow → Prop where
  | same : Change q q
  | insert (r : QueueRow) (hfresh : lookup QueueRow.itemId q r.itemId = none) (hmatched : Matched r)
      (hlast : ∀ r' ∈ q, r'.sessionId = r.sessionId → r'.insertionSequence < r.insertionSequence) :
      Change q (q ++ [r])
  | update (p : QueueRow → Bool) (f : QueueRow → QueueRow) (hf : Moves f) (hcalm : Calm f)
      (hopen : ∀ r ∈ q, p r = true → ¬ Closed r) : Change q (updateWhere p f q)

lemma moves_edited (text stamp : String) : Moves (QueueRow.edited text stamp) :=
  ⟨fun _ => rfl, fun _ => rfl, fun _ => rfl,
    fun _ h => ⟨h.itemId, h.sessionId, h.runId, h.mode, h.status, h.insertionSequence⟩⟩

lemma moves_taken (stamp : String) : Moves (QueueRow.taken stamp) :=
  ⟨fun _ => rfl, fun _ => rfl, fun _ => rfl,
    fun _ h => ⟨h.itemId, h.sessionId, h.runId, h.mode, rfl, h.insertionSequence⟩⟩

lemma moves_claimed (runId : Option String) (stamp : String) : Moves (QueueRow.claimed runId stamp) :=
  ⟨fun _ => rfl, fun _ => rfl, fun _ => rfl,
    fun _ h => ⟨h.itemId, h.sessionId, rfl, h.mode, rfl, h.insertionSequence⟩⟩

lemma moves_acknowledged (touched : Bool) (stamp : String) : Moves (QueueRow.acknowledged touched stamp) :=
  ⟨fun _ => rfl, fun _ => rfl, fun _ => rfl,
    fun _ h => ⟨h.itemId, h.sessionId, h.runId, h.mode, rfl, h.insertionSequence⟩⟩

lemma moves_transferred (replacement stamp : String) : Moves (QueueRow.transferred replacement stamp) :=
  ⟨fun _ => rfl, fun _ => rfl, fun _ => rfl,
    fun _ h => ⟨h.itemId, h.sessionId, rfl, h.mode, rfl, h.insertionSequence⟩⟩

lemma eq_of_itemId {q : List QueueRow} (h : (q.map QueueRow.itemId).Nodup) {r r' : QueueRow}
    (hr : r ∈ q) (hr' : r' ∈ q) (hid : r.itemId = r'.itemId) : r = r' := by
  have hfound := lookup_of_mem h hr
  rw [hid, lookup_of_mem h hr'] at hfound
  exact (Option.some.inj hfound).symm

variable {f : QueueRow → QueueRow}

lemma sound_update {q : List QueueRow} (h : Sound q) {p : QueueRow → Bool}
    (hf : Moves f) : Sound (updateWhere p f q) := by
  have hseq : ∀ r, (if p r then f r else r).insertionSequence = r.insertionSequence := by
    intro r
    split
    · exact hf.insertionSequence r
    · rfl
  have hsession : ∀ r, (if p r then f r else r).sessionId = r.sessionId := by
    intro r
    split
    · exact hf.sessionId r
    · rfl
  refine ⟨nodup_updateWhere hf.itemId h.ids, ?_, fun r' hr' => ?_⟩
  · refine List.pairwise_map.2 (h.ordered.imp fun {r r'} hlt hs => ?_)
    rw [hseq, hseq]
    rw [hsession, hsession] at hs
    exact hlt hs
  · obtain ⟨r, hr, rfl⟩ := mem_updateWhere.1 hr'
    split
    · exact hf.matched r (h.matched r hr)
    · exact h.matched r hr

lemma sound_change {q q' : List QueueRow} (h : Sound q) (hc : Change q q') : Sound q' := by
  cases hc with
  | same => exact h
  | insert r hfresh hmatched hlast =>
    refine ⟨nodup_insertRow (insertRow_of_fresh hfresh) h.ids, ?_, fun r' hr' => ?_⟩
    · refine List.pairwise_append.2 ⟨h.ordered, List.pairwise_singleton _ _, fun r₀ hr₀ r₁ hr₁ hs => ?_⟩
      rw [List.mem_singleton] at hr₁
      subst hr₁
      exact hlast r₀ hr₀ hs
    · rcases List.mem_append.1 hr' with hr' | hr'
      · exact h.matched r' hr'
      · rwa [List.mem_singleton.1 hr']
  | update p f hf => exact sound_update h hf

lemma follows_refl (r : QueueRow) : Follows r r := ⟨rfl, rfl, rfl, fun _ => rfl⟩

lemma follows_trans {a b c : QueueRow} (hab : Follows a b) (hbc : Follows b c) : Follows a c where
  itemId := hbc.itemId.trans hab.itemId
  sessionId := hbc.sessionId.trans hab.sessionId
  insertionSequence := hbc.insertionSequence.trans hab.insertionSequence
  closed h := by
    have hsame := hab.closed h
    rw [hbc.closed (hsame ▸ h), hsame]

def Kept (q q' : List QueueRow) : Prop := ∀ r ∈ q, ∃ r' ∈ q', Follows r r'

lemma kept_refl (q : List QueueRow) : Kept q q := fun r hr => ⟨r, hr, follows_refl r⟩

lemma kept_trans {a b c : List QueueRow} (hab : Kept a b) (hbc : Kept b c) : Kept a c := by
  intro r hr
  obtain ⟨r', hr', hf⟩ := hab r hr
  obtain ⟨r'', hr'', hf'⟩ := hbc r' hr'
  exact ⟨r'', hr'', follows_trans hf hf'⟩

lemma kept_update {q : List QueueRow} {p : QueueRow → Bool} (hf : Moves f)
    (hopen : ∀ r ∈ q, p r = true → ¬ Closed r) : Kept q (updateWhere p f q) := by
  intro r hr
  refine ⟨_, mem_updateWhere.2 ⟨r, hr, rfl⟩, ?_⟩
  by_cases hp : p r = true
  · rw [if_pos hp]
    exact ⟨hf.itemId r, hf.sessionId r, hf.insertionSequence r, fun hc => absurd hc (hopen r hr hp)⟩
  · rw [if_neg hp]
    exact follows_refl r

lemma queued_of_selected {rows : List QueueRow} {r : QueueRow} (h : selected rows r = true) :
    r.status = .queued := by
  unfold selected at h
  simpa using (Bool.and_eq_true_iff.1 h).2

lemma not_closed_of_queued {r : QueueRow} (h : r.status = .queued) : ¬ Closed r := by
  rintro (hc | hc) <;> rw [h] at hc <;> cases hc

lemma kept_change {q q' : List QueueRow} (hc : Change q q') : Kept q q' := by
  cases hc with
  | same => exact kept_refl q
  | insert r₀ => exact fun r hr => ⟨r, List.mem_append_left _ hr, follows_refl r⟩
  | update p f hf _ hopen => exact kept_update hf hopen

section Claim
variable {q : List QueueRow} {sessionId : String} {runId : Option String} {modes : List QueueMode} {limit : ℤ}

lemma mem_of_claimRows {r : QueueRow} (hr : r ∈ claimRows sessionId runId modes limit q) :
    r ∈ q ∧ eligible sessionId runId modes r = true := by
  have hsorted := List.mem_of_mem_take hr
  rw [List.mem_insertionSort] at hsorted
  exact List.mem_filter.1 hsorted

lemma selected_iff (h : Sound q) {r : QueueRow} (hr : r ∈ q) :
    selected (claimRows sessionId runId modes limit q) r = true ↔
      r ∈ claimRows sessionId runId modes limit q := by
  constructor
  · intro hsel
    obtain ⟨row, hrow, hid⟩ := List.any_eq_true.1 (Bool.and_eq_true_iff.1 hsel).1
    have heq : row = r := eq_of_itemId h.ids (mem_of_claimRows hrow).1 hr (by simpa using hid)
    rwa [← heq]
  · intro hrow
    have hel := (mem_of_claimRows hrow).2
    unfold eligible at hel
    unfold selected
    rw [Bool.and_eq_true_iff]
    exact ⟨List.any_eq_true.2 ⟨r, hrow, by simp⟩, by simpa using (of_decide_eq_true hel).2.1⟩

lemma eligible_sorted (h : Sound q) : (q.filter (eligible sessionId runId modes)).Pairwise
    fun r r' => r.insertionSequence < r'.insertionSequence := by
  refine (h.ordered.sublist List.filter_sublist).imp_of_mem fun {r r'} hr hr' hlt => hlt ?_
  have hel := (List.mem_filter.1 hr).2
  have hel' := (List.mem_filter.1 hr').2
  unfold eligible at hel hel'
  exact (of_decide_eq_true hel).1.trans (of_decide_eq_true hel').1.symm

lemma claimRows_eq (h : Sound q) : claimRows sessionId runId modes limit q =
    (q.filter (eligible sessionId runId modes)).take (claimLimit limit) := by
  have hsorted : (q.filter (eligible sessionId runId modes)).Pairwise
      fun r r' => r.insertionSequence ≤ r'.insertionSequence := (eligible_sorted h).imp fun hlt => hlt.le
  unfold claimRows
  rw [hsorted.insertionSort_eq]

lemma claimRows_sorted (h : Sound q) : (claimRows sessionId runId modes limit q).Pairwise
    fun r r' => r.insertionSequence < r'.insertionSequence := by
  rw [claimRows_eq h]
  exact (eligible_sorted h).sublist (List.take_sublist _ _)

lemma claimRows_of_earlier (h : Sound q) {early r : QueueRow} (hearly : early ∈ q)
    (hel : eligible sessionId runId modes early = true) (hr : r ∈ claimRows sessionId runId modes limit q)
    (hlt : early.insertionSequence < r.insertionSequence) :
    early ∈ claimRows sessionId runId modes limit q := by
  rw [claimRows_eq h] at hr ⊢
  have hmem : early ∈ q.filter (eligible sessionId runId modes) := List.mem_filter.2 ⟨hearly, hel⟩
  have hsorted : (q.filter (eligible sessionId runId modes)).Pairwise
      fun r r' => r.insertionSequence < r'.insertionSequence := eligible_sorted h
  rw [← List.take_append_drop (claimLimit limit) (q.filter (eligible sessionId runId modes))] at hmem hsorted
  rcases List.mem_append.1 hmem with hin | hin
  · exact hin
  · exact absurd hlt (not_lt.2 ((List.pairwise_append.1 hsorted).2.2 r hr early hin).le)

end Claim

lemma queue_does {s s' : State} {r : Request} {out : Except StoreError Reply}
    (hd : Does host s s' r out) : s'.db.queue = s.db.queue := by
  cases hd with
  | nothing _ _ hdb => rw [hdb]
  | quarantines _ _ _ _ hdb => rw [hdb]; rfl
  | stores _ _ _ _ _ happ => exact happ.queue
  | acquires _ _ _ _ _ _ htx => exact (onlyLeases_acquire htx).queue
  | renews _ _ _ _ _ htx => exact (onlyLeases_renew htx).queue
  | releases _ _ htx => exact (onlyLeases_release htx).queue

lemma queue_announce (p : Process) (sessionId : String) (payload : Dict) (draw : Draw) (i : ℕ) (s : State) :
    (announce host p sessionId payload draw i s).2.db.queue = s.db.queue :=
  queue_does (does_append p _ s)

def Quiet {τ : Type} (call : Call τ) : Prop := ∀ s, (call s).2.db.queue = s.db.queue

lemma quiet_done {τ : Type} (a : τ) : Quiet (done a) := fun _ => rfl

lemma quiet_andThen {τ υ : Type} {first : Call τ} {next : τ → Call υ} (hf : Quiet first)
    (hn : ∀ a, Quiet (next a)) : Quiet (andThen first next) := by
  intro s
  unfold andThen
  rcases hfirst : first s with ⟨error | a, s'⟩
  · have := hf s
    rwa [hfirst] at this
  · have := hf s
    rw [hfirst] at this
    exact (hn a s').trans this

lemma quiet_announceClaims (p : Process) (sessionId : String) (draw : Draw) (i : ℕ)
    (items : List QueueItem) : Quiet (announceClaims host p sessionId draw i items) := by
  induction items generalizing i with
  | nil => exact quiet_done ()
  | cons item items ih => exact quiet_andThen (queue_announce _ _ _ _ _) fun _ => ih (i + 1)

lemma change_andThen {τ υ : Type} {tx : Db → Except StoreError (τ × Db)} {next : τ → Call υ}
    (htx : ∀ a db db', tx db = .ok (a, db') → Sound db.queue → Change db.queue db'.queue)
    (hn : ∀ a, Quiet (next a)) (s : State) (h : Sound s.db.queue) :
    Change s.db.queue (andThen (commit tx) next s).2.db.queue := by
  unfold andThen
  rcases commit_cases tx s with ⟨error, hc⟩ | ⟨a, db, hdb, hc⟩
  · rw [hc]
    exact .same
  · rw [hc]
    dsimp only
    rw [hn a]
    exact htx a s.db db hdb h

lemma change_commit {τ : Type} {tx : Db → Except StoreError (τ × Db)}
    (htx : ∀ a db db', tx db = .ok (a, db') → Sound db.queue → Change db.queue db'.queue) (s : State)
    (h : Sound s.db.queue) : Change s.db.queue (commit tx s).2.db.queue := by
  rcases commit_cases tx s with ⟨error, hc⟩ | ⟨a, db, hdb, hc⟩
  · rw [hc]
    exact .same
  · rw [hc]
    exact htx a s.db db hdb h

lemma change_enqueueTx {itemId sessionId : String} {runId : Option String} {mode : QueueMode}
    {text source stamp : String} {db db' : Db} {item : QueueItem}
    (h : enqueueTx itemId sessionId runId mode text source stamp db = .ok (item, db')) :
    Change db.queue db'.queue := by
  unfold enqueueTx at h
  dsimp only at h
  split at h
  · cases h
  · rename_i queue hinsert
    obtain ⟨-, rfl⟩ := Prod.mk.inj (Except.ok.inj h)
    obtain ⟨hfresh, hqueue⟩ := insertRow_eq_some hinsert
    change Change db.queue queue
    rw [hqueue]
    refine .insert _ hfresh ⟨rfl, rfl, rfl, rfl, rfl, rfl⟩ fun r hr hs => ?_
    have hmem : r ∈ db.queue.filter fun r => decide (r.sessionId = sessionId) :=
      List.mem_filter.2 ⟨hr, by simpa using hs⟩
    exact Nat.lt_succ_of_le (le_foldl_max QueueRow.insertionSequence hmem 0)

lemma change_changeItemTx {itemId : String} {refusal : StoreError}
    (hf : Moves f) (hcalm : Calm f) {db db' : Db} {item : QueueItem}
    (h : changeItemTx itemId refusal f db = .ok (item, db')) (hsound : Sound db.queue) :
    Change db.queue db'.queue := by
  unfold changeItemTx at h
  rcases hrow : queueItem? db itemId with _ | row
  · rw [hrow] at h
    cases h
  · rw [hrow] at h
    dsimp only at h
    split at h
    · cases h
    · rename_i hqueued
      cases h
      refine .update _ f hf hcalm fun r hr hp => not_closed_of_queued ?_
      have hid : r.itemId = itemId := by simpa using hp
      have heq : r = row := eq_of_itemId hsound.ids hr (lookup_mem hrow) (hid.trans (lookup_key hrow).symm)
      rw [heq]
      exact not_not.1 hqueued

lemma calm_edited (text stamp : String) : Calm (QueueRow.edited text stamp) := fun _ h => ⟨h, rfl⟩
lemma calm_taken (stamp : String) : Calm (QueueRow.taken stamp) := fun _ h => nomatch h
lemma calm_acknowledged (touched : Bool) (stamp : String) : Calm (QueueRow.acknowledged touched stamp) :=
  fun _ h => nomatch h
lemma calm_transferred (replacement stamp : String) : Calm (QueueRow.transferred replacement stamp) :=
  fun _ h => nomatch h

lemma change_acknowledged (q : List QueueRow) (runId : String) (touched : Bool) (stamp : String) :
    Change q (updateWhere (heldBy runId) (.acknowledged touched stamp) q) := by
  refine .update _ _ (moves_acknowledged _ _) (calm_acknowledged _ _) fun r _ hp => ?_
  have hclaimed : r.status = .claimed := by
    unfold heldBy at hp
    exact (of_decide_eq_true hp).2
  rintro (hc | hc) <;> rw [hclaimed] at hc <;> cases hc

lemma change_checkpointTx {runId sessionId : String} {turn sessionSeq : ℤ} {payload checkpoint : Dict}
    {stamp : String} {db db' : Db}
    (h : saveRunCheckpointTx host runId sessionId turn sessionSeq payload stamp db = .ok (checkpoint, db')) :
    Change db.queue db'.queue := by
  unfold saveRunCheckpointTx at h
  dsimp only at h
  split at h
  · cases h
  · split at h
    · cases h
    · split at h
      · obtain ⟨-, rfl⟩ := Prod.mk.inj (Except.ok.inj h)
        exact .same
      · split at h
        · obtain ⟨-, rfl⟩ := Prod.mk.inj (Except.ok.inj h)
          exact change_acknowledged db.queue runId true stamp
        · obtain ⟨-, rfl⟩ := Prod.mk.inj (Except.ok.inj h)
          exact .same

lemma quiet_reply {τ : Type} (p : Process) (sessionId : String) (payload : Dict) (draw : Draw) (a : τ) :
    Quiet (andThen (announce host p sessionId payload draw 0) fun _ => done a) :=
  quiet_andThen (queue_announce _ _ _ _ _) fun _ => quiet_done a

def Claiming (r : QueueRequest) : Prop :=
  ∃ p sessionId runId modes limit draw, r = .claim p sessionId runId modes limit draw

lemma change_serve (s : State) {r : QueueRequest} (hr : ¬ Claiming r) (h : Sound s.db.queue) :
    Change s.db.queue (serve host s r).2.db.queue := by
  cases r with
  | journal r =>
    change Change _ (perform host s r).2.db.queue
    rw [queue_does (does_perform s r)]
    exact .same
  | enqueue p sessionId runId mode content source itemId draw =>
    change Change _ (enqueueInput host p sessionId runId mode content source itemId draw s).2.db.queue
    unfold enqueueInput
    rcases mode? (upper mode) with _ | mode
    · exact .same
    · rcases queueText content with error | text
      · exact .same
      · exact change_andThen (fun _ _ _ htx _ => change_enqueueTx htx)
          (fun item => quiet_reply p _ _ draw item) s h
  | edit p itemId content draw =>
    change Change _ (editQueueItem host p itemId content draw s).2.db.queue
    unfold editQueueItem
    rcases queueText content with error | text
    · exact .same
    · exact change_andThen (fun _ _ _ htx hs =>
        change_changeItemTx (moves_edited _ _) (calm_edited _ _) htx hs)
          (fun item => quiet_reply p _ _ draw item) s h
  | remove p itemId draw =>
    exact change_andThen (fun _ _ _ htx hs => change_changeItemTx (moves_taken _) (calm_taken _) htx hs)
      (fun item => quiet_reply p _ _ draw item) s h
  | claim p sessionId runId modes limit draw =>
    exact absurd ⟨p, sessionId, runId, modes, limit, draw, rfl⟩ hr
  | acknowledge runId stamp =>
    change Change _ (acknowledgeGuidance runId stamp s).2.db.queue
    exact change_acknowledged s.db.queue runId false stamp
  | transfer source replacement stamp =>
    change Change _ (transferUnacknowledgedGuidance source replacement stamp s).2.db.queue
    refine .update _ _ (moves_transferred _ _) (calm_transferred _ _) fun r _ hp => ?_
    rintro (hc | hc) <;> simp [hc] at hp
  | checkpoint runId sessionId turn sessionSeq payload stamp =>
    exact change_commit (fun _ _ _ htx _ => change_checkpointTx htx) s h

lemma claim_serve (s : State) (p : Process) (sessionId : String) (runId : Option String)
    (modes : List QueueMode) (limit : ℤ) (draw : Draw) :
    (serve host s (.claim p sessionId runId modes limit draw)).2.db.queue =
      updateWhere (selected (claimRows sessionId runId modes limit s.db.queue)) (.claimed runId draw.stamp)
        s.db.queue ∧
    ∀ items, (serve host s (.claim p sessionId runId modes limit draw)).1 = .ok (.items items) →
      items = (claimRows sessionId runId modes limit s.db.queue).map fun r =>
        claimedItem runId draw.stamp r.payload := by
  change (claimQueueItems host p sessionId runId modes limit draw s).2.db.queue = _ ∧
    ∀ items, (claimQueueItems host p sessionId runId modes limit draw s).1.map QueueReply.items =
      .ok (.items items) → _
  unfold claimQueueItems
  generalize hrows : claimRows sessionId runId modes limit s.db.queue = rows
  let db := updateQueue (selected rows) (.claimed runId draw.stamp) s.db
  let taken := rows.map fun r => claimedItem runId draw.stamp r.payload
  have hcommit : commit (claimTx sessionId runId modes limit draw.stamp) s =
      (.ok taken, { s with db := db }) := by
    unfold taken db
    rw [← hrows]
    rfl
  unfold andThen
  rw [hcommit]
  dsimp only
  have hquiet := @quiet_announceClaims host p sessionId draw 0 taken { s with db := db }
  rcases hann : announceClaims host p sessionId draw 0 taken { s with db := db } with ⟨error | _, s'⟩ <;>
    rw [hann] at hquiet
  · exact ⟨hquiet, fun items h => nomatch h⟩
  · exact ⟨hquiet, fun items h => (QueueReply.items.inj (Except.ok.inj h)).symm⟩

lemma sound_serve (s : State) (r : QueueRequest) (h : Sound s.db.queue) :
    Sound (serve host s r).2.db.queue := by
  by_cases hr : Claiming r
  · obtain ⟨p, sessionId, runId, modes, limit, draw, rfl⟩ := hr
    rw [(claim_serve s p sessionId runId modes limit draw).1]
    exact sound_update h (moves_claimed runId draw.stamp)
  · exact sound_change h (change_serve s hr h)

lemma kept_serve (s : State) (r : QueueRequest) (h : Sound s.db.queue) :
    Kept s.db.queue (serve host s r).2.db.queue := by
  by_cases hr : Claiming r
  · obtain ⟨p, sessionId, runId, modes, limit, draw, rfl⟩ := hr
    rw [(claim_serve s p sessionId runId modes limit draw).1]
    exact kept_update (moves_claimed runId draw.stamp)
      fun r _ hp => not_closed_of_queued (queued_of_selected hp)
  · exact kept_change (change_serve s hr h)

variable {e : Turn}

lemma not_claims_of_change (hs : Sound e.before.db.queue) (hs' : Sound e.after.db.queue)
    (hc : Change e.before.db.queue e.after.db.queue) (r r' : QueueRow) : ¬ Claims e r r' := by
  rintro ⟨hr, hr', hid, hclaimed, hnew⟩
  generalize e.before.db.queue = q, e.after.db.queue = q' at hs hs' hc hr hr'
  cases hc with
  | same =>
    have heq := eq_of_itemId hs.ids hr hr' hid
    subst heq
    exact hnew ⟨hclaimed, rfl⟩
  | insert r₀ =>
    have heq := eq_of_itemId hs'.ids (List.mem_append_left _ hr) hr' hid
    subst heq
    exact hnew ⟨hclaimed, rfl⟩
  | update p f hf hcalm =>
    obtain ⟨r₀, hr₀, rfl⟩ := mem_updateWhere.1 hr'
    have hsame : r₀ = r := by
      refine eq_of_itemId hs.ids hr₀ hr (Eq.trans ?_ hid.symm)
      split
      · exact (hf.itemId r₀).symm
      · rfl
    subst hsame
    by_cases hp : p r₀ = true
    · rw [if_pos hp] at hclaimed hnew
      obtain ⟨hold, hrun⟩ := hcalm r₀ hclaimed
      exact hnew ⟨hold, hrun.symm⟩
    · rw [if_neg hp] at hclaimed hnew
      exact hnew ⟨hclaimed, rfl⟩

lemma claims_iff (hs : Sound e.before.db.queue) {sessionId : String} {runId : Option String}
    {modes : List QueueMode} {limit : ℤ} {stamp : String} (hafter : e.after.db.queue =
      updateWhere (selected (claimRows sessionId runId modes limit e.before.db.queue))
        (.claimed runId stamp) e.before.db.queue) (r : QueueRow) :
    (∃ r', Claims e r r') ↔ r ∈ claimRows sessionId runId modes limit e.before.db.queue := by
  constructor
  · rintro ⟨r', hr, hr', hid, hclaimed, hnew⟩
    rw [hafter] at hr'
    obtain ⟨r₀, hr₀, rfl⟩ := mem_updateWhere.1 hr'
    have hsame : r₀ = r := by
      refine eq_of_itemId hs.ids hr₀ hr (Eq.trans ?_ hid.symm)
      split <;> rfl
    subst hsame
    by_cases hp : selected (claimRows sessionId runId modes limit e.before.db.queue) r₀ = true
    · exact (selected_iff hs hr).1 hp
    · rw [if_neg hp] at hclaimed hnew
      exact absurd ⟨hclaimed, rfl⟩ hnew
  · intro hrow
    have hr := (mem_of_claimRows hrow).1
    have hp := (selected_iff hs hr).2 hrow
    refine ⟨r.claimed runId stamp, hr, ?_, rfl, rfl, fun h => ?_⟩
    · rw [hafter]
      exact mem_updateWhere.2 ⟨r, hr, if_pos hp⟩
    · rw [queued_of_selected hp] at h
      cases h.1

lemma sound_initial : Sound State.initial.db.queue where
  ids := List.nodup_nil
  ordered := List.Pairwise.nil
  matched _ hr := (List.not_mem_nil hr).elim

variable {requests : List QueueRequest}

variable (he : e ∈ turns host requests)

include he in
lemma sound_turns :
    Sound e.before.db.queue ∧ Sound e.after.db.queue :=
  have hrun := @invariant _ _ _ (serve host) (fun s => Sound s.db.queue) sound_serve .initial requests
    sound_initial
  hrun.1 e he

include he in
lemma turn_eq :
    e.after = (serve host e.before e.action).2 := congrArg Entry.after (entry_eq_of_mem he)

include he in
lemma claiming_of_claims {r r' : QueueRow} (hc : Claims e r r') : Claiming e.action := by
  by_contra hr
  obtain ⟨hs, hs'⟩ := sound_turns he
  refine not_claims_of_change hs hs' ?_ r r' hc
  rw [turn_eq he]
  exact change_serve e.before hr hs

variable {p : Process} {draw : Draw}

include he in
lemma claims_turn {sessionId : String} {runId : Option String} {modes : List QueueMode} {limit : ℤ}
    (ha : e.action = .claim p sessionId runId modes limit draw) (r : QueueRow) :
    (∃ r', Claims e r r') ↔ r ∈ claimRows sessionId runId modes limit e.before.db.queue := by
  have hafter := turn_eq he
  rw [ha] at hafter
  have hqueue := (@claim_serve host e.before p sessionId runId modes limit draw).1
  rw [← hafter] at hqueue
  exact claims_iff (sound_turns he).1 hqueue r

variable (host) in
lemma pairwise_kept (requests : List QueueRequest) :
    (turns host requests).Pairwise fun e e' => Kept e.after.db.queue e'.before.db.queue :=
  @pairwise_of _ _ _ (serve host) (fun s => Sound s.db.queue) (fun _ => True)
    (fun e s => Kept e.after.db.queue s.db.queue) _
    (fun s r h _ => sound_serve s r h) (fun _ _ _ _ => kept_refl _)
    (fun _ s r h _ hk => kept_trans hk (kept_serve s r h)) (fun _ _ _ _ _ hk => hk)
    .initial requests sound_initial fun _ _ => trivial

include he in
lemma kept_turn :
    Kept e.before.db.queue e.after.db.queue := by
  rw [turn_eq he]
  exact kept_serve e.before e.action (sound_turns he).1

lemma increasing_turns (requests : List QueueRequest) : (turns host requests).Pairwise fun e e' =>
    ∀ r r', Inserts e r → Inserts e' r' → r.sessionId = r'.sessionId →
      r.insertionSequence < r'.insertionSequence := by
  refine (pairwise_kept host requests).imp_of_mem fun {e e'} _ he' hk r r' hin hin' hs => ?_
  have hr : r ∈ e.after.db.queue := by
    rw [hin]
    exact List.mem_append_right _ (List.mem_singleton_self r)
  obtain ⟨r₀, hr₀, hf⟩ := hk r hr
  have hordered := (sound_turns he').2.ordered
  rw [hin'] at hordered
  have hlt := (List.pairwise_append.1 hordered).2.2 r₀ hr₀ r' (List.mem_singleton_self r')
    (hf.sessionId.trans hs)
  rwa [hf.insertionSequence] at hlt

lemma notAgain_turns (requests : List QueueRequest) : (turns host requests).Pairwise fun e e' =>
    ∀ id, (∃ r ∈ e.after.db.queue, r.itemId = id ∧ r.status = .acknowledged) →
      ∀ r r', Claims e' r r' → r.itemId ≠ id := by
  refine (pairwise_kept host requests).imp_of_mem fun {e e'} _ he' hk id hack r r' hc hid => ?_
  obtain ⟨r₀, hr₀, hid₀, hstatus⟩ := hack
  obtain ⟨r₁, hr₁, hf⟩ := hk r₀ hr₀
  have hsame : r₁ = r := eq_of_itemId (sound_turns he').1.ids hr₁ hc.1 (by rw [hf.itemId, hid₀, hid])
  rw [hf.closed (.inl hstatus)] at hsame
  subst hsame
  obtain ⟨p, sessionId, runId, modes, limit, draw, ha⟩ := claiming_of_claims he' hc
  have hel := (mem_of_claimRows ((claims_turn he' ha r₀).1 ⟨r', hc⟩)).2
  unfold eligible at hel
  have hqueued := (of_decide_eq_true hel).2.1
  rw [hstatus] at hqueued
  cases hqueued

include he in
lemma inOrder_turns {sessionId : String} {runId : Option String} {modes : List QueueMode} {limit : ℤ}
    (ha : e.action = .claim p sessionId runId modes limit draw) {early : QueueRow}
    (hearly : early ∈ e.before.db.queue) (hel : eligible sessionId runId modes early = true)
    {r r' : QueueRow} (hc : Claims e r r') (hlt : early.insertionSequence < r.insertionSequence) :
    ∃ early', Claims e early early' := by
  have hr := (claims_turn he ha r).1 ⟨r', hc⟩
  exact (claims_turn he ha early).2 (claimRows_of_earlier (sound_turns he).1 hearly hel hr hlt)

include he in
lemma handedOut_turns {sessionId : String} {runId : Option String} {modes : List QueueMode} {limit : ℤ}
    (ha : e.action = .claim p sessionId runId modes limit draw) {items : List QueueItem}
    (hout : e.outcome = .ok (.items items)) :
    items.Pairwise fun item item' => item.insertionSequence < item'.insertionSequence := by
  have hs := (sound_turns he).1
  have houtcome : e.outcome = (serve host e.before e.action).1 :=
    congrArg Entry.outcome (entry_eq_of_mem he)
  rw [ha, hout] at houtcome
  have hitems := (@claim_serve host e.before p sessionId runId modes limit draw).2 items houtcome.symm
  rw [hitems, List.pairwise_map]
  refine (claimRows_sorted hs).imp_of_mem fun {r r'} hr hr' hlt => ?_
  have hr₀ := hs.matched r (mem_of_claimRows hr).1
  have hr₁ := hs.matched r' (mem_of_claimRows hr').1
  change r.payload.insertionSequence < r'.payload.insertionSequence
  rwa [hr₀.insertionSequence, hr₁.insertionSequence]

end PromptForge.Store
