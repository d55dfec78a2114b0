import PromptForge.InputQueueLaws

/-!
# Checkpoints of a run

A checkpoint that carries resume data is sealed with the digest of its own JSON
under `checkpoint_id`, and read back only if the digest of the rest is that id.
-/
namespace PromptForge.Store
open Runs Tables Json

abbrev checkpoint? (db : Db) (runId : String) : Option RunCheckpoint :=
  lookup RunCheckpoint.runId db.checkpoints runId

inductive CheckpointError where
  | versionUnsupported
  | corrupt
  deriving DecidableEq

def CheckpointError.text : CheckpointError → String
  | .versionUnsupported => "AGENT_CHECKPOINT_VERSION_UNSUPPORTED"
  | .corrupt => "AGENT_CHECKPOINT_CORRUPT"

def signedVersions : List String := ["forgex.agent-checkpoint.v2", "forgex.agent-checkpoint.v3"]

def checkpointVersions : List String := "forgex.agent-checkpoint.v1" :: signedVersions

def hasVersion (versions : List String) (checkpoint : Dict) : Bool :=
  (str? (checkpoint.get "checkpoint_version")).any fun version => decide (version ∈ versions)

def Verifies (host : Host) (checkpoint : Dict) : Prop :=
  str? (checkpoint.get "checkpoint_id") = some (host.sha256 (host.encode (checkpoint.erase "checkpoint_id")))

instance (host : Host) (checkpoint : Dict) : Decidable (Verifies host checkpoint) :=
  inferInstanceAs (Decidable (_ = _))

def latestRunCheckpoint (host : Host) (runId : String) (db : Db) : Except CheckpointError (Option Dict) :=
  match checkpoint? db runId with
  | none => .ok none
  | some row =>
    if hasVersion checkpointVersions row.payload = false then .error .versionUnsupported
    else if hasVersion signedVersions row.payload = true ∧ ¬ Verifies host row.payload then .error .corrupt
    else .ok (some row.payload)

/-- What `latest_run_checkpoint` asks of a stored checkpoint. -/
structure Readable (host : Host) (checkpoint : Dict) : Prop where
  version : hasVersion checkpointVersions checkpoint = true
  signed : hasVersion signedVersions checkpoint = true → Verifies host checkpoint

section Checkpoints
variable {host : Host}

lemma latest_of_readable {runId : String} {db : Db} {row : RunCheckpoint}
    (hrow : checkpoint? db runId = some row) (h : Readable host row.payload) :
    latestRunCheckpoint host runId db = .ok (some row.payload) := by
  unfold latestRunCheckpoint
  rw [hrow]
  simp only
  rw [if_neg (by simp [h.version]), if_neg fun hn => hn.2 (h.signed hn.1)]

lemma erase_of_absent {d : Dict} {k : String} (h : d.get? k = none) : d.erase k = d := by
  have hnone : lookup Prod.fst d k = none := Option.map_eq_none_iff.1 h
  refine List.filter_eq_self.2 fun e he => ?_
  simpa using lookup_eq_none.1 hnone e he

lemma verifies_seal {d : Dict} (h : d.get? "checkpoint_id" = none) :
    Verifies host (d.set "checkpoint_id" (.str (host.sha256 (host.encode d)))) := by
  unfold Verifies
  rw [Dict.erase_set, erase_of_absent h]
  simp [Dict.get, str?]

/-- The payload carries resume data together with the id of an earlier checkpoint. -/
def CarriesOldId (payload : Dict) : Prop :=
  resumable payload = true ∧ (payload.get? "checkpoint_id").isSome

def sealedKeys : List String :=
  ["checkpoint_version", "run_id", "session_id", "turn", "session_seq", "event_checksum", "safe_boundary",
    "effect_replay_allowed", "resume_mode", "updated_at", "checkpoint_id"]

def stampedCheckpoint (runId sessionId : String) (turn sequence : ℕ) (event : EventRow) (stamp : String)
    (payload : Dict) : Dict :=
  [("checkpoint_version", Value.str "forgex.agent-checkpoint.v1"), ("run_id", .str runId),
    ("session_id", .str sessionId), ("turn", .int turn), ("session_seq", .int sequence),
    ("event_checksum", .str event.eventChecksum), ("safe_boundary", .str event.eventType),
    ("effect_replay_allowed", .bool false), ("resume_mode", .str "replacement_run_only"),
    ("updated_at", .str stamp)].foldl (fun d entry => d.set entry.1 entry.2) payload

section Sealing
variable {runId sessionId : String} {turn sequence : ℕ} {event : EventRow} {stamp : String} {payload : Dict}

def signedVersion (event : EventRow) : String :=
  if event.eventType = "runtime.admitted" then "forgex.agent-checkpoint.v3" else "forgex.agent-checkpoint.v2"

lemma stamped_get? {k : String} (hk : k ∉ sealedKeys.dropLast) :
    (stampedCheckpoint runId sessionId turn sequence event stamp payload).get? k = payload.get? k := by
  simp only [sealedKeys, List.dropLast, List.mem_cons, List.not_mem_nil, or_false, not_or] at hk
  unfold stampedCheckpoint
  simp only [List.foldl_cons, List.foldl_nil, Dict.get?_set]
  simp [hk]

lemma stamped_version : (stampedCheckpoint runId sessionId turn sequence event stamp payload).get?
    "checkpoint_version" = some (.str "forgex.agent-checkpoint.v1") := by
  unfold stampedCheckpoint
  simp only [List.foldl_cons, List.foldl_nil, Dict.get?_set]
  simp

lemma resumable_stamped :
    resumable (stampedCheckpoint runId sessionId turn sequence event stamp payload) = resumable payload := by
  unfold resumable
  rw [Dict.get_congr (stamped_get? (by simp [sealedKeys]))]

def unsignedCheckpoint (event : EventRow) (stamped : Dict) : Dict :=
  (stamped.set "checkpoint_version" (.str (signedVersion event))).set "resume_mode"
    (.str "user_confirmed_continuation")

lemma sealedCheckpoint_eq :
    sealedCheckpoint host runId sessionId turn sequence event stamp payload =
      if resumable payload = true then
        let d := unsignedCheckpoint event (stampedCheckpoint runId sessionId turn sequence event stamp payload)
        d.set "checkpoint_id" (.str (host.sha256 (host.encode d)))
      else stampedCheckpoint runId sessionId turn sequence event stamp payload := by
  rw [← @resumable_stamped runId sessionId turn sequence event stamp payload]
  rfl

lemma unsigned_get? {stamped : Dict} {k : String} (hversion : k ≠ "checkpoint_version")
    (hmode : k ≠ "resume_mode") : (unsignedCheckpoint event stamped).get? k = stamped.get? k := by
  simp [unsignedCheckpoint, hversion, hmode]

lemma unsigned_version (stamped : Dict) :
    (unsignedCheckpoint event stamped).get? "checkpoint_version" = some (.str (signedVersion event)) := by
  simp [unsignedCheckpoint]

lemma sealed_get? {k : String} (hk : k ∉ sealedKeys) :
    (sealedCheckpoint host runId sessionId turn sequence event stamp payload).get? k = payload.get? k := by
  have hstamped := @stamped_get? runId sessionId turn sequence event stamp payload k
    fun hmem => hk (List.mem_of_mem_dropLast hmem)
  simp only [sealedKeys, List.mem_cons, List.not_mem_nil, or_false, not_or] at hk
  rw [sealedCheckpoint_eq]
  split
  · simp only [Dict.get?_set]
    rw [if_neg hk.2.2.2.2.2.2.2.2.2.2, unsigned_get? hk.1 hk.2.2.2.2.2.2.2.2.1, hstamped]
  · exact hstamped

lemma readable_sealed (h : ¬ CarriesOldId payload) :
    Readable host (sealedCheckpoint host runId sessionId turn sequence event stamp payload) := by
  rw [sealedCheckpoint_eq]
  split
  · rename_i hres
    have hid : payload.get? "checkpoint_id" = none :=
      Option.not_isSome_iff_eq_none.1 fun hs => h ⟨hres, hs⟩
    have hunsigned : (unsignedCheckpoint event
        (stampedCheckpoint runId sessionId turn sequence event stamp payload)).get? "checkpoint_id" = none := by
      rw [unsigned_get? (by simp) (by simp), stamped_get? (by simp [sealedKeys]), hid]
    refine ⟨?_, fun _ => verifies_seal hunsigned⟩
    have hversion : signedVersion event ∈ checkpointVersions := by
      unfold signedVersion
      split <;> simp [checkpointVersions, signedVersions]
    simp [hasVersion, Dict.get, unsigned_version, str?, hversion]
  · refine ⟨?_, fun hsigned => ?_⟩
    · simp [hasVersion, Dict.get, stamped_version, str?, checkpointVersions]
    · simp [hasVersion, Dict.get, stamped_version, str?, signedVersions] at hsigned

end Sealing

def Behind (runId : String) (turn sessionSeq : ℤ) (db : Db) : Prop :=
  ∃ row, checkpoint? db runId = some row ∧
    (turn.toNat < row.turn ∨ (max 1 sessionSeq).toNat < row.sessionSeq)

section Save
variable {runId sessionId : String} {turn sessionSeq : ℤ} {payload : Dict} {stamp : String}

lemma filter_current_eq_none {db : Db} :
    ((checkpoint? db runId).filter fun row =>
      decide (turn.toNat < row.turn ∨ (max 1 sessionSeq).toNat < row.sessionSeq)) = none ↔
      ¬ Behind runId turn sessionSeq db := by
  unfold Behind
  cases checkpoint? db runId with
  | none => simp
  | some row => simp [Option.filter]

lemma saveRunCheckpointTx_ok {db db' : Db} {checkpoint : Dict}
    (h : saveRunCheckpointTx host runId sessionId turn sessionSeq payload stamp db = .ok (checkpoint, db')) :
    (Behind runId turn sessionSeq db ∧ db' = db ∧
      ∃ row, checkpoint? db runId = some row ∧ checkpoint = row.payload) ∨
    (¬ Behind runId turn sessionSeq db ∧ ∃ event,
      checkpoint = sealedCheckpoint host runId sessionId turn.toNat (max 1 sessionSeq).toNat event stamp payload ∧
      db'.checkpoints = replaceRow RunCheckpoint.runId
        ⟨runId, sessionId, turn.toNat, (max 1 sessionSeq).toNat, event.eventChecksum, checkpoint, stamp⟩
        db.checkpoints) := by
  unfold saveRunCheckpointTx at h
  dsimp only at h
  split at h
  · cases h
  · rename_i event _
    split at h
    · cases h
    · split at h
      · rename_i row hcurrent
        obtain ⟨hcheckpoint, hdb⟩ := Prod.mk.inj (Except.ok.inj h)
        obtain ⟨hrow, hbehind⟩ := Option.filter_eq_some_iff.1 hcurrent
        exact .inl ⟨⟨row, hrow, of_decide_eq_true hbehind⟩, hdb.symm, row, hrow, hcheckpoint.symm⟩
      · rename_i hcurrent
        refine .inr ⟨filter_current_eq_none.1 hcurrent, event, ?_⟩
        split at h
        · obtain ⟨hcheckpoint, hdb⟩ := Prod.mk.inj (Except.ok.inj h)
          rw [← hdb, hcheckpoint]
          exact ⟨rfl, rfl⟩
        · obtain ⟨hcheckpoint, hdb⟩ := Prod.mk.inj (Except.ok.inj h)
          rw [← hdb, hcheckpoint]
          exact ⟨rfl, rfl⟩

end Save

def KeepsCheckpoints {τ : Type} (call : Call τ) : Prop := ∀ s, (call s).2.db.checkpoints = s.db.checkpoints

lemma keeps_done {τ : Type} (a : τ) : KeepsCheckpoints (done a) := fun _ => rfl

lemma keeps_andThen {τ υ : Type} {first : Call τ} {next : τ → Call υ} (hf : KeepsCheckpoints first)
    (hn : ∀ a, KeepsCheckpoints (next a)) : KeepsCheckpoints (andThen first next) := by
  intro s
  have hfirst := hf s
  unfold andThen
  cases h : first s with
  | mk outcome s' =>
    rw [h] at hfirst
    cases outcome with
    | error error => exact hfirst
    | ok a => exact (hn a s').trans hfirst

lemma keeps_commit {τ : Type} {tx : Db → Except StoreError (τ × Db)}
    (htx : ∀ a db db', tx db = .ok (a, db') → db'.checkpoints = db.checkpoints) : KeepsCheckpoints (commit tx) := by
  intro s
  rcases commit_cases tx s with ⟨error, hc⟩ | ⟨a, db, hdb, hc⟩
  · rw [hc]
  · rw [hc]
    exact htx a s.db db hdb

lemma checkpoints_appendTx {req : AppendRequest} {db db' : Db} {event : Dict}
    (h : appendTx host req db = .ok (event, db')) : db'.checkpoints = db.checkpoints := by
  obtain ⟨_, -, h⟩ := ok_of_bind h
  obtain ⟨existing, -, h⟩ := ok_of_bind h
  cases existing with
  | some event =>
    cases h
    rfl
  | none =>
    obtain ⟨⟨head, opened⟩, hopen, h⟩ := ok_of_bind h
    obtain ⟨eventVersion, -, h⟩ := ok_of_bind h
    obtain ⟨enriched, -, h⟩ := ok_of_bind h
    obtain ⟨row, -, h⟩ := ok_of_bind h
    obtain ⟨inserted, hinsert, h⟩ := ok_of_bind h
    have hopened : opened.checkpoints = db.checkpoints := by
      unfold openHead at hopen
      split at hopen
      · split at hopen
        · cases hopen
        · cases hopen
          rfl
      · cases hopen
        rfl
    have hinserted : inserted.checkpoints = opened.checkpoints := by
      unfold insertEvent at hinsert
      split at hinsert
      · cases hinsert
      · cases hinsert
        rfl
    split at h
    · cases h
    · cases h
      exact hinserted.trans hopened

lemma keeps_append (p : Process) (req : AppendRequest) : KeepsCheckpoints (appendEvent host p req) := by
  intro s
  have hkeep := keeps_commit (fun _ _ _ h => @checkpoints_appendTx host req _ _ _ h) s
  unfold appendEvent
  split
  · rfl
  · split
    · rename_i hc
      rw [hc] at hkeep
      exact hkeep
    · exact hkeep

lemma keeps_announce (p : Process) (sessionId : String) (payload : Dict) (draw : Draw) (i : ℕ) :
    KeepsCheckpoints (announce host p sessionId payload draw i) := keeps_append p _

lemma keeps_announceClaims (p : Process) (sessionId : String) (draw : Draw) (i : ℕ) (items : List QueueItem) :
    KeepsCheckpoints (announceClaims host p sessionId draw i items) := by
  induction items generalizing i with
  | nil => exact keeps_done ()
  | cons item items ih => exact keeps_andThen (keeps_announce p sessionId _ draw i) fun _ => ih (i + 1)

lemma keeps_change {τ : Type} {tx : Db → Except StoreError (τ × Db)} {p : Process} {draw : Draw}
    {session : τ → String} {payload : τ → Dict}
    (htx : ∀ a db db', tx db = .ok (a, db') → db'.checkpoints = db.checkpoints) :
    KeepsCheckpoints (andThen (commit tx) fun a =>
      andThen (announce host p (session a) (payload a) draw 0) fun _ => done a) :=
  keeps_andThen (keeps_commit htx) fun a => keeps_andThen (keeps_announce p _ _ draw 0) fun _ => keeps_done a

lemma checkpoints_enqueueTx {itemId sessionId : String} {runId : Option String} {mode : QueueMode}
    {text source stamp : String} {db db' : Db} {item : QueueItem}
    (h : enqueueTx itemId sessionId runId mode text source stamp db = .ok (item, db')) :
    db'.checkpoints = db.checkpoints := by
  unfold enqueueTx at h
  dsimp only at h
  split at h
  · cases h
  · obtain ⟨-, rfl⟩ := Prod.mk.inj (Except.ok.inj h)
    rfl

lemma checkpoints_changeItemTx {itemId : String} {refusal : StoreError} {f : QueueRow → QueueRow}
    {db db' : Db} {item : QueueItem} (h : changeItemTx itemId refusal f db = .ok (item, db')) :
    db'.checkpoints = db.checkpoints := by
  unfold changeItemTx at h
  split at h
  · cases h
  · split at h
    · cases h
    · obtain ⟨-, rfl⟩ := Prod.mk.inj (Except.ok.inj h)
      rfl

lemma keeps_requireHealthyJournal (p : Process) (sessionId : String) :
    KeepsCheckpoints (requireHealthyJournal host p sessionId) := by
  intro s
  rcases requireHealthyJournal_cases host p sessionId s with h | h | ⟨-, h⟩ <;> rw [h]
  rfl

lemma acquireLease_eq (p : Process) (sessionId ownerId : String) (ttlSeconds : ℤ) (now : Time) :
    acquireLease host p sessionId ownerId ttlSeconds now =
      andThen (requireHealthyJournal host p sessionId) fun _ =>
        commit (acquireTx sessionId ownerId ttlSeconds now) := by
  funext s
  unfold acquireLease andThen
  cases h : requireHealthyJournal host p sessionId s with
  | mk outcome s' => cases outcome <;> rfl

lemma renewLease_eq (p : Process) (grant : LeaseGrant) (ttlSeconds : ℤ) (now : Time) :
    renewLease host p grant ttlSeconds now =
      andThen (requireHealthyJournal host p grant.sessionId) fun _ => commit (renewTx grant ttlSeconds now) := by
  funext s
  unfold renewLease andThen
  cases h : requireHealthyJournal host p grant.sessionId s with
  | mk outcome s' => cases outcome <;> rfl

lemma keeps_perform (r : Request) (s : State) :
    (perform host s r).2.db.checkpoints = s.db.checkpoints := by
  cases r with
  | acquire p sessionId ownerId ttlSeconds now =>
    change (acquireLease host p sessionId ownerId ttlSeconds now s).2.db.checkpoints = _
    rw [acquireLease_eq]
    refine keeps_andThen (keeps_requireHealthyJournal p sessionId) (fun _ => keeps_commit ?_) s
    intro grant db db' h
    unfold acquireTx at h
    dsimp only at h
    split at h
    · cases h
    · cases h
      rfl
  | renew p grant ttlSeconds now =>
    change (renewLease host p grant ttlSeconds now s).2.db.checkpoints = _
    rw [renewLease_eq]
    refine keeps_andThen (keeps_requireHealthyJournal p grant.sessionId) (fun _ => keeps_commit ?_) s
    intro renewed db db' h
    unfold renewTx at h
    split at h
    · cases h
    · split at h
      · cases h
      · split at h
        · cases h
        · cases h
          rfl
  | release grant stamp =>
    change (releaseLease grant stamp s).2.db.checkpoints = _
    refine keeps_commit ?_ s
    intro _ db db' h
    unfold releaseTx at h
    split at h
    · cases h
    · split at h
      · cases h
      · cases h
        rfl
  | append p req => exact keeps_append p req s

def Saving (r : QueueRequest) : Prop :=
  ∃ runId sessionId turn sessionSeq payload stamp, r = .checkpoint runId sessionId turn sessionSeq payload stamp

lemma keeps_serve (s : State) {r : QueueRequest} (hr : ¬ Saving r) :
    (serve host s r).2.db.checkpoints = s.db.checkpoints := by
  cases r with
  | journal r => exact keeps_perform r s
  | enqueue p sessionId runId mode content source itemId draw =>
    change (enqueueInput host p sessionId runId mode content source itemId draw s).2.db.checkpoints = _
    unfold enqueueInput
    cases mode? (Texts.upper mode) with
    | none => rfl
    | some mode =>
      cases queueText content with
      | error error => rfl
      | ok text => exact keeps_change (fun _ _ _ h => checkpoints_enqueueTx h) s
  | edit p itemId content draw =>
    change (editQueueItem host p itemId content draw s).2.db.checkpoints = _
    unfold editQueueItem
    cases queueText content with
    | error error => rfl
    | ok text => exact keeps_change (fun _ _ _ h => checkpoints_changeItemTx h) s
  | remove p itemId draw => exact keeps_change (fun _ _ _ h => checkpoints_changeItemTx h) s
  | claim p sessionId runId modes limit draw =>
    refine keeps_andThen (keeps_commit ?_) (fun items =>
      keeps_andThen (keeps_announceClaims p sessionId draw 0 items) fun _ => keeps_done items) s
    intro items db db' h
    cases h
    rfl
  | acknowledge | transfer => rfl
  | checkpoint runId sessionId turn sessionSeq payload stamp =>
    exact absurd ⟨runId, sessionId, turn, sessionSeq, payload, stamp, rfl⟩ hr

/-- The checkpoints of all runs are still there, no turn and no sequence lower. -/
def NotBack (db db' : Db) : Prop :=
  ∀ runId row, checkpoint? db runId = some row → ∃ row', checkpoint? db' runId = some row' ∧
    row.turn ≤ row'.turn ∧ row.sessionSeq ≤ row'.sessionSeq

lemma NotBack.refl (db : Db) : NotBack db db := fun _ row hrow => ⟨row, hrow, le_rfl, le_rfl⟩

lemma NotBack.trans {a b c : Db} (hab : NotBack a b) (hbc : NotBack b c) : NotBack a c := by
  intro runId row hrow
  obtain ⟨row', hrow', hturn, hseq⟩ := hab runId row hrow
  obtain ⟨row'', hrow'', hturn', hseq'⟩ := hbc runId row' hrow'
  exact ⟨row'', hrow'', hturn.trans hturn', hseq.trans hseq'⟩

lemma notBack_of_eq {db db' : Db} (h : db'.checkpoints = db.checkpoints) : NotBack db db' := by
  intro runId row hrow
  refine ⟨row, ?_, le_rfl, le_rfl⟩
  rw [checkpoint?, h]
  exact hrow

lemma notBack_replace {db db' : Db} {row : RunCheckpoint}
    (hdb : db'.checkpoints = replaceRow RunCheckpoint.runId row db.checkpoints)
    (h : ∀ old, checkpoint? db row.runId = some old → old.turn ≤ row.turn ∧ old.sessionSeq ≤ row.sessionSeq) :
    NotBack db db' := by
  intro runId old hold
  rw [checkpoint?, hdb, lookup_replaceRow]
  split
  · rename_i hid
    exact ⟨row, rfl, h old (hid ▸ hold)⟩
  · exact ⟨old, hold, le_rfl, le_rfl⟩

/-- What a save leaves. -/
inductive Saves (host : Host) (s : State) (runId : String) (turn sessionSeq : ℤ) (payload : Dict) :
    Except StoreError QueueReply → State → Prop where
  | refused (error : StoreError) : Saves host s runId turn sessionSeq payload (.error error) s
  | behind {row : RunCheckpoint} (hbehind : Behind runId turn sessionSeq s.db)
      (hrow : checkpoint? s.db runId = some row) :
      Saves host s runId turn sessionSeq payload (.ok (.checkpoint row.payload)) s
  | stored {s' : State} {row : RunCheckpoint} (hbehind : ¬ Behind runId turn sessionSeq s.db)
      (hid : row.runId = runId) (hturn : row.turn = turn.toNat) (hseq : row.sessionSeq = (max 1 sessionSeq).toNat)
      (hdb : s'.db.checkpoints = replaceRow RunCheckpoint.runId row s.db.checkpoints)
      (hkept : ∀ k, k ∉ sealedKeys → row.payload.get? k = payload.get? k)
      (hreadable : ¬ CarriesOldId payload → Readable host row.payload) :
      Saves host s runId turn sessionSeq payload (.ok (.checkpoint row.payload)) s'

lemma saves_serve (s : State) (runId sessionId : String) (turn sessionSeq : ℤ) (payload : Dict) (stamp : String) :
    Saves host s runId turn sessionSeq payload
      (serve host s (.checkpoint runId sessionId turn sessionSeq payload stamp)).1
      (serve host s (.checkpoint runId sessionId turn sessionSeq payload stamp)).2 := by
  change Saves host s runId turn sessionSeq payload
    ((saveRunCheckpoint host runId sessionId turn sessionSeq payload stamp s).1.map .checkpoint)
    (saveRunCheckpoint host runId sessionId turn sessionSeq payload stamp s).2
  unfold saveRunCheckpoint
  rcases commit_cases (saveRunCheckpointTx host runId sessionId turn sessionSeq payload stamp) s with
    ⟨error, hc⟩ | ⟨checkpoint, db, htx, hc⟩
  · rw [hc]
    exact .refused error
  · rw [hc]
    rcases saveRunCheckpointTx_ok htx with ⟨hbehind, hdb, row, hrow, hcheckpoint⟩ | ⟨hbehind, event, hcheckpoint, hdb⟩
    · rw [hdb, hcheckpoint]
      exact .behind hbehind hrow
    · have hkept : ∀ k, k ∉ sealedKeys → checkpoint.get? k = payload.get? k := by
        intro k hk
        rw [hcheckpoint]
        exact sealed_get? hk
      have hreadable : ¬ CarriesOldId payload → Readable host checkpoint := by
        intro hold
        rw [hcheckpoint]
        exact readable_sealed hold
      exact @Saves.stored host s runId turn sessionSeq payload { s with db := db }
        ⟨runId, sessionId, turn.toNat, (max 1 sessionSeq).toNat, event.eventChecksum, checkpoint, stamp⟩
        hbehind rfl rfl rfl hdb hkept hreadable

lemma notBack_serve (s : State) (r : QueueRequest) : NotBack s.db (serve host s r).2.db := by
  by_cases hr : Saving r
  · obtain ⟨runId, sessionId, turn, sessionSeq, payload, stamp, rfl⟩ := hr
    have hsaves := @saves_serve host s runId sessionId turn sessionSeq payload stamp
    generalize serve host s (.checkpoint runId sessionId turn sessionSeq payload stamp) = r at hsaves ⊢
    obtain ⟨outcome, s'⟩ := r
    cases hsaves with
    | refused | behind => exact .refl _
    | stored hbehind hid hturn hseq hdb =>
      refine notBack_replace hdb fun old hold => ?_
      rw [hid] at hold
      rw [hturn, hseq]
      constructor
      · exact Nat.le_of_not_lt fun hlt => hbehind ⟨old, hold, .inl hlt⟩
      · exact Nat.le_of_not_lt fun hlt => hbehind ⟨old, hold, .inr hlt⟩
  · exact notBack_of_eq (keeps_serve s hr)

def AllReadable (host : Host) (s : State) : Prop :=
  ∀ runId row, checkpoint? s.db runId = some row → Readable host row.payload

/-- The request is no save, or its payload does not carry an old id beside resume data. -/
def Sealable (r : QueueRequest) : Prop :=
  ∀ runId sessionId turn sessionSeq payload stamp,
    r = .checkpoint runId sessionId turn sessionSeq payload stamp → ¬ CarriesOldId payload

lemma allReadable_serve (s : State) (r : QueueRequest) (h : AllReadable host s) (hr : Sealable r) :
    AllReadable host (serve host s r).2 := by
  by_cases hsaving : Saving r
  · obtain ⟨runId, sessionId, turn, sessionSeq, payload, stamp, rfl⟩ := hsaving
    have hsaves := @saves_serve host s runId sessionId turn sessionSeq payload stamp
    generalize serve host s (.checkpoint runId sessionId turn sessionSeq payload stamp) = r at hsaves ⊢
    obtain ⟨outcome, s'⟩ := r
    cases hsaves with
    | refused | behind => exact h
    | stored hbehind hid hturn hseq hdb hkept hreadable =>
      intro other row hrow
      rw [checkpoint?, hdb, lookup_replaceRow] at hrow
      split at hrow
      · rw [← Option.some.inj hrow]
        exact hreadable (hr _ _ _ _ _ _ rfl)
      · exact h other row hrow
  · intro runId row hrow
    rw [checkpoint?, keeps_serve s hsaving] at hrow
    exact h runId row hrow

/-- What checkpoints promise of a run of the store. -/
structure Checkpointed (host : Host) (es : List Turn) : Prop where
  step : ∀ e ∈ es, NotBack e.before.db e.after.db
  run : es.Pairwise fun e e' => NotBack e.after.db e'.before.db
  rejected : ∀ e ∈ es, ∀ runId sessionId turn sessionSeq payload stamp,
    e.action = .checkpoint runId sessionId turn sessionSeq payload stamp →
    (∃ error, e.outcome = .error error) ∨ Behind runId turn sessionSeq e.before.db → e.after = e.before
  accepted : ∀ e ∈ es, ∀ runId sessionId turn sessionSeq payload stamp checkpoint,
    e.action = .checkpoint runId sessionId turn sessionSeq payload stamp →
    e.outcome = .ok (.checkpoint checkpoint) → ¬ Behind runId turn sessionSeq e.before.db →
    latestRunCheckpoint host runId e.after.db = .ok (some checkpoint) ∧ Readable host checkpoint ∧
      (∀ k, k ∉ sealedKeys → checkpoint.get? k = payload.get? k) ∧
      ∃ row, checkpoint? e.after.db runId = some row ∧ row.turn = turn.toNat ∧
        row.sessionSeq = (max 1 sessionSeq).toNat ∧ row.payload = checkpoint
  latest : ∀ e ∈ es, ∀ runId row, checkpoint? e.after.db runId = some row →
    latestRunCheckpoint host runId e.after.db = .ok (some row.payload)

theorem checkpointed_turns (host : Host) (requests : List QueueRequest)
    (h : ∀ r ∈ requests, Sealable r) : Checkpointed host (turns host requests) := by
  have hreadable : ∀ e ∈ turns host requests, AllReadable host e.before ∧ AllReadable host e.after :=
    (@invariant_of _ _ _ (serve host) (AllReadable host) (fun e => Sealable e.action)
      (fun s r hs hr => allReadable_serve s r hs hr) .initial requests
      (fun _ _ hrow => by cases hrow) fun e he => h _ (action_mem he)).1
  have hsaves : ∀ e ∈ turns host requests, ∀ runId sessionId turn sessionSeq payload stamp,
      e.action = .checkpoint runId sessionId turn sessionSeq payload stamp →
      Saves host e.before runId turn sessionSeq payload e.outcome e.after := by
    intro e he runId sessionId turn sessionSeq payload stamp ha
    have hentry := entry_eq_of_mem he
    rw [ha] at hentry
    rw [hentry]
    exact saves_serve _ runId sessionId turn sessionSeq payload stamp
  constructor
  · intro e he
    rw [turn_eq he]
    exact notBack_serve _ _
  · exact @pairwise_of _ _ _ (serve host) (fun _ => True) (fun _ => True) (fun e s => NotBack e.after.db s.db) _
      (fun _ _ _ _ => trivial) (fun _ _ _ _ => .refl _)
      (fun _ s r _ _ hk => hk.trans (notBack_serve s r)) (fun _ _ _ _ _ hk => hk) .initial requests trivial
      fun _ _ => trivial
  · intro e he runId sessionId turn sessionSeq payload stamp ha hrejected
    have hsave := hsaves e he runId sessionId turn sessionSeq payload stamp ha
    obtain ⟨before, action, outcome, after⟩ := e
    cases hsave with
    | refused | behind => rfl
    | stored hbehind =>
      rcases hrejected with ⟨error, hout⟩ | hbehind'
      · cases hout
      · exact absurd hbehind' hbehind
  · intro e he runId sessionId turn sessionSeq payload stamp checkpoint ha hout hbehind
    have hsave := hsaves e he runId sessionId turn sessionSeq payload stamp ha
    have hafter := (hreadable e he).2
    obtain ⟨before, action, outcome, after⟩ := e
    cases hsave with
    | refused => cases hout
    | behind hbehind' => exact absurd hbehind' hbehind
    | @stored _ row _ hid hturn hseq hdb hkept _ =>
      cases hout
      have hrow : checkpoint? after.db runId = some row := by
        rw [checkpoint?, hdb, lookup_replaceRow, if_pos hid.symm]
      have hread := hafter runId row hrow
      exact ⟨latest_of_readable hrow hread, hread, hkept, row, hrow, hturn, hseq, rfl⟩
  · intro e he runId row hrow
    exact latest_of_readable hrow ((hreadable e he).2 runId row hrow)

end Checkpoints

def settledTurn : AppendRequest where
  sessionId := "session"
  payload := [("event_type", .str "turn.settled"), ("run_id", .str "run-1")]
  grant := none
  idempotencyKey := none
  eventVersion := 1
  now := 0
  stamp := "2026-01-01T00:00:00Z"
  eventId := "event-1"
  refusal := none

def resave (payload : Dict) : QueueRequest :=
  .checkpoint "run-1" "session" 1 1 payload "2026-01-01T00:00:01Z"

/-- What a replacement loads and saves again: resume data and the id of the loaded checkpoint. -/
def loadedPayload : Dict := [("resume", .obj []), ("checkpoint_id", .str "old")]

def resavedState : State :=
  (serve plainHost (serve plainHost .initial (.journal (.append 0 settledTurn))).2 (resave loadedPayload)).2

theorem resaved_corrupt : ¬ ∀ (host : Host) (requests : List QueueRequest),
    Checkpointed host (turns host requests) := by
  intro h
  have hlatest := (h plainHost [.journal (.append 0 settledTurn), resave loadedPayload]).latest
  rw [turns, trace_cons, trace_cons] at hlatest
  have hrun := hlatest _ (List.mem_cons_of_mem _ (List.mem_cons_self ..)) "run-1"
  change ∀ row, checkpoint? resavedState.db "run-1" = some row →
    latestRunCheckpoint plainHost "run-1" resavedState.db = .ok (some row.payload) at hrun
  have hstored : (checkpoint? resavedState.db "run-1").isSome = true := by decide +kernel
  have hcorrupt : (latestRunCheckpoint plainHost "run-1" resavedState.db).toOption.isNone = true := by
    decide +kernel
  obtain ⟨row, hrow⟩ := Option.isSome_iff_exists.1 hstored
  rw [hrun row hrow] at hcorrupt
  cases hcorrupt

theorem checkpointed_turns_resumable : Checkpointed plainHost
    (turns plainHost [.journal (.append 0 settledTurn), resave [("resume", .obj [])]]) := by
  refine checkpointed_turns plainHost _ fun r hr => ?_
  intro runId sessionId turn sessionSeq payload stamp heq hold
  subst heq
  rcases List.mem_cons.1 hr with hr | hr
  · cases hr
  · cases List.mem_singleton.1 hr
    exact absurd hold.2 (by decide)

end PromptForge.Store
