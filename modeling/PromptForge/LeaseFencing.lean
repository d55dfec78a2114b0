import PromptForge.JournalHealth

namespace PromptForge.Store
open Runs Tables Json

variable {host : Host}

abbrev Grab := Entry State Request (Except StoreError Reply)

variable (host) in
abbrev sessions (requests : List Request) : List Grab := trace (perform host) .initial requests

def Passes (grant : LeaseGrant) (now : Time) (db : Db) : Prop := assertLease grant now db = .ok ()

def Grants (e : Grab) (grant : LeaseGrant) : Prop := e.outcome = .ok (.granted grant)

def Acquires (e : Grab) (grant : LeaseGrant) : Prop :=
  (∃ p sessionId ownerId ttlSeconds now, e.action = .acquire p sessionId ownerId ttlSeconds now) ∧
    Grants e grant

def WritesUnder (e : Grab) (sessionId : String) (grant : LeaseGrant) (row : EventRow) : Prop :=
  ∃ p req event, e.action = .append p req ∧ req.sessionId = sessionId ∧ req.grant = some grant ∧
    e.outcome = .ok (.appended event) ∧ e.after.db.events = e.before.db.events ++ [row]

/-- A grant ends when it is released, when another epoch of its session is granted, and
    when it is found fenced. -/
def Ends (e : Grab) (grant : LeaseGrant) : Prop :=
  (∃ released stamp, e.action = .release released stamp ∧ e.outcome = .ok .released ∧
    released.sessionId = grant.sessionId ∧ released.leaseEpoch = grant.leaseEpoch) ∨
  (∃ other, Acquires e other ∧ other.sessionId = grant.sessionId ∧ other.leaseEpoch ≠ grant.leaseEpoch) ∨
  ∃ now, assertLease grant now e.after.db = .error .leaseFenced

structure Fenced (es : List Grab) : Prop where
  exclusive : ∀ e ∈ es, ∀ g g' now now', g.sessionId = g'.sessionId → Passes g now e.after.db →
    Passes g' now' e.after.db → g.ownerId = g'.ownerId ∧ g.leaseEpoch = g'.leaseEpoch
  increasing : es.Pairwise fun e e' => ∀ g g', Acquires e g → Acquires e' g' →
    g.sessionId = g'.sessionId → g.leaseEpoch < g'.leaseEpoch
  neverAgain : ∀ pre e post, es = pre ++ e :: post → ∀ g, (∃ e₀ ∈ pre ++ [e], Grants e₀ g) → Ends e g →
    ∀ e' ∈ e :: post, ∀ now, ¬ Passes g now e'.after.db
  epochs : es.Pairwise fun e e' => ∀ sessionId g row g' row', WritesUnder e sessionId g row →
    WritesUnder e' sessionId g' row' → row.sequence < row'.sequence ∧ row.leaseEpoch ≤ row'.leaseEpoch
  ownSession : ∀ e ∈ es, ∀ sessionId g row, WritesUnder e sessionId g row → g.sessionId = sessionId

/-- Appends bring a grant of their own session, and owners have a name. -/
def Proper : Request → Prop
  | .acquire _ _ ownerId _ _ => ownerId ≠ ""
  | .renew _ grant _ _ => grant.ownerId ≠ ""
  | .release _ _ => True
  | .append _ req => ∀ grant, req.grant = some grant → grant.sessionId = req.sessionId

variable {grant : LeaseGrant} {now : Time} {db : Db}

lemma passes_iff : Passes grant now db ↔
    ∃ row, lease? db grant.sessionId = some row ∧ row.ownerId = grant.ownerId ∧
      row.leaseEpoch = grant.leaseEpoch ∧ now < row.expiresAt := by
  unfold Passes assertLease
  rcases lease? db grant.sessionId with _ | row
  · simp
  · dsimp only
    split
    · rename_i hne
      simp only [reduceCtorEq, Option.some.injEq, exists_eq_left', false_iff]
      rintro ⟨ho, he, -⟩
      rcases hne with hne | hne
      · exact hne ho
      · exact hne he
    · rename_i heq
      obtain ⟨ho, he⟩ := not_or.1 heq
      split
      · rename_i hexp
        simp [hexp]
      · rename_i hexp
        simp [not_not.1 ho, not_not.1 he, not_le.1 hexp]

def Above (row row' : SessionLease) : Prop :=
  row.leaseEpoch < row'.leaseEpoch ∨
    row'.leaseEpoch = row.leaseEpoch ∧ (row'.ownerId = row.ownerId ∨ row'.ownerId = "")

lemma above_trans {a b c : SessionLease} (hab : Above a b) (hbc : Above b c) : Above a c := by
  rcases hab with hab | ⟨heab, hoab⟩ <;> rcases hbc with hbc | ⟨hebc, hobc⟩
  · exact .inl (hab.trans hbc)
  · exact .inl (hebc ▸ hab)
  · exact .inl (heab ▸ hbc)
  · refine .inr ⟨hebc.trans heab, ?_⟩
    rcases hobc with hobc | hobc
    · rw [hobc]
      exact hoab
    · exact .inr hobc

structure Later (db db' : Db) : Prop where
  leases : ∀ sessionId row, lease? db sessionId = some row →
    ∃ row', lease? db' sessionId = some row' ∧ Above row row'
  events : ∀ row ∈ db.events, row ∈ db'.events

lemma later_refl (db : Db) : Later db db :=
  ⟨fun _ row h => ⟨row, h, .inr ⟨rfl, .inl rfl⟩⟩, fun _ h => h⟩

lemma later_trans {a b c : Db} (hab : Later a b) (hbc : Later b c) : Later a c := by
  refine ⟨fun sessionId row h => ?_, fun row h => hbc.events row (hab.events row h)⟩
  obtain ⟨row', h', habove⟩ := hab.leases sessionId row h
  obtain ⟨row'', h'', habove'⟩ := hbc.leases sessionId row' h'
  exact ⟨row'', h'', above_trans habove habove'⟩

variable {sessionId : String}

lemma lease?_updateLease {f : SessionLease → SessionLease}
    (hf : ∀ row, (f row).sessionId = row.sessionId) (db : Db) (other : String) :
    lease? (updateLease sessionId f db) other =
      (lease? db other).map fun row => if other = sessionId then f row else row := by
  change lookup SessionLease.sessionId (updateWhere _ f db.leases) other = _
  rw [lookup_updateWhere hf]
  rcases hrow : lookup SessionLease.sessionId db.leases other with _ | row
  · rw [lease?, hrow]
    rfl
  · rw [lease?, hrow]
    simp [lookup_key hrow]

lemma later_updateLease {f : SessionLease → SessionLease}
    (hf : ∀ row, (f row).sessionId = row.sessionId) (habove : ∀ row, Above row (f row)) (db : Db) :
    Later db (updateLease sessionId f db) := by
  refine ⟨fun other row hrow => ?_, fun _ h => h⟩
  rw [lease?_updateLease hf, hrow]
  refine ⟨_, rfl, ?_⟩
  dsimp only
  split
  · exact habove row
  · exact .inr ⟨rfl, .inl rfl⟩

lemma acquireTx_ok {ownerId : String} {ttlSeconds : ℤ} {db' : Db}
    (h : acquireTx sessionId ownerId ttlSeconds now db = .ok (grant, db')) :
    grant.sessionId = sessionId ∧ grant.ownerId = ownerId ∧
    grant.leaseEpoch = (lease? db sessionId).elim 0 SessionLease.leaseEpoch + 1 ∧
    (∀ other, lease? db' other = if other = sessionId
      then some ⟨sessionId, ownerId, grant.leaseEpoch, grant.expiresAt⟩ else lease? db other) ∧
    Later db db' := by
  unfold acquireTx at h
  dsimp only at h
  split at h
  · cases h
  · cases h
    have hleases : ∀ other, lease? { db with leases := replaceRow SessionLease.sessionId ⟨sessionId,
        ownerId, (lease? db sessionId).elim 0 SessionLease.leaseEpoch + 1, expiry now ttlSeconds⟩ db.leases }
        other = if other = sessionId then some ⟨sessionId, ownerId,
          (lease? db sessionId).elim 0 SessionLease.leaseEpoch + 1, expiry now ttlSeconds⟩
          else lease? db other := fun other => lookup_replaceRow _ _ _
    refine ⟨rfl, rfl, rfl, hleases, fun other row hrow => ?_, fun _ h => h⟩
    rw [hleases]
    by_cases ho : other = sessionId
    · subst ho
      rw [if_pos rfl, hrow]
      exact ⟨_, rfl, .inl (Nat.lt_succ_self _)⟩
    · rw [if_neg ho]
      exact ⟨row, hrow, .inr ⟨rfl, .inl rfl⟩⟩

lemma renewTx_ok {old : LeaseGrant} {ttlSeconds : ℤ} {db' : Db}
    (h : renewTx old ttlSeconds now db = .ok (grant, db')) :
    grant.sessionId = old.sessionId ∧ grant.ownerId = old.ownerId ∧ grant.leaseEpoch = old.leaseEpoch ∧
    (∃ row, lease? db' grant.sessionId = some row ∧ row.ownerId = grant.ownerId ∧
      row.leaseEpoch = grant.leaseEpoch) ∧ Later db db' := by
  unfold renewTx at h
  rcases hrow : lease? db old.sessionId with _ | row
  · rw [hrow] at h
    cases h
  · rw [hrow] at h
    dsimp only at h
    split at h
    · cases h
    · rename_i heq
      obtain ⟨ho, he⟩ := not_or.1 heq
      split at h
      · cases h
      · cases h
        refine ⟨rfl, rfl, rfl, ⟨row.renewed (expiry now ttlSeconds), ?_, not_not.1 ho, not_not.1 he⟩,
          later_updateLease (renewed_sessionId _) (fun row => .inr ⟨rfl, .inl rfl⟩) db⟩
        rw [lease?_updateLease (renewed_sessionId _), hrow]
        simp

lemma releaseTx_ok {stamp : Time} {db' : Db}
    (h : releaseTx grant stamp db = .ok ((), db')) :
    (∃ row, lease? db' grant.sessionId = some row ∧ row.ownerId = "" ∧
      row.leaseEpoch = grant.leaseEpoch) ∧ Later db db' := by
  unfold releaseTx at h
  rcases hrow : lease? db grant.sessionId with _ | row
  · rw [hrow] at h
    cases h
  · rw [hrow] at h
    dsimp only at h
    split at h
    · cases h
    · rename_i heq
      cases h
      refine ⟨⟨row.released stamp, ?_, rfl, not_not.1 (not_or.1 heq).2⟩,
        later_updateLease (released_sessionId _) (fun row => .inr ⟨rfl, .inr rfl⟩) db⟩
      rw [lease?_updateLease (released_sessionId _), hrow]
      simp

lemma later_does {s s' : State} {r : Request} {out : Except StoreError Reply}
    (hd : Does host s s' r out) : Later s.db s'.db := by
  cases hd with
  | nothing _ _ hdb =>
    rw [hdb]
    exact later_refl _
  | quarantines _ _ _ _ hdb =>
    rw [hdb]
    exact ⟨fun _ row h => ⟨row, h, .inr ⟨rfl, .inl rfl⟩⟩, fun _ h => h⟩
  | stores _ _ _ _ _ happ =>
    refine ⟨fun sessionId row h => ⟨row, ?_, .inr ⟨rfl, .inl rfl⟩⟩, fun row h => ?_⟩
    · unfold lease?
      rw [happ.leases]
      exact h
    · rw [happ.events]
      exact List.mem_append_left _ h
  | acquires _ _ _ _ _ _ htx => exact (acquireTx_ok htx).2.2.2.2
  | renews _ _ _ _ _ htx => exact (renewTx_ok htx).2.2.2.2
  | releases _ _ htx => exact (releaseTx_ok htx).2

variable {requests : List Request} {e : Grab}

lemma does_of_grab (he : e ∈ sessions host requests) :
    Does host e.before e.after e.action e.outcome := by
  rw [entry_eq_of_mem he]
  exact does_perform _ _

lemma later_of_grab (he : e ∈ sessions host requests) :
    Later e.before.db e.after.db :=
  later_does (does_of_grab he)

variable (host) in
lemma pairwise_later (requests : List Request) :
    (sessions host requests).Pairwise fun e e' => Later e.after.db e'.before.db :=
  @pairwise_of _ _ _ (perform host) (fun _ => True) (fun _ => True) (fun e s => Later e.after.db s.db) _
    (fun _ _ _ _ => trivial) (fun _ _ _ _ => later_refl _)
    (fun _ s r _ _ h => later_trans h (later_does (does_perform s r))) (fun _ _ _ _ _ h => h)
    .initial requests trivial fun _ _ => trivial

lemma ordered_before (he : e ∈ sessions host requests) :
    Ordered e.before.db :=
  ((@invariant _ _ _ (perform host) (fun s => Ordered s.db)
    (fun s r h => ordered_does h (does_perform s r)) .initial requests ordered_empty).1 e he).1

variable {g : LeaseGrant}

variable (hd : Does host e.before e.after e.action e.outcome)

include hd in
lemma granted_row (hg : Grants e g) : ∃ row, lease? e.after.db g.sessionId = some row ∧ row.ownerId = g.ownerId ∧
      row.leaseEpoch = g.leaseEpoch := by
  unfold Grants at hg
  generalize e.action = r, e.outcome = out at hd hg
  cases hd with
  | nothing _ _ _ hout =>
    obtain ⟨event, h⟩ := hout _ hg
    cases h
  | quarantines | stores | releases => cases hg
  | acquires p sessionId ownerId ttlSeconds now grant htx =>
    cases hg
    obtain ⟨hs, ho, -, hleases, -⟩ := acquireTx_ok htx
    refine ⟨_, (hleases g.sessionId).trans (if_pos hs), ho.symm, rfl⟩
  | renews p old grant ttlSeconds now htx =>
    cases hg
    exact (renewTx_ok htx).2.2.2.1

def Past (row : SessionLease) (g : LeaseGrant) : Prop :=
  g.leaseEpoch < row.leaseEpoch ∨ row.leaseEpoch = g.leaseEpoch ∧ row.ownerId = ""

lemma past_above {row row' : SessionLease} (h : Past row g) (ha : Above row row') :
    Past row' g := by
  rcases ha with ha | ⟨he, ho⟩ <;> rcases h with h | ⟨heq, howner⟩
  · exact .inl (h.trans ha)
  · exact .inl (heq ▸ ha)
  · exact .inl (he ▸ h)
  · refine .inr ⟨he.trans heq, ?_⟩
    rcases ho with ho | ho
    · rw [ho, howner]
    · exact ho

lemma not_passes_of_past {row : SessionLease} (ho : g.ownerId ≠ "")
    (hrow : lease? db g.sessionId = some row) (h : Past row g) (now : Time) : ¬ Passes g now db := by
  intro hp
  obtain ⟨row', hrow', howner, hepoch, -⟩ := passes_iff.1 hp
  obtain rfl : row = row' := Option.some.inj (hrow.symm.trans hrow')
  rcases h with h | ⟨-, h⟩
  · omega
  · exact ho (howner.symm.trans h)

include hd in
lemma past_of_ends {row₀ : SessionLease} {db₀ : Db} (hrow₀ : lease? db₀ g.sessionId = some row₀)
    (howner : row₀.ownerId = g.ownerId) (hepoch : row₀.leaseEpoch = g.leaseEpoch)
    (hlater : Later db₀ e.after.db) (hends : Ends e g) :
    ∃ row, lease? e.after.db g.sessionId = some row ∧ Past row g := by
  obtain ⟨row, hrow, habove⟩ := hlater.leases _ row₀ hrow₀
  refine ⟨row, hrow, ?_⟩
  rcases hends with ⟨released, stamp, ha, hout, hs, he⟩ | ⟨other, ⟨hacq, hgrant⟩, hs, hne⟩ | ⟨now, hfenced⟩
  · rw [ha, hout] at hd
    cases hd with
    | nothing _ _ _ hout =>
      obtain ⟨event, h⟩ := hout _ rfl
      cases h
    | releases _ _ htx =>
      obtain ⟨⟨row', hrow', hempty, heq⟩, -⟩ := releaseTx_ok htx
      rw [hs, hrow] at hrow'
      rw [Option.some.inj hrow']
      exact .inr ⟨heq.trans he, hempty⟩
  · obtain ⟨row', hrow', -, heq⟩ := granted_row hd hgrant
    rw [hs, hrow] at hrow'
    rw [← Option.some.inj hrow'] at heq
    rcases habove with hlt | ⟨heq', -⟩
    · exact .inl (hepoch ▸ hlt)
    · exact absurd (heq.symm.trans (heq'.trans hepoch)) hne
  · unfold assertLease at hfenced
    rw [hrow] at hfenced
    dsimp only at hfenced
    split at hfenced
    · rename_i hne
      rcases habove with hlt | ⟨heq, ho⟩
      · exact .inl (hepoch ▸ hlt)
      · refine .inr ⟨heq.trans hepoch, ?_⟩
        rcases ho with ho | ho
        · rcases hne with hne | hne
          · exact absurd (ho.trans howner) hne
          · exact absurd (heq.trans hepoch) hne
        · exact ho
    · split at hfenced <;> cases hfenced

lemma owner_of_grants
    (he : e ∈ sessions host requests) (hp : Proper e.action) (hg : Grants e g) : g.ownerId ≠ "" := by
  have hd := does_of_grab he
  unfold Grants at hg
  generalize e.action = r, e.outcome = out at hd hg hp
  cases hd with
  | nothing _ _ _ hout =>
    obtain ⟨event, h⟩ := hout _ hg
    cases h
  | quarantines | stores | releases => cases hg
  | acquires p sessionId ownerId ttlSeconds now grant htx =>
    cases hg
    rw [(acquireTx_ok htx).2.1]
    exact hp
  | renews p old grant ttlSeconds now htx =>
    cases hg
    rw [(renewTx_ok htx).2.1]
    exact hp

lemma neverAgain_of_proper
    (hproper : ∀ r ∈ requests, Proper r) (pre : List Grab) (e : Grab) (post : List Grab)
    (hsplit : sessions host requests = pre ++ e :: post) (g : LeaseGrant)
    (hgranted : ∃ e₀ ∈ pre ++ [e], Grants e₀ g) (hends : Ends e g) :
    ∀ e' ∈ e :: post, ∀ now, ¬ Passes g now e'.after.db := by
  obtain ⟨e₀, he₀, hg⟩ := hgranted
  have hmem : ∀ x ∈ pre ++ e :: post, x ∈ sessions host requests := fun x hx => hsplit ▸ hx
  have hpair := pairwise_later host requests
  rw [hsplit] at hpair
  obtain ⟨-, htail, hcross⟩ := List.pairwise_append.1 hpair
  obtain ⟨hafter, -⟩ := List.pairwise_cons.1 htail
  have he : e ∈ sessions host requests := hmem e (List.mem_append_right _ (List.mem_cons_self ..))
  have he₀' : e₀ ∈ sessions host requests := by
    refine hmem e₀ ?_
    rcases mem_concat.1 he₀ with h | rfl
    · exact List.mem_append_left _ h
    · exact List.mem_append_right _ (List.mem_cons_self ..)
  have hlater : Later e₀.after.db e.after.db := by
    rcases mem_concat.1 he₀ with h | rfl
    · exact later_trans (hcross e₀ h e (List.mem_cons_self ..)) (later_of_grab he)
    · exact later_refl _
  obtain ⟨pre₀, post₀, has, -⟩ := mem_trace he₀'
  have howner : g.ownerId ≠ "" :=
    owner_of_grants he₀' (hproper _ (has ▸ List.mem_append_right _ (List.mem_cons_self ..))) hg
  obtain ⟨row₀, hrow₀, ho, hepoch⟩ := granted_row (does_of_grab he₀') hg
  obtain ⟨row, hrow, hpast⟩ := past_of_ends (does_of_grab he) hrow₀ ho hepoch hlater hends
  intro e' he' now
  have hend : Later e.after.db e'.after.db := by
    rcases List.mem_cons.1 he' with rfl | h
    · exact later_refl _
    · exact later_trans (hafter e' h)
        (later_of_grab (hmem e' (List.mem_append_right _ (List.mem_cons_of_mem _ h))))
  obtain ⟨row', hrow', habove⟩ := hend.leases _ row hrow
  exact not_passes_of_past howner hrow' (past_above hpast habove) now

include hd in
lemma writesUnder_spec {row : EventRow} (hw : WritesUnder e sessionId g row) :
    ∃ p req head, e.action = .append p req ∧ req.sessionId = sessionId ∧ req.grant = some g ∧
      Passes g req.now e.before.db ∧ Appended host req e.before.db e.after.db head row := by
  obtain ⟨p, req, event, ha, hs, hg, ho, hevents⟩ := hw
  rw [ha, ho] at hd
  cases hd with
  | nothing _ _ hdb =>
    rw [hdb] at hevents
    have := congrArg List.length hevents
    rw [List.length_append, List.length_singleton] at this
    omega
  | stores _ _ head stored hgrant happ =>
    have hrow : stored = row := by
      have := happ.events.symm.trans hevents
      simpa using this
    subst hrow
    rw [hg] at hgrant
    exact ⟨p, req, head, ha, hs, hg, hgrant, happ⟩

lemma exclusive_passes {g' : LeaseGrant} {now' : Time}
    (hs : g.sessionId = g'.sessionId) (hp : Passes g now db) (hp' : Passes g' now' db) :
    g.ownerId = g'.ownerId ∧ g.leaseEpoch = g'.leaseEpoch := by
  obtain ⟨row, hrow, ho, he, -⟩ := passes_iff.1 hp
  obtain ⟨row', hrow', ho', he', -⟩ := passes_iff.1 hp'
  rw [hs, hrow'] at hrow
  cases hrow
  exact ⟨ho.symm.trans ho', he.symm.trans he'⟩

include hd in
lemma increasing_acquires {e' : Grab} {g' : LeaseGrant}
    (hd' : Does host e'.before e'.after e'.action e'.outcome) (hlater : Later e.after.db e'.before.db)
    (ha : Acquires e g) (ha' : Acquires e' g') (hs : g.sessionId = g'.sessionId) :
    g.leaseEpoch < g'.leaseEpoch := by
  obtain ⟨row, hrow, -, he⟩ := granted_row hd ha.2
  obtain ⟨row', hrow', habove⟩ := hlater.leases _ row hrow
  obtain ⟨⟨p, sessionId, ownerId, ttlSeconds, now, hact⟩, hout⟩ := ha'
  rw [hact, show e'.outcome = _ from hout] at hd'
  cases hd' with
  | nothing _ _ _ hout =>
    obtain ⟨event, h⟩ := hout _ rfl
    cases h
  | acquires _ _ _ _ _ _ htx =>
    obtain ⟨hsession, -, hepoch, -, -⟩ := acquireTx_ok htx
    rw [← hsession, ← hs, hrow', Option.elim_some] at hepoch
    rcases habove with h | ⟨h, -⟩ <;> omega

include hd in
lemma epochs_of_proper {e' : Grab} {g' : LeaseGrant} {row row' : EventRow}
    (hd' : Does host e'.before e'.after e'.action e'.outcome) (hlater : Later e.after.db e'.before.db)
    (hordered : Ordered e'.before.db) (hp : Proper e.action) (hp' : Proper e'.action)
    (hw : WritesUnder e sessionId g row) (hw' : WritesUnder e' sessionId g' row') :
    row.sequence < row'.sequence ∧ row.leaseEpoch ≤ row'.leaseEpoch := by
  obtain ⟨p, req, head, ha, hs, hg, hpass, happ⟩ := writesUnder_spec hd hw
  obtain ⟨p', req', head', ha', hs', hg', hpass', happ'⟩ := writesUnder_spec hd' hw'
  have hown : g.sessionId = sessionId := by
    rw [ha] at hp
    exact (hp g hg).trans hs
  have hown' : g'.sessionId = sessionId := by
    rw [ha'] at hp'
    exact (hp' g' hg').trans hs'
  refine ⟨?_, ?_⟩
  · have hmem : row ∈ e'.before.db.events := by
      refine hlater.events row ?_
      rw [happ.events]
      exact List.mem_append_right _ (List.mem_singleton_self _)
    have hle := le_head hordered happ' hmem (happ.session.trans (hs.trans hs'.symm))
    rw [happ'.sequence]
    exact Nat.lt_succ_of_le hle
  · obtain ⟨lease, hlease, -, he, -⟩ := passes_iff.1 hpass
    obtain ⟨lease', hlease', -, he', -⟩ := passes_iff.1 hpass'
    have hkept : lease? e.after.db g.sessionId = some lease := by
      unfold lease? at hlease ⊢
      rw [happ.leases]
      exact hlease
    obtain ⟨later, hfound, habove⟩ := hlater.leases _ lease hkept
    rw [hown, ← hown', hlease'] at hfound
    cases hfound
    rw [happ.epoch g hg, happ'.epoch g' hg', ← he, ← he']
    rcases habove with h | ⟨h, -⟩
    · exact_mod_cast h.le
    · rw [h]

variable (host) in
theorem fenced_of_proper (requests : List Request) (hproper : ∀ r ∈ requests, Proper r) :
    Fenced (sessions host requests) := by
  have hact : ∀ e ∈ sessions host requests, Proper e.action := by
    intro e he
    obtain ⟨pre, post, has, -⟩ := mem_trace he
    exact hproper _ (has ▸ List.mem_append_right _ (List.mem_cons_self ..))
  refine ⟨?_, ?_, neverAgain_of_proper hproper, ?_, ?_⟩
  · intro e _ g g' now now' hs hp hp'
    exact exclusive_passes hs hp hp'
  · refine List.Pairwise.imp_of_mem (fun he he' hlater g g' ha ha' hs => ?_) (pairwise_later host requests)
    exact increasing_acquires (does_of_grab he) (does_of_grab he') hlater ha ha' hs
  · refine List.Pairwise.imp_of_mem (fun {e e'} he he' hlater => ?_) (pairwise_later host requests)
    intro sessionId g row g' row' hw hw'
    exact epochs_of_proper (does_of_grab he) (does_of_grab he') hlater (ordered_before he')
      (hact e he) (hact e' he') hw hw'
  · intro e he sessionId g row hw
    obtain ⟨p, req, head, ha, hs, hg, -, -⟩ := writesUnder_spec (does_of_grab he) hw
    have hp := hact e he
    rw [ha] at hp
    exact (hp g hg).trans hs

def openSession : List Request := [.acquire 0 "a" "owner" 20 0]

def grantOfA : LeaseGrant := ⟨"a", "owner", 1, 20000000⟩

def writeTo (sessionId : String) (grant : LeaseGrant) : AppendRequest where
  sessionId := sessionId
  payload := [("event_type", .str "activity.updated")]
  grant := some grant
  idempotencyKey := none
  eventVersion := 1
  now := 0
  stamp := "2026-01-01T00:00:00Z"
  eventId := "event-1"
  refusal := none

/-- The lease of session `a` lets an append to session `b` through, which nobody leased. -/
theorem foreign_grant_writes :
    ¬ ∀ (host : Host) (requests : List Request), Fenced (sessions host requests) := by
  intro h
  have hfenced := h plainHost (openSession ++ [.append 0 (writeTo "b" grantOfA)])
  have hmem : entry (perform plainHost) (final (perform plainHost) .initial openSession)
      (.append 0 (writeTo "b" grantOfA)) ∈
        sessions plainHost (openSession ++ [.append 0 (writeTo "b" grantOfA)]) := by
    rw [sessions, trace_append]
    exact List.mem_append_right _ (List.mem_singleton_self _)
  have hown := hfenced.ownSession _ hmem "b" grantOfA _
    ⟨0, writeTo "b" grantOfA, _, rfl, rfl, rfl, rfl, rfl⟩
  exact absurd hown (by decide)

/-- Two owners take turns; the first one's grant is refused after the takeover. -/
theorem fenced_of_proper_takeover : Fenced (sessions plainHost (openSession ++
    [.append 0 (writeTo "a" grantOfA), .acquire 1 "a" "other" 20 30000000,
      .append 0 (writeTo "a" grantOfA)])) := by
  refine fenced_of_proper plainHost _ fun r hr => ?_
  simp only [openSession, List.cons_append, List.nil_append, List.mem_cons, List.not_mem_nil, or_false] at hr
  rcases hr with rfl | rfl | rfl | rfl
  · change "owner" ≠ ""
    decide
  · rintro grant ⟨⟩
    rfl
  · change "other" ≠ ""
    decide
  · rintro grant ⟨⟩
    rfl

end PromptForge.Store
