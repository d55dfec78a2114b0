import PromptForge.ProviderSettingsLaws

namespace PromptForge.ProviderSettings
open Runs Tables Json

variable (host : Host)

section Spec
variable (s₀ s : System)

def documentOf (written : List Written) : Stored := documentAfter host.backend s₀.stored written

def Unchanged (log : List KeyWritten) (id : Nat) : Prop :=
  ∀ (i : Nat) (w : KeyWritten), log[i]? = some w → w.id = id → keysAfter s₀.keys (log.take i) w.target = w.value

def Keyed (log : List KeyWritten) (id : Nat) (save : Save) : Prop :=
  ∀ change, save.keyChange = .ok (some change) →
    ∃ w ∈ log, w.id = id ∧ w.target = host.target save.provider ∧ w.value = change.value

/-- A save that returned was written while it ran. -/
def Returned (r : Reply) (value : Value) : Prop :=
  match r.request with
  | .save save =>
    (∃ i, s.documents[i]? = some ⟨r.id, save⟩ ∧ r.opened ≤ i ∧ i < r.seen) ∧
      Keyed host (s.keyLog.take r.keysSeen) r.id save
  | .read reading =>
    r.opened ≤ r.seen ∧ ∃ data, readUnlocked host.backend (documentOf host s₀ (s.documents.take r.seen)) = .ok data ∧
      reading.answer data = some value
  | .apiKey p => value = keyValue (keysAfter s₀.keys (s.keyLog.take r.keysSeen) (host.target p))

def Raised (r : Reply) : Prop := (∀ w ∈ s.documents, w.id ≠ r.id) ∧ Unchanged s₀ s.keyLog r.id

structure Kept : Prop where
  document : s.stored = documentOf host s₀ s.documents
  keys : s.keys = keysAfter s₀.keys s.keyLog
  returned : ∀ r ∈ s.replies, ∀ value, r.result = .returned value → Returned host s₀ s r value
  raised : ∀ r ∈ s.replies, ∀ error, r.result = .raised error → Raised s₀ s r
  -- what a save leaves in a record stays until a save that touches the record
  reflected : ∀ before w after sec key, s.documents = before ++ w :: after →
    (∀ later ∈ after, ¬ later.save.touches sec key) →
    record host.backend s.stored sec key = record host.backend (documentOf host s₀ (before ++ [w])) sec key
  -- and it leaves the records of the others
  untouched : ∀ before w after sec key, s.documents = before ++ w :: after → ¬ w.save.touches sec key →
    record host.backend (documentOf host s₀ (before ++ [w])) sec key =
      record host.backend (documentOf host s₀ before) sec key
  -- a reading of a key that moves it to the credential store does not change it
  moved : ∀ (i : Nat) (w : KeyWritten) (p : String), s.keyLog[i]? = some w → w.request = .apiKey p →
    apiKeyOf host.backend host.target (documentOf host s₀ (s.documents.take w.seen))
      (keysAfter s₀.keys (s.keyLog.take i)) p = w.value
  plaintext : ∀ p v, plaintext host.backend s.stored p = some v → plaintext host.backend s₀.stored p = some v

end Spec

def Save.Reads (save : Save) : Prop := ∀ data, save ≠ .write data

structure SafeWrite (s : System) (caller : Nat) (call : Call) (save : Save) (next : State) (fault : Fault) :
    Prop where
  -- a write or a commit does not fail once the key of the provider has been changed
  failed : fault = .body ∨ checkWrite host.backend next ≠ .ok () ∨
    (host.backend = .sqlite ∧ call.depth ≠ 2 ∧ fault = .commit) → call.keyChanged = false
  -- nor does a commit behind a snapshot of the document
  scope : host.backend = .sqlite → fault = .commit → s.snapshots caller call.object = none
  -- a JSON document is the newest when it is written
  newest : fault ≠ .body → host.backend = .json → save.Reads → call.version = s.documents.length
  -- a whole document passes the checks of the SQLite store
  sound : save.Sound

def SafeCall (s : System) (caller : Nat) (call : Call) : Action → Prop
  -- the key that `api_key` moves is still the key of the provider
  | .credential _ fault => ∀ save change next p, call.phase = .credential save change next →
      call.request = .apiKey p → fault = .none →
      apiKeyOf host.backend host.target s.stored s.keys p = change.value
  | .write _ fault => ∀ save next, call.phase = .write save next → SafeWrite host s caller call save next fault
  -- and asking for it does not fail once it has been moved
  | .fetch _ fault => fault = .body ∨ (host.backend = .sqlite ∧ call.depth = 1 ∧ fault = .commit) →
      call.keyChanged = false ∧ call.published = false
  | _ => True

def Action.caller : Action → Nat
  | .enter caller _ _ | .leave caller _ | .begin caller _ _ _ | .refresh caller _ | .credential caller _
  | .write caller _ | .fetch caller _ => caller

def Safe (s : System) (a : Action) : Prop := ∀ call, s.calls a.caller = some call → SafeCall host s a.caller call a

structure Initial (s : System) : Prop where
  locks : ∀ d, s.locks d = none
  snapshots : ∀ caller object, s.snapshots caller object = none
  calls : ∀ caller, s.calls caller = none
  documents : s.documents = []
  keyLog : s.keyLog = []
  replies : s.replies = []

section Inv
variable (s₀ s : System)

structure Saving (c : Nat) (call : Call) (save : Save) (next : State) : Prop where
  unpublished : call.published = false
  held : 0 < call.depth
  loaded : ∃ change, save.load host.backend (documentOf host s₀ (s.documents.take call.version)) = .ok (change, next)
  request : (call.request = .save save ∧ call.depth = 1) ∨ ∃ p legacy, call.request = .apiKey p ∧ save = migration p legacy
  outside : call.depth = 2 → s.snapshots c call.object = none
  depth_le : call.depth ≤ 2

def PhaseOk (c : Nat) (call : Call) : Prop :=
  match call.phase with
  | .migrate _ => call.keyChanged = false ∧ call.published = false ∧ call.depth ≤ 1 ∧
      (call.depth = 1 → s.snapshots c call.object = none) ∧ ∃ p, call.request = .apiKey p
  | .credential save change next => Saving host s₀ s c call save next ∧ call.keyChanged = false ∧
      save.keyChange = .ok (some change)
  | .write save next => Saving host s₀ s c call save next ∧ Keyed host s.keyLog call.id save
  | .fetch none => call.depth ≤ 1 ∧ ∃ p, call.request = .apiKey p
  | .fetch (some (save, next)) => Saving host s₀ s c call save next ∧ Keyed host s.keyLog call.id save ∧
      host.backend = .sqlite ∧ save.Sound

structure CallOk (c : Nat) (call : Call) : Prop where
  id_lt : call.id < s.issued
  unwritten : call.published = false → ∀ w ∈ s.documents, w.id ≠ call.id
  unkeyed : call.keyChanged = false → Unchanged s₀ s.keyLog call.id
  held : 0 < call.depth → s.locks (domain host.backend call.object) = some c
  current : host.backend = .sqlite → 0 < call.depth → call.version = s.documents.length
  version_le : call.version ≤ s.documents.length
  opened_le : call.opened ≤ s.documents.length
  phase : PhaseOk host s₀ s c call

structure ReplyOk (r : Reply) : Prop where
  id_lt : r.id < s.issued
  seen_le : r.seen ≤ s.documents.length
  keysSeen_le : r.keysSeen ≤ s.keyLog.length
  returned : ∀ value, r.result = .returned value → Returned host s₀ s r value
  raised : ∀ error, r.result = .raised error → Raised s₀ s r

structure SnapshotOk (snapshot : Snapshot) : Prop where
  opened_le : snapshot.opened ≤ snapshot.seen
  seen_le : snapshot.seen ≤ s.documents.length
  data : readUnlocked host.backend (documentOf host s₀ (s.documents.take snapshot.seen)) = .ok snapshot.data

structure Base : Prop where
  document : s.stored = documentOf host s₀ s.documents
  keys : s.keys = keysAfter s₀.keys s.keyLog
  sound : ∀ w ∈ s.documents, w.save.Sound
  writtenId : ∀ w ∈ s.documents, w.id < s.issued
  keyId : ∀ w ∈ s.keyLog, w.id < s.issued ∧ w.seen ≤ s.documents.length
  moved : ∀ (i : Nat) (w : KeyWritten) (p : String), s.keyLog[i]? = some w → w.request = .apiKey p →
    apiKeyOf host.backend host.target (documentOf host s₀ (s.documents.take w.seen))
      (keysAfter s₀.keys (s.keyLog.take i)) p = w.value
  replies : ∀ r ∈ s.replies, ReplyOk host s₀ s r
  snapshots : ∀ c o snapshot, s.snapshots c o = some snapshot → SnapshotOk host s₀ s snapshot

structure Inv : Prop extends Base host s₀ s where
  calls : ∀ c call, s.calls c = some call → CallOk host s₀ s c call
  apart : ∀ c c' call call', s.calls c = some call → s.calls c' = some call' → call.id = call'.id → c = c'
  unanswered : ∀ r ∈ s.replies, ∀ c call, s.calls c = some call → call.id ≠ r.id

structure InvBut (c id : Nat) : Prop extends Base host s₀ s where
  calls : ∀ c' call, c' ≠ c → s.calls c' = some call → CallOk host s₀ s c' call ∧ call.id ≠ id
  apart : ∀ c₁ c₂ call₁ call₂, c₁ ≠ c → c₂ ≠ c → s.calls c₁ = some call₁ → s.calls c₂ = some call₂ →
    call₁.id = call₂.id → c₁ = c₂
  unanswered : ∀ r ∈ s.replies, r.id ≠ id ∧ ∀ c' call, c' ≠ c → s.calls c' = some call → call.id ≠ r.id
  own_lt : id < s.issued

end Inv

structure Grows (id : Nat) (s s' : System) : Prop where
  documents : ∃ ds, s'.documents = s.documents ++ ds ∧ ∀ w ∈ ds, w.id = id
  keyLog : ∃ ks, s'.keyLog = s.keyLog ++ ks ∧ ∀ w ∈ ks, w.id = id
  issued : s.issued ≤ s'.issued

variable {host} {s₀ s s' : System} {id : Nat}

lemma Grows.of_eq (hdocs : s'.documents = s.documents) (hkeys : s'.keyLog = s.keyLog) (hissued : s.issued ≤ s'.issued) :
    Grows id s s' where
  documents := ⟨[], by rw [hdocs, List.append_nil], nofun⟩
  keyLog := ⟨[], by rw [hkeys, List.append_nil], nofun⟩
  issued := hissued

namespace Grows
variable (h : Grows id s s')
include h

lemma length_documents : s.documents.length ≤ s'.documents.length := by
  obtain ⟨ds, hds, -⟩ := h.documents
  rw [hds, List.length_append]
  omega

lemma length_keyLog : s.keyLog.length ≤ s'.keyLog.length := by
  obtain ⟨ks, hks, -⟩ := h.keyLog
  rw [hks, List.length_append]
  omega

lemma take_documents {n : Nat} (hn : n ≤ s.documents.length) : s'.documents.take n = s.documents.take n := by
  obtain ⟨ds, hds, -⟩ := h.documents
  rw [hds, List.take_append_of_le_length hn]

lemma take_keyLog {n : Nat} (hn : n ≤ s.keyLog.length) : s'.keyLog.take n = s.keyLog.take n := by
  obtain ⟨ks, hks, -⟩ := h.keyLog
  rw [hks, List.take_append_of_le_length hn]

lemma document_at {i : Nat} {w : Written} (hw : s.documents[i]? = some w) : s'.documents[i]? = some w := by
  obtain ⟨ds, hds, -⟩ := h.documents
  rw [hds, List.getElem?_append_left (List.getElem?_eq_some_iff.1 hw).1, hw]

lemma written_of_ne {id' : Nat} (hne : id' ≠ id) (hw : ∀ w ∈ s.documents, w.id ≠ id') :
    ∀ w ∈ s'.documents, w.id ≠ id' := by
  obtain ⟨ds, hds, hid⟩ := h.documents
  intro w hmem
  rw [hds, List.mem_append] at hmem
  rcases hmem with hmem | hmem
  · exact hw w hmem
  · rw [hid w hmem]
    exact hne.symm

lemma unchanged_of_ne {id' : Nat} (hne : id' ≠ id) (hu : Unchanged s₀ s.keyLog id') : Unchanged s₀ s'.keyLog id' := by
  obtain ⟨ks, hks, hid⟩ := h.keyLog
  intro i w hw hwid
  rw [hks] at hw ⊢
  by_cases hi : i < s.keyLog.length
  · rw [List.getElem?_append_left hi] at hw
    rw [List.take_append_of_le_length (by omega)]
    exact hu i w hw hwid
  · rw [List.getElem?_append_right (by omega)] at hw
    exact absurd ((hid w (List.mem_of_getElem? hw)).symm.trans hwid).symm hne

lemma keyed {id' : Nat} {save : Save} (hk : Keyed host s.keyLog id' save) : Keyed host s'.keyLog id' save := by
  obtain ⟨ks, hks, -⟩ := h.keyLog
  intro change hchange
  obtain ⟨w, hw, hrest⟩ := hk change hchange
  exact ⟨w, hks ▸ List.mem_append_left _ hw, hrest⟩

lemma raised {r : Reply} (hne : r.id ≠ id) (hr : Raised s₀ s r) : Raised s₀ s' r :=
  ⟨h.written_of_ne hne hr.1, h.unchanged_of_ne hne hr.2⟩

lemma returned {r : Reply} {value : Value} (hseen : r.seen ≤ s.documents.length)
    (hkeys : r.keysSeen ≤ s.keyLog.length) (hr : Returned host s₀ s r value) : Returned host s₀ s' r value := by
  unfold Returned at hr ⊢
  split at hr
  · rw [h.take_keyLog hkeys]
    obtain ⟨⟨i, hi, hrest⟩, hkeyed⟩ := hr
    exact ⟨⟨i, h.document_at hi, hrest⟩, hkeyed⟩
  · rwa [h.take_documents hseen]
  · rwa [h.take_keyLog hkeys]

lemma replyOk {r : Reply} (hne : r.id ≠ id) (hr : ReplyOk host s₀ s r) : ReplyOk host s₀ s' r where
  id_lt := Nat.lt_of_lt_of_le hr.id_lt h.issued
  seen_le := hr.seen_le.trans h.length_documents
  keysSeen_le := hr.keysSeen_le.trans h.length_keyLog
  returned value hv := h.returned hr.seen_le hr.keysSeen_le (hr.returned value hv)
  raised error he := h.raised hne (hr.raised error he)

lemma snapshotOk {snapshot : Snapshot} (hs : SnapshotOk host s₀ s snapshot) : SnapshotOk host s₀ s' snapshot where
  opened_le := hs.opened_le
  seen_le := hs.seen_le.trans h.length_documents
  data := by rw [h.take_documents hs.seen_le]; exact hs.data

section Call
variable {c : Nat} {call : Call}

lemma saving {save : Save} {next : State} (hversion : call.version ≤ s.documents.length)
    (hsnap : s'.snapshots c = s.snapshots c) (hs : Saving host s₀ s c call save next) :
    Saving host s₀ s' c call save next where
  unpublished := hs.unpublished
  held := hs.held
  loaded := by rw [h.take_documents hversion]; exact hs.loaded
  request := hs.request
  outside := by rw [hsnap]; exact hs.outside
  depth_le := hs.depth_le

lemma phaseOk (hversion : call.version ≤ s.documents.length) (hsnap : s'.snapshots c = s.snapshots c)
    (hp : PhaseOk host s₀ s c call) : PhaseOk host s₀ s' c call := by
  unfold PhaseOk at hp ⊢
  split at hp
  · rw [hsnap]
    exact hp
  · exact ⟨h.saving hversion hsnap hp.1, hp.2⟩
  · exact ⟨h.saving hversion hsnap hp.1, h.keyed hp.2⟩
  · exact hp
  · exact ⟨h.saving hversion hsnap hp.1, h.keyed hp.2.1, hp.2.2⟩

lemma callOk (hne : call.id ≠ id) (hsnap : s'.snapshots c = s.snapshots c)
    (hlock : 0 < call.depth → s'.locks (domain host.backend call.object) = s.locks (domain host.backend call.object))
    (hsqlite : host.backend = .sqlite → 0 < call.depth → s'.documents = s.documents)
    (hc : CallOk host s₀ s c call) : CallOk host s₀ s' c call where
  id_lt := Nat.lt_of_lt_of_le hc.id_lt h.issued
  unwritten hp := h.written_of_ne hne (hc.unwritten hp)
  unkeyed hk := h.unchanged_of_ne hne (hc.unkeyed hk)
  held hd := (hlock hd).trans (hc.held hd)
  current hb hd := by rw [hsqlite hb hd]; exact hc.current hb hd
  version_le := hc.version_le.trans h.length_documents
  opened_le := hc.opened_le.trans h.length_documents
  phase := h.phaseOk hc.version_le hsnap hc.phase

end Call

end Grows

section Under
variable {c : Nat}

lemma Inv.but (h : Inv host s₀ s) {call : Call} (hc : s.calls c = some call) : InvBut host s₀ s c call.id where
  toBase := h.toBase
  calls c' call' hne hc' := ⟨h.calls c' call' hc', fun hid => hne (h.apart c' c call' call hc' hc hid)⟩
  apart c₁ c₂ call₁ call₂ _ _ := h.apart c₁ c₂ call₁ call₂
  unanswered r hr := ⟨(h.unanswered r hr c call hc).symm, fun c' call' _ => h.unanswered r hr c' call'⟩
  own_lt := (h.calls c call hc).id_lt

variable (h : InvBut host s₀ s c id)

include h in
lemma InvBut.change (hg : Grows id s s') (hbase : Base host s₀ s')
    (hcalls : s'.calls = s.calls) (hreplies : s'.replies = s.replies)
    (hsnap : ∀ c', c' ≠ c → s'.snapshots c' = s.snapshots c')
    (hlock : ∀ c' call, c' ≠ c → s.calls c' = some call → 0 < call.depth →
      s'.locks (domain host.backend call.object) = s.locks (domain host.backend call.object))
    (hsqlite : ∀ c' call, c' ≠ c → s.calls c' = some call → host.backend = .sqlite → 0 < call.depth →
      s'.documents = s.documents) : InvBut host s₀ s' c id where
  toBase := hbase
  calls c' call hne hc := by
    rw [hcalls] at hc
    obtain ⟨hok, hid⟩ := h.calls c' call hne hc
    exact ⟨hg.callOk hid (hsnap c' hne) (hlock c' call hne hc) (hsqlite c' call hne hc) hok, hid⟩
  apart := by rw [hcalls]; exact h.apart
  unanswered := by rw [hcalls, hreplies]; exact h.unanswered
  own_lt := Nat.lt_of_lt_of_le h.own_lt hg.issued

lemma Base.issue (h : Base host s₀ s) : Base host s₀ { s with issued := s.issued + 1 } where
  document := h.document
  keys := h.keys
  sound := h.sound
  writtenId w hw := Nat.lt_succ_of_lt (h.writtenId w hw)
  keyId w hw := ⟨Nat.lt_succ_of_lt (h.keyId w hw).1, (h.keyId w hw).2⟩
  moved := h.moved
  replies r hr := { h.replies r hr with id_lt := Nat.lt_succ_of_lt (h.replies r hr).id_lt }
  snapshots c o snapshot hs := { h.snapshots c o snapshot hs with }

lemma Inv.issue (h : Inv host s₀ s) :
    InvBut host s₀ { s with issued := s.issued + 1 } c s.issued where
  toBase := h.toBase.issue
  calls c' call _ hc' := by
    have hok := h.calls c' call hc'
    have hg : Grows s.issued s { s with issued := s.issued + 1 } := Grows.of_eq rfl rfl (Nat.le_succ _)
    exact ⟨hg.callOk hok.id_lt.ne rfl (fun _ => rfl) (fun _ _ => rfl) hok, hok.id_lt.ne⟩
  apart c₁ c₂ call₁ call₂ _ _ := h.apart c₁ c₂ call₁ call₂
  unanswered r hr := ⟨(h.replies r hr).id_lt.ne, fun c' call _ => h.unanswered r hr c' call⟩
  own_lt := Nat.lt_succ_self _

variable {object : Nat}

include h in
lemma InvBut.setLock {holder : Option Nat}
    (hlock : s.locks (domain host.backend object) = none ∨ s.locks (domain host.backend object) = some c) :
    InvBut host s₀ (s.setLock host object holder) c id := by
  have hg : Grows id s (s.setLock host object holder) := Grows.of_eq rfl rfl le_rfl
  refine h.change hg ?_ rfl rfl (fun _ _ => rfl) ?_ (fun _ _ _ _ _ _ => rfl)
  · exact { h.toBase with
      replies := fun r hr => hg.replyOk (h.unanswered r hr).1 (h.replies r hr)
      snapshots := fun c' o x hx => hg.snapshotOk (h.snapshots c' o x hx) }
  · intro c' call hne hc hd
    have hheld := (h.calls c' call hne hc).1.held hd
    apply Function.update_of_ne
    intro heq
    rw [heq] at hheld
    rcases hlock with hlock | hlock <;> rw [hlock] at hheld
    · cases hheld
    · exact hne (Option.some.inj hheld).symm

lemma setSnapshot_cases {c' o : Nat} {snapshot : Option Snapshot} {x : Snapshot}
    (h : (s.setSnapshot c object snapshot).snapshots c' o = some x) : snapshot = some x ∨ s.snapshots c' o = some x := by
  change Function.update s.snapshots c _ c' o = some x at h
  by_cases hc : c' = c
  · subst hc
    rw [Function.update_self] at h
    by_cases ho : o = object
    · subst ho
      rw [Function.update_self] at h
      exact .inl h
    · rw [Function.update_of_ne ho] at h
      exact .inr h
  · rw [Function.update_of_ne hc] at h
    exact .inr h

lemma getElem?_concat_cases {α : Type} {xs : List α} {x w : α} {i : Nat} (h : (xs ++ [x])[i]? = some w) :
    (i < xs.length ∧ xs[i]? = some w) ∨ (i = xs.length ∧ x = w) := by
  by_cases hi : i < xs.length
  · rw [List.getElem?_append_left hi] at h
    exact .inl ⟨hi, h⟩
  · obtain ⟨hlen, -⟩ := List.getElem?_eq_some_iff.1 h
    rw [List.length_append, List.length_singleton] at hlen
    obtain rfl : i = xs.length := by omega
    rw [List.getElem?_concat_length] at h
    exact .inr ⟨rfl, Option.some.inj h⟩

include h in
lemma InvBut.setSnapshot {snapshot : Option Snapshot}
    (hs : ∀ x, snapshot = some x → SnapshotOk host s₀ s x) : InvBut host s₀ (s.setSnapshot c object snapshot) c id := by
  have hg : Grows id s (s.setSnapshot c object snapshot) := Grows.of_eq rfl rfl le_rfl
  refine h.change hg { h.toBase with
    replies := fun r hr => hg.replyOk (h.unanswered r hr).1 (h.replies r hr)
    snapshots := ?_ } rfl rfl
    (fun c' hne => Function.update_of_ne hne ..) (fun _ _ _ _ _ => rfl) (fun _ _ _ _ _ _ => rfl)
  intro c' o x hx
  rcases setSnapshot_cases hx with hx | hx
  · exact hg.snapshotOk (hs x hx)
  · exact hg.snapshotOk (h.snapshots c' o x hx)

lemma Grows.setKey (call : Call) (target : String) (value : Option String) :
    Grows call.id s (s.setKey call target value) where
  documents := ⟨[], (List.append_nil _).symm, nofun⟩
  keyLog := ⟨_, rfl, by simp⟩
  issued := le_rfl

lemma InvBut.setKey {call : Call} (h : InvBut host s₀ s c call.id) {target : String} {value : Option String}
    (hmoved : ∀ p, call.request = .apiKey p → apiKeyOf host.backend host.target s.stored s.keys p = value) :
    InvBut host s₀ (s.setKey call target value) c call.id := by
  have hg : Grows call.id s (s.setKey call target value) := Grows.setKey call target value
  refine h.change hg ?_ rfl rfl (fun _ _ => rfl) (fun _ _ _ _ _ => rfl) (fun _ _ _ _ _ _ => rfl)
  refine { h.toBase with
    keys := ?_
    keyId := ?_
    moved := ?_
    replies := fun r hr => hg.replyOk (h.unanswered r hr).1 (h.replies r hr)
    snapshots := fun c' o x hx => hg.snapshotOk (h.snapshots c' o x hx) }
  · change Function.update s.keys target value = keysAfter s₀.keys (s.keyLog ++ [_])
    rw [keysAfter_concat, ← h.keys]
  · intro w hw
    rcases mem_concat.1 hw with hw | rfl
    · exact h.keyId w hw
    · exact ⟨h.own_lt, le_rfl⟩
  · intro i w p hw hp
    change (s.keyLog ++ [_])[i]? = some w at hw
    change apiKeyOf host.backend host.target (documentOf host s₀ (s.documents.take w.seen))
      (keysAfter s₀.keys ((s.keyLog ++ [_]).take i)) p = w.value
    rcases getElem?_concat_cases hw with ⟨hi, hw⟩ | ⟨rfl, rfl⟩
    · rw [List.take_append_of_le_length hi.le]
      exact h.moved i w p hw hp
    · rw [List.take_left, List.take_length, ← h.keys, ← h.document]
      exact hmoved p hp

lemma Grows.publish (call : Call) (save : Save) (next : State) : Grows call.id s (s.publish call save next) where
  documents := ⟨_, rfl, by simp⟩
  keyLog := ⟨[], (List.append_nil _).symm, nofun⟩
  issued := le_rfl

variable {save : Save} {next : State} {change : Option KeyChange}

lemma documentOf_publish {call : Call}
    (hload : save.load host.backend (documentOf host s₀ s.documents) = .ok (change, next)) :
    documentOf host s₀ (s.publish call save next).documents = .of next := by
  change documentAfter host.backend s₀.stored (s.documents ++ [_]) = _
  rw [documentAfter_concat]
  exact apply_of_load hload

lemma InvBut.publish {call : Call} (h : InvBut host s₀ s c call.id)
    (hload : save.load host.backend (documentOf host s₀ s.documents) = .ok (change, next))
    (hsound : save.Sound) (hlock : host.backend = .sqlite → s.locks 0 = some c) :
    InvBut host s₀ (s.publish call save next) c call.id := by
  have hg : Grows call.id s (s.publish call save next) := Grows.publish call save next
  refine h.change hg ?_ rfl rfl (fun _ _ => rfl) (fun _ _ _ _ _ => rfl) ?_
  · refine { h.toBase with
      document := (documentOf_publish hload).symm
      sound := ?_
      writtenId := ?_
      keyId := fun w hw => ⟨(h.keyId w hw).1, (h.keyId w hw).2.trans hg.length_documents⟩
      moved := ?_
      replies := fun r hr => hg.replyOk (h.unanswered r hr).1 (h.replies r hr)
      snapshots := fun c' o x hx => hg.snapshotOk (h.snapshots c' o x hx) }
    · intro w hw
      rcases mem_concat.1 hw with hw | rfl
      · exact h.sound w hw
      · exact hsound
    · intro w hw
      rcases mem_concat.1 hw with hw | rfl
      · exact h.writtenId w hw
      · exact h.own_lt
    · intro i w p hw hp
      rw [hg.take_documents (h.keyId w (List.mem_of_getElem? hw)).2]
      exact h.moved i w p hw hp
  · -- in SQLite no other call holds the lock of the path
    intro c' call' hne hc' hb hd
    have hheld := (h.calls c' call' hne hc').1.held hd
    rw [hb] at hheld
    exact absurd (Option.some.inj (hheld.symm.trans (hlock hb))) hne

lemma InvBut.refresh_publish {call : Call} (h : InvBut host s₀ s c call.id)
    (hload : save.load host.backend (documentOf host s₀ s.documents) = .ok (change, next))
    (hsound : save.Sound) (hlock : host.backend = .sqlite → s.locks 0 = some c) (object : Nat) :
    InvBut host s₀ ((s.refreshSnapshot c object next).publish call save next) c call.id := by
  have hp := h.publish hload hsound hlock
  unfold System.refreshSnapshot
  split
  · exact hp
  · rename_i snapshot hs
    change InvBut host s₀ ((s.publish call save next).setSnapshot c object _) c call.id
    apply hp.setSnapshot
    rintro x hx
    obtain rfl := Option.some.inj hx
    have hold := h.snapshots c object snapshot hs
    have hlen : (s.publish call save next).documents.length = s.documents.length + 1 :=
      List.length_append
    refine ⟨?_, ?_, ?_⟩
    · have h1 := hold.opened_le
      have h2 := hold.seen_le
      change snapshot.opened ≤ s.documents.length + 1
      omega
    · change s.documents.length + 1 ≤ _
      omega
    · change readUnlocked host.backend (documentOf host s₀ ((s.publish call save next).documents.take
        (s.documents.length + 1))) = .ok next
      rw [← hlen, List.take_length, documentOf_publish hload]
      exact readUnlocked_of (dicts_of_load hload hsound)

lemma setCall_self {next : Option Call} {call : Call} (h : (s.setCall c next).calls c = some call) : next = some call := by
  change Function.update s.calls c next c = some call at h
  rwa [Function.update_self] at h

include h in
lemma InvBut.base_setCall (next : Option Call) : Base host s₀ (s.setCall c next) := by
  have hg : Grows id s (s.setCall c next) := Grows.of_eq rfl rfl le_rfl
  exact { h.toBase with
    replies := fun r hr => hg.replyOk (h.unanswered r hr).1 (h.replies r hr)
    snapshots := fun c' o x hx => hg.snapshotOk (h.snapshots c' o x hx) }

include h in
lemma InvBut.call_setCall {next : Option Call} {c' : Nat} {call : Call} (hne : c' ≠ c)
    (hc : (s.setCall c next).calls c' = some call) :
    s.calls c' = some call ∧ CallOk host s₀ (s.setCall c next) c' call ∧ call.id ≠ id := by
  change Function.update s.calls c next c' = some call at hc
  rw [Function.update_of_ne hne] at hc
  obtain ⟨hok, hid⟩ := h.calls c' call hne hc
  have hg : Grows id s (s.setCall c next) := Grows.of_eq rfl rfl le_rfl
  exact ⟨hc, hg.callOk hid rfl (fun _ => rfl) (fun _ _ => rfl) hok, hid⟩

include h in
lemma InvBut.goOn {call : Call} (hid : call.id = id)
    (hok : CallOk host s₀ (s.setCall c (some call)) c call) : Inv host s₀ (s.setCall c (some call)) where
  toBase := h.base_setCall _
  calls c' call' hc' := by
    by_cases hne : c' = c
    · subst hne
      obtain rfl := Option.some.inj (setCall_self hc')
      exact hok
    · exact (h.call_setCall hne hc').2.1
  apart c₁ c₂ call₁ call₂ h₁ h₂ heq := by
    by_cases hc₁ : c₁ = c
    · by_cases hc₂ : c₂ = c
      · rw [hc₁, hc₂]
      · subst hc₁
        obtain rfl := Option.some.inj (setCall_self h₁)
        exact absurd (heq.symm.trans hid) (h.call_setCall hc₂ h₂).2.2
    · by_cases hc₂ : c₂ = c
      · subst hc₂
        obtain rfl := Option.some.inj (setCall_self h₂)
        exact absurd (heq.trans hid) (h.call_setCall hc₁ h₁).2.2
      · exact h.apart c₁ c₂ call₁ call₂ hc₁ hc₂ (h.call_setCall hc₁ h₁).1 (h.call_setCall hc₂ h₂).1 heq
  unanswered r hr c' call' hc' := by
    by_cases hne : c' = c
    · subst hne
      obtain rfl := Option.some.inj (setCall_self hc')
      rw [hid]
      exact (h.unanswered r hr).1.symm
    · exact (h.unanswered r hr).2 c' call' hne (h.call_setCall hne hc').1

include h in
lemma InvBut.reply {request : Request} {result : Result} {opened seen : Nat}
    (hreply : ReplyOk host s₀ s ⟨id, request, result, opened, seen, s.keyLog.length⟩) :
    Inv host s₀ ((s.reply id request result opened seen).setCall c none) := by
  have hcalls : ∀ c' call, ((s.reply id request result opened seen).setCall c none).calls c' = some call →
      c' ≠ c ∧ s.calls c' = some call := by
    intro c' call hc'
    rcases of_update hc' with ⟨rfl, hsame⟩ | ⟨hne, hc'⟩
    · cases hsame
    · exact ⟨hne, hc'⟩
  have hg : Grows id s ((s.reply id request result opened seen).setCall c none) := Grows.of_eq rfl rfl le_rfl
  refine { toBase := { h.toBase with replies := ?_, snapshots := ?_ }, calls := ?_, apart := ?_, unanswered := ?_ }
  · intro r hr
    rcases mem_concat.1 hr with hr | rfl
    · exact hg.replyOk (h.unanswered r hr).1 (h.replies r hr)
    · exact { hreply with }
  · exact fun c' o x hx => hg.snapshotOk (h.snapshots c' o x hx)
  · intro c' call hc'
    obtain ⟨hne, hc'⟩ := hcalls c' call hc'
    obtain ⟨hok, hid⟩ := h.calls c' call hne hc'
    exact hg.callOk hid rfl (fun _ => rfl) (fun _ _ => rfl) hok
  · intro c₁ c₂ call₁ call₂ h₁ h₂
    obtain ⟨hne₁, h₁⟩ := hcalls c₁ call₁ h₁
    obtain ⟨hne₂, h₂⟩ := hcalls c₂ call₂ h₂
    exact h.apart c₁ c₂ call₁ call₂ hne₁ hne₂ h₁ h₂
  · intro r hr c' call hc'
    obtain ⟨hne, hc'⟩ := hcalls c' call hc'
    rcases mem_concat.1 hr with hr | rfl
    · exact (h.unanswered r hr).2 c' call hne hc'
    · exact (h.calls c' call hne hc').2

lemma Inv.setLock (h : Inv host s₀ s) {holder : Option Nat}
    (hlock : ∀ c' call, s.calls c' = some call → 0 < call.depth →
      domain host.backend call.object ≠ domain host.backend object) :
    Inv host s₀ (s.setLock host object holder) := by
  refine { toBase := { h.toBase with replies := ?_, snapshots := ?_ }, calls := ?_, apart := h.apart, unanswered := h.unanswered }
  · exact fun r hr => { h.replies r hr with }
  · exact fun c' o x hx => { h.snapshots c' o x hx with }
  · intro c' call hc
    have hok := h.calls c' call hc
    have hg : Grows (call.id + 1) s (s.setLock host object holder) := Grows.of_eq rfl rfl le_rfl
    exact hg.callOk (Nat.ne_of_lt (Nat.lt_succ_self _)) rfl
      (fun hd => Function.update_of_ne (hlock c' call hc hd) ..) (fun _ _ => rfl) hok

lemma InvBut.finish {call : Call} (h : InvBut host s₀ s c call.id) {result : Result}
    (hreply : ReplyOk host s₀ s ⟨call.id, call.request, result, call.opened, s.documents.length, s.keyLog.length⟩)
    (hlock : 0 < call.depth → s.locks (domain host.backend call.object) = some c) :
    Inv host s₀ (s.finish host c call result) := by
  have hdone := h.reply hreply
  unfold System.finish
  split
  · exact hdone
  · rename_i hd
    apply hdone.setLock
    intro c' call' hc' hd' heq
    have hheld := (hdone.calls c' call' hc').held hd'
    rw [heq] at hheld
    have hown : s.locks (domain host.backend call.object) = some c := hlock (Nat.pos_of_ne_zero hd)
    change s.locks _ = some c' at hheld
    rw [hown] at hheld
    obtain rfl := Option.some.inj hheld
    cases setCall_self hc'

end Under

section Steps
variable {c : Nat} {call : Call}

variable {object : Nat}

variable (h : Inv host s₀ s)

include h in
lemma Inv.setSnapshot (hc : s.calls c = none) {snapshot : Option Snapshot}
    (hs : ∀ x, snapshot = some x → SnapshotOk host s₀ s x) : Inv host s₀ (s.setSnapshot c object snapshot) := by
  have hg : ∀ id, Grows id s (s.setSnapshot c object snapshot) := fun id => Grows.of_eq rfl rfl le_rfl
  refine { toBase := { h.toBase with replies := ?_, snapshots := ?_ }, calls := ?_, apart := h.apart, unanswered := h.unanswered }
  · exact fun r hr => { h.replies r hr with }
  · intro c' o x hx
    rcases setSnapshot_cases hx with hx | hx
    · exact (hg 0).snapshotOk (hs x hx)
    · exact (hg 0).snapshotOk (h.snapshots c' o x hx)
  · intro c' call hc'
    have hne : c' ≠ c := by
      rintro rfl
      exact Option.some_ne_none call (hc'.symm.trans hc)
    exact (hg (call.id + 1)).callOk (Nat.ne_of_lt (Nat.lt_succ_self _)) (Function.update_of_ne hne ..) (fun _ => rfl)
      (fun _ _ => rfl) (h.calls c' call hc')

lemma calls_none (h : ¬ (s.calls object).isSome = true) : s.calls object = none :=
  Option.not_isSome_iff_eq_none.1 h

variable {data : State}

lemma read_now (h : Base host s₀ s) (hread : readUnlocked host.backend s.stored = .ok data) :
    readUnlocked host.backend (documentOf host s₀ (s.documents.take s.documents.length)) = .ok data := by
  rw [List.take_length, ← h.document]
  exact hread

include h in
lemma inv_enter (object : Nat) (fault : Fault) : Inv host s₀ (enter host s c object fault).2 := by
  unfold enter
  split_ifs with hcall hscope hfree hfault
  · exact h
  · exact h
  · exact h
  · exact h
  · rcases hread : readUnlocked host.backend s.stored with error | data
    · exact h
    · apply h.setSnapshot (calls_none hcall)
      intro x hx
      obtain rfl := Option.some.inj hx
      exact ⟨le_rfl, le_rfl, read_now h.toBase hread⟩

include h in
lemma inv_leave (object : Nat) : Inv host s₀ (leave s c object).2 := by
  unfold leave
  split_ifs with hcall
  · exact h
  · exact h.setSnapshot (calls_none hcall) nofun

variable {request : Request}

include h in
lemma Inv.answer (hc : s.calls c = none) {result : Result} {opened seen : Nat}
    (hseen : seen ≤ s.documents.length)
    (hreturned : ∀ value, result = .returned value →
      Returned host s₀ s ⟨s.issued, request, result, opened, seen, s.keyLog.length⟩ value) :
    Inv host s₀ (s.answer request result opened seen) := by
  have hbut : InvBut host s₀ { s with issued := s.issued + 1 } c s.issued := h.issue
  have hreply : ReplyOk host s₀ { s with issued := s.issued + 1 }
      ⟨s.issued, request, result, opened, seen, s.keyLog.length⟩ :=
    { id_lt := Nat.lt_succ_self _
      seen_le := hseen
      keysSeen_le := le_rfl
      returned := hreturned
      raised := fun _ _ => ⟨fun w hw => (h.writtenId w hw).ne, fun i w hw hid =>
        absurd hid (h.keyId w (List.mem_of_getElem? hw)).1.ne⟩ }
  have hdone := hbut.reply hreply
  have hsame : Function.update s.calls c none = s.calls := by
    rw [← hc, Function.update_eq_self]
  change Inv host s₀ { s with calls := Function.update s.calls c none, issued := s.issued + 1, replies := _ } at hdone
  rwa [hsame] at hdone

variable {phase : Phase}

include h in
lemma Inv.ask {depth : Nat} {locks : Nat → Option Nat}
    (hbut : InvBut host s₀ { s with issued := s.issued + 1, locks := locks } c s.issued)
    (hheld : 0 < depth → locks (domain host.backend object) = some c)
    (hphase : PhaseOk host s₀ s c ⟨s.issued, object, request, phase, depth, s.documents.length, s.documents.length,
      false, false⟩) : Inv host s₀ { s.ask c object depth request phase with locks := locks } := by
  refine hbut.goOn rfl ?_
  have hg : Grows s.issued s (({ s with issued := s.issued + 1, locks := locks } : System).setCall c
      (some ⟨s.issued, object, request, phase, depth, s.documents.length, s.documents.length, false, false⟩)) :=
    Grows.of_eq rfl rfl (Nat.le_succ _)
  exact {
    id_lt := Nat.lt_succ_self _
    unwritten := fun _ w hw => (h.writtenId w hw).ne
    unkeyed := fun _ i w hw hid => absurd hid (h.keyId w (List.mem_of_getElem? hw)).1.ne
    held := hheld
    current := fun _ _ => rfl
    version_le := le_rfl
    opened_le := le_rfl
    phase := hg.phaseOk le_rfl rfl hphase }

include h in
lemma inv_locked (hc : s.calls c = none) {fault : Fault}
    {body : Except StorageError (Result ⊕ Phase)}
    (hreturned : ∀ value, body = .ok (.inl (.returned value)) →
      Returned host s₀ s ⟨s.issued, request, .returned value, s.documents.length, s.documents.length, s.keyLog.length⟩
        value)
    (hphase : ∀ phase, body = .ok (.inr phase) → PhaseOk host s₀ s c
      ⟨s.issued, object, request, phase, 1, s.documents.length, s.documents.length, false, false⟩) :
    Inv host s₀ (locked host s c object request fault body).2 := by
  unfold locked
  split_ifs with hfree hfault
  · exact h
  · exact h.answer hc le_rfl nofun
  · split
    · exact h.answer hc le_rfl nofun
    · rename_i result
      apply h.answer hc le_rfl
      rintro value rfl
      exact hreturned value rfl
    · rename_i phase
      have hnone : s.locks (domain host.backend object) = none := by
        simpa [System.free] using hfree
      exact h.ask (h.issue.setLock (Or.inl hnone)) (fun _ => Function.update_self ..) (hphase phase rfl)

lemma resultOf_returned {answer : Option Value} {value : Value} (h : resultOf answer = .returned value) :
    answer = some value := by
  cases answer with
  | none => cases h
  | some v => rw [Result.returned.inj h]

lemma keyPhase_ok {p : String} (h : keyPhase p data = .ok phase) :
    (∃ legacy, phase = .migrate legacy) ∨ phase = .fetch none := by
  unfold keyPhase at h
  split at h
  · cases h
  · split at h
    · exact Or.inl ⟨_, (Except.ok.inj h).symm⟩
    · exact Or.inr (Except.ok.inj h).symm

lemma phaseOk_key {p : String} (h : keyPhase p data = .ok phase) {id depth : Nat}
    {version opened : Nat} (hdepth : depth ≤ 1) (hsnap : depth = 1 → s.snapshots c object = none) :
    PhaseOk host s₀ s c ⟨id, object, .apiKey p, phase, depth, version, opened, false, false⟩ := by
  rcases keyPhase_ok h with ⟨legacy, rfl⟩ | rfl
  · exact ⟨rfl, rfl, hdepth, hsnap, p, rfl⟩
  · exact ⟨hdepth, p, rfl⟩

variable {save : Save} {next : State}

lemma phaseOk_saving {change : Option KeyChange} (hkey : save.keyChange = .ok change)
    (hphase : call.phase = saving save change next) (hs : Saving host s₀ s c call save next)
    (hquiet : call.keyChanged = false) : PhaseOk host s₀ s c call := by
  unfold PhaseOk
  rw [hphase]
  cases change with
  | some change => exact ⟨hs, hquiet, hkey⟩
  | none =>
    refine ⟨hs, fun change hchange => ?_⟩
    rw [hkey] at hchange
    cases hchange

lemma load_now (h : Base host s₀ s) {loaded : Option KeyChange × State}
    (hload : save.load host.backend s.stored = .ok loaded) :
    save.load host.backend (documentOf host s₀ (s.documents.take s.documents.length)) = .ok loaded := by
  rw [List.take_length, ← h.document]
  exact hload

include h in
lemma inv_beginSave (hc : s.calls c = none) (object : Nat) (save : Save) (fault : Fault) :
    Inv host s₀ (locked host s c object (.save save) fault
      ((save.load host.backend s.stored).map fun loaded => .inr (saving save loaded.1 loaded.2))).2 := by
  apply inv_locked h hc
  · intro value hbody
    rcases hload : save.load host.backend s.stored <;> rw [hload] at hbody <;> cases hbody
  · intro phase hbody
    rcases hload : save.load host.backend s.stored with _ | ⟨change, next⟩ <;> rw [hload] at hbody <;> cases hbody
    obtain ⟨-, -, hkey, -⟩ := load_eq hload
    apply phaseOk_saving hkey rfl _ rfl
    exact {
      unpublished := rfl
      held := Nat.one_pos
      loaded := ⟨change, load_now h.toBase hload⟩
      request := Or.inl ⟨rfl, rfl⟩
      outside := nofun
      depth_le := Nat.le_succ 1 }

include h in
lemma inv_beginRead (hc : s.calls c = none) (object : Nat) (reading : Read) (fault : Fault) :
    Inv host s₀ (locked host s c object (.read reading) fault
      ((readUnlocked host.backend s.stored).map fun data => .inl (resultOf (reading.answer data)))).2 := by
  apply inv_locked h hc
  · intro value hbody
    rcases hread : readUnlocked host.backend s.stored with _ | data <;> rw [hread] at hbody
    · cases hbody
    · have hanswer := resultOf_returned (Sum.inl.inj (Except.ok.inj hbody))
      exact ⟨le_rfl, data, read_now h.toBase hread, hanswer⟩
  · intro phase hbody
    rcases hread : readUnlocked host.backend s.stored <;> rw [hread] at hbody <;> cases hbody

include h in
lemma inv_beginKey (hc : s.calls c = none) (object : Nat) (hsnap : s.snapshots c object = none)
    (p : String) (fault : Fault) :
    Inv host s₀ (locked host s c object (.apiKey p) fault
      ((readUnlocked host.backend s.stored).bind fun data => (keyPhase p data).map .inr)).2 := by
  have hbody : ∀ found, (readUnlocked host.backend s.stored).bind (fun data => (keyPhase p data).map Sum.inr) =
      .ok (found : Result ⊕ Phase) → ∃ data phase, keyPhase p data = .ok phase ∧ found = .inr phase := by
    intro found h
    rcases hread : readUnlocked host.backend s.stored with _ | data <;> rw [hread] at h
    · cases h
    · change (keyPhase p data).map Sum.inr = _ at h
      rcases hkey : keyPhase p data with _ | phase <;> rw [hkey] at h <;> cases h
      exact ⟨data, phase, hkey, rfl⟩
  apply inv_locked h hc
  · intro value hv
    obtain ⟨data, phase, -, hphase⟩ := hbody _ hv
    cases hphase
  · intro phase hv
    obtain ⟨data, phase, hkey, hphase⟩ := hbody _ hv
    obtain rfl := Sum.inr.inj hphase
    exact phaseOk_key hkey le_rfl fun _ => hsnap

include h in
lemma inv_begin (object : Nat) (request : Request) (fault : Fault) :
    Inv host s₀ (begin host s c object request fault).2 := by
  unfold begin
  split_ifs with hcall
  · exact h
  · have hc := calls_none hcall
    split
    · exact inv_beginSave h hc object _ fault
    · exact inv_beginRead h hc object _ fault
    · rename_i hsnap
      exact inv_beginKey h hc object hsnap _ fault
    · -- inside a scope the snapshot answers
      rename_i reading snapshot hsnap
      have hs := h.snapshots c object snapshot hsnap
      apply h.answer hc hs.seen_le
      intro value hv
      exact ⟨hs.opened_le, snapshot.data, hs.data, resultOf_returned hv⟩
    · rename_i p snapshot hsnap
      have hs := h.snapshots c object snapshot hsnap
      split
      · exact h.answer hc hs.seen_le nofun
      · rename_i phase hkey
        have hbut : InvBut host s₀ { s with issued := s.issued + 1, locks := s.locks } c s.issued := h.issue
        exact h.ask hbut (fun hd => absurd hd (Nat.lt_irrefl 0)) (phaseOk_key hkey (Nat.zero_le 1) nofun)

include h in
lemma Inv.raise (hc : s.calls c = some call) (hp : call.published = false)
    (hk : call.keyChanged = false) (error : StorageError) : Inv host s₀ (s.finish host c call (.raised error)) := by
  have hok := h.calls c call hc
  apply (h.but hc).finish _ hok.held
  exact {
    id_lt := hok.id_lt
    seen_le := le_rfl
    keysSeen_le := le_rfl
    returned := nofun
    raised := fun _ _ => ⟨hok.unwritten hp, hok.unkeyed hk⟩ }

include h in
lemma inv_refresh (hc : s.calls c = some call) (fault : Fault) :
    Inv host s₀ (refresh host s c call fault).2 := by
  have hok := h.calls c call hc
  unfold refresh
  split
  · rename_i legacy p hphase hrequest
    have hp := hok.phase
    unfold PhaseOk at hp
    rw [hphase] at hp
    obtain ⟨hquiet, hpub, hdepth, hsnap, -⟩ := hp
    split_ifs with hblocked hfault
    · exact h
    · exact h.raise hc hpub hquiet _
    · rcases hload : (migration p legacy).load host.backend s.stored with error | ⟨change, next⟩
      · exact h.raise hc hpub hquiet error
      · obtain ⟨-, -, hkey, -⟩ := load_eq hload
        have hlock : s.locks (domain host.backend call.object) = none ∨ s.locks (domain host.backend call.object) = some c := by
          by_cases hd : 0 < call.depth
          · exact Or.inr (hok.held hd)
          · left
            have hfree : ¬ s.free host call.object = false := fun hf => hblocked ⟨by omega, hf⟩
            simpa [System.free] using hfree
        have hbut : InvBut host s₀ (s.setLock host call.object (some c)) c call.id := (h.but hc).setLock hlock
        refine hbut.goOn rfl ?_
        exact {
          id_lt := hok.id_lt
          unwritten := hok.unwritten
          unkeyed := hok.unkeyed
          held := fun _ => Function.update_self ..
          current := fun _ _ => rfl
          version_le := le_rfl
          opened_le := hok.opened_le
          phase := phaseOk_saving hkey rfl
            { unpublished := hpub
              held := Nat.succ_pos _
              loaded := ⟨change, load_now h.toBase hload⟩
              request := Or.inr ⟨p, legacy, hrequest, rfl⟩
              outside := fun hd => hsnap (Nat.succ.inj hd)
              depth_le := Nat.succ_le_succ hdepth } hquiet }
  · exact h

include h in
lemma inv_credential (hc : s.calls c = some call) (fault : Fault)
    (hsafe : SafeCall host s c call (.credential c fault)) : Inv host s₀ (credential host s c call fault).2 := by
  have hok := h.calls c call hc
  unfold credential
  split
  · rename_i save change next hphase
    have hp := hok.phase
    unfold PhaseOk at hp
    rw [hphase] at hp
    obtain ⟨hsaving, hquiet, hkey⟩ := hp
    split_ifs with hfault
    · exact h.raise hc hsaving.unpublished hquiet _
    · have hg : Grows call.id s (s.setKey call (host.target save.provider) change.value) := Grows.setKey ..
      have hmoved : ∀ p, call.request = .apiKey p →
          apiKeyOf host.backend host.target s.stored s.keys p = change.value :=
        fun p hrequest => hsafe save change next p hphase hrequest (by simpa using hfault)
      refine ((h.but hc).setKey hmoved).goOn rfl ?_
      refine {
        id_lt := hok.id_lt
        unwritten := hok.unwritten
        unkeyed := ?_
        held := hok.held
        current := hok.current
        version_le := hok.version_le
        opened_le := hok.opened_le
        phase := ⟨{ hg.saving hok.version_le rfl hsaving with }, ?_⟩ }
      · -- the new entry changed nothing if the key was there already
        intro hsame i w hw hid
        change (s.keyLog ++ [_])[i]? = some w at hw
        change keysAfter s₀.keys ((s.keyLog ++ [_]).take i) w.target = w.value
        rcases getElem?_concat_cases hw with ⟨hi, hw⟩ | ⟨rfl, rfl⟩
        · rw [List.take_append_of_le_length hi.le]
          exact hok.unkeyed hquiet i w hw hid
        · rw [List.take_left, ← h.keys]
          simpa using hsame
      · intro change' hchange
        rw [hkey] at hchange
        obtain rfl := Option.some.inj (Except.ok.inj hchange)
        refine ⟨⟨call.id, call.request, host.target save.provider, change.value, s.documents.length⟩, ?_, rfl, rfl, rfl⟩
        exact List.mem_append_right s.keyLog (List.mem_singleton_self _)
  · exact h

lemma refreshSnapshot_none (h : s.snapshots c object = none) (next : State) :
    s.refreshSnapshot c object next = s := by
  unfold System.refreshSnapshot
  rw [h]

lemma loaded_now (hs : Saving host s₀ s c call save next)
    (hnewest : save.Reads → call.version = s.documents.length) :
    ∃ change, save.load host.backend (documentOf host s₀ s.documents) = .ok (change, next) := by
  obtain ⟨change, hload⟩ := hs.loaded
  refine ⟨change, ?_⟩
  rcases isWrite_or save with ⟨d, rfl⟩ | hreads
  · exact hload
  · rwa [hnewest hreads, List.take_length] at hload

include h in
lemma inv_published (hc : s.calls c = some call)
    (hs : Saving host s₀ s c call save next) (hkeyed : Keyed host s.keyLog call.id save) (hsound : save.Sound)
    (hnewest : save.Reads → call.version = s.documents.length) (hdepth : ¬ (host.backend = .sqlite ∧ call.depth = 2)) :
    Inv host s₀ (match call.request with
      | .apiKey _ => ((((s.refreshSnapshot c call.object next).publish call save next).setCall c (some { call with
          phase := .fetch none, depth := call.depth - 1, published := true })).setLock host call.object
            (if call.depth = 1 then none else some c))
      | _ => ((s.refreshSnapshot c call.object next).publish call save next).finish host c call
          (.returned (savedRecord save next))) := by
  have hok := h.calls c call hc
  obtain ⟨change, hload⟩ := loaded_now hs hnewest
  have hheld : s.locks (domain host.backend call.object) = some c := hok.held hs.held
  have hlock : host.backend = .sqlite → s.locks 0 = some c := by
    intro hb
    rw [hb] at hheld
    exact hheld
  have hbut := (h.but hc).refresh_publish hload hsound hlock call.object
  have hdocs : ((s.refreshSnapshot c call.object next).publish call save next).documents =
      s.documents ++ [⟨call.id, save⟩] := by
    unfold System.refreshSnapshot
    split <;> rfl
  have hkeys : ((s.refreshSnapshot c call.object next).publish call save next).keyLog = s.keyLog := by
    unfold System.refreshSnapshot
    split <;> rfl
  have hlocks : ((s.refreshSnapshot c call.object next).publish call save next).locks = s.locks := by
    unfold System.refreshSnapshot
    split <;> rfl
  have hissued : ((s.refreshSnapshot c call.object next).publish call save next).issued = s.issued := by
    unfold System.refreshSnapshot
    split <;> rfl
  generalize (s.refreshSnapshot c call.object next).publish call save next = t at hbut hdocs hkeys hlocks hissued
  have hlen : t.documents.length = s.documents.length + 1 := by
    rw [hdocs, List.length_append, List.length_singleton]
  rcases hs.request with ⟨hrequest, hone⟩ | ⟨p, legacy, hrequest, -⟩
  · rw [hrequest]
    apply hbut.finish _ (fun _ => hlocks ▸ hheld)
    exact {
      id_lt := hbut.own_lt
      seen_le := le_rfl
      keysSeen_le := le_rfl
      returned := by
        rintro value -
        unfold Returned
        simp only [hrequest]
        refine ⟨⟨s.documents.length, ?_, hok.opened_le, by omega⟩, ?_⟩
        · rw [hdocs, List.getElem?_concat_length]
        · rw [List.take_length, hkeys]
          exact hkeyed
      raised := nofun }
  · rw [hrequest]
    have hown : t.locks (domain host.backend call.object) = none ∨ t.locks (domain host.backend call.object) = some c :=
      Or.inr (hlocks ▸ hheld)
    have hfreed : InvBut host s₀ (t.setLock host call.object (if call.depth = 1 then none else some c)) c call.id :=
      hbut.setLock hown
    refine hfreed.goOn rfl ?_
    have hle := hs.depth_le
    exact {
      id_lt := hbut.own_lt
      unwritten := nofun
      unkeyed := fun hk => by
        change Unchanged s₀ t.keyLog call.id
        rw [hkeys]
        exact hok.unkeyed hk
      held := by
        intro hd
        change 0 < call.depth - 1 at hd
        change Function.update t.locks _ _ _ = some c
        rw [Function.update_self, if_neg (by omega)]
      current := by
        intro hb hd
        change 0 < call.depth - 1 at hd
        exact absurd ⟨hb, by omega⟩ hdepth
      version_le := by
        change call.version ≤ t.documents.length
        have := hok.version_le
        omega
      opened_le := by
        change call.opened ≤ t.documents.length
        have := hok.opened_le
        omega
      phase := ⟨by change call.depth - 1 ≤ 1; omega, p, rfl⟩ }

include h in
lemma inv_write (hc : s.calls c = some call) (fault : Fault)
    (hsafe : SafeCall host s c call (.write c fault)) : Inv host s₀ (write host s c call fault).2 := by
  have hok := h.calls c call hc
  unfold write
  split
  · rename_i save next hphase
    have hp := hok.phase
    unfold PhaseOk at hp
    rw [hphase] at hp
    obtain ⟨hs, hkeyed⟩ := hp
    have hsafe : SafeWrite host s c call save next fault := hsafe save next hphase
    by_cases hbody : fault = .body
    · rw [if_pos hbody]
      exact h.raise hc hs.unpublished (hsafe.failed (Or.inl hbody)) _
    rw [if_neg hbody]
    rcases hcheck : checkWrite host.backend next with error | ⟨⟩
    · exact h.raise hc hs.unpublished (hsafe.failed (Or.inr (Or.inl (by rw [hcheck]; nofun)))) error
    by_cases hnested : host.backend = .sqlite ∧ call.depth = 2
    · -- the nested save of `api_key` leaves the transaction open
      simp only [hnested, and_self, if_true, refreshSnapshot_none (hs.outside hnested.2)]
      refine (h.but hc).goOn rfl ?_
      exact {
        id_lt := hok.id_lt
        unwritten := hok.unwritten
        unkeyed := hok.unkeyed
        held := fun _ => hok.held hs.held
        current := fun hb _ => hok.current hb hs.held
        version_le := hok.version_le
        opened_le := hok.opened_le
        phase := ⟨{
          unpublished := hs.unpublished
          held := Nat.one_pos
          loaded := hs.loaded
          request := hs.request.elim (fun hr => absurd (hr.2.symm.trans hnested.2) (by decide)) Or.inr
          outside := nofun
          depth_le := Nat.le_succ 1 }, hkeyed, hnested.1, hsafe.sound⟩ }
    simp only [hnested, if_false]
    by_cases hcommit : host.backend = .sqlite ∧ fault = .commit
    · simp only [hcommit, and_self, if_true, refreshSnapshot_none (hsafe.scope hcommit.1 hcommit.2)]
      exact h.raise hc hs.unpublished
        (hsafe.failed (Or.inr (Or.inr ⟨hcommit.1, fun hd => hnested ⟨hcommit.1, hd⟩, hcommit.2⟩))) _
    simp only [hcommit, if_false]
    have hnewest : save.Reads → call.version = s.documents.length := by
      intro hreads
      cases hb : host.backend with
      | json => exact hsafe.newest hbody hb hreads
      | sqlite => exact hok.current hb hs.held
    have hdone := inv_published h hc hs hkeyed hsafe.sound hnewest hnested
    rcases hs.request with ⟨hrequest, -⟩ | ⟨p, legacy, hrequest, -⟩
    · simp only [hrequest] at hdone ⊢
      exact hdone
    · simp only [hrequest] at hdone ⊢
      exact hdone
  · exact h

include h in
lemma inv_fetch (hc : s.calls c = some call) (fault : Fault)
    (hsafe : SafeCall host s c call (.fetch c fault)) : Inv host s₀ (fetch host s c call fault).2 := by
  have hok := h.calls c call hc
  unfold fetch
  split
  · rename_i pending p hphase hrequest
    split_ifs with hbody hcommit
    · obtain ⟨hk, hpub⟩ := hsafe (Or.inl hbody)
      exact h.raise hc hpub hk _
    · obtain ⟨hk, hpub⟩ := hsafe (Or.inr hcommit)
      exact h.raise hc hpub hk _
    · have hreturned : ∀ t : System, t.keyLog = s.keyLog → ∀ value, Result.returned (keyValue (s.keys (host.target p))) =
          .returned value → Returned host s₀ t ⟨call.id, call.request, .returned (keyValue (s.keys (host.target p))),
            call.opened, t.documents.length, t.keyLog.length⟩ value := by
        intro t hkeys value hv
        unfold Returned
        simp only [hrequest]
        rw [List.take_length, hkeys, ← h.keys]
        exact (Result.returned.inj hv).symm
      have hp := hok.phase
      unfold PhaseOk at hp
      rw [hphase] at hp
      rcases pending with _ | ⟨save, next⟩
      · apply (h.but hc).finish _ hok.held
        exact {
          id_lt := hok.id_lt
          seen_le := le_rfl
          keysSeen_le := le_rfl
          returned := hreturned s rfl
          raised := nofun }
      · obtain ⟨hs, -, hb, hsound⟩ := hp
        have hheld := hok.held hs.held
        obtain ⟨change, hload⟩ := loaded_now hs fun _ => hok.current hb hs.held
        have hbut := (h.but hc).publish hload hsound fun _ => by rw [hb] at hheld; exact hheld
        apply hbut.finish _ hok.held
        exact {
          id_lt := hok.id_lt
          seen_le := le_rfl
          keysSeen_le := le_rfl
          returned := hreturned (s.publish call save next) rfl
          raised := nofun }
  · exact h

include h in
lemma inv_inCall {go : Call → Outcome × System}
    (hgo : ∀ call, s.calls c = some call → Inv host s₀ (go call).2) : Inv host s₀ (inCall s c go).2 := by
  unfold inCall
  split
  · exact h
  · exact hgo _ ‹_›

include h in
lemma inv_step (a : Action) (hsafe : Safe host s a) : Inv host s₀ (step host s a).2 := by
  cases a with
  | enter caller object fault => exact inv_enter h object fault
  | leave caller object => exact inv_leave h object
  | begin caller object request fault => exact inv_begin h object request fault
  | refresh caller fault => exact inv_inCall h fun call hc => inv_refresh h hc fault
  | credential caller fault => exact inv_inCall h fun call hc => inv_credential h hc fault (hsafe call hc)
  | write caller fault => exact inv_inCall h fun call hc => inv_write h hc fault (hsafe call hc)
  | fetch caller fault => exact inv_inCall h fun call hc => inv_fetch h hc fault (hsafe call hc)

end Steps

lemma inv_initial (h : Initial s₀) : Inv host s₀ s₀ := by
  have hdocs : documentOf host s₀ s₀.documents = s₀.stored := by rw [h.documents]; rfl
  refine { toBase := ⟨hdocs.symm, ?_, ?_, ?_, ?_, ?_, ?_, ?_⟩, calls := ?_, apart := ?_, unanswered := ?_ }
  · rw [h.keyLog]
    rfl
  · rw [h.documents]
    nofun
  · rw [h.documents]
    nofun
  · rw [h.keyLog]
    nofun
  · intro i w p hw
    rw [h.keyLog] at hw
    cases hw
  · rw [h.replies]
    nofun
  · intro c o x hx
    rw [h.snapshots] at hx
    cases hx
  · intro c call hc
    rw [h.calls] at hc
    cases hc
  · intro c c' call call' hc
    rw [h.calls] at hc
    cases hc
  · rw [h.replies]
    nofun

lemma documentOf_append (before after : List Written) :
    documentOf host s₀ (before ++ after) = documentAfter host.backend (documentOf host s₀ before) after :=
  List.foldl_append

lemma Inv.kept (h : Inv host s₀ s) : Kept host s₀ s where
  document := h.document
  keys := h.keys
  returned r hr := (h.replies r hr).returned
  raised r hr := (h.replies r hr).raised
  reflected before w after sec key hsplit hlater := by
    rw [h.document, hsplit, List.append_cons, documentOf_append]
    exact record_documentAfter hlater
  untouched before w after sec key _ ht := by
    unfold documentOf
    rw [documentAfter_concat]
    exact record_apply ht
  moved := h.moved
  plaintext p v hv := by
    rw [h.document] at hv
    exact plaintext_documentAfter h.sound hv

def jsonHost : Host := ⟨.json, fun providerId => providerId⟩

def emptySystem : System :=
  ⟨.absent, fun _ => none, fun _ => none, fun _ _ => none, fun _ => none, 0, [], [], []⟩

lemma initial_emptySystem : Initial emptySystem := ⟨fun _ => rfl, fun _ _ => rfl, fun _ => rfl, rfl, rfl, rfl⟩

def saveKey : Save := .providerSettings "openai" [("api_key", .str "secret")]

end PromptForge.ProviderSettings
