import PromptForge.ContextArtifacts

namespace PromptForge.ContextArtifacts
open Runs Tables Json JsonText

variable {host : Host}

structure Reads (read : List Dict) (saved : List Observation) : Prop where
  proper : ProperItems (read.map .obj)
  canon : canonItems (read.map .obj) = canonItems ((dicts saved).map .obj)

lemma proper_dicts (saved : List Observation) : ProperItems ((dicts saved).map .obj) := by
  refine properItems_iff.2 fun v hv => ?_
  obtain ⟨d, hd, rfl⟩ := List.mem_map.1 hv
  obtain ⟨o, -, rfl⟩ := List.mem_map.1 hd
  exact o.2

lemma Reads.append {read read' : List Dict} {saved saved' : List Observation} (h : Reads read saved)
    (h' : Reads read' saved') : Reads (read ++ read') (saved ++ saved') where
  proper := by
    rw [List.map_append]
    refine properItems_iff.2 fun v hv => ?_
    rcases List.mem_append.1 hv with hv | hv
    · exact properItems_iff.1 h.proper v hv
    · exact properItems_iff.1 h'.proper v hv
  canon := by
    have hleft := h.canon
    have hright := h'.canon
    unfold dicts at *
    simp only [canonItems_eq_map, List.map_append] at *
    rw [hleft, hright]

lemma Reads.length {read : List Dict} {saved : List Observation} (h : Reads read saved) :
    read.length = saved.length := by
  have := congrArg List.length h.canon
  unfold dicts at this
  simpa only [canonItems_eq_map, List.length_map] using this

lemma Reads.encode {read : List Dict} {saved : List Observation} (h : Reads read saved) :
    encodeObservationList host read = encodeObservationList host (dicts saved) := by
  unfold encodeObservationList dumps
  exact congrArg (fun items => String.ofList (write host.style (.arr items))) h.canon

lemma Reads.same {read : List Dict} {saved : List Observation} (h : Reads read saved) :
    same (.arr (read.map .obj)) (.arr ((dicts saved).map .obj)) = true :=
  same_of_canon _ _ h.proper (proper_dicts saved) (congrArg Value.arr h.canon)

lemma reads_dicts (saved : List Observation) : Reads (dicts saved) saved := ⟨proper_dicts saved, rfl⟩

lemma mapM_obj (ds : List Dict) : (ds.map Value.obj).mapM obj? = some ds := by
  induction ds with
  | nil => rfl
  | cons d ds ih =>
    rw [List.map_cons, List.mapM_cons, ih]
    rfl

lemma decode_encode (saved : List Observation) : ∃ read,
    decodeObservationList (encodeObservationList host (dicts saved)) = .ok read ∧ Reads read saved := by
  have hcanon : canonItems ((dicts saved).map .obj) =
      ((dicts saved).map fun d => sortEntries (canonEntries d)).map .obj := by
    rw [canonItems_eq_map, List.map_map, List.map_map]
    rfl
  refine ⟨(dicts saved).map fun d => sortEntries (canonEntries d), ?_, ?_, ?_⟩
  · unfold decodeObservationList encodeObservationList
    rw [loads_dumps host.style (v := .arr ((dicts saved).map .obj)) (proper_dicts saved)]
    simp only [canon, hcanon, mapM_obj]
  · rw [← hcanon]
    exact proper_canonItems _ (proper_dicts saved)
  · rw [← hcanon]
    exact canonItems_canonItems _

variable (host)

def Holds (row : ArtifactRow) (delta : List Observation) : Prop :=
  row.payloadJson = encodeObservationList host (dicts delta) ∧ row.deltaSha256 = host.sha256 row.payloadJson

inductive Segments (rows : List ArtifactRow) (runId : String) : Option String → List Observation → ℕ → Prop
  | root : Segments rows runId none [] 0
  | link {row : ArtifactRow} {saved delta : List Observation} {n : ℕ} (hrow : row ∈ rows)
      (hrun : row.runId = runId) (hdelta : Holds host row delta)
      (h : Segments rows runId (parent row) saved n) :
      Segments rows runId (some row.artifactId) (saved ++ delta) (n + 1)

variable {host}
variable {rows : List ArtifactRow} {runId : String}

variable (hn : (rows.map ArtifactRow.artifactId).Nodup)

include hn in
lemma eq_of_artifactId {r r' : ArtifactRow}
    (hr : r ∈ rows) (hr' : r' ∈ rows) (h : r.artifactId = r'.artifactId) : r = r' :=
  List.inj_on_of_nodup_map hn hr hr' h

include hn in
lemma artifact?_of_mem {row : ArtifactRow}
    (hrow : row ∈ rows) (hrun : row.runId = runId) : artifact? rows runId row.artifactId = some row := by
  unfold artifact?
  rcases hf : rows.find? _ with _ | r
  · exact absurd (List.find?_eq_none.1 hf row hrow) (by simp [hrun])
  · have hr := List.find?_some hf
    rw [decide_eq_true_iff] at hr
    rw [eq_of_artifactId hn (List.mem_of_find?_eq_some hf) hrow hr.1]

include hn in
lemma Segments.depth {id : Option String}
    {saved saved' : List Observation} {n n' : ℕ} (h : Segments host rows runId id saved n)
    (h' : Segments host rows runId id saved' n') : n = n' := by
  induction h generalizing saved' n' with
  | root =>
    cases h'
    rfl
  | @link row saved delta n hrow hrun hdelta h ih =>
    generalize hid : some row.artifactId = id at h'
    cases h' with
    | root => cases hid
    | @link row' saved' delta' n' hrow' _ _ h' =>
      obtain rfl := eq_of_artifactId hn hrow hrow' (Option.some.inj hid)
      exact congrArg (· + 1) (ih h')

def Below (host : Host) (rows : List ArtifactRow) (runId : String) (seen : List String) (n : ℕ) : Prop :=
  ∀ id ∈ seen, ∃ saved k, Segments host rows runId (some id) saved k ∧ n < k

lemma Below.step {seen : List String} {n : ℕ} {id : String} {saved : List Observation}
    (h : Below host rows runId seen (n + 1)) (hid : Segments host rows runId (some id) saved (n + 1)) :
    Below host rows runId (id :: seen) n := by
  refine List.forall_mem_cons.2 ⟨⟨saved, n + 1, hid, Nat.lt_succ_self n⟩, fun id' hid' => ?_⟩
  obtain ⟨saved', k, hseg, hk⟩ := h id' hid'
  exact ⟨saved', k, hseg, (Nat.lt_succ_self n).trans hk⟩

include hn in
lemma Below.not_mem {seen : List String} {n : ℕ} {id : String}
    {saved : List Observation} (h : Below host rows runId seen n)
    (hid : Segments host rows runId (some id) saved n) : id ∉ seen := by
  intro hmem
  obtain ⟨saved', k, hseg, hk⟩ := h id hmem
  exact absurd (hid.depth hn hseg) hk.ne

include hn in
lemma loadObservations_link {row : ArtifactRow}
    (hrow : row ∈ rows) (hrun : row.runId = runId) {delta : List Observation} (hdelta : Holds host row delta)
    {seen : List String} (hseen : row.artifactId ∉ seen) (left : ℕ) : ∃ read, Reads read delta ∧
      loadObservations host rows runId (left + 1) seen (some row.artifactId) =
        (loadObservations host rows runId left (row.artifactId :: seen) (parent row)).map (· ++ read) := by
  obtain ⟨hpayload, hdigest⟩ := hdelta
  obtain ⟨read, hdecode, hread⟩ := @decode_encode host delta
  refine ⟨read, hread, ?_⟩
  generalize hrest : loadObservations host rows runId left (row.artifactId :: seen) (parent row) = rest
  unfold loadObservations
  rw [if_neg hseen, artifact?_of_mem hn hrow hrun]
  dsimp only
  rw [require, if_pos hdigest.symm, hpayload, hdecode, hrest]
  cases rest <;> rfl

include hn in
lemma loadObservations_ok {id : Option String}
    {saved : List Observation} {n : ℕ} (h : Segments host rows runId id saved n) {left : ℕ} (hleft : n ≤ left)
    {seen : List String} (hseen : Below host rows runId seen n) : ∃ read, Reads read saved ∧
      loadObservations host rows runId left seen id = .ok read := by
  induction h generalizing left seen with
  | root =>
    refine ⟨[], reads_dicts [], ?_⟩
    unfold loadObservations
    rfl
  | @link row saved delta n hrow hrun hdelta h ih =>
    have hid := Segments.link hrow hrun hdelta h
    obtain ⟨left, rfl⟩ := Nat.exists_eq_succ_of_ne_zero (Nat.ne_zero_of_lt hleft)
    obtain ⟨read, hread, hload⟩ := loadObservations_link hn hrow hrun hdelta (hseen.not_mem hn hid) left
    obtain ⟨before, hbefore, hrest⟩ := ih (Nat.le_of_succ_le_succ hleft) (hseen.step hid)
    exact ⟨before ++ read, hbefore.append hread, by rw [hload, hrest]; rfl⟩

include hn in
lemma loadObservations_long {id : Option String}
    {saved : List Observation} {n : ℕ} (h : Segments host rows runId id saved n) {left : ℕ} (hleft : left < n)
    {seen : List String} (hseen : Below host rows runId seen n) :
    loadObservations host rows runId left seen id = .error .chainInvalid := by
  induction h generalizing left seen with
  | root => exact absurd hleft (Nat.not_lt_zero _)
  | @link row saved delta n hrow hrun hdelta h ih =>
    have hid := Segments.link hrow hrun hdelta h
    cases left with
    | zero =>
      unfold loadObservations
      rfl
    | succ left =>
      obtain ⟨read, -, hload⟩ := loadObservations_link hn hrow hrun hdelta (hseen.not_mem hn hid) left
      rw [hload, ih (Nat.lt_of_succ_lt_succ hleft) (hseen.step hid)]
      rfl

structure Stored (host : Host) (req : SaveRequest) (rows rows' : List ArtifactRow) (row : ArtifactRow) : Prop where
  row_eq : row = newRow host req (latest rows req.runId)
  count : req.observationCount =
    ((latest rows req.runId).map ArtifactRow.observationCount).getD 0 + req.observationDelta.length
  load : ∃ before, loadObservations host rows req.runId maxSeen []
      ((latest rows req.runId).map ArtifactRow.artifactId) = .ok before ∧
    ((before ++ dicts req.observationDelta).length : ℤ) = req.observationCount ∧
    host.sha256 (encodeObservationList host (before ++ dicts req.observationDelta)) =
      host.casefold req.contentSha256
  fresh : ∀ r ∈ rows, r.artifactId ≠ row.artifactId
  rows_eq : rows' = rows ++ [row]

lemma insertArtifact_ok {row : ArtifactRow} {rows' : List ArtifactRow}
    (h : insertArtifact row rows = .ok rows') :
    (∀ r ∈ rows, r.artifactId ≠ row.artifactId) ∧ rows' = rows ++ [row] := by
  unfold insertArtifact at h
  split at h
  · cases h
  · next hnone =>
    cases h
    refine ⟨fun r hr hid => hnone ?_, rfl⟩
    exact List.any_eq_true.2 ⟨r, hr, decide_eq_true (.inl hid)⟩

lemma storeTx_ok {req : SaveRequest} {m : Metadata} {rows' : List ArtifactRow}
    (h : storeTx host req rows = .ok (m, rows')) :
    ∃ row, Stored host req rows rows' row ∧ m = metadata row := by
  unfold storeTx at h
  obtain ⟨_, hcount, h⟩ := ok_of_bind h
  obtain ⟨before, hload, h⟩ := ok_of_bind h
  obtain ⟨_, hlength, h⟩ := ok_of_bind h
  obtain ⟨_, hdigest, h⟩ := ok_of_bind h
  obtain ⟨inserted, hinsert, h⟩ := ok_of_bind h
  obtain ⟨hfresh, rfl⟩ := insertArtifact_ok hinsert
  rcases hrefusal : req.refusal with _ | error
  · rw [hrefusal] at h
    cases h
    have hcount := of_require hcount
    unfold dicts at hcount
    rw [List.length_map] at hcount
    exact ⟨_, ⟨rfl, hcount, ⟨before, hload, of_require hlength, of_require hdigest⟩, hfresh, rfl⟩, rfl⟩
  · rw [hrefusal] at h
    cases h

lemma saveTx_ok {req : SaveRequest} {m : Metadata} {rows' : List ArtifactRow}
    (h : saveTx host req rows = .ok (m, rows')) :
    (∃ row ∈ rows, row.runId = req.runId ∧ row.contentSha256 = host.casefold req.contentSha256 ∧
      m = metadata row ∧ rows' = rows) ∨
    ∃ row, Stored host req rows rows' row ∧ m = metadata row := by
  unfold saveTx at h
  obtain ⟨_, -, h⟩ := ok_of_bind h
  obtain ⟨_, -, h⟩ := ok_of_bind h
  obtain ⟨_, -, h⟩ := ok_of_bind h
  rcases hfind : rows.find? _ with _ | existing
  · rw [hfind] at h
    exact .inr (storeTx_ok h)
  · rw [hfind] at h
    cases h
    have hkey := List.find?_some hfind
    rw [decide_eq_true_iff] at hkey
    exact .inl ⟨existing, List.mem_of_find?_eq_some hfind, hkey.1, hkey.2, rfl, rfl⟩

lemma save_cases (host : Host) (rows : List ArtifactRow) (req : SaveRequest) :
    ((∃ error, (saveContextArtifact host rows req).1 = .error error) ∧
      (saveContextArtifact host rows req).2 = rows) ∨
    (∃ row ∈ rows, row.runId = req.runId ∧ row.contentSha256 = host.casefold req.contentSha256 ∧
      saveContextArtifact host rows req = (.ok (metadata row), rows)) ∨
    ∃ row, Stored host req rows (saveContextArtifact host rows req).2 row ∧
      (saveContextArtifact host rows req).1 = .ok (metadata row) := by
  rcases hout : (saveContextArtifact host rows req).1 with error | m
  · exact .inl ⟨⟨error, rfl⟩, atomic_error hout⟩
  · obtain ⟨a, htx, rfl⟩ := atomic_ok hout
    rcases saveTx_ok htx with ⟨row, hrow, hrun, hdigest, rfl, hrows⟩ | ⟨row, hstored, rfl⟩
    · refine .inr (.inl ⟨row, hrow, hrun, hdigest, Prod.ext hout ?_⟩)
      exact hrows
    · exact .inr (.inr ⟨row, hstored, rfl⟩)

lemma latest_mem {row : ArtifactRow} (h : latest rows runId = some row) : row ∈ rows ∧ row.runId = runId := by
  have hmem := (List.mem_insertionSort _).1 (List.mem_of_mem_head? h)
  exact ⟨(List.mem_filter.1 hmem).1, of_decide_eq_true (List.mem_filter.1 hmem).2⟩

variable (host) in
structure Linked (steps : List Step) (rows : List ArtifactRow) : Prop where
  nodup : (rows.map ArtifactRow.artifactId).Nodup
  named : ∀ r ∈ rows, r.artifactId ≠ ""
  stored : ∀ e ∈ steps, ∀ m, Stores e m → ∃ r ∈ rows, r.runId = e.action.runId ∧
    Holds host r e.action.observationDelta ∧ metadata r = m
  accepted : ∀ e ∈ steps, ∀ m, e.outcome = .ok m → ∃ r ∈ rows, r.runId = e.action.runId ∧
    r.contentSha256 = host.casefold e.action.contentSha256 ∧ metadata r = m
  chained : ∀ r ∈ rows, ∃ saved n, Chain steps r.runId (some r.artifactId) saved n ∧
    r.observationCount = saved.length ∧ r.contentSha256 = host.sha256 (encodeObservationList host (dicts saved))

lemma Chain.mono {steps steps' : List Step} (hsub : ∀ e ∈ steps, e ∈ steps') {id : Option String}
    {saved : List Observation} {n : ℕ} (h : Chain steps runId id saved n) : Chain steps' runId id saved n := by
  induction h with
  | root => exact .root
  | link he hrun hs _ ih => exact .link (hsub _ he) hrun hs ih

lemma Linked.segments {steps : List Step} (hl : Linked host steps rows) {id : Option String}
    {saved : List Observation} {n : ℕ} (h : Chain steps runId id saved n) : Segments host rows runId id saved n := by
  induction h with
  | root => exact .root
  | @link e m saved n he hrun hs _ ih =>
    obtain ⟨r, hr, hrun', hholds, rfl⟩ := hl.stored e he m hs
    exact .link hr (hrun'.trans hrun) hholds ih

lemma below_nil (n : ℕ) : Below host rows runId [] n := fun _ h => absurd h List.not_mem_nil

lemma Linked.prior {steps : List Step} (hl : Linked host steps rows) (runId : String) :
    ∃ saved n, Chain steps runId ((latest rows runId).map ArtifactRow.artifactId) saved n ∧
      ((latest rows runId).map ArtifactRow.observationCount).getD 0 = saved.length := by
  rcases hlatest : latest rows runId with _ | row
  · exact ⟨[], 0, .root, rfl⟩
  · obtain ⟨hrow, rfl⟩ := latest_mem hlatest
    obtain ⟨saved, n, hchain, hcount, -⟩ := hl.chained row hrow
    exact ⟨saved, n, hchain, hcount⟩

lemma Linked.parent {steps : List Step} (hl : Linked host steps rows) (req : SaveRequest) :
    parent (newRow host req (latest rows req.runId)) = (latest rows req.runId).map ArtifactRow.artifactId := by
  rcases hlatest : latest rows req.runId with _ | row
  · rfl
  · exact if_pos (decide_eq_true (hl.named row (latest_mem hlatest).1))

lemma Linked.reads {steps : List Step} (hl : Linked host steps rows) {id : Option String}
    {saved : List Observation} {n : ℕ} (h : Chain steps runId id saved n) {before : List Dict}
    (hload : loadObservations host rows runId maxSeen [] id = .ok before) : n ≤ maxSeen ∧ Reads before saved := by
  have hseg := hl.segments h
  have hn : n ≤ maxSeen := by
    by_contra hlong
    rw [loadObservations_long hl.nodup hseg (not_le.1 hlong) (below_nil n)] at hload
    cases hload
  obtain ⟨read, hread, hload'⟩ := loadObservations_ok hl.nodup hseg hn (below_nil n)
  rw [hload] at hload'
  cases hload'
  exact ⟨hn, hread⟩

lemma artifactId_ne_empty (runId digest : String) : artifactId host runId digest ≠ "" := by
  intro h
  have hlen := congrArg String.length h
  unfold artifactId at hlen
  rw [String.length_append, show "context-".length = 8 by decide, show "".length = 0 from rfl] at hlen
  omega

lemma linked_stored {steps : List Step} (hl : Linked host steps rows) {e : Step} {rows' : List ArtifactRow}
    {row : ArtifactRow} (hs : Stored host e.action rows rows' row) (hout : e.outcome = .ok (metadata row))
    (hbefore : e.before = rows) (hafter : e.after = rows') : Linked host (steps ++ [e]) rows' := by
  obtain ⟨saved, n, hchain, -⟩ := hl.prior e.action.runId
  obtain ⟨before, hload, hlength, hdigest⟩ := hs.load
  obtain ⟨-, hread⟩ := hl.reads hchain hload
  have hrun : row.runId = e.action.runId := by rw [hs.row_eq]; rfl
  have hholds : Holds host row e.action.observationDelta := by rw [hs.row_eq]; exact ⟨rfl, rfl⟩
  have hcontent : row.contentSha256 = host.casefold e.action.contentSha256 := by rw [hs.row_eq]; rfl
  have hparent : (metadata row).parentArtifactId =
      (latest rows e.action.runId).map ArtifactRow.artifactId := by
    rw [hs.row_eq]
    exact hl.parent e.action
  have hstores : Stores e (metadata row) := by
    refine ⟨hout, ?_⟩
    rw [hbefore, hafter, hs.rows_eq, List.length_append]
    exact Nat.lt_succ_self _
  have hold {e' : Step} (he' : e' ∈ steps) : e' ∈ steps ++ [e] := List.mem_append_left _ he'
  have hkept {r : ArtifactRow} (hr : r ∈ rows) : r ∈ rows' := by
    rw [hs.rows_eq]
    exact List.mem_append_left _ hr
  have hnew : row ∈ rows' := by
    rw [hs.rows_eq]
    exact List.mem_append_right _ (List.mem_singleton_self _)
  refine ⟨?_, fun r hr => ?_, fun e' he' m hm => ?_, fun e' he' m hm => ?_, fun r hr => ?_⟩
  · rw [hs.rows_eq]
    exact nodup_map_concat hl.nodup hs.fresh
  · rw [hs.rows_eq] at hr
    rcases mem_concat.1 hr with hr | rfl
    · exact hl.named r hr
    · rw [hs.row_eq]
      exact artifactId_ne_empty _ _
  · rcases mem_concat.1 he' with he' | rfl
    · obtain ⟨r, hr, h⟩ := hl.stored e' he' m hm
      exact ⟨r, hkept hr, h⟩
    · obtain ⟨hm, -⟩ := hm
      rw [hout] at hm
      exact ⟨row, hnew, hrun, hholds, Except.ok.inj hm⟩
  · rcases mem_concat.1 he' with he' | rfl
    · obtain ⟨r, hr, h⟩ := hl.accepted e' he' m hm
      exact ⟨r, hkept hr, h⟩
    · rw [hout] at hm
      exact ⟨row, hnew, hrun, hcontent, Except.ok.inj hm⟩
  · rw [hs.rows_eq] at hr
    rcases mem_concat.1 hr with hr | rfl
    · obtain ⟨saved, n, hchain, h⟩ := hl.chained r hr
      exact ⟨saved, n, hchain.mono fun _ => hold, h⟩
    · refine ⟨saved ++ e.action.observationDelta, n + 1, ?_, ?_, ?_⟩
      · refine .link (List.mem_append_right _ (List.mem_singleton_self _)) hrun.symm hstores ?_
        rw [hparent, hrun]
        exact hchain.mono fun _ => hold
      · rw [hs.row_eq]
        change e.action.observationCount = _
        rw [← hlength, List.length_append, List.length_append, hread.length]
        unfold dicts
        rw [List.length_map]
      · rw [hcontent, ← hdigest, (hread.append (reads_dicts e.action.observationDelta)).encode]

lemma linked_same {steps : List Step} (hl : Linked host steps rows) {e : Step}
    (hafter : e.after = e.before)
    (hout : ∀ m, e.outcome = .ok m → ∃ r ∈ rows, r.runId = e.action.runId ∧
      r.contentSha256 = host.casefold e.action.contentSha256 ∧ metadata r = m) :
    Linked host (steps ++ [e]) rows := by
  refine ⟨hl.nodup, hl.named, fun e' he' m hm => ?_, fun e' he' m hm => ?_, fun r hr => ?_⟩
  · rcases mem_concat.1 he' with he' | rfl
    · exact hl.stored e' he' m hm
    · have hgrown := hm.2
      rw [hafter] at hgrown
      exact absurd hgrown (lt_irrefl _)
  · rcases mem_concat.1 he' with he' | rfl
    · exact hl.accepted e' he' m hm
    · exact hout m hm
  · obtain ⟨saved, n, hchain, h⟩ := hl.chained r hr
    exact ⟨saved, n, hchain.mono fun _ => List.mem_append_left _, h⟩

lemma linked_step {steps : List Step} (hl : Linked host steps rows) (req : SaveRequest) :
    Linked host (steps ++ [entry (saveContextArtifact host) rows req]) (saveContextArtifact host rows req).2 := by
  rcases save_cases host rows req with ⟨⟨error, hout⟩, hrows⟩ | ⟨row, hrow, hrun, hdigest, hsave⟩ |
    ⟨row, hstored, hout⟩
  · rw [hrows]
    refine linked_same hl hrows fun m hm => ?_
    rw [entry_outcome, hout] at hm
    cases hm
  · have hrows : (saveContextArtifact host rows req).2 = rows := by rw [hsave]
    rw [hrows]
    refine linked_same hl hrows fun m hm => ?_
    rw [entry_outcome, hsave] at hm
    exact ⟨row, hrow, hrun, hdigest, Except.ok.inj hm⟩
  · exact linked_stored hl hstored hout rfl rfl

variable (host) in
lemma linked (requests : List SaveRequest) :
    Linked host (history host requests) (final (saveContextArtifact host) [] requests) := by
  refine @history_of _ _ _ (saveContextArtifact host) (Linked host) (fun _ => True)
    (fun steps rows req hl _ => linked_step hl req) [] requests ?_ fun _ _ => trivial
  have hnil {τ : Type} {P : τ → Prop} (x : τ) (h : x ∈ ([] : List τ)) : P x := absurd h List.not_mem_nil
  exact ⟨List.nodup_nil, hnil, hnil, hnil, hnil⟩

include hn in
lemma contextArtifact_of_load {row : ArtifactRow} (hrow : row ∈ rows) :
    contextArtifact host rows row.runId row.artifactId = (do
      let observations ← loadObservations host rows row.runId maxSeen [] (some row.artifactId)
      let _ ← require ((observations.length : ℤ) = row.observationCount) .countMismatch
      let _ ← require (host.sha256 (encodeObservationList host observations) = row.contentSha256) .digestMismatch
      return ⟨metadata row, observations⟩) := by
  unfold contextArtifact
  rw [artifact?_of_mem hn hrow rfl]
  rfl

/-- A digest that tells lists of different lengths apart, and keeps the digest in the text an
    identity is taken from. -/
def listDigest (text : String) : String :=
  if text.toList.head? = some '[' then String.ofList (padded 40 text.length ++ List.replicate 24 '0')
  else String.ofList (text.toList.drop 2)

def listHost : Host where
  sha256 := listDigest
  casefold := id
  style := exactStyle [' '] blank_space
  spaced := rfl

def emptyObservation : Observation := ⟨[], List.nodup_nil, trivial⟩

def digestOf (k : ℕ) : String := String.ofList (padded 40 (4 * k) ++ List.replicate 24 '0')

lemma length_writeItems (k : ℕ) :
    (writeItems listHost.style (List.replicate (k + 1) (.obj []))).length = 4 * k + 2 := by
  induction k with
  | zero => rfl
  | succ k ih =>
    rw [List.replicate_succ] at ih ⊢
    rw [List.replicate_succ]
    change (write listHost.style (.obj []) ++ ',' :: (listHost.style.gap ++
      writeItems listHost.style (.obj [] :: List.replicate k (.obj [])))).length = _
    rw [List.length_append, List.length_cons, List.length_append, ih, listHost.spaced]
    change 2 + (1 + (4 * k + 2) + 1) = _
    omega

lemma canonItems_replicate (k : ℕ) :
    canonItems ((dicts (List.replicate k emptyObservation)).map .obj) = List.replicate k (.obj []) := by
  unfold dicts
  rw [List.map_replicate, List.map_replicate, canonItems_eq_map, List.map_replicate]
  rfl

lemma encode_replicate (k : ℕ) : encodeObservationList listHost (dicts (List.replicate k emptyObservation)) =
    String.ofList ('[' :: (writeItems listHost.style (List.replicate k (.obj [])) ++ [']'])) := by
  rw [← canonItems_replicate]
  rfl

lemma digest_replicate (k : ℕ) : listDigest (encodeObservationList listHost
    (dicts (List.replicate (k + 1) emptyObservation))) = digestOf (k + 1) := by
  rw [encode_replicate]
  unfold listDigest digestOf
  rw [String.toList_ofList, List.head?_cons, if_pos rfl, String.length_ofList, List.length_cons,
    List.length_append, length_writeItems]
  rfl

lemma isDigest_digestOf {k : ℕ} (hk : 4 * k < 10 ^ 40) : isDigest (digestOf k) = true := by
  have hhex : ∀ c : Char, c.isDigit = true → "0123456789abcdef".toList.contains c = true := by
    intro c hc
    have hrange : 48 ≤ c.toNat ∧ c.toNat ≤ 57 := by
      simp only [Char.isDigit, Bool.and_eq_true, decide_eq_true_eq] at hc
      exact hc
    rw [← Char.ofNat_toNat c]
    generalize c.toNat = n at hrange
    obtain ⟨hlow, hhigh⟩ := hrange
    interval_cases n <;> rfl
  unfold isDigest digestOf
  rw [String.length_ofList, String.toList_ofList, List.length_append, length_padded (by decide) hk,
    List.length_replicate]
  refine List.all_eq_true.2 fun c hc => hhex c ?_
  rcases List.mem_append.1 hc with hc | hc
  · exact isDigit_padded 40 _ c hc
  · rw [List.eq_of_mem_replicate hc]
    rfl

lemma digestOf_inj {j k : ℕ} (h : digestOf j = digestOf k) : j = k := by
  have hpadded := List.append_cancel_right (String.ofList_injective h)
  have hnumber := congrArg number hpadded
  rw [number_padded, number_padded] at hnumber
  omega

def idOf (k : ℕ) : String := "context-" ++ String.ofList (padded 40 (4 * k))

lemma artifactId_digestOf {k : ℕ} (hk : 4 * k < 10 ^ 40) : artifactId listHost "r" (digestOf k) = idOf k := by
  have htext : ("r" ++ ":" ++ digestOf k).toList = 'r' :: ':' :: (digestOf k).toList := by
    rw [String.toList_append]
    rfl
  unfold artifactId idOf
  change "context-" ++ String.ofList ((listDigest ("r" ++ ":" ++ digestOf k)).toList.take 40) = _
  unfold listDigest
  rw [htext, if_neg (head_ne (by decide) _), String.toList_ofList, List.drop_succ_cons, List.drop_succ_cons,
    List.drop_zero, digestOf, String.toList_ofList, List.take_left' (length_padded (by decide) hk)]

lemma idOf_inj {j k : ℕ} (h : idOf j = idOf k) : j = k := by
  have hlist := congrArg String.toList h
  unfold idOf at hlist
  simp only [String.toList_append, String.toList_ofList] at hlist
  have hnumber := congrArg number (List.append_cancel_left hlist)
  rw [number_padded, number_padded] at hnumber
  omega

def longRequest (k : ℕ) : SaveRequest where
  runId := "r"
  sessionId := "s"
  observationCount := k + 1
  contentSha256 := digestOf (k + 1)
  observationDelta := [emptyObservation]
  createdAt := ""
  refusal := none

def longId (k : ℕ) : Option String := if k = 0 then none else some (idOf k)

def longRow (k : ℕ) : ArtifactRow where
  artifactId := idOf (k + 1)
  runId := "r"
  sessionId := "s"
  parentArtifactId := longId k
  observationCount := k + 1
  contentSha256 := digestOf (k + 1)
  deltaSha256 := listDigest (encodeObservationList listHost (dicts [emptyObservation]))
  payloadJson := encodeObservationList listHost (dicts [emptyObservation])
  createdAt := ""

def longRows (k : ℕ) : List ArtifactRow := (List.range k).map longRow

lemma mem_longRows {k : ℕ} {r : ArtifactRow} (h : r ∈ longRows k) : ∃ j < k, r = longRow j := by
  obtain ⟨j, hj, rfl⟩ := List.mem_map.1 h
  exact ⟨j, List.mem_range.1 hj, rfl⟩

lemma longRow_mem {j k : ℕ} (h : j < k) : longRow j ∈ longRows k :=
  List.mem_map_of_mem (List.mem_range.2 h)

lemma nodup_longRows (k : ℕ) : ((longRows k).map ArtifactRow.artifactId).Nodup := by
  unfold longRows
  rw [List.map_map]
  refine List.Nodup.map (fun i j h => ?_) List.nodup_range
  exact Nat.succ_injective (idOf_inj h)

lemma idOf_ne_empty (k : ℕ) : idOf k ≠ "" := by
  intro h
  have hlength := congrArg String.length h
  unfold idOf at hlength
  rw [String.length_append, show "context-".length = 8 by decide, show "".length = 0 from rfl] at hlength
  omega

lemma parent_longRow (k : ℕ) : parent (longRow k) = longId k := by
  cases k with
  | zero => rfl
  | succ k =>
    change (some (idOf (k + 1))).filter (· ≠ "") = some (idOf (k + 1))
    simp [Option.filter, idOf_ne_empty]

lemma segments_longRows {j k : ℕ} (h : j ≤ k) :
    Segments listHost (longRows k) "r" (longId j) (List.replicate j emptyObservation) j := by
  induction j with
  | zero => exact .root
  | succ j ih =>
    have hrest := ih (Nat.le_of_succ_le h)
    rw [← parent_longRow] at hrest
    rw [List.replicate_succ']
    exact @Segments.link _ _ _ (longRow j) _ _ _ (longRow_mem h) rfl ⟨rfl, rfl⟩ hrest

instance : Std.Total newer := ⟨fun a b => by
  unfold newer
  rcases lt_trichotomy a.observationCount b.observationCount with h | h | h
  · exact .inr (.inl h)
  · rcases String.le_total a.createdAt b.createdAt with ht | ht
    · exact .inr (.inr ⟨h.symm, ht⟩)
    · exact .inl (.inr ⟨h, ht⟩)
  · exact .inl (.inl h)⟩

instance : IsTrans ArtifactRow newer := ⟨fun a b c hab hbc => by
  unfold newer at *
  rcases hab with hab | ⟨hab, ht⟩
  · rcases hbc with hbc | ⟨hbc, -⟩
    · exact .inl (hbc.trans hab)
    · exact .inl (hbc ▸ hab)
  · rcases hbc with hbc | ⟨hbc, ht'⟩
    · exact .inl (hab ▸ hbc)
    · exact .inr ⟨hab.trans hbc, String.le_trans ht' ht⟩⟩

lemma latest_of_max {row : ArtifactRow} (hrow : row ∈ rows) (hrun : row.runId = runId)
    (hmax : ∀ r ∈ rows, r = row ∨ r.observationCount < row.observationCount) :
    latest rows runId = some row := by
  have hmem : row ∈ (rows.filter fun r => decide (r.runId = runId)).insertionSort newer :=
    (List.mem_insertionSort _).2 (List.mem_filter.2 ⟨hrow, decide_eq_true hrun⟩)
  have hsorted := List.pairwise_insertionSort newer (rows.filter fun r => decide (r.runId = runId))
  have hsub : ∀ r ∈ (rows.filter fun r => decide (r.runId = runId)).insertionSort newer, r ∈ rows :=
    fun r hr => (List.mem_filter.1 ((List.mem_insertionSort _).1 hr)).1
  unfold latest
  generalize (rows.filter fun r => decide (r.runId = runId)).insertionSort newer = sorted at *
  rcases sorted with _ | ⟨first, rest⟩
  · cases hmem
  · rcases hmax first (hsub first (List.mem_cons_self ..)) with rfl | hlt
    · rfl
    · rcases List.mem_cons.1 hmem with rfl | hmem
      · exact absurd hlt (lt_irrefl _)
      · rcases (List.pairwise_cons.1 hsorted).1 row hmem with hcount | ⟨hcount, -⟩
        · exact absurd hcount hlt.not_gt
        · exact absurd hcount hlt.ne

lemma latest_longRows (k : ℕ) :
    (latest (longRows k) "r").map ArtifactRow.artifactId = longId k ∧
      ((latest (longRows k) "r").map ArtifactRow.observationCount).getD 0 = k := by
  cases k with
  | zero => exact ⟨rfl, rfl⟩
  | succ k =>
    have hlatest : latest (longRows (k + 1)) "r" = some (longRow k) := by
      refine latest_of_max (longRow_mem (Nat.lt_succ_self k)) rfl fun r hr => ?_
      obtain ⟨j, hj, rfl⟩ := mem_longRows hr
      rcases (Nat.le_of_lt_succ hj).eq_or_lt with rfl | hlt
      · exact .inl rfl
      · refine .inr ?_
        change (j : ℤ) + 1 < (k : ℤ) + 1
        omega
    rw [hlatest]
    exact ⟨rfl, rfl⟩

lemma newRow_longRequest {k : ℕ} (hk : 4 * (k + 1) < 10 ^ 40) :
    newRow listHost (longRequest k) (latest (longRows k) (longRequest k).runId) = longRow k := by
  change { longRow k with
    artifactId := artifactId listHost "r" (digestOf (k + 1))
    parentArtifactId := (latest (longRows k) "r").map ArtifactRow.artifactId } = longRow k
  rw [artifactId_digestOf hk, (latest_longRows k).1]
  rfl

lemma storeTx_longRequest {k : ℕ} (hk : k ≤ maxSeen) : storeTx listHost (longRequest k) (longRows k) =
    .ok (metadata (longRow k), longRows (k + 1)) := by
  have hsmall : 4 * (k + 1) < 10 ^ 40 := by unfold maxSeen at hk; omega
  obtain ⟨hid, hcount⟩ := latest_longRows k
  obtain ⟨before, hread, hload⟩ := loadObservations_ok (nodup_longRows k)
    (segments_longRows (le_refl k)) hk (below_nil k)
  have hall : Reads (before ++ dicts [emptyObservation]) (List.replicate (k + 1) emptyObservation) := by
    rw [List.replicate_succ']
    exact hread.append (reads_dicts _)
  have hinsert : insertArtifact (longRow k) (longRows k) = .ok (longRows (k + 1)) := by
    unfold insertArtifact
    rw [if_neg]
    · unfold longRows
      rw [List.range_succ, List.map_append]
      rfl
    · intro h
      obtain ⟨r, hr, hsame⟩ := List.any_eq_true.1 h
      obtain ⟨j, hj, rfl⟩ := mem_longRows hr
      rcases of_decide_eq_true hsame with hsame | ⟨-, hsame | hsame⟩
      · exact absurd (Nat.succ_injective (idOf_inj hsame)) hj.ne
      · exact absurd (Nat.succ_injective (digestOf_inj hsame)) hj.ne
      · change (j : ℤ) + 1 = (k : ℤ) + 1 at hsame
        omega
  have hgap : (longRequest k).observationCount =
      ((latest (longRows k) "r").map ArtifactRow.observationCount).getD 0 + (dicts [emptyObservation]).length := by
    rw [hcount]
    rfl
  have hlength : ((before ++ dicts [emptyObservation]).length : ℤ) = (longRequest k).observationCount := by
    rw [hall.length, List.length_replicate]
    rfl
  have hdigest : listHost.sha256 (encodeObservationList listHost (before ++ dicts [emptyObservation])) =
      listHost.casefold (longRequest k).contentSha256 := by
    rw [hall.encode]
    exact digest_replicate k
  unfold storeTx
  refine (require_bind hgap _ _).trans ?_
  change (loadObservations listHost (longRows k) "r" maxSeen []
    ((latest (longRows k) "r").map ArtifactRow.artifactId) >>= _) = _
  rw [hid, hload]
  refine (require_bind hlength _ _).trans ((require_bind hdigest _ _).trans ?_)
  rw [newRow_longRequest hsmall, hinsert]
  rfl

lemma save_longRequest {k : ℕ} (hk : k ≤ maxSeen) :
    saveContextArtifact listHost (longRows k) (longRequest k) =
      (.ok (metadata (longRow k)), longRows (k + 1)) := by
  have hsmall : 4 * (k + 1) < 10 ^ 40 := by unfold maxSeen at hk; omega
  have hnew : (longRows k).find? (fun r => decide (r.runId = "r" ∧ r.contentSha256 = digestOf (k + 1))) = none := by
    refine List.find?_eq_none.2 fun r hr h => ?_
    obtain ⟨j, hj, rfl⟩ := mem_longRows hr
    exact absurd (Nat.succ_injective (digestOf_inj (of_decide_eq_true h).2)) hj.ne
  have hvalid : 1 ≤ (longRequest k).observationCount ∧
      isDigest (listHost.casefold (longRequest k).contentSha256) = true := by
    refine ⟨?_, isDigest_digestOf hsmall⟩
    change (1 : ℤ) ≤ k + 1
    omega
  have hsize : (encodeObservationList listHost (dicts (longRequest k).observationDelta)).utf8ByteSize ≤
      4 * 1024 * 1024 := by
    change (encodeObservationList listHost (dicts [emptyObservation])).utf8ByteSize ≤ 4 * 1024 * 1024
    decide +kernel
  refine atomic_of_ok (f := id) ?_
  unfold saveTx
  refine (require_bind hvalid _ _).trans ((require_bind rfl _ _).trans ((require_bind hsize _ _).trans ?_))
  change ((longRows k).find? (fun r => decide (r.runId = "r" ∧ r.contentSha256 = digestOf (k + 1)))).elim
    (storeTx listHost (longRequest k) (longRows k)) _ = _
  rw [hnew]
  exact storeTx_longRequest hk

lemma final_longRequests {n : ℕ} (hn : n ≤ maxSeen + 1) :
    final (saveContextArtifact listHost) [] ((List.range n).map longRequest) = longRows n := by
  induction n with
  | zero => rfl
  | succ n ih =>
    rw [List.range_succ, List.map_append, final_append, ih (Nat.le_of_succ_le hn)]
    change (saveContextArtifact listHost (longRows n) (longRequest n)).2 = _
    rw [save_longRequest (Nat.le_of_succ_le_succ hn)]

lemma last_longRequest {n : ℕ} (hn : n ≤ maxSeen) : entry (saveContextArtifact listHost) (longRows n) (longRequest n) ∈
    history listHost ((List.range (n + 1)).map longRequest) := by
  rw [List.range_succ, List.map_append, history, trace_append, final_longRequests (Nat.le_succ_of_le hn)]
  exact List.mem_append_right _ (List.mem_singleton_self _)

lemma outcome_longRequest {n : ℕ} (hn : n ≤ maxSeen) :
    (entry (saveContextArtifact listHost) (longRows n) (longRequest n)).outcome = .ok (metadata (longRow n)) := by
  rw [entry_outcome, save_longRequest hn]

end PromptForge.ContextArtifacts
