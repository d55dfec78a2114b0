import Mathlib.Data.List.Induction
import Mathlib.Tactic.SplitIfs
import PromptForge.ChatViews

namespace PromptForge.ChatViews
open Tables

variable {v v' s latest : Session} {k k' l : Key} {old incoming m : Message} {event : Packet}

lemma Advances.id_eq (h : Advances k k') : k.1 = k'.1 := by cases h <;> rfl

lemma not_ended_streaming : ¬Ended (some "streaming") := by unfold Ended; decide

lemma Advances.trans (h : Advances k k') (h' : Advances k' l) : Advances k l := by
  cases h with
  | stays => exact h'
  | grows hgrows =>
    cases h' with
    | stays => exact .grows hgrows
    | grows hmore => exact .grows (hgrows.trans hmore)
    | ends hended => exact .ends hended
  | ends hended =>
    cases h' with
    | stays => exact .ends hended
    | grows => exact absurd hended not_ended_streaming
    | ends => exact absurd hended not_ended_streaming

lemma merge_either (old incoming : Message) :
    mergeChatMessage (some old) incoming = old ∨ mergeChatMessage (some old) incoming = incoming := by
  unfold mergeChatMessage
  dsimp only
  split_ifs <;> simp

lemma merge_eq_of_ended (hold : Ended old.status) (hincoming : incoming.status = some "streaming") :
    mergeChatMessage (some old) incoming = old := by
  unfold mergeChatMessage
  dsimp only
  rw [if_pos ⟨hold, by rw [hincoming]; rfl⟩]

lemma merge_eq_of_streaming (hold : old.status = some "streaming") :
    mergeChatMessage (some old) incoming =
      if incoming.status.getD "" = "streaming" ∧ incoming.content.length < old.content.length then old else incoming := by
  have hnot : "streaming" ∉ terminal := by decide
  simp [mergeChatMessage, hold, hnot]

lemma key_streaming {id : String} {text : List UInt16} (h : m.key = (id, text, some "streaming")) :
    m.content = text ∧ m.status = some "streaming" :=
  ⟨congrArg (·.2.1) h, congrArg (·.2.2) h⟩

lemma merge_latest (h : Advances old.key incoming.key) : (mergeChatMessage (some old) incoming).key = incoming.key := by
  generalize hold : old.key = k, hincoming : incoming.key = k' at h
  cases h with
  | stays =>
    rcases merge_either old incoming with h | h <;> rw [h]
    · exact hold
    · exact hincoming
  | grows hgrows =>
    obtain ⟨htext, hstatus⟩ := key_streaming hold
    rw [merge_eq_of_streaming hstatus, if_neg, hincoming]
    rintro ⟨-, hlonger⟩
    rw [htext, (key_streaming hincoming).1] at hlonger
    exact absurd hgrows.length_le (Nat.not_le.mpr hlonger)
  | ends hended =>
    rw [merge_eq_of_streaming (key_streaming hold).2, if_neg, hincoming]
    rintro ⟨hstreams, -⟩
    rw [show incoming.status = _ from congrArg (fun k : Key => k.2.2) hincoming] at hstreams
    exact absurd hended (by unfold Ended; rw [hstreams]; decide)

lemma merge_older (h : Advances incoming.key old.key) : (mergeChatMessage (some old) incoming).key = old.key := by
  generalize hold : old.key = k, hincoming : incoming.key = k' at h
  cases h with
  | stays =>
    rcases merge_either old incoming with h | h <;> rw [h]
    · exact hold
    · exact hincoming
  | grows hgrows =>
    obtain ⟨htext, hstatus⟩ := key_streaming hincoming
    rw [merge_eq_of_streaming (key_streaming hold).2]
    split_ifs with hlonger
    · exact hold
    · rw [hincoming, hgrows.eq_of_length_le]
      rw [← htext, ← (key_streaming hold).1]
      exact Nat.not_lt.mp fun hlt => hlonger ⟨by rw [hstatus]; rfl, hlt⟩
  | ends hended =>
    have hstatus : old.status = _ := congrArg (fun k : Key => k.2.2) hold
    rw [merge_eq_of_ended (by rw [hstatus]; exact hended) (key_streaming hincoming).2]
    exact hold

lemma merge_of_ended (h : Ended old.status) : (mergeChatMessage (some old) incoming).status ≠ some "streaming" := by
  intro hstreams
  by_cases hincoming : incoming.status = some "streaming"
  · rw [merge_eq_of_ended h hincoming] at hstreams
    exact not_ended_streaming (hstreams ▸ h)
  · rcases merge_either old incoming with hold | hnew
    · exact not_ended_streaming (by rw [← hstreams, hold]; exact h)
    · exact hincoming (hnew ▸ hstreams)

lemma merge_id (messages : List Message) (m : Message) :
    (mergeChatMessage (lookup Message.messageId messages m.messageId) m).messageId = m.messageId := by
  cases hold : lookup Message.messageId messages m.messageId with
  | none => rfl
  | some old =>
    rcases merge_either old m with h | h <;> rw [h]
    exact lookup_key hold

lemma foldl_setMessage (known messages : List Message) (h : ((known ++ messages).map Message.messageId).Nodup) :
    messages.foldl setMessage known = known ++ messages := by
  induction messages generalizing known with
  | nil => exact (List.append_nil _).symm
  | cons message rest ih =>
    have hfresh : lookup Message.messageId known message.messageId = none := by
      refine lookup_eq_none.mpr fun other hother hsame => ?_
      exact (apart_of_split h).1 other hother hsame
    rw [List.foldl_cons, setMessage, hfresh, if_neg (by simp), ih _ (by simpa using h), List.append_assoc]
    rfl

lemma mergeMessages_eq (known incoming : List Message) (h : (incoming.map Message.messageId).Nodup) :
    mergeMessages known incoming =
      (incoming.map fun m => mergeChatMessage (lookup Message.messageId known m.messageId) m,
        known.filter fun m => decide (m.messageId ∉ incoming.map Message.messageId)) := by
  induction incoming generalizing known with
  | nil => simp [mergeMessages]
  | cons message rest ih =>
    obtain ⟨hother, hrest⟩ := nodup_map_cons h
    rw [mergeMessages, ih _ hrest]
    refine congrArg₂ (fun messages left => (_ :: messages, left)) (List.map_congr_left fun m hm => ?_) ?_
    · rw [lookup_deleteRow, if_neg (hother m hm)]
    · simp only [deleteRow, List.filter_filter]
      refine List.filter_congr fun m _ => ?_
      by_cases hrest : m.messageId ∈ rest.map Message.messageId <;> simp [hrest]

lemma mergeChatSession_messages (hsame : v.sessionId = s.sessionId) (hv : (v.messages.map Message.messageId).Nodup)
    (hs : (s.messages.map Message.messageId).Nodup) :
    (mergeChatSession (some v) s).messages =
      s.messages.map (fun m => mergeChatMessage (lookup Message.messageId v.messages m.messageId) m) ++
        v.messages.filter fun m => decide (m.messageId ∉ s.messages.map Message.messageId) := by
  simp [mergeChatSession, hsame, foldl_setMessage [] v.messages (by simpa using hv), mergeMessages_eq _ _ hs]

lemma Follows.refl (s : Session) : Follows s s := ⟨rfl, List.prefix_refl _, fun m hm => ⟨m, hm, .stays _⟩⟩

lemma Follows.trans (h : Follows s v) (h' : Follows v v') : Follows s v' where
  same := h.same.trans h'.same
  appended := h.appended.trans h'.appended
  advances := by
    intro m hm
    obtain ⟨m', hm', hadvances⟩ := h.advances m hm
    obtain ⟨m'', hm'', hmore⟩ := h'.advances m' hm'
    exact ⟨m'', hm'', hadvances.trans hmore⟩

instance : Trans Follows Follows Follows := ⟨Follows.trans⟩

lemma History.follows_latest {earlier : List Session} (h : History earlier latest) (hs : s ∈ earlier ++ [latest]) : Follows s latest := by
  rcases List.mem_append.mp hs with hearlier | hlast
  · exact (List.pairwise_append.mp (List.isChain_iff_pairwise.mp h.follows)).2.2 s hearlier latest (List.mem_singleton.mpr rfl)
  · obtain rfl := List.mem_singleton.mp hlast
    exact .refl _

structure Sound (v latest : Session) : Prop where
  same : v.sessionId = latest.sessionId
  nodup : (v.messages.map Message.messageId).Nodup
  advances : ∀ m ∈ v.messages, ∃ m' ∈ latest.messages, Advances m.key m'.key

lemma Follows.sound (h : Follows s latest) (hs : (s.messages.map Message.messageId).Nodup) : Sound s latest := ⟨h.same, hs, h.advances⟩

lemma keys_eq {messages latest : List Message} (hids : messages.map Message.messageId = latest.map Message.messageId)
    (hnodup : (latest.map Message.messageId).Nodup) (h : ∀ m ∈ messages, ∃ m' ∈ latest, m.key = m'.key) :
    messages.map Message.key = latest.map Message.key := by
  induction messages generalizing latest with
  | nil =>
    cases latest with
    | nil => rfl
    | cons l ls => cases hids
  | cons m ms ih =>
    cases latest with
    | nil => cases hids
    | cons l ls =>
      obtain ⟨hid, hrest⟩ := List.cons_eq_cons.mp hids
      obtain ⟨hother, hls⟩ := nodup_map_cons hnodup
      obtain ⟨m', hm', hkey⟩ := h m (List.mem_cons_self ..)
      rcases List.mem_cons.mp hm' with rfl | hm'
      · refine List.cons_eq_cons.mpr ⟨hkey, ih hrest hls fun x hx => ?_⟩
        obtain ⟨x', hx', hkey'⟩ := h x (List.mem_cons_of_mem _ hx)
        rcases List.mem_cons.mp hx' with rfl | hx'
        · obtain ⟨y, hy, hsame⟩ := List.mem_map.mp (hrest ▸ List.mem_map_of_mem hx)
          exact absurd (hsame.trans (congrArg Prod.fst hkey')) (hother y hy)
        · exact ⟨x', hx', hkey'⟩
      · exact absurd ((congrArg Prod.fst hkey).symm.trans hid) (hother m' hm')

lemma lookup_sound (hv : Sound v latest) (hlatest : (latest.messages.map Message.messageId).Nodup) (hm : m ∈ latest.messages)
    (hold : lookup Message.messageId v.messages m.messageId = some old) : Advances old.key m.key := by
  obtain ⟨m', hm', hadvances⟩ := hv.advances old (lookup_mem hold)
  have hid : m'.messageId = m.messageId := (show old.messageId = m'.messageId from hadvances.id_eq).symm.trans (lookup_key hold)
  exact List.inj_on_of_nodup_map hlatest hm' hm hid ▸ hadvances

def ids (s : Session) : List String := s.messages.map Message.messageId

def AtLatest (v latest : Session) : Prop := v.messages.map Message.key = latest.messages.map Message.key

lemma AtLatest.ids_eq (h : AtLatest v latest) : ids v = ids latest := by
  have hmap := congrArg (List.map Prod.fst) h
  rwa [List.map_map, List.map_map] at hmap

lemma AtLatest.exists_key (h : AtLatest v latest) (hm : m ∈ v.messages) : ∃ m' ∈ latest.messages, m.key = m'.key := by
  obtain ⟨m', hm', hsame⟩ := List.mem_map.mp (h ▸ List.mem_map_of_mem hm)
  exact ⟨m', hm', hsame.symm⟩

structure Merged (s v v' : Session) : Prop where
  same : v'.sessionId = v.sessionId
  nodup : (ids v').Nodup
  kept : ids v ⊆ ids v'
  mem : ∀ m ∈ v'.messages, m ∈ v.messages ∨
    ∃ x, (∃ y ∈ s.messages, y.key = x.key) ∧ m = mergeChatMessage (lookup Message.messageId v.messages x.messageId) x

section
variable (h : Merged s v v') (hv : Sound v latest) (hs : Follows s latest)
include h hv

lemma Merged.sound (hs : Follows s latest) : Sound v' latest where
  same := h.same.trans hv.same
  nodup := h.nodup
  advances := by
    intro m hm
    rcases h.mem m hm with hm | ⟨x, ⟨y, hy, hkey⟩, rfl⟩
    · exact hv.advances m hm
    · cases hold : lookup Message.messageId v.messages x.messageId with
      | none => exact hkey ▸ hs.advances y hy
      | some old =>
        rcases merge_either old x with h | h <;> rw [h]
        · exact hv.advances old (lookup_mem hold)
        · exact hkey ▸ hs.advances y hy

lemma Merged.keeps : Keeps v v' := by
  refine fun m hm => ⟨List.mem_map.mp (h.kept (List.mem_map_of_mem hm)), fun m' hm' hid hended => ?_⟩
  rcases h.mem m' hm' with hm' | ⟨x, -, rfl⟩
  · rw [List.inj_on_of_nodup_map hv.nodup hm' hm hid]
    exact fun hstreams => not_ended_streaming (hstreams ▸ hended)
  · have hold : lookup Message.messageId v.messages x.messageId = some m := by
      rw [← merge_id v.messages x, hid]
      exact lookup_of_mem hv.nodup hm
    rw [hold]
    exact merge_of_ended hended

/-- Once the view agrees with the latest state, nothing older changes it. -/
lemma Merged.atLatest (hs : Follows s latest) (hl : (ids latest).Nodup) (hat : AtLatest v latest) (hids : ids v' = ids latest) :
    AtLatest v' latest := by
  refine keys_eq hids hl fun m hm => ?_
  rcases h.mem m hm with hm | ⟨x, ⟨y, hy, hkey⟩, rfl⟩
  · exact hat.exists_key hm
  · obtain ⟨m', hm', hadvances⟩ := hs.advances y hy
    obtain ⟨old, hold, hsame⟩ := List.mem_map.mp (hat.symm ▸ List.mem_map_of_mem hm')
    rw [hkey] at hadvances
    have hid : x.messageId = old.messageId := (show x.messageId = m'.messageId from hadvances.id_eq).trans (congrArg Prod.fst hsame).symm
    rw [hid, lookup_of_mem hv.nodup hold]
    exact ⟨m', hm', (merge_older (hsame ▸ hadvances)).trans hsame⟩

end

/-! ## A snapshot arrives -/

section
variable (hv : Sound v latest) (hs : Follows s latest) (hsn : (ids s).Nodup)
include hv hs hsn

lemma ids_merged : ids (mergeChatSession (some v) s) = ids s ++ (ids v).filter fun id => decide (id ∉ ids s) := by
  rw [ids, mergeChatSession_messages (hv.same.trans hs.same.symm) hv.nodup hsn, List.map_append, List.map_map, ids, ids, List.filter_map]
  exact congrArg (· ++ _) (List.map_congr_left fun m _ => merge_id v.messages m)

lemma merged_snapshot : Merged s v (mergeChatSession (some v) s) where
  same := by simp [mergeChatSession, hv.same.trans hs.same.symm]
  nodup := by
    rw [ids_merged hv hs hsn]
    refine List.Nodup.append hsn (hv.nodup.filter _) fun id hid hother => ?_
    exact of_decide_eq_true (List.mem_filter.mp hother).2 hid
  kept := by
    intro id hid
    rw [ids_merged hv hs hsn]
    by_cases hknown : id ∈ ids s
    · exact List.mem_append_left _ hknown
    · exact List.mem_append_right _ (List.mem_filter.mpr ⟨hid, decide_eq_true hknown⟩)
  mem := by
    intro m hm
    rw [mergeChatSession_messages (hv.same.trans hs.same.symm) hv.nodup hsn] at hm
    rcases List.mem_append.mp hm with hm | hm
    · obtain ⟨x, hx, rfl⟩ := List.mem_map.mp hm
      exact .inr ⟨x, ⟨x, hx, rfl⟩, rfl⟩
    · exact .inl (List.mem_of_mem_filter hm)

lemma shown_snapshot : (Delivery.snapshot s).Shown (mergeChatSession (some v) s) := by
  intro m hm
  have hmem : m.messageId ∈ ids (mergeChatSession (some v) s) := by
    rw [ids_merged hv hs hsn]
    exact List.mem_append_left _ (List.mem_map_of_mem hm)
  exact List.mem_map.mp hmem

lemma ids_snapshot (hl : (ids latest).Nodup) (h : AtLatest v latest) : ids (mergeChatSession (some v) s) = ids latest := by
  obtain ⟨rest, hrest⟩ : ∃ rest, ids s ++ rest = ids latest := hs.appended
  have hdisjoint := List.disjoint_of_nodup_append (show (ids s ++ rest).Nodup from hrest.symm ▸ hl)
  have hold : (ids s).filter (fun id => decide (id ∉ ids s)) = [] := List.filter_eq_nil_iff.mpr fun id hid => by simpa using hid
  have hnew : rest.filter (fun id => decide (id ∉ ids s)) = rest :=
    List.filter_eq_self.mpr fun id hid => decide_eq_true fun hknown => hdisjoint hknown hid
  rw [ids_merged hv hs hsn, h.ids_eq, ← hrest, List.filter_append, hold, hnew, List.nil_append]

end

/-- The snapshot of the latest state. -/
lemma AtLatest.arrive (hv : Sound v latest) (hl : (ids latest).Nodup) : AtLatest (mergeChatSession (some v) latest) latest := by
  have hknown : ∀ m ∈ v.messages, m.messageId ∈ ids latest := fun m hm => by
    obtain ⟨m', hm', hadvances⟩ := hv.advances m hm
    exact (show m.messageId = m'.messageId from hadvances.id_eq) ▸ List.mem_map_of_mem hm'
  have hnone : v.messages.filter (fun m => decide (m.messageId ∉ ids latest)) = [] :=
    List.filter_eq_nil_iff.mpr fun m hm => by simpa using hknown m hm
  unfold AtLatest
  rw [mergeChatSession_messages hv.same hv.nodup hl]
  change (_ ++ v.messages.filter fun m => decide (m.messageId ∉ ids latest)).map _ = _
  rw [hnone, List.append_nil, List.map_map]
  refine List.map_congr_left fun m hm => ?_
  cases hold : lookup Message.messageId v.messages m.messageId with
  | none => simp [hold, mergeChatMessage]
  | some old => simpa [hold] using merge_latest (lookup_sound hv hl hm hold)

/-! ## A packet arrives -/

lemma ids_receive (event : Packet) (messages : List Message) :
    (receive event messages).map Message.messageId =
      messages.map Message.messageId ++ if event.messageId ∈ messages.map Message.messageId then [] else [event.messageId] := by
  induction messages with
  | nil => rfl
  | cons old rest ih =>
    unfold receive
    split_ifs with hsame hmem hmem
    · have hid : (mergeChatMessage (some old) (event.message (some old))).messageId = old.messageId := by
        rcases merge_either old (event.message (some old)) with h | h <;> rw [h]
        exact hsame.symm
      rw [List.map_cons, hid, List.append_nil, List.map_cons]
    · exact absurd (hsame ▸ List.mem_cons_self ..) hmem
    · rw [List.map_cons, ih, if_pos, List.map_cons, List.cons_append]
      exact (List.mem_cons.mp hmem).resolve_left fun h => hsame h.symm
    · rw [List.map_cons, ih, if_neg fun h => hmem (List.mem_cons_of_mem _ h), List.map_cons, List.cons_append]

lemma mem_receive {messages : List Message} (h : m ∈ receive event messages) :
    m ∈ messages ∨ m = mergeChatMessage (lookup Message.messageId messages event.messageId)
      (event.message (lookup Message.messageId messages event.messageId)) := by
  induction messages with
  | nil => exact .inr (List.mem_singleton.mp h)
  | cons old rest ih =>
    unfold receive at h
    rw [lookup_cons]
    split_ifs at h ⊢ with hsame
    · rcases List.mem_cons.mp h with rfl | h
      · exact .inr rfl
      · exact .inl (List.mem_cons_of_mem _ h)
    · rcases List.mem_cons.mp h with rfl | h
      · exact .inl (List.mem_cons_self ..)
      · exact (ih h).imp_left (List.mem_cons_of_mem _)

lemma onMessage_title (event : Packet) (v : Session) : (onMessage event v).title = v.title := by
  unfold onMessage
  split_ifs <;> rfl

section
variable (hv : Sound v latest) (hs : Follows s latest) (he : event.IsOf s)
include hv hs he

lemma onMessage_eq : onMessage event v = { v with messages := receive event v.messages, status := statusOf (receive event v.messages) } := by
  have hsame : v.sessionId = event.sessionId := hv.same.trans (he.1.trans hs.same).symm
  simp [onMessage, hsame]

lemma merged_packet : Merged s v (onMessage event v) := by
  rw [onMessage_eq hv hs he]
  refine ⟨rfl, ?_, ?_, fun m hm => ?_⟩
  · rw [ids, ids_receive]
    split_ifs with hmem
    · rw [List.append_nil]
      exact hv.nodup
    · exact List.Nodup.append hv.nodup (List.nodup_singleton _) (List.disjoint_singleton.mpr hmem)
  · rw [ids, ids, ids_receive]
    exact List.subset_append_left _ _
  · exact (mem_receive hm).imp_right fun h => ⟨event.message (lookup Message.messageId v.messages event.messageId), he.2, h⟩

lemma shown_packet : (Delivery.packet event).Shown (onMessage event v) := by
  rw [onMessage_eq hv hs he]
  refine List.mem_map.mp (ids_receive event v.messages ▸ ?_)
  split_ifs with hmem
  · exact List.mem_append_left _ hmem
  · exact List.mem_append_right _ (List.mem_singleton.mpr rfl)

lemma ids_packet (h : AtLatest v latest) : ids (onMessage event v) = ids latest := by
  obtain ⟨x, hx, hkey⟩ := he.2
  obtain ⟨m', hm', hadvances⟩ := hs.advances x hx
  have hknown : event.messageId ∈ ids v := by
    rw [h.ids_eq, show event.messageId = m'.messageId from (congrArg Prod.fst hkey).symm.trans hadvances.id_eq]
    exact List.mem_map_of_mem hm'
  rw [onMessage_eq hv hs he, ids, ids_receive, if_pos (show event.messageId ∈ v.messages.map Message.messageId from hknown), List.append_nil]
  exact h.ids_eq

end

/-! ## Every order of arrival -/

lemma viewAfter_append (deliveries : List Delivery) (d : Delivery) :
    viewAfter (deliveries ++ [d]) = deliver (viewAfter deliveries) d := by
  unfold viewAfter
  rw [List.foldl_append]
  rfl

lemma statusOf_eq {messages messages' : List Message} (h : messages.map Message.key = messages'.map Message.key) :
    statusOf messages = statusOf messages' := by
  have hany : ∀ messages : List Message, messages.any (fun m => m.status == some "streaming") =
      (messages.map Message.key).any fun k => k.2.2 == some "streaming" := fun messages => by
    rw [List.any_map]
    rfl
  rw [statusOf, hany, h, ← hany, statusOf]

structure Reached (latest : Session) (deliveries : List Delivery) (v : Session) : Prop where
  sound : Sound v latest
  atLatest : .snapshot latest ∈ deliveries → AtLatest v latest
  title : (deliveries.filterMap Delivery.title?).getLast? = some v.title
  status : v.status = statusOf v.messages ∨ ∃ packets, deliveries = packets ++ [.snapshot v] ∧ ∀ d ∈ packets, d.isSnapshot = false

def Opening (latest : Session) (deliveries : List Delivery) : Option Session → Prop
  | none => ∀ d ∈ deliveries, d.isSnapshot = false
  | some v => Reached latest deliveries v

variable {earlier : List Session} {deliveries : List Delivery} {d : Delivery} {view : Option Session}

lemma Opening.deliver (hh : History earlier latest) (hs : s ∈ earlier ++ [latest]) (hd : d.IsOf s) (h : Opening latest deliveries view) :
    Opening latest (deliveries ++ [d]) (deliver view d) := by
  have hfollows := hh.follows_latest hs
  have hsn := hh.nodup s hs
  have hl := hh.nodup latest (List.mem_append_right _ (List.mem_singleton.mpr rfl))
  cases d with
  | snapshot session =>
    obtain rfl : session = s := hd
    have htitle : ((deliveries ++ [Delivery.snapshot session]).filterMap Delivery.title?).getLast? = some session.title := by
      simp [List.filterMap_append, Delivery.title?]
    cases view with
    | none =>
      refine ⟨hfollows.sound hsn, fun hmem => ?_, htitle, .inr ⟨deliveries, rfl, h⟩⟩
      rcases List.mem_append.mp hmem with hmem | hmem
      · cases h _ hmem
      · cases List.mem_singleton.mp hmem
        rfl
    | some v =>
      have hsame : v.sessionId = session.sessionId := h.sound.same.trans hfollows.same.symm
      have hmerged := merged_snapshot h.sound hfollows hsn
      refine ⟨hmerged.sound h.sound hfollows, fun hmem => ?_, ?_, .inl ?_⟩
      · rcases List.mem_append.mp hmem with hmem | hmem
        · exact hmerged.atLatest h.sound hfollows hl (h.atLatest hmem) (ids_snapshot h.sound hfollows hsn hl (h.atLatest hmem))
        · cases List.mem_singleton.mp hmem
          exact AtLatest.arrive h.sound hl
      · rw [htitle]
        simp [mergeChatSession, hsame]
      · simp [mergeChatSession, hsame]
  | packet event =>
    have htitle : (deliveries ++ [Delivery.packet event]).filterMap Delivery.title? = deliveries.filterMap Delivery.title? := by
      simp [List.filterMap_append, Delivery.title?]
    cases view with
    | none =>
      intro d hmem
      rcases List.mem_append.mp hmem with hmem | hmem
      · exact h d hmem
      · cases List.mem_singleton.mp hmem
        rfl
    | some v =>
      have hmerged := merged_packet h.sound hfollows hd
      refine ⟨hmerged.sound h.sound hfollows, fun hmem => ?_, ?_, .inl ?_⟩
      · rcases List.mem_append.mp hmem with hmem | hmem
        · exact hmerged.atLatest h.sound hfollows hl (h.atLatest hmem) (ids_packet h.sound hfollows hd (h.atLatest hmem))
        · cases List.mem_singleton.mp hmem
      · rw [htitle, h.title, onMessage_title]
      · rw [onMessage_eq h.sound hfollows hd]

lemma opening_viewAfter (hh : History earlier latest) (hds : ∀ d ∈ deliveries, ∃ s ∈ earlier ++ [latest], d.IsOf s) :
    Opening latest deliveries (viewAfter deliveries) := by
  induction deliveries using List.reverseRecOn with
  | nil => exact fun d hd => absurd hd List.not_mem_nil
  | append_singleton deliveries d ih =>
    obtain ⟨s, hs, hd⟩ := hds d (List.mem_append_right _ (List.mem_singleton.mpr rfl))
    rw [viewAfter_append]
    exact (ih fun d hd => hds d (List.mem_append_left _ hd)).deliver hh hs hd

lemma viewAfter_packets (h : ∀ d ∈ deliveries, d.isSnapshot = false) : viewAfter deliveries = none := by
  induction deliveries using List.reverseRecOn with
  | nil => rfl
  | append_singleton deliveries d ih =>
    rw [viewAfter_append, ih fun d hd => h d (List.mem_append_left _ hd)]
    cases d with
    | snapshot session => cases h (.snapshot session) (List.mem_append_right _ (List.mem_singleton.mpr rfl))
    | packet event => rfl

lemma eq_latest_of_only {packets : List Delivery} (hsplit : deliveries = packets ++ [.snapshot v]) (hp : ∀ d ∈ packets, d.isSnapshot = false)
    (hmem : .snapshot latest ∈ deliveries) : v = latest := by
  rw [hsplit] at hmem
  rcases List.mem_append.mp hmem with hmem | hmem
  · cases hp _ hmem
  · cases List.mem_singleton.mp hmem
    rfl

lemma shown_next (hh : History earlier latest) (h : Opening latest deliveries view) (hd : ∃ s ∈ earlier ++ [latest], d.IsOf s)
    (hnext : deliver view d = some v') : d.Shown v' := by
  obtain ⟨s, hs, hd⟩ := hd
  have hfollows := hh.follows_latest hs
  cases d with
  | snapshot session =>
    obtain rfl : session = s := hd
    cases view with
    | none =>
      cases hnext
      exact fun m hm => ⟨m, hm, rfl⟩
    | some v =>
      cases hnext
      exact shown_snapshot h.sound hfollows (hh.nodup _ hs)
  | packet event =>
    cases view with
    | none => cases hnext
    | some v =>
      cases hnext
      exact shown_packet h.sound hfollows hd

lemma keeps_next (hh : History earlier latest) (h : Reached latest deliveries v) (hd : ∃ s ∈ earlier ++ [latest], d.IsOf s)
    (hnext : deliver (some v) d = some v') : Keeps v v' := by
  obtain ⟨s, hs, hd⟩ := hd
  have hfollows := hh.follows_latest hs
  cases d with
  | snapshot session =>
    obtain rfl : session = s := hd
    cases hnext
    exact (merged_snapshot h.sound hfollows (hh.nodup _ hs)).keeps h.sound
  | packet event =>
    cases hnext
    exact (merged_packet h.sound hfollows hd).keeps h.sound

theorem views_converge_iff (hh : History earlier latest) (hds : ∀ d ∈ deliveries, ∃ s ∈ earlier ++ [latest], d.IsOf s) :
    Converges latest deliveries ↔ (.snapshot latest ∈ deliveries → LastIsLatest latest deliveries) := by
  have hopening := opening_viewAfter hh hds
  constructor
  · intro hconverges hmem
    obtain ⟨v, hv, hagrees⟩ := hconverges.agrees hmem
    rw [hv] at hopening
    refine ⟨hopening.title.trans (congrArg some hagrees.title), ?_⟩
    rcases hopening.status with hstatus | ⟨packets, hsplit, hp⟩
    · exact .inl (hagrees.status.symm.trans (hstatus.trans (statusOf_eq hagrees.messages)))
    · exact .inr ⟨packets, eq_latest_of_only hsplit hp hmem ▸ hsplit, hp⟩
  · intro h
    refine ⟨fun hmem => ?_, ?_, ?_⟩
    · obtain ⟨htitle, hlast⟩ := h hmem
      cases hv : viewAfter deliveries with
      | none =>
        rw [hv] at hopening
        cases hopening _ hmem
      | some v =>
        rw [hv] at hopening
        refine ⟨v, rfl, hopening.atLatest hmem, Option.some.inj (hopening.title.symm.trans htitle), ?_⟩
        rcases hopening.status with hstatus | ⟨packets, hsplit, hp⟩
        · rcases hlast with hlatest | ⟨packets, hsplit, hp⟩
          · exact hstatus.trans ((statusOf_eq (hopening.atLatest hmem)).trans hlatest.symm)
          · rw [hsplit, viewAfter_append, viewAfter_packets hp] at hv
            cases hv
            rfl
        · exact congrArg Session.status (eq_latest_of_only hsplit hp hmem)
    · rintro before d after v v' rfl hbefore hafter
      have hreached := opening_viewAfter hh fun d hd => hds d (List.mem_append_left _ hd)
      rw [hbefore] at hreached
      rw [viewAfter_append, hbefore] at hafter
      exact keeps_next hh hreached (hds d (by simp)) hafter
    · rintro before d after v rfl hafter
      rw [viewAfter_append] at hafter
      exact shown_next hh (opening_viewAfter hh fun d hd => hds d (List.mem_append_left _ hd)) (hds d (by simp)) hafter

def opened : Session := ⟨"s", "New chat", "idle", []⟩

def titled : Session := ⟨"s", "Blink", "idle", [⟨"m", "user", "t", none, [66], none, []⟩]⟩

lemma history_titled : History [opened] titled where
  follows := .cons_cons ⟨rfl, List.nil_prefix, fun m hm => by cases hm⟩ (.singleton _)
  nodup := by decide

theorem converges_titled : Converges titled [.snapshot opened, .snapshot titled] := by
  have hsent : ∀ d ∈ [Delivery.snapshot opened, .snapshot titled], ∃ s ∈ [opened] ++ [titled], d.IsOf s :=
    List.forall_mem_cons.mpr ⟨⟨opened, by decide, rfl⟩, List.forall_mem_singleton.mpr ⟨titled, by decide, rfl⟩⟩
  exact (views_converge_iff history_titled hsent).mpr fun _ => ⟨rfl, .inl rfl⟩

/-- The snapshot of the new chat comes after the one of the titled chat and takes the title back. -/
theorem title_regresses : History [opened] titled ∧ ¬Converges titled [.snapshot titled, .snapshot opened] := by
  refine ⟨history_titled, fun h => ?_⟩
  obtain ⟨v, hv, hagrees⟩ := h.agrees (List.mem_cons_self ..)
  cases hv
  have htitle := hagrees.title
  revert htitle
  decide

end PromptForge.ChatViews
