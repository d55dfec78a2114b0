import Mathlib.Data.List.TakeWhile
import PromptForge.ProviderConversation

namespace PromptForge.Conversation
open Runs Tables

def toolId : Message → Option String
  | .tool callId _ _ => some callId
  | _ => none

def toolIds (messages : List Message) : List String := messages.filterMap toolId

def replies (messages : List Message) : List Message := messages.takeWhile fun m => !m.isAssistant

def Answers (calls : List Call) (ids : List String) : Prop :=
  ids.Nodup ∧ ∀ id, id ∈ ids ↔ id ∈ calls.map Call.id

def WellAnswered : List Message → Prop
  | [] => True
  | m :: ms => (m.isAssistant = true → Answers m.calls (toolIds (replies ms))) ∧ WellAnswered ms

def Opens (given : String → Prop) (content : String) : Prop :=
  ∃ task turn shown, given task ∧ content = promptHead task turn ++ shown

structure WellFormed (given : String → Prop) (messages : List Message) : Prop where
  opens : ∃ content rest, messages = .user content :: rest ∧ Opens given content
  unprompted : toolIds (replies messages) = []
  answered : WellAnswered messages

def IsUser (m : Message) : Prop := ∃ content, m = .user content

def Quiet (messages : List Message) : Prop := ∀ m ∈ messages, m.isAssistant = false

lemma quiet_of_users {users : List Message} (h : ∀ m ∈ users, IsUser m) : Quiet users := by
  intro m hm
  obtain ⟨content, rfl⟩ := h m hm
  rfl

lemma toolIds_users {users : List Message} (h : ∀ m ∈ users, IsUser m) : toolIds users = [] := by
  refine List.filterMap_eq_nil_iff.2 fun m hm => ?_
  obtain ⟨content, rfl⟩ := h m hm
  rfl

lemma replies_quiet {messages : List Message} (h : Quiet messages) : replies messages = messages := by
  refine List.takeWhile_eq_self_iff.2 fun m hm => ?_
  simp [h m hm]

lemma wellAnswered_quiet {messages : List Message} (h : Quiet messages) : WellAnswered messages := by
  induction messages with
  | nil => trivial
  | cons m ms ih =>
    obtain ⟨hm, hms⟩ := List.forall_mem_cons.1 h
    exact ⟨fun ha => absurd (hm.symm.trans ha) (by decide), ih hms⟩

lemma replies_append_assistant (messages rest : List Message) {m : Message} (hm : m.isAssistant = true) :
    replies (messages ++ m :: rest) = replies messages := by
  induction messages with
  | nil => simp [replies, hm]
  | cons x xs ih =>
    unfold replies at ih ⊢
    rw [List.cons_append, List.takeWhile_cons, List.takeWhile_cons, ih]

lemma wellAnswered_append {messages rest : List Message} {m : Message} (hm : m.isAssistant = true) :
    WellAnswered (messages ++ m :: rest) ↔ WellAnswered messages ∧ WellAnswered (m :: rest) := by
  induction messages with
  | nil => simp [WellAnswered]
  | cons x xs ih =>
    rw [List.cons_append, WellAnswered, WellAnswered, ih, replies_append_assistant xs rest hm, and_assoc]

lemma replies_append_users (messages : List Message) {users : List Message} (h : ∀ m ∈ users, IsUser m) :
    toolIds (replies (messages ++ users)) = toolIds (replies messages) := by
  induction messages with
  | nil =>
    rw [List.nil_append, replies_quiet (quiet_of_users h), toolIds_users h]
    rfl
  | cons x xs ih =>
    unfold replies toolIds at ih ⊢
    rw [List.cons_append, List.takeWhile_cons, List.takeWhile_cons]
    split
    · rw [List.filterMap_cons, List.filterMap_cons, ih]
    · rfl

lemma wellAnswered_append_users {messages users : List Message} (h : ∀ m ∈ users, IsUser m) :
    WellAnswered (messages ++ users) ↔ WellAnswered messages := by
  induction messages with
  | nil => simp [WellAnswered, wellAnswered_quiet (quiet_of_users h)]
  | cons x xs ih => rw [List.cons_append, WellAnswered, WellAnswered, ih, replies_append_users xs h]

section Filter
variable {p : Message → Bool} (hp : ∀ m, p m = false → IsUser m)

include hp in
lemma replies_filter (messages : List Message) :
    toolIds (replies (messages.filter p)) = toolIds (replies messages) := by
  induction messages with
  | nil => rfl
  | cons x xs ih =>
    cases hx : p x with
    | true =>
      unfold replies toolIds at ih ⊢
      rw [List.filter_cons_of_pos hx, List.takeWhile_cons, List.takeWhile_cons]
      split
      · rw [List.filterMap_cons, List.filterMap_cons, ih]
      · rfl
    | false =>
      obtain ⟨content, rfl⟩ := hp x hx
      rw [List.filter_cons_of_neg (by simp [hx]), ih]
      rfl

include hp in
lemma wellAnswered_filter {messages : List Message} (h : WellAnswered messages) :
    WellAnswered (messages.filter p) := by
  induction messages with
  | nil => trivial
  | cons x xs ih =>
    cases hx : p x with
    | true =>
      rw [List.filter_cons_of_pos hx, WellAnswered, replies_filter hp]
      exact ⟨h.1, ih h.2⟩
    | false =>
      rw [List.filter_cons_of_neg (by simp [hx])]
      exact ih h.2

end Filter

lemma wellAnswered_suffix {pre post : List Message} (h : WellAnswered (pre ++ post)) : WellAnswered post := by
  induction pre with
  | nil => exact h
  | cons x xs ih => exact ih h.2

lemma flatten_blocks (messages : List Message) : (blocks messages).flatten = messages := by
  induction messages with
  | nil => rfl
  | cons m ms ih =>
    unfold blocks
    split
    · rw [‹blocks ms = []›] at ih
      rw [← ih]
      rfl
    · rw [‹blocks ms = _›] at ih
      split
      · rw [← ih]
        rfl
      · rw [← ih]
        rfl

def Opening (block : List Message) : Prop := ∃ m rest, block = m :: rest ∧ m.isAssistant = true

lemma opening_of_head {block : List Message} (h : (block.head?.map Message.isAssistant).getD false = true) :
    Opening block := by
  cases block with
  | nil => cases h
  | cons m rest => exact ⟨m, rest, rfl, h⟩

lemma blocks_opening (messages : List Message) : ∀ block ∈ (blocks messages).tail, Opening block := by
  induction messages with
  | nil => exact fun block h => nomatch h
  | cons m ms ih =>
    unfold blocks
    split
    · exact fun block h => nomatch h
    · rw [‹blocks ms = _›] at ih
      split
      · intro b hb
        rcases List.mem_cons.1 hb with rfl | hb
        · exact opening_of_head ‹_›
        · exact ih b hb
      · exact ih

lemma retainedCount_pos (host : Host) (maxChars used kept : ℕ) (all : List (List Message)) (h : 0 < kept ∨ all ≠ []) :
    0 < retainedCount host maxChars used kept all := by
  induction all generalizing used kept with
  | nil =>
    rcases h with h | h
    · exact h
    · exact absurd rfl h
  | cons block rest ih =>
    unfold retainedCount
    split
    · exact Nat.pos_of_ne_zero ‹kept ≠ 0 ∧ _›.1
    · exact ih _ _ (.inl (Nat.succ_pos _))

lemma drop_blocks_opening (messages : List Message) {n : ℕ} (hpos : 0 < n) (hn : n < (blocks messages).length) :
    ∃ m rest, ((blocks messages).drop n).flatten = m :: rest ∧ m.isAssistant = true := by
  have hmem : (blocks messages)[n] ∈ (blocks messages).tail := by
    refine List.mem_iff_getElem.2 ⟨n - 1, by rw [List.length_tail]; omega, ?_⟩
    rw [List.getElem_tail]
    congr 1
    omega
  obtain ⟨m, rest, hblock, hm⟩ := blocks_opening messages _ hmem
  refine ⟨m, rest ++ ((blocks messages).drop (n + 1)).flatten, ?_, hm⟩
  rw [List.drop_eq_getElem_cons hn, List.flatten_cons, hblock]
  rfl

lemma wellFormed_cut {given : String → Prop} {content : String} {users rest kept : List Message}
    (hopens : Opens given content) (husers : ∀ m ∈ users, IsUser m) (hrest : WellAnswered rest)
    (hkept : ∃ pre, rest = pre ++ kept) (hm : ∃ m rest, kept = m :: rest ∧ m.isAssistant = true) :
    WellFormed given (.user content :: (users ++ kept)) := by
  obtain ⟨pre, rfl⟩ := hkept
  obtain ⟨m, tail, rfl, hm⟩ := hm
  refine ⟨⟨content, _, rfl, hopens⟩, ?_, ⟨nofun, ?_⟩⟩
  · change toolIds (replies ((.user content :: users) ++ m :: tail)) = []
    rw [replies_append_assistant _ _ hm]
    have hall : ∀ m ∈ (.user content :: users : List Message), IsUser m :=
      List.forall_mem_cons.2 ⟨⟨content, rfl⟩, husers⟩
    rw [replies_quiet (quiet_of_users hall), toolIds_users hall]
  · rw [wellAnswered_append hm]
    exact ⟨wellAnswered_quiet (quiet_of_users husers), wellAnswered_suffix hrest⟩

lemma wellFormed_compact (host : Host) {given : String → Prop} {messages : List Message} (maxChars : ℕ)
    (h : WellFormed given messages) : WellFormed given (compactNativeMessages host messages maxChars) := by
  obtain ⟨content, rest, rfl, hopens⟩ := h.opens
  unfold compactNativeMessages
  dsimp only
  split
  · exact h
  · generalize hkept : retainedCount host maxChars (host.messageChars [.user content]) 0 (blocks rest).reverse = kept
    split
    · exact h
    · have hlt : kept < (blocks rest).length := Nat.lt_of_not_le ‹_›
      have hpos : 0 < kept := by
        rw [← hkept]
        refine retainedCount_pos _ _ _ _ _ (.inr fun hnil => ?_)
        rw [List.reverse_eq_nil_iff] at hnil
        rw [hnil] at hlt
        cases hlt
      have hsplit : rest = ((blocks rest).take ((blocks rest).length - kept)).flatten ++
          ((blocks rest).drop ((blocks rest).length - kept)).flatten := by
        rw [← List.flatten_append, List.take_append_drop, flatten_blocks]
      refine @wellFormed_cut given content [_] rest _ hopens ?_ h.answered.2 ⟨_, hsplit⟩
        (drop_blocks_opening rest (by omega) (by omega))
      intro m hm
      rw [List.mem_singleton.1 hm]
      exact ⟨_, rfl⟩

section Dictionaries
variable {ρ : Type} {key : ρ → String}

lemma keys_assign (rows : List ρ) (r : ρ) :
    (assign key rows r).map key = if key r ∈ rows.map key then rows.map key else rows.map key ++ [key r] := by
  have hsome : (lookup key rows (key r)).isSome = true ↔ key r ∈ rows.map key := by
    rw [Option.isSome_iff_ne_none, ne_eq, lookup_eq_none, List.mem_map]
    simp
  unfold assign
  by_cases h : key r ∈ rows.map key
  · rw [if_pos (hsome.2 h), if_pos h, map_key_updateRow]
  · rw [if_neg (fun h' => h (hsome.1 h')), if_neg h, List.map_append]
    rfl

lemma keys_foldl_assign (rows acc : List ρ) (h : (acc.map key).Nodup) :
    ((rows.foldl (assign key) acc).map key).Nodup ∧
      ∀ k, k ∈ (rows.foldl (assign key) acc).map key ↔ k ∈ acc.map key ∨ k ∈ rows.map key := by
  induction rows generalizing acc with
  | nil => exact ⟨h, fun k => by simp⟩
  | cons r rows ih =>
    have hkeys := @keys_assign ρ key acc r
    by_cases hr : key r ∈ acc.map key
    · rw [if_pos hr] at hkeys
      obtain ⟨hnodup, hmem⟩ := ih (assign key acc r) (hkeys.symm ▸ h)
      refine ⟨hnodup, fun k => ?_⟩
      rw [List.foldl_cons, hmem, hkeys, List.map_cons, List.mem_cons]
      constructor
      · rintro (h | h)
        · exact .inl h
        · exact .inr (.inr h)
      · rintro (h | rfl | h)
        · exact .inl h
        · exact .inl hr
        · exact .inr h
    · rw [if_neg hr] at hkeys
      have hacc : ((assign key acc r).map key).Nodup := by
        rw [hkeys, List.nodup_append]
        exact ⟨h, List.nodup_singleton _, fun a ha b hb heq => hr (List.mem_singleton.1 hb ▸ heq ▸ ha)⟩
      obtain ⟨hnodup, hmem⟩ := ih (assign key acc r) hacc
      refine ⟨hnodup, fun k => ?_⟩
      rw [List.foldl_cons, hmem, hkeys, List.mem_append, List.mem_singleton, List.map_cons, List.mem_cons, or_assoc]

lemma keys_dictBy (rows : List ρ) :
    ((dictBy key rows).map key).Nodup ∧ ∀ k, k ∈ (dictBy key rows).map key ↔ k ∈ rows.map key := by
  obtain ⟨hnodup, hmem⟩ := @keys_foldl_assign ρ key rows [] List.nodup_nil
  exact ⟨hnodup, fun k => (hmem k).trans (by simp)⟩

end Dictionaries

variable {host : Host} {given : String → Prop}

lemma observed_isSome (t : Turn) {id : String} (hne : id ≠ "") (h : ∃ r ∈ t.toolResults, r.callId = id) :
    ∃ result, lookup Observation.callId (observed t) id = some result := by
  obtain ⟨r, hr, rfl⟩ := h
  have hmem : r.callId ∈ (observed t).map Observation.callId := by
    refine (keys_dictBy (identified t)).2 r.callId |>.2 (List.mem_map_of_mem ?_)
    exact List.mem_filter.2 ⟨hr, decide_eq_true hne⟩
  refine Option.ne_none_iff_exists'.1 fun hnone => ?_
  obtain ⟨x, hx, hkey⟩ := List.mem_map.1 hmem
  exact lookup_eq_none.1 hnone x hx hkey

lemma answers_ok {s : Planner} {t : Turn} (pending : List Call)
    (h : ∀ call ∈ pending, call.id ∉ s.nativeObservationIds ∧
      ∃ result, lookup Observation.callId (observed t) call.id = some result) :
    ∃ answers, pending.mapM (answer host s t) = .ok answers ∧ toolIds answers = pending.map Call.id ∧ Quiet answers := by
  induction pending with
  | nil => exact ⟨[], rfl, rfl, fun m hm => nomatch hm⟩
  | cons call pending ih =>
    obtain ⟨⟨hfresh, result, hresult⟩, hrest⟩ := List.forall_mem_cons.1 h
    obtain ⟨answers, hanswers, hids, hquiet⟩ := ih hrest
    have hanswer : ∃ name content, answer host s t call = .ok (.tool call.id name content) := by
      unfold answer
      simp only [hresult, hfresh, if_false]
      exact ⟨_, _, rfl⟩
    obtain ⟨name, content, hanswer⟩ := hanswer
    refine ⟨.tool call.id name content :: answers, ?_, ?_, List.forall_mem_cons.2 ⟨rfl, hquiet⟩⟩
    · rw [List.mapM_cons, hanswer, hanswers]
      rfl
    · exact congrArg (call.id :: ·) hids

/-- What is accepted: a list that was sent, and an answer whose calls were not delivered. -/
structure Accepted (given : String → Prop) (s : Planner) (messages : List Message) (text : String)
    (calls : List Call) : Prop where
  eq : s.nativeMessages = messages ++ [.assistant text calls]
  wellFormed : WellFormed given messages
  fresh : ∀ call ∈ calls, call.id ≠ "" ∧ call.id ∉ s.nativeObservationIds

structure Inv (given : String → Prop) (s : Planner) : Prop where
  native : s.nativeMessages = [] ∨ ∃ messages text calls, Accepted given s messages text calls
  candidate : s.candidateMessages = [] ∨ WellFormed given s.candidateMessages

lemma history_accepted {s : Planner} {messages : List Message} {text : String} {calls : List Call}
    (h : Accepted given s messages text calls) :
    ∃ kept, history s = kept ++ [.assistant text calls] ∧ WellFormed given kept := by
  obtain ⟨content, rest, rfl, hopens⟩ := h.wellFormed.opens
  have huser : ∀ m : Message, (!isHostContext m) = false → IsUser m := by
    intro m hm
    cases m with
    | user content => exact ⟨content, rfl⟩
    | assistant text calls => cases hm
    | tool callId name content => cases hm
  refine ⟨.user content :: rest.filter fun m => !isHostContext m, ?_, ⟨content, _, rfl, hopens⟩, ?_, nofun, ?_⟩
  · unfold history
    rw [h.eq]
    simp only [List.cons_append, List.filter_append]
    rfl
  · have hunprompted := h.wellFormed.unprompted
    change toolIds (replies rest) = [] at hunprompted
    change toolIds (replies (rest.filter fun m => !isHostContext m)) = []
    rw [replies_filter huser, hunprompted]
  · exact wellAnswered_filter huser h.wellFormed.answered.2

lemma pendingOf_answer (kept : List Message) (text : String) (calls : List Call) :
    pendingOf (kept ++ [.assistant text calls]) = dictBy Call.id calls := by
  unfold pendingOf
  rw [List.reverse_append]
  rfl

def Supplied (s : Planner) (t : Turn) : Prop :=
  ∀ call ∈ pendingOf (history s), ∃ r ∈ t.toolResults, r.callId = call.id

lemma users_ite (c : Prop) [Decidable c] (content : String) :
    ∀ m ∈ (if c then [] else [Message.user content] : List Message), IsUser m := by
  intro m hm
  split at hm
  · cases hm
  · exact ⟨content, List.mem_singleton.1 hm⟩

lemma wellFormed_append_users {messages users : List Message} (h : WellFormed given messages)
    (husers : ∀ m ∈ users, IsUser m) : WellFormed given (messages ++ users) := by
  obtain ⟨content, rest, rfl, hopens⟩ := h.opens
  refine ⟨⟨content, rest ++ users, rfl, hopens⟩, ?_, ?_⟩
  · rw [replies_append_users _ husers]
    exact h.unprompted
  · rw [wellAnswered_append_users husers]
    exact h.answered

lemma wellFormed_answered {kept answers further revised : List Message} {text : String} {calls : List Call}
    (hkept : WellFormed given kept) (hquiet : Quiet answers) (hids : Answers calls (toolIds answers))
    (hfurther : ∀ m ∈ further, IsUser m) (hrevised : ∀ m ∈ revised, IsUser m) :
    WellFormed given (kept ++ [.assistant text calls] ++ answers ++ further ++ revised) := by
  refine wellFormed_append_users (wellFormed_append_users ?_ hfurther) hrevised
  obtain ⟨content, rest, rfl, hopens⟩ := hkept.opens
  rw [List.append_assoc, List.singleton_append]
  refine ⟨⟨content, _, rfl, hopens⟩, ?_, ?_⟩
  · rw [replies_append_assistant _ _ rfl]
    exact hkept.unprompted
  · rw [wellAnswered_append rfl]
    refine ⟨hkept.answered, fun _ => ?_, wellAnswered_quiet hquiet⟩
    rw [replies_quiet hquiet]
    exact hids

lemma wellFormed_continued {s : Planner} {t : Turn} {messages : List Message} {text : String} {calls : List Call}
    (h : Accepted given s messages text calls) (hsupplied : Supplied s t) :
    ∃ candidate, continued host s t = .ok candidate ∧ WellFormed given candidate := by
  obtain ⟨kept, hhistory, hkept⟩ := history_accepted h
  have hpending : pendingOf (history s) = dictBy Call.id calls := by rw [hhistory, pendingOf_answer]
  obtain ⟨hnodup, hkeys⟩ := @keys_dictBy Call Call.id calls
  have hready : ∀ call ∈ dictBy Call.id calls, call.id ∉ s.nativeObservationIds ∧
      ∃ result, lookup Observation.callId (observed t) call.id = some result := by
    intro call hcall
    obtain ⟨original, horiginal, hid⟩ := List.mem_map.1 ((hkeys call.id).1 (List.mem_map_of_mem hcall))
    obtain ⟨hne, hfresh⟩ := h.fresh original horiginal
    rw [hid] at hne hfresh
    exact ⟨hfresh, observed_isSome t hne (hsupplied call (hpending ▸ hcall))⟩
  obtain ⟨answers, hanswers, hids, hquiet⟩ := @answers_ok host s t _ hready
  have hanswered : Answers calls (toolIds answers) := hids ▸ ⟨hnodup, hkeys⟩
  unfold continued
  rw [hpending]
  dsimp only
  rw [hanswers, hhistory]
  exact ⟨_, rfl, wellFormed_answered hkept hquiet hanswered (users_ite _ _) (users_ite _ _)⟩

lemma wellFormed_opened {t : Turn} (ht : given t.task) : WellFormed given (opened host t) :=
  ⟨⟨_, [], rfl, t.task, t.turn, _, ht, rfl⟩, rfl, nofun, trivial⟩

lemma wellFormed_remindTask {s : Planner} {t : Turn} {messages : List Message} (h : WellFormed given messages) :
    WellFormed given (remindTask s t messages) := by
  obtain ⟨content, rest, rfl, hopens⟩ := h.opens
  unfold remindTask
  split
  · exact h
  · have hlength : min 1 (Message.user content :: rest).length = 1 := by
      rw [List.length_cons]
      omega
    rw [hlength]
    exact ⟨⟨content, _, rfl, hopens⟩, h.unprompted, nofun, nofun, h.answered.2⟩

lemma hostMessage_user (t : Turn) : ∀ m ∈ (hostMessage host t).toList, IsUser m := by
  intro m hm
  unfold hostMessage at hm
  dsimp only at hm
  split at hm
  · cases hm
  · exact ⟨_, List.mem_singleton.1 hm⟩

lemma project_of_candidate {s : Planner} {t : Turn} {candidate : List Message}
    (h : (if (history s).isEmpty then .ok (opened host t) else continued host s t) = Except.ok candidate) :
    ∃ maxChars, project host s t =
      .ok (remindTask s t (compactNativeMessages host candidate maxChars ++ (hostMessage host t).toList)) := by
  unfold project
  by_cases hempty : (history s).isEmpty = true
  · rw [if_pos hempty] at h ⊢
    obtain rfl := Except.ok.inj h
    exact ⟨_, rfl⟩
  · rw [if_neg hempty] at h ⊢
    rw [h]
    exact ⟨_, rfl⟩

lemma project_ok {s : Planner} {t : Turn} (hs : Inv given s) (ht : given t.task) (hsupplied : Supplied s t) :
    ∃ messages, project host s t = .ok messages ∧ WellFormed given messages := by
  have hcandidate : ∃ candidate, (if (history s).isEmpty then .ok (opened host t) else continued host s t) =
      Except.ok candidate ∧ WellFormed given candidate := by
    rcases hs.native with hnone | ⟨messages, text, calls, haccepted⟩
    · have hempty : (history s).isEmpty = true := by
        unfold history
        rw [hnone]
        rfl
      rw [if_pos hempty]
      exact ⟨_, rfl, wellFormed_opened ht⟩
    · obtain ⟨kept, hhistory, -⟩ := history_accepted haccepted
      have hne : ¬ (history s).isEmpty = true := by simp [hhistory]
      rw [if_neg hne]
      exact wellFormed_continued haccepted hsupplied
  obtain ⟨candidate, hcandidate, hformed⟩ := hcandidate
  obtain ⟨maxChars, hproject⟩ := project_of_candidate hcandidate
  exact ⟨_, hproject,
    wellFormed_remindTask (wellFormed_append_users (wellFormed_compact host _ hformed) (hostMessage_user t))⟩

/-- When an accepted answer can be answered in turn: no call has an id that was delivered, or
    that is shown in this very turn; and a turn without tools follows one with them. -/
def Kept (s : Planner) (a : Attempt) : Prop :=
  ∀ text calls, decode a.turn a.reply = some (text, calls) →
    (a.turn.offersTools = true → ∀ call ∈ calls, call.id ∉ s.nativeObservationIds ∧
      ∀ r ∈ a.turn.toolResults, r.callId ≠ call.id) ∧
    (a.turn.offersTools = false → s.candidateMessages ≠ [])

lemma parsed_id_ne {raw : RawCall} {index : ℕ} {call : Call} (h : parseNativeCall raw index = some call) :
    call.id ≠ "" := by
  unfold parseNativeCall at h
  split at h
  · obtain rfl := Option.some.inj h
    change callId index raw ≠ ""
    unfold callId
    split
    · intro hempty
      have hlength := congrArg String.length hempty
      simp [String.length_append] at hlength
    · assumption
  · cases h

lemma decode_calls {t : Turn} {reply : Reply} {text : String} {calls : List Call}
    (h : decode t reply = some (text, calls)) :
    ∃ raws : List RawCall, (raws = [] ∨ t.offersTools = true) ∧
      raws.zipIdx.mapM (fun raw => parseNativeCall raw.1 raw.2) = some calls := by
  cases reply with
  | failed => cases h
  | response content raws valid =>
    unfold decode at h
    dsimp only at h
    split at h
    · rename_i hvalid
      obtain ⟨parsed, hparsed, heq⟩ := Option.map_eq_some_iff.1 h
      obtain ⟨-, rfl⟩ := Prod.mk.inj heq
      exact ⟨raws, hvalid.2.imp_left List.isEmpty_iff.1, hparsed⟩
    · cases h

lemma decoded_id_ne {t : Turn} {reply : Reply} {text : String} {calls : List Call}
    (h : decode t reply = some (text, calls)) : ∀ call ∈ calls, call.id ≠ "" := by
  obtain ⟨raws, -, hparsed⟩ := decode_calls h
  intro call hcall
  obtain ⟨raw, -, hraw⟩ := mem_of_mapM hparsed call hcall
  exact parsed_id_ne hraw

lemma inv_settle {s : Planner} {a : Attempt} (hs : Inv given s)
    (hcalls : ∀ text calls, decode a.turn a.reply = some (text, calls) →
      s.candidateMessages ≠ [] ∧ ∀ call ∈ calls, call.id ∉ s.candidateObservationIds) : Inv given (settle s a) := by
  unfold settle
  split
  · rename_i text calls hdecode
    obtain ⟨hne, hfresh⟩ := hcalls text calls hdecode
    have hformed := hs.candidate.resolve_left hne
    exact ⟨.inr ⟨s.candidateMessages, text, calls, rfl, hformed,
      fun call hcall => ⟨decoded_id_ne hdecode call hcall, hfresh call hcall⟩⟩, hs.candidate⟩
  · exact hs

lemma newResults_id {s : Planner} {t : Turn} {id : String} (h : id ∈ (newResults s t).map Observation.callId) :
    ∃ r ∈ t.toolResults, r.callId = id := by
  obtain ⟨r, hr, rfl⟩ := List.mem_map.1 h
  have hkey := @List.mem_map_of_mem _ _ _ _ Observation.callId (List.mem_filter.1 hr).1
  obtain ⟨original, horiginal, hid⟩ := List.mem_map.1 ((keys_dictBy (identified t)).2 r.callId |>.1 hkey)
  exact ⟨original, (List.mem_filter.1 horiginal).1, hid⟩

structure Given (given : String → Prop) (s : Planner) (t : Turn) : Prop where
  task : given t.task
  supplied : t.offersTools = true → Supplied s t

def Served (given : String → Prop) : Outcome → Prop
  | .sent messages => WellFormed given messages
  | .unsent => True
  | .refused _ => False

lemma step_served {s : Planner} {a : Attempt} (hs : Inv given s) (hgiven : Given given s a.turn) (hkept : Kept s a) :
    Served given (step host s a).1 ∧ Inv given (step host s a).2 := by
  unfold step
  split
  · have hoffers := ‹a.turn.offersTools = true›
    obtain ⟨messages, hproject, hformed⟩ := @project_ok host given s a.turn hs hgiven.task (hgiven.supplied hoffers)
    rw [hproject]
    have hprepared : Inv given (prepared s a.turn messages) := by
      refine ⟨hs.native.imp_right ?_, .inr hformed⟩
      rintro ⟨old, text, calls, haccepted⟩
      exact ⟨old, text, calls, haccepted.eq, haccepted.wellFormed, haccepted.fresh⟩
    refine ⟨hformed, inv_settle hprepared fun text calls hdecode => ⟨?_, fun call hcall hmem => ?_⟩⟩
    · obtain ⟨content, rest, heq, -⟩ := hformed.opens
      exact fun hnil => absurd (heq.symm.trans hnil) (by simp)
    · obtain ⟨hdelivered, hshown⟩ := (hkept text calls hdecode).1 hoffers call hcall
      rcases List.mem_append.1 hmem with hmem | hmem
      · exact hdelivered hmem
      · obtain ⟨r, hr, hid⟩ := newResults_id hmem
        exact hshown r hr hid
  · have hnone : a.turn.offersTools = false := by simpa using ‹¬ a.turn.offersTools = true›
    refine ⟨trivial, inv_settle hs fun text calls hdecode => ⟨(hkept text calls hdecode).2 hnone, ?_⟩⟩
    obtain ⟨raws, hraws, hparsed⟩ := decode_calls hdecode
    obtain rfl := hraws.resolve_right (by simp [hnone])
    obtain rfl := Option.some.inj hparsed
    exact fun call hcall => nomatch hcall

lemma served_from {s : Planner} (hs : Inv given s) (attempts : List Attempt)
    (hgiven : ∀ e ∈ trace (step host) s attempts, Given given e.before e.action.turn)
    (hkept : ∀ e ∈ trace (step host) s attempts, Kept e.before e.action) :
    ∀ e ∈ trace (step host) s attempts, Served given e.outcome := by
  induction attempts generalizing s with
  | nil => exact fun e he => nomatch he
  | cons a attempts ih =>
    obtain ⟨hserved, hnext⟩ := @step_served host given s a hs (hgiven _ (List.mem_cons_self ..))
      (hkept _ (List.mem_cons_self ..))
    intro e he
    rcases List.mem_cons.1 he with rfl | he
    · exact hserved
    · exact ih hnext (fun e he => hgiven e (List.mem_cons_of_mem _ he))
        (fun e he => hkept e (List.mem_cons_of_mem _ he)) e he

def tasksOf (attempts : List Attempt) (task : String) : Prop := ∃ a ∈ attempts, a.turn.task = task

def HostSupplies (host : Host) (attempts : List Attempt) : Prop :=
  ∀ e ∈ trace (step host) Planner.start attempts, e.action.turn.offersTools = true → Supplied e.before e.action.turn

theorem well_formed (host : Host) (attempts : List Attempt) (hsupplies : HostSupplies host attempts)
    (hkept : ∀ e ∈ trace (step host) Planner.start attempts, Kept e.before e.action) :
    ∀ e ∈ trace (step host) Planner.start attempts, Served (tasksOf attempts) e.outcome := by
  refine served_from ⟨.inl rfl, .inl rfl⟩ attempts (fun e he => ?_) hkept
  exact ⟨⟨e.action, action_mem he, rfl⟩, hsupplies e he⟩

def plainHost : Host where
  renderObservations _ _ := "[]"
  boundedToolResult r := "\x7b\"call_id\": \"" ++ r.callId ++ "\"\x7d"
  messageChars messages := (messages.map fun m => m.content.length + 80).sum

def readTurn (turn : ℤ) (results : ℕ) : Turn where
  task := "Describe the project."
  turn := turn
  toolResults := List.replicate results ⟨"call_0", "read_file", [("call_id", .str "call_0")]⟩
  messageBudget := 8000
  offersTools := true

def readReply : Reply := .response "" [⟨"", "read_file", [("path", .str "main.cpp")], true⟩] true

def twoTurns : List Attempt := [⟨readTurn 1 0, readReply⟩, ⟨readTurn 2 1, .response "Done." [] true⟩]

theorem well_formed_two_turns :
    Served (tasksOf twoTurns) (step plainHost Planner.start ⟨readTurn 1 0, readReply⟩).1 ∧
      Served (tasksOf twoTurns) (step plainHost (step plainHost Planner.start ⟨readTurn 1 0, readReply⟩).2
        ⟨readTurn 2 1, .response "Done." [] true⟩).1 := by
  have h := well_formed plainHost twoTurns ?_ ?_
  · exact ⟨h _ (List.mem_cons_self ..), h _ (List.mem_cons_of_mem _ (List.mem_cons_self ..))⟩
  · unfold HostSupplies Supplied
    decide +kernel
  · intro e he
    simp only [twoTurns, trace_cons, trace_nil, List.mem_cons, List.not_mem_nil, or_false] at he
    rcases he with rfl | rfl
    · intro text calls hdecode
      refine ⟨fun _ call _ => ⟨nofun, nofun⟩, nofun⟩
    · intro text calls hdecode
      obtain ⟨-, rfl⟩ := Prod.mk.inj (Option.some.inj hdecode)
      exact ⟨nofun, nofun⟩

def Outcome.isRefused : Outcome → Bool
  | .refused _ => true
  | _ => false

def threeTurns : List Attempt := [⟨readTurn 1 0, readReply⟩, ⟨readTurn 2 1, readReply⟩, ⟨readTurn 3 2, readReply⟩]

theorem id_refused : ¬ ∀ attempts, HostSupplies plainHost attempts →
    ∀ e ∈ trace (step plainHost) Planner.start attempts, Served (tasksOf attempts) e.outcome := by
  intro h
  have hsupplies : HostSupplies plainHost threeTurns := by
    unfold HostSupplies Supplied
    decide +kernel
  have hnone : ((trace (step plainHost) Planner.start threeTurns).all fun e => !e.outcome.isRefused) = true := by
    rw [List.all_eq_true]
    intro e he
    have hserved := h threeTurns hsupplies e he
    cases houtcome : e.outcome with
    | refused callId =>
      rw [houtcome] at hserved
      exact hserved.elim
    | sent messages => rfl
    | unsent => rfl
  revert hnone
  decide +kernel

end PromptForge.Conversation
