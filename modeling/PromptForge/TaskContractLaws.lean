import PromptForge.TaskContracts

namespace PromptForge.TaskContracts
open Runs

variable {host : Host}

def ids (items : List Requirement) : List ℕ := items.map (·.id)

@[simp] lemma ids_append (items more : List Requirement) : ids (items ++ more) = ids items ++ ids more :=
  List.map_append ..

lemma mem_ids {items : List Requirement} {item : Requirement} (h : item ∈ items) : item.id ∈ ids items :=
  List.mem_map.2 ⟨item, h, rfl⟩

lemma ids_supersede (request : List Char) (items : List Requirement) :
    ids (items.map (supersede request)) = ids items := by
  unfold ids
  rw [List.map_map]
  rfl

@[simp] lemma highestId_append (items more : List Requirement) :
    highestId (items ++ more) = max (highestId items) (highestId more) := by
  induction items with
  | nil => exact (Nat.zero_max _).symm
  | cons item items ih =>
    change max item.id (highestId (items ++ more)) = max (max item.id (highestId items)) (highestId more)
    rw [ih, max_assoc]

lemma le_highestId {items : List Requirement} {n : ℕ} (h : n ∈ ids items) : n ≤ highestId items := by
  induction items with
  | nil => cases h
  | cons item items ih =>
    rcases List.mem_cons.1 h with rfl | h
    · exact le_max_left ..
    · exact (ih h).trans (le_max_right ..)

lemma highestId_le {items : List Requirement} {n : ℕ} (h : ∀ m ∈ ids items, m ≤ n) : highestId items ≤ n := by
  induction items with
  | nil => exact Nat.zero_le n
  | cons item items ih =>
    exact max_le (h _ (List.mem_cons_self ..)) (ih fun m hm => h m (List.mem_cons_of_mem _ hm))

lemma highestId_perm {items more : List Requirement} (h : (ids items).Perm (ids more)) :
    highestId items = highestId more :=
  le_antisymm (highestId_le fun _ hm => le_highestId (h.subset hm))
    (highestId_le fun _ hm => le_highestId (h.symm.subset hm))

lemma lt_additions {last : ℕ} {known : List String} {items : List Requirement} {n : ℕ}
    (h : n ∈ ids (additions last known items)) : last < n := by
  induction items generalizing last known with
  | nil => cases h
  | cons item items ih =>
    unfold additions at h
    split at h
    · exact ih h
    · rcases List.mem_cons.1 h with rfl | h
      · exact Nat.lt_succ_self last
      · exact (Nat.lt_succ_self last).trans (ih h)

lemma additions_increase (last : ℕ) (known : List String) (items : List Requirement) :
    (ids (additions last known items)).Pairwise (· < ·) := by
  induction items generalizing last known with
  | nil => exact List.Pairwise.nil
  | cons item items ih =>
    unfold additions
    split
    · exact ih last known
    · exact List.Pairwise.cons (fun n hn => lt_additions hn) (ih (last + 1) (item.stableKey :: known))

lemma requested_increase (request : List Char) : (ids (requested host request)).Pairwise (· < ·) := by
  unfold ids requested
  rw [List.pairwise_map, List.pairwise_iff_getElem]
  intro i j hi hj hij
  rw [List.getElem_mapIdx, List.getElem_mapIdx]
  exact Nat.succ_lt_succ hij

section Steps
variable {c c' : Contract} {call : Call}

lemma ids_partition (c : Contract) (request : List Char) :
    (ids (inherited host c request ++ superseded host c request)).Perm (ids c.items) := by
  have hsplit : (inherited host c request ++ c.requirements.filter (corrects host request)).Perm c.requirements :=
    List.perm_append_comm.trans (List.filter_append_perm ..)
  unfold superseded
  rw [ids_append, ids_append, ids_supersede]
  refine List.perm_append_left_iff _ |>.2 List.perm_append_comm |>.trans ?_
  rw [← List.append_assoc, Contract.items, ids_append]
  refine List.Perm.append_right _ ?_
  rw [← ids_append]
  exact hsplit.map _

lemma create_ok (h : createTaskContract host call = .ok c) :
    validRequest call.request ∧ call.workspace = some c.workspaceRoot ∧ c.projectId = call.projectId ∧
      c.sessionId = call.sessionId ∧ c.requirements = requested host call.request ∧
      c.supersededRequirements = [] := by
  obtain ⟨_, hvalid, h⟩ := ok_of_bind h
  obtain ⟨root, hroot, h⟩ := ok_of_bind h
  cases Except.ok.inj h
  refine ⟨of_require hvalid, ?_, rfl, rfl, rfl, rfl⟩
  unfold resolve at hroot
  split at hroot
  · cases Except.ok.inj hroot
    assumption
  · cases hroot

lemma items_create (h : createTaskContract host call = .ok c) : c.items = requested host call.request := by
  obtain ⟨-, -, -, -, hactive, hold⟩ := create_ok h
  rw [Contract.items, hactive, hold, List.append_nil]

variable (h : reviseTaskContract host c call = .ok c')

include h in
lemma revise_ok (hsame : SameTask c call) :
    SameTask c' call ∧
      (inherited host c call.request).length + (requested host call.request).length ≤ 64 ∧
      c'.requirements = inherited host c call.request ++ added host c call.request ∧
      c'.supersededRequirements = (superseded host c call.request).rtake 64 := by
  obtain ⟨current, hcurrent, h⟩ := ok_of_bind h
  obtain ⟨-, hroot, hproject, hsession, hactive, -⟩ := create_ok hcurrent
  rw [if_pos hsame] at h
  obtain ⟨_, hlimit, h⟩ := ok_of_bind h
  cases Except.ok.inj h
  rw [hactive] at hlimit
  exact ⟨⟨hproject, hroot.symm, hsession⟩, of_require hlimit, rfl, rfl⟩

include h in
lemma revise_other (hother : ¬ SameTask c call) :
    createTaskContract host call = .ok c' := by
  obtain ⟨current, hcurrent, h⟩ := ok_of_bind h
  rw [if_neg hother] at h
  cases Except.ok.inj h
  exact hcurrent

include h in
lemma mem_items_revise (hsame : SameTask c call)
    {item : Requirement} (hitem : item ∈ c'.items) :
    (∃ old ∈ c.items, old.id = item.id ∧ old.text = item.text) ∨ highestId c.items < item.id := by
  obtain ⟨-, -, hactive, hold⟩ := revise_ok h hsame
  rw [Contract.items, hactive, hold, List.append_assoc] at hitem
  rcases List.mem_append.1 hitem with hinherited | hitem
  · exact .inl ⟨item, List.mem_append_left _ (List.mem_filter.1 hinherited).1, rfl, rfl⟩
  rcases List.mem_append.1 hitem with hadded | hold
  · have hnew := lt_additions (mem_ids hadded)
    rw [highestId_perm (ids_partition c call.request)] at hnew
    exact .inr hnew
  · rcases List.mem_append.1 (List.mem_of_mem_drop hold) with hold | hmoved
    · exact .inl ⟨item, List.mem_append_right _ hold, rfl, rfl⟩
    · obtain ⟨old, hmem, rfl⟩ := List.mem_map.1 hmoved
      exact .inl ⟨old, List.mem_append_left _ (List.mem_filter.1 hmem).1, rfl, rfl⟩

def Distinct (c : Contract) : Prop := (ids c.items).Nodup

lemma distinct_create (h : createTaskContract host call = .ok c) : Distinct c := by
  unfold Distinct
  rw [items_create h]
  exact (requested_increase call.request).imp fun hlt => hlt.ne

include h in
lemma distinct_revise (hc : Distinct c) : Distinct c' := by
  by_cases hsame : SameTask c call
  · obtain ⟨-, -, hactive, hold⟩ := revise_ok h hsame
    have hall : (ids (inherited host c call.request ++ superseded host c call.request)).Nodup :=
      (ids_partition c call.request).nodup_iff.2 hc
    have hkept : (ids (inherited host c call.request ++ (superseded host c call.request).rtake 64)).Nodup :=
      hall.sublist (((List.drop_sublist ..).append_left _).map _)
    have hnew : ∀ n ∈ ids (added host c call.request),
        n ∉ ids (inherited host c call.request ++ (superseded host c call.request).rtake 64) := by
      intro n hn hmem
      have hlt : highestId (inherited host c call.request ++ superseded host c call.request) < n := lt_additions hn
      have hle := le_highestId ((((List.drop_sublist _ _).append_left _).map _).subset hmem)
      exact absurd hle hlt.not_ge
    unfold Distinct
    rw [Contract.items, hactive, hold, List.append_assoc, ids_append, ids_append]
    rw [ids_append] at hkept hnew
    refine (List.perm_append_comm_assoc ..).nodup_iff.1 (List.nodup_append'.2 ⟨?_, hkept, ?_⟩)
    · exact (additions_increase ..).imp fun hlt => hlt.ne
    · exact fun n hn hmem => hnew n hn hmem
  · exact distinct_create (revise_other h hsame)

lemma distinct_final {calls : List Call} (hc : Distinct c) : Distinct (final (revise host) c calls) := by
  refine (invariant ?_ hc).2
  intro c call hc
  unfold revise
  rcases hr : reviseTaskContract host c call with error | c'
  · exact hc
  · exact distinct_revise hr hc

def Refused (host : Host) (c : Contract) (call : Call) : Prop :=
  ¬ validRequest call.request ∨ call.workspace = none ∨
    SameTask c call ∧ 64 < (inherited host c call.request).length + (requested host call.request).length

/-- The highest id is still known after a revision: a new requirement has taken one above it,
    or the item that has it is inherited or among the last 64 superseded. -/
def RemembersHighest (host : Host) (c : Contract) (call : Call) : Prop :=
  added host c call.request ≠ [] ∨
    highestId (inherited host c call.request ++ (superseded host c call.request).rtake 64) = highestId c.items

def KeepsIds (host : Host) (c : Contract) (call : Call) : Prop :=
  Refused host c call ∨ SameTask c call ∧ RemembersHighest host c call

lemma create_refused (h : ¬ validRequest call.request ∨ call.workspace = none) :
    ∃ error, createTaskContract host call = .error error := by
  rcases hr : createTaskContract host call with error | c
  · exact ⟨error, rfl⟩
  · obtain ⟨hvalid, hroot, -⟩ := create_ok hr
    rcases h with hinvalid | hmissing
    · exact absurd hvalid hinvalid
    · rw [hmissing] at hroot
      cases hroot

lemma revise_refused (h : Refused host c call) : (revise host c call).2 = c := by
  unfold revise
  rcases hr : reviseTaskContract host c call with error | c'
  · rfl
  · obtain ⟨current, hcurrent, -⟩ := ok_of_bind hr
    rcases h with hinvalid | hmissing | ⟨hsame, hmany⟩
    · obtain ⟨error, herror⟩ := @create_refused host call (.inl hinvalid)
      exact absurd (hcurrent.symm.trans herror) nofun
    · obtain ⟨error, herror⟩ := @create_refused host call (.inr hmissing)
      exact absurd (hcurrent.symm.trans herror) nofun
    · exact absurd (revise_ok hr hsame).2.1 hmany.not_ge

/-- The contract does not give the id of the item to another text, and will number on
    above it. -/
def Agrees (item : Requirement) (c : Contract) : Prop :=
  item.id ≤ highestId c.items ∧ ∀ other ∈ c.items, other.id = item.id → other.text = item.text

lemma agrees_of_mem {item : Requirement} (hc : Distinct c) (h : item ∈ c.items) : Agrees item c := by
  refine ⟨le_highestId (mem_ids h), fun other hother hid => ?_⟩
  rw [List.inj_on_of_nodup_map hc hother h hid]

include h in
lemma highestId_revise (hsame : SameTask c call)
    (hhighest : RemembersHighest host c call) : highestId c.items ≤ highestId c'.items := by
  obtain ⟨-, -, hactive, hold⟩ := revise_ok h hsame
  change _ ≤ highestId (c'.requirements ++ c'.supersededRequirements)
  rw [hactive, hold]
  rcases hhighest with hadded | hkept
  · obtain ⟨new, hnew⟩ := List.exists_mem_of_ne_nil _ hadded
    have hlt := lt_additions (mem_ids hnew)
    rw [highestId_perm (ids_partition c call.request)] at hlt
    refine hlt.le.trans (le_highestId (mem_ids ?_))
    exact List.mem_append_left _ (List.mem_append_right _ hnew)
  · rw [← hkept, highestId_append, highestId_append, highestId_append]
    exact max_le_max_right _ (le_max_left ..)

lemma agrees_revise {item : Requirement} (hagrees : Agrees item c) (hkeeps : KeepsIds host c call) :
    Agrees item (revise host c call).2 := by
  rcases hkeeps with hrefused | ⟨hsame, hhighest⟩
  · rwa [revise_refused hrefused]
  unfold revise
  rcases hr : reviseTaskContract host c call with error | c'
  · exact hagrees
  refine ⟨hagrees.1.trans (highestId_revise hr hsame hhighest), fun other hother hid => ?_⟩
  rcases mem_items_revise hr hsame hother with ⟨old, hold, holdId, htext⟩ | hnew
  · exact htext.symm.trans (hagrees.2 old hold (holdId.trans hid))
  · exact absurd (hagrees.1.trans_lt hnew) hid.not_gt

end Steps

/-- In a chain whose calls keep the ids, no contract has two requirements with one id, and no
    later contract has another text under an id. -/
theorem id_names_one_text (host : Host) (first : Call) (c : Contract) (hc : createTaskContract host first = .ok c)
    (earlier later : List Call)
    (hkeeps : ∀ e ∈ trace (revise host) c (earlier ++ later), KeepsIds host e.before e.action) :
    (ids (final (revise host) c earlier).items).Nodup ∧
      ∀ item ∈ (final (revise host) c earlier).items,
        ∀ other ∈ (final (revise host) c (earlier ++ later)).items, other.id = item.id → other.text = item.text := by
  have hdistinct := @distinct_final host c earlier (distinct_create hc)
  refine ⟨hdistinct, fun item hitem other hother hid => ?_⟩
  have hlater : ∀ e ∈ trace (revise host) (final (revise host) c earlier) later, KeepsIds host e.before e.action := by
    intro e he
    rw [trace_append] at hkeeps
    exact hkeeps e (List.mem_append_right _ he)
  have hfinal : Agrees item (final (revise host) (final (revise host) c earlier) later) :=
    (invariant_of (fun _ _ hagrees hk => agrees_revise hagrees hk) (agrees_of_mem hdistinct hitem) hlater).2
  rw [final_append] at hother
  exact hfinal.2 other hother hid

def boardHost : Host where
  sha256 text :=
    if text = "aa".toList then "961b6dd3ede3cb8ecbaacbd68de040cd78eb2ed5889130cceb4c49268ea4d506"
    else if text = "bb".toList then "3b64db95cb55c763391c707108489ae18b4112d783300de38e033b4c98c3deaf"
    else if text = "cc".toList then "355b1bbfc96725cdce8f4a2708fda310a80e6d13315aec4e5eed2a75fe8032ce"
    else ""
  unicode := ⟨fun _ => false, fun _ => false⟩

def ask (request : List Char) : Call := ⟨request, "board", some "s1", some "/work/board"⟩

def boardContract (request : List Char) : Contract where
  projectId := "board"
  sessionId := some "s1"
  workspaceRoot := "/work/board"
  request := request
  requirements := requested boardHost request
  supersededRequirements := []
  exclusions := (partitionRequest boardHost request).2
  supersededExclusions := []
  requestContext := (content boardHost request).2

lemma create_boardContract {request : List Char} (h : validRequest request) :
    createTaskContract boardHost (ask request) = .ok (boardContract request) :=
  require_bind h _ _

theorem id_names_one_text_aa :
    (ids (final (revise boardHost) (boardContract "aa".toList) []).items).Nodup ∧
      ∀ item ∈ (final (revise boardHost) (boardContract "aa".toList) []).items,
        ∀ other ∈ (final (revise boardHost) (boardContract "aa".toList) ([] ++ [ask "bb".toList])).items,
          other.id = item.id → other.text = item.text := by
  refine id_names_one_text boardHost (ask "aa".toList) _ (create_boardContract (by decide)) [] [ask "bb".toList] ?_
  rw [List.nil_append, trace_cons, trace_nil]
  refine List.forall_mem_singleton.2 (.inr ⟨by decide, .inl ?_⟩)
  change added boardHost (boardContract "aa".toList) "bb".toList ≠ []
  decide +kernel

def sections : List Char := (List.replicate 64 "bb\n".toList).flatten ++ "Provide:\naa".toList

/-- The 65th requirement is the first to be superseded, 64 more push it out, and its id is given
    to the next text. -/
theorem id_given_twice : createTaskContract boardHost (ask sections) = .ok (boardContract sections) ∧
    ∃ item ∈ (boardContract sections).items,
      ∃ other ∈ (final (revise boardHost) (boardContract sections)
          [ask "Do not use aa".toList, ask "Do not use bb".toList, ask "cc".toList]).items,
        other.id = item.id ∧ other.text ≠ item.text := by
  refine ⟨create_boardContract (by decide +kernel), ?_⟩
  decide +kernel

end PromptForge.TaskContracts
