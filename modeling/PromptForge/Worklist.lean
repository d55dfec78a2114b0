import Mathlib.Data.List.Perm.Subperm
import Mathlib.Logic.Relation
import Mathlib.Tactic
import PromptForge.Runs

/-!
# Worklists

A list of nodes that grows while it is passed from the front: each node gives items, an item may
lead to a node, and a node that is not in the list yet goes to its end.
-/
namespace PromptForge.Worklist
open Runs

universe u v
variable {α : Type u} {ι : Type u} {ε : Type v}

/-- How a node is left: its items, and the node that an item leads to. -/
structure Ways (α : Type u) (ι : Type u) (ε : Type v) where
  items : α → Except ε (List ι)
  target : α → ι → Except ε (Option α)

section Pass
variable [DecidableEq α] (ways : Ways α ι ε) (limit : Option ℕ) (full : ε)

def enqueue (node : α) : List α → List ι → Except ε (List α)
  | queue, [] => .ok queue
  | queue, item :: items => do
    match ← ways.target node item with
    | none => enqueue node queue items
    | some next =>
      if next ∈ queue then enqueue node queue items
      else if limit.any (· ≤ queue.length) then .error full
      else enqueue node (queue ++ [next]) items

def explore : ℕ → List α → ℕ → Except ε (List α)
  | 0, queue, _ => .ok queue
  | fuel + 1, queue, position =>
    match queue[position]? with
    | none => .ok queue
    | some node => do
      let items ← ways.items node
      let queue ← enqueue ways limit full node queue items
      explore fuel queue (position + 1)

end Pass

variable (ways : Ways α ι ε)

def Leads (node next : α) : Prop := ∃ items, ways.items node = .ok items ∧ ∃ item ∈ items, ways.target node item = .ok (some next)

def Passed (queue : List α) (node : α) : Prop :=
  ∃ items, ways.items node = .ok items ∧ ∀ item ∈ items, ∃ next, ways.target node item = .ok next ∧ ∀ node', next = some node' → node' ∈ queue

variable {ways} {limit : Option ℕ} {full : ε} {node : α} {queue queue' start : List α} {items : List ι}

/-- What one node adds to the list. -/
structure Enqueued (ways : Ways α ι ε) (limit : Option ℕ) (node : α) (items : List ι) (queue queue' : List α) : Prop where
  grows : queue <+: queue'
  nodup : queue.Nodup → queue'.Nodup
  inside : ∀ item ∈ items, ∃ next, ways.target node item = .ok next ∧ ∀ node', next = some node' → node' ∈ queue'
  origin : ∀ node' ∈ queue', node' ∈ queue ∨ ∃ item ∈ items, ways.target node item = .ok (some node')
  length : ∀ bound, limit = some bound → queue'.length ≤ max queue.length bound

lemma enqueued [DecidableEq α] (h : enqueue ways limit full node queue items = .ok queue') : Enqueued ways limit node items queue queue' := by
  induction items generalizing queue with
  | nil =>
    cases h
    exact ⟨List.prefix_refl _, id, by simp, fun node' hnode => .inl hnode, fun bound _ => le_max_left ..⟩
  | cons item items ih =>
    obtain ⟨next, hnext, h⟩ := ok_of_bind h
    have later : ∀ {middle : List α}, Enqueued ways limit node items middle queue' → queue <+: middle → (queue.Nodup → middle.Nodup) →
        (∀ node', next = some node' → node' ∈ middle) → (∀ node' ∈ middle, node' ∈ queue ∨ next = some node') →
        (∀ bound, limit = some bound → middle.length ≤ max queue.length bound) → Enqueued ways limit node (item :: items) queue queue' := by
      intro middle hrest hgrows hnodup hin horigin hlength
      refine ⟨hgrows.trans hrest.grows, fun h => hrest.nodup (hnodup h), ?_, fun node' hnode => ?_, fun bound hbound => ?_⟩
      · exact List.forall_mem_cons.mpr ⟨⟨next, hnext, fun node' hsome => hrest.grows.subset (hin node' hsome)⟩, hrest.inside⟩
      · rcases hrest.origin node' hnode with hmiddle | ⟨item', hitem, htarget⟩
        · rcases horigin node' hmiddle with hqueue | hsome
          · exact .inl hqueue
          · exact .inr ⟨item, List.mem_cons_self .., by rw [hnext, hsome]⟩
        · exact .inr ⟨item', List.mem_cons_of_mem _ hitem, htarget⟩
      · have h := hrest.length bound hbound
        have h' := hlength bound hbound
        omega
    cases next with
    | none => exact later (ih h) (List.prefix_refl _) id (by simp) (fun node' hnode => .inl hnode) fun bound _ => le_max_left ..
    | some next =>
      dsimp only at h
      split at h
      · rename_i hmem
        refine later (ih h) (List.prefix_refl _) id ?_ (fun node' hnode => .inl hnode) fun bound _ => le_max_left ..
        intro node' hsome
        exact Option.some.inj hsome ▸ hmem
      · rename_i hnew
        split at h
        · cases h
        · rename_i hroom
          refine later (ih h) (List.prefix_append ..) ?_ ?_ ?_ ?_
          · intro hnodup
            rw [List.nodup_append]
            exact ⟨hnodup, List.nodup_singleton _, fun a ha b hb hsame => hnew (by simpa [← hsame, List.mem_singleton.mp (hsame ▸ hb)] using ha)⟩
          · intro node' hsome
            simp [Option.some.inj hsome]
          · intro node' hnode
            rcases List.mem_append.mp hnode with hqueue | hlast
            · exact .inl hqueue
            · exact .inr (by rw [List.mem_singleton.mp hlast])
          · intro bound hbound
            have hlt : queue.length < bound := by simpa [hbound] using hroom
            simp only [List.length_append, List.length_singleton]
            omega

/-- A list of which a beginning has been passed. -/
structure Partway (ways : Ways α ι ε) (start queue : List α) (position : ℕ) : Prop where
  nodup : queue.Nodup
  begins : start <+: queue
  passed : ∀ node ∈ queue.take position, Passed ways queue node
  reached : ∀ node ∈ queue, ∃ first ∈ start, Relation.ReflTransGen (Leads ways) first node

lemma Partway.next {position : ℕ} (h : Partway ways start queue position) (hnode : queue[position]? = some node)
    (hitems : ways.items node = .ok items) (hqueue : Enqueued ways limit node items queue queue') : Partway ways start queue' (position + 1) := by
  obtain ⟨hlt, hget⟩ := List.getElem?_eq_some_iff.mp hnode
  have hmem : node ∈ queue := List.mem_of_getElem? hnode
  have htake : queue'.take (position + 1) = queue.take position ++ [node] := by
    obtain ⟨rest, hrest⟩ := hqueue.grows
    rw [← hrest, List.take_append_of_le_length (by omega), List.take_add_one, hnode]
    rfl
  refine ⟨hqueue.nodup h.nodup, h.begins.trans hqueue.grows, fun other hother => ?_, fun other hother => ?_⟩
  · rw [htake, List.mem_append, List.mem_singleton] at hother
    rcases hother with hbefore | rfl
    · obtain ⟨items', hitems', hall⟩ := h.passed other hbefore
      exact ⟨items', hitems', fun item hitem => (hall item hitem).imp fun _ hnext => ⟨hnext.1, fun node' hsome => hqueue.grows.subset (hnext.2 node' hsome)⟩⟩
    · exact ⟨items, hitems, hqueue.inside⟩
  · rcases hqueue.origin other hother with hbefore | ⟨item, hitem, htarget⟩
    · exact h.reached other hbefore
    · obtain ⟨first, hfirst, hpath⟩ := h.reached node hmem
      exact ⟨first, hfirst, hpath.tail ⟨items, hitems, item, hitem, htarget⟩⟩

lemma partway_explore [DecidableEq α] {fuel position : ℕ} (h : Partway ways start queue position)
    (hexplore : explore ways limit full fuel queue position = .ok queue') :
    ∃ last, Partway ways start queue' last ∧ (queue'.length ≤ last ∨ last = position + fuel) ∧
      ∀ bound, limit = some bound → queue'.length ≤ max queue.length bound := by
  induction fuel generalizing queue position with
  | zero =>
    cases hexplore
    exact ⟨position, h, .inr rfl, fun bound _ => le_max_left ..⟩
  | succ fuel ih =>
    unfold explore at hexplore
    cases hnode : queue[position]? with
    | none =>
      rw [hnode] at hexplore
      cases hexplore
      exact ⟨position, h, .inl (List.getElem?_eq_none_iff.mp hnode), fun bound _ => le_max_left ..⟩
    | some node =>
      simp only [hnode] at hexplore
      obtain ⟨items, hitems, hexplore⟩ := ok_of_bind hexplore
      obtain ⟨middle, hmiddle, hexplore⟩ := ok_of_bind hexplore
      have hqueue := enqueued hmiddle
      obtain ⟨last, hlast, hend, hlength⟩ := ih (h.next hnode hitems hqueue) hexplore
      refine ⟨last, hlast, hend.imp_right fun hsame => by omega, fun bound hbound => ?_⟩
      have h1 := hlength bound hbound
      have h2 := hqueue.length bound hbound
      omega

/-- A list that is closed under the ways of its nodes, all of them reached from the start. -/
structure Explored (ways : Ways α ι ε) (start queue : List α) : Prop where
  nodup : queue.Nodup
  begins : start <+: queue
  passed : ∀ node ∈ queue, Passed ways queue node
  reached : ∀ node ∈ queue, ∃ first ∈ start, Relation.ReflTransGen (Leads ways) first node

lemma partway_start (hstart : start.Nodup) : Partway ways start start 0 :=
  ⟨hstart, List.prefix_refl _, by simp, fun node hnode => ⟨node, hnode, .refl⟩⟩

lemma explored_of_partway {last : ℕ} (h : Partway ways start queue last) (hlength : queue.length ≤ last) : Explored ways start queue :=
  ⟨h.nodup, h.begins, by simpa [List.take_of_length_le hlength] using h.passed, h.reached⟩

lemma explored_of_limit [DecidableEq α] {fuel bound : ℕ} (hstart : start.Nodup) (hfuel : max start.length bound ≤ fuel)
    (h : explore ways (some bound) full fuel start 0 = .ok queue) : Explored ways start queue ∧ queue.length ≤ max start.length bound := by
  obtain ⟨last, hlast, hend, hlength⟩ := partway_explore (partway_start hstart) h
  have hbound := hlength bound rfl
  exact ⟨explored_of_partway hlast (by omega), hbound⟩

lemma stays {r r' : α → α → Prop} {nodes : List α} (hclosed : ∀ node ∈ nodes, ∀ next, r node next → next ∈ nodes) {first : α} (hfirst : first ∈ nodes)
    (hpath : Relation.ReflTransGen r first node) (hstep : ∀ node ∈ nodes, ∀ next, r node next → r' node next) :
    node ∈ nodes ∧ Relation.ReflTransGen r' first node := by
  induction hpath with
  | refl => exact ⟨hfirst, .refl⟩
  | tail _ hlast ih => exact ⟨hclosed _ ih.1 _ hlast, ih.2.tail (hstep _ ih.1 _ hlast)⟩

lemma explored_of_finite [DecidableEq α] {fuel : ℕ} {nodes : List α} (hstart : start.Nodup) (hfuel : nodes.length ≤ fuel) (hnodes : start ⊆ nodes)
    (hclosed : ∀ node ∈ nodes, ∀ next, Leads ways node next → next ∈ nodes) (h : explore ways limit full fuel start 0 = .ok queue) :
    Explored ways start queue := by
  obtain ⟨last, hlast, hend, -⟩ := partway_explore (partway_start hstart) h
  have hsub : queue ⊆ nodes := fun node hnode => by
    obtain ⟨first, hfirst, hpath⟩ := hlast.reached node hnode
    exact (stays hclosed (hnodes hfirst) hpath fun _ _ _ hleads => hleads).1
  have hlength := (hlast.nodup.subperm hsub).length_le
  exact explored_of_partway hlast (by omega)

lemma enqueue_ok [DecidableEq α] {nodes : List α} (hnodup : queue.Nodup) (hsub : queue ⊆ nodes)
    (hroom : ∀ bound, limit = some bound → nodes.length ≤ bound ∨ nodes ⊆ queue)
    (hitems : ∀ item ∈ items, ∃ next, ways.target node item = .ok next ∧ ∀ node', next = some node' → node' ∈ nodes) :
    ∃ queue', enqueue ways limit full node queue items = .ok queue' ∧ queue'.Nodup ∧ queue ⊆ queue' ∧ queue' ⊆ nodes := by
  induction items generalizing queue with
  | nil => exact ⟨queue, rfl, hnodup, List.Subset.refl _, hsub⟩
  | cons item items ih =>
    obtain ⟨next, hnext, hin⟩ := hitems item (List.mem_cons_self ..)
    have hitems' := fun item' hitem => hitems item' (List.mem_cons_of_mem _ hitem)
    have hstep : enqueue ways limit full node queue (item :: items) = (Except.ok next).bind fun found => match found with
        | none => enqueue ways limit full node queue items
        | some next =>
          if next ∈ queue then enqueue ways limit full node queue items
          else if limit.any (· ≤ queue.length) then .error full
          else enqueue ways limit full node (queue ++ [next]) items := by
      rw [← hnext]
      rfl
    rw [hstep]
    cases next with
    | none => exact ih hnodup hsub hroom hitems'
    | some next =>
      have hnode : next ∈ nodes := hin next rfl
      by_cases hmem : next ∈ queue
      · obtain ⟨queue', hqueue', hrest⟩ := ih hnodup hsub hroom hitems'
        exact ⟨queue', by simpa [Except.bind, hmem] using hqueue', hrest⟩
      · have hnodup' : (next :: queue).Nodup := List.nodup_cons.mpr ⟨hmem, hnodup⟩
        have hsub' : next :: queue ⊆ nodes := List.cons_subset.mpr ⟨hnode, hsub⟩
        have hlength : queue.length + 1 ≤ nodes.length := by simpa using (hnodup'.subperm hsub').length_le
        have hfree : limit.any (· ≤ queue.length) = false := by
          cases limit with
          | none => rfl
          | some bound =>
            rcases hroom bound rfl with hbound | hall
            · simp only [Option.any_some, decide_eq_false_iff_not]
              omega
            · exact absurd (hall hnode) hmem
        have hperm : (queue ++ [next]).Perm (next :: queue) := List.perm_append_singleton ..
        obtain ⟨queue', hqueue', hnodup'', hgrows, hin'⟩ := @ih (queue ++ [next]) (hperm.nodup_iff.mpr hnodup') (fun _ h => hsub' (hperm.subset h))
          (fun bound hbound => (hroom bound hbound).imp_right fun hall => List.Subset.trans hall (List.subset_append_left ..)) hitems'
        refine ⟨queue', ?_, hnodup'', List.Subset.trans (List.subset_append_left ..) hgrows, hin'⟩
        simpa [Except.bind, hmem, hfree] using hqueue'

lemma explore_ok [DecidableEq α] {fuel position : ℕ} {nodes : List α} (hnodup : queue.Nodup) (hsub : queue ⊆ nodes)
    (hroom : ∀ bound, limit = some bound → nodes.length ≤ bound ∨ nodes ⊆ queue) (hclosed : ∀ node ∈ nodes, Passed ways nodes node) :
    ∃ queue', explore ways limit full fuel queue position = .ok queue' := by
  induction fuel generalizing queue position with
  | zero => exact ⟨queue, rfl⟩
  | succ fuel ih =>
    unfold explore
    cases hnode : queue[position]? with
    | none => exact ⟨queue, rfl⟩
    | some node =>
      obtain ⟨items, hitems, htargets⟩ := hclosed node (hsub (List.mem_of_getElem? hnode))
      obtain ⟨middle, hmiddle, hnodup', hgrows, hin⟩ := @enqueue_ok _ _ _ ways limit full node queue items _ nodes hnodup hsub hroom htargets
      obtain ⟨queue', hqueue'⟩ := @ih middle (position + 1) hnodup' hin fun bound hbound => (hroom bound hbound).imp_right fun hall => List.Subset.trans hall hgrows
      refine ⟨queue', ?_⟩
      simp only [hitems]
      exact (congrArg (·.bind fun middle => explore ways limit full fuel middle (position + 1)) hmiddle).trans hqueue'

lemma Explored.mem_iff (h : Explored ways start queue) : node ∈ queue ↔ ∃ first ∈ start, Relation.ReflTransGen (Leads ways) first node := by
  constructor
  · exact h.reached node
  · rintro ⟨first, hfirst, hpath⟩
    induction hpath with
    | refl => exact h.begins.subset hfirst
    | tail _ hleads ih =>
      obtain ⟨items, hitems, hall⟩ := h.passed _ ih
      obtain ⟨items', hitems', item, hitem, htarget⟩ := hleads
      cases hitems.symm.trans hitems'
      obtain ⟨next, hnext, hin⟩ := hall item hitem
      cases hnext.symm.trans htarget
      exact hin _ rfl

end PromptForge.Worklist
