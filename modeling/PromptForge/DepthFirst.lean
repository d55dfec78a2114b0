import Mathlib.Data.List.Perm.Subperm
import Mathlib.Logic.Relation
import Mathlib.Order.WellFounded
import PromptForge.Runs
import PromptForge.Tables

/-!
# Depth-first search

A finite graph as a table of the nodes that each node points to. The search follows every edge
and fails where it comes to a node that it is in, or to none.
-/
namespace PromptForge.DepthFirst
open Runs Tables

universe u
variable {α : Type u} [DecidableEq α]

inductive Fault where
  | cycle
  | unknown
  | depth
  deriving DecidableEq

abbrev Graph (α : Type u) := List (α × List α)

variable (graph : Graph α)

def edges (node : α) : Option (List α) := (lookup Prod.fst graph node).map Prod.snd

/-- `visiting` are the nodes that the search is in, `visited` those it is through with. -/
def visit : ℕ → List α → List α → α → Except Fault (List α)
  | 0, _, _, _ => .error .depth
  | depth + 1, visiting, visited, node =>
    if node ∈ visiting then .error .cycle
    else
      match edges graph node with
      | none => .error .unknown
      | some next =>
        if node ∈ visited then .ok visited
        else do
          let visited ← next.foldlM (fun visited node' => visit depth (node :: visiting) visited node') visited
          .ok (node :: visited)

def visitAll : Except Fault (List α) :=
  (graph.map Prod.fst).foldlM (fun visited node => visit graph (graph.length + 1) [] visited node) []

def Edge (node next : α) : Prop := ∃ nodes, edges graph node = some nodes ∧ next ∈ nodes

def Closed : Prop := ∀ node next, Edge graph node next → (edges graph next).isSome = true

def Acyclic : Prop := ∀ node, ¬ Relation.TransGen (Edge graph) node node

variable {graph} {visiting visited visited' : List α} {node : α} {depth : ℕ}

lemma edges_isSome : (edges graph node).isSome = true ↔ node ∈ graph.map Prod.fst := by
  constructor
  · intro h
    obtain ⟨nodes, hnodes⟩ := Option.isSome_iff_exists.mp h
    obtain ⟨row, hrow, -⟩ := Option.map_eq_some_iff.mp hnodes
    exact List.mem_map.mpr ⟨row, lookup_mem hrow, lookup_key hrow⟩
  · intro h
    obtain ⟨row, hrow, hkey⟩ := List.mem_map.mp h
    cases hlookup : lookup Prod.fst graph node with
    | none => exact absurd hkey (lookup_eq_none.mp hlookup row hrow)
    | some row => simp [edges, hlookup]

/-- What the search is through with: every edge leads to more of it, and none leads in a circle. -/
def Settled (graph : Graph α) (visited : List α) : Prop :=
  ∀ node ∈ visited, (edges graph node).isSome = true ∧ (∀ next, Edge graph node next → next ∈ visited) ∧
    Acc (fun next node => Edge graph node next) node

lemma settled_cons (h : Settled graph visited) {nodes : List α} (hnodes : edges graph node = some nodes) (hall : ∀ next ∈ nodes, next ∈ visited) :
    Settled graph (node :: visited) := by
  have hnext : ∀ next, Edge graph node next → next ∈ visited := by
    rintro next ⟨nodes', hnodes', hmem⟩
    rw [hnodes] at hnodes'
    cases hnodes'
    exact hall next hmem
  intro node' hnode'
  rcases List.mem_cons.mp hnode' with rfl | hnode'
  · exact ⟨by simp [hnodes], fun next hedge => List.mem_cons_of_mem _ (hnext next hedge),
      .intro _ fun next hedge => (h next (hnext next hedge)).2.2⟩
  · obtain ⟨hsome, hout, hacc⟩ := h node' hnode'
    exact ⟨hsome, fun next hedge => List.mem_cons_of_mem _ (hout next hedge), hacc⟩

lemma fold_sound {f : List α → α → Except Fault (List α)}
    (hf : ∀ visited visited' node, Settled graph visited → f visited node = .ok visited' →
      Settled graph visited' ∧ visited ⊆ visited' ∧ node ∈ visited')
    {nodes : List α} (hsettled : Settled graph visited) (h : nodes.foldlM f visited = .ok visited') :
    Settled graph visited' ∧ visited ⊆ visited' ∧ ∀ node ∈ nodes, node ∈ visited' := by
  induction nodes generalizing visited with
  | nil =>
    cases h
    exact ⟨hsettled, fun _ hmem => hmem, by simp⟩
  | cons node nodes ih =>
    rw [List.foldlM_cons] at h
    obtain ⟨between, hfirst, hrest⟩ := ok_of_bind h
    obtain ⟨hbetween, hmore, hnode⟩ := hf visited between node hsettled hfirst
    obtain ⟨hlast, hmore', hnodes⟩ := ih hbetween hrest
    exact ⟨hlast, fun _ hmem => hmore' (hmore hmem), List.forall_mem_cons.mpr ⟨hmore' hnode, hnodes⟩⟩

lemma visit_sound (hsettled : Settled graph visited) (h : visit graph depth visiting visited node = .ok visited') :
    Settled graph visited' ∧ visited ⊆ visited' ∧ node ∈ visited' := by
  induction depth generalizing visiting visited visited' node with
  | zero => cases h
  | succ depth ih =>
    unfold visit at h
    split at h
    · cases h
    · split at h
      · cases h
      · rename_i nodes hnodes
        split at h
        · rename_i hmem
          cases h
          exact ⟨hsettled, fun _ hmem => hmem, hmem⟩
        · obtain ⟨between, hfold, hlast⟩ := ok_of_bind h
          cases hlast
          obtain ⟨hbetween, hmore, hall⟩ := fold_sound (fun _ _ _ hs hv => ih hs hv) hsettled hfold
          exact ⟨settled_cons hbetween hnodes hall, fun _ hmem => List.mem_cons_of_mem _ (hmore hmem), List.mem_cons_self ..⟩

/-- The search is on a path without circles, and as deep as the path is long. -/
structure OnPath (graph : Graph α) (depth : ℕ) (visiting : List α) (node : α) : Prop where
  keys : ∀ node' ∈ node :: visiting, (edges graph node').isSome = true
  leads : ∀ node' ∈ visiting, Relation.TransGen (Edge graph) node' node
  nodup : visiting.Nodup
  depth : graph.length < depth + visiting.length

lemma OnPath.fresh (h : OnPath graph depth visiting node) (hacyclic : Acyclic graph) : node ∉ visiting := fun hmem =>
  hacyclic node (h.leads node hmem)

lemma OnPath.next (h : OnPath graph (depth + 1) visiting node) (hacyclic : Acyclic graph) (hclosed : Closed graph) {next : α}
    (hedge : Edge graph node next) : OnPath graph depth (node :: visiting) next where
  keys := List.forall_mem_cons.mpr ⟨hclosed node next hedge, h.keys⟩
  leads := List.forall_mem_cons.mpr ⟨.single hedge, fun node' hmem => (h.leads node' hmem).tail hedge⟩
  nodup := List.nodup_cons.mpr ⟨h.fresh hacyclic, h.nodup⟩
  depth := by
    have hdepth := h.depth
    rw [List.length_cons]
    omega

omit [DecidableEq α] in
lemma fold_complete {f : List α → α → Except Fault (List α)} {nodes : List α}
    (hf : ∀ node ∈ nodes, ∀ visited, ∃ visited', f visited node = .ok visited') : ∃ visited', nodes.foldlM f visited = .ok visited' := by
  induction nodes generalizing visited with
  | nil => exact ⟨visited, rfl⟩
  | cons node nodes ih =>
    obtain ⟨hfirst, hrest⟩ := List.forall_mem_cons.mp hf
    obtain ⟨between, hbetween⟩ := hfirst visited
    obtain ⟨visited', hvisited'⟩ := @ih between hrest
    exact ⟨visited', by rw [List.foldlM_cons, hbetween]; exact hvisited'⟩

lemma visit_complete (hacyclic : Acyclic graph) (hclosed : Closed graph) (h : OnPath graph depth visiting node) :
    ∃ visited', visit graph depth visiting visited node = .ok visited' := by
  induction depth generalizing visiting visited node with
  | zero =>
    -- the path would have more nodes than the graph
    have hsub : visiting ⊆ graph.map Prod.fst := fun node' hmem => edges_isSome.mp (h.keys node' (List.mem_cons_of_mem _ hmem))
    have hlength := (List.subperm_of_subset h.nodup hsub).length_le
    have hdepth := h.depth
    rw [List.length_map] at hlength
    omega
  | succ depth ih =>
    obtain ⟨nodes, hnodes⟩ := Option.isSome_iff_exists.mp (h.keys node (List.mem_cons_self ..))
    unfold visit
    rw [if_neg (h.fresh hacyclic), hnodes]
    simp only
    split
    · exact ⟨visited, rfl⟩
    · obtain ⟨visited', hfold⟩ := @fold_complete _ visited (fun visited node' => visit graph depth (node :: visiting) visited node') nodes
        fun next hmem visited => ih (h.next hacyclic hclosed ⟨nodes, hnodes, hmem⟩)
      exact ⟨node :: visited', by rw [hfold]; rfl⟩

lemma acyclic_of_acc (h : ∀ node, Acc (fun next node => Edge graph node next) node) : Acyclic graph := by
  intro node hcycle
  have hswap : Relation.TransGen (fun next node => Edge graph node next) node node := Relation.transGen_swap.mpr hcycle
  exact (WellFounded.transGen ⟨h⟩).irrefl.irrefl node hswap

lemma visitAll_acc (h : visitAll graph = .ok visited) :
    Closed graph ∧ ∀ node, Acc (fun next node => Edge graph node next) node := by
  obtain ⟨hsettled, -, hall⟩ := fold_sound (fun _ _ _ hs hv => visit_sound hs hv) (by simp [Settled] : Settled graph []) h
  have hkeys : ∀ node next, Edge graph node next → node ∈ visited := by
    rintro node next ⟨nodes, hnodes, -⟩
    exact hall node (edges_isSome.mp (by simp [hnodes]))
  refine ⟨fun node next hedge => (hsettled next ((hsettled node (hkeys node next hedge)).2.1 next hedge)).1, fun node => ?_⟩
  exact .intro _ fun next hedge => (hsettled next ((hsettled node (hkeys node next hedge)).2.1 next hedge)).2.2

lemma visitAll_iff : (∃ visited, visitAll graph = .ok visited) ↔ Closed graph ∧ Acyclic graph := by
  constructor
  · rintro ⟨visited, h⟩
    obtain ⟨hclosed, hacc⟩ := visitAll_acc h
    exact ⟨hclosed, acyclic_of_acc hacc⟩
  · rintro ⟨hclosed, hacyclic⟩
    refine fold_complete fun node hnode visited => visit_complete hacyclic hclosed ?_
    exact ⟨by simpa using edges_isSome.mpr hnode, by simp, List.nodup_nil, by simp⟩

lemma exists_ready (h : visitAll graph = .ok visited) (done : α → Prop) (hnode : (edges graph node).isSome = true) (hopen : ¬ done node) :
    ∃ node, (edges graph node).isSome = true ∧ ¬ done node ∧ ∀ next, Edge graph node next → done next := by
  obtain ⟨hclosed, hacc⟩ := visitAll_acc h
  obtain ⟨least, ⟨hkey, hleast⟩, hmin⟩ := (WellFounded.intro hacc).has_min {node | (edges graph node).isSome = true ∧ ¬ done node}
    ⟨node, hnode, hopen⟩
  refine ⟨least, hkey, hleast, fun next hedge => ?_⟩
  by_contra hnot
  exact hmin next ⟨hclosed least next hedge, hnot⟩ hedge

end PromptForge.DepthFirst
