import DispatchGraph.CallGraph
import DispatchGraph.Proofs.Sorted
import Mathlib.Data.List.Induction
import Mathlib.Logic.Relation

/-!
# Nodes and edges of call graphs

One insertion adds the node or the edge it names and nothing else, the edge only between nodes
(`mem_nodes_apply`, `mem_callees_apply`). The listing of all edges, the listing of one method's
callees and the test for an edge say the same (`mem_edges`, `hasEdge_iff`).

A sequence of insertions inserts the nodes that it names, and an edge if it names the edge at some
place after both its ends (`InsertsEdge`); at any other place the edge is refused. These are the
nodes and edges of the graph that it builds (`mem_nodes_build`, `mem_edges_build`).
-/

namespace DispatchGraph

namespace CallGraph

variable {g : CallGraph} {insertion : Insertion} {caller callee method : Signature}

/-! ## Edges -/

/-- The graph has an edge between the methods. -/
def Calls (g : CallGraph) (caller callee : Signature) : Prop := (caller, callee) ∈ g.edges

/-- Every node and every edge of the one graph is in the other. -/
structure Within (g g' : CallGraph) : Prop where
  nodes : ∀ method ∈ g.nodes, method ∈ g'.nodes
  edges : ∀ edge ∈ g.edges, edge ∈ g'.edges

theorem mem_callees : callee ∈ g.callees caller ↔
    ∃ callees, g.successors.get? caller = some callees ∧ callee ∈ callees := by
  rw [callees]
  cases g.successors.get? caller with
  | none => simp
  | some callees => simp [Sorted.mem_toList]

theorem hasEdge_iff : g.hasEdge caller callee = true ↔ callee ∈ g.callees caller := by
  rw [hasEdge, decide_eq_true_eq]

theorem mem_edges : (caller, callee) ∈ g.edges ↔ callee ∈ g.callees caller := by
  simp only [edges, mem_callees, List.mem_flatMap, List.mem_map, Prod.mk.injEq, Prod.exists]
  constructor
  · rintro ⟨_, callees, hmem, _, hcallee, rfl, rfl⟩
    exact ⟨callees, SortedMap.get?_eq_some.2 hmem, hcallee⟩
  · rintro ⟨callees, hget, hcallee⟩
    exact ⟨caller, callees, SortedMap.get?_eq_some.1 hget, callee, hcallee, rfl, rfl⟩

theorem increasing_callees (g : CallGraph) (caller : Signature) :
    Increasing id (g.callees caller) := by
  rw [callees]
  cases g.successors.get? caller with
  | none => exact List.Pairwise.nil
  | some callees => exact callees.increasing

/-! ## One insertion -/

/-- The graph with a new edge. -/
def withEdge (g : CallGraph) (caller callee : Signature) : CallGraph where
  nodes := g.nodes
  successors := g.successors.put (caller, ((g.successors.get? caller).getD ∅).insert callee)
  edgeCount := g.edgeCount + 1

theorem mem_callees_withEdge {a b : Signature} :
    b ∈ (g.withEdge caller callee).callees a ↔ b ∈ g.callees a ∨ a = caller ∧ b = callee := by
  have hold : b ∈ (g.successors.get? caller).getD ∅ ↔ b ∈ g.callees caller := by
    rw [mem_callees]
    cases g.successors.get? caller with
    | none => simp [Sorted.not_mem_empty]
    | some callees => simp
  rw [mem_callees]
  by_cases ha : a = caller
  · subst ha
    simp [withEdge, SortedMap.get?_put_self, SortedSet.mem_insert, hold, or_comm]
  · simp [withEdge, SortedMap.get?_put_of_ne _ _ ha, ha, mem_callees]

theorem apply_edge_refused (h : ¬(caller ∈ g.nodes ∧ callee ∈ g.nodes)) :
    g.apply (.edge caller callee) = g := by
  simp [apply, insert, addEdge, hasNode, h]

theorem apply_edge_known (h : callee ∈ g.callees caller) :
    g.apply (.edge caller callee) = g := by
  by_cases hends : caller ∈ g.nodes ∧ callee ∈ g.nodes
  · simp [apply, insert, addEdge, hasNode, hasEdge_iff.2 h, hends]
  · exact apply_edge_refused hends

theorem apply_edge_new (hends : caller ∈ g.nodes ∧ callee ∈ g.nodes)
    (h : callee ∉ g.callees caller) :
    g.apply (.edge caller callee) = g.withEdge caller callee := by
  simp [apply, insert, addEdge, hasNode, hasEdge_iff, hends, h, withEdge]

theorem apply_node_known (h : method ∈ g.nodes) : g.apply (.node method) = g := by
  simp [apply, insert, addNode, hasNode, h]

theorem apply_node_new (h : method ∉ g.nodes) :
    g.apply (.node method) = { g with nodes := g.nodes.insert method } := by
  simp [apply, insert, addNode, hasNode, h]

/-- An insertion adds the node that it names. -/
theorem mem_nodes_apply :
    method ∈ (g.apply insertion).nodes ↔ method ∈ g.nodes ∨ insertion = .node method := by
  cases insertion with
  | node m =>
    by_cases hm : m ∈ g.nodes
    · rw [apply_node_known hm]
      refine ⟨.inl, ?_⟩
      rintro (h | h)
      · exact h
      · exact Insertion.node.inj h ▸ hm
    · rw [apply_node_new hm, SortedSet.mem_insert, or_comm, Insertion.node.injEq, eq_comm]
  | edge a b =>
    have hnodes : (g.apply (.edge a b)).nodes = g.nodes := by
      by_cases hends : a ∈ g.nodes ∧ b ∈ g.nodes
      · by_cases hknown : b ∈ g.callees a
        · rw [apply_edge_known hknown]
        · rw [apply_edge_new hends hknown, withEdge]
      · rw [apply_edge_refused hends]
    simp [hnodes]

/-- An insertion adds the edge that it names if both ends are nodes. -/
theorem mem_callees_apply {a b : Signature} :
    b ∈ (g.apply insertion).callees a ↔
      b ∈ g.callees a ∨ insertion = .edge a b ∧ a ∈ g.nodes ∧ b ∈ g.nodes := by
  cases insertion with
  | node m =>
    have hcallees : (g.apply (.node m)).callees a = g.callees a := by
      by_cases hm : m ∈ g.nodes
      · rw [apply_node_known hm]
      · rw [apply_node_new hm, callees, callees]
    simp [hcallees]
  | edge caller callee =>
    rw [Insertion.edge.injEq]
    by_cases hends : caller ∈ g.nodes ∧ callee ∈ g.nodes
    · by_cases hknown : callee ∈ g.callees caller
      · rw [apply_edge_known hknown]
        refine ⟨.inl, ?_⟩
        rintro (h | ⟨⟨rfl, rfl⟩, _⟩)
        · exact h
        · exact hknown
      · rw [apply_edge_new hends hknown, mem_callees_withEdge]
        refine or_congr_right ⟨?_, ?_⟩
        · rintro ⟨rfl, rfl⟩
          exact ⟨⟨rfl, rfl⟩, hends⟩
        · rintro ⟨⟨rfl, rfl⟩, _⟩
          exact ⟨rfl, rfl⟩
    · rw [apply_edge_refused hends]
      refine ⟨.inl, ?_⟩
      rintro (h | ⟨⟨rfl, rfl⟩, h⟩)
      · exact h
      · exact absurd h hends

/-! ## Sequences of insertions -/

theorem mem_nodes_foldl {insertions : List Insertion} :
    method ∈ (insertions.foldl apply g).nodes ↔
      method ∈ g.nodes ∨ .node method ∈ insertions := by
  induction insertions generalizing g with
  | nil => simp
  | cons insertion rest ih =>
    rw [List.foldl_cons, ih, mem_nodes_apply, List.mem_cons, eq_comm (a := insertion), or_assoc]

/-- Every edge was there or was inserted. -/
theorem edge_mem_of_mem_callees_foldl {insertions : List Insertion} {a b : Signature}
    (h : b ∈ (insertions.foldl apply g).callees a) :
    b ∈ g.callees a ∨ .edge a b ∈ insertions := by
  induction insertions generalizing g with
  | nil => exact .inl h
  | cons insertion rest ih =>
    rcases ih h with h | h
    · rcases mem_callees_apply.1 h with h | ⟨rfl, _⟩
      · exact .inl h
      · exact .inr List.mem_cons_self
    · exact .inr (List.mem_cons_of_mem insertion h)

theorem callees_empty (caller : Signature) : empty.callees caller = [] := rfl

/-- The edges from one node to several methods, each inserted after its end. -/
theorem mem_callees_foldl_calls {callees : List Signature} {a b : Signature}
    (h : caller ∈ g.nodes) :
    b ∈ ((callees.flatMap fun callee => [.node callee, .edge caller callee]).foldl apply
        g).callees a ↔
      b ∈ g.callees a ∨ a = caller ∧ b ∈ callees := by
  induction callees generalizing g with
  | nil => simp
  | cons callee callees ih =>
    have hcaller : caller ∈ (g.apply (.node callee)).nodes := mem_nodes_apply.2 (.inl h)
    have hcallee : callee ∈ (g.apply (.node callee)).nodes := mem_nodes_apply.2 (.inr rfl)
    have hedge : b ∈ ((g.apply (.node callee)).apply (.edge caller callee)).callees a ↔
        b ∈ g.callees a ∨ a = caller ∧ b = callee := by
      rw [mem_callees_apply, mem_callees_apply]
      simp only [Insertion.edge.injEq, reduceCtorEq, false_and, or_false]
      refine or_congr_right ⟨?_, ?_⟩
      · rintro ⟨⟨rfl, rfl⟩, _⟩
        exact ⟨rfl, rfl⟩
      · rintro ⟨rfl, rfl⟩
        exact ⟨⟨rfl, rfl⟩, hcaller, hcallee⟩
    rw [List.flatMap_cons, List.foldl_append, List.foldl_cons, List.foldl_cons, List.foldl_nil,
      ih (mem_nodes_apply.2 (.inl hcaller)), hedge, List.mem_cons, and_or_left, or_assoc]

/-! ## What a sequence inserts -/

/-- The edge is inserted at a place where both its ends have been inserted. -/
def InsertsEdge (insertions : List Insertion) (caller callee : Signature) : Prop :=
  ∃ before after, insertions = before ++ .edge caller callee :: after ∧
    .node caller ∈ before ∧ .node callee ∈ before

theorem not_insertsEdge_nil : ¬ InsertsEdge [] caller callee := by
  rintro ⟨before, after, heq, -⟩
  simp at heq

theorem insertsEdge_concat {insertions : List Insertion} :
    InsertsEdge (insertions ++ [insertion]) caller callee ↔
      InsertsEdge insertions caller callee ∨ insertion = .edge caller callee ∧
        .node caller ∈ insertions ∧ .node callee ∈ insertions := by
  constructor
  · rintro ⟨before, after, heq, hcaller, hcallee⟩
    -- the place is the last one, or it has the last one after it
    rcases List.eq_nil_or_concat after with rfl | ⟨after, last, rfl⟩
    · obtain ⟨rfl, hlast⟩ := List.append_inj' heq rfl
      exact .inr ⟨List.singleton_inj.1 hlast, hcaller, hcallee⟩
    · rw [List.concat_eq_append, ← List.cons_append, ← List.append_assoc] at heq
      obtain ⟨rfl, -⟩ := List.append_inj' heq rfl
      exact .inl ⟨before, after, rfl, hcaller, hcallee⟩
  · rintro (⟨before, after, rfl, hcaller, hcallee⟩ | ⟨rfl, hcaller, hcallee⟩)
    · exact ⟨before, after ++ [insertion], by simp, hcaller, hcallee⟩
    · exact ⟨insertions, [], rfl, hcaller, hcallee⟩

theorem build_concat (insertions : List Insertion) (insertion : Insertion) :
    build (insertions ++ [insertion]) = (build insertions).apply insertion :=
  List.foldl_concat apply empty insertion insertions

theorem mem_nodes_build {insertions : List Insertion} :
    method ∈ (build insertions).nodes ↔ .node method ∈ insertions := by
  rw [build, mem_nodes_foldl]
  exact or_iff_right (Sorted.not_mem_empty method)

/-- **The edges of a graph are those that were inserted.** -/
theorem mem_edges_build {insertions : List Insertion} :
    (caller, callee) ∈ (build insertions).edges ↔ InsertsEdge insertions caller callee := by
  -- from the end, as the insertions before a place say whether an edge is refused there
  induction insertions using List.reverseRecOn with
  | nil => exact iff_of_false List.not_mem_nil not_insertsEdge_nil
  | append_singleton insertions insertion ih =>
    rw [build_concat, mem_edges, mem_callees_apply, ← mem_edges, ih, mem_nodes_build,
      mem_nodes_build, insertsEdge_concat]

end CallGraph

end DispatchGraph
