import DispatchGraph.Proofs.CanonicalGraph

/-!
# Graphs and the insertions that build them

The nodes and edges of a graph are those that were inserted, and a graph that insertions built holds
no more than its nodes and edges. So the order of the insertions and how often each was made leave
no trace (`CallGraph.build_eq_iff`). All ways of asking for edges agree (`CallGraph.Coherent`), and
an insertion is answered by whether it changes the graph (`CallGraph.AnswersChange`).
-/

namespace DispatchGraph

namespace CallGraph

variable {g : CallGraph} {insertions insertions' : List Insertion}
  {caller callee method : Signature}

/-! ## Which sequences build a graph -/

/-- Sequences build the same graph if and only if they insert the same nodes and edges. -/
theorem build_eq_iff :
    build insertions = build insertions' ↔
      (∀ method, .node method ∈ insertions ↔ .node method ∈ insertions') ∧
        ∀ caller callee,
          InsertsEdge insertions caller callee ↔ InsertsEdge insertions' caller callee := by
  constructor
  · intro heq
    refine ⟨fun method => ?_, fun caller callee => ?_⟩
    · rw [← mem_nodes_build, heq, mem_nodes_build]
    · rw [← mem_edges_build, heq, mem_edges_build]
  · rintro ⟨hnodes, hedges⟩
    refine (canonical_build insertions).ext (canonical_build insertions') (fun method => ?_)
      (fun caller callee => ?_)
    · rw [mem_nodes_build, mem_nodes_build, hnodes]
    · rw [← mem_edges, ← mem_edges, mem_edges_build, mem_edges_build, hedges]

/-! ## What a graph says of its edges -/

theorem mem_callers : caller ∈ g.callers callee ↔ (caller, callee) ∈ g.edges := by
  rw [callers, List.mem_map]
  constructor
  · rintro ⟨⟨a, b⟩, hedge, rfl⟩
    obtain ⟨hmem, hcallee⟩ := List.mem_filter.1 hedge
    obtain rfl : b = callee := of_decide_eq_true hcallee
    exact hmem
  · intro hedge
    exact ⟨(caller, callee), List.mem_filter.2 ⟨hedge, decide_eq_true rfl⟩, rfl⟩

/-- The edges lead from nodes to nodes, they are counted, and they are listed in order; and every
way of asking for an edge gives the same answer. -/
structure Coherent (g : CallGraph) : Prop where
  ends_mem : ∀ caller callee, (caller, callee) ∈ g.edges → caller ∈ g.nodes ∧ callee ∈ g.nodes
  edgeCount_eq : g.edgeCount = g.edges.length
  pairwise_edges : g.edges.Pairwise EdgeBefore
  increasing_nodes : Increasing id g.nodes.toList
  hasEdge_iff : ∀ caller callee, (caller, callee) ∈ g.edges ↔ g.hasEdge caller callee = true
  mem_callees : ∀ caller callee, (caller, callee) ∈ g.edges ↔ callee ∈ g.callees caller
  mem_callers : ∀ caller callee, (caller, callee) ∈ g.edges ↔ caller ∈ g.callers callee

theorem Canonical.coherent (h : g.Canonical) : g.Coherent where
  ends_mem caller callee hedge := h.ends_mem caller callee (mem_edges.1 hedge)
  edgeCount_eq := h.edgeCount_eq
  pairwise_edges := g.pairwise_edges
  increasing_nodes := g.nodes.increasing
  hasEdge_iff _ _ := mem_edges.trans CallGraph.hasEdge_iff.symm
  mem_callees _ _ := mem_edges
  mem_callers _ _ := CallGraph.mem_callers.symm

/-! ## Answers to insertions -/

theorem withNode_ne (hnew : method ∉ g.nodes) :
    { g with nodes := g.nodes.insert method } ≠ g := by
  intro heq
  have hnodes : g.nodes.insert method = g.nodes := congrArg CallGraph.nodes heq
  exact hnew (hnodes ▸ SortedSet.mem_insert_self g.nodes method)

theorem withEdge_ne (g : CallGraph) (caller callee : Signature) :
    g.withEdge caller callee ≠ g := by
  intro heq
  have hcount : g.edgeCount + 1 = g.edgeCount := congrArg CallGraph.edgeCount heq
  omega

/-- A node is always taken. -/
theorem addNode_eq (g : CallGraph) (method : Signature) :
    g.addNode method = (g.apply (.node method), decide (g.apply (.node method) ≠ g)) := by
  by_cases hmethod : method ∈ g.nodes
  · rw [apply_node_known hmethod]
    simp [addNode, hasNode, hmethod]
  · rw [apply_node_new hmethod, decide_eq_true (withNode_ne hmethod)]
    simp [addNode, hasNode, hmethod]

/-- An edge is taken if its ends are there. -/
theorem addEdge_eq (g : CallGraph) (caller callee : Signature) :
    g.addEdge caller callee =
      if caller ∈ g.nodes ∧ callee ∈ g.nodes then
        .ok (g.apply (.edge caller callee), decide (g.apply (.edge caller callee) ≠ g))
      else .error ⟨caller, callee⟩ := by
  by_cases hends : caller ∈ g.nodes ∧ callee ∈ g.nodes
  · rw [if_pos hends]
    by_cases hknown : callee ∈ g.callees caller
    · rw [apply_edge_known hknown]
      simp [addEdge, hasNode, hends, hasEdge_iff.2 hknown]
    · rw [apply_edge_new hends hknown, decide_eq_true (g.withEdge_ne caller callee)]
      simp [addEdge, hasNode, hends, hasEdge_iff, hknown, withEdge]
  · rw [if_neg hends]
    simp [addEdge, hasNode, hends]

/-- An insertion is answered by whether it changes the graph. An edge is refused if and only if it
lacks an end, and the graph then stays as it is. -/
structure AnswersChange (g : CallGraph) : Prop where
  addNode_eq : ∀ method,
    g.addNode method = (g.apply (.node method), decide (g.apply (.node method) ≠ g))
  addEdge_eq : ∀ caller callee, g.addEdge caller callee =
    if caller ∈ g.nodes ∧ callee ∈ g.nodes then
      .ok (g.apply (.edge caller callee), decide (g.apply (.edge caller callee) ≠ g))
    else .error ⟨caller, callee⟩
  refused_eq : ∀ caller callee, ¬(caller ∈ g.nodes ∧ callee ∈ g.nodes) →
    g.apply (.edge caller callee) = g

/-- **A graph is what was inserted into it.** After any sequence of insertions its nodes and edges
are those that were inserted, all that it says of its edges agrees, and it answers every further
insertion by whether that one changes it. Two sequences build the same graph, with the same count
and the same lists, if and only if they insert the same nodes and the same edges, in whatever order
and however often. -/
theorem build_exact (insertions : List Insertion) :
    (build insertions).Coherent ∧
    (build insertions).AnswersChange ∧
    (∀ method, method ∈ (build insertions).nodes ↔ .node method ∈ insertions) ∧
    (∀ caller callee,
      (caller, callee) ∈ (build insertions).edges ↔ InsertsEdge insertions caller callee) ∧
    ∀ insertions', build insertions = build insertions' ↔
      (∀ method, .node method ∈ insertions ↔ .node method ∈ insertions') ∧
        ∀ caller callee,
          InsertsEdge insertions caller callee ↔ InsertsEdge insertions' caller callee := by
  refine ⟨(canonical_build insertions).coherent, ?_, fun _ => mem_nodes_build,
    fun _ _ => mem_edges_build, fun _ => build_eq_iff⟩
  exact ⟨addNode_eq _, addEdge_eq _, fun _ _ => apply_edge_refused⟩

end CallGraph

end DispatchGraph
