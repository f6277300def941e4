import DispatchGraph.Proofs.CallGraph

/-!
# Call graphs are determined by their nodes and edges

A call graph keeps the callees of each method in a map and counts its edges apart. The map could
hold a method with no callees and the count could be wrong, but in a graph that insertions built
neither is so (`CallGraph.Canonical`, kept by every insertion: `CallGraph.Canonical.apply`). Hence
two such graphs with the same nodes and the same edges are equal (`CallGraph.Canonical.ext`), and
building a graph from the nodes and edges of another one gives that one
(`CallGraph.Canonical.build_eq`).
-/

namespace DispatchGraph

namespace CallGraph

open Std

variable {g g' : CallGraph} {caller callee : Signature}

/-! ## The order of edges -/

/-- One edge stands before another: its caller does, or the callers are the same and its callee
does. -/
def EdgeBefore (a b : Signature × Signature) : Prop :=
  compare a.1 b.1 = .lt ∨ a.1 = b.1 ∧ compare a.2 b.2 = .lt

theorem pairwise_edges (g : CallGraph) : g.edges.Pairwise EdgeBefore := by
  rw [edges, List.pairwise_flatMap]
  constructor
  · rintro ⟨caller, callees⟩ -
    exact callees.increasing.map _ fun _ _ hlt => .inr ⟨rfl, hlt⟩
  · refine g.successors.increasing.imp fun {a b} hlt x hx y hy => ?_
    obtain ⟨_, -, rfl⟩ := List.mem_map.1 hx
    obtain ⟨_, -, rfl⟩ := List.mem_map.1 hy
    exact .inl hlt

theorem nodup_edges (g : CallGraph) : g.edges.Nodup := by
  refine g.pairwise_edges.imp fun {a b} hbefore => ?_
  rintro rfl
  rcases hbefore with hlt | ⟨-, hlt⟩
  · simp at hlt
  · simp at hlt

/-! ## Graphs that insertions build -/

/-- The graph holds no more than its nodes and edges. -/
structure Canonical (g : CallGraph) : Prop where
  /-- The edges are counted. -/
  edgeCount_eq : g.edgeCount = g.edges.length
  /-- Only methods that call something have an entry. -/
  callees_ne_nil : ∀ caller callees, (caller, callees) ∈ g.successors → callees.toList ≠ []
  /-- Edges lead from nodes to nodes. -/
  ends_mem : ∀ caller callee, callee ∈ g.callees caller → caller ∈ g.nodes ∧ callee ∈ g.nodes

theorem canonical_empty : empty.Canonical where
  edgeCount_eq := rfl
  callees_ne_nil _ _ hmem := absurd hmem (Sorted.not_mem_empty _)
  ends_mem _ _ hmem := absurd hmem List.not_mem_nil

theorem length_edges_withEdge (hnew : callee ∉ g.callees caller) :
    (g.withEdge caller callee).edges.length = g.edges.length + 1 := by
  have hnodup : ((caller, callee) :: g.edges).Nodup :=
    List.nodup_cons.2 ⟨fun hmem => hnew (mem_edges.1 hmem), g.nodup_edges⟩
  have hperm : (g.withEdge caller callee).edges.Perm ((caller, callee) :: g.edges) := by
    refine (List.perm_ext_iff_of_nodup (nodup_edges _) hnodup).2 fun ⟨a, b⟩ => ?_
    rw [mem_edges, mem_callees_withEdge, List.mem_cons, mem_edges, Prod.mk.injEq, or_comm]
  rw [hperm.length_eq, List.length_cons]

theorem Canonical.withEdge (h : g.Canonical) (hends : caller ∈ g.nodes ∧ callee ∈ g.nodes)
    (hnew : callee ∉ g.callees caller) : (g.withEdge caller callee).Canonical where
  edgeCount_eq := by
    rw [length_edges_withEdge hnew, ← h.edgeCount_eq]
    rfl
  callees_ne_nil a callees hmem := by
    rcases Sorted.mem_put.1 hmem with heq | ⟨hmem, -⟩
    · obtain ⟨-, rfl⟩ := Prod.mk.inj heq
      exact List.ne_nil_of_mem (SortedSet.mem_insert_self _ callee)
    · exact h.callees_ne_nil a callees hmem
  ends_mem a b hmem := by
    rcases mem_callees_withEdge.1 hmem with hmem | ⟨rfl, rfl⟩
    · exact h.ends_mem a b hmem
    · exact hends

/-- An insertion keeps the form. -/
theorem Canonical.apply (h : g.Canonical) (insertion : Insertion) :
    (g.apply insertion).Canonical := by
  cases insertion with
  | node method =>
    by_cases hmethod : method ∈ g.nodes
    · rwa [apply_node_known hmethod]
    · rw [apply_node_new hmethod]
      refine ⟨h.edgeCount_eq, h.callees_ne_nil, fun a b hmem => ?_⟩
      obtain ⟨ha, hb⟩ := h.ends_mem a b hmem
      exact ⟨Sorted.mem_insert_of_mem ha, Sorted.mem_insert_of_mem hb⟩
  | edge caller callee =>
    by_cases hends : caller ∈ g.nodes ∧ callee ∈ g.nodes
    · by_cases hknown : callee ∈ g.callees caller
      · rwa [apply_edge_known hknown]
      · rw [apply_edge_new hends hknown]
        exact h.withEdge hends hknown
    · rwa [apply_edge_refused hends]

theorem Canonical.foldl (h : g.Canonical) (insertions : List Insertion) :
    (insertions.foldl CallGraph.apply g).Canonical := by
  induction insertions generalizing g with
  | nil => exact h
  | cons insertion insertions ih => exact ih (h.apply insertion)

theorem canonical_build (insertions : List Insertion) : (build insertions).Canonical :=
  canonical_empty.foldl insertions

/-! ## Equality of graphs -/

theorem mem_callees_of_mem_successors {callees : SortedSet Signature}
    (hmem : (caller, callees) ∈ g.successors) : callee ∈ g.callees caller ↔ callee ∈ callees := by
  rw [mem_callees, SortedMap.get?_eq_some.2 hmem]
  simp

/-- The entry of a method is the same in two graphs with the same edges. -/
theorem Canonical.mem_successors (h : g.Canonical) {callees : SortedSet Signature}
    (hedges : ∀ caller callee, callee ∈ g.callees caller ↔ callee ∈ g'.callees caller)
    (hmem : (caller, callees) ∈ g.successors) : (caller, callees) ∈ g'.successors := by
  obtain ⟨callee, hcallee⟩ := List.exists_mem_of_ne_nil _ (h.callees_ne_nil caller callees hmem)
  have hcallee' : callee ∈ g'.callees caller :=
    (hedges caller callee).1 ((mem_callees_of_mem_successors hmem).2 hcallee)
  obtain ⟨callees', hget, -⟩ := mem_callees.1 hcallee'
  have hmem' : (caller, callees') ∈ g'.successors := SortedMap.get?_eq_some.1 hget
  have heq : callees = callees' := by
    refine Sorted.ext_mem fun b => ?_
    rw [← mem_callees_of_mem_successors hmem, ← mem_callees_of_mem_successors hmem', hedges]
  rwa [heq]

/-- **Graphs that insertions built are equal if they have the same nodes and the same edges.** -/
theorem Canonical.ext (h : g.Canonical) (h' : g'.Canonical)
    (hnodes : ∀ method, method ∈ g.nodes ↔ method ∈ g'.nodes)
    (hedges : ∀ caller callee, callee ∈ g.callees caller ↔ callee ∈ g'.callees caller) :
    g = g' := by
  have hnodes : g.nodes = g'.nodes := Sorted.ext_mem hnodes
  have hsuccessors : g.successors = g'.successors :=
    Sorted.ext_mem fun (_, _) =>
      ⟨h.mem_successors hedges, h'.mem_successors fun a b => (hedges a b).symm⟩
  have hcount : g.edgeCount = g'.edgeCount := by
    rw [h.edgeCount_eq, h'.edgeCount_eq, edges, edges, hsuccessors]
  cases g
  cases g'
  simp_all

/-- The nodes in a row and then the edges insert every edge. -/
theorem Canonical.insertsEdge_iff (h : g.Canonical) :
    InsertsEdge (g.nodes.toList.map .node ++ g.edges.map fun edge => .edge edge.1 edge.2)
        caller callee ↔
      (caller, callee) ∈ g.edges := by
  constructor
  · rintro ⟨before, after, heq, -⟩
    have hmem : .edge caller callee ∈ before ++ .edge caller callee :: after := by simp
    rw [← heq] at hmem
    simpa using hmem
  · intro hedge
    obtain ⟨first, rest, heq⟩ := List.append_of_mem hedge
    obtain ⟨hcaller, hcallee⟩ := h.ends_mem caller callee (mem_edges.1 hedge)
    refine ⟨g.nodes.toList.map .node ++ first.map fun edge => .edge edge.1 edge.2,
      rest.map fun edge => .edge edge.1 edge.2, by simp [heq], ?_, ?_⟩
    · exact List.mem_append_left _ (List.mem_map_of_mem hcaller)
    · exact List.mem_append_left _ (List.mem_map_of_mem hcallee)

/-- **A graph is built again from the lists of its nodes and edges.** -/
theorem Canonical.build_eq (h : g.Canonical) :
    build (g.nodes.toList.map .node ++ g.edges.map fun edge => .edge edge.1 edge.2) = g := by
  refine (canonical_build _).ext h (fun method => ?_) (fun caller callee => ?_)
  · rw [mem_nodes_build]
    simp [Sorted.mem_toList]
  · rw [← mem_edges, ← mem_edges, mem_edges_build, h.insertsEdge_iff]

end CallGraph

end DispatchGraph
