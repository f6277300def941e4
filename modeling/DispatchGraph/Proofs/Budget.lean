import DispatchGraph.Proofs.Construction

/-!
# Constructions under a limit

A limit on the number of visits cuts the run short and changes nothing before the cut. The graph
that is left is a part of the whole one: the methods that were visited have all their calls in it,
the others have none (`Construction.CutAfter`). When the limit is at least the number of methods of
the whole graph, nothing is cut.
-/

namespace DispatchGraph

/-- How a construction `part` that visited the methods `visited` relates to the construction
`whole` from the same entry points, which visited the methods `order` in that order: the run was cut
after `n` visits. -/
structure Construction.CutAfter (part whole : Construction) (visited order entries : List Signature)
    (n : Nat) : Prop where
  /-- The run stops at the limit or when every method is visited. -/
  methods_eq : part.stats.methods = min n whole.graph.nodeCount
  /-- Nothing is cut when the limit reaches the number of methods. -/
  complete_iff : part.complete = true ↔ whole.graph.nodeCount ≤ n
  /-- A run that is not cut finds all that there is to find. -/
  eq_of_complete : part.complete = true → part = whole
  /-- The visits before the cut are those of the whole run. -/
  visited_eq : visited = order.take n
  /-- A visited method has all its edges. -/
  callees_visited : ∀ method ∈ visited, part.graph.callees method = whole.graph.callees method
  /-- A method that was not visited has no edges. -/
  callees_unvisited : ∀ method ∉ visited, part.graph.callees method = []
  /-- The nodes are the entry points and the callees of visited methods. -/
  mem_nodes_iff : ∀ method, method ∈ part.graph.nodes ↔
    method ∈ entries ∨ ∃ caller ∈ visited, method ∈ whole.graph.callees caller
  /-- What is there is there in the whole graph. -/
  within : part.graph.Within whole.graph
  /-- No node is cut off from the entry points. -/
  reached : ∀ method ∈ part.graph.nodes, ∃ entry ∈ entries,
    Relation.ReflTransGen part.graph.Calls entry method

namespace Program

variable {p : Program} {h : Hierarchy} {entries : List Signature} {method : Signature}

/-! ## Visits under a limit -/

theorem visited_run_some (n : Nat) :
    (p.run h entries (some n)).visited = (p.run h entries none).visited.take n :=
  Space.visited_explore_some n

theorem nodeCount_construct_none :
    (p.construct h entries none).graph.nodeCount = (p.run h entries none).visits.length := by
  rw [nodeCount_construct, discovered_run_none, Outcome.visited, List.length_map]

theorem complete_construct_some_iff (n : Nat) :
    (p.construct h entries (some n)).complete = true ↔
      (p.construct h entries none).graph.nodeCount ≤ n := by
  rw [nodeCount_construct_none, construct, Run.construction, Run.isComplete, List.isEmpty_iff]
  exact Space.pending_explore_some n

/-- A construction that is not cut short is the whole construction. -/
theorem construct_some_of_complete {n : Nat}
    (hcomplete : (p.construct h entries (some n)).complete = true) :
    p.construct h entries (some n) = p.construct h entries none := by
  have hlength : (p.run h entries none).visits.length ≤ n :=
    nodeCount_construct_none ▸ (complete_construct_some_iff n).1 hcomplete
  have hrun : p.run h entries (some n) = p.run h entries none :=
    Space.explore_some_of_length_le hlength
  rw [construct, hrun, construct]

theorem methods_construct_some (n : Nat) :
    (p.construct h entries (some n)).stats.methods =
      min n (p.construct h entries none).graph.nodeCount := by
  have hvisits : (p.run h entries (some n)).visits = (p.run h entries none).visits.take n :=
    Space.visits_explore_some n
  rw [nodeCount_construct_none, construct, Run.construction, Run.stats, hvisits, List.length_take]

/-! ## Graphs under a limit -/

variable {limit limit' : Option Nat}

/-- A method that two runs visit has the same callees in both graphs. -/
theorem callees_construct_eq (hvisited : method ∈ (p.run h entries limit).visited)
    (hvisited' : method ∈ (p.run h entries limit').visited) :
    (p.construct h entries limit).graph.callees method =
      (p.construct h entries limit').graph.callees method := by
  refine (CallGraph.increasing_callees _ _).ext_mem (CallGraph.increasing_callees _ _) ?_
  intro callee
  rw [mem_callees_construct, mem_callees_construct, and_iff_right hvisited,
    and_iff_right hvisited']

theorem callees_construct_of_not_visited
    (hvisited : method ∉ (p.run h entries limit).visited) :
    (p.construct h entries limit).graph.callees method = [] := by
  refine List.eq_nil_iff_forall_not_mem.2 fun callee hcallee => ?_
  exact hvisited (mem_callees_construct.1 hcallee).1

/-- More visits make a larger graph. -/
theorem within_construct (hvisited : ∀ method ∈ (p.run h entries limit).visited,
      method ∈ (p.run h entries limit').visited) :
    (p.construct h entries limit).graph.Within (p.construct h entries limit').graph := by
  constructor
  · intro method hmethod
    rw [mem_nodes_construct, mem_discovered_run] at hmethod ⊢
    exact hmethod.imp id fun ⟨caller, hcaller, hcall⟩ => ⟨caller, hvisited caller hcaller, hcall⟩
  · rintro ⟨caller, callee⟩ hedge
    obtain ⟨hcaller, hcall⟩ := calls_construct.1 hedge
    exact calls_construct.2 ⟨hvisited caller hcaller, hcall⟩

theorem mem_visited_run_none {n : Nat} (hvisited : method ∈ (p.run h entries (some n)).visited) :
    method ∈ (p.run h entries none).visited :=
  List.mem_of_mem_take (visited_run_some n ▸ hvisited)

theorem mem_visited_run_succ {n : Nat} (hvisited : method ∈ (p.run h entries (some n)).visited) :
    method ∈ (p.run h entries (some (n + 1))).visited := by
  rw [visited_run_some] at hvisited ⊢
  exact (List.take_prefix_take_left (Nat.le_succ n)).subset hvisited

theorem mem_nodes_construct_some (n : Nat) :
    method ∈ (p.construct h entries (some n)).graph.nodes ↔
      method ∈ entries ∨ ∃ caller ∈ (p.run h entries (some n)).visited,
        method ∈ (p.construct h entries none).graph.callees caller := by
  rw [mem_nodes_construct, mem_discovered_run]
  refine or_congr_right (exists_congr fun caller => and_congr_right fun hcaller => ?_)
  rw [mem_callees_construct, and_iff_right (mem_visited_run_none hcaller)]

/-- **A limit cuts the run and changes nothing before the cut.** Raising it by one only adds to the
graph. -/
theorem construct_some_cutAfter (p : Program) (h : Hierarchy) (entries : List Signature)
    (n : Nat) :
    (p.construct h entries (some n)).CutAfter (p.construct h entries none)
      (p.run h entries (some n)).visited (p.run h entries none).visited entries n ∧
    (p.construct h entries (some n)).graph.Within (p.construct h entries (some (n + 1))).graph := by
  refine ⟨?_, within_construct fun _ => mem_visited_run_succ⟩
  exact {
    methods_eq := methods_construct_some n
    complete_iff := complete_construct_some_iff n
    eq_of_complete := construct_some_of_complete
    visited_eq := visited_run_some n
    callees_visited := fun _ hvisited =>
      callees_construct_eq hvisited (mem_visited_run_none hvisited)
    callees_unvisited := fun _ => callees_construct_of_not_visited
    mem_nodes_iff := fun _ => mem_nodes_construct_some n
    within := within_construct fun _ => mem_visited_run_none
    reached := fun _ => reached_of_mem_nodes }

end Program

end DispatchGraph
