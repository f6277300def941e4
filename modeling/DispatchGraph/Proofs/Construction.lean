import DispatchGraph.Construction
import DispatchGraph.Proofs.CallGraph
import DispatchGraph.Proofs.Search
import Mathlib.Order.Bounds.Basic

/-!
# What a construction holds

A method may call another one when a call in its body has it among its candidates
(`Program.MayCall`). Under every limit the nodes of the constructed graph are the methods that the
run discovers (`mem_nodes_construct`), and its edges lead from the visited methods to all that they
may call (`mem_callees_construct`): each edge is inserted after both its ends, so none is refused.

Without a limit the graph is exact (`construct_exact`): its nodes are the least set of methods that
holds the entry points and whatever its members may call, and no edge between them is missing.
-/

namespace DispatchGraph

/-! ## Callees of one method -/

theorem mem_keys_calleesOf_iff {sites : List Site} {callee : Signature} :
    callee ∈ (calleesOf sites).keys ↔ ∃ site ∈ sites, callee ∈ site.resolution.candidates := by
  refine ⟨mem_keys_calleesOf, ?_⟩
  rintro ⟨site, hsite, hcandidate⟩
  have htarget : (callee, site.call.kind) ∈ targetsOf sites :=
    mem_targetsOf.2 ⟨site, hsite, hcandidate, rfl⟩
  rw [calleesOf, SortedMap.keys_withValues, Sorted.mem_toList, SortedSet.mem_ofList]
  exact List.mem_map_of_mem htarget

namespace Program

/-- A call in the body of one method may run the other. -/
def MayCall (p : Program) (h : Hierarchy) (caller callee : Signature) : Prop :=
  ∃ call ∈ (p.calls caller).1, callee ∈ (p.resolve h call.target).candidates

variable {p : Program} {h : Hierarchy} {caller callee : Signature}

theorem sites_visit (p : Program) (h : Hierarchy) (method : Signature) :
    (p.visit h method).sites =
      (p.calls method).1.map fun call => ⟨call, p.resolve h call.target⟩ := rfl

theorem callees_visit (p : Program) (h : Hierarchy) (method : Signature) :
    (p.visit h method).callees = calleesOf (p.visit h method).sites := rfl

theorem mem_keys_callees_visit :
    callee ∈ (p.visit h caller).callees.keys ↔ p.MayCall h caller callee := by
  rw [callees_visit, sites_visit]
  simp only [mem_keys_calleesOf_iff, List.mem_map, exists_exists_and_eq_and, MayCall]

theorem leads_callSpace : (p.callSpace h).Leads caller callee ↔ p.MayCall h caller callee :=
  mem_keys_callees_visit

end Program

/-! ## The graph of a run -/

/-- The insertions of one visit. -/
def visitInsertions (caller : Signature) (found : Visit) : List Insertion :=
  found.callees.keys.flatMap fun callee => [.node callee, .edge caller callee]

theorem mem_nodes_foldl_visit {g : CallGraph} {caller method : Signature} {found : Visit} :
    method ∈ ((visitInsertions caller found).foldl CallGraph.apply g).nodes ↔
      method ∈ g.nodes ∨ method ∈ found.callees.keys := by
  rw [CallGraph.mem_nodes_foldl]
  simp [visitInsertions]

namespace Program

variable {p : Program} {h : Hierarchy}

/-- The edges after the visits of a run. Every visited method was met before its visit, so both
ends of an edge are nodes when the edge is inserted. -/
theorem mem_callees_foldl_visits {visits : List (Signature × Visit)} {g : CallGraph}
    (hmet : (p.callSpace h).Supported (· ∈ g.nodes) visits) {a b : Signature} :
    b ∈ ((visits.flatMap fun (caller, found) => visitInsertions caller found).foldl
        CallGraph.apply g).callees a ↔
      b ∈ g.callees a ∨ ∃ found, (a, found) ∈ visits ∧ b ∈ found.callees.keys := by
  induction visits generalizing g with
  | nil => simp
  | cons visit visits ih =>
    obtain ⟨caller, found⟩ := visit
    obtain ⟨hcaller, hrest⟩ := hmet
    have hmet' : (p.callSpace h).Supported
        (· ∈ ((visitInsertions caller found).foldl CallGraph.apply g).nodes) visits :=
      hrest.mono fun method => mem_nodes_foldl_visit.2
    have hcalls : b ∈ ((visitInsertions caller found).foldl CallGraph.apply g).callees a ↔
        b ∈ g.callees a ∨ a = caller ∧ b ∈ found.callees.keys :=
      CallGraph.mem_callees_foldl_calls hcaller
    rw [List.flatMap_cons, List.foldl_append, ih hmet', hcalls, or_assoc]
    refine or_congr_right ⟨?_, ?_⟩
    · rintro (⟨rfl, hb⟩ | ⟨found', hvisit, hb⟩)
      · exact ⟨found, List.mem_cons_self, hb⟩
      · exact ⟨found', List.mem_cons_of_mem _ hvisit, hb⟩
    · rintro ⟨found', hvisit, hb⟩
      rcases List.mem_cons.1 hvisit with heq | hvisit
      · obtain ⟨rfl, rfl⟩ := Prod.mk.inj heq
        exact .inl ⟨rfl, hb⟩
      · exact .inr ⟨found', hvisit, hb⟩

variable {entries : List Signature} {limit : Option Nat} {method caller callee : Signature}

theorem mem_visits_run {found : Visit} :
    (caller, found) ∈ (p.run h entries limit).visits ↔
      caller ∈ (p.run h entries limit).visited ∧ found = p.visit h caller := by
  constructor
  · intro hvisit
    exact ⟨List.mem_map_of_mem hvisit, Space.visit_of_mem_visits hvisit⟩
  · rintro ⟨hvisited, rfl⟩
    obtain ⟨⟨_, found⟩, hvisit, rfl⟩ := List.mem_map.1 hvisited
    have hfound : found = _ := Space.visit_of_mem_visits hvisit
    exact hfound ▸ hvisit

/-- A run is determined by the methods that it visits. -/
theorem visits_run (p : Program) (h : Hierarchy) (entries : List Signature) (limit : Option Nat) :
    (p.run h entries limit).visits =
      (p.run h entries limit).visited.map fun method => (method, p.visit h method) := by
  rw [Outcome.visited, List.map_map]
  conv_lhs => rw [← List.map_id (p.run h entries limit).visits]
  refine List.map_congr_left ?_
  rintro ⟨method, found⟩ hvisit
  exact congrArg (Prod.mk method) (mem_visits_run.1 hvisit).2

theorem nodup_visited_run : (p.run h entries limit).visited.Nodup := Space.nodup_visited_explore

theorem mem_discovered_run :
    method ∈ (p.run h entries limit).discovered ↔
      method ∈ entries ∨ ∃ caller ∈ (p.run h entries limit).visited, p.MayCall h caller method := by
  simp only [run, Space.mem_discovered_explore, leads_callSpace]

/-- The nodes are the methods that the run discovers. -/
theorem mem_nodes_construct :
    method ∈ (p.construct h entries limit).graph.nodes ↔
      method ∈ (p.run h entries limit).discovered := by
  have hinsert : .node method ∈ (p.run h entries limit).insertions entries ↔
      method ∈ entries ∨ ∃ caller found, (caller, found) ∈ (p.run h entries limit).visits ∧
        method ∈ found.callees.keys := by
    simp [Run.insertions]
  have hgraph : method ∈ (p.construct h entries limit).graph.nodes ↔
      .node method ∈ (p.run h entries limit).insertions entries := CallGraph.mem_nodes_build
  rw [hgraph, hinsert, mem_discovered_run]
  simp only [mem_visits_run, and_assoc, exists_eq_left, mem_keys_callees_visit, exists_and_left]

/-- The edges lead from the visited methods to what they may call. -/
theorem mem_callees_construct :
    callee ∈ (p.construct h entries limit).graph.callees caller ↔
      caller ∈ (p.run h entries limit).visited ∧ p.MayCall h caller callee := by
  set g := (entries.map Insertion.node).foldl CallGraph.apply CallGraph.empty with hg
  have hnode : ∀ entry ∈ entries, entry ∈ g.nodes := by
    intro entry hentry
    exact CallGraph.mem_nodes_foldl.2 (.inr (List.mem_map_of_mem hentry))
  have hnone : callee ∉ g.callees caller := by
    intro hedge
    simpa [CallGraph.callees_empty] using CallGraph.edge_mem_of_mem_callees_foldl hedge
  have hmet : (p.callSpace h).Supported (· ∈ g.nodes) (p.run h entries limit).visits :=
    Space.supported_explore hnode
  have hbuild : (p.construct h entries limit).graph =
      ((p.run h entries limit).visits.flatMap fun (caller, found) =>
        visitInsertions caller found).foldl CallGraph.apply g := by
    rw [construct, Run.construction, CallGraph.build, Run.insertions, List.foldl_append]
    rfl
  rw [hbuild, mem_callees_foldl_visits hmet, or_iff_right hnone]
  simp only [mem_visits_run, and_assoc, exists_eq_left, mem_keys_callees_visit, exists_and_left]

/-- The callees of a visited method are those that its visit found. -/
theorem callees_construct_of_visited (hmethod : method ∈ (p.run h entries limit).visited) :
    (p.construct h entries limit).graph.callees method = (p.visit h method).callees.keys := by
  refine (CallGraph.increasing_callees _ _).ext_mem (SortedMap.increasing_keys _) fun callee => ?_
  rw [mem_callees_construct, and_iff_right hmethod, mem_keys_callees_visit]

theorem nodeCount_construct (p : Program) (h : Hierarchy) (entries : List Signature)
    (limit : Option Nat) :
    (p.construct h entries limit).graph.nodeCount = (p.run h entries limit).discovered.length := by
  have hnodup : (p.run h entries limit).discovered.Nodup := Space.nodup_discovered_explore
  rw [CallGraph.nodeCount, SortedSet.size_eq_length hnodup fun _ => mem_nodes_construct]

theorem calls_construct :
    (p.construct h entries limit).graph.Calls caller callee ↔
      caller ∈ (p.run h entries limit).visited ∧ p.MayCall h caller callee :=
  CallGraph.mem_edges.trans mem_callees_construct

/-- Every node of the graph, also of one that a limit cut short, is reached from an entry point
along edges of the graph itself. -/
theorem reached_of_mem_nodes (hmethod : method ∈ (p.construct h entries limit).graph.nodes) :
    ∃ entry ∈ entries,
      Relation.ReflTransGen (p.construct h entries limit).graph.Calls entry method := by
  refine Space.discovered_induction (S := p.callSpace h) (motive := fun method =>
      ∃ entry ∈ entries,
        Relation.ReflTransGen (p.construct h entries limit).graph.Calls entry method)
    (fun entry hentry => ⟨entry, hentry, .refl⟩) ?_ method (mem_nodes_construct.1 hmethod)
  rintro caller hvisited ⟨entry, hentry, hpath⟩ callee hleads
  exact ⟨entry, hentry, hpath.tail (calls_construct.2 ⟨hvisited, leads_callSpace.1 hleads⟩)⟩

/-! ## Constructions without a limit -/

theorem discovered_run_none :
    (p.run h entries none).discovered = (p.run h entries none).visited :=
  Space.discovered_explore_none

/-- Without a limit a run visits what the entry points lead to along calls. -/
theorem mem_visited_run_iff :
    method ∈ (p.run h entries none).visited ↔
      ∃ entry ∈ entries, Relation.ReflTransGen (p.MayCall h) entry method := by
  have hleads : (p.callSpace h).Leads = p.MayCall h := by
    funext caller callee
    exact propext leads_callSpace
  rw [run, Space.mem_visited_explore, hleads]

theorem complete_construct_none : (p.construct h entries none).complete = true := by
  have hpending : (p.run h entries none).pending = [] := Space.pending_exploreFrom_none
  rw [construct, Run.construction, Run.isComplete, hpending, List.isEmpty_nil]

/-- The set holds the entry points and whatever its members may call. -/
structure CallClosed (p : Program) (h : Hierarchy) (entries : List Signature)
    (methods : Set Signature) : Prop where
  entry_mem : ∀ entry ∈ entries, entry ∈ methods
  callee_mem : ∀ caller ∈ methods, ∀ call ∈ (p.calls caller).1,
    ∀ callee ∈ (p.resolve h call.target).candidates, callee ∈ methods

theorem CallClosed.mem_of_mayCall {methods : Set Signature}
    (hclosed : p.CallClosed h entries methods) (hcaller : caller ∈ methods)
    (hcall : p.MayCall h caller callee) : callee ∈ methods := by
  obtain ⟨call, hmem, hcandidate⟩ := hcall
  exact hclosed.callee_mem caller hcaller call hmem callee hcandidate

theorem isLeast_nodes_construct :
    IsLeast {methods | p.CallClosed h entries methods}
      {method | method ∈ (p.construct h entries none).graph.nodes} := by
  constructor
  · constructor
    · intro entry hentry
      exact mem_nodes_construct.2 (mem_discovered_run.2 (.inl hentry))
    · intro caller hcaller call hcall callee hcallee
      have hvisited : caller ∈ (p.run h entries none).visited :=
        discovered_run_none ▸ mem_nodes_construct.1 hcaller
      exact mem_nodes_construct.2
        (mem_discovered_run.2 (.inr ⟨caller, hvisited, call, hcall, hcallee⟩))
  · intro methods hclosed method hmethod
    refine Space.discovered_induction (S := p.callSpace h) (motive := (· ∈ methods))
      hclosed.entry_mem ?_ method (mem_nodes_construct.1 hmethod)
    intro caller _ hcaller callee hleads
    exact hclosed.mem_of_mayCall hcaller (leads_callSpace.1 hleads)

/-- **The unlimited construction is exact.** It is complete; its nodes are the least set that holds
the entry points and what the calls of its members may run; its edges are all the calls between
them; and along its edges every node is reached from an entry point. -/
theorem construct_exact (p : Program) (h : Hierarchy) (entries : List Signature) :
    (p.construct h entries none).complete = true ∧
    IsLeast {methods | p.CallClosed h entries methods}
      {method | method ∈ (p.construct h entries none).graph.nodes} ∧
    (∀ caller callee, (caller, callee) ∈ (p.construct h entries none).graph.edges ↔
      caller ∈ (p.construct h entries none).graph.nodes ∧
        ∃ call ∈ (p.calls caller).1, callee ∈ (p.resolve h call.target).candidates) ∧
    ∀ method ∈ (p.construct h entries none).graph.nodes, ∃ entry ∈ entries,
      Relation.ReflTransGen (p.construct h entries none).graph.Calls entry method := by
  refine ⟨complete_construct_none, isLeast_nodes_construct, fun caller callee => ?_,
    fun method hmethod => reached_of_mem_nodes hmethod⟩
  rw [mem_nodes_construct, discovered_run_none]
  exact calls_construct

end Program

end DispatchGraph
