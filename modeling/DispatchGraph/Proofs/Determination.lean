import DispatchGraph.Proofs.Accounting
import DispatchGraph.Proofs.CallKinds
import DispatchGraph.Proofs.CanonicalGraph
import Mathlib.Algebra.BigOperators.Group.List.Basic

/-!
# What determines a construction

A construction keeps of each visit the callees with the kinds of the calls, the number of calls and
the number of those without a candidate. Visits that agree on these (`Visit.Agrees`) are as good as
each other: two runs that discover the same methods, visit the same ones in whatever order, and make
visits that agree, have equal constructions (`Program.construct_eq`). For the graph alone the
callees are enough (`Program.graph_construct_eq`). They also decide the way of a run: if every visit
finds the same callees, the same methods are visited in the same order (`Program.run_congr`), under
every limit.
-/

namespace DispatchGraph

/-- The visits find the same callees by calls of the same kinds, and as many calls. -/
structure Visit.Agrees (v w : Visit) : Prop where
  callees_eq : v.callees = w.callees
  callSites_eq : v.sites.length = w.sites.length
  unresolved_eq : v.sites.countP Site.isUnresolved = w.sites.countP Site.isUnresolved

namespace Program

variable {p q : Program} {h k : Hierarchy} {entries entries' : List Signature}
  {limit limit' : Option Nat}

theorem canonical_graph_construct : (p.construct h entries limit).graph.Canonical :=
  CallGraph.canonical_build _

theorem methods_construct :
    (p.construct h entries limit).stats.methods = (p.run h entries limit).visited.length :=
  (List.length_map _).symm

theorem callSites_construct_sites :
    (p.construct h entries limit).stats.callSites =
      ((p.run h entries limit).visited.map fun method => (p.visit h method).sites.length).sum := by
  rw [callSites_construct]
  simp only [sites_visit, List.length_map]

theorem mayCall_congr {caller callee : Signature}
    (hkeys : (p.visit h caller).callees.keys = (q.visit k caller).callees.keys) :
    p.MayCall h caller callee ↔ q.MayCall k caller callee := by
  rw [← mem_keys_callees_visit, hkeys, mem_keys_callees_visit]

/-- Runs that discover the same methods, and visit the same ones with the same callees, have equal
graphs. -/
theorem graph_construct_eq
    (hvisited : (p.run h entries limit).visited.Perm (q.run k entries' limit').visited)
    (hdiscovered : ∀ method, method ∈ (p.run h entries limit).discovered ↔
      method ∈ (q.run k entries' limit').discovered)
    (hkeys : ∀ method ∈ (p.run h entries limit).visited,
      (p.visit h method).callees.keys = (q.visit k method).callees.keys) :
    (p.construct h entries limit).graph = (q.construct k entries' limit').graph := by
  refine canonical_graph_construct.ext canonical_graph_construct (fun method => ?_)
    fun caller callee => ?_
  · rw [mem_nodes_construct, mem_nodes_construct, hdiscovered]
  · rw [mem_callees_construct, mem_callees_construct, ← hvisited.mem_iff]
    exact and_congr_right fun hcaller => mayCall_congr (hkeys caller hcaller)

/-- Runs that visit the same methods and count the same in each have equal counts. -/
theorem stats_construct_eq
    (hvisited : (p.run h entries limit).visited.Perm (q.run k entries' limit').visited)
    (hcallSites : ∀ method ∈ (p.run h entries limit).visited,
      (p.visit h method).sites.length = (q.visit k method).sites.length)
    (hunresolved : ∀ method ∈ (p.run h entries limit).visited,
      (p.visit h method).sites.countP Site.isUnresolved =
        (q.visit k method).sites.countP Site.isUnresolved) :
    (p.construct h entries limit).stats = (q.construct k entries' limit').stats := by
  have hmethods : (p.construct h entries limit).stats.methods =
      (q.construct k entries' limit').stats.methods := by
    rw [methods_construct, methods_construct, hvisited.length_eq]
  have hsites : (p.construct h entries limit).stats.callSites =
      (q.construct k entries' limit').stats.callSites := by
    rw [callSites_construct_sites, callSites_construct_sites, ← (hvisited.map _).sum_eq]
    exact congrArg List.sum (List.map_congr_left hcallSites)
  have hnone : (p.construct h entries limit).stats.unresolved =
      (q.construct k entries' limit').stats.unresolved := by
    rw [unresolved_construct_sites, unresolved_construct_sites, ← (hvisited.map _).sum_eq]
    exact congrArg List.sum (List.map_congr_left hunresolved)
  rcases hp : (p.construct h entries limit).stats with ⟨_, _, _⟩
  rcases hq : (q.construct k entries' limit').stats with ⟨_, _, _⟩
  simp_all

/-- **Runs that visit the same methods with the same finds have equal constructions.** The order of
the visits does not matter: every part of a construction is in order of its own. -/
theorem construct_eq (hcomplete : (p.construct h entries limit).complete =
      (q.construct k entries' limit').complete)
    (hvisited : (p.run h entries limit).visited.Perm (q.run k entries' limit').visited)
    (hdiscovered : ∀ method, method ∈ (p.run h entries limit).discovered ↔
      method ∈ (q.run k entries' limit').discovered)
    (hvisit : ∀ method ∈ (p.run h entries limit).visited,
      (p.visit h method).Agrees (q.visit k method)) :
    p.construct h entries limit = q.construct k entries' limit' := by
  have hgraph : (p.construct h entries limit).graph = (q.construct k entries' limit').graph :=
    graph_construct_eq hvisited hdiscovered fun method hmethod =>
      congrArg SortedMap.keys (hvisit method hmethod).callees_eq
  have hstats : (p.construct h entries limit).stats = (q.construct k entries' limit').stats :=
    stats_construct_eq hvisited (fun method hmethod => (hvisit method hmethod).callSites_eq)
      fun method hmethod => (hvisit method hmethod).unresolved_eq
  have hkinds : (p.construct h entries limit).callKinds =
      (q.construct k entries' limit').callKinds := by
    refine Sorted.ext_mem fun (caller, callees) => ?_
    rw [mem_callKinds_construct, mem_callKinds_construct, ← hvisited.mem_iff]
    refine and_congr_right fun hcaller => ?_
    rw [(hvisit caller hcaller).callees_eq]
  rcases hp : p.construct h entries limit with ⟨_, _, _, _⟩
  rcases hq : q.construct k entries' limit' with ⟨_, _, _, _⟩
  simp_all

/-! ## Runs that go the same way -/

/-- Runs in which visits find the same callees go the same way. -/
theorem run_congr (hkeys : ∀ method ∈ (p.run h entries limit).visited,
      (p.visit h method).callees.keys = (q.visit k method).callees.keys) :
    (p.run h entries limit).visited = (q.run k entries limit).visited ∧
      (p.run h entries limit).pending = (q.run k entries limit).pending :=
  Space.explore_congr hkeys

theorem complete_construct_congr
    (hpending : (p.run h entries limit).pending = (q.run k entries limit).pending) :
    (p.construct h entries limit).complete = (q.construct k entries limit).complete := by
  change (p.run h entries limit).isComplete = (q.run k entries limit).isComplete
  rw [Run.isComplete, hpending, Run.isComplete]

theorem mem_discovered_congr
    (hvisited : (p.run h entries limit).visited = (q.run k entries limit).visited)
    (hpending : (p.run h entries limit).pending = (q.run k entries limit).pending)
    (method : Signature) : method ∈ (p.run h entries limit).discovered ↔
      method ∈ (q.run k entries limit).discovered := by
  rw [Outcome.discovered, hvisited, hpending, Outcome.discovered]

/-- Runs that go the same way report the same if each visit does. -/
theorem diagnostics_run_congr
    (hvisited : (p.run h entries limit).visited = (q.run k entries limit).visited)
    (hpending : (p.run h entries limit).pending = (q.run k entries limit).pending)
    (hdiagnostics : ∀ method ∈ (p.run h entries limit).visited,
      (p.visit h method).diagnostics = (q.visit k method).diagnostics) :
    (p.run h entries limit).diagnostics = (q.run k entries limit).diagnostics := by
  have hvisits : (p.run h entries limit).visited.flatMap (fun m => (p.visit h m).diagnostics) =
      (q.run k entries limit).visited.flatMap fun m => (q.visit k m).diagnostics := by
    rw [← hvisited]
    exact List.flatMap_congr hdiagnostics
  rw [diagnostics_run, diagnostics_run, hvisits, hvisited, hpending,
    complete_construct_congr hpending]

/-- **A construction is determined by what its visits find.** -/
theorem construct_congr (hvisit : ∀ method ∈ (p.run h entries limit).visited,
      (p.visit h method).Agrees (q.visit k method)) :
    p.construct h entries limit = q.construct k entries limit := by
  obtain ⟨hvisited, hpending⟩ := run_congr fun method hmethod =>
    congrArg SortedMap.keys (hvisit method hmethod).callees_eq
  exact construct_eq (complete_construct_congr hpending) (.of_eq hvisited)
    (mem_discovered_congr hvisited hpending) hvisit

end Program

end DispatchGraph
