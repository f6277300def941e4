import DispatchGraph.Proofs.Determination
import Mathlib.Algebra.Order.BigOperators.Group.List
import Mathlib.Algebra.Order.Group.Nat
import Mathlib.Data.List.Perm.Subperm

/-!
# Entry points combine

Without a limit a run visits what its entry points lead to (`Program.mem_visited_run_iff`), and what
several entry points lead to is what each of them leads to. A method that is visited has the same
callees whichever entry point led to it. So the construction from two lists of entry points is the
union of the constructions from each (`Construction.UnionOf`), the order in which entry points are
given and how often does not matter, and more entry points give no less (`Construction.PartOf`).
These are the parts of `Program.construct_combines_entries`.
-/

namespace DispatchGraph

/-! ## Unions and parts -/

namespace Construction

/-- The construction holds what one or the other holds, and these two never differ about a caller
that both have. -/
structure UnionOf (c left right : Construction) : Prop where
  mem_nodes : ∀ method, method ∈ c.graph.nodes ↔
    method ∈ left.graph.nodes ∨ method ∈ right.graph.nodes
  mem_edges : ∀ edge, edge ∈ c.graph.edges ↔ edge ∈ left.graph.edges ∨ edge ∈ right.graph.edges
  /-- The map of kinds has the entries of both maps. -/
  mem_callKinds : ∀ entry, entry ∈ c.callKinds ↔ entry ∈ left.callKinds ∨ entry ∈ right.callKinds
  /-- A caller has one entry in both maps. -/
  callKinds_agree : ∀ caller ∈ left.callKinds.keys, caller ∈ right.callKinds.keys →
    left.callKinds.get? caller = right.callKinds.get? caller

/-- All that the one construction holds and counts, the other holds and counts too. -/
structure PartOf (part whole : Construction) : Prop where
  within : part.graph.Within whole.graph
  callKinds_subset : ∀ entry ∈ part.callKinds, entry ∈ whole.callKinds
  methods_le : part.stats.methods ≤ whole.stats.methods
  callSites_le : part.stats.callSites ≤ whole.stats.callSites
  unresolved_le : part.stats.unresolved ≤ whole.stats.unresolved

end Construction

namespace Program

variable {p : Program} {h : Hierarchy} {entries entries' : List Signature} {method : Signature}

/-! ## Visits from several entry points -/

theorem mem_visited_run_append :
    method ∈ (p.run h (entries ++ entries') none).visited ↔
      method ∈ (p.run h entries none).visited ∨ method ∈ (p.run h entries' none).visited := by
  simp only [mem_visited_run_iff, List.mem_append, or_and_right, exists_or]

theorem visited_run_subset (hsubset : entries ⊆ entries') :
    (p.run h entries none).visited ⊆ (p.run h entries' none).visited := by
  intro method hmethod
  obtain ⟨entry, hentry, hpath⟩ := mem_visited_run_iff.1 hmethod
  exact mem_visited_run_iff.2 ⟨entry, hsubset hentry, hpath⟩

theorem mem_nodes_construct_none :
    method ∈ (p.construct h entries none).graph.nodes ↔
      method ∈ (p.run h entries none).visited := by
  rw [mem_nodes_construct, discovered_run_none]

/-! ## Unions -/

/-- **The construction from two lists of entry points is the union of those from each.** -/
theorem unionOf_construct_append (p : Program) (h : Hierarchy) (entries entries' : List Signature) :
    (p.construct h (entries ++ entries') none).UnionOf (p.construct h entries none)
      (p.construct h entries' none) where
  mem_nodes method := by simp only [mem_nodes_construct_none, mem_visited_run_append]
  mem_edges := by
    rintro ⟨caller, callee⟩
    rw [CallGraph.mem_edges, CallGraph.mem_edges, CallGraph.mem_edges]
    simp only [mem_callees_construct, mem_visited_run_append, or_and_right]
  mem_callKinds := by
    rintro ⟨caller, callees⟩
    simp only [mem_callKinds_construct, mem_visited_run_append, or_and_right]
  callKinds_agree := by
    -- either entry is what a visit to the caller finds
    intro caller hcaller hcaller'
    obtain ⟨callees, hcallees⟩ := SortedMap.mem_keys.1 hcaller
    obtain ⟨callees', hcallees'⟩ := SortedMap.mem_keys.1 hcaller'
    rw [SortedMap.get?_eq_some.2 hcallees, SortedMap.get?_eq_some.2 hcallees',
      (mem_callKinds_construct.1 hcallees).2.1, (mem_callKinds_construct.1 hcallees').2.1]

/-! ## Order and repetition -/

/-- The construction depends on the set of entry points only. -/
theorem construct_eq_of_mem_iff (hentries : ∀ entry, entry ∈ entries ↔ entry ∈ entries') :
    p.construct h entries none = p.construct h entries' none := by
  have hmem : ∀ method, method ∈ (p.run h entries none).visited ↔
      method ∈ (p.run h entries' none).visited := by
    intro method
    simp only [mem_visited_run_iff, hentries]
  have hvisited : (p.run h entries none).visited.Perm (p.run h entries' none).visited :=
    (List.perm_ext_iff_of_nodup nodup_visited_run nodup_visited_run).2 hmem
  refine construct_eq ?_ hvisited (fun method => ?_) fun method _ => ⟨rfl, rfl, rfl⟩
  · rw [complete_construct_none, complete_construct_none]
  · rw [discovered_run_none, discovered_run_none, hmem]

/-! ## Growth -/

/-- Counts of visits grow with the visits. -/
theorem sum_visited_le (hsubset : entries ⊆ entries') (count : Signature → Nat) :
    ((p.run h entries none).visited.map count).sum ≤
      ((p.run h entries' none).visited.map count).sum := by
  have hvisited : (p.run h entries none).visited.Subperm (p.run h entries' none).visited :=
    List.subperm_of_subset nodup_visited_run (visited_run_subset hsubset)
  obtain ⟨visited, hperm, hsublist⟩ := hvisited
  rw [← (hperm.map count).sum_eq]
  exact (hsublist.map count).sum_le_sum fun _ _ => Nat.zero_le _

/-- **More entry points give no less.** -/
theorem partOf_construct (hsubset : entries ⊆ entries') :
    (p.construct h entries none).PartOf (p.construct h entries' none) where
  within := by
    constructor
    · intro method hmethod
      rw [mem_nodes_construct_none] at hmethod ⊢
      exact visited_run_subset hsubset hmethod
    · rintro ⟨caller, callee⟩ hedge
      obtain ⟨hcaller, hcall⟩ := calls_construct.1 hedge
      exact calls_construct.2 ⟨visited_run_subset hsubset hcaller, hcall⟩
  callKinds_subset := by
    rintro ⟨caller, callees⟩ hentry
    obtain ⟨hcaller, hcallees⟩ := mem_callKinds_construct.1 hentry
    exact mem_callKinds_construct.2 ⟨visited_run_subset hsubset hcaller, hcallees⟩
  methods_le := by
    simpa [methods_construct] using sum_visited_le (p := p) (h := h) hsubset fun _ => 1
  callSites_le := by
    rw [callSites_construct, callSites_construct]
    exact sum_visited_le hsubset _
  unresolved_le := by
    rw [unresolved_construct_sites, unresolved_construct_sites]
    exact sum_visited_le hsubset _

/-- **Entry points combine by union.** Without a limit the construction from two lists of entry
points is the union of the constructions from each; the whole construction, its counts included, is
the same for all lists of the same entry points; and it grows with their set. -/
theorem construct_combines_entries (p : Program) (h : Hierarchy) :
    (∀ left right, (p.construct h (left ++ right) none).UnionOf (p.construct h left none)
      (p.construct h right none)) ∧
    (∀ entries entries' : List Signature, (∀ entry, entry ∈ entries ↔ entry ∈ entries') →
      p.construct h entries none = p.construct h entries' none) ∧
    ∀ entries entries' : List Signature, entries ⊆ entries' →
      (p.construct h entries none).PartOf (p.construct h entries' none) :=
  ⟨unionOf_construct_append p h, fun _ _ => construct_eq_of_mem_iff, fun _ _ => partOf_construct⟩

end Program

end DispatchGraph
