import DispatchGraph.Proofs.Accounting
import DispatchGraph.Proofs.Insertions
import Mathlib.Data.List.Dedup
import Mathlib.Data.List.Perm.Subperm

/-!
# How long a construction takes

The loop of a search takes one point out of the queue in each turn, and one turn more when it finds
the budget spent (`Outcome.turns`). `Space.exploreWithin` is the same loop with a bound on its
turns: it ends in time exactly when the bound allows the turns of the search, and then with what the
search finds (`Space.exploreWithin_eq`). No point is met twice, and what is met is a root or lies in
the universe of the space, so there are no more turns than distinct roots and distinct points
(`Space.turns_explore_le`), however much the queue grows in between.

For a construction the universe are the declared methods, because no candidate of a call is
invented, whatever the hierarchy answers (`Program.declares_of_mem_resolve`). While the graph is
built every edge is inserted after its ends, so that no insertion is refused
(`Program.insertAll_insertions`). Hence a construction ends on every program and every hierarchy
(`Program.construct_terminates`).
-/

namespace DispatchGraph

open Std

/-! ## Turns of a search -/

section

variable {α β : Type}

/-- The turns of the loop that led to an outcome: one for each visit, and one that finds the budget
spent if points are left. -/
def Outcome.turns (o : Outcome α β) : Nat :=
  o.visits.length + if o.pending.isEmpty then 0 else 1

theorem Outcome.turns_le_length_discovered (o : Outcome α β) : o.turns ≤ o.discovered.length := by
  unfold turns discovered visited
  rw [List.length_append, List.length_map]
  cases o.pending with
  | nil => simp
  | cons a rest =>
    simp only [List.isEmpty_cons, Bool.false_eq_true, ↓reduceIte, List.length_cons]
    omega

theorem Outcome.turns_cons (a : α) (found : β) (visits : List (α × β)) (pending : List α) :
    turns ⟨(a, found) :: visits, pending⟩ = turns ⟨visits, pending⟩ + 1 := by
  simp only [turns, List.length_cons]
  omega

variable [Ord α] [TransOrd α] [LawfulEqOrd α] [DecidableEq α]

namespace Space

/-- The search from a frontier in at most so many turns; nothing if it does not end by then. -/
def exploreWithin (S : Space α β) : Nat → Option Nat → Frontier α → Option (Outcome α β)
  | 0, _, f => if f.queue = [] then some ⟨[], []⟩ else none
  | n + 1, budget, f =>
    match f.queue with
    | [] => some ⟨[], []⟩
    | a :: rest =>
      if budget = some 0 then some ⟨[], a :: rest⟩
      else (S.exploreWithin n (budget.map (· - 1)) (S.advance f a rest)).map fun later =>
        ⟨(a, S.visit a) :: later.visits, later.pending⟩

variable {S : Space α β} {budget : Option Nat} {f : Frontier α} {a : α} {rest roots : List α}

theorem turns_of_nil (hq : f.queue = []) : (S.exploreFrom budget f).turns = 0 := by
  rw [exploreFrom_nil hq]
  rfl

theorem turns_of_spent (hq : f.queue = a :: rest) : (S.exploreFrom (some 0) f).turns = 1 := by
  rw [exploreFrom_spent, hq]
  rfl

theorem turns_of_visit (hq : f.queue = a :: rest) (hb : budget ≠ some 0) :
    (S.exploreFrom budget f).turns =
      (S.exploreFrom (budget.map (· - 1)) (S.advance f a rest)).turns + 1 := by
  rw [exploreFrom_visit hq hb, Outcome.turns_cons]

/-- **The loop ends within a bound if and only if the bound allows its turns.** -/
theorem exploreWithin_eq (S : Space α β) (n : Nat) (budget : Option Nat) (f : Frontier α) :
    S.exploreWithin n budget f =
      if (S.exploreFrom budget f).turns ≤ n then some (S.exploreFrom budget f) else none := by
  induction n generalizing budget f with
  | zero =>
    unfold exploreWithin
    cases hq : f.queue with
    | nil => rw [if_pos rfl, if_pos (turns_of_nil hq).le, exploreFrom_nil hq]
    | cons a rest =>
      have hturns : 0 < (S.exploreFrom budget f).turns := by
        by_cases hb : budget = some 0
        · rw [hb, turns_of_spent hq]
          omega
        · rw [turns_of_visit hq hb]
          omega
      rw [if_neg (List.cons_ne_nil a rest), if_neg (by omega)]
  | succ n ih =>
    unfold exploreWithin
    cases hq : f.queue with
    | nil =>
      have hturns : (S.exploreFrom budget f).turns ≤ n + 1 := by
        rw [turns_of_nil hq]
        omega
      rw [if_pos hturns, exploreFrom_nil hq]
    | cons a rest =>
      by_cases hb : budget = some 0
      · subst hb
        have hturns : (S.exploreFrom (some 0) f).turns ≤ n + 1 := by
          rw [turns_of_spent hq]
          omega
        rw [if_pos hturns, exploreFrom_spent, hq]
        rfl
      · simp only [hb, ↓reduceIte]
        -- `n` turns are enough after this one if and only if `n + 1` are enough for all of them
        rw [ih, turns_of_visit hq hb, exploreFrom_visit hq hb]
        simp only [Nat.add_le_add_iff_right]
        split
        · rfl
        · rfl

/-- What is met is a root or in the universe, and nothing is met twice. -/
theorem length_discovered_explore_le (S : Space α β) (budget : Option Nat) (roots : List α) :
    (S.explore budget roots).discovered.length ≤ roots.dedup.length + S.points.dedup.length := by
  have hsubset : (S.explore budget roots).discovered ⊆ roots.dedup ++ S.points.dedup := by
    intro b hb
    rw [List.mem_append, List.mem_dedup, List.mem_dedup]
    rcases mem_discovered_explore.1 hb with hroot | ⟨c, -, hleads⟩
    · exact .inl hroot
    · exact .inr (S.next_subset c b hleads)
  have hnodup : (S.explore budget roots).discovered.Nodup := nodup_discovered_explore
  rw [← List.length_append]
  exact (List.subperm_of_subset hnodup hsubset).length_le

theorem turns_explore_le (S : Space α β) (budget : Option Nat) (roots : List α) :
    (S.explore budget roots).turns ≤ roots.dedup.length + S.points.dedup.length :=
  (S.explore budget roots).turns_le_length_discovered.trans
    (S.length_discovered_explore_le budget roots)

end Space

end

/-! ## Insertions that are not refused -/

namespace CallGraph

variable {g : CallGraph} {caller callee method : Signature}

/-- Insert one after the other, up to the first insertion that is refused. -/
def insertAll (g : CallGraph) : List Insertion → Except DanglingEdge CallGraph
  | [] => .ok g
  | insertion :: rest =>
    match g.insert insertion with
    | .ok (graph, _) => graph.insertAll rest
    | .error e => .error e

theorem insertAll_node (g : CallGraph) (method : Signature) (rest : List Insertion) :
    g.insertAll (.node method :: rest) = (g.apply (.node method)).insertAll rest := rfl

/-- An edge between nodes is not refused. -/
theorem insertAll_edge (hcaller : caller ∈ g.nodes) (hcallee : callee ∈ g.nodes)
    (rest : List Insertion) :
    g.insertAll (.edge caller callee :: rest) = (g.apply (.edge caller callee)).insertAll rest := by
  rw [insertAll, insert, addEdge_eq, if_pos ⟨hcaller, hcallee⟩]

theorem insertAll_nodes (g : CallGraph) (methods : List Signature) (rest : List Insertion) :
    g.insertAll (methods.map .node ++ rest) =
      ((methods.map Insertion.node).foldl apply g).insertAll rest := by
  induction methods generalizing g with
  | nil => rfl
  | cons method methods ih =>
    rw [List.map_cons, List.cons_append, insertAll_node, ih, List.foldl_cons]

/-- The edges from a node to several methods, each inserted after its end. -/
theorem insertAll_calls (hcaller : caller ∈ g.nodes) (callees : List Signature)
    (rest : List Insertion) :
    g.insertAll ((callees.flatMap fun callee => [.node callee, .edge caller callee]) ++ rest) =
      ((callees.flatMap fun callee => [.node callee, .edge caller callee]).foldl apply
        g).insertAll rest := by
  induction callees generalizing g with
  | nil => rfl
  | cons callee callees ih =>
    have hcaller' : caller ∈ (g.apply (.node callee)).nodes := mem_nodes_apply.2 (.inl hcaller)
    have hcallee : callee ∈ (g.apply (.node callee)).nodes := mem_nodes_apply.2 (.inr rfl)
    have hnext : caller ∈ ((g.apply (.node callee)).apply (.edge caller callee)).nodes :=
      mem_nodes_apply.2 (.inl hcaller')
    rw [List.flatMap_cons, List.append_assoc, List.foldl_append, List.cons_append,
      List.cons_append, List.nil_append, insertAll_node, insertAll_edge hcaller' hcallee, ih hnext]
    rfl

end CallGraph

/-! ## Constructions -/

namespace Program

variable {p : Program} {h : Hierarchy} {entries : List Signature} {limit : Option Nat}

/-- The insertions of visits to methods that were met before. -/
theorem insertAll_visits {visits : List (Signature × Visit)} {g : CallGraph}
    (hmet : (p.callSpace h).Supported (· ∈ g.nodes) visits) :
    g.insertAll (visits.flatMap fun (caller, found) => visitInsertions caller found) =
      .ok ((visits.flatMap fun (caller, found) => visitInsertions caller found).foldl
        CallGraph.apply g) := by
  induction visits generalizing g with
  | nil => rfl
  | cons visit visits ih =>
    obtain ⟨caller, found⟩ := visit
    obtain ⟨hcaller, hrest⟩ := hmet
    have hmet' : (p.callSpace h).Supported
        (· ∈ ((visitInsertions caller found).foldl CallGraph.apply g).nodes) visits :=
      hrest.mono fun method => mem_nodes_foldl_visit.2
    rw [List.flatMap_cons, List.foldl_append, ← ih hmet']
    exact CallGraph.insertAll_calls hcaller found.callees.keys _

/-- No insertion of a run is refused. -/
theorem insertAll_insertions (p : Program) (h : Hierarchy) (entries : List Signature)
    (limit : Option Nat) :
    CallGraph.empty.insertAll ((p.run h entries limit).insertions entries) =
      .ok (p.construct h entries limit).graph := by
  have hmet : (p.callSpace h).Supported
      (· ∈ ((entries.map Insertion.node).foldl CallGraph.apply CallGraph.empty).nodes)
      (p.run h entries limit).visits :=
    Space.supported_explore fun entry hentry =>
      CallGraph.mem_nodes_foldl.2 (.inr (List.mem_map_of_mem hentry))
  unfold construct Run.construction CallGraph.build Run.insertions
  rw [CallGraph.insertAll_nodes, List.foldl_append]
  exact insertAll_visits hmet

/-- The run in at most so many turns of its loop; nothing if it does not end by then. -/
def runWithin (p : Program) (h : Hierarchy) (entries : List Signature) (limit : Option Nat)
    (turns : Nat) : Option Run :=
  (p.callSpace h).exploreWithin turns limit (Frontier.empty.discoverAll entries)

/-- As many turns are enough as there are distinct entry points and distinct declared methods. -/
theorem runWithin_eq_some {turns : Nat}
    (hturns : entries.dedup.length + p.signatures.dedup.length ≤ turns) :
    p.runWithin h entries limit turns = some (p.run h entries limit) := by
  unfold runWithin
  rw [Space.exploreWithin_eq]
  exact if_pos (((p.callSpace h).turns_explore_le limit entries).trans hturns)

/-- **A construction ends on every program and every hierarchy.** Whatever the hierarchy answers,
the candidates of a call are declared methods, and so are the nodes that are no entry points. The
loop ends after no more turns than there are distinct entry points and distinct declared methods,
and no edge is refused while the graph is built. -/
theorem construct_terminates (p : Program) (h : Hierarchy) (entries : List Signature)
    (limit : Option Nat) :
    (∀ call, ∀ s ∈ (p.resolve h call).candidates, p.declares s = true) ∧
    (∀ method ∈ (p.construct h entries limit).graph.nodes, method ∉ entries →
      p.declares method = true) ∧
    (∀ turns, entries.dedup.length + p.signatures.dedup.length ≤ turns →
      p.runWithin h entries limit turns = some (p.run h entries limit)) ∧
    CallGraph.empty.insertAll ((p.run h entries limit).insertions entries) =
      .ok (p.construct h entries limit).graph :=
  ⟨fun _ _ => declares_of_mem_resolve,
    fun _ hmethod => declares_of_mem_discovered (mem_nodes_construct.1 hmethod),
    fun _ => runWithin_eq_some, insertAll_insertions p h entries limit⟩

end Program

end DispatchGraph
