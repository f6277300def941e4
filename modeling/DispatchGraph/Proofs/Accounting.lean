import DispatchGraph.Proofs.Calls
import DispatchGraph.Proofs.Construction
import DispatchGraph.Proofs.Dispatch
import Mathlib.Algebra.GroupWithZero.Nat

/-!
# The accounts of a run

A run counts the methods it visits and the calls that their statements make, and reports what it
could not follow. On the program's own hierarchy the two say the same. A call either binds, and then
it has a candidate and nothing is reported (`Program.resolve_of_ok`), or it has none and one warning
says why (`Program.resolve_of_error`): the hierarchy knows every class of the program and lists no
other, so it never disagrees with the program. A visit warns of a method that is not declared, and
then of each call that does not bind (`Program.countP_warn_visit`); the run adds one warning if a
limit cut it short. So no call is dropped in silence (`Program.run_accountsFor`).
-/

namespace DispatchGraph

namespace Program

variable {p : Program} {h : Hierarchy} {entries : List Signature} {limit : Option Nat}
  {method : Signature}

/-! ## Calls -/

theorem exists_class_of_mem_substitutes {target : Signature} {x : ClassName}
    (hx : x ∈ substitutes p.hierarchy target) : ∃ c, p.class? x = some c := by
  rw [substitutes] at hx
  split at hx
  · exact exists_class_of_mem_below hx
  · exact exists_class_of_mem_below hx

theorem contains_of_target {call target : Signature} (htarget : p.target call = .ok target) :
    p.hierarchy.contains target.owner = true := by
  obtain ⟨m, hm⟩ := Option.isSome_iff_exists.1 (declares_of_target htarget)
  obtain ⟨c, hc, -⟩ := Option.bind_eq_some_iff.1 hm
  simp [hierarchy, hc]

theorem resolve_of_error {call : Signature} {cause : Unresolved}
    (htarget : p.target call = .error cause) :
    p.resolve h call = ⟨[], [.unresolved call cause]⟩ := by
  simp [resolve, htarget]

/-- A call that binds has a candidate, and nothing is reported about it. -/
theorem resolve_of_ok {call target : Signature} (htarget : p.target call = .ok target) :
    (p.resolve p.hierarchy call).candidates ≠ [] ∧
      (p.resolve p.hierarchy call).diagnostics = [] := by
  have hdeclared : ∀ x ∈ substitutes p.hierarchy target, (p.class? x).isNone = false := by
    intro x hx
    obtain ⟨c, hc⟩ := exists_class_of_mem_substitutes hx
    rw [hc, Option.isNone_some]
  rw [resolve, htarget]
  simp only [contains_of_target htarget, ↓reduceIte]
  refine ⟨List.cons_ne_nil _ _, ?_⟩
  rw [List.map_eq_nil_iff, List.filter_eq_nil_iff]
  intro x hx
  simp [hdeclared x hx]

theorem isEmpty_candidates_resolve (call : Signature) :
    (p.resolve p.hierarchy call).candidates.isEmpty = !(p.target call).isOk := by
  cases htarget : p.target call with
  | error cause => simp [resolve_of_error htarget, Except.isOk, Except.toBool]
  | ok target => simpa [Except.isOk, Except.toBool] using (resolve_of_ok htarget).1

theorem countP_warn_resolve (call : Signature) :
    (p.resolve p.hierarchy call).diagnostics.countP (fun d => d.level = .warn) =
      if (p.target call).isOk then 0 else 1 := by
  cases htarget : p.target call with
  | error cause => simp [resolve_of_error htarget, Except.isOk, Except.toBool, Diagnostic.level]
  | ok target => simp [(resolve_of_ok htarget).2, Except.isOk, Except.toBool]

/-! ## Visits -/

theorem diagnostics_visit (p : Program) (h : Hierarchy) (method : Signature) :
    (p.visit h method).diagnostics =
      (p.calls method).2 ++
        ((p.calls method).1.flatMap fun call => (p.resolve h call.target).diagnostics) ++
        [.processed method (p.visit h method).callees.size] := by
  simp [visit, List.flatMap_map]

theorem diagnostics_calls (p : Program) (method : Signature) :
    (p.calls method).2 = if p.declares method then [] else [.methodMissing method] := by
  cases hm : p.method? method with
  | none => simp [calls, declares, hm]
  | some m => simp [calls, declares, hm]

/-- The number of statements of a method whose call does not bind. -/
def unboundCalls (p : Program) (method : Signature) : Nat :=
  (p.statements method).countP fun statement =>
    ∃ call, statement.Makes call ∧ (p.target call.target).isOk = false

theorem countP_unbound_calls :
    ((p.calls method).1.countP fun call => !(p.target call.target).isOk) =
      p.unboundCalls method := by
  rw [unboundCalls, ← countP_calls fun call => (p.target call.target).isOk = false]
  simp only [Bool.decide_eq_false]

/-- A visit warns of a method that is not declared and of each call that does not bind. -/
theorem countP_warn_visit :
    (p.visit p.hierarchy method).diagnostics.countP (fun d => d.level = .warn) =
      (if p.declares method then 0 else 1) + p.unboundCalls method := by
  have hcalls : ∀ calls : List Invocation,
      (calls.flatMap fun call => (p.resolve p.hierarchy call.target).diagnostics).countP
        (fun d => d.level = .warn) = calls.countP fun call => !(p.target call.target).isOk := by
    intro calls
    induction calls with
    | nil => rfl
    | cons call calls ih =>
      rw [List.flatMap_cons, List.countP_append, ih, countP_warn_resolve, List.countP_cons]
      cases (p.target call.target).isOk <;> simp [Nat.add_comm]
  rw [diagnostics_visit, List.countP_append, List.countP_append, hcalls, diagnostics_calls,
    countP_unbound_calls]
  split <;> simp [Diagnostic.level]

/-- All that is reported about a call are warnings. -/
theorem level_of_mem_resolve {call : Signature} {d : Diagnostic}
    (hd : d ∈ (p.resolve h call).diagnostics) : d.level = .warn := by
  rw [resolve] at hd
  split at hd
  · rw [List.mem_singleton.1 hd]
    rfl
  · split at hd
    · obtain ⟨name, -, rfl⟩ := List.mem_map.1 hd
      rfl
    · rw [List.mem_singleton.1 hd]
      rfl

/-- Apart from warnings a visit reports itself. -/
theorem filter_debug_visit :
    (p.visit h method).diagnostics.filter (fun d => d.level = .debug) =
      [.processed method (p.visit h method).callees.size] := by
  have hmissing : (p.calls method).2.filter (fun d => d.level = .debug) = [] := by
    rw [diagnostics_calls]
    split <;> simp [Diagnostic.level]
  have hcalls : ((p.calls method).1.flatMap fun call =>
      (p.resolve h call.target).diagnostics).filter (fun d => d.level = .debug) = [] := by
    rw [List.filter_eq_nil_iff]
    intro d hd
    obtain ⟨call, -, hd⟩ := List.mem_flatMap.1 hd
    simp [level_of_mem_resolve hd]
  rw [diagnostics_visit, List.filter_append, List.filter_append, hmissing, hcalls]
  simp [Diagnostic.level]

/-! ## Runs -/

theorem diagnostics_run (p : Program) (h : Hierarchy) (entries : List Signature)
    (limit : Option Nat) :
    (p.run h entries limit).diagnostics =
      ((p.run h entries limit).visited.flatMap fun method => (p.visit h method).diagnostics) ++
        if (p.construct h entries limit).complete then []
        else [.budgetSpent (p.run h entries limit).visited.length
          (p.run h entries limit).pending.length] := by
  rw [Run.diagnostics, visits_run, List.flatMap_map, List.length_map]
  rfl

theorem sites_run (p : Program) (h : Hierarchy) (entries : List Signature) (limit : Option Nat) :
    (p.run h entries limit).sites =
      (p.run h entries limit).visited.flatMap fun method => (p.visit h method).sites := by
  rw [Run.sites, visits_run, List.flatMap_map]

/-- A method that is met and is no entry point is declared: whatever a call may run is. -/
theorem declares_of_mem_discovered (hmethod : method ∈ (p.run h entries limit).discovered)
    (hentry : method ∉ entries) : p.declares method = true := by
  rcases mem_discovered_run.1 hmethod with hmem | ⟨caller, -, call, -, hcandidate⟩
  · exact absurd hmem hentry
  · exact declares_of_mem_resolve hcandidate

theorem mem_entries_of_not_declares (hmethod : method ∈ (p.run h entries limit).visited)
    (hdecl : p.declares method = false) : method ∈ entries := by
  by_contra hentry
  rw [declares_of_mem_discovered (List.mem_append_left _ hmethod) hentry] at hdecl
  contradiction

theorem callSites_construct :
    (p.construct h entries limit).stats.callSites =
      ((p.run h entries limit).visited.map fun method => (p.calls method).1.length).sum := by
  rw [construct, Run.construction, Run.stats, sites_run, List.length_flatMap]
  simp only [sites_visit, List.length_map]

theorem unresolved_construct_sites :
    (p.construct h entries limit).stats.unresolved =
      ((p.run h entries limit).visited.map fun method =>
        (p.visit h method).sites.countP Site.isUnresolved).sum := by
  rw [construct, Run.construction, Run.stats, sites_run, List.countP_flatMap]
  rfl

theorem unresolved_construct :
    (p.construct p.hierarchy entries limit).stats.unresolved =
      ((p.run p.hierarchy entries limit).visited.map p.unboundCalls).sum := by
  rw [unresolved_construct_sites]
  refine congrArg List.sum (List.map_congr_left fun method _ => ?_)
  rw [sites_visit, List.countP_map, ← countP_unbound_calls]
  refine List.countP_congr fun call _ => ?_
  simp only [Function.comp_apply, Site.isUnresolved, isEmpty_candidates_resolve]

theorem countP_warn_visits (methods : List Signature) :
    (methods.flatMap fun method => (p.visit p.hierarchy method).diagnostics).countP
        (fun d => d.level = .warn) =
      (methods.map p.unboundCalls).sum + methods.countP fun method => !p.declares method := by
  induction methods with
  | nil => rfl
  | cons method methods ih =>
    rw [List.flatMap_cons, List.countP_append, ih, countP_warn_visit, List.map_cons, List.sum_cons,
      List.countP_cons]
    cases p.declares method
    · simp only [Bool.false_eq_true, ↓reduceIte, Bool.not_false]
      omega
    · simp only [↓reduceIte, Bool.not_true, Bool.false_eq_true]
      omega

theorem filter_debug_run :
    (p.run h entries limit).diagnostics.filter (fun d => d.level = .debug) =
      (p.run h entries limit).visited.map fun method =>
        .processed method ((p.construct h entries limit).graph.callees method).length := by
  have hending : (if (p.construct h entries limit).complete then []
      else [Diagnostic.budgetSpent (p.run h entries limit).visited.length
        (p.run h entries limit).pending.length]).filter (fun d => d.level = .debug) = [] := by
    split <;> simp [Diagnostic.level]
  rw [diagnostics_run, List.filter_append, hending, List.append_nil, List.filter_flatMap]
  simp only [filter_debug_visit]
  rw [← List.map_eq_flatMap]
  refine List.map_congr_left fun method hmethod => ?_
  rw [callees_construct_of_visited hmethod, SortedMap.length_keys]

end Program

/-! ## The accounts -/

/-- What a run from the given entry points reports of itself, what it counts, and the construction
that it makes agree with each other and with the program. -/
structure Run.AccountsFor (r : Run) (p : Program) (entries : List Signature) (c : Construction) :
    Prop where
  /-- No method is visited twice. -/
  nodup : r.visited.Nodup
  /-- Every visited method is counted. -/
  methods_eq : c.stats.methods = r.visited.length
  /-- Every statement of a visited method that makes a call is counted. -/
  callSites_eq : c.stats.callSites = (r.visited.map fun method =>
    (p.statements method).countP fun statement => ∃ call, statement.Makes call).sum
  /-- Of these the statements whose call does not bind are counted. -/
  unresolved_eq : c.stats.unresolved = (r.visited.map fun method =>
    (p.statements method).countP fun statement =>
      ∃ call, statement.Makes call ∧ (p.target call.target).isOk = false).sum
  /-- Each visit is reported once, with the number of edges that lead from the method, and nothing
  else is reported at that level. -/
  visits_reported : r.diagnostics.filter (fun d => d.level = .debug) =
    r.visited.map fun method => .processed method (c.graph.callees method).length
  /-- Each call that does not bind, each method that is not declared, and the cut are warned of
  once, and nothing else is. -/
  warnings_eq : r.diagnostics.countP (fun d => d.level = .warn) =
    c.stats.unresolved + (r.visited.countP fun method => !p.declares method) +
      if c.complete then 0 else 1
  /-- A method that is not declared is an entry point. -/
  entry_of_not_declares : ∀ method ∈ r.visited, p.declares method = false → method ∈ entries
  /-- The last warning of a run that was cut says how many methods were visited and how many nodes
  were not. -/
  cut_reported : c.complete = false →
    (r.diagnostics.filter fun d => d.level = .warn).getLast? =
      some (.budgetSpent r.visited.length (c.graph.nodeCount - r.visited.length))

/-- **A run accounts for every call.** On the program's own hierarchy its counts, its reports and
its graph agree, under every limit. -/
theorem Program.run_accountsFor (p : Program) (entries : List Signature) (limit : Option Nat) :
    Run.AccountsFor (p.run p.hierarchy entries limit) p entries
      (p.construct p.hierarchy entries limit) where
  nodup := Space.nodup_visited_explore
  methods_eq := (List.length_map _).symm
  callSites_eq := by
    rw [callSites_construct]
    simp only [length_calls]
  unresolved_eq := unresolved_construct
  visits_reported := filter_debug_run
  warnings_eq := by
    rw [diagnostics_run, List.countP_append, countP_warn_visits, unresolved_construct]
    split <;> simp [Diagnostic.level]
  entry_of_not_declares := fun _ => mem_entries_of_not_declares
  cut_reported := by
    intro hcut
    have hpending : (p.construct p.hierarchy entries limit).graph.nodeCount -
        (p.run p.hierarchy entries limit).visited.length =
        (p.run p.hierarchy entries limit).pending.length := by
      rw [nodeCount_construct, Outcome.discovered, List.length_append]
      omega
    rw [diagnostics_run, hcut, hpending, List.filter_append]
    simp [Diagnostic.level]

end DispatchGraph
