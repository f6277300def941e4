import DispatchGraph.Proofs.Determination
import DispatchGraph.Proofs.Outline

/-!
# Kinds of calls only travel to the reports

A program without kinds is the program with one kind for all its calls (`Program.withoutKinds`). It
has the same outline, so its calls bind and are resolved as before, and a visit to a method of it
leads to the same callees, counts the same and reports the same
(`Program.visit_withoutKinds`). Hence runs go the same way under every limit, and of a construction
only the kinds in its map can differ (`Construction.SameButKinds`). Programs that differ in kinds
alone are the same without them, so this relates any two of them
(`Program.kinds_only_reach_reports`).
-/

namespace DispatchGraph

/-! ## Forgetting kinds -/

/-- The call with the kind that stands for all kinds. -/
def Invocation.withoutKind (call : Invocation) : Invocation := ⟨call.target, .virtual⟩

/-- The right side of an assignment, without the kind of a call. -/
def Expression.withoutKind : Expression → Expression
  | invoke call => invoke call.withoutKind
  | other => other

/-- The statement without the kind of its call. -/
def Statement.withoutKind : Statement → Statement
  | invoke call => invoke call.withoutKind
  | assign localName value => assign localName value.withoutKind
  | other => other

/-- The method without the kinds of its calls. -/
def MethodDecl.withoutKinds (m : MethodDecl) : MethodDecl :=
  { m with body := m.body.map (List.map Statement.withoutKind) }

/-- The class without the kinds of the calls in it. -/
def ClassDecl.withoutKinds (c : ClassDecl) : ClassDecl :=
  { c with methods := c.methods.map MethodDecl.withoutKinds }

theorem ClassDecl.name_withoutKinds (c : ClassDecl) : c.withoutKinds.name = c.name := rfl

/-- The program without the kinds of its calls. -/
def Program.withoutKinds (p : Program) : Program :=
  p.mapClasses ClassDecl.withoutKinds ClassDecl.name_withoutKinds

theorem Statement.invocation?_withoutKind (s : Statement) :
    s.withoutKind.invocation? = s.invocation?.map Invocation.withoutKind := by
  cases s with
  | invoke call => rfl
  | assign localName value => cases value <;> rfl
  | other => rfl

theorem MethodDecl.calls_withoutKinds (m : MethodDecl) :
    m.withoutKinds.calls = m.calls.map Invocation.withoutKind := by
  rw [calls, calls, withoutKinds]
  cases m.body with
  | none => rfl
  | some body =>
    simp only [Option.map_some, Option.getD_some, List.filterMap_map, List.map_filterMap]
    exact List.filterMap_congr fun s _ => s.invocation?_withoutKind

theorem ClassDecl.method?_withoutKinds (c : ClassDecl) (sub : SubSignature) :
    c.withoutKinds.method? sub = (c.method? sub).map MethodDecl.withoutKinds := by
  rw [method?, method?, withoutKinds, List.find?_map]
  rfl

theorem ClassDecl.sameOutline_withoutKinds (c : ClassDecl) : c.SameOutline c.withoutKinds where
  name_eq := rfl
  superclass_eq := rfl
  mem_interfaces _ := Iff.rfl
  isInterface_eq := rfl
  declares_eq sub := by rw [declares, declares, method?_withoutKinds, Option.isSome_map]

/-! ## Visits -/

/-- The site with the kind that stands for all kinds. -/
def Site.withoutKind (s : Site) : Site := ⟨s.call.withoutKind, s.resolution⟩

theorem keys_calleesOf_withoutKind (sites : List Site) :
    (calleesOf (sites.map Site.withoutKind)).keys = (calleesOf sites).keys := by
  refine (SortedMap.increasing_keys _).ext_mem (SortedMap.increasing_keys _) fun callee => ?_
  simp only [mem_keys_calleesOf_iff, List.mem_map, exists_exists_and_eq_and, Site.withoutKind]

/-- The visits lead to the same callees, count the same and report the same. -/
structure Visit.SameButKinds (v w : Visit) : Prop where
  keys_eq : v.callees.keys = w.callees.keys
  callSites_eq : v.sites.length = w.sites.length
  unresolved_eq : v.sites.countP Site.isUnresolved = w.sites.countP Site.isUnresolved
  diagnostics_eq : v.diagnostics = w.diagnostics

namespace Visit.SameButKinds

variable {u v w : Visit}

theorem symm (h : v.SameButKinds w) : w.SameButKinds v :=
  ⟨h.keys_eq.symm, h.callSites_eq.symm, h.unresolved_eq.symm, h.diagnostics_eq.symm⟩

theorem trans (h : u.SameButKinds v) (h' : v.SameButKinds w) : u.SameButKinds w :=
  ⟨h.keys_eq.trans h'.keys_eq, h.callSites_eq.trans h'.callSites_eq,
    h.unresolved_eq.trans h'.unresolved_eq, h.diagnostics_eq.trans h'.diagnostics_eq⟩

end Visit.SameButKinds

namespace Program

theorem sameOutline_withoutKinds (p : Program) : p.SameOutline p.withoutKinds :=
  sameOutline_mapClasses ClassDecl.sameOutline_withoutKinds

theorem calls_withoutKinds (p : Program) (s : Signature) :
    p.withoutKinds.calls s = ((p.calls s).1.map Invocation.withoutKind, (p.calls s).2) := by
  have hmethod : p.withoutKinds.method? s = (p.method? s).map MethodDecl.withoutKinds := by
    rw [method?, method?, withoutKinds, class?_mapClasses]
    cases p.class? s.owner with
    | none => rfl
    | some c => exact c.method?_withoutKinds s.sub
  rw [calls, calls, hmethod]
  cases p.method? s with
  | none => rfl
  | some m => simp only [Option.map_some, m.calls_withoutKinds]

theorem sites_withoutKinds (p : Program) (method : Signature) :
    (p.withoutKinds.visit p.withoutKinds.hierarchy method).sites =
      (p.visit p.hierarchy method).sites.map Site.withoutKind := by
  rw [sites_visit, sites_visit, calls_withoutKinds, List.map_map, List.map_map]
  refine List.map_congr_left fun call _ => ?_
  simp only [Function.comp_apply, Site.withoutKind, p.sameOutline_withoutKinds.resolve]
  rfl

/-- A visit finds the same without kinds. -/
theorem visit_withoutKinds (p : Program) (method : Signature) :
    (p.visit p.hierarchy method).SameButKinds
      (p.withoutKinds.visit p.withoutKinds.hierarchy method) := by
  have hkeys : (p.visit p.hierarchy method).callees.keys =
      (p.withoutKinds.visit p.withoutKinds.hierarchy method).callees.keys := by
    rw [callees_visit, callees_visit, sites_withoutKinds, keys_calleesOf_withoutKind]
  refine ⟨hkeys, ?_, ?_, ?_⟩
  · rw [sites_withoutKinds, List.length_map]
  · rw [sites_withoutKinds, List.countP_map]
    rfl
  · rw [diagnostics_visit, diagnostics_visit, calls_withoutKinds, ← SortedMap.length_keys, hkeys,
      SortedMap.length_keys, List.flatMap_map]
    simp only [← p.sameOutline_withoutKinds.resolve]
    rfl

end Program

/-! ## Constructions -/

/-- The callers and callees that the map speaks of, in order. -/
def CallKinds.calls (K : CallKinds) : List (Signature × List Signature) :=
  K.toList.map fun (caller, callees) => (caller, callees.keys)

theorem CallKinds.mem_calls {K : CallKinds} {caller : Signature} {callees : List Signature} :
    (caller, callees) ∈ K.calls ↔ ∃ found, (caller, found) ∈ K ∧ found.keys = callees := by
  simp [calls, Sorted.mem_toList]

theorem CallKinds.increasing_calls (K : CallKinds) : Increasing Prod.fst K.calls :=
  List.Pairwise.map _ (fun _ _ hlt => hlt) K.increasing

/-- The constructions differ in the kinds of calls at most. -/
structure Construction.SameButKinds (c c' : Construction) : Prop where
  graph_eq : c.graph = c'.graph
  complete_eq : c.complete = c'.complete
  stats_eq : c.stats = c'.stats
  /-- The maps of kinds have the same callers, and each of these the same callees. -/
  calls_eq : c.callKinds.calls = c'.callKinds.calls

namespace Program

variable {p q : Program} {h k : Hierarchy} {entries : List Signature} {limit : Option Nat}

theorem mem_calls_construct {caller : Signature} {callees : List Signature} :
    (caller, callees) ∈ (p.construct h entries limit).callKinds.calls ↔
      caller ∈ (p.run h entries limit).visited ∧ callees = (p.visit h caller).callees.keys ∧
        callees ≠ [] := by
  simp only [CallKinds.mem_calls, mem_callKinds_construct]
  constructor
  · rintro ⟨found, ⟨hvisited, rfl, hcalls⟩, rfl⟩
    exact ⟨hvisited, rfl, fun hnil => hcalls (List.map_eq_nil_iff.1 hnil)⟩
  · rintro ⟨hvisited, rfl, hcalls⟩
    exact ⟨_, ⟨hvisited, rfl, fun hnil => hcalls (List.map_eq_nil_iff.2 hnil)⟩, rfl⟩

/-- Runs with visits that differ in kinds at most make constructions that do, and report the
same. -/
theorem sameButKinds_of_visits
    (hvisit : ∀ method, (p.visit h method).SameButKinds (q.visit k method)) :
    (p.construct h entries limit).SameButKinds (q.construct k entries limit) ∧
      (p.run h entries limit).diagnostics = (q.run k entries limit).diagnostics := by
  obtain ⟨hvisited, hpending⟩ : (p.run h entries limit).visited = (q.run k entries limit).visited ∧
      (p.run h entries limit).pending = (q.run k entries limit).pending :=
    run_congr fun method _ => (hvisit method).keys_eq
  refine ⟨⟨?_, complete_construct_congr hpending, ?_, ?_⟩, ?_⟩
  · exact graph_construct_eq (.of_eq hvisited) (mem_discovered_congr hvisited hpending)
      fun method _ => (hvisit method).keys_eq
  · exact stats_construct_eq (.of_eq hvisited) (fun method _ => (hvisit method).callSites_eq)
      fun method _ => (hvisit method).unresolved_eq
  · refine (CallKinds.increasing_calls _).ext_mem (CallKinds.increasing_calls _) ?_
    rintro ⟨caller, callees⟩
    rw [mem_calls_construct, mem_calls_construct, hvisited, (hvisit caller).keys_eq]
  · exact diagnostics_run_congr hvisited hpending fun method _ => (hvisit method).diagnostics_eq

/-- **Kinds of calls only travel to the reports.** If two programs are the same but for the kinds of
the calls in their methods, runs on them, each with the program's own hierarchy, make the same graph
with the same counts, are cut short alike, and report the same in the same order, under every limit;
and the maps of kinds speak of the same callers and callees. -/
theorem kinds_only_reach_reports (hkinds : p.withoutKinds = q.withoutKinds)
    (entries : List Signature) (limit : Option Nat) :
    (p.construct p.hierarchy entries limit).SameButKinds
        (q.construct q.hierarchy entries limit) ∧
      (p.run p.hierarchy entries limit).diagnostics =
        (q.run q.hierarchy entries limit).diagnostics := by
  refine sameButKinds_of_visits fun method => ?_
  -- both visits are compared with one to the program without kinds
  have hp := p.visit_withoutKinds method
  have hq := q.visit_withoutKinds method
  rw [hkinds] at hp
  exact hp.trans hq.symm

/-- A class that calls by two kinds, and a class below it. -/
def relayClasses (kind kind' : CallKind) : List ClassDecl :=
  [⟨"Base", none, [], false, [
      ⟨⟨"go", "()V"⟩, true, some [.invoke ⟨⟨"Base", "run", "()V"⟩, kind⟩,
        .assign "x" (.invoke ⟨⟨"Leaf", "run", "()V"⟩, kind'⟩)]⟩,
      ⟨⟨"run", "()V"⟩, false, some []⟩]⟩,
    ⟨"Leaf", some "Base", [], false, [⟨⟨"run", "()V"⟩, false, some []⟩]⟩]

/-- The program of these classes. -/
def relayProgram (kind kind' : CallKind) : Program :=
  (empty.addClasses .application (relayClasses kind kind')).1

theorem kinds_only_reach_reports_relay :
    relayProgram .virtual .special ≠ relayProgram .interface .static ∧
    (relayProgram .virtual .special).withoutKinds =
      (relayProgram .interface .static).withoutKinds ∧
    ((relayProgram .virtual .special).construct (relayProgram .virtual .special).hierarchy
        [⟨"Base", "go", "()V"⟩] (some 1)).SameButKinds
      ((relayProgram .interface .static).construct (relayProgram .interface .static).hierarchy
        [⟨"Base", "go", "()V"⟩] (some 1)) ∧
    ((relayProgram .virtual .special).run (relayProgram .virtual .special).hierarchy
        [⟨"Base", "go", "()V"⟩] (some 1)).diagnostics =
      ((relayProgram .interface .static).run (relayProgram .interface .static).hierarchy
        [⟨"Base", "go", "()V"⟩] (some 1)).diagnostics := by
  have hkinds : (relayProgram .virtual .special).withoutKinds =
      (relayProgram .interface .static).withoutKinds := by decide
  exact ⟨by decide, hkinds, kinds_only_reach_reports hkinds _ _⟩

end Program

end DispatchGraph
