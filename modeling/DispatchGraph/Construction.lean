import DispatchGraph.CallGraph
import DispatchGraph.Dispatch

/-!
# Construction of call graphs

Starting from entry points, every method that is met is visited once, first come first: its calls
are resolved, and their candidates are met in order. A limit bounds the number of visits.

* `Program.visit`: what a visit to a method finds.
* `Program.run`: the visits, in order, and the methods that were met and not visited.
* `Program.construct`: the call graph, the kinds of its edges and the statistics of a run.

The search ends because candidates are declared methods, of which there are finitely many
(`Program.callSpace`).
-/

namespace DispatchGraph

/-! ## Visits -/

/-- A call and what it may run. -/
structure Site where
  call : Invocation
  resolution : Program.Resolution

/-- The call has no candidate. -/
def Site.isUnresolved (s : Site) : Bool := s.resolution.candidates.isEmpty

/-- The candidates of calls, each with the kind of the call. -/
def targetsOf (sites : List Site) : List (Signature × CallKind) :=
  sites.flatMap fun site => site.resolution.candidates.map fun callee => (callee, site.call.kind)

/-- The callees of a method, each with the kinds of the calls that may run it. -/
def calleesOf (sites : List Site) : SortedMap Signature (SortedSet CallKind) :=
  let targets := targetsOf sites
  let callees : SortedSet Signature := .ofList (targets.map Prod.fst)
  callees.withValues fun callee => .ofList ((targets.filter fun t => t.1 = callee).map Prod.snd)

theorem mem_targetsOf {sites : List Site} {callee : Signature} {kind : CallKind} :
    (callee, kind) ∈ targetsOf sites ↔
      ∃ site ∈ sites, callee ∈ site.resolution.candidates ∧ site.call.kind = kind := by
  simp only [targetsOf, List.mem_flatMap, List.mem_map, Prod.mk.injEq]
  refine exists_congr fun site => and_congr_right fun _ => ⟨?_, ?_⟩
  · rintro ⟨_, hcandidate, rfl, hkind⟩
    exact ⟨hcandidate, hkind⟩
  · rintro ⟨hcandidate, hkind⟩
    exact ⟨callee, hcandidate, rfl, hkind⟩

theorem mem_keys_calleesOf {sites : List Site} {callee : Signature}
    (h : callee ∈ (calleesOf sites).keys) :
    ∃ site ∈ sites, callee ∈ site.resolution.candidates := by
  rw [calleesOf, SortedMap.keys_withValues] at h
  obtain ⟨⟨_, kind⟩, htarget, rfl⟩ := List.mem_map.1 (SortedSet.mem_of_mem_ofList h)
  obtain ⟨site, hsite, hcandidate, _⟩ := mem_targetsOf.1 htarget
  exact ⟨site, hsite, hcandidate⟩

/-- What a visit to a method finds. -/
structure Visit where
  /-- The calls of the method in order. -/
  sites : List Site
  /-- What they may run, with the kinds of the calls. -/
  callees : SortedMap Signature (SortedSet CallKind)
  /-- What the visit reports. -/
  diagnostics : List Diagnostic

namespace Program

/-- Visit a method. -/
def visit (p : Program) (h : Hierarchy) (method : Signature) : Visit :=
  let (calls, missing) := p.calls method
  let sites := calls.map fun call => ⟨call, p.resolve h call.target⟩
  let callees := calleesOf sites
  ⟨sites, callees,
    missing ++ sites.flatMap (fun site => site.resolution.diagnostics)
      ++ [.processed method callees.size]⟩

theorem mem_signatures_of_mem_callees {p : Program} {h : Hierarchy} {method callee : Signature}
    (hc : callee ∈ (p.visit h method).callees.keys) : callee ∈ p.signatures := by
  obtain ⟨site, hsite, hcandidate⟩ := mem_keys_calleesOf hc
  obtain ⟨call, _, rfl⟩ := List.mem_map.1 hsite
  exact mem_signatures_of_declares (declares_of_mem_resolve hcandidate)

/-- The space of methods: a visit leads to the callees, in order. -/
def callSpace (p : Program) (h : Hierarchy) : Space Signature Visit where
  visit := p.visit h
  next found := found.callees.keys
  points := p.signatures
  next_subset _ _ hc := mem_signatures_of_mem_callees hc

end Program

/-! ## Runs -/

/-- The visits of a run in order, and the methods that were met and not visited. -/
abbrev Run := Outcome Signature Visit

namespace Run

/-- Every method that was met has been visited. -/
def isComplete (r : Run) : Bool := r.pending.isEmpty

/-- How a run from the given entry points builds its graph. -/
def insertions (r : Run) (entries : List Signature) : List Insertion :=
  entries.map .node ++ r.visits.flatMap fun (caller, found) =>
    found.callees.keys.flatMap fun callee => [.node callee, .edge caller callee]

/-- What a run reports, in order. -/
def diagnostics (r : Run) : List Diagnostic :=
  (r.visits.flatMap fun (_, found) => found.diagnostics)
    ++ if r.isComplete then [] else [.budgetSpent r.visits.length r.pending.length]

end Run

/-! ## Constructions -/

/-- Counts of a run. -/
structure Stats where
  /-- The methods visited. -/
  methods : Nat
  /-- The calls in them. -/
  callSites : Nat
  /-- The calls without a candidate. -/
  unresolved : Nat
  deriving DecidableEq

/-- The kinds of the calls from callers to callees. -/
abbrev CallKinds := SortedMap Signature (SortedMap Signature (SortedSet CallKind))

/-- The result of a run. -/
structure Construction where
  graph : CallGraph
  /-- No limit cut the run short. -/
  complete : Bool
  stats : Stats
  callKinds : CallKinds
  deriving DecidableEq

/-- The kinds of the calls from one method to another, in order. -/
def CallKinds.between (kinds : CallKinds) (caller callee : Signature) : List CallKind :=
  (((kinds.get? caller).bind fun callees => callees.get? callee).map Sorted.toList).getD []

/-- The kinds of an edge, in order. -/
def Construction.kindsBetween (c : Construction) (caller callee : Signature) : List CallKind :=
  c.callKinds.between caller callee

/-- The calls that a run meets, in order. -/
def Run.sites (r : Run) : List Site := r.visits.flatMap fun (_, found) => found.sites

/-- The counts of a run. -/
def Run.stats (r : Run) : Stats where
  methods := r.visits.length
  callSites := r.sites.length
  unresolved := r.sites.countP Site.isUnresolved

/-- The kinds that a run finds, for the callers that call something. -/
def Run.callKinds (r : Run) : CallKinds :=
  .ofList ((r.visits.map fun (caller, found) => (caller, found.callees)).filter
    fun (_, callees) => !callees.toList.isEmpty)

/-- The result of a run from the given entry points. -/
def Run.construction (r : Run) (entries : List Signature) : Construction where
  graph := .build (r.insertions entries)
  complete := r.isComplete
  stats := r.stats
  callKinds := r.callKinds

namespace Program

/-- Visit the entry points and every method that visits meet, but no more methods than the limit
allows, if there is one. -/
def run (p : Program) (h : Hierarchy) (entries : List Signature) (limit : Option Nat) : Run :=
  (p.callSpace h).explore limit entries

/-- The call graph from the given entry points, with what belongs to it. -/
def construct (p : Program) (h : Hierarchy) (entries : List Signature) (limit : Option Nat) :
    Construction :=
  (p.run h entries limit).construction entries

/-- The whole call graph from the given entry points. -/
def callGraph (p : Program) (h : Hierarchy) (entries : List Signature) : CallGraph :=
  (p.construct h entries none).graph

end Program

end DispatchGraph
