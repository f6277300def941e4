import DispatchGraph.Proofs.Calls
import DispatchGraph.Proofs.Construction

/-!
# The kinds of calls behind the edges

A construction keeps its edges in a graph and the kinds of the calls behind them in a map of maps.
Both come from the same visits: a kind stands between two methods when the first one was visited and
a statement of its body makes a call of that kind that may run the second
(`Program.mem_kindsBetween`). As an edge needs some such call (`Program.mayCall_iff`), the map and
the graph speak of the same pairs of methods, also when a limit cuts the run short
(`Program.kinds_agree_with_edges`).
-/

namespace DispatchGraph

open Std

/-! ## Kinds in a map of maps -/

theorem CallKinds.mem_between {kinds : CallKinds} {caller callee : Signature} {kind : CallKind} :
    kind ∈ kinds.between caller callee ↔
      ∃ callees, (caller, callees) ∈ kinds ∧ ∃ found, (callee, found) ∈ callees ∧ kind ∈ found := by
  simp only [← SortedMap.get?_eq_some, between]
  cases kinds.get? caller with
  | none => simp
  | some callees =>
    cases hcallee : callees.get? callee with
    | none => simp [hcallee]
    | some found => simp [hcallee, Sorted.mem_toList]

theorem CallKinds.increasing_between (kinds : CallKinds) (caller callee : Signature) :
    Increasing id (kinds.between caller callee) := by
  rw [between]
  cases (kinds.get? caller).bind fun callees => callees.get? callee with
  | none => exact List.Pairwise.nil
  | some found => exact found.increasing

namespace CallKinds

variable {K K' : CallKinds} {caller callee : Signature}
  {callees : SortedMap Signature (SortedSet CallKind)} {found : SortedSet CallKind}
  {kind : CallKind}

/-- The map has no entry for a method that calls nothing, and none without a kind. -/
structure Proper (K : CallKinds) : Prop where
  callees_ne_nil : ∀ caller callees, (caller, callees) ∈ K → callees.toList ≠ []
  kinds_ne_nil : ∀ caller callees, (caller, callees) ∈ K →
    ∀ callee found, (callee, found) ∈ callees → found.toList ≠ []

theorem mem_between_of_mem (hcallees : (caller, callees) ∈ K) (hfound : (callee, found) ∈ callees) :
    kind ∈ K.between caller callee ↔ kind ∈ found := by
  rw [between, SortedMap.get?_eq_some.2 hcallees]
  simp [SortedMap.get?_eq_some.2 hfound, Sorted.mem_toList]

theorem Proper.exists_kind (hK : K.Proper) (hcallees : (caller, callees) ∈ K)
    (hfound : (callee, found) ∈ callees) : ∃ kind, kind ∈ K.between caller callee := by
  obtain ⟨kind, hkind⟩ :=
    List.exists_mem_of_ne_nil _ (hK.kinds_ne_nil caller callees hcallees callee found hfound)
  exact ⟨kind, (mem_between_of_mem hcallees hfound).2 hkind⟩

/-- The entry of a callee is the same in two maps with the same kinds. -/
theorem Proper.mem_callees (hK : K.Proper) {callees' : SortedMap Signature (SortedSet CallKind)}
    (hkinds : ∀ caller callee kind,
      kind ∈ K.between caller callee ↔ kind ∈ K'.between caller callee)
    (hcallees : (caller, callees) ∈ K) (hcallees' : (caller, callees') ∈ K')
    (hfound : (callee, found) ∈ callees) : (callee, found) ∈ callees' := by
  obtain ⟨kind, hkind⟩ := hK.exists_kind hcallees hfound
  obtain ⟨callees'', hmem, found', hfound', -⟩ :=
    mem_between.1 ((hkinds caller callee kind).1 hkind)
  obtain rfl : callees'' = callees' :=
    (Prod.mk.inj (K'.increasing.eq_of_key_eq hmem hcallees' rfl)).2
  have heq : found = found' := by
    refine Sorted.ext_mem fun kind => ?_
    rw [← mem_between_of_mem hcallees hfound, ← mem_between_of_mem hmem hfound', hkinds]
  rwa [heq]

theorem Proper.mem_of_mem (hK : K.Proper) (hK' : K'.Proper)
    (hkinds : ∀ caller callee kind,
      kind ∈ K.between caller callee ↔ kind ∈ K'.between caller callee)
    (hcallees : (caller, callees) ∈ K) : (caller, callees) ∈ K' := by
  obtain ⟨⟨callee, found⟩, hfound⟩ :=
    List.exists_mem_of_ne_nil _ (hK.callees_ne_nil caller callees hcallees)
  obtain ⟨kind, hkind⟩ := hK.exists_kind hcallees hfound
  obtain ⟨callees', hcallees', -⟩ := mem_between.1 ((hkinds caller callee kind).1 hkind)
  have heq : callees = callees' := by
    refine Sorted.ext_mem fun ⟨callee, found⟩ => ⟨?_, ?_⟩
    · exact hK.mem_callees hkinds hcallees hcallees'
    · exact hK'.mem_callees (fun a b kind => (hkinds a b kind).symm) hcallees' hcallees
  rwa [heq]

/-- Maps without needless entries are equal if they have the same kinds between all methods. -/
theorem Proper.ext (hK : K.Proper) (hK' : K'.Proper)
    (hkinds : ∀ caller callee kind,
      kind ∈ K.between caller callee ↔ kind ∈ K'.between caller callee) : K = K' :=
  Sorted.ext_mem fun (_, _) =>
    ⟨hK.mem_of_mem hK' hkinds, hK'.mem_of_mem hK fun a b kind => (hkinds a b kind).symm⟩

end CallKinds

theorem CallKind.mem_all (kind : CallKind) : kind ∈ all := by
  cases kind <;> decide

theorem CallKind.increasing_all : Increasing id all := by
  unfold Increasing
  decide

/-! ## Kinds found in one method -/

/-- The kinds of a callee are those of the calls that have it among their candidates. -/
theorem mem_of_mem_calleesOf {sites : List Site} {callee : Signature} {found : SortedSet CallKind}
    {kind : CallKind} (hfound : (callee, found) ∈ calleesOf sites) :
    kind ∈ found ↔
      ∃ site ∈ sites, callee ∈ site.resolution.candidates ∧ site.call.kind = kind := by
  rw [calleesOf, SortedMap.mem_withValues] at hfound
  obtain ⟨-, rfl⟩ := hfound
  rw [SortedSet.mem_ofList, ← mem_targetsOf, List.mem_map]
  constructor
  · rintro ⟨⟨callee', kind'⟩, htarget, rfl⟩
    obtain ⟨hmem, hcallee⟩ := List.mem_filter.1 htarget
    obtain rfl : callee' = callee := of_decide_eq_true hcallee
    exact hmem
  · intro htarget
    exact ⟨(callee, kind), List.mem_filter.2 ⟨htarget, decide_eq_true rfl⟩, rfl⟩

namespace Program

/-- A statement in the body of one method makes a call of the given kind that may run the other. -/
def MayCallBy (p : Program) (h : Hierarchy) (kind : CallKind) (caller callee : Signature) : Prop :=
  ∃ statement ∈ p.statements caller, ∃ call, statement.Makes call ∧
    call.kind = kind ∧ callee ∈ (p.resolve h call.target).candidates

instance (p : Program) (h : Hierarchy) (kind : CallKind) (caller callee : Signature) :
    Decidable (p.MayCallBy h kind caller callee) :=
  inferInstanceAs (Decidable (∃ statement ∈ p.statements caller, ∃ call, statement.Makes call ∧
    call.kind = kind ∧ callee ∈ (p.resolve h call.target).candidates))

variable {p : Program} {h : Hierarchy} {entries : List Signature} {limit : Option Nat}
  {caller callee : Signature} {kind : CallKind}

theorem mayCallBy_iff :
    p.MayCallBy h kind caller callee ↔
      ∃ call ∈ (p.calls caller).1,
        call.kind = kind ∧ callee ∈ (p.resolve h call.target).candidates := by
  simp only [MayCallBy, mem_calls]
  constructor
  · rintro ⟨statement, hstatement, call, hmakes, hcall⟩
    exact ⟨call, ⟨statement, hstatement, hmakes⟩, hcall⟩
  · rintro ⟨call, ⟨statement, hstatement, hmakes⟩, hcall⟩
    exact ⟨statement, hstatement, call, hmakes, hcall⟩

theorem mayCall_iff : p.MayCall h caller callee ↔ ∃ kind, p.MayCallBy h kind caller callee := by
  simp only [mayCallBy_iff]
  constructor
  · rintro ⟨call, hcall, hcandidate⟩
    exact ⟨call.kind, call, hcall, rfl, hcandidate⟩
  · rintro ⟨kind, call, hcall, -, hcandidate⟩
    exact ⟨call, hcall, hcandidate⟩

theorem mem_kinds_visit {found : SortedSet CallKind}
    (hfound : (callee, found) ∈ (p.visit h caller).callees) :
    kind ∈ found ↔ p.MayCallBy h kind caller callee := by
  rw [callees_visit] at hfound
  rw [mem_of_mem_calleesOf hfound, sites_visit]
  simp only [List.mem_map, exists_exists_and_eq_and, mayCallBy_iff, and_comm (a := _ = kind)]

/-! ## Kinds found in a run -/

/-- The map has an entry for every visited method that calls something. Every method is visited
once, so no entry is lost to an earlier one. -/
theorem mem_callKinds_construct {callees : SortedMap Signature (SortedSet CallKind)} :
    (caller, callees) ∈ (p.construct h entries limit).callKinds ↔
      caller ∈ (p.run h entries limit).visited ∧ callees = (p.visit h caller).callees ∧
        callees.toList ≠ [] := by
  set found := (p.run h entries limit).visits.map fun visit => (visit.1, visit.2.callees)
    with hfound
  have hcallers : found.map Prod.fst = (p.run h entries limit).visited := by
    simp [hfound, Outcome.visited, Function.comp_def]
  have hnodup : ((found.filter fun entry => !entry.2.toList.isEmpty).map Prod.fst).Nodup := by
    have hvisited : (found.map Prod.fst).Nodup := hcallers ▸ Space.nodup_visited_explore
    exact hvisited.sublist (List.filter_sublist.map _)
  have hmem : (caller, callees) ∈ (p.construct h entries limit).callKinds ↔
      (caller, callees) ∈ found.filter fun entry => !entry.2.toList.isEmpty :=
    Sorted.mem_ofList_of_nodup hnodup
  rw [hmem, List.mem_filter, hfound, List.mem_map]
  simp only [Prod.exists, mem_visits_run, Prod.mk.injEq, Bool.not_eq_true',
    List.isEmpty_eq_false_iff]
  constructor
  · rintro ⟨⟨method, visit, ⟨hvisited, rfl⟩, rfl, rfl⟩, hcalls⟩
    exact ⟨hvisited, rfl, hcalls⟩
  · rintro ⟨hvisited, rfl, hcalls⟩
    exact ⟨⟨caller, p.visit h caller, ⟨hvisited, rfl⟩, rfl, rfl⟩, hcalls⟩

/-- A kind stands between two methods when the first one was visited and a statement of its body
makes a call of that kind that may run the second. -/
theorem mem_kindsBetween :
    kind ∈ (p.construct h entries limit).kindsBetween caller callee ↔
      caller ∈ (p.run h entries limit).visited ∧ p.MayCallBy h kind caller callee := by
  rw [Construction.kindsBetween, CallKinds.mem_between]
  constructor
  · rintro ⟨callees, hcallees, found, hfound, hkind⟩
    obtain ⟨hvisited, rfl, -⟩ := mem_callKinds_construct.1 hcallees
    exact ⟨hvisited, (mem_kinds_visit hfound).1 hkind⟩
  · rintro ⟨hvisited, hcall⟩
    have hkey : callee ∈ (p.visit h caller).callees.keys :=
      mem_keys_callees_visit.2 (mayCall_iff.2 ⟨kind, hcall⟩)
    obtain ⟨found, hfound⟩ := SortedMap.mem_keys.1 hkey
    refine ⟨_, mem_callKinds_construct.2 ⟨hvisited, rfl, List.ne_nil_of_mem hfound⟩, found, hfound,
      (mem_kinds_visit hfound).2 hcall⟩

theorem proper_callKinds_construct : (p.construct h entries limit).callKinds.Proper where
  callees_ne_nil caller callees hcallees := (mem_callKinds_construct.1 hcallees).2.2
  kinds_ne_nil caller callees hcallees callee found hfound := by
    obtain ⟨-, rfl, -⟩ := mem_callKinds_construct.1 hcallees
    have hcall : p.MayCall h caller callee :=
      mem_keys_callees_visit.1 (SortedMap.mem_keys.2 ⟨found, hfound⟩)
    obtain ⟨kind, hkind⟩ := mayCall_iff.1 hcall
    exact List.ne_nil_of_mem ((mem_kinds_visit hfound).2 hkind)

theorem hasEdge_construct :
    (p.construct h entries limit).graph.hasEdge caller callee = true ↔
      caller ∈ (p.run h entries limit).visited ∧ p.MayCall h caller callee :=
  CallGraph.hasEdge_iff.trans mem_callees_construct

/-- An edge stands where a kind stands. -/
theorem hasEdge_construct_iff_kinds :
    (p.construct h entries limit).graph.hasEdge caller callee = true ↔
      (p.construct h entries limit).kindsBetween caller callee ≠ [] := by
  simp only [hasEdge_construct, mayCall_iff, ne_eq, List.eq_nil_iff_forall_not_mem,
    mem_kindsBetween, not_forall, not_not, exists_and_left]

theorem kindsBetween_of_visited (hcaller : caller ∈ (p.run h entries limit).visited) :
    (p.construct h entries limit).kindsBetween caller callee =
      CallKind.all.filter fun kind => p.MayCallBy h kind caller callee := by
  refine (CallKinds.increasing_between _ _ _).ext_mem
    (CallKind.increasing_all.sublist List.filter_sublist) fun kind => ?_
  rw [← Construction.kindsBetween, mem_kindsBetween, and_iff_right hcaller, List.mem_filter,
    and_iff_right kind.mem_all, decide_eq_true_eq]

theorem mem_keys_callKinds :
    caller ∈ (p.construct h entries limit).callKinds.keys ↔
      ∃ callee, (p.construct h entries limit).graph.hasEdge caller callee = true := by
  have hcalls : (p.visit h caller).callees.toList ≠ [] ↔ ∃ callee, p.MayCall h caller callee := by
    simp only [← mem_keys_callees_visit, SortedMap.mem_keys, ← Sorted.mem_toList, ne_eq,
      List.eq_nil_iff_forall_not_mem, not_forall, not_not, Prod.exists]
  rw [SortedMap.mem_keys]
  simp only [mem_callKinds_construct, hasEdge_construct, exists_and_left, exists_eq_left, hcalls]

/-- **The kinds and the graph of a construction agree, under every limit.** An edge is there when it
has a kind; the kinds of an edge of a visited method are, in their order and each once, those of the
calls that the statements of its body make and that may run the callee; and the methods with an
entry in the map of kinds are those that have an edge. -/
theorem kinds_agree_with_edges (p : Program) (h : Hierarchy) (entries : List Signature)
    (limit : Option Nat) :
    (∀ caller callee, (p.construct h entries limit).graph.hasEdge caller callee = true ↔
      (p.construct h entries limit).kindsBetween caller callee ≠ []) ∧
    (∀ caller ∈ (p.run h entries limit).visited, ∀ callee,
      (p.construct h entries limit).kindsBetween caller callee =
        CallKind.all.filter fun kind => ∃ statement ∈ p.statements caller,
          ∃ call, statement.Makes call ∧
            call.kind = kind ∧ callee ∈ (p.resolve h call.target).candidates) ∧
    ∀ caller, caller ∈ (p.construct h entries limit).callKinds.keys ↔
      ∃ callee, (p.construct h entries limit).graph.hasEdge caller callee = true :=
  ⟨fun _ _ => hasEdge_construct_iff_kinds, fun _ hcaller _ => kindsBetween_of_visited hcaller,
    fun _ => mem_keys_callKinds⟩

end Program

end DispatchGraph
