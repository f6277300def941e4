import DispatchGraph.Proofs.CallKinds
import DispatchGraph.Proofs.Dispatch

/-!
# Programs that grow

Adding classes to a program leaves the declarations that are there as they are
(`Program.extends_addClasses`). So every way up and every link of the smaller program is one of the
larger: a call that binds to a method still binds to it (`Program.Extends.target`), and what a call
may run it may still run (`Program.Extends.candidates`). New classes only make walks go on that
ended at a missing class, add overrides, and give calls to methods that were missing. Hence the call
graph only grows, and with it the kinds of its edges (`Program.calls_survive_addClasses`).
-/

namespace DispatchGraph

open Relation

namespace Program

/-- Every class of `p` is declared in `q` in the same way. -/
def Extends (q p : Program) : Prop := ∀ name c, p.class? name = some c → q.class? name = some c

variable {p q : Program} {entries : List Signature} {sub : SubSignature}
  {x y : ClassName}

/-! ## Adding classes -/

/-- Adding a batch inserts its declarations one after the other. -/
theorem declared_addClasses (p : Program) (origin : Origin) (batch : List ClassDecl) :
    (p.addClasses origin batch).1.declared =
      (batch.map fun c => ⟨c, origin⟩).foldl Sorted.insert p.declared := by
  induction batch generalizing p with
  | nil => rfl
  | cons c batch ih => exact ih (p.addClass origin c)

/-- The first declaration of a class wins, and with it its origin. -/
theorem find?_addClasses (p : Program) (origin : Origin) (batch : List ClassDecl)
    (name : ClassName) :
    (p.addClasses origin batch).1.declared.find? name =
      (p.declared.find? name).or
        ((batch.find? fun c => c.name = name).map fun c => ⟨c, origin⟩) := by
  rw [declared_addClasses, Sorted.find?_foldl_insert, List.find?_map]
  rfl

theorem class?_addClasses (p : Program) (origin : Origin) (batch : List ClassDecl)
    (name : ClassName) :
    (p.addClasses origin batch).1.class? name =
      (p.class? name).or (batch.find? fun c => c.name = name) := by
  have hdecl : (Declared.decl ∘ fun c => ⟨c, origin⟩) = id := rfl
  rw [class?, class?, find?_addClasses, Option.map_or, Option.map_map, hdecl, Option.map_id_apply]

theorem extends_addClasses (p : Program) (origin : Origin) (batch : List ClassDecl) :
    (p.addClasses origin batch).1.Extends p := by
  intro name c hc
  rw [class?_addClasses, hc, Option.some_or]

/-! ## What declared classes keep -/

namespace Extends

theorem method? (hqp : q.Extends p) {s : Signature} {m : MethodDecl} (hm : p.method? s = some m) :
    q.method? s = some m := by
  obtain ⟨c, hc, hm⟩ := Option.bind_eq_some_iff.1 hm
  exact Option.bind_eq_some_iff.2 ⟨c, hqp s.owner c hc, hm⟩

theorem declares (hqp : q.Extends p) {s : Signature} (hs : p.declares s = true) :
    q.declares s = true := by
  obtain ⟨m, hm⟩ := Option.isSome_iff_exists.1 hs
  exact Option.isSome_iff_exists.2 ⟨m, hqp.method? hm⟩

/-- The calls of a method stay, and one that was missing had none. -/
theorem mem_calls (hqp : q.Extends p) {s : Signature} {call : Invocation}
    (hcall : call ∈ (p.calls s).1) : call ∈ (q.calls s).1 := by
  cases hm : p.method? s with
  | none => simp [calls, hm] at hcall
  | some m =>
    rw [calls, hm] at hcall
    rw [calls, hqp.method? hm]
    exact hcall

theorem linksTo (hqp : q.Extends p) {link : ClassDecl → ClassName → Bool}
    (hlink : p.LinksTo link x y) : q.LinksTo link x y := by
  obtain ⟨c, hc, hlink⟩ := hlink
  exact ⟨c, hqp x c hc, hlink⟩

theorem passesUp (hqp : q.Extends p) (hstep : p.PassesUp sub x y) : q.PassesUp sub x y := by
  obtain ⟨c, hc, hstep⟩ := hstep
  exact ⟨c, hqp x c hc, hstep⟩

theorem implements (hqp : q.Extends p) (himpl : p.Implements sub x) : q.Implements sub x := by
  obtain ⟨c, hc, himpl⟩ := himpl
  exact ⟨c, hqp x c hc, himpl⟩

/-- A declared class stays what it is, an interface or none. -/
theorem isInterface (hqp : q.Extends p) {c : ClassDecl} (hc : p.class? x = some c) :
    q.hierarchy.isInterface x = p.hierarchy.isInterface x := by
  simp only [hierarchy, hc, hqp x c hc]

/-! ## Calls -/

/-- A call that binds to a method binds to the same method in the larger program. The walk up from
its class only meets declared classes, so a new one cannot stand in its way. -/
theorem target (hqp : q.Extends p) {call s : Signature} (htarget : p.target call = .ok s) :
    q.target call = .ok s := by
  obtain ⟨owner, rfl, hpath, hdecl⟩ := target_eq_ok.1 htarget
  have hpath' : ReflTransGen (q.PassesUp call.sub) call.owner owner :=
    hpath.lift id fun _ _ => hqp.passesUp
  exact target_eq_owner.2 ⟨hpath', hqp.declares hdecl⟩

/-- What a call may run it may run in the larger program. -/
theorem candidates (hqp : q.Extends p) {call s : Signature}
    (hs : s ∈ (p.resolve p.hierarchy call).candidates) :
    s ∈ (q.resolve q.hierarchy call).candidates := by
  cases htarget : p.target call with
  | error cause => simp [resolve, htarget] at hs
  | ok t =>
    obtain ⟨owner, rfl, -, hdecl⟩ := target_eq_ok.1 htarget
    obtain ⟨c, hc, -⟩ := declares_iff.1 hdecl
    -- the class of the target stays what it is, so the same links are followed down from it
    have hlink : ∃ link, substitutes p.hierarchy ⟨owner, call.sub⟩ = p.below link owner ∧
        substitutes q.hierarchy ⟨owner, call.sub⟩ = q.below link owner := by
      simp only [substitutes, hqp.isInterface hc]
      split
      · exact ⟨subtypeLink, rfl, rfl⟩
      · exact ⟨extendsLink, rfl, rfl⟩
    obtain ⟨link, hp, hq⟩ := hlink
    rw [mem_candidates htarget hp] at hs
    rw [mem_candidates (hqp.target htarget) hq]
    refine hs.imp id ?_
    rintro ⟨x, heq, himpl, hbelow⟩
    exact ⟨x, heq, hqp.implements himpl, hbelow.lift id fun _ _ => hqp.linksTo⟩

theorem mayCallBy (hqp : q.Extends p) {kind : CallKind} {caller callee : Signature}
    (hcall : p.MayCallBy p.hierarchy kind caller callee) :
    q.MayCallBy q.hierarchy kind caller callee := by
  obtain ⟨call, hmem, hkind, hcandidate⟩ := mayCallBy_iff.1 hcall
  exact mayCallBy_iff.2 ⟨call, hqp.mem_calls hmem, hkind, hqp.candidates hcandidate⟩

theorem mayCall (hqp : q.Extends p) {caller callee : Signature}
    (hcall : p.MayCall p.hierarchy caller callee) : q.MayCall q.hierarchy caller callee := by
  obtain ⟨kind, hcall⟩ := mayCall_iff.1 hcall
  exact mayCall_iff.2 ⟨kind, hqp.mayCallBy hcall⟩

/-! ## Whole graphs -/

/-- What a run visits in the smaller program it visits in the larger one. -/
theorem mem_visited (hqp : q.Extends p) {method : Signature}
    (hmethod : method ∈ (p.run p.hierarchy entries none).visited) :
    method ∈ (q.run q.hierarchy entries none).visited := by
  obtain ⟨entry, hentry, hpath⟩ := mem_visited_run_iff.1 hmethod
  exact mem_visited_run_iff.2 ⟨entry, hentry, hpath.lift id fun _ _ => hqp.mayCall⟩

theorem within (hqp : q.Extends p) (entries : List Signature) :
    (p.construct p.hierarchy entries none).graph.Within
      (q.construct q.hierarchy entries none).graph where
  nodes method hmethod := by
    rw [mem_nodes_construct, discovered_run_none] at hmethod ⊢
    exact hqp.mem_visited hmethod
  edges := by
    rintro ⟨caller, callee⟩ hedge
    obtain ⟨hcaller, hcall⟩ := calls_construct.1 hedge
    exact calls_construct.2 ⟨hqp.mem_visited hcaller, hqp.mayCall hcall⟩

end Extends

/-- **Adding classes never loses calls.** A call that binds to a method binds to it as before, and
what it may run it still may; and the whole call graph from the same entry points keeps every node,
every edge and every kind of an edge. -/
theorem calls_survive_addClasses (p : Program) (origin : Origin) (batch : List ClassDecl)
    (entries : List Signature) :
    (∀ call s, p.target call = .ok s → (p.addClasses origin batch).1.target call = .ok s) ∧
    (∀ call, (p.resolve p.hierarchy call).candidates ⊆
      ((p.addClasses origin batch).1.resolve (p.addClasses origin batch).1.hierarchy
        call).candidates) ∧
    (p.construct p.hierarchy entries none).graph.Within
      ((p.addClasses origin batch).1.construct (p.addClasses origin batch).1.hierarchy entries
        none).graph ∧
    ∀ caller callee, (p.construct p.hierarchy entries none).kindsBetween caller callee ⊆
      ((p.addClasses origin batch).1.construct (p.addClasses origin batch).1.hierarchy entries
        none).kindsBetween caller callee := by
  have hgrown : (p.addClasses origin batch).1.Extends p := extends_addClasses p origin batch
  refine ⟨fun call s => hgrown.target, fun call s => hgrown.candidates, hgrown.within entries,
    fun caller callee kind hkind => ?_⟩
  obtain ⟨hcaller, hcall⟩ := mem_kindsBetween.1 hkind
  exact mem_kindsBetween.2 ⟨hgrown.mem_visited hcaller, hgrown.mayCallBy hcall⟩

end Program

end DispatchGraph
