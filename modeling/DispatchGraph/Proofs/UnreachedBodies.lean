import DispatchGraph.Proofs.Budget
import DispatchGraph.Proofs.Determination
import DispatchGraph.Proofs.Outline
import DispatchGraph.Proofs.Provenance

/-!
# Bodies that no run reaches

A run reads the body of a method when it visits the method and at no other time: the hierarchy, the
target of a call and its candidates depend on the outline of a program only. So programs with the
same outline whose visited methods make the same calls have the same runs
(`Program.SameOutline.run_eq`), and with them the same constructions and reports.

Programs that declare the same classes with the same methods, and the same bodies wherever `kept`
holds (`Program.AgreesOn`), have the same outline and make the same calls there. A run from the same
entry points under a limit visits no method that the run without a limit does not reach, so what
stands in the other bodies is irrelevant under every limit (`Program.unreached_bodies_irrelevant`).
-/

namespace DispatchGraph

namespace Program

variable {p q : Program} {entries : List Signature} {limit : Option Nat}

/-! ## Programs with the same outline and the same calls -/

theorem SameOutline.visit_eq (h : p.SameOutline q) {method : Signature}
    (hcalls : p.calls method = q.calls method) :
    p.visit p.hierarchy method = q.visit q.hierarchy method := by
  unfold visit
  rw [hcalls]
  simp only [h.resolve]

/-- **A run depends on the outline of the program and on the calls of the methods it visits.** -/
theorem SameOutline.run_eq (h : p.SameOutline q)
    (hcalls : ∀ method ∈ (p.run p.hierarchy entries limit).visited,
      p.calls method = q.calls method) :
    p.run p.hierarchy entries limit = q.run q.hierarchy entries limit := by
  have hvisit : ∀ method ∈ (p.run p.hierarchy entries limit).visited,
      p.visit p.hierarchy method = q.visit q.hierarchy method :=
    fun method hmethod => h.visit_eq (hcalls method hmethod)
  obtain ⟨hvisited, hpending⟩ : (p.run p.hierarchy entries limit).visited =
        (q.run q.hierarchy entries limit).visited ∧
      (p.run p.hierarchy entries limit).pending = (q.run q.hierarchy entries limit).pending :=
    run_congr fun method hmethod => by rw [hvisit method hmethod]
  have hvisits : (p.run p.hierarchy entries limit).visits =
      (q.run q.hierarchy entries limit).visits := by
    rw [visits_run, visits_run, ← hvisited]
    exact List.map_congr_left fun method hmethod => by rw [hvisit method hmethod]
  calc p.run p.hierarchy entries limit
      = ⟨(p.run p.hierarchy entries limit).visits, (p.run p.hierarchy entries limit).pending⟩ := rfl
    _ = ⟨(q.run q.hierarchy entries limit).visits, (q.run q.hierarchy entries limit).pending⟩ := by
      rw [hvisits, hpending]

/-- What a run visits under a limit is a node of the graph without a limit. -/
theorem mem_nodes_none_of_visited {h : Hierarchy} {method : Signature}
    (hmethod : method ∈ (p.run h entries limit).visited) :
    method ∈ (p.construct h entries none).graph.nodes := by
  rw [mem_nodes_construct, discovered_run_none]
  cases limit with
  | none => exact hmethod
  | some n => exact mem_visited_run_none hmethod

end Program

/-! ## Declarations that differ in bodies -/

/-- The methods have the same sub-signature, and the same body if `kept` holds of it. -/
structure MethodDecl.AgreesOn (kept : SubSignature → Prop) (m m' : MethodDecl) : Prop where
  sub_eq : m.sub = m'.sub
  body_eq : kept m.sub → m.body = m'.body

/-- The classes have the same name, the same links and the same methods in the same order, and the
same bodies where `kept` holds. -/
structure ClassDecl.AgreesOn (kept : Signature → Prop) (c c' : ClassDecl) : Prop where
  name_eq : c.name = c'.name
  superclass_eq : c.superclass = c'.superclass
  interfaces_eq : c.interfaces = c'.interfaces
  isInterface_eq : c.isInterface = c'.isInterface
  methods : List.Forall₂ (MethodDecl.AgreesOn fun sub => kept ⟨c.name, sub⟩) c.methods c'.methods

/-- The programs declare the same classes, which differ at most in the bodies of methods of which
`kept` does not hold. -/
def Program.AgreesOn (kept : Signature → Prop) (p q : Program) : Prop :=
  List.Forall₂ (ClassDecl.AgreesOn kept) p.classes q.classes

namespace ClassDecl.AgreesOn

variable {kept : Signature → Prop} {c c' : ClassDecl}

theorem method? (h : c.AgreesOn kept c') (sub : SubSignature) :
    Option.Rel (MethodDecl.AgreesOn fun sub => kept ⟨c.name, sub⟩) (c.method? sub)
      (c'.method? sub) :=
  rel_find?_of_forall₂ h.methods (fun _ _ hm => hm.sub_eq) sub

theorem sameOutline (h : c.AgreesOn kept c') : c.SameOutline c' where
  name_eq := h.name_eq
  superclass_eq := h.superclass_eq
  mem_interfaces name := by rw [h.interfaces_eq]
  isInterface_eq := h.isInterface_eq
  declares_eq sub := isSome_eq_of_rel (h.method? sub)

end ClassDecl.AgreesOn

namespace Program.AgreesOn

variable {kept : Signature → Prop} {p q : Program}

theorem class? (h : p.AgreesOn kept q) (name : ClassName) :
    Option.Rel (ClassDecl.AgreesOn kept) (p.class? name) (q.class? name) := by
  rw [class?_eq_find?, class?_eq_find?]
  exact rel_find?_of_forall₂ h (fun _ _ hc => hc.name_eq) name

theorem sameOutline (h : p.AgreesOn kept q) : p.SameOutline q := by
  intro name
  rcases rel_option_cases (h.class? name) with ⟨hp, hq⟩ | ⟨c, c', hp, hq, hc⟩
  · rw [hp, hq]
    exact .none
  · rw [hp, hq]
    exact .some hc.sameOutline

/-- A method that is kept makes the same calls, and is missing from both programs or from none. -/
theorem calls_eq (h : p.AgreesOn kept q) {s : Signature} (hs : kept s) : p.calls s = q.calls s := by
  unfold Program.calls Program.method?
  rcases rel_option_cases (h.class? s.owner) with ⟨hp, hq⟩ | ⟨c, c', hp, hq, hc⟩
  · rw [hp, hq]
  · rw [hp, hq, Option.bind_some, Option.bind_some]
    rcases rel_option_cases (hc.method? s.sub) with ⟨hm, hm'⟩ | ⟨m, m', hm, hm', hagree⟩
    · rw [hm, hm']
    · have hkept : kept ⟨c.name, m.sub⟩ := by
        rwa [name_of_class? hp, ClassDecl.sub_of_method? hm]
      rw [hm, hm']
      simp only [MethodDecl.calls, hagree.body_eq hkept]

end Program.AgreesOn

/-! ## Unreached bodies -/

namespace Program

/-- **Bodies that are not reached are irrelevant.** If two programs declare the same classes with
the same links and methods, and differ only in the bodies of methods that are no nodes of the whole
graph of the first one, then runs from the same entry points, each with the program's own hierarchy,
make the same construction and report the same, under every limit. -/
theorem unreached_bodies_irrelevant {p q : Program} {entries : List Signature}
    (hagree : p.AgreesOn (· ∈ (p.construct p.hierarchy entries none).graph.nodes) q)
    (limit : Option Nat) :
    p.construct p.hierarchy entries limit = q.construct q.hierarchy entries limit ∧
      (p.run p.hierarchy entries limit).diagnostics =
        (q.run q.hierarchy entries limit).diagnostics := by
  have hrun : p.run p.hierarchy entries limit = q.run q.hierarchy entries limit :=
    hagree.sameOutline.run_eq fun method hmethod =>
      hagree.calls_eq (mem_nodes_none_of_visited hmethod)
  exact ⟨by rw [construct, construct, hrun], by rw [hrun]⟩

/-- A class that calls through an interface and has a method that is never called, with a given
body; the interface, and a class that implements it. -/
def idleClasses (body : Option (List Statement)) : List ClassDecl :=
  [⟨"App", none, [], false, [
      ⟨⟨"start", "()V"⟩, true, some [.invoke ⟨⟨"Task", "run", "()V"⟩, .interface⟩]⟩,
      ⟨⟨"idle", "()V"⟩, true, body⟩]⟩,
    ⟨"Task", none, [], true, [⟨⟨"run", "()V"⟩, false, none⟩]⟩,
    ⟨"Worker", none, ["Task"], false, [⟨⟨"run", "()V"⟩, false, some []⟩]⟩]

/-- The program of these classes. -/
def idleProgram (body : Option (List Statement)) : Program :=
  (empty.addClasses .application (idleClasses body)).1

/-- A body with a call that does not bind and one that does. -/
def busyBody : List Statement :=
  [.invoke ⟨⟨"Gone", "lost", "()V"⟩, .virtual⟩, .invoke ⟨⟨"App", "start", "()V"⟩, .static⟩]

theorem agreesOn_idleProgram :
    (idleProgram none).AgreesOn (· ∈ ((idleProgram none).construct (idleProgram none).hierarchy
      [⟨"App", "start", "()V"⟩] none).graph.nodes) (idleProgram (some busyBody)) := by
  have hidle : (⟨"App", "idle", "()V"⟩ : Signature) ∉ ((idleProgram none).construct
      (idleProgram none).hierarchy [⟨"App", "start", "()V"⟩] none).graph.nodes := by
    intro hmem
    have hentry := mem_entries_of_not_named (by decide) hmem
    exact absurd hentry (by decide)
  have hclasses : (idleProgram none).classes = idleClasses none := by decide
  have hclasses' : (idleProgram (some busyBody)).classes = idleClasses (some busyBody) := by decide
  unfold AgreesOn
  rw [hclasses, hclasses']
  refine .cons ⟨rfl, rfl, rfl, rfl, ?_⟩ (.cons ⟨rfl, rfl, rfl, rfl, ?_⟩
    (.cons ⟨rfl, rfl, rfl, rfl, ?_⟩ .nil))
  · exact .cons ⟨rfl, fun _ => rfl⟩ (.cons ⟨rfl, fun hmem => absurd hmem hidle⟩ .nil)
  · exact .cons ⟨rfl, fun _ => rfl⟩ .nil
  · exact .cons ⟨rfl, fun _ => rfl⟩ .nil

theorem unreached_bodies_irrelevant_idle :
    idleProgram none ≠ idleProgram (some busyBody) ∧
    (idleProgram none).AgreesOn (· ∈ ((idleProgram none).construct (idleProgram none).hierarchy
      [⟨"App", "start", "()V"⟩] none).graph.nodes) (idleProgram (some busyBody)) ∧
    (idleProgram none).construct (idleProgram none).hierarchy [⟨"App", "start", "()V"⟩] (some 2) =
      (idleProgram (some busyBody)).construct (idleProgram (some busyBody)).hierarchy
        [⟨"App", "start", "()V"⟩] (some 2) ∧
    ((idleProgram none).run (idleProgram none).hierarchy [⟨"App", "start", "()V"⟩]
        (some 2)).diagnostics =
      ((idleProgram (some busyBody)).run (idleProgram (some busyBody)).hierarchy
        [⟨"App", "start", "()V"⟩] (some 2)).diagnostics :=
  ⟨by decide, agreesOn_idleProgram, unreached_bodies_irrelevant agreesOn_idleProgram (some 2)⟩

end Program

end DispatchGraph
