import DispatchGraph.Proofs.Dispatch

/-!
# Calls and the receivers they meet

A call names a method of a class or an interface and meets objects of the classes below it. What
runs is found by the walk up from the object's class, what is expected by looking down from the
method that the call binds to. The two agree when the call binds to a method of a class
(`candidates_of_subclass`): the walk up from a class below the named one ends above or below it, but
never beside it.

For a call that binds to a method of an interface the class where the walk ends may have no link to
the interface, because a subclass that has one inherits the method from it. Such an implementation
is not among the candidates; every other one is (`interface_receiver_covered_iff`).
-/

namespace DispatchGraph

open Relation

namespace Program

variable {p : Program} {sub : SubSignature} {s : Signature}

/-! ## Receivers below a class -/

/-- The walk from a subclass finds the method too, in a class below the one found from above. -/
theorem exists_target_of_subclass {named receiver owner : ClassName}
    (hbelow : ReflTransGen p.DirectSubclass receiver named)
    (htarget : p.target ⟨named, sub⟩ = .ok ⟨owner, sub⟩) :
    ∃ found, p.target ⟨receiver, sub⟩ = .ok ⟨found, sub⟩ ∧
      ReflTransGen p.DirectSubclass found owner := by
  induction hbelow using ReflTransGen.head_induction_on with
  | refl => exact ⟨owner, htarget, .refl⟩
  | @head x y hlink hbelow ih =>
    obtain ⟨c, hc, hsuper⟩ := id hlink
    cases hdecl : c.declares sub with
    | true =>
      -- the walk stops at once, and all of the way to the owner is still above
      have hx : p.target ⟨x, sub⟩ = .ok ⟨x, sub⟩ :=
        target_eq_owner.2 ⟨.refl, declares_iff.2 ⟨c, hc, hdecl⟩⟩
      exact ⟨x, hx, (hbelow.head hlink).trans (reflTransGen_of_target htarget)⟩
    | false =>
      obtain ⟨found, hfound, habove⟩ := ih
      obtain ⟨hpath, hfoundDecl⟩ := target_eq_owner.1 hfound
      have hx : p.target ⟨x, sub⟩ = .ok ⟨found, sub⟩ :=
        target_eq_owner.2 ⟨hpath.head ⟨c, hc, hdecl, hsuper⟩, hfoundDecl⟩
      exact ⟨found, hx, habove⟩

/-- The method that a call binds to is implemented by its class, unless that is an interface. -/
theorem implements_of_target {name owner : ClassName}
    (htarget : p.target ⟨name, sub⟩ = .ok ⟨owner, sub⟩)
    (hclass : p.hierarchy.isInterface owner = false) : p.Implements sub owner := by
  obtain ⟨c, hc, hdecl⟩ := declares_iff.1 (declares_of_target htarget)
  exact ⟨c, hc, by simpa [hierarchy, hc] using hclass, hdecl⟩

/-- **A call is ready for every receiver below a class.** If a call to a method of a class binds, so
does the same call to a class below it; and if both bind to methods of classes, what the second may
run the first may run too, the method that the receiver's class selects included. -/
theorem candidates_of_subclass {named receiver owner : ClassName}
    (hbelow : ReflTransGen p.DirectSubclass receiver named)
    (htarget : p.target ⟨named, sub⟩ = .ok ⟨owner, sub⟩) :
    ∃ found, p.target ⟨receiver, sub⟩ = .ok ⟨found, sub⟩ ∧
      (p.hierarchy.isInterface owner = false → p.hierarchy.isInterface found = false →
        (∀ s ∈ (p.resolve p.hierarchy ⟨receiver, sub⟩).candidates,
          s ∈ (p.resolve p.hierarchy ⟨named, sub⟩).candidates) ∧
        ⟨found, sub⟩ ∈ (p.resolve p.hierarchy ⟨named, sub⟩).candidates) := by
  obtain ⟨found, hfound, habove⟩ := exists_target_of_subclass hbelow htarget
  refine ⟨found, hfound, fun howner hclass => ?_⟩
  have himpl : p.Implements sub found := implements_of_target hfound hclass
  -- whatever implements the method at or below `found` does so at or below `owner`
  have hcandidate : ∀ x, p.Implements sub x → ReflTransGen p.DirectSubclass x found →
      ⟨x, sub⟩ ∈ (p.resolve p.hierarchy ⟨named, sub⟩).candidates := by
    intro x hx hxfound
    rw [mem_candidates_class htarget howner]
    rcases reflTransGen_iff_eq_or_transGen.1 (hxfound.trans habove) with rfl | hxowner
    · exact .inl rfl
    · exact .inr ⟨x, rfl, hx, hxowner⟩
  refine ⟨fun s hs => ?_, hcandidate found himpl .refl⟩
  rcases (mem_candidates_class hfound hclass).1 hs with rfl | ⟨x, rfl, hx, hxfound⟩
  · exact hcandidate found himpl .refl
  · exact hcandidate x hx hxfound.to_reflTransGen

/-- The method of the small programs below. -/
def opMethod : MethodDecl := ⟨⟨"op", "()V"⟩, false, some []⟩

/-- Three classes whose superclass links form a ring. Two of them declare the method. -/
def ringProgram : Program :=
  (Program.empty.addClasses .application [
    ⟨"Base", some "Leaf", [], false, [opMethod]⟩,
    ⟨"Leaf", some "Middle", [], false, [opMethod]⟩,
    ⟨"Middle", some "Base", [], false, []⟩]).1

theorem candidates_of_subclass_ring :
    ReflTransGen ringProgram.DirectSubclass "Leaf" "Middle" ∧
    ringProgram.target ⟨"Middle", opMethod.sub⟩ = .ok ⟨"Base", opMethod.sub⟩ ∧
    ∃ found, ringProgram.target ⟨"Leaf", opMethod.sub⟩ = .ok ⟨found, opMethod.sub⟩ ∧
      (ringProgram.hierarchy.isInterface "Base" = false →
        ringProgram.hierarchy.isInterface found = false →
        (∀ s ∈ (ringProgram.resolve ringProgram.hierarchy ⟨"Leaf", opMethod.sub⟩).candidates,
          s ∈ (ringProgram.resolve ringProgram.hierarchy ⟨"Middle", opMethod.sub⟩).candidates) ∧
        ⟨found, opMethod.sub⟩ ∈
          (ringProgram.resolve ringProgram.hierarchy ⟨"Middle", opMethod.sub⟩).candidates) := by
  have hbelow : ReflTransGen ringProgram.DirectSubclass "Leaf" "Middle" := .single (by decide)
  have htarget : ringProgram.target ⟨"Middle", opMethod.sub⟩ = .ok ⟨"Base", opMethod.sub⟩ :=
    target_eq_owner.2 ⟨.single (by decide), by decide⟩
  exact ⟨hbelow, htarget, candidates_of_subclass hbelow htarget⟩

/-! ## Receivers below an interface -/

/-- **What a receiver below an interface runs is a candidate if its class is a subtype of the
interface, and only then.** It is missed only where the receiver inherits it. -/
theorem interface_receiver_covered_iff {interface receiver found : ClassName}
    (hinterface : p.hierarchy.isInterface interface = true)
    (hdecl : p.declares ⟨interface, sub⟩ = true)
    (hbelow : receiver ∈ p.hierarchy.implementersOf interface)
    (htarget : p.target ⟨receiver, sub⟩ = .ok ⟨found, sub⟩)
    (hclass : p.hierarchy.isInterface found = false) :
    (⟨found, sub⟩ ∈ (p.resolve p.hierarchy ⟨interface, sub⟩).candidates ↔
      TransGen p.DirectSubtype found interface) ∧
    (⟨found, sub⟩ ∉ (p.resolve p.hierarchy ⟨interface, sub⟩).candidates →
      TransGen p.DirectSubclass receiver found) := by
  have hbinds : p.target ⟨interface, sub⟩ = .ok ⟨interface, sub⟩ :=
    target_eq_owner.2 ⟨.refl, hdecl⟩
  have himpl : p.Implements sub found := implements_of_target htarget hclass
  have hne : found ≠ interface := by
    rintro rfl
    simp [hclass] at hinterface
  have hiff : ⟨found, sub⟩ ∈ (p.resolve p.hierarchy ⟨interface, sub⟩).candidates ↔
      TransGen p.DirectSubtype found interface := by
    rw [mem_candidates_interface hbinds hinterface]
    constructor
    · rintro (heq | ⟨x, heq, _, hsubtype⟩)
      · exact absurd (Signature.mk.inj heq).1 hne
      · exact (Signature.mk.inj heq).1 ▸ hsubtype
    · exact fun hsubtype => .inr ⟨found, rfl, himpl, hsubtype⟩
  refine ⟨hiff, fun hmissed => ?_⟩
  rcases reflTransGen_iff_eq_or_transGen.1 (reflTransGen_of_target htarget) with rfl | hinherits
  · exact absurd (hiff.2 (mem_implementersOf.1 hbelow).2) hmissed
  · exact hinherits

/-- A class that is linked to the interface through another interface, and a subclass that inherits
the method. -/
def linkedProgram : Program :=
  (Program.empty.addClasses .application [
    ⟨"I", none, [], true, [opMethod]⟩,
    ⟨"J", none, ["I"], true, []⟩,
    ⟨"K", none, ["J"], false, [opMethod]⟩,
    ⟨"R", some "K", [], false, []⟩]).1

theorem interface_receiver_covered_linked :
    linkedProgram.hierarchy.isInterface "I" = true ∧
    linkedProgram.declares ⟨"I", opMethod.sub⟩ = true ∧
    "R" ∈ linkedProgram.hierarchy.implementersOf "I" ∧
    linkedProgram.target ⟨"R", opMethod.sub⟩ = .ok ⟨"K", opMethod.sub⟩ ∧
    linkedProgram.hierarchy.isInterface "K" = false ∧
    (⟨"K", opMethod.sub⟩ ∈
        (linkedProgram.resolve linkedProgram.hierarchy ⟨"I", opMethod.sub⟩).candidates ↔
      TransGen linkedProgram.DirectSubtype "K" "I") ∧
    (⟨"K", opMethod.sub⟩ ∉
        (linkedProgram.resolve linkedProgram.hierarchy ⟨"I", opMethod.sub⟩).candidates →
      TransGen linkedProgram.DirectSubclass "R" "K") := by
  have hinterface : linkedProgram.hierarchy.isInterface "I" = true := by decide
  have hdecl : linkedProgram.declares ⟨"I", opMethod.sub⟩ = true := by decide
  have hsubtype : TransGen linkedProgram.DirectSubtype "R" "I" :=
    .head (b := "K") (by decide) (.head (b := "J") (by decide) (.single (by decide)))
  have hbelow : "R" ∈ linkedProgram.hierarchy.implementersOf "I" :=
    mem_implementersOf.2 ⟨by decide, hsubtype⟩
  have htarget : linkedProgram.target ⟨"R", opMethod.sub⟩ = .ok ⟨"K", opMethod.sub⟩ :=
    target_eq_owner.2 ⟨.single (by decide), by decide⟩
  have hclass : linkedProgram.hierarchy.isInterface "K" = false := by decide
  exact ⟨hinterface, hdecl, hbelow, htarget, hclass,
    interface_receiver_covered_iff hinterface hdecl hbelow htarget hclass⟩

/-- A class with the method and no link to the interface, and a subclass that has the link and
inherits the method. -/
def unlinkedProgram : Program :=
  (Program.empty.addClasses .application [
    ⟨"I", none, [], true, [opMethod]⟩,
    ⟨"K", none, [], false, [opMethod]⟩,
    ⟨"R", some "K", ["I"], false, []⟩]).1

/-- A receiver of class `R` runs the method of `K`, which is not a candidate of the call. -/
theorem inherited_implementation_missed :
    unlinkedProgram.hierarchy.isInterface "I" = true ∧
    unlinkedProgram.declares ⟨"I", opMethod.sub⟩ = true ∧
    "R" ∈ unlinkedProgram.hierarchy.implementersOf "I" ∧
    unlinkedProgram.hierarchy.isInterface "R" = false ∧
    unlinkedProgram.target ⟨"R", opMethod.sub⟩ = .ok ⟨"K", opMethod.sub⟩ ∧
    unlinkedProgram.hierarchy.isInterface "K" = false ∧
    ⟨"K", opMethod.sub⟩ ∉
      (unlinkedProgram.resolve unlinkedProgram.hierarchy ⟨"I", opMethod.sub⟩).candidates := by
  have hinterface : unlinkedProgram.hierarchy.isInterface "I" = true := by decide
  have hdecl : unlinkedProgram.declares ⟨"I", opMethod.sub⟩ = true := by decide
  have hbelow : "R" ∈ unlinkedProgram.hierarchy.implementersOf "I" :=
    mem_implementersOf.2 ⟨by decide, .single (by decide)⟩
  have htarget : unlinkedProgram.target ⟨"R", opMethod.sub⟩ = .ok ⟨"K", opMethod.sub⟩ :=
    target_eq_owner.2 ⟨.single (by decide), by decide⟩
  refine ⟨hinterface, hdecl, hbelow, by decide, htarget, by decide, fun hmem => ?_⟩
  rw [mem_candidates_interface (target_eq_owner.2 ⟨.refl, hdecl⟩) hinterface] at hmem
  rcases hmem with heq | ⟨_, heq, _, hsubtype⟩
  · exact absurd heq (by decide)
  · obtain rfl : "K" = _ := (Signature.mk.inj heq).1
    -- `K` is declared without links, so no way up from it begins
    obtain ⟨_, ⟨c, hc, hlink⟩, _⟩ := TransGen.head'_iff.1 hsubtype
    obtain rfl : (⟨"K", none, [], false, [opMethod]⟩ : ClassDecl) = c :=
      Option.some.inj (Eq.trans (by decide) hc)
    simp at hlink

end Program

end DispatchGraph
