import DispatchGraph.Dispatch
import DispatchGraph.Proofs.Hierarchy

/-!
# What a call binds to and what it may run

The walk for the target of a call passes the classes that do not declare the method
(`Program.PassesUp`) and ends at the first one that does. It finds a class whenever there is one to
find (`target_eq_ok`): the guard against cycles never stops a walk that would still end, because
every class is passed in one direction only, so one that is met twice leads nowhere else
(`not_passes_cycle`).

On the program's own hierarchy the candidates of a call are its target and the implementations
below it, by superclass links when the target's class is no interface (`mem_candidates_class`), by
superclass and interface links when it is one (`mem_candidates_interface`).
-/

namespace DispatchGraph

open Relation

namespace Program

variable {p : Program} {sub : SubSignature} {name owner x y : ClassName} {s : Signature}

/-! ## The walk -/

/-- The class `x` does not declare the method and has `y` as its superclass. -/
def PassesUp (p : Program) (sub : SubSignature) (x y : ClassName) : Prop :=
  ∃ c, p.class? x = some c ∧ c.declares sub = false ∧ c.superclass = some y

instance (p : Program) (sub : SubSignature) (x y : ClassName) : Decidable (p.PassesUp sub x y) :=
  inferInstanceAs (Decidable (∃ c ∈ p.class? x, c.declares sub = false ∧ c.superclass = some y))

theorem PassesUp.directSubclass (h : p.PassesUp sub x y) : p.DirectSubclass x y := by
  obtain ⟨c, hc, _, hsuper⟩ := h
  exact ⟨c, hc, hsuper⟩

theorem PassesUp.unique (hx : p.PassesUp sub name x) (hy : p.PassesUp sub name y) : x = y := by
  obtain ⟨c, hc, _, hsuper⟩ := hx
  obtain ⟨c', hc', _, hsuper'⟩ := hy
  obtain rfl : c = c' := Option.some.inj (hc.symm.trans hc')
  exact Option.some.inj (hsuper.symm.trans hsuper')

theorem declares_of_class? {c : ClassDecl} (hc : p.class? name = some c) :
    p.declares ⟨name, sub⟩ = c.declares sub := by
  simp [declares, method?, hc, ClassDecl.declares]

theorem declares_iff :
    p.declares ⟨name, sub⟩ = true ↔ ∃ c, p.class? name = some c ∧ c.declares sub = true := by
  cases hc : p.class? name with
  | none => simp [declares, method?, hc]
  | some c => simp [declares_of_class? hc]

theorem PassesUp.not_declares (h : p.PassesUp sub x y) : p.declares ⟨x, sub⟩ = false := by
  obtain ⟨c, hc, hdecl, _⟩ := h
  rw [declares_of_class? hc, hdecl]

/-- A walk that ends at a declaration does not come back to a class. -/
theorem not_passes_cycle (hpath : ReflTransGen (p.PassesUp sub) name owner)
    (hdecl : p.declares ⟨owner, sub⟩ = true) : ¬ TransGen (p.PassesUp sub) name name := by
  induction hpath using ReflTransGen.head_induction_on with
  | refl =>
    intro hcycle
    obtain ⟨z, hstep, _⟩ := TransGen.head'_iff.1 hcycle
    simp [hstep.not_declares] at hdecl
  | head hstep _ ih =>
    intro hcycle
    obtain ⟨z, hstep', hback⟩ := TransGen.head'_iff.1 hcycle
    obtain rfl := hstep'.unique hstep
    exact ih (TransGen.tail' hback hstep)

/-- Every class on a walk to a declaration is declared. -/
theorem exists_class_of_passes (hpath : ReflTransGen (p.PassesUp sub) name owner)
    (hdecl : p.declares ⟨owner, sub⟩ = true) : ∃ c, p.class? name = some c := by
  rcases ReflTransGen.cases_head hpath with rfl | ⟨_, ⟨c, hc, _⟩, _⟩
  · obtain ⟨c, hc, _⟩ := declares_iff.1 hdecl
    exact ⟨c, hc⟩
  · exact ⟨c, hc⟩

theorem climb_of_declares {c : ClassDecl} {visited : List ClassName}
    (hdecl : c.declares s.sub = true) : p.climb s visited c = .ok ⟨c.name, s.sub⟩ := by
  rw [climb, if_pos hdecl, Signature.rebase]

theorem climb_up {c c' : ClassDecl} {visited : List ClassName} (hdecl : c.declares s.sub = false)
    (hsuper : c.superclass = some x) (hnew : x ∉ visited) (hx : p.class? x = some c') :
    p.climb s visited c = p.climb s (x :: visited) c' := by
  rw [climb]
  simp only [hdecl, hsuper, hnew, Bool.false_eq_true, ↓reduceIte, ↓reduceDIte]
  split
  · rename_i hnone
    rw [hx] at hnone
    contradiction
  · rename_i c'' hc''
    obtain rfl : c'' = c' := Option.some.inj (hc''.symm.trans hx)
    rfl

theorem climb_missing {c : ClassDecl} {visited : List ClassName} (hdecl : c.declares s.sub = false)
    (hsuper : c.superclass = some x) (hnew : x ∉ visited) (hx : p.class? x = none) :
    p.climb s visited c = .error (.ancestorMissing x) := by
  rw [climb]
  simp only [hdecl, hsuper, hnew, Bool.false_eq_true, ↓reduceIte, ↓reduceDIte]
  split
  · rfl
  · rename_i c' hc'
    rw [hx] at hc'
    contradiction

theorem climb_cycle {c : ClassDecl} {visited : List ClassName} (hdecl : c.declares s.sub = false)
    (hsuper : c.superclass = some x) (hold : x ∈ visited) :
    p.climb s visited c = .error (.cycle x) := by
  rw [climb]
  simp [hdecl, hsuper, hold]

theorem climb_top {c : ClassDecl} {visited : List ClassName} (hdecl : c.declares s.sub = false)
    (htop : c.superclass = none) : p.climb s visited c = .error .noImplementation := by
  rw [climb]
  simp [hdecl, htop]

/-- The walk finds the class where it ends. The names it keeps are those from which it came. -/
theorem climb_eq_ok {c : ClassDecl} {visited : List ClassName} (hc : p.class? c.name = some c)
    (hvisited : ∀ v ∈ visited, ReflTransGen (p.PassesUp s.sub) v c.name)
    (hpath : ReflTransGen (p.PassesUp s.sub) c.name owner)
    (howner : p.declares ⟨owner, s.sub⟩ = true) :
    p.climb s visited c = .ok ⟨owner, s.sub⟩ := by
  generalize hname : c.name = name at hpath
  induction hpath using ReflTransGen.head_induction_on generalizing c visited with
  | refl =>
    subst hname
    obtain ⟨c', hc', hdecl⟩ := declares_iff.1 howner
    obtain rfl : c' = c := Option.some.inj (hc'.symm.trans hc)
    exact climb_of_declares hdecl
  | @head x y hstep hpath ih =>
    subst hname
    have hnew : y ∉ visited := by
      intro hmem
      exact not_passes_cycle hpath howner (TransGen.tail' (hvisited y hmem) hstep)
    obtain ⟨c', hc', hdecl, hsuper⟩ := id hstep
    obtain rfl : c' = c := Option.some.inj (hc'.symm.trans hc)
    obtain ⟨cy, hcy⟩ := exists_class_of_passes hpath howner
    have hcyname : cy.name = y := name_of_class? hcy
    rw [climb_up hdecl hsuper hnew hcy]
    refine ih (hcyname ▸ hcy) (fun v hv => ?_) hcyname
    rw [hcyname]
    rcases List.mem_cons.1 hv with rfl | hv
    · exact .refl
    · exact (hvisited v hv).tail hstep

/-- Conversely the walk only passes classes that do not declare the method. -/
theorem passes_of_climb {c : ClassDecl} {visited : List ClassName} {t : Signature}
    (hc : p.class? c.name = some c) (h : p.climb s visited c = .ok t) :
    ∃ owner, t = ⟨owner, s.sub⟩ ∧ ReflTransGen (p.PassesUp s.sub) c.name owner := by
  fun_induction climb p s visited c with
  | case1 visited c hdecl =>
    obtain rfl : s.rebase c.name = t := by simpa using h
    exact ⟨c.name, rfl, .refl⟩
  | case2 => simp at h
  | case3 => simp at h
  | case4 => simp at h
  | case5 visited c hdecl ancestor hsuper _ c' hc' ih =>
    have hname : c'.name = ancestor := name_of_class? hc'
    obtain ⟨owner, rfl, hpath⟩ := ih (hname ▸ hc') h
    rw [hname] at hpath
    exact ⟨owner, rfl, hpath.head ⟨c, hc, by simpa using hdecl, hsuper⟩⟩

/-- **A call binds to the first class on the way up that declares the method**, and to nothing only
if there is none. -/
theorem target_eq_ok :
    p.target ⟨name, sub⟩ = .ok s ↔ ∃ owner, s = ⟨owner, sub⟩ ∧
      ReflTransGen (p.PassesUp sub) name owner ∧ p.declares ⟨owner, sub⟩ = true := by
  constructor
  · intro h
    have hdecl : p.declares s = true := declares_of_target h
    rw [target] at h
    split at h
    · contradiction
    · rename_i c hc
      have hname : c.name = name := name_of_class? hc
      obtain ⟨owner, rfl, hpath⟩ := passes_of_climb (hname ▸ hc) h
      exact ⟨owner, rfl, hname ▸ hpath, hdecl⟩
  · rintro ⟨owner, rfl, hpath, hdecl⟩
    obtain ⟨c, hc⟩ := exists_class_of_passes hpath hdecl
    obtain rfl : c.name = name := name_of_class? hc
    simp only [target, hc]
    refine climb_eq_ok hc (fun v hv => ?_) hpath hdecl
    rw [List.mem_singleton.1 hv]

theorem target_eq_owner :
    p.target ⟨name, sub⟩ = .ok ⟨owner, sub⟩ ↔
      ReflTransGen (p.PassesUp sub) name owner ∧ p.declares ⟨owner, sub⟩ = true := by
  rw [target_eq_ok]
  constructor
  · rintro ⟨_, heq, h⟩
    obtain rfl : owner = _ := (Signature.mk.inj heq).1
    exact h
  · exact fun h => ⟨owner, rfl, h⟩

/-- The class of the target is above the class that the call names. -/
theorem reflTransGen_of_target (htarget : p.target ⟨name, sub⟩ = .ok ⟨owner, sub⟩) :
    ReflTransGen p.DirectSubclass name owner := by
  have hle : p.PassesUp sub ≤ p.DirectSubclass := fun _ _ hstep => hstep.directSubclass
  exact ReflTransGen.mono hle _ _ (target_eq_owner.1 htarget).1

/-! ## Candidates on the program's own hierarchy -/

/-- The class is no interface and declares the method itself. -/
def Implements (p : Program) (sub : SubSignature) (name : ClassName) : Prop :=
  ∃ c, p.class? name = some c ∧ c.isInterface = false ∧ c.declares sub = true

theorem override?_eq_some :
    p.override? ⟨owner, sub⟩ name = some s ↔ s = ⟨name, sub⟩ ∧ p.Implements sub name := by
  rw [override?, Implements]
  cases hc : p.class? name with
  | none => simp
  | some c =>
    simp only [Signature.rebase, Option.ite_none_right_eq_some, Bool.and_eq_true,
      Bool.not_eq_true', Option.some.injEq, exists_eq_left']
    tauto

/-- The candidates are the target and the implementations below it. The hierarchy knows every class
that a call binds to, so no target is dropped; that a class is not listed below itself does not
matter, since the target is there anyway. -/
theorem mem_candidates {link : ClassDecl → ClassName → Bool}
    (htarget : p.target ⟨name, sub⟩ = .ok ⟨owner, sub⟩)
    (hbelow : substitutes p.hierarchy ⟨owner, sub⟩ = p.below link owner) :
    s ∈ (p.resolve p.hierarchy ⟨name, sub⟩).candidates ↔ s = ⟨owner, sub⟩ ∨
      ∃ x, s = ⟨x, sub⟩ ∧ p.Implements sub x ∧ TransGen (p.LinksTo link) x owner := by
  have hknown : p.hierarchy.contains owner = true := by
    obtain ⟨c, hc, _⟩ := declares_iff.1 (declares_of_target htarget)
    simp [hierarchy, hc]
  rw [resolve, htarget]
  simp only [hknown, ↓reduceIte, List.mem_cons, List.mem_filterMap, override?_eq_some, hbelow,
    mem_below]
  constructor
  · rintro (rfl | ⟨x, ⟨_, hlinks⟩, rfl, himpl⟩)
    · exact .inl rfl
    · exact .inr ⟨x, rfl, himpl, hlinks⟩
  · rintro (rfl | ⟨x, rfl, himpl, hlinks⟩)
    · exact .inl rfl
    · by_cases hx : x = owner
      · exact .inl (by rw [hx])
      · exact .inr ⟨x, ⟨hx, hlinks⟩, rfl, himpl⟩

/-- The candidates of a call that binds to a method of a class. -/
theorem mem_candidates_class (htarget : p.target ⟨name, sub⟩ = .ok ⟨owner, sub⟩)
    (hclass : p.hierarchy.isInterface owner = false) :
    s ∈ (p.resolve p.hierarchy ⟨name, sub⟩).candidates ↔ s = ⟨owner, sub⟩ ∨
      ∃ x, s = ⟨x, sub⟩ ∧ p.Implements sub x ∧ TransGen p.DirectSubclass x owner := by
  rw [← linksTo_extendsLink]
  refine mem_candidates htarget ?_
  rw [substitutes, hclass]
  rfl

/-- The candidates of a call that binds to a method of an interface. -/
theorem mem_candidates_interface (htarget : p.target ⟨name, sub⟩ = .ok ⟨owner, sub⟩)
    (hinterface : p.hierarchy.isInterface owner = true) :
    s ∈ (p.resolve p.hierarchy ⟨name, sub⟩).candidates ↔ s = ⟨owner, sub⟩ ∨
      ∃ x, s = ⟨x, sub⟩ ∧ p.Implements sub x ∧ TransGen p.DirectSubtype x owner := by
  rw [← linksTo_subtypeLink]
  refine mem_candidates htarget ?_
  rw [substitutes, hinterface]
  rfl

end Program

end DispatchGraph
