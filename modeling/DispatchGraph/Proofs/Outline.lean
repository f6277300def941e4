import DispatchGraph.Proofs.Dispatch
import Mathlib.Data.List.Forall2

/-!
# What dispatch reads of a program

Of a class, dispatch reads the name, the superclass, the names of the interfaces, whether it is an
interface itself, and which methods it declares. It reads nothing of the methods, and no order.
Programs that agree on this much have the same outline (`Program.SameOutline`). They have the same
hierarchy (`Program.SameOutline.hierarchy`), calls bind to the same methods in them, or to none for
the same reason (`Program.SameOutline.target`), and may run the same methods
(`Program.SameOutline.resolve`). A program whose declarations are changed one by one
(`Program.mapClasses`) has the same outline if each class has.
-/

namespace DispatchGraph

theorem rel_option_cases {α : Type} {R : α → α → Prop} {o o' : Option α} (h : Option.Rel R o o') :
    (o = none ∧ o' = none) ∨ ∃ a a', o = some a ∧ o' = some a' ∧ R a a' := by
  cases h with
  | none => exact .inl ⟨rfl, rfl⟩
  | some hab => exact .inr ⟨_, _, rfl, rfl, hab⟩

theorem isSome_eq_of_rel {α : Type} {R : α → α → Prop} {o o' : Option α} (h : Option.Rel R o o') :
    o.isSome = o'.isSome := by
  cases h with
  | none => rfl
  | some _ => rfl

/-- Looking up a key in corresponding lists finds corresponding items. -/
theorem rel_find?_of_forall₂ {α κ : Type} [DecidableEq κ] {R : α → α → Prop} {key : α → κ}
    {xs ys : List α} (h : List.Forall₂ R xs ys) (hkey : ∀ a b, R a b → key a = key b) (k : κ) :
    Option.Rel R (xs.find? fun a => key a = k) (ys.find? fun a => key a = k) := by
  induction h with
  | nil => exact .none
  | @cons a b _ _ hab _ ih =>
    rw [List.find?_cons, List.find?_cons, hkey a b hab]
    split
    · exact .some hab
    · exact ih

/-- Dispatch cannot tell the classes apart. -/
structure ClassDecl.SameOutline (c c' : ClassDecl) : Prop where
  name_eq : c.name = c'.name
  superclass_eq : c.superclass = c'.superclass
  mem_interfaces : ∀ name, name ∈ c.interfaces ↔ name ∈ c'.interfaces
  isInterface_eq : c.isInterface = c'.isInterface
  declares_eq : ∀ sub, c.declares sub = c'.declares sub

/-- The programs declare the same names, each by classes that dispatch cannot tell apart. -/
def Program.SameOutline (p q : Program) : Prop :=
  ∀ name, Option.Rel ClassDecl.SameOutline (p.class? name) (q.class? name)

namespace ClassDecl.SameOutline

variable {c c' : ClassDecl}

theorem extendsLink (h : c.SameOutline c') : Program.extendsLink c = Program.extendsLink c' := by
  funext name
  rw [Program.extendsLink, Program.extendsLink, h.superclass_eq]

theorem subtypeLink (h : c.SameOutline c') : Program.subtypeLink c = Program.subtypeLink c' := by
  funext name
  simp only [Program.subtypeLink, h.superclass_eq, h.mem_interfaces]

end ClassDecl.SameOutline

namespace Program.SameOutline

variable {p q : Program} {call : Signature}

/-- What a name is declared as in both programs, if it is declared at all. -/
theorem class?_cases (h : p.SameOutline q) (name : ClassName) :
    (p.class? name = none ∧ q.class? name = none) ∨
      ∃ c c', p.class? name = some c ∧ q.class? name = some c' ∧ c.SameOutline c' :=
  rel_option_cases (h name)

theorem isNone_class? (h : p.SameOutline q) (name : ClassName) :
    (p.class? name).isNone = (q.class? name).isNone := by
  rw [← Option.not_isSome, ← Option.not_isSome, isSome_eq_of_rel (h name)]

/-! ## Hierarchies -/

theorem linksTo_iff (h : p.SameOutline q) {link : ClassDecl → ClassName → Bool}
    (hlink : ∀ c c', c.SameOutline c' → link c = link c') {x y : ClassName} :
    p.LinksTo link x y ↔ q.LinksTo link x y := by
  rw [LinksTo, LinksTo]
  rcases h.class?_cases x with ⟨hp, hq⟩ | ⟨c, c', hp, hq, hc⟩
  · simp [hp, hq]
  · simp [hp, hq, hlink c c' hc]

/-- The same links make the same lists: they are in order of the names. -/
theorem below (h : p.SameOutline q) {link : ClassDecl → ClassName → Bool}
    (hlink : ∀ c c', c.SameOutline c' → link c = link c') (name : ClassName) :
    p.below link name = q.below link name := by
  have hlinks : p.LinksTo link = q.LinksTo link := by
    funext x y
    exact propext (h.linksTo_iff hlink)
  refine (increasing_below p link name).ext_mem (increasing_below q link name) fun x => ?_
  rw [mem_below, mem_below, hlinks]

theorem hierarchy (h : p.SameOutline q) : p.hierarchy = q.hierarchy := by
  have hcontains : ∀ name, (p.class? name).isSome = (q.class? name).isSome :=
    fun name => isSome_eq_of_rel (h name)
  have hinterface : ∀ name, (p.class? name).any ClassDecl.isInterface =
      (q.class? name).any ClassDecl.isInterface := by
    intro name
    rcases h.class?_cases name with ⟨hp, hq⟩ | ⟨c, c', hp, hq, hc⟩
    · rw [hp, hq]
    · rw [hp, hq]
      exact hc.isInterface_eq
  rw [Program.hierarchy, Program.hierarchy, Hierarchy.mk.injEq]
  exact ⟨funext hcontains, funext hinterface, funext (h.below fun _ _ hc => hc.extendsLink),
    funext (h.below fun _ _ hc => hc.subtypeLink)⟩

/-! ## Calls -/

/-- The walk up passes the same classes and ends in the same way. -/
theorem climb (h : p.SameOutline q) {visited : List ClassName} {c c' : ClassDecl}
    (hc : c.SameOutline c') : p.climb call visited c = q.climb call visited c' := by
  have hdeclares : c.declares call.sub = c'.declares call.sub := hc.declares_eq call.sub
  -- both walks pass the same names, so they have visited the same
  fun_induction Program.climb p call visited c generalizing c' with
  | case1 visited c hdecl =>
    rw [climb_of_declares (hdeclares ▸ hdecl), Signature.rebase, hc.name_eq]
  | case2 visited c hdecl hsuper =>
    rw [hc.superclass_eq] at hsuper
    rw [Program.climb, ← hdeclares, if_neg hdecl, hsuper]
  | case3 visited c hdecl ancestor hsuper hvisited =>
    rw [hc.superclass_eq] at hsuper
    rw [Program.climb, ← hdeclares, if_neg hdecl]
    simp only [hsuper, hvisited, ↓reduceDIte]
  | case4 visited c hdecl ancestor hsuper hvisited hnone =>
    rcases h.class?_cases ancestor with ⟨-, hq⟩ | ⟨_, _, hp, -⟩
    · have hdecl' : c'.declares call.sub = false := by simpa [hdeclares] using hdecl
      rw [climb_missing hdecl' (hc.superclass_eq ▸ hsuper) hvisited hq]
    · simp [hp] at hnone
  | case5 visited c hdecl ancestor hsuper hvisited next hnext ih =>
    rcases h.class?_cases ancestor with ⟨hp, -⟩ | ⟨d, d', hp, hq, hd⟩
    · simp [hp] at hnext
    · obtain rfl : d = next := Option.some.inj (hp.symm.trans hnext)
      have hdecl' : c'.declares call.sub = false := by simpa [hdeclares] using hdecl
      rw [climb_up hdecl' (hc.superclass_eq ▸ hsuper) hvisited hq]
      exact ih hd (hd.declares_eq call.sub)

theorem target (h : p.SameOutline q) (call : Signature) : p.target call = q.target call := by
  rw [Program.target, Program.target]
  rcases h.class?_cases call.owner with ⟨hp, hq⟩ | ⟨c, c', hp, hq, hc⟩
  · rw [hp, hq]
  · simp only [hp, hq, hc.name_eq]
    exact h.climb hc

theorem override? (h : p.SameOutline q) (target : Signature) (name : ClassName) :
    p.override? target name = q.override? target name := by
  rw [Program.override?, Program.override?]
  rcases h.class?_cases name with ⟨hp, hq⟩ | ⟨c, c', hp, hq, hc⟩
  · rw [hp, hq]
  · simp only [hp, hq, hc.isInterface_eq, hc.declares_eq]

/-- **A call may run the same methods, and the same is reported about it.** -/
theorem resolve (h : p.SameOutline q) (call : Signature) :
    p.resolve p.hierarchy call = q.resolve q.hierarchy call := by
  have hoverride : ∀ target, p.override? target = q.override? target :=
    fun target => funext (h.override? target)
  rw [Program.resolve, Program.resolve, h.target, h.hierarchy]
  simp only [hoverride, h.isNone_class?]

end Program.SameOutline

/-! ## Changing declarations -/

/-- The declaration changed, of the same origin. -/
def Declared.map (change : ClassDecl → ClassDecl) (d : Declared) : Declared :=
  ⟨change d.decl, d.origin⟩

theorem Declared.name_map {change : ClassDecl → ClassDecl}
    (hname : ∀ c, (change c).name = c.name) (d : Declared) : (d.map change).name = d.name :=
  hname d.decl

namespace Program

variable {p : Program} {change : ClassDecl → ClassDecl} {hname : ∀ c, (change c).name = c.name}

/-- The program with every declaration changed in a way that keeps its name. -/
def mapClasses (p : Program) (change : ClassDecl → ClassDecl)
    (hname : ∀ c, (change c).name = c.name) : Program where
  declared :=
    ⟨p.declared.toList.map (Declared.map change), List.Pairwise.map _
      (fun a b hlt => by rwa [Declared.name_map hname, Declared.name_map hname])
      p.declared.increasing⟩

theorem class?_mapClasses (name : ClassName) :
    (p.mapClasses change hname).class? name = (p.class? name).map change := by
  have hkey : (fun d : Declared => decide (d.name = name)) ∘ Declared.map change =
      fun d => decide (d.name = name) := by
    funext d
    simp [Declared.name_map hname]
  rw [class?, class?, Sorted.find?, Sorted.find?, mapClasses, List.find?_map, hkey, Option.map_map,
    Option.map_map]
  rfl

/-- A change that dispatch cannot see. -/
theorem sameOutline_mapClasses (hchange : ∀ c : ClassDecl, c.SameOutline (change c)) :
    p.SameOutline (p.mapClasses change hname) := by
  intro name
  rw [class?_mapClasses]
  cases p.class? name with
  | none => exact .none
  | some c => exact .some (hchange c)

end Program

end DispatchGraph
