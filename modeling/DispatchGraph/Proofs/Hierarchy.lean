import DispatchGraph.Hierarchy
import DispatchGraph.Proofs.Search

/-!
# Classes below a class

A declared class stands directly below another one when a link of its declaration names that one
(`Program.LinksTo`). The classes that a program's hierarchy lists below a name are the other ones
from which links lead to it, whatever the links are (`mem_below`): for the superclass links the
subclasses (`mem_subclassesOf`), for superclass and interface links the subtypes
(`mem_implementersOf`).
-/

namespace DispatchGraph

open Relation

namespace Program

variable {p : Program} {name x y : ClassName} {c : ClassDecl}

/-! ## Declared classes -/

/-- A name is declared by the one declaration that bears it. -/
theorem class?_eq_some : p.class? name = some c ↔ c ∈ p.classes ∧ c.name = name := by
  refine ⟨fun h => ⟨mem_classes_of_class? h, name_of_class? h⟩, ?_⟩
  rintro ⟨hc, rfl⟩
  obtain ⟨d, hd, rfl⟩ := List.mem_map.1 hc
  have hfind : p.declared.find? d.decl.name = some d := Sorted.find?_eq_some.2 ⟨hd, rfl⟩
  rw [class?, hfind, Option.map_some]

theorem class?_eq_find? (p : Program) (name : ClassName) :
    p.class? name = p.classes.find? fun c => c.name = name := by
  rw [class?, Sorted.find?, classes, List.find?_map]
  rfl

theorem mem_namesWhere {cond : ClassDecl → Bool} :
    name ∈ p.namesWhere cond ↔ ∃ c, p.class? name = some c ∧ cond c = true := by
  simp only [namesWhere, List.mem_map, List.mem_filter, class?_eq_some]
  exact exists_congr fun c => by tauto

theorem length_classNames (p : Program) : p.classNames.length = p.classCount := by
  rw [classNames, List.length_map, classes, List.length_map]
  rfl

/-! ## The application -/

theorem mem_applicationClasses :
    c ∈ p.applicationClasses ↔ p.declared.find? c.name = some ⟨c, .application⟩ := by
  rw [Sorted.find?_eq_some, applicationClasses, List.mem_map]
  constructor
  · rintro ⟨⟨_, origin⟩, hd, rfl⟩
    obtain ⟨hd, horigin⟩ := List.mem_filter.1 hd
    obtain rfl : origin = .application := by simpa using horigin
    exact ⟨hd, rfl⟩
  · rintro ⟨hd, -⟩
    exact ⟨_, List.mem_filter.2 ⟨hd, by simp⟩, rfl⟩

theorem increasing_applicationClasses (p : Program) :
    Increasing ClassDecl.name p.applicationClasses :=
  List.pairwise_map.2 (p.declared.increasing.filter _)

/-- The name of a class of the application stands for that class. -/
theorem class?_of_mem_applicationClasses (hc : c ∈ p.applicationClasses) :
    p.class? c.name = some c := by
  rw [class?, mem_applicationClasses.1 hc]
  rfl

/-! ## Links -/

/-- The class `x` is declared with a link to `y`. -/
def LinksTo (p : Program) (link : ClassDecl → ClassName → Bool) (x y : ClassName) : Prop :=
  ∃ c, p.class? x = some c ∧ link c y = true

/-- The class `x` is declared with the superclass `y`. -/
def DirectSubclass (p : Program) (x y : ClassName) : Prop :=
  ∃ c, p.class? x = some c ∧ c.superclass = some y

/-- The class or interface `x` is declared with `y` as its superclass or among its interfaces. -/
def DirectSubtype (p : Program) (x y : ClassName) : Prop :=
  ∃ c, p.class? x = some c ∧ (c.superclass = some y ∨ y ∈ c.interfaces)

instance (p : Program) (x y : ClassName) : Decidable (p.DirectSubclass x y) :=
  inferInstanceAs (Decidable (∃ c ∈ p.class? x, c.superclass = some y))

instance (p : Program) (x y : ClassName) : Decidable (p.DirectSubtype x y) :=
  inferInstanceAs (Decidable (∃ c ∈ p.class? x, c.superclass = some y ∨ y ∈ c.interfaces))

theorem linksTo_extendsLink : p.LinksTo extendsLink = p.DirectSubclass := by
  funext x y
  simp [LinksTo, DirectSubclass, extendsLink]

theorem linksTo_subtypeLink : p.LinksTo subtypeLink = p.DirectSubtype := by
  funext x y
  simp [LinksTo, DirectSubtype, subtypeLink]

/-! ## Closures -/

variable {link : ClassDecl → ClassName → Bool}

theorem leads_linkSpace : (p.linkSpace link).Leads y x ↔ p.LinksTo link x y := mem_namesWhere

/-- A search from a name finds the classes from which links lead to it, and the name itself. -/
theorem mem_visited_linkSpace :
    x ∈ ((p.linkSpace link).explore none [y]).visited ↔ ReflTransGen (p.LinksTo link) x y := by
  have hleads : (p.linkSpace link).Leads = Function.swap (p.LinksTo link) := by
    funext a b
    exact propext leads_linkSpace
  rw [Space.mem_visited_explore, hleads]
  simp only [List.mem_singleton, exists_eq_left]
  exact reflTransGen_swap

/-- **The classes below a name are those from which links lead to it**, without the class of that
name itself. -/
theorem mem_below : x ∈ p.below link y ↔ x ≠ y ∧ TransGen (p.LinksTo link) x y := by
  rw [below, List.mem_filter, Sorted.mem_toList, SortedSet.mem_ofList,
    Space.discovered_explore_none, mem_visited_linkSpace, decide_eq_true_eq, and_comm,
    reflTransGen_iff_eq_or_transGen]
  refine and_congr_right fun hne => or_iff_right ?_
  exact fun heq => hne heq.symm

theorem increasing_below (p : Program) (link : ClassDecl → ClassName → Bool) (name : ClassName) :
    Increasing id (p.below link name) :=
  (Sorted.increasing _).sublist List.filter_sublist

/-- Only declared classes are below a name. -/
theorem exists_class_of_mem_below (hx : x ∈ p.below link y) : ∃ c, p.class? x = some c := by
  obtain ⟨_, ⟨c, hc, -⟩, -⟩ := TransGen.head'_iff.1 (mem_below.1 hx).2
  exact ⟨c, hc⟩

theorem mem_subclassesOf :
    x ∈ p.hierarchy.subclassesOf y ↔ x ≠ y ∧ TransGen p.DirectSubclass x y := by
  rw [← linksTo_extendsLink]
  exact mem_below

theorem mem_implementersOf :
    x ∈ p.hierarchy.implementersOf y ↔ x ≠ y ∧ TransGen p.DirectSubtype x y := by
  rw [← linksTo_subtypeLink]
  exact mem_below

end Program

end DispatchGraph
