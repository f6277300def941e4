import DispatchGraph.Program
import DispatchGraph.Search

/-!
# Type hierarchies

Dispatch asks a hierarchy which classes it knows, which of them are interfaces, and which classes
stand below a class or an interface. `Hierarchy` is that interface, with any answers;
`Program.hierarchy` answers from the superclass and interface links of a program.

Classes below a class are found by following links downwards from it, whatever the links are: they
may be cyclic, lead to undeclared names or repeat each other. The class itself is never listed.
-/

namespace DispatchGraph

/-- What dispatch asks about classes. -/
structure Hierarchy where
  /-- The class is known. -/
  contains : ClassName → Bool
  /-- The class is an interface. -/
  isInterface : ClassName → Bool
  /-- The classes below a class by superclass links, without the class itself. -/
  subclassesOf : ClassName → List ClassName
  /-- The classes and interfaces below an interface, without the interface itself. -/
  implementersOf : ClassName → List ClassName

namespace Program

/-- The classes that satisfy a condition, by name. -/
def namesWhere (p : Program) (cond : ClassDecl → Bool) : List ClassName :=
  (p.classes.filter cond).map ClassDecl.name

theorem namesWhere_subset {p : Program} {cond : ClassDecl → Bool} :
    ∀ name ∈ p.namesWhere cond, name ∈ p.classNames := by
  intro name h
  obtain ⟨c, hc, rfl⟩ := List.mem_map.1 h
  exact List.mem_map_of_mem (List.mem_filter.1 hc).1

/-- The space of classes where each leads to the declared classes that stand in `link` to it. -/
def linkSpace (p : Program) (link : ClassDecl → ClassName → Bool) : Space ClassName (List ClassName)
    where
  visit name := p.namesWhere fun c => link c name
  next names := names
  points := p.classNames
  next_subset _ := namesWhere_subset

/-- The classes other than `name` from which links lead to `name`, in order. -/
def below (p : Program) (link : ClassDecl → ClassName → Bool) (name : ClassName) :
    List ClassName :=
  let reached : SortedSet ClassName := .ofList ((p.linkSpace link).explore none [name]).discovered
  reached.toList.filter (· ≠ name)

/-- `c` is a direct subclass of the named class. -/
def extendsLink (c : ClassDecl) (name : ClassName) : Bool := c.superclass = some name

/-- `c` is a direct subclass or a direct implementer of the named class. -/
def subtypeLink (c : ClassDecl) (name : ClassName) : Bool :=
  c.superclass = some name || name ∈ c.interfaces

/-- The hierarchy of the program's own links. -/
def hierarchy (p : Program) : Hierarchy where
  contains name := (p.class? name).isSome
  isInterface name := (p.class? name).any ClassDecl.isInterface
  subclassesOf := p.below extendsLink
  implementersOf := p.below subtypeLink

end Program

end DispatchGraph
