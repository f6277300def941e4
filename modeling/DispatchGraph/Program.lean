import DispatchGraph.Declaration
import DispatchGraph.Diagnostic

/-!
# Programs

A program is a store of class declarations with one declaration for each name. Classes are added in
batches of one origin; a declaration of a name that is there already is ignored and reported, so the
first declaration of a class wins, and with it its origin.

* `Program.addClass`, `Program.addClasses`: adding declarations.
* `Program.class?`, `Program.method?`: looking up by name and by signature.
* `Program.calls`: the calls that a method makes.
* `Program.signatures`: the signatures of all declared methods.
-/

namespace DispatchGraph

/-- A class declaration with its origin. -/
structure Declared where
  decl : ClassDecl
  origin : Origin
  deriving DecidableEq

/-- The name of the declared class. -/
def Declared.name (d : Declared) : ClassName := d.decl.name

/-- The declared classes of a program, in order of their names. -/
structure Program where
  declared : Sorted Declared.name
  deriving DecidableEq

namespace Program

/-- The program without classes. -/
def empty : Program := ⟨∅⟩

/-! ## Looking up -/

/-- The declarations in order of their names. -/
def classes (p : Program) : List ClassDecl := p.declared.toList.map Declared.decl

/-- The names of the declared classes in order. -/
def classNames (p : Program) : List ClassName := p.classes.map ClassDecl.name

/-- The declarations that belong to the program under analysis, in order of their names. -/
def applicationClasses (p : Program) : List ClassDecl :=
  (p.declared.toList.filter fun d => d.origin = .application).map Declared.decl

/-- The number of declared classes. -/
def classCount (p : Program) : Nat := p.declared.size

/-- The declaration of a class. -/
def class? (p : Program) (name : ClassName) : Option ClassDecl :=
  (p.declared.find? name).map Declared.decl

/-- The declaration of a method: the first one of its sub-signature in its class. -/
def method? (p : Program) (s : Signature) : Option MethodDecl :=
  (p.class? s.owner).bind fun c => c.method? s.sub

/-- The method is declared. -/
def declares (p : Program) (s : Signature) : Bool := (p.method? s).isSome

/-- The calls that a method makes. One that is not declared makes none and is reported. -/
def calls (p : Program) (s : Signature) : List Invocation × List Diagnostic :=
  match p.method? s with
  | none => ([], [.methodMissing s])
  | some m => (m.calls, [])

/-- The signatures of all method declarations. -/
def signatures (p : Program) : List Signature :=
  p.classes.flatMap fun c => c.methods.map fun m => ⟨c.name, m.sub⟩

/-! ## Adding classes -/

/-- Add one declaration, unless its name is declared. -/
def addClass (origin : Origin) (p : Program) (c : ClassDecl) : Program :=
  ⟨p.declared.insert ⟨c, origin⟩⟩

/-- What is reported when a declaration is added. -/
def addClassDiagnostics (p : Program) (c : ClassDecl) : List Diagnostic :=
  if (p.class? c.name).isSome then [.duplicateClass c.name] else []

/-- Add declarations one after the other; the program and what is reported. -/
def addClasses (p : Program) (origin : Origin) : List ClassDecl → Program × List Diagnostic
  | [] => (p, [])
  | c :: cs =>
    let (added, diagnostics) := (p.addClass origin c).addClasses origin cs
    (added, p.addClassDiagnostics c ++ diagnostics)

/-! ## Lemmas -/

theorem name_of_class? {p : Program} {name : ClassName} {c : ClassDecl}
    (h : p.class? name = some c) : c.name = name := by
  obtain ⟨d, hd, rfl⟩ := Option.map_eq_some_iff.1 h
  exact (Sorted.key_of_find? hd : d.name = name)

theorem mem_classes_of_class? {p : Program} {name : ClassName} {c : ClassDecl}
    (h : p.class? name = some c) : c ∈ p.classes := by
  obtain ⟨d, hd, rfl⟩ := Option.map_eq_some_iff.1 h
  exact List.mem_map_of_mem (Sorted.mem_of_find? hd)

theorem mem_classNames_of_class? {p : Program} {name : ClassName} {c : ClassDecl}
    (h : p.class? name = some c) : name ∈ p.classNames :=
  name_of_class? h ▸ List.mem_map_of_mem (mem_classes_of_class? h)

theorem mem_signatures_of_declares {p : Program} {s : Signature} (h : p.declares s = true) :
    s ∈ p.signatures := by
  obtain ⟨m, hm⟩ := Option.isSome_iff_exists.1 h
  obtain ⟨c, hc, hm⟩ := Option.bind_eq_some_iff.1 hm
  refine List.mem_flatMap.2 ⟨c, mem_classes_of_class? hc, List.mem_map.2
    ⟨m, ClassDecl.mem_methods_of_method? hm, ?_⟩⟩
  rw [name_of_class? hc, ClassDecl.sub_of_method? hm]

end Program

end DispatchGraph
