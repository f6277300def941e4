import DispatchGraph.Statement

/-!
# Class and method declarations

A class declares its superclass, the interfaces it implements, whether it is an interface itself,
and its methods. Several methods of one class may have the same sub-signature; the first one
counts.
-/

namespace DispatchGraph

/-- A method declaration. An abstract or native method has no body. -/
structure MethodDecl where
  sub : SubSignature
  isStatic : Bool
  body : Option (List Statement)
  deriving DecidableEq

/-- The calls in the body of a method, in order. -/
def MethodDecl.calls (m : MethodDecl) : List Invocation :=
  (m.body.getD []).filterMap Statement.invocation?

/-- A class or interface declaration. -/
structure ClassDecl where
  name : ClassName
  superclass : Option ClassName
  interfaces : List ClassName
  isInterface : Bool
  methods : List MethodDecl
  deriving DecidableEq

namespace ClassDecl

/-- The first method of the class with a given sub-signature. -/
def method? (c : ClassDecl) (sub : SubSignature) : Option MethodDecl :=
  c.methods.find? fun m => m.sub = sub

/-- The class itself, not an ancestor, declares the sub-signature. -/
def declares (c : ClassDecl) (sub : SubSignature) : Bool := (c.method? sub).isSome

theorem sub_of_method? {c : ClassDecl} {sub : SubSignature} {m : MethodDecl}
    (h : c.method? sub = some m) : m.sub = sub := by
  rw [method?] at h
  simpa using List.find?_some h

theorem mem_methods_of_method? {c : ClassDecl} {sub : SubSignature} {m : MethodDecl}
    (h : c.method? sub = some m) : m ∈ c.methods :=
  List.mem_of_find?_eq_some h

end ClassDecl

/-- Whether a class belongs to the program under analysis or to a library. -/
inductive Origin where
  | application | library
  deriving DecidableEq

end DispatchGraph
