import DispatchGraph.Sorted
import DispatchGraph.Descriptor
import DispatchGraph.Text

/-!
# Method signatures

A method is identified by the class that declares it and by its sub-signature: its name with its
descriptor. Signatures are written `com/example/App.run(I)V` and are ordered by class, then name,
then descriptor, each by code points.

* `Signature.text` and `Signature.parse`: the written form, and reading it.
* `Signature.rebase`: the same sub-signature in another class.
* The order is total and agrees with equality (`TransOrd` and `LawfulEqOrd` instances).
-/

namespace DispatchGraph

open Std

/-- The name of a class or an interface, such as `com/example/App`. -/
abbrev ClassName := String

/-- A method without its class, which is what overriding matches. -/
structure SubSignature where
  name : String
  descriptor : String
  deriving DecidableEq

/-- A method: the class that declares it and its sub-signature. -/
structure Signature where
  owner : ClassName
  sub : SubSignature
  deriving DecidableEq

/-! ## Order -/

instance : Ord SubSignature :=
  ⟨compareLex (compareOn SubSignature.name) (compareOn SubSignature.descriptor)⟩

instance : TransOrd SubSignature :=
  inferInstanceAs (TransCmp (compareLex (compareOn SubSignature.name)
    (compareOn SubSignature.descriptor)))

instance : LawfulEqOrd SubSignature where
  eq_of_compare {a b} h := by
    obtain ⟨hn, hd⟩ := Ordering.then_eq_eq.1 h
    have hn : a.name = b.name := LawfulEqCmp.compare_eq_iff_eq.1 hn
    have hd : a.descriptor = b.descriptor := LawfulEqCmp.compare_eq_iff_eq.1 hd
    cases a
    cases b
    simp_all

instance : Ord Signature := ⟨compareLex (compareOn Signature.owner) (compareOn Signature.sub)⟩

instance : TransOrd Signature :=
  inferInstanceAs (TransCmp (compareLex (compareOn Signature.owner) (compareOn Signature.sub)))

instance : LawfulEqOrd Signature where
  eq_of_compare {a b} h := by
    obtain ⟨ho, hs⟩ := Ordering.then_eq_eq.1 h
    have ho : a.owner = b.owner := LawfulEqCmp.compare_eq_iff_eq.1 ho
    have hs : a.sub = b.sub := LawfulEqCmp.compare_eq_iff_eq.1 hs
    cases a
    cases b
    simp_all

/-! ## The written form -/

/-- The name followed by the descriptor. -/
def SubSignature.text (s : SubSignature) : String := s.name ++ s.descriptor

/-- The types that the descriptor stands for. -/
def SubSignature.types (s : SubSignature) : Except DescriptorError MethodDescriptor :=
  MethodDescriptor.parse s.descriptor

namespace Signature

/-- The class, a dot, the name and the descriptor. -/
def text (s : Signature) : String := s.owner ++ "." ++ s.sub.text

/-- The same sub-signature in another class. -/
def rebase (s : Signature) (owner : ClassName) : Signature := { s with owner }

/-! ## Reading -/

/-- Why a text is not a method signature. -/
inductive Error where
  /-- There is no opening parenthesis. -/
  | noDescriptor (text : String)
  /-- There is no dot before the descriptor. -/
  | noClass (text : String)
  /-- The class or the method has an empty name. -/
  | emptyName (text : String)
  /-- What begins with the first parenthesis is not a descriptor. -/
  | badDescriptor (text : String) (error : DescriptorError)
  deriving DecidableEq

/-- The error alone, without what caused it. -/
def Error.summary : Error → String
  | noDescriptor text => s!"missing descriptor in method signature `{text}`"
  | noClass text => s!"missing declaring class in method signature `{text}`"
  | emptyName text => s!"empty class or method name in method signature `{text}`"
  | badDescriptor text _ => s!"invalid method signature `{text}`"

/-- The error and what caused it, outermost first. -/
def Error.causes : Error → List String
  | badDescriptor text error => (badDescriptor text error).summary :: error.causes
  | error => [error.summary]

end Signature

/-- Read a method signature. The descriptor begins at the first opening parenthesis, the name after
the last dot before it. -/
def Signature.parse (text : String) : Except Signature.Error Signature :=
  let qualified := text.toList.takeWhile (· != '(')
  let descriptor := text.toList.dropWhile (· != '(')
  if descriptor = [] then .error (.noDescriptor text)
  else
    match splitLast? '.' qualified with
    | none => .error (.noClass text)
    | some (owner, name) =>
      if owner = [] ∨ name = [] then .error (.emptyName text)
      else
        match MethodDescriptor.parse (String.ofList descriptor) with
        | .error error => .error (.badDescriptor text error)
        | .ok _ =>
          .ok ⟨String.ofList owner, String.ofList name, String.ofList descriptor⟩

end DispatchGraph
