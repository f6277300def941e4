import DispatchGraph.Program

/-!
# Entry points

Where a program starts if nobody says otherwise: at the static methods of the application's classes
that are named `main`, take an array of strings and return nothing. Interfaces have no entry points.
-/

namespace DispatchGraph

/-- The name of a main method. -/
def mainName : String := "main"

/-- The types of a main method. -/
def mainTypes : MethodDescriptor := ⟨[.array (.object "java/lang/String") 1], .element .void⟩

/-- The sub-signature is that of a main method. -/
def SubSignature.isMain (s : SubSignature) : Bool :=
  s.name = mainName &&
    match s.types with
    | .ok types => types = mainTypes
    | .error _ => false

/-- The main methods of a program, in order. -/
def Program.mainMethods (p : Program) : List Signature :=
  let entries := (p.applicationClasses.filter fun c => !c.isInterface).flatMap fun c =>
    (c.methods.filter fun m => m.isStatic && m.sub.isMain).map fun m => ⟨c.name, m.sub⟩
  entries.mergeSort fun a b => (compare a b).isLE

end DispatchGraph
