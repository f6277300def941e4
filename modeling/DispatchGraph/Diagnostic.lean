import DispatchGraph.Signature

/-!
# Diagnostics

What a run reports about itself: warnings about calls and classes that it could not follow, and
progress for whoever asks for it. A diagnostic has a level, a message and named fields
(`Diagnostic.level`, `Diagnostic.message`, `Diagnostic.fields`).
-/

namespace DispatchGraph

/-- Why a call has no target. -/
inductive Unresolved where
  /-- The class that the call names is not declared. -/
  | classMissing
  /-- A class on the way up is not declared. -/
  | ancestorMissing (ancestor : ClassName)
  /-- The way up comes back to a class. -/
  | cycle (ancestor : ClassName)
  /-- The way up ends without a declaration of the method. -/
  | noImplementation
  deriving DecidableEq

/-- A diagnostic. -/
inductive Diagnostic where
  /-- A class that is declared already was declared again. -/
  | duplicateClass (name : ClassName)
  /-- A document was loaded. -/
  | loaded (path : String) (classes : Nat)
  /-- A method that is not declared was visited. -/
  | methodMissing (method : Signature)
  /-- A call has no target. -/
  | unresolved (call : Signature) (cause : Unresolved)
  /-- The class that declares a target is unknown to the hierarchy. -/
  | outsideHierarchy (target : Signature)
  /-- A subtype that the hierarchy lists is not declared. -/
  | subtypeMissing (name : ClassName)
  /-- A method was visited. -/
  | processed (method : Signature) (callees : Nat)
  /-- The budget was spent before every method was visited. -/
  | budgetSpent (done pending : Nat)
  /-- There is nothing to start from. -/
  | noEntryPoints
  deriving DecidableEq

/-- How important a diagnostic is. -/
inductive Level where
  | warn | debug
  deriving DecidableEq

/-- The name of a level. -/
def Level.text : Level → String
  | warn => "WARN"
  | debug => "DEBUG"

/-- The value of a field of a diagnostic. -/
inductive FieldValue where
  | text (value : String)
  | count (value : Nat)
  deriving DecidableEq

namespace Diagnostic

/-- The level of a diagnostic. -/
def level : Diagnostic → Level
  | loaded .. => .debug
  | processed .. => .debug
  | _ => .warn

/-- The message of a diagnostic. -/
def message : Diagnostic → String
  | duplicateClass _ => "duplicate class declaration ignored; first declaration wins"
  | loaded .. => "loaded program model"
  | methodMissing _ => "method not found in the program model; treating it as calling nothing"
  | unresolved _ .classMissing =>
    "declared class missing from the program model; call site left unresolved"
  | unresolved _ (.ancestorMissing _) =>
    "ancestor missing from the program model; call site left unresolved"
  | unresolved _ (.cycle _) => "superclass cycle detected while resolving call target"
  | unresolved _ .noImplementation => "no implementation found in the superclass chain"
  | outsideHierarchy _ =>
    "declaring class missing from the type hierarchy; call site left unresolved"
  | subtypeMissing _ => "subtype missing from the program model; skipped"
  | processed .. => "processed method"
  | budgetSpent .. => "method budget exhausted; call graph is partial"
  | noEntryPoints => "no entry points; the call graph will be empty"

/-- The fields of a diagnostic in the order in which they are shown. -/
def fields : Diagnostic → List (String × FieldValue)
  | duplicateClass name => [("class", .text name)]
  | loaded path classes => [("path", .text path), ("classes", .count classes)]
  | methodMissing method => [("method", .text method.text)]
  | unresolved call .classMissing => [("method", .text call.text)]
  | unresolved call (.ancestorMissing ancestor) =>
    [("class", .text ancestor), ("method", .text call.text)]
  | unresolved call (.cycle ancestor) =>
    [("class", .text ancestor), ("method", .text call.text)]
  | unresolved call .noImplementation => [("method", .text call.text)]
  | outsideHierarchy target => [("class", .text target.owner), ("method", .text target.text)]
  | subtypeMissing name => [("class", .text name)]
  | processed method callees => [("method", .text method.text), ("callees", .count callees)]
  | budgetSpent done pending => [("processed", .count done), ("pending", .count pending)]
  | noEntryPoints => []

end Diagnostic

end DispatchGraph
