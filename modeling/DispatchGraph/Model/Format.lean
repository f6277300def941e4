import DispatchGraph.Schema.Basic
import DispatchGraph.Statement

/-!
# The format of model documents

A model document lists the classes of a program (`modelSchema`). The parts of a schema stand in the
order in which their violations are reported.
-/

namespace DispatchGraph.Format

/-! ## Names -/

/-- A class name holds no character that would make a signature ambiguous: `^[^.;\[()]+$`. -/
def classNamePattern : Pattern := ⟨[⟨.noneOf ['.', ';', '[', '(', ')'], .atLeastOnce⟩]⟩

/-- A parenthesised part and something after it, on one line. -/
def descriptorPieces : List Piece :=
  [⟨.literal '(', .once⟩, ⟨.any, .many⟩, ⟨.literal ')', .once⟩, ⟨.any, .atLeastOnce⟩]

/-- A descriptor looks like this: `^\(.*\).+$`. -/
def descriptorPattern : Pattern := ⟨descriptorPieces⟩

/-- A signature looks like this: `^[^()]+\.[^.()]+\(.*\).+$`. -/
def signaturePattern : Pattern :=
  ⟨[⟨.noneOf ['(', ')'], .atLeastOnce⟩, ⟨.literal '.', .once⟩,
    ⟨.noneOf ['.', '(', ')'], .atLeastOnce⟩] ++ descriptorPieces⟩

/-- The format of a class name. -/
def className : Schema :=
  .allOf [.minLength 1, .pattern classNamePattern, .type .string]

/-- The format of the target of a call. -/
def signature : Schema := .allOf [.pattern signaturePattern, .type .string]

/-! ## Statements -/

/-- The format of a call. -/
def invoke : Schema :=
  .allOf [
    .property "kind" (.enum (CallKind.all.map CallKind.text)),
    .property "op" (.const "invoke"),
    .property "target" signature,
    .required ["op", "target"],
    .type .object]

/-- The format of a statement that is no call. -/
def other : Schema :=
  .allOf [.property "op" (.const "other"), .required ["op"], .type .object]

/-- The format of an assignment. -/
def assign : Schema :=
  .allOf [
    .property "local" (.type .string),
    .property "op" (.const "assign"),
    .property "value" (.oneOf [invoke, other]),
    .required ["op", "local", "value"],
    .type .object]

/-- The format of a statement. -/
def statement : Schema := .oneOf [invoke, assign, other]

/-! ## Declarations -/

/-- A list of values of one format. -/
def listOf (each : Schema) : Schema := .allOf [.items each, .type .array]

/-- The format of a method declaration. -/
def method : Schema :=
  .allOf [
    .property "body" (.oneOf [listOf statement, .type .null]),
    .property "descriptor" (.allOf [.pattern descriptorPattern, .type .string]),
    .property "name" (.allOf [.minLength 1, .type .string]),
    .property "static" (.type .boolean),
    .required ["name", "descriptor"],
    .type .object]

/-- The format of a class declaration. -/
def classDecl : Schema :=
  .allOf [
    .property "interface" (.type .boolean),
    .property "interfaces" (listOf className),
    .property "methods" (listOf method),
    .property "name" className,
    .property "superclass" (.oneOf [className, .type .null]),
    .required ["name"],
    .type .object]

end DispatchGraph.Format

namespace DispatchGraph

/-- The format of a model document. -/
def modelSchema : Schema :=
  .allOf
    [.property "classes" (Format.listOf Format.classDecl), .required ["classes"], .type .object]

end DispatchGraph
