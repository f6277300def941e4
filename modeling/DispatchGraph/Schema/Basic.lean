import DispatchGraph.Json.Printer
import DispatchGraph.Schema.Pattern

/-!
# Schemas of JSON documents

A schema describes a set of JSON values. Checking a value against it gives all its violations in
order (`Schema.violations`); a value is admitted if there are none (`Schema.admits`). A condition
says nothing about values of another type than the one it is about. Of alternatives exactly one
has to admit a value, and nothing is reported from inside them.
-/

namespace DispatchGraph

/-- The type of a JSON value, as far as schemas tell them apart. -/
inductive ValueType where
  | array | boolean | null | object | string
  deriving DecidableEq

/-- The name of a type. -/
def ValueType.text : ValueType → String
  | array => "array"
  | boolean => "boolean"
  | null => "null"
  | object => "object"
  | string => "string"

/-- The value has the type. -/
def ValueType.holds : ValueType → Json → Bool
  | array, .arr _ => true
  | boolean, .bool _ => true
  | null, .null => true
  | object, .obj _ => true
  | string, .str _ => true
  | _, _ => false

/-- A schema. -/
inductive Schema where
  /-- The value has a type. -/
  | type (expected : ValueType)
  /-- The value is this text. -/
  | const (expected : String)
  /-- The value is one of these texts. -/
  | enum (expected : List String)
  /-- A text has at least this many characters. -/
  | minLength (least : Nat)
  /-- A text matches a pattern. -/
  | pattern (expected : Pattern)
  /-- An object has these fields. -/
  | required (names : List String)
  /-- Every item of a list satisfies a schema. -/
  | items (each : Schema)
  /-- A field of an object, if there is one of this name, satisfies a schema. -/
  | property (name : String) (schema : Schema)
  /-- Exactly one of the schemas admits the value. -/
  | oneOf (alternatives : List Schema)
  /-- Every one of the schemas admits the value. -/
  | allOf (parts : List Schema)

/-- What is wrong with a value. -/
inductive Violation where
  | wrongType (value : Json) (expected : ValueType)
  | notConst (expected : String)
  | notListed (value : Json) (expected : List String)
  | tooShort (value : Json) (least : Nat)
  | noMatch (value : Json) (expected : Pattern)
  | missing (name : String)
  | noAlternative (value : Json)
  | severalAlternatives (value : Json)

/-- The wording of a violation. -/
def Violation.message : Violation → String
  | wrongType value expected => value.compact ++ " is not of type \"" ++ expected.text ++ "\""
  | notConst expected => (Json.str expected).compact ++ " was expected"
  | notListed value expected =>
    value.compact ++ " is not one of " ++ (Json.strings expected).compact
  | tooShort value least =>
    value.compact ++ " is shorter than " ++ natText least
      ++ (if least = 1 then " character" else " characters")
  | noMatch value expected => value.compact ++ " does not match \"" ++ expected.text ++ "\""
  | missing name => (Json.str name).compact ++ " is a required property"
  | noAlternative value =>
    value.compact ++ " is not valid under any of the schemas listed in the 'oneOf' keyword"
  | severalAlternatives value =>
    value.compact ++ " is valid under more than one of the schemas listed in the 'oneOf' keyword"

namespace Schema

mutual

/-- What is wrong with a value, in order. -/
def violations : Schema → Json → List Violation
  | type expected, value => if expected.holds value then [] else [.wrongType value expected]
  | const expected, value =>
    match value with
    | .str text => if text = expected then [] else [.notConst expected]
    | _ => [.notConst expected]
  | enum expected, value =>
    match value with
    | .str text => if text ∈ expected then [] else [.notListed value expected]
    | _ => [.notListed value expected]
  | minLength least, value =>
    match value with
    | .str text => if text.length < least then [.tooShort value least] else []
    | _ => []
  | pattern expected, value =>
    match value with
    | .str text => if expected.isMatch text then [] else [.noMatch value expected]
    | _ => []
  | required names, value =>
    match value with
    | .obj fields =>
      (names.filter fun name => fields.all fun field => field.1 ≠ name).map .missing
    | _ => []
  | items each, value =>
    match value with
    | .arr values => values.flatMap fun item => each.violations item
    | _ => []
  | property name schema, value =>
    match value.field? name with
    | some field => schema.violations field
    | none => []
  | oneOf alternatives, value =>
    match admitting alternatives value with
    | 0 => [.noAlternative value]
    | 1 => []
    | _ => [.severalAlternatives value]
  | allOf parts, value => allViolations parts value

/-- What is wrong with a value according to any of the schemas, in order. -/
def allViolations : List Schema → Json → List Violation
  | [], _ => []
  | schema :: schemas, value => schema.violations value ++ allViolations schemas value

/-- How many of the schemas admit a value. -/
def admitting : List Schema → Json → Nat
  | [], _ => 0
  | schema :: schemas, value =>
    (if (schema.violations value).isEmpty then 1 else 0) + admitting schemas value

end

/-- Nothing is wrong with the value. -/
def admits (schema : Schema) (value : Json) : Bool := (schema.violations value).isEmpty

end Schema

end DispatchGraph
