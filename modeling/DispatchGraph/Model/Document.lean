import DispatchGraph.Json.Reader
import DispatchGraph.Model.Decoding
import DispatchGraph.Model.Format

/-!
# Reading model documents

`parseModel` reads a text in four steps, each of which can fail: the text is JSON; the value has the
format of model documents; it decodes, for which the targets of calls must be signatures; and the
declared methods have descriptors that can be read. The first step that fails decides.
-/

namespace DispatchGraph

/-- Why a text is not a model document. -/
inductive ModelError where
  /-- The text is not JSON. -/
  | malformed
  /-- The value does not have the format. -/
  | invalid (violations : List Violation)
  /-- The value cannot be decoded. -/
  | undecodable (error : DecodeError)
  /-- The descriptor of a declared method cannot be read. -/
  | badMethod (method : Signature) (error : DescriptorError)

namespace ModelError

/-- The detail that stands under a syntax error. -/
def syntaxDetail : String := "<json error>"

/-- The error and what caused it, outermost first. -/
def causes : ModelError → List String
  | malformed => ["malformed JSON", syntaxDetail]
  | invalid violations =>
    ["program model violates schema: " ++ "; ".intercalate (violations.map Violation.message)]
  | undecodable error => ["failed to decode program model", error.message]
  | badMethod method error => ("invalid method " ++ method.text) :: error.causes

/-- The error on one line. A syntax error is only named. -/
def summary : ModelError → String
  | malformed => "malformed JSON"
  | error => ": ".intercalate error.causes

end ModelError

/-- The first declared method with a descriptor that cannot be read. -/
def findBadMethod? (classes : List ClassDecl) : Option (Signature × DescriptorError) :=
  (classes.flatMap fun c => c.methods.map fun m => (⟨c.name, m.sub⟩ : Signature)).findSome?
    fun method =>
      match method.sub.types with
      | .ok _ => none
      | .error error => some (method, error)

/-- The classes that a value declares, if it has the format of a model document. -/
def modelOfJson (value : Json) : Except ModelError (List ClassDecl) :=
  match modelSchema.violations value with
  | [] =>
    match Decode.document value with
    | .error error => .error (.undecodable error)
    | .ok classes =>
      match findBadMethod? classes with
      | some (method, error) => .error (.badMethod method error)
      | none => .ok classes
  | violations => .error (.invalid violations)

/-- Read the text of a model document: its classes in order. -/
def parseModel (text : String) : Except ModelError (List ClassDecl) :=
  match Json.parse text with
  | none => .error .malformed
  | some value => modelOfJson value

end DispatchGraph
