import DispatchGraph.Declaration
import DispatchGraph.Json.Basic

/-!
# Decoding declarations

Classes, methods and statements from JSON values. Decoding looks only at the fields that it needs;
the format of whole documents is checked apart from it. A record, except for a method, may also be
written as the list of its fields in order, where the last ones may be left out if they have
defaults. A statement says what it is in its first field, `op`. The right side of an assignment does
so too, and may give its place among the alternatives in place of a name.
-/

namespace DispatchGraph

/-- Why a value cannot be decoded. -/
inductive DecodeError where
  /-- A field is missing or of the wrong kind. -/
  | shape
  /-- The target of a call is not a signature. -/
  | target (error : Signature.Error)
  deriving DecidableEq

/-- The wording of an error. -/
def DecodeError.message : DecodeError → String
  | shape => "unexpected shape"
  | target error => error.summary

namespace Decode

/-- The result of decoding. -/
abbrev Decoded (α : Type) := Except DecodeError α

/-! ## Fields -/

/-- The fields of a record that is written as an object, or as a list in the order of `names`. -/
def record (names : List String) : Json → Decoded (List (String × Json))
  | .obj fields => .ok fields
  | .arr items => if items.length ≤ names.length then .ok (names.zip items) else .error .shape
  | _ => .error .shape

/-- The value of a field. -/
def lookup (fields : List (String × Json)) (name : String) : Option Json :=
  (fields.find? fun field => field.1 = name).map Prod.snd

/-- Decode a field that must be there. -/
def need {α : Type} (decode : Json → Decoded α) (fields : List (String × Json)) (name : String) :
    Decoded α :=
  match lookup fields name with
  | some value => decode value
  | none => .error .shape

/-- Decode a field that has a default. -/
def want {α : Type} (default : α) (decode : Json → Decoded α) (fields : List (String × Json))
    (name : String) : Decoded α :=
  match lookup fields name with
  | some value => decode value
  | none => .ok default

/-! ## Plain values -/

/-- A string. -/
def text : Json → Decoded String
  | .str value => .ok value
  | _ => .error .shape

/-- A Boolean. -/
def flag : Json → Decoded Bool
  | .bool value => .ok value
  | _ => .error .shape

/-- A value that may be null. -/
def optional {α : Type} (decode : Json → Decoded α) : Json → Decoded (Option α)
  | .null => .ok none
  | value => (decode value).map some

/-- A list; the first item that fails decides. -/
def list {α : Type} (decode : Json → Decoded α) : Json → Decoded (List α)
  | .arr items => items.mapM decode
  | _ => .error .shape

/-! ## Statements -/

/-- A signature in its written form. -/
def signature : Json → Decoded Signature
  | .str text => (Signature.parse text).mapError .target
  | _ => .error .shape

/-- A kind by its name. -/
def kindNamed (name : String) : Decoded CallKind :=
  match CallKind.ofText? name with
  | some kind => .ok kind
  | none => .error .shape

/-- A kind by itself: its name, or an object whose only field has that name and is null. -/
def kind : Json → Decoded CallKind
  | .str name => kindNamed name
  | .obj [(name, .null)] => kindNamed name
  | _ => .error .shape

/-- The kind of a call. The only field of an object may be an empty object here. -/
def callKind : Json → Decoded CallKind
  | .obj [(name, .obj [])] => kindNamed name
  | value => kind value

/-- A call. Without a kind it is a virtual one. -/
def invocation (value : Json) : Decoded Invocation := do
  let fields ← record ["target", "kind"] value
  return ⟨← need signature fields "target", ← want .virtual callKind fields "kind"⟩

/-- What a value is, as `choice` reads it, and the rest of the value. -/
def tagged (choice : Json → Decoded String) : Json → Decoded (String × Json)
  | .obj fields => do return (← need choice fields "op", .obj fields)
  | .arr (op :: items) => do return (← choice op, .arr items)
  | _ => .error .shape

/-- One of several alternatives, by its name or by its place among them, counted from zero. -/
def nameOrPlace (alternatives : List String) (value : Json) : Decoded String :=
  match value.nat? with
  | none => text value
  | some place =>
    match alternatives[place]? with
    | some name => .ok name
    | none => .error .shape

/-- The right side of an assignment: a call, or something else. -/
def expression (value : Json) : Decoded Expression := do
  match ← tagged (nameOrPlace ["invoke", "other"]) value with
  | ("invoke", content) => return .invoke (← invocation content)
  | ("other", content) => do
    let _ ← record [] content
    return .other
  | _ => .error .shape

/-- A statement of a body. -/
def statement (value : Json) : Decoded Statement := do
  match ← tagged text value with
  | ("invoke", content) => return .invoke (← invocation content)
  | ("assign", content) => do
    let fields ← record ["local", "value"] content
    return .assign (← need text fields "local") (← need expression fields "value")
  | ("other", content) => do
    let _ ← record [] content
    return .other
  | _ => .error .shape

/-! ## Declarations -/

/-- A method declaration. Its name and descriptor must be there; without a body it is abstract. -/
def method : Json → Decoded MethodDecl
  | .obj fields => do
    return {
      sub := ⟨← need text fields "name", ← need text fields "descriptor"⟩
      isStatic := ← want false flag fields "static"
      body := ← want none (optional (list statement)) fields "body" }
  | _ => .error .shape

/-- A class declaration. Only its name must be there. -/
def classDecl (value : Json) : Decoded ClassDecl := do
  let fields ← record ["name", "superclass", "interfaces", "interface", "methods"] value
  return {
    name := ← need text fields "name"
    superclass := ← want none (optional text) fields "superclass"
    interfaces := ← want [] (list text) fields "interfaces"
    isInterface := ← want false flag fields "interface"
    methods := ← want [] (list method) fields "methods" }

/-- The classes of a model document. -/
def document (value : Json) : Decoded (List ClassDecl) := do
  need (list classDecl) (← record ["classes"] value) "classes"

end Decode

end DispatchGraph
