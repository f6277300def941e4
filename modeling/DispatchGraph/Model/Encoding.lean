import DispatchGraph.Declaration
import DispatchGraph.Json.Basic

/-!
# Encoding declarations

Classes, methods and statements as JSON values, with every field written: null for what is absent,
the kind of every call, and signatures in their written form.
-/

namespace DispatchGraph

/-- The fields of a call. -/
def Invocation.fields (call : Invocation) : List (String × Json) :=
  [("target", .str call.target.text), ("kind", .str call.kind.text)]

/-- A call by itself. -/
def Invocation.toJson (call : Invocation) : Json := .obj call.fields

/-- The right side of an assignment. -/
def Expression.toJson : Expression → Json
  | invoke call => .obj (("op", .str "invoke") :: call.fields)
  | other => .obj [("op", .str "other")]

/-- A statement says what it is in the field `op`. -/
def Statement.toJson : Statement → Json
  | invoke call => .obj (("op", .str "invoke") :: call.fields)
  | assign localName value =>
    .obj [("op", .str "assign"), ("local", .str localName), ("value", value.toJson)]
  | other => .obj [("op", .str "other")]

/-- The body of a method, null if there is none. -/
def bodyToJson (body : Option (List Statement)) : Json :=
  .ofOption (fun statements => .arr (statements.map Statement.toJson)) body

/-- A method declaration. -/
def MethodDecl.toJson (m : MethodDecl) : Json :=
  .obj [("name", .str m.sub.name), ("descriptor", .str m.sub.descriptor),
    ("static", .bool m.isStatic), ("body", bodyToJson m.body)]

/-- A class declaration. -/
def ClassDecl.toJson (c : ClassDecl) : Json :=
  .obj [("name", .str c.name), ("superclass", .ofOption .str c.superclass),
    ("interfaces", .strings c.interfaces), ("interface", .bool c.isInterface),
    ("methods", .arr (c.methods.map MethodDecl.toJson))]

/-- A model document. -/
def documentToJson (classes : List ClassDecl) : Json :=
  .obj [("classes", .arr (classes.map ClassDecl.toJson))]

end DispatchGraph
