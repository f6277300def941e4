import DispatchGraph.Construction
import DispatchGraph.Json.Basic

/-!
# SARIF reports

A construction as a log in the static analysis results interchange format, version 2.1.0: one run of
the tool, whose only content is the call graph. Nodes are identified by the texts of their
signatures, edges by their place in the order of edges (`SarifNode`, `SarifEdge`). The label of an
edge lists the kinds of its calls.
-/

namespace DispatchGraph

/-- The name of the tool. -/
def toolName : String := "chagraph"

/-- A node of a SARIF graph. -/
structure SarifNode where
  id : String
  /-- The name of the method, without its class and descriptor. -/
  name : String
  deriving DecidableEq

/-- An edge of a SARIF graph. -/
structure SarifEdge where
  id : String
  label : String
  source : String
  target : String
  deriving DecidableEq

/-- The nodes of a construction in order. -/
def Construction.sarifNodes (c : Construction) : List SarifNode :=
  c.graph.nodes.toList.map fun method => ⟨method.text, method.sub.name⟩

/-- The edges of a construction in order. -/
def Construction.sarifEdges (c : Construction) : List SarifEdge :=
  c.graph.edges.zipIdx.map fun ((caller, callee), index) => {
    id := "e" ++ natText index
    label := ",".intercalate ((c.kindsBetween caller callee).map CallKind.text)
    source := caller.text
    target := callee.text }

/-- A text with its wrapping. -/
def sarifMessage (text : String) : Json := .obj [("text", .str text)]

/-- A node with its logical location. -/
def SarifNode.toJson (n : SarifNode) : Json :=
  .obj [("id", .str n.id), ("location", .obj [("logicalLocations", .arr [.obj
    [("fullyQualifiedName", .str n.id), ("kind", .str "function"), ("name", .str n.name)]])])]

/-- An edge with the identifiers of its ends. -/
def SarifEdge.toJson (e : SarifEdge) : Json :=
  .obj [("id", .str e.id), ("label", sarifMessage e.label), ("sourceNodeId", .str e.source),
    ("targetNodeId", .str e.target)]

/-- The call graph in a SARIF log. -/
def Construction.sarifGraph (c : Construction) : Json :=
  .obj [("description", sarifMessage "CHA call graph"),
    ("edges", .arr (c.sarifEdges.map SarifEdge.toJson)),
    ("nodes", .arr (c.sarifNodes.map SarifNode.toJson))]

/-- How the tool was called. -/
def sarifInvocation (arguments : List String) : Json :=
  .obj [("arguments", .strings arguments), ("commandLine", .str (" ".intercalate arguments)),
    ("executionSuccessful", .bool true)]

/-- The SARIF log of a construction by a tool that was called with the given arguments. -/
def Construction.sarif (c : Construction) (arguments : List String) : Json :=
  .obj [
    ("$schema", .str "https://schemastore.azurewebsites.net/schemas/json/sarif-2.1.0.json"),
    ("runs", .arr [.obj [
      ("graphs", .arr [c.sarifGraph]),
      ("invocations", .arr [sarifInvocation arguments]),
      ("results", .arr []),
      ("tool", .obj [("driver", .obj [("name", .str toolName)])])]]),
    ("version", .str "2.1.0")]

end DispatchGraph
