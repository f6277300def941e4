import DispatchGraph.Construction
import DispatchGraph.Json.Basic

/-!
# Plain reports

A construction as a list of nodes and a list of edges with the kinds of their calls, both in order.
-/

namespace DispatchGraph

/-- An edge and the kinds of the calls that make it. -/
structure EdgeReport where
  caller : Signature
  callee : Signature
  kinds : List CallKind
  deriving DecidableEq

/-- What a plain report says. -/
structure GraphReport where
  complete : Bool
  nodes : List Signature
  edges : List EdgeReport
  deriving DecidableEq

/-- The plain report of a construction. -/
def Construction.report (c : Construction) : GraphReport where
  complete := c.complete
  nodes := c.graph.nodes.toList
  edges := c.graph.edges.map fun (caller, callee) => ⟨caller, callee, c.kindsBetween caller callee⟩

/-- An edge in a plain report. -/
def EdgeReport.toJson (e : EdgeReport) : Json :=
  .obj [("caller", .str e.caller.text), ("callee", .str e.callee.text),
    ("kinds", .strings (e.kinds.map CallKind.text))]

/-- A plain report as a value to be printed. -/
def GraphReport.toJson (r : GraphReport) : Json :=
  .obj [("complete", .bool r.complete), ("nodes", .strings (r.nodes.map Signature.text)),
    ("edges", .arr (r.edges.map EdgeReport.toJson))]

end DispatchGraph
