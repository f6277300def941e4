import DispatchGraph.Signature

/-!
# Call graphs

A directed graph over method signatures. Nodes and edges are inserted one at a time; an edge needs
both its ends, and an insertion that lacks one is refused and leaves the graph as it is. Nodes and
edges are listed in order.

* `CallGraph.insert`: one insertion, whether it changed the graph, and when it is refused.
* `CallGraph.build`: a sequence of insertions, without those that are refused.
* `CallGraph.edges`, `callees`, `callers`: the edges, and those of one method.
-/

namespace DispatchGraph

/-- A call graph. -/
structure CallGraph where
  /-- The methods. -/
  nodes : SortedSet Signature
  /-- The methods that a method calls. -/
  successors : SortedMap Signature (SortedSet Signature)
  /-- The number of edges. -/
  edgeCount : Nat
  deriving DecidableEq

/-- An edge was inserted before one of its ends. -/
structure DanglingEdge where
  caller : Signature
  callee : Signature
  deriving DecidableEq

/-- The wording of a refused insertion. -/
def DanglingEdge.message (e : DanglingEdge) : String :=
  "edge " ++ e.caller.text ++ " -> " ++ e.callee.text ++ " added before its endpoints"

/-- A step in building a graph. -/
inductive Insertion where
  | node (method : Signature)
  | edge (caller callee : Signature)
  deriving DecidableEq

namespace CallGraph

/-- The graph without nodes. -/
def empty : CallGraph := ⟨∅, ∅, 0⟩

/-! ## Asking -/

/-- Whether a method is a node. -/
def hasNode (g : CallGraph) (method : Signature) : Bool := method ∈ g.nodes

/-- The methods that a method calls, in order. -/
def callees (g : CallGraph) (caller : Signature) : List Signature :=
  ((g.successors.get? caller).map Sorted.toList).getD []

/-- Whether a method calls another one. -/
def hasEdge (g : CallGraph) (caller callee : Signature) : Bool := callee ∈ g.callees caller

/-- All edges in order, each as caller and callee. -/
def edges (g : CallGraph) : List (Signature × Signature) :=
  g.successors.toList.flatMap fun (caller, callees) =>
    callees.toList.map fun callee => (caller, callee)

/-- The methods that call a method, in order. -/
def callers (g : CallGraph) (callee : Signature) : List Signature :=
  (g.edges.filter fun edge => edge.2 = callee).map Prod.fst

/-- The number of nodes. -/
def nodeCount (g : CallGraph) : Nat := g.nodes.size

/-! ## Inserting -/

/-- Insert a node; whether it is new. -/
def addNode (g : CallGraph) (method : Signature) : CallGraph × Bool :=
  if g.hasNode method then (g, false) else ({ g with nodes := g.nodes.insert method }, true)

/-- Insert an edge between two nodes; whether it is new. -/
def addEdge (g : CallGraph) (caller callee : Signature) : Except DanglingEdge (CallGraph × Bool) :=
  if g.hasNode caller && g.hasNode callee then
    if g.hasEdge caller callee then .ok (g, false)
    else
      let callees := ((g.successors.get? caller).getD ∅).insert callee
      .ok ({ g with
        successors := g.successors.put (caller, callees)
        edgeCount := g.edgeCount + 1 }, true)
  else .error ⟨caller, callee⟩

/-- One insertion; whether it changed the graph. -/
def insert (g : CallGraph) : Insertion → Except DanglingEdge (CallGraph × Bool)
  | .node method => .ok (g.addNode method)
  | .edge caller callee => g.addEdge caller callee

/-- The graph after an insertion, which is the same graph if the insertion is refused. -/
def apply (g : CallGraph) (insertion : Insertion) : CallGraph :=
  match g.insert insertion with
  | .ok (graph, _) => graph
  | .error _ => g

/-- The graph that a sequence of insertions makes. -/
def build (insertions : List Insertion) : CallGraph := insertions.foldl apply empty

end CallGraph

end DispatchGraph
