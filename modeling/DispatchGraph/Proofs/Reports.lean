import DispatchGraph.Json.Printer
import DispatchGraph.Model.Encoding
import DispatchGraph.Report.Graph
import DispatchGraph.Report.Sarif
import DispatchGraph.Proofs.CallKinds
import DispatchGraph.Proofs.CanonicalGraph
import DispatchGraph.Proofs.Provenance

/-!
# What readers of reports learn

A plain report is read with the decoders of model documents (`GraphReport.decode`), and from its
lists the graph (`GraphReport.graph`) and the kinds of the calls (`GraphReport.callKinds`) are built
again. A SARIF log is read down to the nodes and edges of its only graph (`SarifGraph.decode`).

Two things are needed of a construction. Its graph and its kinds must say the same and no more than
their edges do (`Construction.Consistent`), as every run makes them, and its nodes must be readable,
as those of a loaded program are. Then a plain report tells all of a construction
(`Construction.Consistent.toldBy_report`), and the graph of a SARIF log can be followed
(`Construction.Consistent.followable_sarif`). So it is for loaded programs, under every limit
(`Program.reports_of_loaded`).
-/

namespace DispatchGraph

open Std

/-! ## Reading plain reports -/

/-- Read an edge of a plain report. -/
def EdgeReport.decode (value : Json) : Decode.Decoded EdgeReport := do
  let fields ← Decode.record ["caller", "callee", "kinds"] value
  return {
    caller := ← Decode.need Decode.signature fields "caller"
    callee := ← Decode.need Decode.signature fields "callee"
    kinds := ← Decode.need (Decode.list Decode.kind) fields "kinds" }

/-- Read a plain report. -/
def GraphReport.decode (value : Json) : Decode.Decoded GraphReport := do
  let fields ← Decode.record ["complete", "nodes", "edges"] value
  return {
    complete := ← Decode.need Decode.flag fields "complete"
    nodes := ← Decode.need (Decode.list Decode.signature) fields "nodes"
    edges := ← Decode.need (Decode.list EdgeReport.decode) fields "edges" }

theorem EdgeReport.decode_toJson {e : EdgeReport} (hcaller : e.caller.Readable)
    (hcallee : e.callee.Readable) : decode e.toJson = .ok e := by
  have hkinds : Decode.list Decode.kind (.strings (e.kinds.map CallKind.text)) = .ok e.kinds :=
    Decode.list_strings fun kind _ => Decode.kind_text kind
  refine bind_eq_ok.2 ⟨_, rfl, ?_⟩
  refine bind_eq_ok.2 ⟨e.caller, Decode.signature_text hcaller, ?_⟩
  refine bind_eq_ok.2 ⟨e.callee, Decode.signature_text hcallee, ?_⟩
  exact bind_eq_ok.2 ⟨e.kinds, hkinds, rfl⟩

theorem GraphReport.decode_toJson {r : GraphReport} (hnodes : ∀ node ∈ r.nodes, node.Readable)
    (hedges : ∀ edge ∈ r.edges, edge.caller.Readable ∧ edge.callee.Readable) :
    decode r.toJson = .ok r := by
  have hnodes : Decode.list Decode.signature (.strings (r.nodes.map Signature.text)) =
      .ok r.nodes :=
    Decode.list_strings fun node hnode => Decode.signature_text (hnodes node hnode)
  have hedges : Decode.list EdgeReport.decode (.arr (r.edges.map EdgeReport.toJson)) =
      .ok r.edges :=
    Decode.list_map fun edge hedge =>
      EdgeReport.decode_toJson (hedges edge hedge).1 (hedges edge hedge).2
  refine bind_eq_ok.2 ⟨_, rfl, ?_⟩
  refine bind_eq_ok.2 ⟨r.complete, rfl, ?_⟩
  refine bind_eq_ok.2 ⟨r.nodes, hnodes, ?_⟩
  exact bind_eq_ok.2 ⟨r.edges, hedges, rfl⟩

namespace GraphReport

variable {r : GraphReport} {caller callee : Signature} {kind : CallKind}

/-- The graph that a plain report lists. -/
def graph (r : GraphReport) : CallGraph :=
  .build (r.nodes.map .node ++ r.edges.map fun edge => .edge edge.caller edge.callee)

/-- The edges that a plain report lists from one method to another. -/
def between (r : GraphReport) (caller callee : Signature) : List EdgeReport :=
  r.edges.filter fun edge => edge.caller = caller ∧ edge.callee = callee

/-- What a plain report lists as called by a method, with the kinds of the calls. -/
def calleesOf (r : GraphReport) (caller : Signature) : SortedMap Signature (SortedSet CallKind) :=
  let own := r.edges.filter fun edge => edge.caller = caller
  let callees : SortedSet Signature := .ofList (own.map EdgeReport.callee)
  callees.withValues fun callee => .ofList ((r.between caller callee).flatMap EdgeReport.kinds)

/-- The kinds of calls that a plain report lists. -/
def callKinds (r : GraphReport) : CallKinds :=
  let callers : SortedSet Signature := .ofList (r.edges.map EdgeReport.caller)
  callers.withValues r.calleesOf

theorem mem_between {edge : EdgeReport} :
    edge ∈ r.between caller callee ↔
      edge ∈ r.edges ∧ edge.caller = caller ∧ edge.callee = callee := by
  rw [between, List.mem_filter, decide_eq_true_eq]

theorem mem_calleesOf {found : SortedSet CallKind} :
    (callee, found) ∈ r.calleesOf caller ↔
      (∃ edge, edge ∈ r.between caller callee) ∧
        found = .ofList ((r.between caller callee).flatMap EdgeReport.kinds) := by
  rw [calleesOf, SortedMap.mem_withValues, SortedSet.mem_ofList, List.mem_map]
  simp only [List.mem_filter, decide_eq_true_eq, mem_between, and_assoc]

theorem mem_callKinds {callees : SortedMap Signature (SortedSet CallKind)} :
    (caller, callees) ∈ r.callKinds ↔
      (∃ edge ∈ r.edges, edge.caller = caller) ∧ callees = r.calleesOf caller := by
  rw [callKinds, SortedMap.mem_withValues, SortedSet.mem_ofList, List.mem_map]

/-- The kinds between two methods stand at the edges between them. -/
theorem mem_between_callKinds :
    kind ∈ r.callKinds.between caller callee ↔
      ∃ edge ∈ r.between caller callee, kind ∈ edge.kinds := by
  rw [CallKinds.mem_between]
  constructor
  · rintro ⟨callees, hcallees, found, hfound, hkind⟩
    obtain ⟨-, rfl⟩ := mem_callKinds.1 hcallees
    obtain ⟨-, rfl⟩ := mem_calleesOf.1 hfound
    exact List.mem_flatMap.1 (SortedSet.mem_ofList.1 hkind)
  · rintro ⟨edge, hedge, hkind⟩
    obtain ⟨hmem, hcaller, -⟩ := mem_between.1 hedge
    refine ⟨_, mem_callKinds.2 ⟨⟨edge, hmem, hcaller⟩, rfl⟩, _,
      mem_calleesOf.2 ⟨⟨edge, hedge⟩, rfl⟩, ?_⟩
    exact SortedSet.mem_ofList.2 (List.mem_flatMap.2 ⟨edge, hedge, hkind⟩)

theorem proper_callKinds (hkinds : ∀ edge ∈ r.edges, edge.kinds ≠ []) : r.callKinds.Proper where
  callees_ne_nil caller callees hcallees := by
    obtain ⟨⟨edge, hedge, rfl⟩, rfl⟩ := mem_callKinds.1 hcallees
    exact List.ne_nil_of_mem
      (mem_calleesOf.2 ⟨⟨edge, mem_between.2 ⟨hedge, rfl, rfl⟩⟩, rfl⟩)
  kinds_ne_nil caller callees hcallees callee found hfound := by
    obtain ⟨-, rfl⟩ := mem_callKinds.1 hcallees
    obtain ⟨⟨edge, hedge⟩, rfl⟩ := mem_calleesOf.1 hfound
    obtain ⟨kind, hkind⟩ := List.exists_mem_of_ne_nil _ (hkinds edge (mem_between.1 hedge).1)
    exact List.ne_nil_of_mem (SortedSet.mem_ofList.2 (List.mem_flatMap.2 ⟨edge, hedge, hkind⟩))

end GraphReport

/-! ## Reading SARIF logs -/

/-- The nodes and edges of a SARIF graph. -/
structure SarifGraph where
  nodes : List SarifNode
  edges : List SarifEdge
  deriving DecidableEq

namespace Decode

/-- Decode a field of an object. -/
def field {α : Type} (name : String) (decode : Json → Decoded α) (value : Json) : Decoded α :=
  match value.field? name with
  | some content => decode content
  | none => .error .shape

/-- Decode the only item of a list. -/
def only {α : Type} (decode : Json → Decoded α) : Json → Decoded α
  | .arr [item] => decode item
  | _ => .error .shape

end Decode

/-- Read a node of a SARIF graph. -/
def SarifNode.decode (value : Json) : Decode.Decoded SarifNode := do
  let location := Decode.field "logicalLocations" (Decode.only (Decode.field "name" Decode.text))
  return {
    id := ← Decode.field "id" Decode.text value
    name := ← Decode.field "location" location value }

/-- Read an edge of a SARIF graph. -/
def SarifEdge.decode (value : Json) : Decode.Decoded SarifEdge := do
  return {
    id := ← Decode.field "id" Decode.text value
    label := ← Decode.field "label" (Decode.field "text" Decode.text) value
    source := ← Decode.field "sourceNodeId" Decode.text value
    target := ← Decode.field "targetNodeId" Decode.text value }

namespace SarifGraph

/-- Read a SARIF graph. -/
def decodeGraph (value : Json) : Decode.Decoded SarifGraph := do
  return {
    nodes := ← Decode.field "nodes" (Decode.list SarifNode.decode) value
    edges := ← Decode.field "edges" (Decode.list SarifEdge.decode) value }

/-- Read the graph of a SARIF log that has one run with one graph. -/
def decode (value : Json) : Decode.Decoded SarifGraph :=
  Decode.field "runs" (Decode.only (Decode.field "graphs" (Decode.only decodeGraph))) value

/-- The identifiers of the nodes. -/
def nodeIds (g : SarifGraph) : List String := g.nodes.map SarifNode.id

/-- Identifiers tell nodes and edges apart, the ends of edges are nodes, and edges have labels. -/
structure Followable (g : SarifGraph) : Prop where
  nodup_nodeIds : g.nodeIds.Nodup
  nodup_edgeIds : (g.edges.map SarifEdge.id).Nodup
  /-- An edge starts at one node. -/
  count_source : ∀ edge ∈ g.edges, g.nodeIds.count edge.source = 1
  /-- An edge ends at one node. -/
  count_target : ∀ edge ∈ g.edges, g.nodeIds.count edge.target = 1
  label_ne : ∀ edge ∈ g.edges, edge.label ≠ ""

end SarifGraph

theorem natText_injective : Function.Injective natText := by
  intro m n h
  have hdigits : Nat.toDigits 10 m = Nat.toDigits 10 n := String.ofList_injective h
  rw [← Nat.ofDigitChars_ten_toDigits (n := m), hdigits, Nat.ofDigitChars_ten_toDigits]

theorem CallKind.text_ne (kind : CallKind) : kind.text ≠ "" := by
  cases kind <;> decide

theorem CallKind.intercalate_text_ne {kinds : List CallKind} (hkinds : kinds ≠ []) :
    ",".intercalate (kinds.map text) ≠ "" := by
  obtain ⟨kind, rest, rfl⟩ := List.exists_cons_of_ne_nil hkinds
  rw [List.map_cons]
  by_cases hrest : rest.map text = []
  · rw [hrest, String.intercalate_singleton]
    exact kind.text_ne
  · rw [String.intercalate_cons_of_ne_nil hrest]
    simp [kind.text_ne]

theorem Construction.decode_sarif (c : Construction) (arguments : List String) :
    SarifGraph.decode (c.sarif arguments) = .ok ⟨c.sarifNodes, c.sarifEdges⟩ := by
  have hnodes : Decode.list SarifNode.decode (.arr (c.sarifNodes.map SarifNode.toJson)) =
      .ok c.sarifNodes := Decode.list_map fun node _ => rfl
  have hedges : Decode.list SarifEdge.decode (.arr (c.sarifEdges.map SarifEdge.toJson)) =
      .ok c.sarifEdges := Decode.list_map fun edge _ => rfl
  exact bind_eq_ok.2 ⟨_, hnodes, bind_eq_ok.2 ⟨_, hedges, rfl⟩⟩

/-! ## Reports of constructions -/

namespace Construction

variable {c : Construction}

/-- The graph and the kinds of a construction have the same edges and hold no more than those. -/
structure Consistent (c : Construction) : Prop where
  canonical : c.graph.Canonical
  proper : c.callKinds.Proper
  mem_callees_iff : ∀ caller callee,
    callee ∈ c.graph.callees caller ↔ c.kindsBetween caller callee ≠ []

/-- A plain report tells all of a construction, with the nodes and the edges in order. -/
structure ToldBy (c : Construction) (r : GraphReport) : Prop where
  complete_eq : r.complete = c.complete
  graph_eq : r.graph = c.graph
  callKinds_eq : r.callKinds = c.callKinds
  increasing_nodes : Increasing id r.nodes
  pairwise_edges : r.edges.Pairwise fun a b =>
    CallGraph.EdgeBefore (a.caller, a.callee) (b.caller, b.callee)

/-- What readers of the reports of a construction learn. -/
structure FaithfullyReported (c : Construction) : Prop where
  /-- Every node is read back from its written form. -/
  parse_node : ∀ node ∈ c.graph.nodes, Signature.parse node.text = .ok node
  /-- The graph of the SARIF log has the nodes and edges of the construction and can be followed. -/
  sarif : ∀ arguments, ∃ g, SarifGraph.decode (c.sarif arguments) = .ok g ∧ g.Followable ∧
    g.nodeIds = c.graph.nodes.toList.map Signature.text ∧
    g.edges.map (fun edge => (edge.source, edge.target)) =
      c.graph.edges.map fun edge => (edge.1.text, edge.2.text)
  /-- The plain report can be read and tells all of the construction. -/
  report : ∃ r, GraphReport.decode c.report.toJson = .ok r ∧ c.ToldBy r

theorem mem_edges_report {edge : EdgeReport} :
    edge ∈ c.report.edges ↔ edge.callee ∈ c.graph.callees edge.caller ∧
      edge.kinds = c.kindsBetween edge.caller edge.callee := by
  obtain ⟨caller, callee, kinds⟩ := edge
  simp only [report, List.mem_map, Prod.exists, CallGraph.mem_edges, EdgeReport.mk.injEq]
  constructor
  · rintro ⟨a, b, hedge, rfl, rfl, rfl⟩
    exact ⟨hedge, rfl⟩
  · rintro ⟨hedge, rfl⟩
    exact ⟨caller, callee, hedge, rfl, rfl, rfl⟩

theorem Consistent.graph_report (hc : c.Consistent) : c.report.graph = c.graph := by
  rw [GraphReport.graph, report, List.map_map]
  exact hc.canonical.build_eq

theorem Consistent.callKinds_report (hc : c.Consistent) : c.report.callKinds = c.callKinds := by
  have hkinds : ∀ edge ∈ c.report.edges, edge.kinds ≠ [] := by
    intro edge hedge
    obtain ⟨hcallee, hkinds⟩ := mem_edges_report.1 hedge
    rw [hkinds]
    exact (hc.mem_callees_iff _ _).1 hcallee
  refine (GraphReport.proper_callKinds hkinds).ext hc.proper fun caller callee kind => ?_
  rw [GraphReport.mem_between_callKinds]
  constructor
  · rintro ⟨edge, hedge, hkind⟩
    obtain ⟨hmem, rfl, rfl⟩ := GraphReport.mem_between.1 hedge
    rwa [(mem_edges_report.1 hmem).2] at hkind
  · intro hkind
    have hcallee : callee ∈ c.graph.callees caller :=
      (hc.mem_callees_iff caller callee).2 (List.ne_nil_of_mem hkind)
    exact ⟨⟨caller, callee, c.kindsBetween caller callee⟩,
      GraphReport.mem_between.2 ⟨mem_edges_report.2 ⟨hcallee, rfl⟩, rfl, rfl⟩, hkind⟩

/-- **A plain report tells all of a construction.** -/
theorem Consistent.toldBy_report (hc : c.Consistent) : c.ToldBy c.report where
  complete_eq := rfl
  graph_eq := hc.graph_report
  callKinds_eq := hc.callKinds_report
  increasing_nodes := c.graph.nodes.increasing
  pairwise_edges := List.pairwise_map.2 c.graph.pairwise_edges

theorem Consistent.decode_report (hc : c.Consistent)
    (hnodes : ∀ node ∈ c.graph.nodes, node.Readable) :
    GraphReport.decode c.report.toJson = .ok c.report := by
  refine GraphReport.decode_toJson hnodes fun edge hedge => ?_
  obtain ⟨hcaller, hcallee⟩ :=
    hc.canonical.ends_mem edge.caller edge.callee (mem_edges_report.1 hedge).1
  exact ⟨hnodes edge.caller hcaller, hnodes edge.callee hcallee⟩

theorem map_id_sarifNodes :
    c.sarifNodes.map SarifNode.id = c.graph.nodes.toList.map Signature.text :=
  List.map_map

theorem map_ends_sarifEdges :
    c.sarifEdges.map (fun edge => (edge.source, edge.target)) =
      c.graph.edges.map fun edge => (edge.1.text, edge.2.text) := by
  conv_rhs => rw [← List.zipIdx_map_fst 0 c.graph.edges, List.map_map]
  exact List.map_map

theorem nodup_id_sarifEdges : (c.sarifEdges.map SarifEdge.id).Nodup := by
  have hids : c.sarifEdges.map SarifEdge.id =
      (List.range' 0 c.graph.edges.length).map fun index => "e" ++ natText index := by
    rw [← List.zipIdx_map_snd 0 c.graph.edges, List.map_map]
    exact List.map_map
  rw [hids]
  refine List.Nodup.map (fun m n h => ?_) (List.nodup_range' ..)
  exact natText_injective ((String.append_right_inj "e").1 h)

theorem exists_of_mem_sarifEdges {edge : SarifEdge} (hedge : edge ∈ c.sarifEdges) :
    ∃ caller callee, callee ∈ c.graph.callees caller ∧
      edge.label = ",".intercalate ((c.kindsBetween caller callee).map CallKind.text) ∧
      edge.source = caller.text ∧ edge.target = callee.text := by
  obtain ⟨⟨⟨caller, callee⟩, index⟩, hmem, rfl⟩ := List.mem_map.1 hedge
  exact ⟨caller, callee, CallGraph.mem_edges.1 (List.fst_mem_of_mem_zipIdx hmem), rfl, rfl, rfl⟩

/-- **The graph of a SARIF log can be followed.** -/
theorem Consistent.followable_sarif (hc : c.Consistent)
    (hnodes : ∀ node ∈ c.graph.nodes, node.Readable) :
    SarifGraph.Followable ⟨c.sarifNodes, c.sarifEdges⟩ := by
  have hnodup : (c.sarifNodes.map SarifNode.id).Nodup := by
    rw [map_id_sarifNodes]
    exact c.graph.nodes.nodup_toList.map_on fun a ha b hb htext =>
      (hnodes a ha).text_inj (hnodes b hb) htext
  have hone : ∀ node ∈ c.graph.nodes, (c.sarifNodes.map SarifNode.id).count node.text = 1 := by
    intro node hnode
    refine List.count_eq_one_of_mem hnodup ?_
    rw [map_id_sarifNodes]
    exact List.mem_map_of_mem hnode
  refine ⟨hnodup, nodup_id_sarifEdges, fun edge hedge => ?_, fun edge hedge => ?_,
    fun edge hedge => ?_⟩
  all_goals
    obtain ⟨caller, callee, hcallee, hlabel, hsource, htarget⟩ := exists_of_mem_sarifEdges hedge
  · rw [hsource]
    exact hone caller (hc.canonical.ends_mem caller callee hcallee).1
  · rw [htarget]
    exact hone callee (hc.canonical.ends_mem caller callee hcallee).2
  · rw [hlabel]
    exact CallKind.intercalate_text_ne ((hc.mem_callees_iff caller callee).1 hcallee)

end Construction

namespace Program

variable {p : Program} {h : Hierarchy} {entries : List Signature} {limit : Option Nat}

theorem consistent_construct : (p.construct h entries limit).Consistent where
  canonical := CallGraph.canonical_build _
  proper := proper_callKinds_construct
  mem_callees_iff _ _ := CallGraph.hasEdge_iff.symm.trans hasEdge_construct_iff_kinds

/-- The nodes of a loaded program's call graph are readable if its entry points are main methods or
were read. -/
theorem readable_nodes_of_loadInputs {lookup : String → Except PathError FileNode} {input : String}
    {classpath : List String} {loaded : Loaded}
    (hload : loadInputs lookup input classpath = .ok loaded)
    (hentries : ∀ entry ∈ entries,
      entry ∈ loaded.program.mainMethods ∨ ∃ text, Signature.parse text = .ok entry)
    {node : Signature} (hnode : node ∈ (loaded.program.construct h entries limit).graph.nodes) :
    node.Readable := by
  have hp : loaded.program.Readable := readable_of_loadInputs hload
  refine hp.of_mem_nodes (fun entry hentry => ?_) hnode
  rcases hentries entry hentry with hmain | ⟨text, hparse⟩
  · exact hp.of_mem_mainMethods hmain
  · exact (Signature.readable_of_parse hparse).2

/-- **Reports of a loaded program are well formed and lose nothing**, under every limit, if its
entry points are main methods or signatures that were read. -/
theorem reports_of_loaded {lookup : String → Except PathError FileNode} {input : String}
    {classpath : List String} {loaded : Loaded}
    (hload : loadInputs lookup input classpath = .ok loaded) {entries : List Signature}
    (hentries : ∀ entry ∈ entries,
      entry ∈ loaded.program.mainMethods ∨ ∃ text, Signature.parse text = .ok entry)
    (h : Hierarchy) (limit : Option Nat) :
    (loaded.program.construct h entries limit).FaithfullyReported := by
  have hc : (loaded.program.construct h entries limit).Consistent := consistent_construct
  have hnodes : ∀ node ∈ (loaded.program.construct h entries limit).graph.nodes, node.Readable :=
    fun node hnode => readable_nodes_of_loadInputs hload hentries hnode
  exact {
    parse_node := fun node hnode => (hnodes node hnode).parse_text
    sarif := fun arguments => ⟨_, Construction.decode_sarif _ arguments, hc.followable_sarif hnodes,
      Construction.map_id_sarifNodes, Construction.map_ends_sarifEdges⟩
    report := ⟨_, hc.decode_report hnodes, hc.toldBy_report⟩ }

/-- Two classes. One of them overrides what the main method of the other one calls. -/
def overridingClasses : List ClassDecl :=
  [⟨"Base", none, [], false, [
      ⟨⟨mainName, "([Ljava/lang/String;)V"⟩, true,
        some [.invoke ⟨⟨"Base", "run", "()V"⟩, .virtual⟩]⟩,
      ⟨⟨"run", "()V"⟩, false, some []⟩]⟩,
    ⟨"Leaf", some "Base", [], false, [⟨⟨"run", "()V"⟩, false, some []⟩]⟩]

/-- The document of these classes. -/
def overridingDocument : String := (documentToJson overridingClasses).compact

/-- A directory that holds this document only. -/
def overridingFiles : FileNode := .directory [("model.json", .file overridingDocument.toUTF8)]

/-- A main method and a method that is given by its written form. -/
def overridingEntries : List Signature :=
  [⟨"Base", mainName, "([Ljava/lang/String;)V"⟩, ⟨"Leaf", "run", "()V"⟩]

theorem parseModel_overriding : parseModel overridingDocument = .ok overridingClasses :=
  parseModel_compact (by decide +kernel)

theorem reports_of_loaded_overriding :
    ∃ loaded, loadInputs overridingFiles.lookup "model.json" [] = .ok loaded ∧
      (∀ entry ∈ overridingEntries,
        entry ∈ loaded.program.mainMethods ∨ ∃ text, Signature.parse text = .ok entry) ∧
      (loaded.program.construct loaded.program.hierarchy overridingEntries
        (some 1)).FaithfullyReported := by
  have hlookup : overridingFiles.lookup "model.json" = .ok (.file overridingDocument.toUTF8) := rfl
  obtain ⟨loaded, hload, hprogram⟩ := exists_loadInputs_file rfl hlookup parseModel_overriding
  have hentries : ∀ entry ∈ overridingEntries,
      entry ∈ loaded.program.mainMethods ∨ ∃ text, Signature.parse text = .ok entry := by
    simp only [overridingEntries, List.forall_mem_cons]
    refine ⟨.inl ?_, .inr ⟨"Leaf.run()V", eq_ok_of_toOption ?_⟩, by simp⟩
    · rw [hprogram, mainMethods, List.mem_mergeSort]
      decide +kernel
    · decide +kernel
  exact ⟨loaded, hload, hentries, reports_of_loaded hload hentries _ _⟩

end Program

end DispatchGraph
