import DispatchGraph.Proofs.Document
import DispatchGraph.Proofs.Hierarchy
import DispatchGraph.Proofs.Listing

/-!
# What loaded programs hold

Whatever a loader finds on its way, all that it does to the program is to add the classes of
documents that could be read (`OnlyAddsDocuments`): this holds for every list of files, by induction
over the list, and so for a whole loading (`documents_of_loadInputs`). Therefore every class of a
loaded program can stand in signatures, and so can the targets of the calls in it
(`Program.Readable`, `Program.readable_of_loadInputs`).
-/

namespace DispatchGraph

open Relation

/-! ## Loading adds documents -/

/-- One program is the other one with the classes of a document added. -/
def AddsDocument (p q : Program) : Prop :=
  ∃ origin text classes, parseModel text = .ok classes ∧ q = (p.addClasses origin classes).1

/-- All that the step does to the program is to add documents. -/
def OnlyAddsDocuments (step : LoadStep) : Prop :=
  ∀ loaded loaded', step loaded = .ok loaded' →
    ReflTransGen AddsDocument loaded.program loaded'.program

theorem onlyAddsDocuments_loadListed (listing : List Listed) :
    OnlyAddsDocuments (loadListed listing) := by
  intro loaded loaded' h
  induction listing generalizing loaded with
  | nil =>
    obtain rfl := Except.ok.inj h
    exact .refl
  | cons l listing ih =>
    obtain ⟨classes, hread, hrest⟩ := loadListed_cons_eq_ok.1 h
    obtain ⟨-, text, -, hclasses⟩ := Listed.read_eq_ok.1 hread
    exact .head ⟨l.origin, text, classes, hclasses, rfl⟩ (ih _ hrest)

/-- A loaded program is made of documents. -/
theorem documents_of_loadInputs {lookup : String → Except PathError FileNode} {input : String}
    {classpath : List String} {loaded : Loaded}
    (h : loadInputs lookup input classpath = .ok loaded) :
    ReflTransGen AddsDocument .empty loaded.program := by
  rw [loadInputs_eq_listed] at h
  exact onlyAddsDocuments_loadListed _ _ _ h

/-- A single document is loaded. -/
theorem exists_loadInputs_file {lookup : String → Except PathError FileNode} {path text : String}
    {classes : List ClassDecl} (hpath : isModelPath path = true)
    (hlookup : lookup path = .ok (.file text.toUTF8)) (hclasses : parseModel text = .ok classes) :
    ∃ loaded, loadInputs lookup path [] = .ok loaded ∧
      loaded.program = (Program.empty.addClasses .application classes).1 := by
  have hlisting : listInputs lookup path [] = [⟨.application, path, .ok text.toUTF8⟩] := by
    simp [listInputs, listGiven, hlookup, sortedClasspath]
  have hread := Listed.read_document .application hpath hclasses
  refine ⟨Listed.addTo ⟨.application, path, .ok text.toUTF8⟩ classes .empty, ?_, rfl⟩
  rw [loadInputs_eq_listed, hlisting, loadListed_singleton, Listed.load_of_ok hread]

/-! ## Classes of loaded programs -/

namespace Program

/-- Every class of the program can stand in signatures, and so can the targets of its calls. -/
def Readable (p : Program) : Prop := ∀ c ∈ p.classes, c.Readable

theorem mem_classes_addClasses {p : Program} {origin : Origin} {batch : List ClassDecl}
    {c : ClassDecl} (hc : c ∈ (p.addClasses origin batch).1.classes) :
    c ∈ p.classes ∨ c ∈ batch := by
  induction batch generalizing p with
  | nil => exact .inl hc
  | cons b batch ih =>
    rcases ih hc with hc | hc
    · obtain ⟨d, hd, rfl⟩ := List.mem_map.1 hc
      rcases Sorted.mem_of_mem_insert hd with rfl | hd
      · exact .inr List.mem_cons_self
      · exact .inl (List.mem_map_of_mem hd)
    · exact .inr (List.mem_cons_of_mem b hc)

theorem Readable.of_addsDocument {p q : Program} (hp : p.Readable) (hadds : AddsDocument p q) :
    q.Readable := by
  obtain ⟨origin, text, classes, hclasses, rfl⟩ := hadds
  intro c hc
  rcases mem_classes_addClasses hc with hc | hc
  · exact hp c hc
  · exact readable_of_parseModel hclasses c hc

/-- **The classes of a loaded program can stand in signatures.** -/
theorem readable_of_loadInputs {lookup : String → Except PathError FileNode} {input : String}
    {classpath : List String} {loaded : Loaded}
    (h : loadInputs lookup input classpath = .ok loaded) : loaded.program.Readable := by
  have hdocuments : ReflTransGen AddsDocument .empty loaded.program := documents_of_loadInputs h
  generalize loaded.program = p at hdocuments
  induction hdocuments with
  | refl => exact fun c hc => absurd hc List.not_mem_nil
  | tail _ hadds ih => exact ih.of_addsDocument hadds

end Program

end DispatchGraph
