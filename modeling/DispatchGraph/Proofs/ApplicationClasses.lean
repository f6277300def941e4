import DispatchGraph.EntryPoint
import DispatchGraph.Model.Encoding
import DispatchGraph.Proofs.Document
import DispatchGraph.Proofs.Extension
import DispatchGraph.Proofs.Listing

/-!
# What belongs to the application

A program that was loaded has, for each name, the first declaration that the listing of its files
holds, with the origin of that file (`find?_of_loadListed`). The files of the input are listed
before those of the classpath, and only they have application origin. So the application is a
function of the input alone: it has the first declarations among the files of the input
(`mem_applicationClasses_iff`). A classpath may declare the same names once more, or add classes of
its own, but it changes neither which classes belong to the application, nor their declarations, nor
the main methods (`application_of_input`).
-/

namespace DispatchGraph

/-! ## The declarations of a listing -/

namespace Listed

/-- The classes that the path declares; none if it cannot be loaded. -/
def classes (l : Listed) : List ClassDecl :=
  match l.read with
  | .ok classes => classes
  | .error _ => []

/-- These classes with the origin of the path. -/
def declarations (l : Listed) : List Declared := l.classes.map fun c => ⟨c, l.origin⟩

theorem classes_of_ok {l : Listed} {classes : List ClassDecl} (hread : l.read = .ok classes) :
    l.classes = classes := by
  rw [Listed.classes, hread]

end Listed

theorem find?_declarations (origin : Origin) (classes : List ClassDecl) (name : ClassName) :
    (classes.map fun c => (⟨c, origin⟩ : Declared)).find? (fun d => d.name = name) =
      (classes.find? fun c => c.name = name).map fun c => ⟨c, origin⟩ :=
  List.find?_map

variable {listing : List Listed} {loaded loaded' : Loaded}

/-- Loading keeps what is declared and takes the first declaration of any other class. -/
theorem find?_of_loadListed (h : loadListed listing loaded = .ok loaded') (name : ClassName) :
    loaded'.program.declared.find? name = (loaded.program.declared.find? name).or
      ((listing.flatMap Listed.declarations).find? fun d => d.name = name) := by
  -- what is declared before the rest of the list is loaded, the first file included, comes first
  induction listing generalizing loaded with
  | nil =>
    obtain rfl := Except.ok.inj h
    rw [List.flatMap_nil, List.find?_nil, Option.or_none]
  | cons l listing ih =>
    obtain ⟨classes, hread, hrest⟩ := loadListed_cons_eq_ok.1 h
    have hprogram : (l.addTo classes loaded).program =
        (loaded.program.addClasses l.origin classes).1 := rfl
    rw [ih hrest, hprogram, Program.find?_addClasses, Option.or_assoc, List.flatMap_cons,
      List.find?_append, Listed.declarations, Listed.classes_of_ok hread, find?_declarations]

theorem flatMap_declarations {origin : Origin} (horigin : ∀ l ∈ listing, l.origin = origin) :
    listing.flatMap Listed.declarations =
      (listing.flatMap Listed.classes).map fun c => ⟨c, origin⟩ := by
  rw [List.map_flatMap]
  refine List.flatMap_congr fun l hl => ?_
  rw [Listed.declarations, horigin l hl]

/-! ## The application -/

/-- The classes that the files of the input declare, in the order of the files. -/
def inputClasses (root : FileNode) (input : String) : List ClassDecl :=
  (listGiven root.lookup .application input).flatMap Listed.classes

/-- The classes that the files of the classpath declare, in the order of the files. -/
def classpathClasses (root : FileNode) (classpath : List String) : List ClassDecl :=
  ((sortedClasspath classpath).flatMap (listGiven root.lookup .library)).flatMap Listed.classes

variable {root : FileNode} {input : String} {classpath classpath' : List String}

/-- The first declaration of a class is looked for in the input, and then in the classpath. -/
theorem find?_of_loadInputs (h : loadInputs root.lookup input classpath = .ok loaded)
    (name : ClassName) :
    loaded.program.declared.find? name =
      (((inputClasses root input).find? fun c => c.name = name).map fun c => ⟨c, .application⟩).or
        (((classpathClasses root classpath).find? fun c => c.name = name).map
          fun c => ⟨c, .library⟩) := by
  have hinput : ∀ l ∈ listGiven root.lookup .application input, l.origin = .application :=
    fun l hl => origin_of_mem_listGiven hl
  have hclasspath : ∀ l ∈ (sortedClasspath classpath).flatMap (listGiven root.lookup .library),
      l.origin = .library := by
    intro l hl
    obtain ⟨path, -, hl⟩ := List.mem_flatMap.1 hl
    exact origin_of_mem_listGiven hl
  have hempty : Loaded.empty.program.declared.find? name = none := rfl
  rw [loadInputs_eq_listed] at h
  rw [find?_of_loadListed h, hempty, Option.none_or, listInputs, List.flatMap_append,
    flatMap_declarations hinput, flatMap_declarations hclasspath, List.find?_append,
    find?_declarations, find?_declarations, inputClasses, classpathClasses]

/-- A class belongs to the application if its declaration is the first one of its name in the
input. -/
theorem mem_applicationClasses_iff (h : loadInputs root.lookup input classpath = .ok loaded)
    {c : ClassDecl} :
    c ∈ loaded.program.applicationClasses ↔
      (inputClasses root input).find? (fun d => d.name = c.name) = some c := by
  rw [Program.mem_applicationClasses, find?_of_loadInputs h]
  cases (inputClasses root input).find? fun d => d.name = c.name with
  | some d => simp
  | none => simp

/-- The application of the program is made of the first declarations in the files of the input. -/
structure ApplicationOf (root : FileNode) (input : String) (p : Program) : Prop where
  /-- A class belongs to it if a file of the input declares it. -/
  mem_iff : ∀ name, (∃ c ∈ p.applicationClasses, c.name = name) ↔
    ∃ l ∈ listGiven root.lookup .application input, ∃ c ∈ l.classes, c.name = name
  /-- The first declaration of a class in the input is the one that it has. -/
  first : ∀ c, c ∈ p.applicationClasses ↔
    (inputClasses root input).find? (fun d => d.name = c.name) = some c
  /-- The declaration of a class of the application is what its name stands for. -/
  class?_eq : ∀ c ∈ p.applicationClasses, p.class? c.name = some c

theorem applicationOf_loadInputs (h : loadInputs root.lookup input classpath = .ok loaded) :
    ApplicationOf root input loaded.program where
  mem_iff := by
    intro name
    have hfiles : (∃ l ∈ listGiven root.lookup .application input, ∃ c ∈ l.classes, c.name = name) ↔
        ∃ c ∈ inputClasses root input, c.name = name := by
      simp only [inputClasses, List.mem_flatMap]
      grind
    rw [hfiles]
    constructor
    · rintro ⟨c, hc, rfl⟩
      exact ⟨c, List.mem_of_find?_eq_some ((mem_applicationClasses_iff h).1 hc), rfl⟩
    · intro hdeclared
      have hfound : ((inputClasses root input).find? fun d => d.name = name).isSome := by
        simpa [List.find?_isSome] using hdeclared
      obtain ⟨c, hc⟩ := Option.isSome_iff_exists.1 hfound
      obtain rfl : c.name = name := by simpa using List.find?_some hc
      exact ⟨c, (mem_applicationClasses_iff h).2 hc, rfl⟩
  first := fun _ => mem_applicationClasses_iff h
  class?_eq := fun _ => Program.class?_of_mem_applicationClasses

theorem applicationClasses_eq (h : loadInputs root.lookup input classpath = .ok loaded)
    (h' : loadInputs root.lookup input classpath' = .ok loaded') :
    loaded.program.applicationClasses = loaded'.program.applicationClasses := by
  -- both are in order of names, and what they hold is said without the classpath
  refine loaded.program.increasing_applicationClasses.ext_mem
    loaded'.program.increasing_applicationClasses fun c => ?_
  rw [mem_applicationClasses_iff h, mem_applicationClasses_iff h']

/-- **The application is that of the input.** Whatever the classpath declares, the classes of the
application, their declarations and the main methods stay as they are. -/
theorem application_of_input (h : loadInputs root.lookup input classpath = .ok loaded)
    (h' : loadInputs root.lookup input classpath' = .ok loaded') :
    loaded.program.applicationClasses = loaded'.program.applicationClasses ∧
      loaded.program.mainMethods = loaded'.program.mainMethods ∧
      ApplicationOf root input loaded.program := by
  have hclasses := applicationClasses_eq h h'
  refine ⟨hclasses, ?_, applicationOf_loadInputs h⟩
  rw [Program.mainMethods, Program.mainMethods, hclasses]

/-- A class with a main method. -/
def startClasses : List ClassDecl :=
  [⟨"App", none, [], false, [⟨⟨mainName, "([Ljava/lang/String;)V"⟩, true, some []⟩]⟩]

/-- Another declaration of that class, and one of a class above it. -/
def shadowedClasses : List ClassDecl :=
  [⟨"App", some "Base", [], false, []⟩, ⟨"Base", none, [], false, []⟩]

def startDocument : String := (documentToJson startClasses).compact

def shadowedDocument : String := (documentToJson shadowedClasses).compact

/-- The document that is shadowed has a path before the other one. -/
def shadowingFiles : FileNode :=
  .directory [("app.json", .file startDocument.toUTF8), ("a.json", .file shadowedDocument.toUTF8)]

theorem parseModel_start : parseModel startDocument = .ok startClasses :=
  parseModel_compact (by decide +kernel)

theorem parseModel_shadowed : parseModel shadowedDocument = .ok shadowedClasses :=
  parseModel_compact (by decide +kernel)

theorem application_of_input_shadowing :
    ∃ loaded loaded', loadInputs shadowingFiles.lookup "app.json" [] = .ok loaded ∧
      loadInputs shadowingFiles.lookup "app.json" ["a.json"] = .ok loaded' ∧
      loaded.program.applicationClasses = loaded'.program.applicationClasses ∧
      loaded.program.mainMethods = loaded'.program.mainMethods ∧
      ApplicationOf shadowingFiles "app.json" loaded.program := by
  have hstart : ∀ l ∈ listGiven shadowingFiles.lookup .application "app.json",
      ∃ classes, l.read = .ok classes := by
    intro l hl
    obtain rfl : l = ⟨.application, "app.json", .ok startDocument.toUTF8⟩ := List.mem_singleton.1 hl
    exact ⟨_, Listed.read_document _ rfl parseModel_start⟩
  have hshadowed : ∀ l ∈ listGiven shadowingFiles.lookup .library "a.json",
      ∃ classes, l.read = .ok classes := by
    intro l hl
    obtain rfl : l = ⟨.library, "a.json", .ok shadowedDocument.toUTF8⟩ := List.mem_singleton.1 hl
    exact ⟨_, Listed.read_document _ rfl parseModel_shadowed⟩
  have hloads : ∀ classpath, classpath ⊆ ["a.json"] →
      ∃ loaded, loadInputs shadowingFiles.lookup "app.json" classpath = .ok loaded := by
    intro classpath hclasspath
    simp only [loadInputs_eq_listed]
    refine loadListed_ok_iff.2 fun l hl => ?_
    rcases mem_listInputs.1 hl with hl | ⟨path, hpath, hl⟩
    · exact hstart l hl
    · obtain rfl : path = "a.json" := List.mem_singleton.1 (hclasspath hpath)
      exact hshadowed l hl
  obtain ⟨loaded, hloaded⟩ := hloads [] (by simp)
  obtain ⟨loaded', hloaded'⟩ := hloads ["a.json"] (by simp)
  exact ⟨loaded, loaded', hloaded, hloaded', application_of_input hloaded hloaded'⟩

end DispatchGraph
