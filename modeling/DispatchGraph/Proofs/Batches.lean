import DispatchGraph.Proofs.Extension

/-!
# Programs filled batch by batch

Classes are added to a program in batches, each of one origin (`Program.addBatches`). What an
addition does depends on the declarations before it and not on how they were batched: the program
is made of the first declaration of each name (`Program.ofDeclarations`), and every other
declaration has been reported (`Program.repeatReports`). One addition keeps this
(`Program.addClass_ofDeclarations`, `Program.repeatReports_concat`), so a batch keeps it, and a
sequence of batches (`Program.addBatches_empty`). Hence lookups, the application, the number of
classes and the reports can be read off the declarations (`Program.addBatches_firstWins`).
-/

namespace DispatchGraph

/-! ## Batches -/

/-- Classes of one origin that are added together. -/
structure Batch where
  origin : Origin
  classes : List ClassDecl
  deriving DecidableEq

namespace Batch

/-- The classes with the origin of the batch. -/
def declarations (b : Batch) : List Declared := b.classes.map fun c => ⟨c, b.origin⟩

/-- A class of the batch has the name. -/
def declares (b : Batch) (name : ClassName) : Bool := b.classes.any fun c => c.name = name

theorem map_decl_declarations (b : Batch) : b.declarations.map Declared.decl = b.classes := by
  rw [declarations, List.map_map]
  exact List.map_id _

/-- The first declaration of a name in a batch has the origin of the batch. -/
theorem map_origin_find?_declarations (b : Batch) (name : ClassName) :
    (b.declarations.find? fun d => d.name = name).map Declared.origin =
      if b.declares name then some b.origin else none := by
  have hfound : (b.classes.find? fun c => c.name = name).isSome = b.declares name := by
    rw [Bool.eq_iff_iff, List.find?_isSome, declares, List.any_eq_true]
  rw [declarations, List.find?_map, Option.map_map, ← hfound]
  change (b.classes.find? fun c => c.name = name).map (fun _ => b.origin) = _
  cases b.classes.find? fun c => c.name = name with
  | some c => rfl
  | none => rfl

end Batch

/-- The names of the list that stand after the same name, in order, one for each such place. -/
def laterNames (names : List ClassName) : List ClassName :=
  (names.zipIdx.filter fun place => place.1 ∈ names.take place.2).map Prod.fst

theorem laterNames_concat (names : List ClassName) (name : ClassName) :
    laterNames (names ++ [name]) = laterNames names ++ if name ∈ names then [name] else [] := by
  -- the places of the list stay as they are, and all of it comes before the new place
  have hold : (names.zipIdx.filter fun place => place.1 ∈ (names ++ [name]).take place.2) =
      names.zipIdx.filter fun place => place.1 ∈ names.take place.2 := by
    refine List.filter_congr fun place hplace => ?_
    have hlt : place.2 < names.length := List.snd_lt_of_mem_zipIdx hplace
    rw [List.take_append_of_le_length hlt.le]
  rw [laterNames, List.zipIdx_append, List.filter_append, List.map_append, hold, ← laterNames]
  by_cases hname : name ∈ names
  · simp [hname]
  · simp [hname]

namespace Program

/-- Add batches one after the other; the program and what is reported. -/
def addBatches (p : Program) : List Batch → Program × List Diagnostic
  | [] => (p, [])
  | b :: bs =>
    let (added, reported) := p.addClasses b.origin b.classes
    let (filled, rest) := added.addBatches bs
    (filled, reported ++ rest)

/-! ## Declarations in a row -/

/-- The program with the first declaration of each name. -/
def ofDeclarations (ds : List Declared) : Program := ⟨.ofList ds⟩

/-- What is reported about declarations in a row: those whose name has come before. -/
def repeatReports (ds : List Declared) : List Diagnostic :=
  (laterNames (ds.map Declared.name)).map .duplicateClass

variable {ds : List Declared} {name : ClassName}

theorem find?_ofDeclarations (ds : List Declared) (name : ClassName) :
    (ofDeclarations ds).declared.find? name = ds.find? fun d => d.name = name :=
  Sorted.find?_ofList ds name

theorem isSome_class?_ofDeclarations :
    ((ofDeclarations ds).class? name).isSome = true ↔ name ∈ ds.map Declared.name := by
  rw [class?, find?_ofDeclarations, Option.isSome_map, List.find?_isSome]
  simp

theorem addClass_ofDeclarations (ds : List Declared) (origin : Origin) (c : ClassDecl) :
    (ofDeclarations ds).addClass origin c = ofDeclarations (ds ++ [⟨c, origin⟩]) := by
  rw [ofDeclarations, ofDeclarations, Sorted.ofList, Sorted.ofList, List.foldl_concat]
  rfl

theorem repeatReports_concat (ds : List Declared) (origin : Origin) (c : ClassDecl) :
    repeatReports (ds ++ [⟨c, origin⟩]) =
      repeatReports ds ++ (ofDeclarations ds).addClassDiagnostics c := by
  have hnames : (ds ++ [(⟨c, origin⟩ : Declared)]).map Declared.name =
      ds.map Declared.name ++ [c.name] := List.map_append
  rw [repeatReports, hnames, laterNames_concat, List.map_append, addClassDiagnostics, repeatReports]
  congr 1
  by_cases hc : c.name ∈ ds.map Declared.name
  · rw [if_pos hc, if_pos (isSome_class?_ofDeclarations.2 hc)]
    rfl
  · rw [if_neg hc, if_neg fun h => hc (isSome_class?_ofDeclarations.1 h)]
    rfl

/-! ## Batches in a row -/

theorem addClasses_ofDeclarations (ds : List Declared) (b : Batch) :
    ((ofDeclarations ds).addClasses b.origin b.classes).1 = ofDeclarations (ds ++ b.declarations) ∧
      repeatReports ds ++ ((ofDeclarations ds).addClasses b.origin b.classes).2 =
        repeatReports (ds ++ b.declarations) := by
  obtain ⟨origin, classes⟩ := b
  induction classes generalizing ds with
  | nil => simp [addClasses, Batch.declarations]
  | cons c cs ih =>
    -- the rest of the batch comes after the first class as a batch of its own
    obtain ⟨hprogram, hreports⟩ := ih (ds ++ [⟨c, origin⟩])
    have hcons : ds ++ (⟨origin, c :: cs⟩ : Batch).declarations =
        ds ++ [⟨c, origin⟩] ++ (⟨origin, cs⟩ : Batch).declarations := by
      simp [Batch.declarations]
    rw [hcons, ← hprogram, ← hreports, repeatReports_concat]
    simp only [addClasses, addClass_ofDeclarations, List.append_assoc, and_self]

theorem addBatches_ofDeclarations (ds : List Declared) (batches : List Batch) :
    ((ofDeclarations ds).addBatches batches).1 =
        ofDeclarations (ds ++ batches.flatMap Batch.declarations) ∧
      repeatReports ds ++ ((ofDeclarations ds).addBatches batches).2 =
        repeatReports (ds ++ batches.flatMap Batch.declarations) := by
  induction batches generalizing ds with
  | nil => simp [addBatches]
  | cons b batches ih =>
    obtain ⟨hadded, hreported⟩ := addClasses_ofDeclarations ds b
    obtain ⟨hfilled, hrest⟩ := ih (ds ++ b.declarations)
    rw [List.flatMap_cons, ← List.append_assoc, ← hfilled, ← hrest, ← hreported]
    simp only [addBatches, hadded, List.append_assoc, and_self]

/-- Filling a program takes the first declaration of each name and reports the others. -/
theorem addBatches_empty (batches : List Batch) :
    empty.addBatches batches =
      (ofDeclarations (batches.flatMap Batch.declarations),
        repeatReports (batches.flatMap Batch.declarations)) :=
  Prod.ext (addBatches_ofDeclarations [] batches).1 (addBatches_ofDeclarations [] batches).2

/-! ## What the batches make -/

theorem flatMap_classes (batches : List Batch) :
    (batches.flatMap Batch.declarations).map Declared.decl = batches.flatMap Batch.classes := by
  rw [List.map_flatMap]
  exact List.flatMap_congr fun b _ => b.map_decl_declarations

/-- The first declaration of a name has the origin of the first batch that declares the name. -/
theorem map_origin_find?_batches (batches : List Batch) (name : ClassName) :
    ((batches.flatMap Batch.declarations).find? fun d => d.name = name).map Declared.origin =
      (batches.find? fun b => b.declares name).map Batch.origin := by
  induction batches with
  | nil => rfl
  | cons b batches ih =>
    rw [List.flatMap_cons, List.find?_append, Option.map_or, ih, b.map_origin_find?_declarations,
      List.find?_cons]
    cases b.declares name with
    | true => rfl
    | false => rfl

/-- A class belongs to the application if the first batch that declares its name does. -/
theorem mem_application_ofDeclarations {batches : List Batch} :
    name ∈ (ofDeclarations (batches.flatMap Batch.declarations)).applicationClasses.map
        ClassDecl.name ↔
      ∃ b, batches.find? (fun b => b.declares name) = some b ∧ b.origin = .application := by
  have horigin := map_origin_find?_batches batches name
  rw [← find?_ofDeclarations] at horigin
  rw [← Option.map_eq_some_iff, ← horigin, Option.map_eq_some_iff, List.mem_map]
  constructor
  · rintro ⟨c, hc, rfl⟩
    exact ⟨⟨c, .application⟩, mem_applicationClasses.1 hc, rfl⟩
  · rintro ⟨⟨c, _⟩, hfind, rfl⟩
    have hname : (⟨c, .application⟩ : Declared).name = name := Sorted.key_of_find? hfind
    obtain rfl : c.name = name := hname
    exact ⟨c, mem_applicationClasses.2 hfind, rfl⟩

/-- The program and the reports that batches make where the first declaration of a name wins. -/
structure FirstWins (batches : List Batch) (p : Program) (reported : List Diagnostic) : Prop where
  /-- A name stands for its first declaration. -/
  class?_eq : ∀ name,
    p.class? name = (batches.flatMap Batch.classes).find? fun c => c.name = name
  name_eq : ∀ name c, p.class? name = some c → c.name = name
  /-- The application has the names that a batch of the application is the first to declare. -/
  mem_application : ∀ name, name ∈ p.applicationClasses.map ClassDecl.name ↔
    ∃ b, batches.find? (fun b => b.declares name) = some b ∧ b.origin = .application
  application_eq : ∀ c ∈ p.applicationClasses, p.class? c.name = some c
  /-- Every name is declared once. -/
  classCount_eq : p.classCount =
    ((batches.flatMap Batch.classes).map ClassDecl.name).dedup.length
  mem_classes : ∀ c, c ∈ p.classes ↔ p.class? c.name = some c
  increasing_classes : Increasing ClassDecl.name p.classes
  increasing_application : Increasing ClassDecl.name p.applicationClasses
  /-- Each declaration of a name that has come before is reported. -/
  reported_eq : reported =
    (laterNames ((batches.flatMap Batch.classes).map ClassDecl.name)).map .duplicateClass

/-- Of the declarations of the batches in a row the first ones win. -/
theorem firstWins_ofDeclarations (batches : List Batch) :
    FirstWins batches (ofDeclarations (batches.flatMap Batch.declarations))
      (repeatReports (batches.flatMap Batch.declarations)) := by
  have hnames : (batches.flatMap Batch.declarations).map Declared.name =
      (batches.flatMap Batch.classes).map ClassDecl.name := by
    rw [← flatMap_classes, List.map_map]
    rfl
  refine ⟨fun name => ?_, fun name c => name_of_class?, fun name => mem_application_ofDeclarations,
    fun c => class?_of_mem_applicationClasses, ?_, fun c => ?_, ?_,
    increasing_applicationClasses _, ?_⟩
  · rw [class?, find?_ofDeclarations, ← flatMap_classes, List.find?_map]
    rfl
  · rw [← hnames]
    exact Sorted.size_ofList _
  · rw [class?_eq_some, and_iff_left rfl]
  · exact List.pairwise_map.2 (Sorted.increasing _)
  · rw [repeatReports, hnames]

/-- **The first declaration of a class wins over any sequence of batches**, with its origin, and
every later one is reported in its turn. A batch may be cut in two. -/
theorem addBatches_firstWins :
    (∀ batches,
      FirstWins batches (empty.addBatches batches).1 (empty.addBatches batches).2) ∧
    ∀ before origin first second after,
      empty.addBatches (before ++ ⟨origin, first ++ second⟩ :: after) =
        empty.addBatches (before ++ ⟨origin, first⟩ :: ⟨origin, second⟩ :: after) := by
  constructor
  · intro batches
    rw [addBatches_empty]
    exact firstWins_ofDeclarations batches
  · intro before origin first second after
    rw [addBatches_empty, addBatches_empty]
    simp only [List.flatMap_append, List.flatMap_cons, Batch.declarations, List.map_append,
      List.append_assoc]

/-- A class that a library declares first stays out of the application, and one that is repeated in
a batch is reported as often as it is repeated. -/
example :
    let filled := empty.addBatches [
      ⟨.library, [⟨"B", none, [], false, []⟩]⟩,
      ⟨.application, [⟨"B", none, [], true, []⟩, ⟨"A", none, [], false, []⟩,
        ⟨"A", some "B", [], false, []⟩]⟩]
    filled.1.classNames = ["A", "B"] ∧
      filled.1.applicationClasses.map ClassDecl.name = ["A"] ∧
      filled.2 = [.duplicateClass "B", .duplicateClass "A"] := by
  decide

end Program

end DispatchGraph
