import DispatchGraph.Model.Encoding
import DispatchGraph.Proofs.Document
import DispatchGraph.Proofs.Listing
import DispatchGraph.Proofs.Sorted
import Mathlib.Data.List.Nodup
import Mathlib.Data.List.Perm.Subperm

/-!
# The order of loading

What is loaded is put in order of paths first: the classpath as a whole, and the entries of every
directory. So it does not matter in which order the classpath is given, nor in which order
directories list their entries (`FileNode.Relisted`). For a directory this needs that its entries
have different names, as then they have different paths, and sorting leaves no choice
(`mergeSort_eq_of_perm`). By induction over the tree the listings are the same
(`FileNode.Relisted.listNode_eq`); and following a path ends alike in both trees
(`FileNode.Relisted.lookup`).

Together with what becomes of a list this says what loading does in terms of the list alone
(`loadInputs_loadsAsListed`).
-/

namespace DispatchGraph

open Std (TransOrd LawfulEqOrd OrientedCmp LawfulEqCmp)

/-! ## Sorting -/

/-- Lists with the same items are the same once they are sorted by a key that tells the items
apart. -/
theorem mergeSort_eq_of_perm {α κ : Type} [Ord κ] [TransOrd κ] [LawfulEqOrd κ] (key : α → κ)
    {xs ys : List α} (hperm : xs.Perm ys)
    (hkey : ∀ a ∈ xs, ∀ b ∈ xs, key a = key b → a = b) :
    (xs.mergeSort fun a b => (compare (key a) (key b)).isLE) =
      ys.mergeSort fun a b => (compare (key a) (key b)).isLE := by
  have hsame : (xs.mergeSort fun a b => (compare (key a) (key b)).isLE).Perm
      (ys.mergeSort fun a b => (compare (key a) (key b)).isLE) :=
    (List.mergeSort_perm xs _).trans (hperm.trans (List.mergeSort_perm ys _).symm)
  refine hsame.eq_of_pairwise (fun a b ha hb hab hba => ?_) (pairwise_mergeSort_key key xs)
    (pairwise_mergeSort_key key ys)
  refine hkey a (List.mem_mergeSort.1 ha) b (hperm.mem_iff.2 (List.mem_mergeSort.1 hb)) ?_
  exact LawfulEqCmp.compare_eq_iff_eq.1 (OrientedCmp.isLE_antisymm hab hba)

theorem sortByPath_eq_of_perm {α : Type} {entries entries' : List (String × α)}
    (hperm : entries.Perm entries') (hdistinct : (entries.map Prod.fst).Nodup) :
    sortByPath entries = sortByPath entries' :=
  mergeSort_eq_of_perm Prod.fst hperm fun _ ha _ hb =>
    List.inj_on_of_nodup_map hdistinct ha hb

theorem sortByPath_of_pairwise {α : Type} {entries : List (String × α)}
    (h : (entries.map Prod.fst).Pairwise fun a b => (compare a b).isLE) :
    sortByPath entries = entries :=
  List.mergeSort_of_pairwise (List.pairwise_map.1 h)

theorem sortedClasspath_eq_of_perm {classpath classpath' : List String}
    (hperm : classpath.Perm classpath') : sortedClasspath classpath = sortedClasspath classpath' :=
  mergeSort_eq_of_perm id hperm fun _ _ _ _ heq => heq

/-! ## Trees that list their entries differently -/

/-- The trees differ in nothing but the order in which directories list their entries. The entries
of a directory have different names. -/
inductive FileNode.Relisted : FileNode → FileNode → Prop
  | file (content : ByteArray) : Relisted (.file content) (.file content)
  | unreadable (error : PathError) : Relisted (.unreadable error) (.unreadable error)
  | closed (error : PathError) : Relisted (.closed error) (.closed error)
  | directory {entries entries' : List (String × FileNode)}
      (distinct : (entries.map Prod.fst).Nodup)
      (names : (entries.map Prod.fst).Perm (entries'.map Prod.fst))
      (nodes : ∀ name node node', (name, node) ∈ entries → (name, node') ∈ entries' →
        Relisted node node') :
      Relisted (.directory entries) (.directory entries')

/-- Both fail for the same reason, or both succeed with related results. -/
inductive SameOutcome {ε α : Type} (R : α → α → Prop) : Except ε α → Except ε α → Prop
  | error (e : ε) : SameOutcome R (.error e) (.error e)
  | ok {a b : α} (related : R a b) : SameOutcome R (.ok a) (.ok b)

theorem SameOutcome.map {ε α β : Type} {R : α → α → Prop} {T : β → β → Prop} {f g : α → β}
    (hfg : ∀ a b, R a b → T (f a) (g b)) {x y : Except ε α} (h : SameOutcome R x y) :
    SameOutcome T (x.map f) (y.map g) := by
  cases h with
  | error e => exact .error e
  | ok hab => exact .ok (hfg _ _ hab)

namespace FileNode

theorem child?_eq_none {entries : List (String × FileNode)} {name : String} :
    child? entries name = none ↔ name ∉ entries.map Prod.fst := by
  rw [child?, Option.map_eq_none_iff, List.find?_eq_none]
  grind

theorem mem_of_child? {entries : List (String × FileNode)} {name : String} {node : FileNode}
    (h : child? entries name = some node) : (name, node) ∈ entries := by
  obtain ⟨⟨name', node'⟩, hfind, rfl⟩ := Option.map_eq_some_iff.1 h
  obtain rfl : name' = name := by simpa using List.find?_some hfind
  exact List.mem_of_find?_eq_some hfind

/-! ### Following paths -/

/-- The entry of a name is the same in both directories, but for the order of entries below it. -/
theorem relisted_child? {entries entries' : List (String × FileNode)}
    (names : (entries.map Prod.fst).Perm (entries'.map Prod.fst))
    (nodes : ∀ name node node', (name, node) ∈ entries → (name, node') ∈ entries' →
      Relisted node node') (name : String) :
    Option.Rel Relisted (child? entries name) (child? entries' name) := by
  have hnone : child? entries name = none ↔ child? entries' name = none := by
    rw [child?_eq_none, child?_eq_none, names.mem_iff]
  cases hchild : child? entries name with
  | none =>
    rw [hnone.1 hchild]
    exact .none
  | some node =>
    cases hchild' : child? entries' name with
    | none => simp [hnone.2 hchild'] at hchild
    | some node' => exact .some (nodes _ _ _ (mem_of_child? hchild) (mem_of_child? hchild'))

theorem Relisted.isDirectory_eq {node node' : FileNode} (h : node.Relisted node') :
    node.isDirectory = node'.isDirectory := by
  cases h <;> rfl

/-- A name leads to the same node from both, but for the order of entries below it, or nowhere for
the same reason. -/
theorem Relisted.follow {node node' : FileNode} (h : node.Relisted node') (name : String) :
    SameOutcome Relisted (node.follow name) (node'.follow name) := by
  cases h with
  | file content => exact .error _
  | unreadable error => exact .error _
  | closed error => exact .error _
  | @directory entries entries' distinct names nodes =>
    have hchild := relisted_child? names nodes name
    rw [FileNode.follow, FileNode.follow]
    generalize child? entries name = found, child? entries' name = found' at hchild
    cases hchild with
    | none => exact .error _
    | some hnode => exact .ok hnode

/-- Places in trees that differ in the order of entries. -/
structure Place.Relisted (place place' : Place) : Prop where
  node : place.node.Relisted place'.node
  names : place.names = place'.names
  above : List.Forall₂ FileNode.Relisted place.above place'.above

/-- One segment leads to such places again, or nowhere in both trees. -/
theorem Place.Relisted.step {place place' : Place} (h : place.Relisted place') (segment : String) :
    SameOutcome Place.Relisted (place.step segment) (place'.step segment) := by
  obtain ⟨node, nodeNames, above⟩ := place
  obtain ⟨node', nodeNames', above'⟩ := place'
  obtain ⟨hnode, rfl, habove⟩ := h
  simp only [Place.step, hnode.isDirectory_eq]
  split_ifs
  · exact .error _
  · exact .ok ⟨hnode, rfl, habove⟩
  · cases habove with
    | nil => exact .error _
    | cons hparent habove => exact .ok ⟨hparent, rfl, habove⟩
  · exact .error _
  · exact (hnode.follow segment).map fun _ _ hfound => ⟨hfound, rfl, .cons hnode habove⟩

theorem Place.Relisted.foldlM_step {place place' : Place} (h : place.Relisted place')
    (segments : List String) :
    SameOutcome Place.Relisted (segments.foldlM Place.step place)
      (segments.foldlM Place.step place') := by
  induction segments generalizing place place' with
  | nil => exact .ok h
  | cons segment segments ih =>
    rw [List.foldlM_cons, List.foldlM_cons]
    -- where one tree ends the walk, the other one does
    match place.step segment, place'.step segment, h.step segment with
    | _, _, .error e => exact .error e
    | _, _, .ok hstep => exact ih hstep

namespace Relisted

variable {root root' : FileNode}

/-- A path leads to the same node in both trees, but for the order of entries below it, or nowhere
for the same reason. -/
theorem lookup (h : root.Relisted root') (path : String) :
    SameOutcome Relisted (root.lookup path) (root'.lookup path) := by
  have hroot : Place.Relisted ⟨root, [], []⟩ ⟨root', [], []⟩ := ⟨h, rfl, .nil⟩
  have hlocate : SameOutcome Place.Relisted (root.locate (Path.segments path))
      (root'.locate (Path.segments path)) := hroot.foldlM_step _
  rw [FileNode.lookup, FileNode.lookup]
  cases Path.check path with
  | error e => exact .error e
  | ok =>
    simp only [bind, Except.bind]
    split_ifs
    · exact .ok (.file _)
    · exact .error _
    · exact hlocate.map fun _ _ hplace => hplace.node

end Relisted

end FileNode

/-! ### Listings -/

theorem Path.join_injective (directory : String) : Function.Injective (Path.join directory) := by
  intro name name' h
  rw [Path.join, Path.join] at h
  split_ifs at h
  · exact String.append_right_inj _ |>.1 h
  · exact String.append_right_inj _ |>.1 h

/-- The documents below an entry of a directory. -/
def listEntry (origin : Origin) (path : String) (node : FileNode) : List Listed :=
  match Path.check path with
  | .ok () => listNode origin path node
  | .error error => listUnusable origin path error

theorem listEntries_eq_map (origin : Origin) (path : String) (entries : List (String × FileNode)) :
    listEntries origin path entries = entries.map fun entry =>
      (Path.join path entry.1, listEntry origin (Path.join path entry.1) entry.2) := by
  induction entries with
  | nil => rfl
  | cons entry entries ih =>
    rw [listEntries, List.map_cons, ih]
    rfl

/-- The entries of a directory have different paths if they have different names. -/
theorem nodup_listEntries (origin : Origin) (path : String) {entries : List (String × FileNode)}
    (h : (entries.map Prod.fst).Nodup) :
    ((listEntries origin path entries).map Prod.fst).Nodup := by
  have hpaths : (listEntries origin path entries).map Prod.fst =
      (entries.map Prod.fst).map (Path.join path) := by
    rw [listEntries_eq_map, List.map_map, List.map_map]
    rfl
  rw [hpaths]
  exact h.map (Path.join_injective path)

namespace FileNode.Relisted

variable {node node' root root' : FileNode}

/-- The same is listed below nodes that differ in the order of entries. -/
theorem listNode_eq (h : node.Relisted node') (origin : Origin) (path : String) :
    listNode origin path node = listNode origin path node' := by
  induction h generalizing path with
  | file content => rfl
  | unreadable error => rfl
  | closed error => rfl
  | @directory entries entries' distinct names nodes ih =>
    have hdistinct := nodup_listEntries origin path distinct
    -- The listings have equally many entries, so it is enough to find each in the other.
    have hsubset : listEntries origin path entries ⊆ listEntries origin path entries' := by
      simp only [listEntries_eq_map]
      intro listing hlisting
      obtain ⟨⟨name, node⟩, hentry, rfl⟩ := List.mem_map.1 hlisting
      have hname : name ∈ entries'.map Prod.fst := names.mem_iff.1 (List.mem_map_of_mem hentry)
      obtain ⟨⟨_, node'⟩, hentry', rfl⟩ := List.mem_map.1 hname
      refine List.mem_map.2 ⟨_, hentry', ?_⟩
      simp only [listEntry, ih _ _ _ hentry hentry']
    have hlength : (listEntries origin path entries').length ≤
        (listEntries origin path entries).length := by
      have hnames := names.length_eq
      simp only [List.length_map] at hnames
      simp only [listEntries_eq_map, List.length_map, hnames, le_refl]
    have hperm : (listEntries origin path entries).Perm (listEntries origin path entries') :=
      (List.subperm_of_subset hdistinct.of_map hsubset).perm_of_length_le hlength
    rw [listNode, listNode, sortByPath_eq_of_perm hperm hdistinct]

theorem listGiven_eq (h : root.Relisted root') (origin : Origin) (path : String) :
    listGiven root.lookup origin path = listGiven root'.lookup origin path := by
  have hlookup := h.lookup path
  rw [listGiven, listGiven]
  generalize root.lookup path = found, root'.lookup path = found' at hlookup
  cases hlookup with
  | error e => rfl
  | ok hnode =>
    cases hnode with
    | file content => rfl
    | unreadable error => rfl
    | closed error => rfl
    | directory distinct names nodes =>
      exact (Relisted.directory distinct names nodes).listNode_eq origin path

theorem listInputs_eq (h : root.Relisted root') (input : String) (classpath : List String) :
    listInputs root.lookup input classpath = listInputs root'.lookup input classpath := by
  have hgiven : ∀ origin, listGiven root.lookup origin = listGiven root'.lookup origin :=
    fun origin => funext (h.listGiven_eq origin)
  rw [listInputs, listInputs, hgiven, hgiven]

end FileNode.Relisted

/-! ## Loading -/

/-- What loading does, in terms of the listing of the input and the classpath. -/
structure LoadsAsListed (root : FileNode) (input : String) (classpath : List String) : Prop where
  eq_listed : loadInputs root.lookup input classpath =
    loadListed (listInputs root.lookup input classpath) .empty
  succeeds_iff : (∃ loaded, loadInputs root.lookup input classpath = .ok loaded) ↔
    (∀ path ∈ input :: classpath, Supported root.lookup path) ∧
      ∀ l ∈ listInputs root.lookup input classpath,
        ∃ text classes, l.text = .ok text ∧ parseModel text = .ok classes
  fileCount_eq : ∀ loaded, loadInputs root.lookup input classpath = .ok loaded →
    loaded.fileCount = (listInputs root.lookup input classpath).length
  /-- The first path that cannot be read decides. -/
  fails_at : ∀ failure, loadInputs root.lookup input classpath = .error failure →
    ∃ before l after loaded, listInputs root.lookup input classpath = before ++ l :: after ∧
      loadListed before .empty = .ok loaded ∧ l.read = .error failure.error ∧
      failure.diagnostics = loaded.diagnostics
  /-- The order of the classpath does not matter. -/
  perm_classpath : ∀ classpath', classpath.Perm classpath' →
    loadInputs root.lookup input classpath = loadInputs root.lookup input classpath'
  /-- The order in which directories list their entries does not matter. -/
  relisted : ∀ root', root.Relisted root' →
    loadInputs root.lookup input classpath = loadInputs root'.lookup input classpath

/-- **Loading goes through a list of files.** What is loaded, whether loading succeeds and how it
fails depends on the listing of the input and the classpath alone, and neither the order of the
classpath nor that of the entries of directories has a part in the listing. -/
theorem loadInputs_loadsAsListed (root : FileNode) (input : String) (classpath : List String) :
    LoadsAsListed root input classpath where
  eq_listed := loadInputs_eq_listed root.lookup input classpath
  succeeds_iff := by
    simp only [loadInputs_eq_listed]
    rw [loadListed_ok_iff, forall_read_iff]
  fileCount_eq := by
    intro loaded h
    rw [loadInputs_eq_listed] at h
    rw [fileCount_of_loadListed h]
    exact Nat.zero_add _
  fails_at := by
    intro failure h
    rw [loadInputs_eq_listed] at h
    exact exists_of_loadListed_error h
  perm_classpath := by
    intro classpath' hperm
    simp only [loadInputs_eq_listed, listInputs, sortedClasspath_eq_of_perm hperm]
  relisted := by
    intro root' h
    rw [loadInputs_eq_listed, loadInputs_eq_listed, h.listInputs_eq]

/-- A declaration of a class. -/
def plainBook : List ClassDecl := [⟨"Book", none, [], false, []⟩]

/-- Another declaration of the same class. -/
def boundBook : List ClassDecl := [⟨"Book", some "Item", [], false, []⟩]

def plainDocument : String := (documentToJson plainBook).compact

def boundDocument : String := (documentToJson boundBook).compact

theorem parseModel_plain : parseModel plainDocument = .ok plainBook :=
  parseModel_compact (by decide +kernel)

theorem parseModel_bound : parseModel boundDocument = .ok boundBook :=
  parseModel_compact (by decide +kernel)

/-- A directory with a document. -/
def box : FileNode := .directory [("c.json", .file boundDocument.toUTF8)]

/-- A document beside a directory. -/
def shelf : FileNode := .directory [("a.json", .file plainDocument.toUTF8), ("b", box)]

/-- The same, listed the other way round. -/
def reversedShelf : FileNode :=
  .directory [("b", box), ("a.json", .file plainDocument.toUTF8)]

theorem relisted_shelf : shelf.Relisted reversedShelf := by
  have hbox : box.Relisted box := by
    refine .directory (by decide) (by decide) fun name node node' hnode hnode' => ?_
    obtain ⟨rfl, rfl⟩ := Prod.mk.inj (List.mem_singleton.1 hnode)
    obtain ⟨-, rfl⟩ := Prod.mk.inj (List.mem_singleton.1 hnode')
    exact .file _
  refine .directory (by decide) (by decide) fun name node node' hnode hnode' => ?_
  simp only [List.mem_cons, Prod.mk.injEq, List.not_mem_nil, or_false] at hnode hnode'
  rcases hnode with ⟨rfl, rfl⟩ | ⟨rfl, rfl⟩
  · obtain ⟨hname, -⟩ | ⟨-, rfl⟩ := hnode'
    · exact absurd hname (by decide)
    · exact .file _
  · obtain ⟨-, rfl⟩ | ⟨hname, -⟩ := hnode'
    · exact hbox
    · exact absurd hname (by decide)

theorem listInputs_shelf :
    listInputs shelf.lookup "." ["b", "a.json"] =
      [⟨.application, "./a.json", .ok plainDocument.toUTF8⟩,
        ⟨.application, "./b/c.json", .ok boundDocument.toUTF8⟩,
        ⟨.library, "a.json", .ok plainDocument.toUTF8⟩,
        ⟨.library, "b/c.json", .ok boundDocument.toUTF8⟩] := by
  have hclasspath : sortedClasspath ["b", "a.json"] = ["a.json", "b"] :=
    (sortedClasspath_eq_of_perm (by decide)).trans (List.mergeSort_of_pairwise (by decide))
  have hbox : ∀ origin path, listNode origin path box =
      listEntry origin (Path.join path "c.json") (.file boundDocument.toUTF8) := by
    intro origin path
    simp [box, listNode, listEntries_eq_map, sortByPath]
  have hshelf : listNode .application "." shelf =
      listEntry .application "./a.json" (.file plainDocument.toUTF8) ++
        listNode .application "./b" box := by
    rw [shelf, listNode, sortByPath_of_pairwise]
    · exact congrArg _ (List.append_nil _)
    · show List.Pairwise _ ["./a.json", "./b"]
      decide
  have hinput : listGiven shelf.lookup .application "." = listNode .application "." shelf := rfl
  have hdirectory : listGiven shelf.lookup .library "b" = listNode .library "b" box := rfl
  rw [listInputs, hclasspath, hinput, hshelf, List.flatMap_cons, List.flatMap_singleton, hdirectory,
    hbox, hbox]
  rfl

theorem loadInputs_loadsAsListed_shelf :
    shelf.Relisted reversedShelf ∧ ["b", "a.json"].Perm ["a.json", "b"] ∧
      ∃ loaded, loadInputs shelf.lookup "." ["b", "a.json"] = .ok loaded ∧
        loaded.fileCount = 4 ∧
        loadInputs reversedShelf.lookup "." ["b", "a.json"] = .ok loaded ∧
        loadInputs shelf.lookup "." ["a.json", "b"] = .ok loaded := by
  have hperm : ["b", "a.json"].Perm ["a.json", "b"] := by decide
  have hloads := loadInputs_loadsAsListed shelf "." ["b", "a.json"]
  have hsupported : ∀ path ∈ [".", "b", "a.json"], Supported shelf.lookup path := by
    simp only [List.forall_mem_cons]
    exact ⟨.inl ⟨shelf, rfl, rfl⟩, .inl ⟨box, rfl, rfl⟩, .inr rfl, by simp⟩
  have hreadable : ∀ l ∈ listInputs shelf.lookup "." ["b", "a.json"],
      ∃ text classes, l.text = .ok text ∧ parseModel text = .ok classes := by
    have hdocument : ∀ origin path {document : String} {book : List ClassDecl},
        parseModel document = .ok book → ∃ text classes,
          (⟨origin, path, .ok document.toUTF8⟩ : Listed).text = .ok text ∧
            parseModel text = .ok classes :=
      fun origin path document book hbook =>
        ⟨document, book, Listed.text_document origin path document, hbook⟩
    rw [listInputs_shelf]
    simp only [List.forall_mem_cons]
    exact ⟨hdocument _ _ parseModel_plain, hdocument _ _ parseModel_bound,
      hdocument _ _ parseModel_plain, hdocument _ _ parseModel_bound, by simp⟩
  obtain ⟨loaded, hloaded⟩ := hloads.succeeds_iff.2 ⟨hsupported, hreadable⟩
  refine ⟨relisted_shelf, hperm, loaded, hloaded, ?_, ?_, ?_⟩
  · rw [hloads.fileCount_eq loaded hloaded, listInputs_shelf]
    rfl
  · rw [← hloads.relisted _ relisted_shelf, hloaded]
  · rw [← hloads.perm_classpath _ hperm, hloaded]

end DispatchGraph
