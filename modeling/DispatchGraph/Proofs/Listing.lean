import DispatchGraph.Load
import DispatchGraph.Proofs.Decoding

/-!
# Loading as reading a list of files

A loader walks through directories and adds what it finds on the way. The same comes of two separate
steps: list what is to be loaded (`listInputs`), then load what is listed, one path after the other
(`loadListed`). The list has the files below the input, then those below the classpath entries in
order of their paths; below a directory it goes through the entries in order of their paths, depth
first, and keeps documents only, and directories that cannot be listed. That a walk is such a list
is proved by induction over the tree (`loadNode_eq_listed`), and for whole loadings in
`loadInputs_eq_listed`.

What becomes of a list can be said at once: everything is loaded if everything on it can be read
(`loadListed_ok_iff`), and otherwise the first path that cannot be read decides
(`exists_of_loadListed_error`).
-/

namespace DispatchGraph

/-! ## Lists of what is to be loaded -/

/-- A path that is to be loaded, and what is found there. -/
structure Listed where
  origin : Origin
  path : String
  /-- The bytes of the file, or why there are none. -/
  content : Except ReadError ByteArray

namespace Listed

/-- The text of the file. -/
def text (l : Listed) : Except ReadError String :=
  match l.content with
  | .error error => .error error
  | .ok bytes =>
    match String.fromUTF8? bytes with
    | none => .error .notText
    | some text => .ok text

/-- The path is that of a document, or of a directory, which then cannot be listed. -/
def isSupported (l : Listed) : Bool :=
  match l.content with
  | .error (.listing _) => true
  | _ => isModelPath l.path

/-- The classes that the path declares, or why it cannot be loaded. -/
def read (l : Listed) : Except LoadError (List ClassDecl) :=
  if l.isSupported then
    match l.text with
    | .error error => .error (.unreadable l.path error)
    | .ok text =>
      match parseModel text with
      | .error error => .error (.unparsable l.path error)
      | .ok classes => .ok classes
  else .error (.unsupported l.path)

/-- What has been loaded once the classes of the path are added. -/
def addTo (l : Listed) (classes : List ClassDecl) (loaded : Loaded) : Loaded where
  program := (loaded.program.addClasses l.origin classes).1
  fileCount := loaded.fileCount + 1
  diagnostics := loaded.diagnostics ++
    .loaded l.path classes.length :: (loaded.program.addClasses l.origin classes).2

/-- Load a path: read it and add its classes. -/
def load (l : Listed) : LoadStep := fun loaded =>
  match l.read with
  | .error error => loaded.fail error
  | .ok classes => .ok (l.addTo classes loaded)

end Listed

/-- Load what is listed, one path after the other. -/
def loadListed (listing : List Listed) : LoadStep := fun loaded =>
  listing.foldlM (fun loaded l => l.load loaded) loaded

/-- The listing of a path that leads nowhere. Only a document is missed. -/
def listUnusable (origin : Origin) (path : String) (error : PathError) : List Listed :=
  if isModelPath path then [⟨origin, path, .error (.path error)⟩] else []

mutual

/-- The documents below a path, depth first, the entries of a directory in order of their paths. A
directory that cannot be listed stands for itself. -/
def listNode (origin : Origin) (path : String) : FileNode → List Listed
  | .file content => if isModelPath path then [⟨origin, path, .ok content⟩] else []
  | .directory entries => (sortByPath (listEntries origin path entries)).flatMap Prod.snd
  | .unreadable error => listUnusable origin path error
  | .closed error => [⟨origin, path, .error (.listing error)⟩]

/-- The documents below each entry of a directory, with the path of the entry. -/
def listEntries (origin : Origin) (path : String) :
    List (String × FileNode) → List (String × List Listed)
  | [] => []
  | (name, node) :: entries =>
    let entryPath := Path.join path name
    let listing := match Path.check entryPath with
      | .ok () => listNode origin entryPath node
      | .error error => listUnusable origin entryPath error
    (entryPath, listing) :: listEntries origin path entries

end

/-- The listing of a path that was given: what is below it if it is a directory, and otherwise the
path itself, whatever it is. -/
def listGiven (lookup : String → Except PathError FileNode) (origin : Origin) (path : String) :
    List Listed :=
  match lookup path with
  | .ok (.file content) => [⟨origin, path, .ok content⟩]
  | .ok (.directory entries) => listNode origin path (.directory entries)
  | .ok (.unreadable error) => [⟨origin, path, .error (.path error)⟩]
  | .ok (.closed error) => listNode origin path (.closed error)
  | .error error => [⟨origin, path, .error (.path error)⟩]

/-- The classpath in order of its paths. -/
def sortedClasspath (classpath : List String) : List String :=
  classpath.mergeSort fun a b => (compare a b).isLE

/-- The listing of an input and a classpath. -/
def listInputs (lookup : String → Except PathError FileNode) (input : String)
    (classpath : List String) : List Listed :=
  listGiven lookup .application input ++
    (sortedClasspath classpath).flatMap (listGiven lookup .library)

/-! ## Steps in turn -/

theorem loadListed_nil (loaded : Loaded) : loadListed [] loaded = .ok loaded := rfl

theorem loadListed_cons (l : Listed) (listing : List Listed) (loaded : Loaded) :
    loadListed (l :: listing) loaded = l.load loaded >>= loadListed listing := rfl

theorem loadListed_singleton (l : Listed) (loaded : Loaded) :
    loadListed [l] loaded = l.load loaded := by
  rw [loadListed_cons]
  cases l.load loaded <;> rfl

theorem loadListed_append (listing listing' : List Listed) (loaded : Loaded) :
    loadListed (listing ++ listing') loaded = loadListed listing loaded >>= loadListed listing' :=
  List.foldlM_append

/-- Loading lists in turn is loading what they list together. -/
theorem inTurn_loadListed {α : Type} (listing : α → List Listed) (xs : List α) (loaded : Loaded) :
    inTurn (xs.map fun x => loadListed (listing x)) loaded =
      loadListed (xs.flatMap listing) loaded := by
  rw [inTurn]
  induction xs generalizing loaded with
  | nil => rfl
  | cons x xs ih =>
    rw [List.map_cons, List.foldlM_cons, List.flatMap_cons, loadListed_append]
    exact congrArg _ (funext ih)

/-! ## Walks -/

theorem load_file (origin : Origin) (path : String) (content : ByteArray)
    (hpath : isModelPath path = true) (loaded : Loaded) :
    (⟨origin, path, .ok content⟩ : Listed).load loaded = loadFile origin path content loaded := by
  simp only [Listed.load, Listed.read, Listed.isSupported, hpath, ↓reduceIte, Listed.text, loadFile]
  cases String.fromUTF8? content with
  | none => rfl
  | some text =>
    dsimp only
    cases parseModel text <;> rfl

theorem load_missing (origin : Origin) {path : String} (error : PathError)
    (hpath : isModelPath path = true) (loaded : Loaded) :
    (⟨origin, path, .error (.path error)⟩ : Listed).load loaded =
      loaded.fail (.unreadable path (.path error)) := by
  have hsupported : (⟨origin, path, .error (.path error)⟩ : Listed).isSupported = true := hpath
  rw [Listed.load, Listed.read, if_pos hsupported]
  rfl

theorem load_closed (origin : Origin) (path : String) (error : PathError) (loaded : Loaded) :
    (⟨origin, path, .error (.listing error)⟩ : Listed).load loaded =
      loaded.fail (.unreadable path (.listing error)) := rfl

theorem load_unsupported {l : Listed} (hl : ¬ l.isSupported = true) (loaded : Loaded) :
    l.load loaded = loaded.fail (.unsupported l.path) := by
  rw [Listed.load, Listed.read, if_neg hl]

/-- A given path that leads nowhere, or to a file that cannot be read. -/
theorem loadListed_missing (origin : Origin) (path : String) (error : PathError)
    (loaded : Loaded) :
    loadListed [⟨origin, path, .error (.path error)⟩] loaded =
      if isModelPath path then loaded.fail (.unreadable path (.path error))
      else loaded.fail (.unsupported path) := by
  rw [loadListed_singleton]
  split
  · rename_i hpath
    exact load_missing origin error hpath loaded
  · rename_i hpath
    exact load_unsupported (l := ⟨origin, path, .error (.path error)⟩) hpath loaded

theorem loadListed_unusable (origin : Origin) (path : String) (error : PathError)
    (loaded : Loaded) :
    loadListed (listUnusable origin path error) loaded = loadUnusable path error loaded := by
  rw [listUnusable, loadUnusable]
  split
  · rename_i hpath
    rw [loadListed_singleton, load_missing origin error hpath]
  · rfl

/-- Putting entries in order does not look at what belongs to them. -/
theorem sortByPath_map {α β : Type} (f : α → β) (entries : List (String × α)) :
    sortByPath (entries.map fun entry => (entry.1, f entry.2)) =
      (sortByPath entries).map fun entry => (entry.1, f entry.2) := by
  rw [sortByPath, sortByPath]
  symm
  exact List.map_mergeSort fun _ _ _ _ => rfl

mutual

/-- What a walk below a path loads is what is listed there. -/
theorem loadNode_eq_listed (origin : Origin) (path : String) :
    ∀ node, loadNode origin path node = loadListed (listNode origin path node)
  | .file content => by
    funext loaded
    rw [loadNode, listNode]
    split
    · rename_i hpath
      rw [loadListed_singleton, load_file origin path content hpath]
    · rfl
  | .directory entries => by
    funext loaded
    rw [loadNode, listNode, loadEntries_eq_listed, sortByPath_map, List.map_map]
    exact inTurn_loadListed Prod.snd _ loaded
  | .unreadable error => by
    rw [loadNode, listNode]
    exact (funext (loadListed_unusable origin path error)).symm
  | .closed error => by
    funext loaded
    rw [loadNode, listNode, loadListed_singleton, load_closed]

theorem loadEntries_eq_listed (origin : Origin) (path : String) :
    ∀ entries, loadEntries origin path entries =
      (listEntries origin path entries).map fun entry => (entry.1, loadListed entry.2)
  | [] => rfl
  | (name, node) :: entries => by
    rw [loadEntries, listEntries, List.map_cons, loadEntries_eq_listed origin path entries]
    -- the first entry is left, whose path may be one that nothing can be read from
    congr 2
    cases Path.check (Path.join path name) with
    | ok => exact loadNode_eq_listed origin _ node
    | error error => exact (funext (loadListed_unusable origin _ error)).symm

end

theorem loadGiven_eq_listed (lookup : String → Except PathError FileNode) (origin : Origin)
    (path : String) : loadGiven lookup origin path = loadListed (listGiven lookup origin path) := by
  funext loaded
  rw [loadGiven, listGiven]
  match lookup path with
  | .ok (.file content) =>
    simp only [FileNode.isDirectory, Bool.false_or, loadNode, loadListed_singleton]
    split
    · rename_i hpath
      rw [load_file origin path content hpath]
    · rename_i hpath
      rw [load_unsupported (l := ⟨origin, path, .ok content⟩) hpath]
  | .ok (.directory entries) => exact congrFun (loadNode_eq_listed origin path _) loaded
  | .ok (.unreadable error) =>
    simp only [FileNode.isDirectory, Bool.false_or, loadNode, loadUnusable, loadListed_missing]
    split <;> rfl
  | .ok (.closed error) => exact congrFun (loadNode_eq_listed origin path _) loaded
  | .error error => exact (loadListed_missing origin path error loaded).symm

/-- **Loading is loading what is listed.** -/
theorem loadInputs_eq_listed (lookup : String → Except PathError FileNode) (input : String)
    (classpath : List String) :
    loadInputs lookup input classpath = loadListed (listInputs lookup input classpath) .empty := by
  have hgiven : loadGiven lookup .library =
      fun path => loadListed (listGiven lookup .library path) :=
    funext (loadGiven_eq_listed lookup .library)
  rw [listInputs, loadListed_append, ← loadGiven_eq_listed, loadInputs, hgiven]
  congr 1
  funext loaded
  exact inTurn_loadListed _ _ loaded

/-! ## What becomes of a list -/

theorem fromUTF8?_toUTF8 (text : String) : String.fromUTF8? text.toUTF8 = some text :=
  dif_pos text.isValidUTF8

namespace Listed

variable {l : Listed} {classes : List ClassDecl} {error : LoadError}

theorem read_eq_ok : l.read = .ok classes ↔
    l.isSupported = true ∧ ∃ text, l.text = .ok text ∧ parseModel text = .ok classes := by
  rw [read]
  split
  · rename_i hsupported
    cases l.text with
    | error error => simp
    | ok text => cases hparse : parseModel text <;> simp [hsupported, hparse]
  · rename_i hsupported
    simp [hsupported]

theorem text_document (origin : Origin) (path text : String) :
    (⟨origin, path, .ok text.toUTF8⟩ : Listed).text = .ok text := by
  simp only [Listed.text, fromUTF8?_toUTF8]

/-- A file that holds the text of a model can be read. -/
theorem read_document (origin : Origin) {path text : String} (hpath : isModelPath path = true)
    (hclasses : parseModel text = .ok classes) :
    (⟨origin, path, .ok text.toUTF8⟩ : Listed).read = .ok classes :=
  read_eq_ok.2 ⟨hpath, text, text_document origin path text, hclasses⟩

theorem load_of_ok (hread : l.read = .ok classes) (loaded : Loaded) :
    l.load loaded = .ok (l.addTo classes loaded) := by
  rw [load, hread]

theorem load_of_error (hread : l.read = .error error) (loaded : Loaded) :
    l.load loaded = .error ⟨error, loaded.diagnostics⟩ := by
  rw [load, hread]
  rfl

end Listed

variable {listing : List Listed} {loaded loaded' : Loaded}

theorem loadListed_cons_eq_ok {l : Listed} :
    loadListed (l :: listing) loaded = .ok loaded' ↔
      ∃ classes, l.read = .ok classes ∧
        loadListed listing (l.addTo classes loaded) = .ok loaded' := by
  rw [loadListed_cons]
  cases hread : l.read with
  | error error =>
    rw [Listed.load_of_error hread]
    simp [bind, Except.bind]
  | ok classes =>
    rw [Listed.load_of_ok hread]
    simp [bind, Except.bind]

/-- All is loaded when all can be read. -/
theorem loadListed_ok_iff :
    (∃ loaded', loadListed listing loaded = .ok loaded') ↔
      ∀ l ∈ listing, ∃ classes, l.read = .ok classes := by
  induction listing generalizing loaded with
  | nil => simp [loadListed_nil]
  | cons l listing ih =>
    simp only [List.forall_mem_cons, loadListed_cons_eq_ok]
    rw [exists_comm, ← exists_and_right]
    refine exists_congr fun classes => ?_
    rw [exists_and_left, ih]

/-- Every path that is loaded counts. -/
theorem fileCount_of_loadListed (h : loadListed listing loaded = .ok loaded') :
    loaded'.fileCount = loaded.fileCount + listing.length := by
  induction listing generalizing loaded with
  | nil =>
    obtain rfl := Except.ok.inj h
    rfl
  | cons l listing ih =>
    obtain ⟨classes, -, hrest⟩ := loadListed_cons_eq_ok.1 h
    have hcount : (l.addTo classes loaded).fileCount = loaded.fileCount + 1 := rfl
    rw [ih hrest, hcount, List.length_cons]
    omega

/-- The first path that cannot be read decides how loading fails; what comes before it is loaded and
reported, what comes after it is not looked at. -/
theorem exists_of_loadListed_error {failure : LoadFailure}
    (h : loadListed listing loaded = .error failure) :
    ∃ before l after loaded', listing = before ++ l :: after ∧
      loadListed before loaded = .ok loaded' ∧ l.read = .error failure.error ∧
      failure.diagnostics = loaded'.diagnostics := by
  induction listing generalizing loaded with
  | nil => contradiction
  | cons l listing ih =>
    rw [loadListed_cons] at h
    cases hread : l.read with
    | error error =>
      -- nothing comes before the first path that fails
      rw [Listed.load_of_error hread] at h
      obtain rfl : ⟨error, loaded.diagnostics⟩ = failure := Except.error.inj h
      exact ⟨[], l, listing, loaded, rfl, rfl, hread, rfl⟩
    | ok classes =>
      rw [Listed.load_of_ok hread] at h
      obtain ⟨before, l', after, loaded', rfl, hbefore, hfails, hdiagnostics⟩ := ih h
      refine ⟨l :: before, l', after, loaded', rfl, ?_, hfails, hdiagnostics⟩
      rw [loadListed_cons, Listed.load_of_ok hread]
      exact hbefore

/-! ## What is listed -/

theorem origin_and_supported_of_mem_listUnusable {origin : Origin} {path : String}
    {error : PathError} {l : Listed} (hl : l ∈ listUnusable origin path error) :
    l.origin = origin ∧ l.isSupported = true := by
  rw [listUnusable] at hl
  split at hl
  · rename_i hpath
    rw [List.mem_singleton.1 hl]
    exact ⟨rfl, hpath⟩
  · simp at hl

mutual

/-- Below a path only what is supported is listed, all with one origin. -/
theorem origin_and_supported_of_mem_listNode (origin : Origin) (path : String) :
    ∀ node, ∀ l ∈ listNode origin path node, l.origin = origin ∧ l.isSupported = true
  | .file content => by
    intro l hl
    rw [listNode] at hl
    split at hl
    · rename_i hpath
      rw [List.mem_singleton.1 hl]
      exact ⟨rfl, hpath⟩
    · simp at hl
  | .directory entries => by
    intro l hl
    rw [listNode] at hl
    obtain ⟨entry, hentry, hl⟩ := List.mem_flatMap.1 hl
    exact origin_and_supported_of_mem_listEntries origin path entries entry
      (List.mem_mergeSort.1 hentry) l hl
  | .unreadable error => by
    intro l hl
    rw [listNode] at hl
    exact origin_and_supported_of_mem_listUnusable hl
  | .closed error => by
    intro l hl
    rw [listNode] at hl
    rw [List.mem_singleton.1 hl]
    exact ⟨rfl, rfl⟩

theorem origin_and_supported_of_mem_listEntries (origin : Origin) (path : String) :
    ∀ entries, ∀ entry ∈ listEntries origin path entries, ∀ l ∈ entry.2,
      l.origin = origin ∧ l.isSupported = true
  | [], _, hentry => by simp [listEntries] at hentry
  | (name, node) :: entries, entry, hentry => by
    rw [listEntries] at hentry
    rcases List.mem_cons.1 hentry with rfl | hentry
    · intro l hl
      dsimp only at hl
      split at hl
      · exact origin_and_supported_of_mem_listNode origin _ node l hl
      · exact origin_and_supported_of_mem_listUnusable hl
    · exact origin_and_supported_of_mem_listEntries origin path entries entry hentry

end

theorem origin_of_mem_listGiven {lookup : String → Except PathError FileNode} {origin : Origin}
    {path : String} {l : Listed} (hl : l ∈ listGiven lookup origin path) : l.origin = origin := by
  rw [listGiven] at hl
  split at hl
  · rw [List.mem_singleton.1 hl]
  · exact (origin_and_supported_of_mem_listNode origin path _ l hl).1
  · rw [List.mem_singleton.1 hl]
  · exact (origin_and_supported_of_mem_listNode origin path _ l hl).1
  · rw [List.mem_singleton.1 hl]

/-- The path leads to a directory, or it is that of a document. -/
def Supported (lookup : String → Except PathError FileNode) (path : String) : Prop :=
  (∃ node, lookup path = .ok node ∧ node.isDirectory = true) ∨ isModelPath path = true

variable {lookup : String → Except PathError FileNode} {input path : String}
  {classpath : List String}

theorem supported_iff (origin : Origin) :
    (∀ l ∈ listGiven lookup origin path, l.isSupported = true) ↔ Supported lookup path := by
  rw [listGiven, Supported]
  match lookup path with
  | .ok (.file content) => simp [Listed.isSupported, FileNode.isDirectory]
  | .ok (.directory entries) =>
    have hbelow := origin_and_supported_of_mem_listNode origin path (.directory entries)
    simpa [FileNode.isDirectory] using fun l hl => (hbelow l hl).2
  | .ok (.unreadable error) => simp [Listed.isSupported, FileNode.isDirectory]
  | .ok (.closed error) => simp [listNode, Listed.isSupported, FileNode.isDirectory]
  | .error error => simp [Listed.isSupported]

theorem mem_listInputs {l : Listed} :
    l ∈ listInputs lookup input classpath ↔ l ∈ listGiven lookup .application input ∨
      ∃ path ∈ classpath, l ∈ listGiven lookup .library path := by
  simp [listInputs, sortedClasspath]

/-- All that is listed is supported when every given path is. -/
theorem forall_isSupported_iff :
    (∀ l ∈ listInputs lookup input classpath, l.isSupported = true) ↔
      ∀ path ∈ input :: classpath, Supported lookup path := by
  rw [List.forall_mem_cons, ← supported_iff .application]
  simp only [mem_listInputs, or_imp, forall_and, forall_exists_index, and_imp]
  refine and_congr_right fun _ => ?_
  simp only [← supported_iff .library]
  exact ⟨fun h path hpath l => h l path hpath, fun h l path hpath => h path hpath l⟩

/-- Everything listed can be read when every given path is supported, and every file has a text that
is a model. -/
theorem forall_read_iff :
    (∀ l ∈ listInputs lookup input classpath, ∃ classes, l.read = .ok classes) ↔
      (∀ path ∈ input :: classpath, Supported lookup path) ∧
        ∀ l ∈ listInputs lookup input classpath,
          ∃ text classes, l.text = .ok text ∧ parseModel text = .ok classes := by
  rw [← forall_isSupported_iff, ← forall₂_and]
  refine forall₂_congr fun l _ => ?_
  simp only [Listed.read_eq_ok, exists_and_left]
  exact and_congr_right fun _ => exists_comm.trans (exists_congr fun text => exists_and_left)

end DispatchGraph
