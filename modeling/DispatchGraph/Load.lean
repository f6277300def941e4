import DispatchGraph.Files.Tree
import DispatchGraph.Model.Document
import DispatchGraph.Program

/-!
# Loading programs

A program is loaded from an input and a classpath, each a path of a model document or of a directory
of them. The input's classes belong to the application, those of the classpath to libraries. Files
are read one after the other: those of the input, then those of the classpath entries in order of
their paths. The entries of a directory are taken in order of their paths too; of those only
documents (`.json`) and directories count, whereas a path that was given must be one of the two. A
document that cannot be read and a directory that cannot be listed are failures.

The first failure ends the loading. What was reported up to it is kept with it.
-/

namespace DispatchGraph

/-- Why a file or a directory cannot be read. -/
inductive ReadError where
  | path (error : PathError)
  /-- The entries of the directory cannot be listed. -/
  | listing (error : PathError)
  /-- The file does not hold UTF-8 text. -/
  | notText
  deriving DecidableEq

/-- The wording of an error. -/
def ReadError.message : ReadError → String
  | path error => error.message
  | listing error => error.message
  | notText => "stream did not contain valid UTF-8"

/-- Why a program cannot be loaded. -/
inductive LoadError where
  /-- A path that was given is neither a directory nor a document. -/
  | unsupported (path : String)
  | unreadable (path : String) (error : ReadError)
  | unparsable (path : String) (error : ModelError)

namespace LoadError

/-- The error and what caused it, outermost first. -/
def causes : LoadError → List String
  | unsupported path => ["unsupported input file: " ++ path]
  | unreadable path (.listing error) => ["failed to read directory " ++ path, error.message]
  | unreadable path error => ["failed to read " ++ path, error.message]
  | unparsable path error => ("failed to parse " ++ path) :: error.causes

/-- The error on one line. A syntax error is only named. -/
def summary : LoadError → String
  | unparsable path error => "failed to parse " ++ path ++ ": " ++ error.summary
  | error => ": ".intercalate error.causes

end LoadError

/-- What has been loaded. -/
structure Loaded where
  program : Program
  /-- The number of documents. -/
  fileCount : Nat
  /-- What was reported, in order. -/
  diagnostics : List Diagnostic

/-- Why loading failed, and what was reported before. -/
structure LoadFailure where
  error : LoadError
  diagnostics : List Diagnostic

/-- A step of loading. -/
abbrev LoadStep := Loaded → Except LoadFailure Loaded

namespace Loaded

/-- Nothing has been loaded. -/
def empty : Loaded := ⟨.empty, 0, []⟩

/-- Loading fails here. -/
def fail (loaded : Loaded) (error : LoadError) : Except LoadFailure Loaded :=
  .error ⟨error, loaded.diagnostics⟩

end Loaded

/-- The extension of model documents. -/
def modelExtension : String := "json"

/-- The path is that of a model document. -/
def isModelPath (path : String) : Bool := Path.extension? path = some modelExtension

/-- Load a model document from its bytes. -/
def loadFile (origin : Origin) (path : String) (content : ByteArray) : LoadStep := fun loaded =>
  match String.fromUTF8? content with
  | none => loaded.fail (.unreadable path .notText)
  | some text =>
    match parseModel text with
    | .error error => loaded.fail (.unparsable path error)
    | .ok classes =>
      let (program, diagnostics) := loaded.program.addClasses origin classes
      .ok ⟨program, loaded.fileCount + 1,
        loaded.diagnostics ++ .loaded path classes.length :: diagnostics⟩

/-- Steps one after the other. -/
def inTurn (steps : List LoadStep) : LoadStep := fun loaded =>
  steps.foldlM (fun loaded step => step loaded) loaded

/-- Put what belongs to paths in order of the paths. -/
def sortByPath {α : Type} (entries : List (String × α)) : List (String × α) :=
  entries.mergeSort fun a b => (compare a.1 b.1).isLE

/-- Load what a path that cannot be used stands for. A document cannot be read, anything else is
left out. -/
def loadUnusable (path : String) (error : PathError) : LoadStep := fun loaded =>
  if isModelPath path then loaded.fail (.unreadable path (.path error)) else .ok loaded

mutual

/-- Load what stands below a path. Files that are no documents are left out. -/
def loadNode (origin : Origin) (path : String) : FileNode → LoadStep
  | .file content => if isModelPath path then loadFile origin path content else .ok
  | .directory entries =>
    inTurn ((sortByPath (loadEntries origin path entries)).map Prod.snd)
  | .unreadable error => loadUnusable path error
  | .closed error => fun loaded => loaded.fail (.unreadable path (.listing error))

/-- How to load each entry of a directory, with its path. -/
def loadEntries (origin : Origin) (path : String) :
    List (String × FileNode) → List (String × LoadStep)
  | [] => []
  | (name, node) :: entries =>
    let entryPath := Path.join path name
    let step := match Path.check entryPath with
      | .ok () => loadNode origin entryPath node
      | .error error => loadUnusable entryPath error
    (entryPath, step) :: loadEntries origin path entries

end

/-- Load a path that was given: it must be a directory or a document. -/
def loadGiven (lookup : String → Except PathError FileNode) (origin : Origin) (path : String) :
    LoadStep := fun loaded =>
  match lookup path with
  | .ok node =>
    if node.isDirectory || isModelPath path then loadNode origin path node loaded
    else loaded.fail (.unsupported path)
  | .error error =>
    if isModelPath path then loaded.fail (.unreadable path (.path error))
    else loaded.fail (.unsupported path)

/-- Load an input and a classpath. -/
def loadInputs (lookup : String → Except PathError FileNode) (input : String)
    (classpath : List String) : Except LoadFailure Loaded := do
  let loaded ← loadGiven lookup .application input .empty
  let entries := classpath.mergeSort fun a b => (compare a b).isLE
  inTurn (entries.map (loadGiven lookup .library)) loaded

end DispatchGraph
