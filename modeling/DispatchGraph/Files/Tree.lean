import DispatchGraph.Files.Path

/-!
# File trees

The files that a run can see: a file holds bytes, a directory has named entries in no particular
order. A file that cannot be read and a directory that cannot be listed have their place in the tree
too, with the reason. Paths are followed from a working directory (`FileNode.lookup`), and what lies
above it cannot be seen, apart from the null device.

* `FileNode.lookup`: what a path leads to, or why it leads nowhere.
* `FileNode.write`: the tree after a file was written, or why it cannot be.
* `FileNode.makeFile`, `FileNode.makeDirectory`: the tree after a file or a directory was made, with
  all directories on the way.
-/

namespace DispatchGraph

/-- A file or a directory. -/
inductive FileNode where
  | file (content : ByteArray)
  | directory (entries : List (String × FileNode))
  /-- A file that cannot be read. -/
  | unreadable (error : PathError)
  /-- A directory whose entries cannot be listed. -/
  | closed (error : PathError)

namespace FileNode

/-- Whether a node can hold others. -/
def isDirectory : FileNode → Bool
  | file _ => false
  | directory _ => true
  | unreadable _ => false
  | closed _ => true

/-- An entry of a directory. -/
def child? (entries : List (String × FileNode)) (name : String) : Option FileNode :=
  (entries.find? fun entry => entry.1 = name).map Prod.snd

/-- What a name leads to from a node. -/
def follow (name : String) : FileNode → Except PathError FileNode
  | file _ => .error .notDirectory
  | directory entries => (child? entries name).elim (.error .notFound) .ok
  | unreadable _ => .error .notDirectory
  | closed error => .error error

/-! ## Following paths -/

/-- A place in a tree: a node, its name, and the directories above it, innermost first. -/
structure Place where
  node : FileNode
  /-- The names that lead to the node, last first. -/
  names : List String
  /-- The directories above the node. -/
  above : List FileNode

/-- Follow one segment. -/
def Place.step (place : Place) (segment : String) : Except PathError Place :=
  if !place.node.isDirectory then .error .notDirectory
  else if segment = "" ∨ segment = "." then .ok place
  else if segment = ".." then
    match place.above with
    | parent :: above => .ok ⟨parent, place.names.drop 1, above⟩
    | [] => .error .notFound
  else if Path.maxNameBytes < segment.utf8ByteSize then .error .tooLong
  else
    (place.node.follow segment).map fun node =>
      ⟨node, segment :: place.names, place.node :: place.above⟩

/-- The place that segments lead to from a working directory. -/
def locate (root : FileNode) (segments : List String) : Except PathError Place :=
  segments.foldlM Place.step ⟨root, [], []⟩

/-- What a path leads to. -/
def lookup (root : FileNode) (path : String) : Except PathError FileNode := do
  Path.check path
  if Path.isNullDevice path then .ok (file .empty)
  else if Path.isAbsolute path then .error .notFound
  else (root.locate (Path.segments path)).map Place.node

/-! ## Changing trees -/

/-- The entries with one of them changed, which is added at the end if there is none. -/
def updateEntry (name : String) (change : Option FileNode → FileNode) :
    List (String × FileNode) → List (String × FileNode)
  | [] => [(name, change none)]
  | (other, node) :: entries =>
    if other = name then (other, change (some node)) :: entries
    else (other, node) :: updateEntry name change entries

/-- Change the node that names lead to, with the directories on the way. -/
def update (change : Option FileNode → FileNode) : List String → Option FileNode → FileNode
  | [], node => change node
  | name :: names, some (directory entries) =>
    directory (updateEntry name (update change names) entries)
  | name :: names, _ => directory [(name, update change names none)]

/-- Put a file or an empty directory where names lead. A directory that is there stays. -/
def put (root : FileNode) (names : List String) (node : FileNode) : FileNode :=
  update (fun
    | some there => if there.isDirectory && node.isDirectory then there else node
    | none => node) names (some root)

/-- Make the directories that parts of a path lead through. The result is the tree, and the names
that lead to where the parts end, last first. -/
def makeParts (root : FileNode) (parts : List String) : FileNode × List String :=
  parts.foldl (fun (tree, names) part =>
    if part = ".." then (tree, names.drop 1)
    else (tree.put (part :: names).reverse (directory []), part :: names)) (root, [])

/-- Make a directory. -/
def makeDirectory (root : FileNode) (path : String) : FileNode :=
  (root.makeParts (Path.parts path)).1

/-- Make a file. -/
def makeFile (root : FileNode) (path : String) (content : ByteArray) : FileNode :=
  let parts := Path.parts path
  let (tree, names) := root.makeParts parts.dropLast
  tree.put (names.reverse ++ parts.getLast?.toList) (file content)

/-- Write a file. The directory that holds it must be there, and no directory may have its name. -/
def write (root : FileNode) (path : String) (content : ByteArray) : Except PathError FileNode := do
  Path.check path
  if Path.isNullDevice path then .ok root
  else if Path.isAbsolute path then .error .notFound
  else
    let segments := Path.segments path
    let named := (segments.reverse.dropWhile (· = "")).reverse
    match named.getLast? with
    | none => .error .notFound
    | some name => do
      let parent ← root.locate named.dropLast
      match parent.node with
      | file _ => .error .notDirectory
      | directory entries =>
        let taken := (child? entries name).any isDirectory
        if taken || name = "." || name = ".." || segments.length ≠ named.length then
          .error .isDirectory
        else if Path.maxNameBytes < name.utf8ByteSize then .error .tooLong
        else .ok (root.put (parent.names.reverse ++ [name]) (file content))
      | unreadable _ => .error .notDirectory
      | closed error => .error error

end FileNode

end DispatchGraph
