import DispatchGraph.Text

/-!
# Paths

Paths are texts with segments between slashes. Empty segments and the segment `.` name the directory
they stand in, `..` names the one above it. The lengths of paths and of names are bounded.

* `Path.check`: whether a text can be used as a path at all.
* `Path.join`: the path of a directory's entry.
* `Path.extension?`: what follows the last dot of a file's name.
-/

namespace DispatchGraph

/-- Why a path cannot be used. -/
inductive PathError where
  | notFound
  | notDirectory
  | isDirectory
  | denied
  /-- A path or a name in it has too many bytes. -/
  | tooLong
  /-- A path has a null character. -/
  | nullCharacter
  /-- A reason of the system. -/
  | other (text : String)
  deriving DecidableEq

/-- The wording of an error. -/
def PathError.message : PathError → String
  | notFound => "No such file or directory (os error 2)"
  | notDirectory => "Not a directory (os error 20)"
  | isDirectory => "Is a directory (os error 21)"
  | denied => "Permission denied (os error 13)"
  | tooLong => "File name too long (os error 36)"
  | nullCharacter => "file name contained an unexpected NUL byte"
  | other text => text

end DispatchGraph

namespace DispatchGraph.Path

/-- The number of bytes that a path may have. -/
def maxPathBytes : Nat := 4095

/-- The number of bytes that a name in a path may have. -/
def maxNameBytes : Nat := 255

/-- Whether a text can be used as a path, whatever files there are. -/
def check (path : String) : Except PathError Unit :=
  if path = "" then .error .notFound
  else if '\x00' ∈ path.toList then .error .nullCharacter
  else if maxPathBytes < path.utf8ByteSize then .error .tooLong
  else .ok ()

/-- The segments of a path, empty ones included. -/
def segments (path : String) : List String := (splitAll '/' path.toList).map String.ofList

/-- The path begins at the root of all directories. -/
def isAbsolute (path : String) : Bool := path.toList.head? = some '/'

/-- The path of an entry of a directory. -/
def join (directory name : String) : String :=
  if directory.toList.getLast? = some '/' then directory ++ name else directory ++ "/" ++ name

/-- The segments that name something other than the directory they stand in. -/
def parts (path : String) : List String :=
  (segments path).filter fun segment => segment ≠ "" && segment ≠ "."

/-- The last name in a path. -/
def fileName? (path : String) : Option String :=
  match (parts path).getLast? with
  | some ".." => none
  | name => name

/-- The text after the last dot of a name. A name whose only dot is its first character has none. -/
def nameExtension? (name : String) : Option String :=
  match splitLast? '.' name.toList with
  | none => none
  | some (before, after) => if before = [] then none else some (String.ofList after)

/-- The extension of the last name in a path. -/
def extension? (path : String) : Option String := (fileName? path).bind nameExtension?

/-- The path is that of the file that is always empty, whatever is written to it. -/
def isNullDevice (path : String) : Bool :=
  isAbsolute path && parts path = ["dev", "null"] && (segments path).getLast? = some "null"

/-- The path is the one name and nothing else. -/
def isPlainName (path name : String) : Bool :=
  !isAbsolute path && (segments path).head? ≠ some "." && parts path = [name]

end DispatchGraph.Path
