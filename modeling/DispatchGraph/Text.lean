/-!
# Cutting texts

Texts are cut as lists of characters: at every occurrence of a separator (`splitAll`), at the last
one (`splitLast?`), or into lines (`textLines`). The separator belongs to no part.
-/

namespace DispatchGraph

/-- The parts of a text between separators, empty ones included. -/
def splitAll (separator : Char) : List Char → List (List Char)
  | [] => [[]]
  | c :: cs =>
    if c = separator then [] :: splitAll separator cs
    else
      match splitAll separator cs with
      | [] => [[c]]
      | first :: rest => (c :: first) :: rest

/-- The parts of a text before and after the last separator. -/
def splitLast? (separator : Char) : List Char → Option (List Char × List Char)
  | [] => none
  | c :: cs =>
    match splitLast? separator cs with
    | some (before, after) => some (c :: before, after)
    | none => if c = separator then some ([], cs) else none

/-- The characters without a carriage return at their end. -/
def dropReturn (cs : List Char) : List Char :=
  if cs.getLast? = some '\r' then cs.dropLast else cs

/-- The lines of a text. A line ends with a newline, to which a carriage return before it belongs;
only the last line may lack an end. -/
def textLines (text : String) : List String :=
  let parts := splitAll '\n' text.toList
  let ended := parts.dropLast.map dropReturn
  let last := (parts.getLast?.filter (· ≠ [])).toList
  (ended ++ last).map String.ofList

end DispatchGraph
