import DispatchGraph.Json.Number
import DispatchGraph.Sorted

/-!
# JSON values

The values that documents are read into and reports are made of. The fields of an object are kept in
the order in which they are written; `Json.ofFields` puts them in the order of their names and keeps
the last of each name, which is what a reader of documents makes of an object.
-/

namespace DispatchGraph

/-- A JSON value. -/
inductive Json where
  | null
  | bool (value : Bool)
  | num (value : Number)
  | str (value : String)
  | arr (items : List Json)
  | obj (fields : List (String × Json))

namespace Json

/-- A natural number as a value. -/
def nat (n : Nat) : Json := num (.int n)

/-- A list of texts as a value. -/
def strings (xs : List String) : Json := arr (xs.map str)

/-- An absent value is null. -/
def ofOption {α : Type} (f : α → Json) : Option α → Json
  | none => null
  | some a => f a

/-- Add a field in its place; a field of that name that is there goes. -/
def putField (fields : List (String × Json)) (name : String) (value : Json) :
    List (String × Json) :=
  insertLast Prod.fst (name, value) fields

/-- The object with the given fields, in order of their names, the last of each name. -/
def ofFields (fields : List (String × Json)) : Json :=
  obj (fields.foldl (fun done field => putField done field.1 field.2) [])

/-- The field of an object with a given name. -/
def field? : Json → String → Option Json
  | obj fields, name => (fields.find? fun field => field.1 = name).map Prod.snd
  | _, _ => none

/-- The text, if the value is one. -/
def str? : Json → Option String
  | str value => some value
  | _ => none

/-- The items, if the value is a list. -/
def arr? : Json → Option (List Json)
  | arr items => some items
  | _ => none

/-- The natural number, if the value is one. -/
def nat? : Json → Option Nat
  | num (.int (.ofNat n)) => some n
  | _ => none

end Json

end DispatchGraph
