import DispatchGraph.Json.Token

/-!
# Reading JSON texts

`Json.parse` reads a text that is one JSON value. The tokens are taken one at a time
(`Reading.step`) with a stack of the lists and objects that are open. At most `maxDepth` of them
may be open at once. Of two fields with one name the later counts, and fields come out in order of
their names.
-/

namespace DispatchGraph.Json

/-- How many lists and objects may be open at once. -/
def maxDepth : Nat := 127

/-- A list or an object that waits for a value. Items are held last first. -/
inductive Frame where
  | items (done : List Json)
  | fields (done : List (String × Json)) (name : String)

/-- What a reader expects next. -/
inductive Reading where
  /-- A value. -/
  | anyValue (stack : List Frame)
  /-- An item or the end of a list. -/
  | firstItem (stack : List Frame)
  /-- A comma or the end of a list. -/
  | moreItems (done : List Json) (stack : List Frame)
  /-- A name or the end of an object. -/
  | firstName (stack : List Frame)
  /-- A name. -/
  | nextName (done : List (String × Json)) (stack : List Frame)
  /-- The colon after a name. -/
  | colon (done : List (String × Json)) (name : String) (stack : List Frame)
  /-- A comma or the end of an object. -/
  | moreFields (done : List (String × Json)) (stack : List Frame)
  /-- Nothing. -/
  | done (value : Json)

namespace Reading

/-- A value is complete: it goes into the innermost open list or object. -/
def complete (value : Json) : List Frame → Reading
  | [] => done value
  | .items items :: stack => moreItems (value :: items) stack
  | .fields fields name :: stack => moreFields (putField fields name value) stack

/-- A token where a value is due. -/
def start (stack : List Frame) : Token → Option Reading
  | .scalar value => some (complete value stack)
  | .string value => some (complete (str value) stack)
  | .openArray => if stack.length < maxDepth then some (firstItem stack) else none
  | .openObject => if stack.length < maxDepth then some (firstName stack) else none
  | _ => none

/-- Take one token. -/
def step : Reading → Token → Option Reading
  | anyValue stack, token => start stack token
  | firstItem stack, .closeArray => some (complete (arr []) stack)
  | firstItem stack, token => start (.items [] :: stack) token
  | moreItems items stack, .comma => some (anyValue (.items items :: stack))
  | moreItems items stack, .closeArray => some (complete (arr items.reverse) stack)
  | firstName stack, .closeObject => some (complete (obj []) stack)
  | firstName stack, .string name => some (colon [] name stack)
  | nextName fields stack, .string name => some (colon fields name stack)
  | colon fields name stack, .colon => some (anyValue (.fields fields name :: stack))
  | moreFields fields stack, .comma => some (nextName fields stack)
  | moreFields fields stack, .closeObject => some (complete (obj fields) stack)
  | _, _ => none

/-- Take tokens one after the other. -/
def run (reading : Reading) : List Token → Option Reading
  | [] => some reading
  | token :: tokens => (reading.step token).bind fun next => next.run tokens

/-- The value, if it is complete. -/
def result? : Reading → Option Json
  | done value => some value
  | _ => none

end Reading

/-- The value that tokens stand for. -/
def ofTokens? (tokens : List Token) : Option Json :=
  ((Reading.anyValue []).run tokens).bind Reading.result?

/-- Read a text that is one JSON value. -/
def parse (text : String) : Option Json := (tokens text.toList).bind ofTokens?

end DispatchGraph.Json
