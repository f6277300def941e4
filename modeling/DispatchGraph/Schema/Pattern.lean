/-!
# Patterns of texts

A pattern is a sequence of character classes, each once, any number of times, or at least once. It
matches whole texts. A pattern is written as a regular expression (`Pattern.text`).
-/

namespace DispatchGraph

/-- A class of characters. -/
inductive CharClass where
  /-- One character. -/
  | literal (char : Char)
  /-- Every character but the line feed. -/
  | any
  /-- Every character but these. -/
  | noneOf (chars : List Char)
  deriving DecidableEq

/-- How often a character of a class stands in a text. -/
inductive Repeat where
  | once | many | atLeastOnce
  deriving DecidableEq

/-- A class with the number of its characters. -/
structure Piece where
  charClass : CharClass
  times : Repeat
  deriving DecidableEq

/-- A pattern. -/
structure Pattern where
  pieces : List Piece
  deriving DecidableEq

/-! ## Matching -/

/-- The character is in the class. -/
def CharClass.accepts : CharClass → Char → Bool
  | literal char, c => c = char
  | any, c => c ≠ '\n'
  | noneOf chars, c => c ∉ chars

/-- Some number of accepted characters, then a rest of the text that satisfies `rest`. -/
def manyThen (accepts : Char → Bool) (rest : List Char → Bool) : List Char → Bool
  | [] => rest []
  | c :: cs => rest (c :: cs) || (accepts c && manyThen accepts rest cs)

/-- The pieces match the whole text. -/
def matchPieces : List Piece → List Char → Bool
  | [], cs => cs.isEmpty
  | ⟨charClass, .once⟩ :: pieces, c :: cs => charClass.accepts c && matchPieces pieces cs
  | ⟨charClass, .many⟩ :: pieces, cs => manyThen charClass.accepts (matchPieces pieces) cs
  | ⟨charClass, .atLeastOnce⟩ :: pieces, c :: cs =>
    charClass.accepts c && manyThen charClass.accepts (matchPieces pieces) cs
  | _ :: _, [] => false

/-- The pattern matches the whole text. -/
def Pattern.isMatch (p : Pattern) (text : String) : Bool := matchPieces p.pieces text.toList

/-! ## The written form -/

/-- The written form of a class. Parentheses, dots and opening brackets that stand for themselves
are escaped, the first two outside brackets only. -/
def CharClass.text : CharClass → String
  | literal char =>
    if char = '(' ∨ char = ')' ∨ char = '.' then "\\" ++ char.toString else char.toString
  | any => "."
  | noneOf chars =>
    "[^" ++ String.join (chars.map fun c => if c = '[' then "\\[" else c.toString) ++ "]"

/-- The written form of a number of times. -/
def Repeat.text : Repeat → String
  | once => ""
  | many => "*"
  | atLeastOnce => "+"

/-- The written form of a pattern. -/
def Pattern.text (p : Pattern) : String :=
  "^" ++ String.join (p.pieces.map fun piece => piece.charClass.text ++ piece.times.text) ++ "$"

end DispatchGraph
