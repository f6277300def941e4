import DispatchGraph.Json.Basic

/-!
# Writing JSON values

`Json.compact` writes a value without blanks, `Json.pretty` on lines that are indented by two
spaces. Strings escape quotes, backslashes and control characters and nothing else; five control
characters have short escapes.
-/

namespace DispatchGraph.Json

/-- A lower-case hexadecimal digit. -/
def hexDigit (n : Nat) : Char := Nat.digitChar n

/-- The written form of a character of a string. -/
def escapeChar (c : Char) : List Char :=
  match c with
  | '"' => ['\\', '"']
  | '\\' => ['\\', '\\']
  | '\x08' => ['\\', 'b']
  | '\x0c' => ['\\', 'f']
  | '\n' => ['\\', 'n']
  | '\r' => ['\\', 'r']
  | '\t' => ['\\', 't']
  | c =>
    if c.toNat < 0x20 then ['\\', 'u', '0', '0', hexDigit (c.toNat / 16), hexDigit (c.toNat % 16)]
    else [c]

/-- The written form of a string. -/
def quote (s : String) : List Char := '"' :: (s.toList.flatMap escapeChar ++ ['"'])

/-! ## Without blanks -/

mutual

/-- The written form of a value, without blanks. -/
def chars : Json → List Char
  | null => ['n', 'u', 'l', 'l']
  | bool true => ['t', 'r', 'u', 'e']
  | bool false => ['f', 'a', 'l', 's', 'e']
  | num value => value.chars
  | str value => quote value
  | arr items => '[' :: (itemsChars items ++ [']'])
  | obj fields => '\x7b' :: (fieldsChars fields ++ ['\x7d'])

/-- Items with commas between them. -/
def itemsChars : List Json → List Char
  | [] => []
  | [item] => chars item
  | item :: items => chars item ++ ',' :: itemsChars items

/-- Fields with commas between them. -/
def fieldsChars : List (String × Json) → List Char
  | [] => []
  | [(name, value)] => quote name ++ ':' :: chars value
  | (name, value) :: fields => quote name ++ ':' :: (chars value ++ ',' :: fieldsChars fields)

end

/-- A value on one line without blanks. -/
def compact (value : Json) : String := String.ofList value.chars

/-! ## On indented lines -/

/-- A new line with an indentation. -/
def newline (depth : Nat) : List Char := '\n' :: List.replicate (2 * depth) ' '

mutual

/-- The written form of a value on lines that are indented by `depth` steps. -/
def prettyChars (depth : Nat) : Json → List Char
  | arr [] => ['[', ']']
  | arr items => '[' :: (prettyItems (depth + 1) items ++ newline depth ++ [']'])
  | obj [] => ['\x7b', '\x7d']
  | obj fields => '\x7b' :: (prettyFields (depth + 1) fields ++ newline depth ++ ['\x7d'])
  | value => chars value

/-- Items on lines of their own. -/
def prettyItems (depth : Nat) : List Json → List Char
  | [] => []
  | [item] => newline depth ++ prettyChars depth item
  | item :: items => newline depth ++ prettyChars depth item ++ ',' :: prettyItems depth items

/-- Fields on lines of their own. -/
def prettyFields (depth : Nat) : List (String × Json) → List Char
  | [] => []
  | [(name, value)] => newline depth ++ quote name ++ ':' :: ' ' :: prettyChars depth value
  | (name, value) :: fields =>
    newline depth ++ quote name ++ ':' :: ' ' :: prettyChars depth value
      ++ ',' :: prettyFields depth fields

end

/-- A value on lines that are indented by two spaces. -/
def pretty (value : Json) : String := String.ofList (prettyChars 0 value)

end DispatchGraph.Json
