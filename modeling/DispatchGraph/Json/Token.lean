import DispatchGraph.Json.Basic

/-!
# Tokens of JSON texts

`Json.tokens` cuts a text into tokens, one character at a time (`Scan.step`). Between tokens stand
spaces, tabs, line feeds and carriage returns and nothing else. A string holds no control character;
its escapes are the JSON ones, and an escaped high surrogate is followed by an escaped low one.
-/

namespace DispatchGraph.Json

/-- A token. -/
inductive Token where
  | openObject | closeObject | openArray | closeArray | comma | colon
  | string (value : String)
  /-- A number or a literal name. -/
  | scalar (value : Json)

/-- Where the scanner stands. Characters of an unfinished token are held last first. -/
inductive Scan where
  /-- Between tokens. -/
  | between
  /-- Inside a string. -/
  | quoted (chars : List Char)
  /-- After a backslash. -/
  | escape (chars : List Char)
  /-- Inside a hexadecimal escape: the high surrogate before it, and the digits so far. -/
  | unicode (chars : List Char) (high : Option Nat) (count value : Nat)
  /-- After an escaped high surrogate. -/
  | lowEscape (chars : List Char) (high : Nat)
  /-- After an escaped high surrogate and a backslash. -/
  | lowUnicode (chars : List Char) (high : Nat)
  /-- Inside a number. -/
  | number (chars : List Char)
  /-- Inside a literal name. -/
  | word (chars : List Char)

/-! ## Character classes -/

/-- The characters that may stand between tokens. -/
def isBlank (c : Char) : Bool := c = ' ' || c = '\t' || c = '\n' || c = '\r'

/-- The characters that numbers are made of. -/
def isNumeric (c : Char) : Bool :=
  c.isDigit || c = '-' || c = '+' || c = '.' || c = 'e' || c = 'E'

/-- A character that a string must not hold as it is. -/
def isControl (c : Char) : Bool := c.toNat < 0x20

/-- The first half of a pair of code units. -/
def isHighSurrogate (n : Nat) : Bool := 0xD800 ≤ n && n ≤ 0xDBFF

/-- The second half of a pair of code units. -/
def isLowSurrogate (n : Nat) : Bool := 0xDC00 ≤ n && n ≤ 0xDFFF

/-- What a character stands for after a backslash. -/
def unescape? : Char → Option Char
  | '"' => some '"'
  | '\\' => some '\\'
  | '/' => some '/'
  | 'b' => some '\x08'
  | 'f' => some '\x0c'
  | 'n' => some '\n'
  | 'r' => some '\r'
  | 't' => some '\t'
  | _ => none

/-- The code point of a surrogate pair. -/
def joinSurrogates (high low : Nat) : Char :=
  Char.ofNat (0x10000 + (high - 0xD800) * 0x400 + (low - 0xDC00))

/-- The value of a literal name. -/
def ofWord? (word : List Char) : Option Json :=
  if word = ['n', 'u', 'l', 'l'] then some null
  else if word = ['t', 'r', 'u', 'e'] then some (bool true)
  else if word = ['f', 'a', 'l', 's', 'e'] then some (bool false)
  else none

/-! ## The scanner -/

namespace Scan

/-- The start of a token, or a blank: the token that is complete with it, and where it leads. -/
def start (c : Char) : Option (List Token × Scan) :=
  if isBlank c then some ([], between)
  else if c = '"' then some ([], quoted [])
  else if c = '-' || c.isDigit then some ([], number [c])
  else if c.isAlpha then some ([], word [c])
  else match c with
    | '\x7b' => some ([.openObject], between)
    | '\x7d' => some ([.closeObject], between)
    | '[' => some ([.openArray], between)
    | ']' => some ([.closeArray], between)
    | ',' => some ([.comma], between)
    | ':' => some ([.colon], between)
    | _ => none

/-- The last digit of a hexadecimal escape has been read. -/
def endUnicode (chars : List Char) (high : Option Nat) (unit : Nat) : Option (List Token × Scan) :=
  match high with
  | some high =>
    if isLowSurrogate unit then some ([], quoted (joinSurrogates high unit :: chars)) else none
  | none =>
    if isHighSurrogate unit then some ([], lowEscape chars unit)
    else if isLowSurrogate unit then none
    else some ([], quoted (Char.ofNat unit :: chars))

/-- The tokens that end where the text ends or another token begins. -/
def finish : Scan → Option (List Token)
  | between => some []
  | number chars => (Number.read chars.reverse).map fun n => [.scalar (num n)]
  | word chars => (ofWord? chars.reverse).map fun v => [.scalar v]
  | _ => none

/-- Read one character: the tokens that are complete, and where the scanner stands. -/
def step (state : Scan) (c : Char) : Option (List Token × Scan) :=
  match state with
  | between => start c
  | quoted chars =>
    if c = '"' then some ([.string (String.ofList chars.reverse)], between)
    else if c = '\\' then some ([], escape chars)
    else if isControl c then none
    else some ([], quoted (c :: chars))
  | escape chars =>
    if c = 'u' then some ([], unicode chars none 0 0)
    else (unescape? c).map fun d => ([], quoted (d :: chars))
  | unicode chars high count value =>
    match hexValue? c with
    | none => none
    | some digit =>
      let value := 16 * value + digit
      if count = 3 then endUnicode chars high value
      else some ([], unicode chars high (count + 1) value)
  | lowEscape chars high => if c = '\\' then some ([], lowUnicode chars high) else none
  | lowUnicode chars high => if c = 'u' then some ([], unicode chars (some high) 0 0) else none
  | number chars =>
    if isNumeric c then some ([], number (c :: chars))
    else do
      let done ← finish (number chars)
      let (more, next) ← start c
      return (done ++ more, next)
  | word chars =>
    if c.isAlpha then some ([], word (c :: chars))
    else do
      let done ← finish (word chars)
      let (more, next) ← start c
      return (done ++ more, next)

/-- The tokens of the rest of a text. -/
def run (state : Scan) : List Char → Option (List Token)
  | [] => state.finish
  | c :: cs =>
    match state.step c with
    | none => none
    | some (done, next) => (next.run cs).map (done ++ ·)

end Scan

/-- The tokens of a text, `none` if it has a part that is no token. -/
def tokens (text : List Char) : Option (List Token) := Scan.between.run text

end DispatchGraph.Json
