import DispatchGraph.Numeral.Digits
import DispatchGraph.Text.CharacterClass

/-!
# Patterns for the values of fields

A log setting may ask for a field whose value matches a pattern, a regular expression. No diagnostic
is ever decided by such a value, so only the form of a pattern counts: a setting with a pattern that
cannot be read is no setting. The form is checked in one pass over the characters (`State.step`),
with a stack of the groups that are open.

A closing brace ends the field that a pattern belongs to, so no part of a pattern that needs one can
be complete: an opening brace outside of a set of characters is a fault.
-/

namespace DispatchGraph.MatchPattern

/-! ## Escapes -/

/-- What a backslash and the characters after it stand for. -/
inductive Escaped where
  /-- The character with a code point. -/
  | char (code : Nat)
  /-- Several characters. -/
  | several
  /-- A place in the text. -/
  | anchor
  /-- The begin or the end of a word. -/
  | wordEnd

/-- Where an escape stands. -/
inductive Site where
  /-- Outside of sets of characters. -/
  | outside
  /-- In a set. -/
  | member
  /-- In a set, as the last character of a range. -/
  | rangeEnd (first : Nat)

/-- The letter has a meaning after a backslash. -/
def escapedLetter? : Char → Option Escaped
  | 'a' => some (.char 0x7)
  | 'f' => some (.char 0xC)
  | 't' => some (.char 0x9)
  | 'n' => some (.char 0xA)
  | 'r' => some (.char 0xD)
  | 'v' => some (.char 0xB)
  | 'd' | 'D' | 's' | 'S' | 'w' | 'W' => some .several
  | 'A' | 'z' => some .anchor
  | 'b' | 'B' | '<' | '>' => some .wordEnd
  | _ => none

/-- The number of digits that a code point has after the letter. -/
def codeWidth? : Char → Option Nat
  | 'x' => some 2
  | 'u' => some 4
  | 'U' => some 8
  | _ => none

/-- The letter names a category of characters. -/
def isCategory (c : Char) : Bool := c.toLower ∈ ['l', 'm', 'n', 'p', 's', 'z', 'c']

/-! ## Flags and names of groups -/

/-- The letters of flags, and the dash before those that are taken away. -/
def flagChars : List Char := ['i', 'm', 's', 'U', 'u', 'R', 'x', '-']

/-- Whether a character may stand in the name of a group. -/
def isNameChar (first : Bool) (c : Char) : Bool :=
  c = '_' ||
    if first then isAlphanumeric c && !c.isDigit else isAlphanumeric c || c ∈ ['.', '[', ']']

/-! ## Reading a pattern -/

/-- What is being read. -/
inductive Mode where
  /-- Between the items of a sequence. -/
  | items
  /-- After a backslash. -/
  | escape (site : Site)
  /-- In a code point of which some digits are missing. -/
  | code (site : Site) (missing value : Nat)
  /-- After the sign of a category. -/
  | category (site : Site)
  /-- At the begin of a group. -/
  | group
  /-- After the question mark at the begin of a group. -/
  | groupMark
  /-- Before the angle bracket of a name. -/
  | nameMark
  /-- In the name of a group, last character first. -/
  | groupName (name : List Char)
  /-- In the flags of a group, last one first. -/
  | flags (seen : List Char)
  /-- At the begin of a set. -/
  | setStart (negated dashed : Bool)
  /-- Between the members of a set. -/
  | members
  /-- After a character that stands for an operation on sets if it comes twice. -/
  | single (c : Char)
  /-- After a member, which may begin a range if it is one character. -/
  | member (code : Option Nat)
  /-- After a member and a dash. -/
  | dash (code : Option Nat)

/-- How far a pattern has been read. -/
structure State where
  mode : Mode
  /-- There is something before this place that can be repeated. -/
  repeatable : Bool
  /-- Words are made of all letters, here and around the groups that are open. -/
  wide : Bool
  /-- What `wide` was where each open group begins, innermost first. -/
  groups : List Bool
  /-- The names of groups. -/
  names : List (List Char)
  /-- The number of sets that are open. -/
  depth : Nat

namespace State

/-- Nothing has been read. -/
def start : State := ⟨.items, false, true, [], [], 0⟩

/-- An item is complete. -/
def item (s : State) : State := { s with mode := .items, repeatable := true }

/-- A group begins. -/
def openGroup (s : State) (wide : Bool) : State :=
  { s with mode := .items, repeatable := false, wide, groups := s.wide :: s.groups }

/-- A group with a name begins. Names differ. -/
def openNamed (s : State) (name : List Char) : Option State :=
  if name = [] || name ∈ s.names then none
  else some { s.openGroup s.wide with names := name :: s.names }

/-- A group ends. -/
def closeGroup (s : State) : Option State :=
  match s.groups with
  | [] => none
  | wide :: groups => some { s.item with wide, groups }

/-- A set ends. -/
def closeSet (s : State) : State :=
  if s.depth ≤ 1 then { s.item with depth := 0 }
  else { s with mode := .members, depth := s.depth - 1 }

/-- An escape is complete. -/
def escaped (s : State) (site : Site) (e : Escaped) : Option State :=
  match site, e with
  | .outside, .wordEnd => if s.wide then none else some s.item
  | .outside, _ => some s.item
  | .member, .char code => some { s with mode := .member (some code) }
  | .member, .several => some { s with mode := .member none }
  | .rangeEnd first, .char code => if first ≤ code then some { s with mode := .members } else none
  | _, _ => none

/-- The character after a backslash. -/
def escape (s : State) (site : Site) (c : Char) : Option State :=
  match codeWidth? c with
  | some width => some { s with mode := .code site width 0 }
  | none =>
    if c = 'p' || c = 'P' then some { s with mode := .category site }
    else
      match escapedLetter? c with
      | some e => s.escaped site e
      | none => if c.isAlphanum || 0x80 ≤ c.toNat then none else s.escaped site (.char c.toNat)

/-- A digit of a code point. -/
def code (s : State) (site : Site) (missing value : Nat) (c : Char) : Option State := do
  let value := value * 16 + (← hexValue? c)
  if 1 < missing then some { s with mode := .code site (missing - 1) value }
  else if value.isValidChar then s.escaped site (.char value)
  else none

/-- A character between the items of a sequence. -/
def items (s : State) (c : Char) : Option State :=
  match c with
  | '\\' => some { s with mode := .escape .outside }
  | '(' => some { s with mode := .group }
  | ')' => s.closeGroup
  | '[' => some { s with mode := .setStart false false, depth := 1 }
  | '|' => some { s with repeatable := false }
  | '*' | '+' | '?' => if s.repeatable then some s else none
  | '{' => none
  | _ => some s.item

/-- The end of the flags of a group. The flags hold for the group, or, if there is none, up to the
end of the group around them. -/
def endFlags (s : State) (seen : List Char) (grouped : Bool) : Option State :=
  let wide := if 'u' ∉ seen then s.wide else '-' ∉ seen.dropWhile (· ≠ 'u')
  if seen.head? = some '-' then none
  else if grouped then some (s.openGroup wide)
  else if seen = [] then none
  else some { s with mode := .items, repeatable := false, wide }

/-- A character in the flags of a group. -/
def flags (s : State) (seen : List Char) (c : Char) : Option State :=
  if c = ':' then s.endFlags seen true
  else if c = ')' then s.endFlags seen false
  else if c ∈ flagChars && c ∉ seen then some { s with mode := .flags (c :: seen) }
  else none

/-- A character after the question mark at the begin of a group. -/
def groupMark (s : State) (c : Char) : Option State :=
  match c with
  | 'P' => some { s with mode := .nameMark }
  | '<' => some { s with mode := .groupName [] }
  | _ => s.flags [] c

/-- A character in the name of a group. -/
def groupName (s : State) (name : List Char) (c : Char) : Option State :=
  if c = '>' then s.openNamed name
  else if isNameChar name.isEmpty c then some { s with mode := .groupName (c :: name) }
  else none

/-- A character between the members of a set. -/
def members (s : State) (c : Char) : State :=
  match c with
  | '[' => { s with mode := .setStart false false, depth := s.depth + 1 }
  | ']' => s.closeSet
  | '&' | '-' | '~' => { s with mode := .single c }
  | '\\' => { s with mode := .escape .member }
  | _ => { s with mode := .member (some c.toNat) }

/-- A character at the begin of a set. Dashes count as members there, and a closing bracket does if
nothing but a caret stands before it. -/
def setStart (s : State) (negated dashed : Bool) (c : Char) : State :=
  if c = '^' && !negated && !dashed then { s with mode := .setStart true false }
  else if c = '-' then { s with mode := .setStart negated true }
  else if c = ']' && !dashed then { s with mode := .members }
  else s.members c

/-- A character after a member of a set. -/
def member (s : State) (code : Option Nat) (c : Char) : State :=
  if c = '-' then { s with mode := .dash code } else s.members c

/-- A character after a member of a set and a dash: the dash is a member, begins the sign for a
difference, or makes a range. -/
def dash (s : State) (code : Option Nat) (c : Char) : Option State :=
  match c, code with
  | ']', _ => some s.closeSet
  | '-', _ => some { s with mode := .members }
  | _, none => none
  | '\\', some first => some { s with mode := .escape (.rangeEnd first) }
  | c, some first => if first ≤ c.toNat then some { s with mode := .members } else none

/-- Read one character. -/
def step (s : State) (c : Char) : Option State :=
  match s.mode with
  | .items => s.items c
  | .escape site => s.escape site c
  | .code site missing value => s.code site missing value c
  | .category site => if isCategory c then s.escaped site .several else none
  | .group => if c = '?' then some { s with mode := .groupMark } else (s.openGroup s.wide).items c
  | .groupMark => s.groupMark c
  | .nameMark => if c = '<' then some { s with mode := .groupName [] } else none
  | .groupName name => s.groupName name c
  | .flags seen => s.flags seen c
  | .setStart negated dashed => some (s.setStart negated dashed c)
  | .members => some (s.members c)
  | .single first =>
    some (if c = first then { s with mode := .members } else s.member (some first.toNat) c)
  | .member code => some (s.member code c)
  | .dash code => s.dash code c

/-- All groups and sets have ended. -/
def isComplete (s : State) : Bool := s.mode matches .items && s.groups.isEmpty

end State

/-! ## The form of patterns -/

/-- The text has the form of a pattern. -/
def isRegular (text : List Char) : Bool := (text.foldlM State.step State.start).any State.isComplete

/-- Digits with a point between them or without, and an exponent or none. -/
def isDecimal (text : List Char) : Bool :=
  let whole := text.takeWhile Char.isDigit
  let rest := text.dropWhile Char.isDigit
  let fraction := if rest.head? = some '.' then (rest.drop 1).takeWhile Char.isDigit else []
  let rest := if rest.head? = some '.' then (rest.drop 1).dropWhile Char.isDigit else rest
  let exponent := match rest with
    | [] => true
    | e :: sign :: digits =>
      let digits := if sign = '+' || sign = '-' then digits else sign :: digits
      (e = 'e' || e = 'E') && digits ≠ [] && digits.all Char.isDigit
    | _ => false
  (whole ≠ [] || fraction ≠ []) && exponent

/-- The text is a number with a plus sign. -/
def isPositive : List Char → Bool
  | '+' :: text =>
    isDecimal text || String.ofList (text.map Char.toLower) ∈ ["inf", "infinity", "nan"]
  | _ => false

/-- The text can be asked for as a value: a pattern, or a number, which need not look like one. -/
def isValid (text : List Char) : Bool := isPositive text || isRegular text

end DispatchGraph.MatchPattern
