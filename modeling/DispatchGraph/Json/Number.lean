import DispatchGraph.Numeral.Digits
import DispatchGraph.Numeral.Shortest

/-!
# JSON numbers

A number is an integer that fits 64 bits, signed or unsigned, or else a double-precision number; so
is a negative zero, which has no integer form.

* `Number.read`: the number that a text stands for, if it follows the grammar and is not too large.
* `Number.chars`: integers in full, doubles with the fewest digits that read back. Doubles are
  written positionally from `1e-5` up to, but not including, `1e16`.

A significand keeps as many leading digits as fit 64 bits. Digits before the point that do not fit
count as tens; those after it are dropped.
-/

namespace DispatchGraph

/-- A JSON number. -/
inductive Number where
  | int (value : Int)
  | double (negative : Bool) (magnitude : Magnitude)
  deriving DecidableEq

namespace Number

/-! ## Reading -/

/-- The largest significand. -/
def maxSignificand : Nat := Nat.pow 2 64 - 1

/-- Append digits to a significand as long as it fits; the digits that are left. -/
def absorb (n : Nat) : List Char → Nat × List Char
  | [] => (n, [])
  | c :: cs =>
    let m := 10 * n + digitValue c
    if m ≤ maxSignificand then absorb m cs else (n, c :: cs)

/-- The parts of a number's text. -/
structure Parts where
  negative : Bool
  /-- The digits before the point. -/
  whole : List Char
  /-- The digits after the point, if there is one. -/
  fraction : Option (List Char)
  /-- The power of ten, if one is written. -/
  power : Option Int

/-- Split off the digits at the front, of which there must be one. -/
def takeDigits? (cs : List Char) : Option (List Char × List Char) :=
  match cs.takeWhile Char.isDigit with
  | [] => none
  | digits => some (digits, cs.dropWhile Char.isDigit)

/-- Read the power of ten at the end of a number, if there is one. -/
def readPower? : List Char → Option (Option Int)
  | [] => some none
  | c :: cs =>
    if c = 'e' ∨ c = 'E' then
      let (negative, cs) := match cs with
        | '-' :: cs => (true, cs)
        | '+' :: cs => (false, cs)
        | cs => (false, cs)
      match takeDigits? cs with
      | some (digits, []) =>
        some (some (if negative then -(digitsValue digits : Int) else digitsValue digits))
      | _ => none
    else none

/-- Split the text of a number. A whole part has no leading zero, and digits follow a point. -/
def split? (text : List Char) : Option Parts := do
  let (negative, cs) := match text with
    | '-' :: cs => (true, cs)
    | cs => (false, cs)
  let (whole, cs) ← takeDigits? cs
  if whole.head? = some '0' ∧ whole.length ≠ 1 then none
  else
    match cs with
    | '.' :: cs =>
      let (fraction, cs) ← takeDigits? cs
      return ⟨negative, whole, some fraction, ← readPower? cs⟩
    | cs => return ⟨negative, whole, none, ← readPower? cs⟩

/-- An integer, unless it is a negative zero or less than every signed 64-bit integer. -/
def ofSignificand (negative : Bool) (n : Nat) : Option Number :=
  if !negative then some (int n)
  else if n = 0 ∨ Nat.pow 2 63 < n then (Magnitude.ofScaled n 0).map (double true)
  else some (int (-n))

/-- The number with the given parts, `none` if it is too large. -/
def ofParts (p : Parts) : Option Number :=
  let (n, unfit) := absorb 0 p.whole
  match p.fraction, p.power, unfit with
  | none, none, [] => ofSignificand p.negative n
  | fraction, power, unfit =>
    let digits := fraction.getD []
    let (n, dropped) := absorb n digits
    let exponent : Int := power.getD 0 + unfit.length - (digits.length - dropped.length)
    (Magnitude.ofScaled n exponent).map (double p.negative)

/-- The number that a text stands for. -/
def read (text : List Char) : Option Number := (split? text).bind ofParts

/-! ## Writing -/

/-- The decimal digits of an integer, with its sign. -/
def intChars : Int → List Char
  | .ofNat n => natChars n
  | .negSucc n => '-' :: natChars (n + 1)

/-- The least power of ten that is written positionally. -/
def minPositional : Int := -5

/-- The least power of ten above those that are written positionally. -/
def maxPositional : Int := 16

/-- Lay out a decimal: positionally with a point and a digit after it, or with a power of ten. -/
def decimalChars (d : ShortDecimal) : List Char :=
  let digits := natChars d.digits
  let lead : Int := d.exponent + (digits.length - 1 : Nat)
  if minPositional ≤ lead ∧ lead < maxPositional then
    if 0 ≤ d.exponent then digits ++ List.replicate d.exponent.toNat '0' ++ ['.', '0']
    else if 0 ≤ lead then
      digits.take (lead.toNat + 1) ++ '.' :: digits.drop (lead.toNat + 1)
    else ['0', '.'] ++ List.replicate ((-lead).toNat - 1) '0' ++ digits
  else
    let mantissa := match digits with
      | first :: c :: cs => first :: '.' :: c :: cs
      | digits => digits
    mantissa ++ 'e' :: (if lead < 0 then '-' else '+') :: natChars lead.natAbs

/-- The written form of a number. -/
def chars : Number → List Char
  | int value => intChars value
  | double negative magnitude =>
    let unsigned :=
      if magnitude.mantissa = 0 then ['0', '.', '0'] else decimalChars magnitude.shortest
    if negative then '-' :: unsigned else unsigned

end Number

end DispatchGraph
