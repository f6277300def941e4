import DispatchGraph.Numeral.Binary64

/-!
# The shortest decimal that reads back

Of all decimals that round to a given number, `Magnitude.shortest` is one with the fewest digits,
and of those the nearest: it looks for the coarsest power of ten that has a multiple among the
decimals that round to the number.
-/

namespace DispatchGraph

/-- The decimal `digits * 10 ^ exponent`. -/
structure ShortDecimal where
  digits : Nat
  exponent : Int
  deriving DecidableEq

namespace Magnitude

/-- How far below a number the decimals lie that round to it, in quarters of `2 ^ exponent`: the
numbers are twice as dense below a power of two. -/
def lowerReach (x : Magnitude) : Nat :=
  if x.mantissa = Nat.pow 2 (precision - 1) ∧ minExponent < x.exponent then 1 else 2

/-- Whether `n * 10 ^ k` rounds to `x`. A tie goes to the even mantissa. -/
def isRoundedFrom (x : Magnitude) (n : Nat) (k : Int) : Bool :=
  let unit := Fraction.powTwo (x.exponent - 2)
  let value : Fraction := ⟨n * Nat.pow 10 k.toNat, Nat.pow 10 (-k).toNat⟩
  let low := Fraction.mul ⟨4 * x.mantissa - x.lowerReach, 1⟩ unit
  let high := Fraction.mul ⟨4 * x.mantissa + 2, 1⟩ unit
  if x.mantissa % 2 = 0 then low.le value && value.le high
  else !value.le low && !high.le value

/-- The multiple of `10 ^ k` that is nearest to `x` among those that round to `x`. -/
def nearestMultiple? (x : Magnitude) (k : Int) : Option Nat :=
  let quotient := x.toFraction.mul ⟨Nat.pow 10 (-k).toNat, Nat.pow 10 k.toNat⟩
  let below := quotient.num / quotient.den
  let nearest := quotient.round
  let other := if nearest = below then below + 1 else below
  if x.isRoundedFrom nearest k then some nearest
  else if x.isRoundedFrom other k then some other
  else none

/-- The exponent of ten of which every number of the format is a multiple. -/
def finestExponent : Int := -1074

/-- Search the powers of ten downwards from `finestExponent + n`. -/
def shortestFrom (x : Magnitude) : Nat → ShortDecimal
  | 0 => ⟨(x.toFraction.mul ⟨Nat.pow 10 (-finestExponent).toNat, 1⟩).round, finestExponent⟩
  | n + 1 =>
    let k := finestExponent + (n + 1 : Nat)
    match x.nearestMultiple? k with
    | some digits => ⟨digits, k⟩
    | none => x.shortestFrom n

/-- No number of the format reaches ten to this power. -/
def topExponent : Int := 309

/-- The shortest decimal that rounds to a number that is not zero. -/
def shortest (x : Magnitude) : ShortDecimal :=
  x.shortestFrom (topExponent - finestExponent).toNat

end Magnitude

end DispatchGraph
