/-!
# Double precision in exact arithmetic

A `Magnitude` is a nonnegative double-precision number, held as an integer times a power of two. The
operations are exact on fractions of natural numbers and round once, to the nearest number and in a
tie to the even one. A result that is too large for the format is `none`.
-/

namespace DispatchGraph

/-- The nonnegative number `mantissa * 2 ^ exponent`. -/
structure Magnitude where
  mantissa : Nat
  exponent : Int
  deriving DecidableEq

/-- A nonnegative fraction, not necessarily in lowest terms. -/
structure Fraction where
  num : Nat
  den : Nat

namespace Fraction

/-- `2 ^ e`. -/
def powTwo (e : Int) : Fraction := ⟨Nat.pow 2 e.toNat, Nat.pow 2 (-e).toNat⟩

/-- The product of two fractions. -/
def mul (a b : Fraction) : Fraction := ⟨a.num * b.num, a.den * b.den⟩

/-- The quotient, for a divisor that is not zero. -/
def div (a b : Fraction) : Fraction := ⟨a.num * b.den, a.den * b.num⟩

/-- `a ≤ b`, for denominators that are not zero. -/
def le (a b : Fraction) : Bool := a.num * b.den ≤ b.num * a.den

/-- The exponent `e` with `2 ^ e ≤ a < 2 ^ (e + 1)`, for a fraction that is not zero. -/
def log2 (a : Fraction) : Int :=
  let e : Int := (a.num.log2 : Int) - (a.den.log2 : Int)
  if (powTwo e).le a then e else e - 1

/-- The nearest natural number, in a tie the even one. -/
def round (a : Fraction) : Nat :=
  let below := a.num / a.den
  let twice := 2 * (a.num % a.den)
  if twice < a.den ∨ (twice = a.den ∧ below % 2 = 0) then below else below + 1

end Fraction

namespace Magnitude

/-- The number of binary digits of a mantissa. -/
def precision : Nat := 53

/-- The least exponent, that of the subnormal numbers. -/
def minExponent : Int := -1074

/-- The largest exponent. -/
def maxExponent : Int := 971

/-- The number zero. -/
def zero : Magnitude := ⟨0, minExponent⟩

/-- The number as a fraction. -/
def toFraction (x : Magnitude) : Fraction := Fraction.mul ⟨x.mantissa, 1⟩ (.powTwo x.exponent)

/-- The nearest number of the format, `none` if the fraction is too large for it. -/
def ofFraction (a : Fraction) : Option Magnitude :=
  if a.num = 0 then some zero
  else
    let e := max minExponent (a.log2 - (precision - 1))
    let m := (a.div (.powTwo e)).round
    let x : Magnitude :=
      if m = Nat.pow 2 precision then ⟨Nat.pow 2 (precision - 1), e + 1⟩ else ⟨m, e⟩
    if x.exponent ≤ maxExponent then some x else none

/-- The product, rounded. -/
def mul (x y : Magnitude) : Option Magnitude := ofFraction (x.toFraction.mul y.toFraction)

/-- The quotient, rounded, for a divisor that is not zero. -/
def div (x y : Magnitude) : Option Magnitude := ofFraction (x.toFraction.div y.toFraction)

/-- The largest power of ten by which a number is scaled at once. -/
def maxTens : Nat := 308

/-- `10 ^ n`, rounded. -/
def powTen (n : Nat) : Option Magnitude := ofFraction ⟨Nat.pow 10 n, 1⟩

/-- Divide by `10 ^ n` in steps of at most `maxTens` decimal places, rounding each step. -/
def scaleDown (x : Magnitude) (n : Nat) : Option Magnitude :=
  if n ≤ maxTens then do x.div (← powTen n)
  else if x.mantissa = 0 then some x
  else do
    let y ← x.div (← powTen maxTens)
    y.scaleDown (n - maxTens)
termination_by n
decreasing_by rename_i h _; unfold maxTens at *; omega

/-- The number nearest to `n`, scaled by `10 ^ e` in rounded steps; `none` if it is too large. -/
def ofScaled (n : Nat) (e : Int) : Option Magnitude := do
  let x ← ofFraction ⟨n, 1⟩
  if e < 0 then x.scaleDown (-e).toNat
  else if e.toNat ≤ maxTens then x.mul (← powTen e.toNat)
  else if n = 0 then some zero
  else none

end Magnitude

end DispatchGraph
