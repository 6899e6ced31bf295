/-!
# Binary floating point with 53 bits

A finite double is a sign and a magnitude `mantissa * 2 ^ exponent`. Rounding, multiplication and
division are exact computations on natural numbers, rounded once to the nearest double, a half going
to the even mantissa.
-/

namespace Offload.Numeric

/-- The number `mantissa * 2 ^ exponent`. In normal form the mantissa is below `2 ^ 53`, and either
it is at least `2 ^ 52` or the exponent is the least one. -/
structure Magnitude where
  mantissa : Nat
  exponent : Int
deriving DecidableEq, Repr

namespace Magnitude

/-- The exponent of the numbers next to zero. -/
def leastExponent : Int := -1074

/-- The exponent of the largest finite numbers. -/
def greatestExponent : Int := 971

/-- The least mantissa of 53 bits. -/
def leastNormalMantissa : Nat := 4503599627370496

/-- The least mantissa of more than 53 bits. -/
def mantissaBound : Nat := 9007199254740992

/-- Zero in normal form. -/
def zero : Magnitude := ⟨0, leastExponent⟩

/-- Numerator and denominator of the number that a magnitude stands for. -/
def ratio (x : Magnitude) : Nat × Nat :=
  if 0 ≤ x.exponent then (x.mantissa * Nat.pow 2 x.exponent.toNat, 1)
  else (x.mantissa, Nat.pow 2 (-x.exponent).toNat)

/-- Divides to the nearest integer, a half going to the even one. -/
def divNearestEven (num den : Nat) : Nat :=
  let q := num / den
  let r := num % den
  if 2 * r < den then q
  else if den < 2 * r then q + 1
  else if q % 2 = 0 then q else q + 1

/-- The quotient of `num / den` by `2 ^ e`, again as a fraction. -/
def scaled (num den : Nat) (e : Int) : Nat × Nat :=
  if 0 ≤ e then (num, den * Nat.pow 2 e.toNat) else (num * Nat.pow 2 (-e).toNat, den)

/-- The exponent at which `num / den` has a mantissa of 53 bits, or the least one. -/
def fittingExponent (num den : Nat) : Int :=
  let e : Int := max (num.log2 - den.log2 - 53) leastExponent
  let s := scaled num den e
  if mantissaBound ≤ s.1 / s.2 then e + 1 else e

/-- The magnitude nearest to `num / den`; `none` if that is beyond the finite ones. -/
def ofRatio? (num den : Nat) : Option Magnitude :=
  if num = 0 then some zero
  else
    let e := fittingExponent num den
    let s := scaled num den e
    let m := divNearestEven s.1 s.2
    let x : Magnitude := if m = mantissaBound then ⟨leastNormalMantissa, e + 1⟩ else ⟨m, e⟩
    if greatestExponent < x.exponent then none else some x

/-- The product, rounded; `none` on overflow. -/
def mul? (x y : Magnitude) : Option Magnitude :=
  ofRatio? (x.ratio.1 * y.ratio.1) (x.ratio.2 * y.ratio.2)

/-- The quotient by a positive magnitude, rounded; `none` on overflow. -/
def div? (x y : Magnitude) : Option Magnitude :=
  ofRatio? (x.ratio.1 * y.ratio.2) (x.ratio.2 * y.ratio.1)

end Magnitude

/-- A finite double. Zero has both signs. -/
structure Binary64 where
  negative : Bool
  magnitude : Magnitude
deriving DecidableEq, Repr

example : Magnitude.ofRatio? 1 10 = some ⟨7205759403792794, -56⟩ := by decide
example : Magnitude.ofRatio? 1 1 = some ⟨4503599627370496, -52⟩ := by decide

end Offload.Numeric
