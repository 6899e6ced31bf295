import Offload.Numeric.Binary64

/-!
# The shortest decimal that reads back

`shortest x` is the decimal with the fewest digits among those that round to `x`, and of these the
one nearest to `x`. All comparisons are made on natural numbers.
-/

namespace Offload.Numeric

/-- The number `digits * 10 ^ exponent`. -/
structure Decimal where
  digits : Nat
  exponent : Int
deriving DecidableEq, Repr

/-- The decimal digits of `n`, most significant first, at most `fuel` of them, before `tail`. -/
def digitsFrom : Nat → Nat → List Nat → List Nat
  | 0, _, tail => tail
  | fuel + 1, n, tail => if n < 10 then n :: tail else digitsFrom fuel (n / 10) (n % 10 :: tail)

/-- The decimal digits of `n`, most significant first. -/
def decimalDigits (n : Nat) : List Nat := digitsFrom (n + 1) n []

/-- The text of `n` in decimal. -/
def decimalText (n : Nat) : List Char := (decimalDigits n).map fun d => Char.ofNat (48 + d)

/-- How often `num` can be multiplied by ten, at most `fuel` times, before it reaches `den`. -/
def leadingZeros : Nat → Nat → Nat → Nat
  | 0, _, _ => 0
  | fuel + 1, num, den => if den ≤ num then 0 else leadingZeros fuel (num * 10) den + 1

/-- The exponent of the first decimal digit of the positive number `num / den`. -/
def leadingExponent (num den : Nat) : Int :=
  if den ≤ num then (decimalDigits (num / den)).length - 1
  else -(leadingZeros 400 num den : Nat)

namespace Magnitude

/-- Half the distance from `x` to the number below it, in quarters of its last place. -/
def gapBelow (x : Magnitude) : Nat :=
  if x.mantissa = Magnitude.leastNormalMantissa ∧ leastExponent < x.exponent then 1 else 2

/-- Whether `num / den` rounds to `x`: it lies in the interval around `x`, whose ends belong to it
iff the mantissa is even. -/
def roundsTo (x : Magnitude) (num den : Nat) : Bool :=
  let unit := ratio ⟨1, x.exponent - 2⟩
  let lhs := num * unit.2
  let low := (4 * x.mantissa - x.gapBelow) * unit.1 * den
  let high := (4 * x.mantissa + 2) * unit.1 * den
  if x.mantissa % 2 = 0 then low ≤ lhs && lhs ≤ high else low < lhs && lhs < high

/-- Of the two neighbours of `x` on the grid of multiples of `10 ^ k`, the nearer one that rounds to
`x`; an exact tie goes to the even neighbour. -/
def onGrid? (x : Magnitude) (k : Int) : Option Decimal :=
  let grid : Nat × Nat := if 0 ≤ k then (Nat.pow 10 k.toNat, 1) else (1, Nat.pow 10 (-k).toNat)
  let num := x.ratio.1 * grid.2
  let den := x.ratio.2 * grid.1
  let below := num / den
  let fits (n : Nat) : Bool := x.roundsTo (n * grid.1) grid.2
  let twice := 2 * (num % den)
  match fits below, fits (below + 1) with
  | false, false => none
  | true, false => some ⟨below, k⟩
  | false, true => some ⟨below + 1, k⟩
  | true, true =>
    if twice < den ∨ (twice = den ∧ below % 2 = 0) then some ⟨below, k⟩ else some ⟨below + 1, k⟩

/-- The answer of the first of `tries` grids that has one; they start with the multiples of `10 ^ k`
and each is ten times as fine as the one before. -/
def firstGrid (x : Magnitude) : Nat → Int → Decimal
  | 0, k => ⟨x.ratio.1 / x.ratio.2, k⟩
  | tries + 1, k =>
    match x.onGrid? k with
    | some d => d
    | none => firstGrid x tries (k - 1)

end Magnitude

/-- Moves trailing zeros of the digits, at most `fuel` of them, into the exponent. -/
def Decimal.normalize : Nat → Decimal → Decimal
  | 0, d => d
  | fuel + 1, d =>
    if d.digits ≠ 0 ∧ d.digits % 10 = 0 then normalize fuel ⟨d.digits / 10, d.exponent + 1⟩ else d

/-- The shortest decimal that rounds to `x`, and of the shortest ones the nearest. -/
def shortest (x : Magnitude) : Decimal :=
  if x.mantissa = 0 then ⟨0, 0⟩
  else (x.firstGrid 17 (leadingExponent x.ratio.1 x.ratio.2)).normalize 20

end Offload.Numeric
