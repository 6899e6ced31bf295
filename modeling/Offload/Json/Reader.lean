import Offload.Json.Tree

/-!
# Reading JSON values

A tree has a value when every string escape names a character, no number is beyond the doubles and
arrays and objects are nested at most 127 deep. Of fields with one name the last counts.
-/

namespace Offload.Json

open Numeric

/-! ## Strings -/

/-- Whether a 16-bit unit is the first half of a pair. -/
def isLeading (u : Nat) : Bool := 0xD800 ≤ u && u < 0xDC00

/-- Whether a 16-bit unit is the second half of a pair. -/
def isTrailing (u : Nat) : Bool := 0xDC00 ≤ u && u < 0xE000

/-- The characters of a string; `none` if half of a pair stands alone. -/
def textOfPieces? : List Piece → Option (List Char)
  | [] => some []
  | .char c :: rest => (textOfPieces? rest).map (c :: ·)
  | .unit u :: .unit v :: rest =>
    if isLeading u then
      if isTrailing v then
        (textOfPieces? rest).map (Char.ofNat (0x10000 + (u - 0xD800) * 0x400 + (v - 0xDC00)) :: ·)
      else none
    else if isTrailing u then none
    else (textOfPieces? (.unit v :: rest)).map (Char.ofNat u :: ·)
  | .unit u :: rest =>
    if isLeading u || isTrailing u then none
    else (textOfPieces? rest).map (Char.ofNat u :: ·)

/-! ## Numbers -/

/-- The largest significand. -/
def maxSignificand : Nat := 18446744073709551615

/-- Appends digits to a significand as long as it stays within 64 bits. The second component counts
the digits that were left over: the first that did not fit and all after it. -/
def absorb : Nat → List Nat → Nat × Nat
  | n, [] => (n, 0)
  | n, d :: rest => if 10 * n + d ≤ maxSignificand then absorb (10 * n + d) rest else (n, rest.length + 1)

/-- The greatest power of ten that is a finite double. -/
def greatestPower : Nat := 308

/-- A power of ten as a double. -/
def powerOfTen? (k : Nat) : Option Magnitude := Magnitude.ofRatio? (Nat.pow 10 k) 1

/-- The double `x * 10 ^ exponent`, by one multiplication or by one division for each factor of up
to `10 ^ 308`, each of them rounded; `none` on overflow. -/
def scale? : Nat → Magnitude → Int → Option Magnitude
  | 0, x, _ => some x
  | fuel + 1, x, exponent =>
    if exponent.natAbs ≤ greatestPower then do
      let p ← powerOfTen? exponent.natAbs
      if 0 ≤ exponent then x.mul? p else x.div? p
    else if x.mantissa = 0 then some x
    else if 0 ≤ exponent then none
    else do
      let p ← powerOfTen? greatestPower
      scale? fuel (← x.div? p) (exponent + greatestPower)

/-- The double of a significand and an exponent. -/
def floatOf? (negative : Bool) (significand : Nat) (exponent : Int) : Option Number := do
  let x ← Magnitude.ofRatio? significand 1
  let y ← scale? 4 x exponent
  return .float ⟨negative, y⟩

/-- The number that digits spell. -/
def natOfDigits (digits : List Nat) : Nat := digits.foldl (fun n d => 10 * n + d) 0

/-- The largest exponent that is read as a number. -/
def maxExponent : Nat := 2147483647

/-- The value of a numeral. Without point and exponent it is an integer if that has 64 bits; the
negative zero and everything else is a float. `none` means overflow. -/
def Numeral.value? (n : Numeral) : Option Number :=
  let (whole, dropped) := absorb 0 n.whole
  match n.fraction, n.exponent, dropped with
  | none, none, 0 =>
    if !n.negative then some (.int whole)
    else if whole ≠ 0 ∧ whole ≤ 9223372036854775808 then some (.int (-(whole : Int)))
    else floatOf? true whole 0
  | fraction, exponent, dropped =>
    let digits := fraction.getD []
    let (significand, left) := absorb whole digits
    let start : Int := (dropped : Int) - (digits.length - left : Nat)
    match exponent with
    | none => floatOf? n.negative significand start
    | some (negative, digits) =>
      let e := natOfDigits digits
      if maxExponent < e then
        if significand ≠ 0 ∧ !negative then none
        else some (.float ⟨n.negative, .zero⟩)
      else floatOf? n.negative significand (if negative then start - e else start + e)

/-! ## Values -/

mutual

/-- The value of a tree that is nested at most `depth` deep. -/
def Tree.value? (depth : Nat) : Tree → Option Json
  | .null => some .null
  | .bool b => some (.bool b)
  | .number n => n.value?.map .number
  | .string p => (textOfPieces? p).map fun s => .string (String.ofList s)
  | .array items =>
    if depth = 0 then none else (valuesOfItems? (depth - 1) items).map .array
  | .object fields =>
    if depth = 0 then none
    else (valuesOfFields? (depth - 1) fields).map fun f => .object (Fields.sorted f)

/-- The values of the items of an array. -/
def valuesOfItems? (depth : Nat) : List Tree → Option (List Json)
  | [] => some []
  | t :: rest => do
    let v ← t.value? depth
    let vs ← valuesOfItems? depth rest
    return v :: vs

/-- The fields of an object in the order of the text. -/
def valuesOfFields? (depth : Nat) : List (List Piece × Tree) → Option Fields
  | [] => some []
  | (k, t) :: rest => do
    let k ← textOfPieces? k
    let v ← t.value? depth
    let vs ← valuesOfFields? depth rest
    return (String.ofList k, v) :: vs

end

/-- The deepest nesting of arrays and objects. -/
def maxDepth : Nat := 127

/-- The value that a text holds. -/
def parse? (text : String) : Option Json :=
  (Tree.ofChars? text.toList).bind (Tree.value? maxDepth)

end Offload.Json
