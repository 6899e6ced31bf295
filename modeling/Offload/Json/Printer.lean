import Offload.Json.Basic
import Offload.Text.Hex

/-!
# Writing JSON

The compact form: no blanks, the fields of an object in the order of its list, a string escaped only
where it has to be, a float with the fewest digits that read back.
-/

namespace Offload.Json

open Numeric

/-! ## Numbers -/

/-- Where a float changes from positional to scientific notation, by the exponent of its first
digit. -/
structure FloatLayout where
  leastPositional : Int
  greatestPositional : Int

/-- Floats are positional from `0.00001` up to below `10 ^ 16`. -/
def floatLayout : FloatLayout := ⟨-5, 15⟩

/-- `n` zeros. -/
def zeros (n : Nat) : List Char := List.replicate n '0'

/-- An exponent with its sign, as it follows the letter. -/
def exponentText (e : Int) : List Char :=
  (if e < 0 then '-' else '+') :: decimalText e.natAbs

/-- The positional text of `digits * 10 ^ exponent`, with at least one digit on either side of the
point. -/
def positional (digits : List Char) (exponent : Int) : List Char :=
  if 0 ≤ exponent then digits ++ zeros exponent.toNat ++ ['.', '0']
  else
    let places := (-exponent).toNat
    if places < digits.length then
      digits.take (digits.length - places) ++ '.' :: digits.drop (digits.length - places)
    else '0' :: '.' :: zeros (places - digits.length) ++ digits

/-- The scientific text of `digits * 10 ^ exponent`, one digit before the point. -/
def scientific (digits : List Char) (exponent : Int) : List Char :=
  let point := exponent + digits.length - 1
  match digits with
  | [] => []
  | [d] => d :: 'e' :: exponentText point
  | d :: rest => d :: '.' :: rest ++ 'e' :: exponentText point

/-- The text of a decimal. -/
def decimalFloatText (d : Decimal) : List Char :=
  let digits := decimalText d.digits
  let point := d.exponent + digits.length - 1
  if floatLayout.leastPositional ≤ point ∧ point ≤ floatLayout.greatestPositional
  then positional digits d.exponent
  else scientific digits d.exponent

/-- The text of a double. -/
def floatText (x : Binary64) : List Char :=
  (if x.negative then ['-'] else []) ++ decimalFloatText (shortest x.magnitude)

/-- The text of an integer. -/
def intText (n : Int) : List Char :=
  if n < 0 then '-' :: decimalText n.natAbs else decimalText n.natAbs

/-- The text of a number. -/
def Number.text : Number → List Char
  | .int n => intText n
  | .float x => floatText x

/-! ## Strings -/

/-- A character inside a string: quote, backslash and the controls below `0x20` are escaped, all else
stands for itself. -/
def escapeChar (c : Char) : List Char :=
  if c = '"' then ['\\', '"']
  else if c = '\\' then ['\\', '\\']
  else if c = '\x08' then ['\\', 'b']
  else if c = '\x0c' then ['\\', 'f']
  else if c = '\n' then ['\\', 'n']
  else if c = '\r' then ['\\', 'r']
  else if c = '\t' then ['\\', 't']
  else if c.toNat < 0x20 then
    ['\\', 'u', '0', '0', Text.hexDigit (c.toNat / 16), Text.hexDigit (c.toNat % 16)]
  else [c]

/-- The characters of a string with its escapes. -/
def escape (s : List Char) : List Char := s.flatMap escapeChar

/-- A string between quotes. -/
def quoted (s : String) : List Char := '"' :: escape s.toList ++ ['"']

/-! ## Values -/

mutual

/-- The compact text of a value. -/
def chars : Json → List Char
  | .null => ['n', 'u', 'l', 'l']
  | .bool true => ['t', 'r', 'u', 'e']
  | .bool false => ['f', 'a', 'l', 's', 'e']
  | .number n => n.text
  | .string s => quoted s
  | .array items => '[' :: charsOfItems items
  | .object fields => '{' :: charsOfFields fields

/-- The items of an array after its opening bracket. -/
def charsOfItems : List Json → List Char
  | [] => [']']
  | [v] => chars v ++ [']']
  | v :: w :: rest => chars v ++ ',' :: charsOfItems (w :: rest)

/-- The fields of an object after its opening brace. -/
def charsOfFields : List (String × Json) → List Char
  | [] => ['}']
  | [(k, v)] => quoted k ++ ':' :: chars v ++ ['}']
  | (k, v) :: f :: rest => quoted k ++ ':' :: chars v ++ ',' :: charsOfFields (f :: rest)

end

/-- The compact text of a value. -/
def render (value : Json) : String := String.ofList value.chars

end Offload.Json
