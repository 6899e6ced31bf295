/-!
# Bytes and their hexadecimal text
-/

namespace Offload

/-- A sequence of bytes: a payload, a file's contents, a digest. -/
abbrev Bytes := List UInt8

namespace Text

/-- The lower-case hexadecimal digit of a number below 16. -/
def hexDigit (n : Nat) : Char :=
  if n < 10 then Char.ofNat (48 + n) else Char.ofNat (87 + n)

/-- The value of a hexadecimal digit of either case. -/
def hexValue? (c : Char) : Option Nat :=
  if '0' ≤ c ∧ c ≤ '9' then some (c.toNat - 48)
  else if 'a' ≤ c ∧ c ≤ 'f' then some (c.toNat - 87)
  else if 'A' ≤ c ∧ c ≤ 'F' then some (c.toNat - 55)
  else none

/-- Two lower-case digits for each byte. -/
def hexChars : Bytes → List Char
  | [] => []
  | b :: rest => hexDigit (b.toNat / 16) :: hexDigit (b.toNat % 16) :: hexChars rest

/-- The hexadecimal text of `bytes`. -/
def hex (bytes : Bytes) : String := String.ofList (hexChars bytes)

/-- Reads pairs of hexadecimal digits. -/
def unhexChars? : List Char → Option Bytes
  | [] => some []
  | hi :: lo :: rest => do
    let h ← hexValue? hi
    let l ← hexValue? lo
    let bytes ← unhexChars? rest
    return UInt8.ofNat (16 * h + l) :: bytes
  | [_] => none

end Text

/-- The UTF-8 bytes of a text. -/
def Bytes.ofString (s : String) : Bytes := s.toByteArray.data.toList

/-- The text that `bytes` encode, if they are well-formed UTF-8. -/
def Bytes.toString? (bytes : Bytes) : Option String :=
  String.fromUTF8? (ByteArray.mk bytes.toArray)

end Offload
