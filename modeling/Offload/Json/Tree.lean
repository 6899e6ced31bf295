import Offload.Json.Basic
import Offload.Text.Hex

/-!
# The grammar of JSON

A text is first read into a tree that keeps what a value forgets: how a number and a string are
spelled, and fields with equal names. The reader takes exactly the texts of the grammar; which of
them have a value is settled afterwards, by `Offload.Json.Reader`.
-/

namespace Offload.Json

/-- The spelling of a number: digits before the point, after it, and of the exponent. -/
structure Numeral where
  negative : Bool
  whole : List Nat
  fraction : Option (List Nat)
  exponent : Option (Bool × List Nat)
deriving DecidableEq, Repr

/-- One element of a string: a character, or a 16-bit unit written as an escape. -/
inductive Piece where
  | char (c : Char)
  | unit (u : Nat)
deriving DecidableEq, Repr

/-- What stands in a text. -/
inductive Tree where
  | null
  | bool (value : Bool)
  | number (numeral : Numeral)
  | string (pieces : List Piece)
  | array (items : List Tree)
  | object (fields : List (List Piece × Tree))

/-! ## Blanks, numbers and strings -/

/-- Whether a character may stand between the tokens. -/
def isSpace (c : Char) : Bool := c == ' ' || c == '\t' || c == '\n' || c == '\r'

/-- Drops the blanks at the front. -/
def skipSpace (s : List Char) : List Char := s.dropWhile isSpace

/-- The value of a decimal digit. -/
def digitValue (c : Char) : Nat := c.toNat - 48

/-- The digits at the front and what follows them. -/
def takeDigits (s : List Char) : List Nat × List Char :=
  ((s.takeWhile Char.isDigit).map digitValue, s.dropWhile Char.isDigit)

/-- At least one digit. -/
def readDigits (s : List Char) : Option (List Nat × List Char) :=
  match takeDigits s with
  | ([], _) => none
  | digits => some digits

/-- The part before the point: a zero alone, or digits that do not start with one. -/
def readWhole (s : List Char) : Option (List Nat × List Char) :=
  match readDigits s with
  | some (0 :: _ :: _, _) => none
  | digits => digits

/-- The part after the point, if there is one. -/
def readFraction : List Char → Option (Option (List Nat) × List Char)
  | '.' :: s => (readDigits s).map fun d => (some d.1, d.2)
  | s => some (none, s)

/-- The exponent, if there is one; the truth value says that it is negative. -/
def readExponent : List Char → Option (Option (Bool × List Nat) × List Char)
  | c :: s =>
    if c = 'e' ∨ c = 'E' then
      match s with
      | '-' :: s => (readDigits s).map fun d => (some (true, d.1), d.2)
      | '+' :: s => (readDigits s).map fun d => (some (false, d.1), d.2)
      | s => (readDigits s).map fun d => (some (false, d.1), d.2)
    else some (none, c :: s)
  | [] => some (none, [])

/-- A number without its sign. -/
def readUnsigned (negative : Bool) (s : List Char) : Option (Numeral × List Char) := do
  let (whole, s) ← readWhole s
  let (fraction, s) ← readFraction s
  let (exponent, s) ← readExponent s
  return (⟨negative, whole, fraction, exponent⟩, s)

/-- A number. -/
def readNumeral : List Char → Option (Numeral × List Char)
  | '-' :: s => readUnsigned true s
  | s => readUnsigned false s

/-- The 16-bit unit that four hexadecimal digits spell. -/
def unitOfDigits? (a b c d : Char) : Option Nat := do
  let hi := (← Text.hexValue? a) * 16 + (← Text.hexValue? b)
  let lo := (← Text.hexValue? c) * 16 + (← Text.hexValue? d)
  return hi * 256 + lo

/-- The character that a backslash and this letter stand for. -/
def simpleEscape? (c : Char) : Option Char :=
  match c with
  | '"' => some '"'
  | '\\' => some '\\'
  | '/' => some '/'
  | 'b' => some '\x08'
  | 'f' => some '\x0c'
  | 'n' => some '\n'
  | 'r' => some '\r'
  | 't' => some '\t'
  | _ => none

/-- The rest of a string after its opening quote. -/
def readPieces : List Char → Option (List Piece × List Char)
  | [] => none
  | '"' :: s => some ([], s)
  | '\\' :: 'u' :: a :: b :: c :: d :: s => do
    let u ← unitOfDigits? a b c d
    let (pieces, rest) ← readPieces s
    return (.unit u :: pieces, rest)
  | '\\' :: c :: s => do
    let e ← simpleEscape? c
    let (pieces, rest) ← readPieces s
    return (.char e :: pieces, rest)
  | c :: s =>
    if c = '\\' ∨ c.toNat < 0x20 then none
    else do
      let (pieces, rest) ← readPieces s
      return (.char c :: pieces, rest)

/-! ## Trees -/

mutual

/-- A value at the front of a text, blanks before it allowed. The first argument bounds the nesting
and the number of items. -/
def readTree : Nat → List Char → Option (Tree × List Char)
  | 0, _ => none
  | fuel + 1, s =>
    match skipSpace s with
    | 'n' :: 'u' :: 'l' :: 'l' :: s => some (.null, s)
    | 't' :: 'r' :: 'u' :: 'e' :: s => some (.bool true, s)
    | 'f' :: 'a' :: 'l' :: 's' :: 'e' :: s => some (.bool false, s)
    | '"' :: s => (readPieces s).map fun p => (.string p.1, p.2)
    | '[' :: s =>
      match skipSpace s with
      | ']' :: s => some (.array [], s)
      | s => (readItems fuel s).map fun r => (.array r.1, r.2)
    | '{' :: s =>
      match skipSpace s with
      | '}' :: s => some (.object [], s)
      | s => (readFields fuel s).map fun r => (.object r.1, r.2)
    | s => (readNumeral s).map fun r => (.number r.1, r.2)

/-- One or more items up to the closing bracket. -/
def readItems : Nat → List Char → Option (List Tree × List Char)
  | 0, _ => none
  | fuel + 1, s => do
    let (v, s) ← readTree fuel s
    match skipSpace s with
    | ']' :: s => return ([v], s)
    | ',' :: s =>
      let (vs, s) ← readItems fuel s
      return (v :: vs, s)
    | _ => none

/-- One or more fields up to the closing brace. -/
def readFields : Nat → List Char → Option (List (List Piece × Tree) × List Char)
  | 0, _ => none
  | fuel + 1, s =>
    match skipSpace s with
    | '"' :: s => do
      let (k, s) ← readPieces s
      match skipSpace s with
      | ':' :: s =>
        let (v, s) ← readTree fuel s
        match skipSpace s with
        | '}' :: s => return ([(k, v)], s)
        | ',' :: s =>
          let (fs, s) ← readFields fuel s
          return ((k, v) :: fs, s)
        | _ => none
      | _ => none
    | _ => none

end

/-- The tree of a text that holds one value and, around it, nothing but blanks. -/
def Tree.ofChars? (s : List Char) : Option Tree :=
  match readTree (s.length + 1) s with
  | some (tree, rest) => if (skipSpace rest).isEmpty then some tree else none
  | none => none

end Offload.Json
