import Offload.Numeric.Shortest

/-!
# JSON values

A value as the configuration files, the control messages and the compiler cache hold it. The fields
of an object stand in a list; `Fields.insert` keeps such a list sorted by key, so that a value read
from a text has one form and a repeated key keeps its last value.
-/

namespace Offload

/-- A JSON number: an integer of 64 bits, signed or unsigned, or else a double. -/
inductive Json.Number where
  | int (value : Int)
  | float (value : Numeric.Binary64)
deriving DecidableEq, Repr

/-- A JSON value. -/
inductive Json where
  | null
  | bool (value : Bool)
  | number (value : Json.Number)
  | string (value : String)
  | array (items : List Json)
  | object (fields : List (String × Json))

namespace Json

/-- The names and values of an object. -/
abbrev Fields := List (String × Json)

/-- The value of the first field called `key`. -/
def Fields.get? (fields : Fields) (key : String) : Option Json :=
  (fields.find? fun f => f.1 == key).map (·.2)

/-- Puts a field at its place in a list sorted by key; a field of that name is replaced. -/
def Fields.insert (key : String) (value : Json) : Fields → Fields
  | [] => [(key, value)]
  | (k, v) :: rest =>
    if key < k then (key, value) :: (k, v) :: rest
    else if key = k then (key, value) :: rest
    else (k, v) :: insert key value rest

/-- The fields sorted by key; of several with one key the last is kept. -/
def Fields.sorted (fields : Fields) : Fields :=
  fields.foldl (fun acc f => Fields.insert f.1 f.2 acc) []

/-- A whole number. -/
def nat (n : Nat) : Json := .number (.int n)

/-- A whole number, possibly negative. -/
def int (n : Int) : Json := .number (.int n)

/-- A list of strings. -/
def strings (items : List String) : Json := .array (items.map .string)

/-- The text, if the value is one. -/
def asString? : Json → Option String
  | .string s => some s
  | _ => none

/-- The truth value, if the value is one. -/
def asBool? : Json → Option Bool
  | .bool b => some b
  | _ => none

/-- The items, if the value is an array. -/
def asArray? : Json → Option (List Json)
  | .array items => some items
  | _ => none

/-- The fields, if the value is an object. -/
def asObject? : Json → Option Fields
  | .object fields => some fields
  | _ => none

/-- The integer, if the value is one; a float is none, even if it is whole. -/
def asInt? : Json → Option Int
  | .number (.int n) => some n
  | _ => none

/-- The integer, if it lies between the two bounds. -/
def asIntIn? (low high : Int) (value : Json) : Option Int :=
  value.asInt?.filter fun n => low ≤ n && n ≤ high

/-- The integer, if it has 64 bits with a sign. -/
def asInt64? (value : Json) : Option Int := value.asIntIn? (-9223372036854775808) 9223372036854775807

/-- The name of a case without contents: a string, or an object whose only field holds `null`. -/
def asCase? : Json → Option String
  | .string s => some s
  | .object [(s, .null)] => some s
  | _ => none

/-- Whether the value is `null`. -/
def isNull : Json → Bool
  | .null => true
  | _ => false

/-- The value of a field, if this is an object that has it. -/
def field? (value : Json) (key : String) : Option Json :=
  value.asObject?.bind (Fields.get? · key)

end Json

end Offload
