import Offload.Json.Basic

/-!
# Fields that may be missing

A description in JSON may leave out what it does not need. Here a missing field, or one of the wrong
kind, counts as nothing: no text, false, zero, no items.
-/

namespace Offload.Json

/-! ## Reading -/

/-- The value of a field, `null` if there is none. -/
def valueAt (value : Json) (key : String) : Json := (value.field? key).getD .null

/-- The text of a value. -/
def textValue (value : Json) : String := value.asString?.getD ""

/-- The number of a value. -/
def natValue (value : Json) : Nat := (value.asInt?.getD 0).toNat

/-- The items of a value. -/
def items (value : Json) : List Json := value.asArray?.getD []

/-- The item at a position, `null` if there is none. -/
def item (value : Json) (i : Nat) : Json := (value.items[i]?).getD .null

/-- The text of a field. -/
def textAt (value : Json) (key : String) : String := (value.valueAt key).textValue

/-- The text of a field, if there is one. -/
def textAt? (value : Json) (key : String) : Option String := (value.valueAt key).asString?

/-- The truth value of a field. -/
def flagAt (value : Json) (key : String) : Bool := ((value.valueAt key).asBool?).getD false

/-- The items of a field. -/
def itemsAt (value : Json) (key : String) : List Json := (value.valueAt key).items

/-- The number of a field. -/
def natAt (value : Json) (key : String) : Nat := (value.valueAt key).natValue

/-- The number of a field, if there is one. -/
def natAt? (value : Json) (key : String) : Option Nat := ((value.valueAt key).asInt?).map Int.toNat

/-- The texts among the items of a field. -/
def textsAt (value : Json) (key : String) : List String := (value.itemsAt key).map textValue

/-- The items of a field, which are pairs of texts. -/
def pairsAt (value : Json) (key : String) : List (String × String) :=
  (value.itemsAt key).map fun p => ((p.item 0).textValue, (p.item 1).textValue)

/-! ## Writing -/

/-- An optional value; `null` stands for nothing. -/
def ofOption {α : Type} (encode : α → Json) : Option α → Json
  | some a => encode a
  | none => .null

/-- An optional text; `null` stands for nothing. -/
def optionalText : Option String → Json := ofOption .string

/-- A number as a text of decimal digits, so that no reader rounds it. -/
def digits (n : Nat) : Json := .string (toString n)

/-- An error: what kind it is of, and its wording. -/
def failure (kind message : String) : Json :=
  .object [("error", .string kind), ("message", .string message)]

/-- An error without a wording. -/
def bareFailure (kind : String) : Json := .object [("error", .string kind)]

end Offload.Json
