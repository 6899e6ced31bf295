import Offload.Json.Printer
import Offload.Json.Reader

/-!
# Control messages

Every control message is a JSON object in a text frame. It names its type, or else it reports an
error of the peer, which takes precedence over everything else the object holds.
-/

namespace Offload

/-- What is wrong with a message that cannot be read. -/
inductive Malformation where
  /-- the text is not JSON, or a field has the wrong type -/
  | json
  /-- the text is JSON, but not an object -/
  | notAnObject
deriving DecidableEq, Repr

/-- Why a control message was not accepted. -/
inductive MessageError where
  | malformed (what : Malformation)
  | missingType
  | unknownType (name : String)
  | remote (message : String)
deriving DecidableEq, Repr

/-- The wording of a malformation. -/
def Malformation.text : Malformation → String
  | json => "<json>"
  | notAnObject => "expected a JSON object"

/-- The wording of an error. -/
def MessageError.text : MessageError → String
  | malformed what => "malformed message: " ++ what.text
  | missingType => "message has no type"
  | unknownType name => "unexpected message type '" ++ name ++ "'"
  | remote message => "peer reported error: " ++ message

namespace Message

/-- The report of a peer: a string is taken as it is, any other value as its compact text. -/
def reportText : Json → String
  | .string s => s
  | value => value.render

/-- The type and the fields of a message, if the type is one of the `known` ones. -/
def tagged (known : List String) (text : String) : Except MessageError (String × Json.Fields) :=
  match Json.parse? text with
  | none => .error (.malformed .json)
  | some (.object fields) =>
    match Json.Fields.get? fields "error" with
    | some report => .error (.remote (reportText report))
    | none =>
      match Json.Fields.get? fields "type" with
      | some (.string kind) =>
        if kind ∈ known then .ok (kind, fields) else .error (.unknownType kind)
      | _ => .error .missingType
  | some _ => .error (.malformed .notAnObject)

/-- A field that may be left out: `none` if it is there and has the wrong type. -/
def optional {α : Type} (fields : Json.Fields) (key : String) (read : Json → Option α)
    (default : α) : Option α :=
  match Json.Fields.get? fields key with
  | none => some default
  | some value => read value

/-- A field that has to be there. -/
def required {α : Type} (fields : Json.Fields) (key : String) (read : Json → Option α) :
    Option α :=
  (Json.Fields.get? fields key).bind read

/-- An integer of 16 bits without sign. -/
def asUInt16? (value : Json) : Option UInt16 :=
  (value.asIntIn? 0 65535).map fun n => UInt16.ofNat n.toNat

/-- An integer of 64 bits without sign. -/
def asUInt64? (value : Json) : Option UInt64 :=
  (value.asIntIn? 0 18446744073709551615).map fun n => UInt64.ofNat n.toNat

/-- An integer of 32 bits with sign. -/
def asInt32? (value : Json) : Option Int32 :=
  (value.asIntIn? (-2147483648) 2147483647).map Int32.ofInt

/-- An array whose items are all of one type. -/
def asListOf? {α : Type} (read : Json → Option α) (value : Json) : Option (List α) :=
  value.asArray?.bind fun items => items.mapM read

/-- The outcome of reading the fields of a message whose type is known. -/
def ofFields {α : Type} (message : Option α) : Except MessageError α :=
  match message with
  | some m => .ok m
  | none => .error (.malformed .json)

end Message

end Offload
