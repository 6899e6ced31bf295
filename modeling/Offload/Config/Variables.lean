import Offload.Config.Source
import Offload.Text.LowerCase

/-!
# Settings in environment variables

Variables are looked up under a common beginning of their names. A value that cannot be understood
is noted and otherwise ignored.
-/

namespace Offload

/-- Names and values; of several with one name the last counts. -/
structure Variables where
  entries : List (String × String)

namespace Variables

/-- What the names of all settings begin with. -/
def namespaceText : String := "FISK_"

/-- The full name of a setting's variable. -/
def fullName (name : String) : String := namespaceText ++ name

/-- The value of a variable by its full name. -/
def lookup? (vars : Variables) (fullName : String) : Option String :=
  (vars.entries.reverse.find? fun e => e.1 == fullName).map (·.2)

/-- Whether a setting is there, even if it is empty. -/
def isSet (vars : Variables) (name : String) : Bool := (vars.lookup? (fullName name)).isSome

/-- A setting that is not empty. -/
def string? (vars : Variables) (name : String) : Option (Sourced String) :=
  ((vars.lookup? (fullName name)).filter fun v => !v.isEmpty).map fun v =>
    ⟨v, .env (fullName name)⟩

/-- A value that is not a truth value. -/
structure InvalidValue where
  variableName : String
  value : String
deriving DecidableEq, Repr

/-- The wording of an invalid value. -/
def InvalidValue.text (e : InvalidValue) : String :=
  "Invalid value for " ++ e.variableName ++ ": expected boolean (true/false/1/0/yes/no), got '"
    ++ e.value ++ "'"

/-- The words for a truth value, in any letter case. -/
def truthOfWord? (word : String) : Option Bool :=
  let w := String.ofList (Text.lowerCase word.toList)
  if w ∈ ["1", "true", "yes", "on"] then some true
  else if w ∈ ["0", "false", "no", "off", ""] then some false
  else none

/-- A truth value; `none` if the setting is not there. -/
def bool? (vars : Variables) (name : String) : Except InvalidValue (Option (Sourced Bool)) :=
  match vars.lookup? (fullName name) with
  | none => .ok none
  | some value =>
    match truthOfWord? value with
    | some b => .ok (some ⟨b, .env (fullName name)⟩)
    | none => .error ⟨fullName name, value⟩

end Variables

/-- Variables and the invalid values met so far, in the order in which they were met. -/
structure VariableReader where
  vars : Variables
  errors : List Variables.InvalidValue

namespace VariableReader

/-- A reader that has met nothing invalid. -/
def ofVariables (vars : Variables) : VariableReader := ⟨vars, []⟩

/-- Reads a truth value; an invalid one counts as missing and is noted. -/
def bool? (reader : VariableReader) (name : String) : Option (Sourced Bool) × VariableReader :=
  match reader.vars.bool? name with
  | .ok b => (b, reader)
  | .error e => (none, { reader with errors := reader.errors ++ [e] })

/-- The invalid values, which are then forgotten. -/
def takeErrors (reader : VariableReader) : List Variables.InvalidValue × VariableReader :=
  (reader.errors, { reader with errors := [] })

end VariableReader

end Offload
