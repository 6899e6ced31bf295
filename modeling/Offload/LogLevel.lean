import Offload.Text.Blank
import Offload.Text.LowerCase

/-!
# Log levels
-/

namespace Offload.LogLevel

/-- The level to which a name is mapped: blanks around it and letter case do not count, some names
are synonyms, and any other name stands for itself. -/
def normalize (level : String) : String :=
  let name := String.ofList (Text.lowerCase (Text.trim level.toList))
  if name ∈ ["", "silent", "none", "off"] then "off"
  else if name = "verbose" then "trace"
  else if name = "warning" then "warn"
  else if name = "fatal" then "error"
  else name

/-- The level without any setting. -/
def default : String := "error"

end Offload.LogLevel
