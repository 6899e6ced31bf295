/-!
# Where a setting comes from
-/

namespace Offload

/-- The place a setting was found in. -/
inductive Source where
  | default
  | file (path : String)
  | env (variableName : String)
  | cli
deriving DecidableEq, Repr

/-- The place as it is shown to the user. -/
def Source.text : Source → String
  | default => "default"
  | file path => path
  | env name => "$" ++ name
  | cli => "command line"

/-- A setting and where it comes from. -/
structure Sourced (α : Type) where
  value : α
  source : Source
deriving DecidableEq, Repr

namespace Sourced

variable {α β : Type}

/-- Changes the value and keeps the source. -/
def map (f : α → β) (s : Sourced α) : Sourced β := ⟨f s.value, s.source⟩

/-- Whether nobody chose the value. -/
def isDefault (s : Sourced α) : Bool := s.source == .default

end Sourced

end Offload
