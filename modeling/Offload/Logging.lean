import Offload.Config.Variables
import Offload.LogLevel

/-!
# What is logged, and where

The level and the file of the log come from the environment; a fallback fills in what nobody chose,
and the command line overrides everything.
-/

namespace Offload

/-- Level and file of the log. -/
structure LogConfig where
  level : Sourced String
  file : Option (Sourced String)
  append : Bool
deriving DecidableEq, Repr

namespace LogConfig

/-- The level that the environment chooses. -/
def levelOfVariables (vars : Variables) (defaultLevel : String) : Sourced String :=
  match vars.string? "LOG" with
  | some level => level
  | none =>
    if vars.isSet "VERBOSE" then ⟨"trace", .env "FISK_VERBOSE"⟩
    else if vars.isSet "DEBUG" then ⟨"debug", .env "FISK_DEBUG"⟩
    else ⟨defaultLevel, .default⟩

/-- What the environment chooses. -/
def ofReader (reader : VariableReader) (defaultLevel : String) : LogConfig × VariableReader :=
  let (append, after) := reader.bool? "LOG_APPEND"
  (⟨levelOfVariables reader.vars defaultLevel, reader.vars.string? "LOG_FILE",
    (append.map (·.value)).getD false⟩, after)

/-- Takes a level, unless one has been chosen. -/
def withFallbackLevel (log : LogConfig) (level : String) (source : Source) : LogConfig :=
  if log.level.isDefault then { log with level := ⟨level, source⟩ } else log

/-- Takes the level of the command line. -/
def withLevel (log : LogConfig) (level : String) : LogConfig := { log with level := ⟨level, .cli⟩ }

/-- Takes a file, and whether to append to it, unless a file has been chosen. -/
def withFallbackFile (log : LogConfig) (file : Option String) (append : Bool) : LogConfig :=
  match log.file, file with
  | none, some file => { log with file := some ⟨file, .default⟩, append := log.append || append }
  | _, _ => log

/-- Takes the file of the command line. -/
def withFile (log : LogConfig) (file : String) : LogConfig := { log with file := some ⟨file, .cli⟩ }

/-- The level as the log understands it. -/
def directive (log : LogConfig) : String := LogLevel.normalize log.level.value

end LogConfig

end Offload
