import Offload.Compile.Outcome
import Offload.Config.Layers
import Offload.Config.Variables
import Offload.Flags
import Offload.LogFilter
import Offload.LoggedLine
import Offload.Slots

/-!
# What the client logs

The log says what the client was called for and what went wrong without harm. It goes to the
standard error or to a file.
-/

namespace Offload

/-- Something that is worth a line in the log. -/
inductive LogRecord where
  | called (argv0 : String) (args : List String)
  | invalidVariable (error : Variables.InvalidValue)
  | flagsIgnored (error : FlagError)
  | configUnusable (error : ConfigError)
  | cacheUnusable (dir : String) (cause : SystemError)
  | slotsUnlimited (kind : SlotKind) (cause : SystemError)
  | hashNotKept (path : String) (cause : SystemError)
  | gaveUp (reason : Fallback)
  | interrupted (signal : Nat)
deriving DecidableEq, Repr

namespace LogRecord

/-- How important a record is. -/
def severity : LogRecord → Severity
  | called _ _ => .debug
  | _ => .warn

/-- The part of the client that a record comes from. -/
def target : LogRecord → String
  | slotsUnlimited _ _ => "fiskc::slots::posix"
  | hashNotKept _ _ => "fiskc::toolchain"
  | gaveUp _ => "fiskc::orchestrator"
  | _ => "fiskc"

/-- The wording of a record. -/
def text : LogRecord → String
  | called argv0 args => argv0 ++ " " ++ LoggedLine.ofArgs args
  | invalidVariable error => error.text
  | flagsIgnored error => "Ignoring --fisk flags: " ++ error.headline
  | configUnusable error => "Failed to load config: " ++ error.text ++ ", compiling locally"
  | cacheUnusable dir cause => "Failed to prepare cache dir " ++ dir ++ ": " ++ cause.text
  | slotsUnlimited kind cause =>
    "Failed to open " ++ kind.name ++ " slots: "
      ++ Semaphores.openErrorText kind.semaphoreName cause ++ ", running without a limit"
  | hashNotKept path cause =>
    "Failed to save environment cache " ++ path ++ ": " ++ cause.text
  | gaveUp reason => "Remote compile failed: " ++ reason.text ++ ", running locally"
  | interrupted signal => "Caught signal " ++ toString signal ++ ", exiting"

/-- A record as a line, with commands for a terminal spelled out. -/
def line (r : LogRecord) : String := r.severity.name ++ " " ++ Text.spelledOut r.text ++ "\n"

end LogRecord

/-- Where the log goes. -/
inductive LogSink where
  | stderr
  | file (path : String)
  /-- the log could not be opened -/
  | nowhere
deriving DecidableEq, Repr

/-- A log that is open. -/
structure OpenLog where
  sink : LogSink
  filter : LogFilter
deriving DecidableEq, Repr

/-- Whether a record is logged. -/
def OpenLog.takes (log : OpenLog) (r : LogRecord) : Bool := log.filter.enables r.target r.severity

end Offload
