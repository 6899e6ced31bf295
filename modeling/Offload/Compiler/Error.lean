import Offload.SystemError

/-!
# Failures of the local compiler
-/

namespace Offload

/-- Why the local compiler cannot be used. -/
inductive CompilerError where
  | notFound (name : String)
  /-- the command line names no compiler -/
  | notNamed
  | notRun (program : String) (cause : SystemError)
  | notHashed (path : String) (cause : SystemError)
  /-- the preprocessor did not get to its end -/
  | taskFailed (what : String)
deriving DecidableEq, Repr

/-- The wording of a failure. -/
def CompilerError.text : CompilerError → String
  | notFound name => "no compiler named " ++ name ++ " found in PATH"
  | notNamed => "no compiler given; run as `fiskc <compiler> ...` or set FISK_COMPILER"
  | notRun program cause => "failed to run " ++ program ++ ": " ++ cause.text
  | notHashed path cause => "failed to hash " ++ path ++ ": " ++ cause.text
  | taskFailed what => "preprocessor task failed: " ++ what

end Offload
