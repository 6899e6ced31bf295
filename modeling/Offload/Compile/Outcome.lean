import Offload.Compiler.Error
import Offload.Conversation.Worker
import Offload.Invocation
import Offload.Watchdog

/-!
# How a compile ends

A compile ends on a worker or on this host. On this host it ends for a reason: something rules out a
worker from the start, or local capacity is free, or an attempt to use a worker was abandoned.
-/

namespace Offload

/-! ## Reasons -/

/-- Why no worker may be tried at all. -/
inductive ForcedReason where
  | disabled
  /-- the client is not in a state to use workers -/
  | unusable (why : String)
  | invocation (reason : Invocation.LocalReason)
deriving DecidableEq, Repr

/-- The wording of a reason. -/
def ForcedReason.text : ForcedReason → String
  | disabled => "fisk disabled"
  | unusable why => why
  | invocation reason => reason.text

/-- Why an attempt to compile on a worker was abandoned. -/
inductive Fallback where
  | noSingleSource
  /-- there was nothing that could end a wait -/
  | nothingToWaitFor
  | preprocessorFailed (cause : CompilerError)
  | preprocessorExited (code : Int)
  | preprocessorNeverStarted
  | unidentified (cause : CompilerError)
  | schedulerUnreachable (cause : TransportError)
  | noEnvironment
  | noWorker
  | noAssignment
  | schedulerFailed (error : String)
  | schedulerSilent
  | workerUnreachable (worker : String) (cause : TransportError)
  | workerFailed (error : String)
  | sourceUnavailable
  | uploadRefused (worker : String) (cause : UploadError)
  | resultMissing
  /-- the job failed without saying how -/
  | failureReported (worker : String)
  | noObjectPath
  | unwritable (path : String) (cause : SystemError)
  | timeout (timeout : Timeout)
deriving DecidableEq, Repr

namespace Fallback

/-- The wording of a timeout. -/
def timeoutText (stage : Stage) (elapsed : String) : String :=
  "watchdog timeout in stage " ++ stage.name ++ " after " ++ elapsed ++ "ms"

/-- The wording of a reason. -/
def text : Fallback → String
  | noSingleSource => "no single source file"
  | nothingToWaitFor => "event loop: no event sources registered"
  | preprocessorFailed cause => "preprocessing failed: " ++ cause.text
  | preprocessorExited code => "preprocessor exited with " ++ toString code
  | preprocessorNeverStarted => "preprocessor never started"
  | unidentified cause => "cannot identify compiler: " ++ cause.text
  | schedulerUnreachable cause => "scheduler: " ++ cause.text
  | noEnvironment => "scheduler has no worker with our environment"
  | noWorker => "no worker available"
  | noAssignment => "scheduler assigned no worker"
  | schedulerFailed error => error
  | schedulerSilent => "scheduler conversation ended without an answer"
  | workerUnreachable worker cause => "worker " ++ worker ++ ": " ++ cause.text
  | workerFailed error => error
  | sourceUnavailable => "preprocessed source unavailable"
  | uploadRefused worker cause => "worker " ++ worker ++ ": " ++ cause.text
  | resultMissing => "worker finished without a result"
  | failureReported worker => "worker " ++ worker ++ " reported failure"
  | noObjectPath => "no output path for the object file"
  | unwritable path cause => "failed to write " ++ path ++ ": " ++ cause.text
  | timeout t => timeoutText t.stage (toString (t.elapsed / 1000))

end Fallback

/-- Why a compile was done on this host. -/
inductive LocalCause where
  | forced (reason : ForcedReason)
  | slotFree
  | fallback (reason : Fallback)
deriving DecidableEq, Repr

/-- The wording of a cause. -/
def LocalCause.text : LocalCause → String
  | forced reason => reason.text
  | slotFree => "local slot available"
  | fallback reason => reason.text

/-! ## Outcomes -/

/-- Where a compile was done. -/
inductive Execution where
  | onWorker (worker : String)
  | onHost (cause : LocalCause)
deriving DecidableEq, Repr

/-- The end of a compile. -/
structure CompileOutcome where
  exitCode : Int
  execution : Execution
deriving DecidableEq, Repr

/-- Why there was no compile. -/
inductive ClientError where
  /-- the scheduler does not take a client of this version -/
  | tooOld (minVersion : String)
  | compiler (cause : CompilerError)
deriving DecidableEq, Repr

namespace ClientError

/-- The exit code that says that the client is too old. -/
def tooOldExitCode : Int := 108

/-- The exit code of the client. -/
def exitCode : ClientError → Int
  | tooOld _ => tooOldExitCode
  | compiler _ => 1

/-- The wording of an error. -/
def text : ClientError → String
  | tooOld minVersion =>
    "fisk client " ++ clientVersionText ++ " is older than the scheduler's minimum version "
      ++ minVersion
  | compiler cause => cause.text

end ClientError

/-- How an attempt to compile on a worker stops short of a result. -/
inductive Abandon where
  /-- the compile is to be done here -/
  | fallback (reason : Fallback)
  | tooOld (minVersion : String)
  /-- it waits for what never comes -/
  | stalled
deriving DecidableEq, Repr

end Offload
