import Offload.Compile.Outcome
import Offload.Compiler.Program
import Offload.Connection

/-!
# What a compile is surrounded by

The policy of the client leaves to others what happens outside of it: the clock, the network, the
compiler and the terminal. They share a state `ω`, and connections are channels `κ`. Nothing is
assumed of them.
-/

namespace Offload

/-- A connection that a peer accepted: its channel and the headers of the answer. -/
structure Accepted (κ : Type) where
  channel : κ
  headers : Headers

/-- The surroundings of a compile. -/
class Collaborators (ω : Type) (κ : outParam Type) where
  /-- the time, which may pass while it is read -/
  clock : ω → Micros × ω
  /-- opens a connection -/
  connect : ω → ConnectRequest → Except TransportError (Accepted κ) × ω
  /-- identifies the compiler; what it needs for that may be kept in files -/
  compilerHash : ω → FileTree → Except CompilerError String × FileTree × ω
  /-- starts the preprocessor in the background -/
  startPreprocessor : ω → Invocation → ω
  /-- what the preprocessor yielded, once it has ended -/
  pollPreprocessor : ω → Option (Except CompilerError Preprocessed) × ω
  stopPreprocessor : ω → ω
  /-- runs the compiler in full; without an answer if it does not end -/
  runCompiler : ω → List String → FileTree → Option (Except CompilerError Int) × FileTree × ω
  /-- writes to the standard output -/
  showStdout : ω → Bytes → Except SystemError Unit × ω
  /-- writes to the standard error -/
  showStderr : ω → Bytes → Except SystemError Unit × ω
  /-- what others do with the semaphores while a slot is waited for -/
  awaitUnit : ω → SlotKind → Semaphores → Semaphores × ω
  /-- what happens between two rounds of polling -/
  meanwhile : ω → ω
  /-- what happens when nothing is ready; `none` if nothing ever will -/
  idle : ω → Option ω
  /-- what has happened to a channel -/
  catchUp : ω → κ → κ

/-- What the client does to its surroundings. -/
inductive Deed where
  | requested (request : ConnectRequest)
  /-- the attempt to compile on a worker was abandoned -/
  | gaveUp (reason : Fallback)
  /-- the compiler was run in full, in a slot -/
  | compiled (args : List String) (slot : SlotKind)
  | shownOnStdout (data : Bytes)
  | shownOnStderr (data : Bytes)
deriving DecidableEq, Repr

end Offload
