import Offload.Compiler.Program

/-!
# A compiler for scenarios

A program that stands in for a compiler. Called as a preprocessor it writes what it is told to;
otherwise it writes its arguments.
-/

namespace Offload.Scenario

/-- What the compiler is told to do. -/
structure Stub where
  preprocessed : Bytes
  diagnostics : Bytes
  preprocessorExit : Nat
  stderr : Bytes
  /-- how a compile ends -/
  ending : ProgramEnd
deriving DecidableEq, Repr

/-- The program. -/
def Stub.program (stub : Stub) : Program := fun args =>
  if args.contains "-E" then
    ⟨stub.preprocessed, stub.diagnostics, .ended (.ofExit stub.preprocessorExit)⟩
  else
    ⟨args.flatMap fun arg => Bytes.ofString arg ++ Bytes.ofString "\n", stub.stderr, stub.ending⟩

/-- A program that does nothing but end. -/
def ends (exitCode : Nat) : Program := fun _ => ⟨[], [], .ended (.ofExit exitCode)⟩

/-- What the programs of a machine do: one of them is the compiler, `false` fails, and the others
succeed. -/
def behaviour (compiler : Location) (program : Program) (place : Location) : Program :=
  if place = compiler then program
  else if place.getLast? = some "false" then ends 1
  else ends 0

end Offload.Scenario
