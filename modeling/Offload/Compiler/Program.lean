import Offload.Compiler.Lookup
import Offload.ExitStatus
import Offload.FileTree.Basic
import Offload.Invocation
import Offload.Slots

/-!
# Running the compiler

A program is known by what it does with its arguments. The compiler is run in two ways: as a
preprocessor, whose output is collected, and in full, with the output streams of the client.
-/

namespace Offload

/-! ## Programs -/

/-- How a program ended. -/
inductive ProgramEnd where
  | ended (status : WaitStatus)
  /-- it sends a signal to the process that started it, and does not end -/
  | signals (number : Nat)
deriving DecidableEq, Repr

/-- What a program wrote and how it ended. -/
structure ProgramRun where
  stdout : Bytes
  stderr : Bytes
  ending : ProgramEnd
deriving DecidableEq, Repr

/-- What a program does with its arguments. -/
abbrev Program := List String → ProgramRun

namespace ProgramSearch

/-- Where the program is that a path leads to, if it can be run. -/
def startable (tree : FileTree) (path : String) : Except SystemError Location := do
  match ← tree.resolve path with
  | .file place data => if data.executable then return place else .error .permissionDenied
  | .directory _ => .error .permissionDenied
  | .missing _ => .error .notFound

/-- The first program among paths. A program that must not be run does not end the search, but it
decides the error. -/
def firstStartable (tree : FileTree) (error : SystemError) : List String → Except SystemError Location
  | [] => .error error
  | path :: rest =>
    match startable tree path with
    | .ok place => .ok place
    | .error .permissionDenied => firstStartable tree .permissionDenied rest
    | .error _ => firstStartable tree error rest

/-- Where the program is that is run under a name, with arguments. A name without slashes is looked
for in `PATH`. -/
def start (search : ProgramSearch) (name : String) (args : List String) :
    Except SystemError Location :=
  if (name :: args).any fun s => s.toList.contains '\x00' then .error .nulInName
  else if name.isEmpty then .error .notFound
  else if '/' ∈ name.toList then startable search.tree name
  else
    firstStartable search.tree .notFound
      (search.directories.map fun dir => Path.joinText dir name)

end ProgramSearch

/-! ## The preprocessor -/

/-- What the preprocessor yields. -/
structure Preprocessed where
  exitCode : Int
  stdout : Bytes
  stderr : Bytes
deriving DecidableEq, Repr

/-- Whether the output is that of a preprocessor that found no error. -/
def Preprocessed.succeeded (p : Preprocessed) : Bool := p.exitCode == 0

/-- The compiler of a host: how it is called, and what the programs of the host do. -/
structure LocalCompiler where
  search : ProgramSearch
  behaviour : Location → Program
  path : String

namespace LocalCompiler

/-- Runs the compiler with arguments. -/
def run (compiler : LocalCompiler) (args : List String) : Except CompilerError ProgramRun :=
  match compiler.search.start compiler.path args with
  | .ok place => .ok (compiler.behaviour place args)
  | .error e => .error (.notRun compiler.path e)

/-- The result of a run that ended; `none` if it did not. -/
def collect? (run : ProgramRun) : Option Preprocessed :=
  match run.ending with
  | .ended status => some ⟨status.exitCode, run.stdout, run.stderr⟩
  | .signals _ => none

/-- Runs the preprocessor. `none` if it does not end. -/
def preprocess? (compiler : LocalCompiler) (inv : Invocation) :
    Option (Except CompilerError Preprocessed) :=
  match compiler.run inv.preprocessArgs with
  | .ok run => (collect? run).map .ok
  | .error e => some (.error e)

/-- Holds a slot while something runs. `none` if there is no slot to be had or if the run does not
end. -/
def withSlot? {α : Type} (slots : SlotController) (host : Semaphores) (kind : SlotKind)
    (work : Option α) : Option (α × SlotController × Semaphores) := do
  let (permit, slots, host) ← slots.waitAcquire host kind
  let result ← work
  let (slots, host) := slots.release host kind permit
  return (result, slots, host)

/-- Runs the preprocessor in a slot of its own. -/
def preprocessInSlot? (compiler : LocalCompiler) (inv : Invocation) (slots : SlotController)
    (host : Semaphores) : Option (Except CompilerError Preprocessed × SlotController × Semaphores) :=
  withSlot? slots host .preprocess (compiler.preprocess? inv)

end LocalCompiler

end Offload
