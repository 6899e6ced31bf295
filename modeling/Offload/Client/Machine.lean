import Offload.Compile.Collaborators
import Offload.Compiler.Hash
import Offload.Config.Client
import Offload.Config.Variables
import Offload.Digest.Blake3
import Offload.Url

/-!
# A machine without a network

The machine on which a client runs: its files, its programs, its semaphores. No peer can be reached
from it, so that every compile ends on the machine.
-/

namespace Offload

/-- A machine. -/
structure Machine where
  host : Host
  vars : Variables
  files : FileTree
  /-- the directories of `PATH` -/
  directories : List String
  /-- the location of the client -/
  self : Location
  semaphores : Semaphores
  /-- what the programs do, by location -/
  behaviour : Location → Program
  processId : Nat
  /-- why no peer can be reached -/
  network : SystemError

/-- Where programs are looked for on a machine. -/
def Machine.search (m : Machine) : ProgramSearch := ⟨m.files, m.directories, m.self⟩

/-- What a client finds on its machine, and what comes of it. -/
structure Session where
  machine : Machine
  compiler : String
  cachePath : Option String
  /-- what the preprocessor was started for -/
  preprocessing : Option Invocation
  preprocessed : Option (Except CompilerError Preprocessed)
  /-- the full run of the compiler -/
  compiled : Option ProgramRun
  /-- why the compiler's hash was not kept -/
  unkept : Option SystemError

/-! ## Channels that are never opened -/

instance : Channel Empty where
  pollReady := Empty.elim
  send c := c.elim
  pollFlush := Empty.elim
  pollClose := Empty.elim
  readable := Empty.elim
  consume c := c.elim

/-! ## The surroundings of a compile -/

namespace Session

/-- A client that has not done anything yet. -/
def ofMachine (machine : Machine) (compiler : String) (cachePath : Option String) : Session :=
  ⟨machine, compiler, cachePath, none, none, none, none⟩

/-- The compiler, run among these files. -/
def localCompiler (s : Session) (files : FileTree) : LocalCompiler :=
  ⟨{ s.machine.search with tree := files }, s.machine.behaviour, s.compiler⟩

/-- Identifies the compiler. -/
def compilerHash (s : Session) (files : FileTree) :
    Except CompilerError String × FileTree × Session :=
  let identified :=
    CompilerHash.ofCompiler Digest.Blake3.hex s.machine.processId files s.compiler s.cachePath
  (identified.hash, identified.files, { s with unkept := identified.unkept })

/-- Runs the compiler in full. -/
def runCompiler (s : Session) (args : List String) (files : FileTree) :
    Option (Except CompilerError Int) × FileTree × Session :=
  match (s.localCompiler files).run args with
  | .error e => (some (.error e), files, s)
  | .ok run =>
    ((LocalCompiler.collect? run).map fun r => .ok r.exitCode, files, { s with compiled := some run })

/-- Lets the preprocessor come to its end. -/
def finishPreprocessor (s : Session) : Option Session :=
  match s.preprocessing, s.preprocessed with
  | some inv, none =>
    ((s.localCompiler s.machine.files).preprocess? inv).map fun r => { s with preprocessed := some r }
  | _, _ => none

instance : Collaborators Session Empty where
  clock s := (0, s)
  connect s request := (.error (request.unreachable s.machine.network), s)
  compilerHash
  startPreprocessor s inv := { s with preprocessing := some inv }
  pollPreprocessor s := (s.preprocessed, s)
  stopPreprocessor := id
  runCompiler
  showStdout s _ := (.ok (), s)
  showStderr s _ := (.ok (), s)
  awaitUnit s _ semaphores := (semaphores, s)
  meanwhile := id
  idle := finishPreprocessor
  catchUp _ c := c

end Session

end Offload
