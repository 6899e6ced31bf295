import Offload.Compile.Collaborators
import Offload.Config.Client
import Offload.Conversation.Scheduler
import Offload.Flags
import Offload.Multiplexer

/-!
# The state of a compile

What a compile was asked for does not change; what it has come to is a state. The part of it that
sources of events act on is apart, since the multiplexer is a part of the rest.
-/

namespace Offload

/-! ## What is asked for -/

/-- A compile that is asked for. -/
structure CompileRequest where
  config : ClientConfig
  flags : Flags
  invocation : Invocation
  /-- the compiler as workers know it -/
  compilerName : String
  /-- why workers cannot be used, if they cannot -/
  unusable : Option String
deriving DecidableEq, Repr

/-- Why no worker may be tried, if none may. -/
def CompileRequest.forcedReason? (request : CompileRequest) : Option ForcedReason :=
  if request.flags.disabled then some .disabled
  else
    match request.unusable with
    | some why => some (.unusable why)
    | none => request.invocation.localReason?.map .invocation

/-! ## Sources of events -/

/-- The preprocessor of a compile. -/
inductive Preprocessor where
  | notStarted
  | running
  | ended (result : Except CompilerError Preprocessed)
  | stopped

/-- What the sources of events act on. -/
structure Parts (ω κ : Type) where
  surroundings : ω
  watchdog : Watchdog
  preprocessor : Preprocessor
  scheduler : Option (Connection κ SchedulerConversation)
  worker : Option (Connection κ WorkerConversation)

namespace Parts

variable {ω κ : Type} [Channel κ] [Collaborators ω κ]

/-- The time. -/
def now (p : Parts ω κ) : Micros × Parts ω κ :=
  let (now, surroundings) := Collaborators.clock p.surroundings
  (now, { p with surroundings })

/-- Starts the watchdog. -/
def startWatchdog (p : Parts ω κ) : Parts ω κ :=
  let (now, p) := p.now
  { p with watchdog := p.watchdog.start now }

/-- Tells the watchdog that a stage was reached. -/
def enter (stage : Stage) (p : Parts ω κ) : Parts ω κ :=
  let (now, p) := p.now
  { p with watchdog := (p.watchdog.transition stage now).2 }

/-- Asks the watchdog whether its timer has gone off. -/
def pollWatchdog (p : Parts ω κ) : Bool × Parts ω κ :=
  let (now, p) := p.now
  let (due, watchdog) := p.watchdog.poll now
  (due, { p with watchdog })

/-- Lets the watchdog check the current stage. -/
def checkWatchdog (p : Parts ω κ) : Parts ω κ :=
  let (now, p) := p.now
  { p with watchdog := (p.watchdog.check now).2 }

/-- The watchdog's timer. -/
def watchdogSource : EventSource (Parts ω κ) := ⟨pollWatchdog, checkWatchdog⟩

/-- Asks whether the preprocessor has ended. -/
def pollPreprocessor (p : Parts ω κ) : Bool × Parts ω κ :=
  match p.preprocessor with
  | .running =>
    match Collaborators.pollPreprocessor p.surroundings with
    | (some result, surroundings) => (true, { p with surroundings, preprocessor := .ended result })
    | (none, surroundings) => (false, { p with surroundings })
  | _ => (false, p)

/-- The end of the preprocessor. -/
def preprocessorSource : EventSource (Parts ω κ) := ⟨pollPreprocessor, id⟩

/-- Polls the connection to the scheduler. -/
def pollScheduler (p : Parts ω κ) : Bool × Parts ω κ :=
  match p.scheduler with
  | some c => (c.poll.1, { p with scheduler := some c.poll.2 })
  | none => (false, p)

/-- The connection to the scheduler. -/
def schedulerSource : EventSource (Parts ω κ) :=
  ⟨pollScheduler, fun p => { p with scheduler := p.scheduler.map Connection.dispatch }⟩

/-- Polls the connection to the worker. -/
def pollWorker (p : Parts ω κ) : Bool × Parts ω κ :=
  match p.worker with
  | some c => (c.poll.1, { p with worker := some c.poll.2 })
  | none => (false, p)

/-- The connection to the worker. -/
def workerSource : EventSource (Parts ω κ) :=
  ⟨pollWorker, fun p => { p with worker := p.worker.map Connection.dispatch }⟩

/-- Brings the channel of a connection up to date. -/
def refresh {π : Type} (surroundings : ω) (c : Connection κ π) : Connection κ π :=
  { c with channel := Collaborators.catchUp surroundings c.channel }

/-- What happens between two rounds of polling. -/
def meanwhile (p : Parts ω κ) : Parts ω κ :=
  let surroundings := Collaborators.meanwhile p.surroundings
  { p with
    surroundings
    scheduler := p.scheduler.map (refresh surroundings)
    worker := p.worker.map (refresh surroundings) }

/-- What happens when no source is ready. -/
def idle (p : Parts ω κ) : Option (Parts ω κ) :=
  (Collaborators.idle p.surroundings).map fun surroundings => { p with surroundings }

/-- What happens around the sources. -/
def around : Multiplexer.Surroundings (Parts ω κ) := ⟨meanwhile, idle⟩

/-- Whether the conversation with the scheduler has ended. -/
def schedulerEnded (p : Parts ω κ) : Bool :=
  p.scheduler.any fun c => c.conversation.isTerminal

/-- Whether the conversation with the worker is in a condition. -/
def workerIs (condition : WorkerConversation → Bool) (p : Parts ω κ) : Bool :=
  p.worker.any fun c => condition c.conversation

/-- Whether the preprocessor has ended. -/
def preprocessorEnded (p : Parts ω κ) : Bool :=
  match p.preprocessor with
  | .ended _ => true
  | _ => false

end Parts

/-! ## The whole -/

/-- The state of a compile. -/
structure CompileRun (ω κ : Type) where
  parts : Parts ω κ
  mux : Multiplexer (Parts ω κ)
  slots : SlotController
  semaphores : Semaphores
  files : FileTree
  /-- what was done, in order -/
  deeds : List Deed
  /-- whether the preprocessor's messages have had their turn to be shown -/
  messagesShown : Bool

namespace CompileRun

variable {ω κ : Type} [Channel κ] [Collaborators ω κ]

/-- Before a compile. -/
def fresh (request : CompileRequest) (surroundings : ω) (slots : SlotController)
    (semaphores : Semaphores) (files : FileTree) : CompileRun ω κ :=
  { parts := ⟨surroundings, .ofConfig request.config, .notStarted, none, none⟩
    mux := .empty
    slots
    semaphores
    files
    deeds := []
    messagesShown := false }

/-- Notes a deed. -/
def note (run : CompileRun ω κ) (deed : Deed) : CompileRun ω κ :=
  { run with deeds := run.deeds ++ [deed] }

/-- Changes the state of the surroundings. -/
def withSurroundings (run : CompileRun ω κ) (surroundings : ω) : CompileRun ω κ :=
  { run with parts := { run.parts with surroundings } }

/-- Registers a source of events. -/
def addSource (run : CompileRun ω κ) (source : EventSource (Parts ω κ)) : CompileRun ω κ :=
  { run with mux := (run.mux.add source).2 }

/-- Shows bytes on the standard output. That they cannot be shown does no harm. -/
def showStdout (run : CompileRun ω κ) (data : Bytes) : CompileRun ω κ :=
  match Collaborators.showStdout run.parts.surroundings data with
  | (.ok (), surroundings) => (run.withSurroundings surroundings).note (.shownOnStdout data)
  | (.error _, surroundings) => run.withSurroundings surroundings

/-- Shows bytes on the standard error. That they cannot be shown does no harm. -/
def showStderr (run : CompileRun ω κ) (data : Bytes) : CompileRun ω κ :=
  match Collaborators.showStderr run.parts.surroundings data with
  | (.ok (), surroundings) => (run.withSurroundings surroundings).note (.shownOnStderr data)
  | (.error _, surroundings) => run.withSurroundings surroundings

/-- The messages of a preprocessor that ended well and had any. -/
def messages? (run : CompileRun ω κ) : Option Bytes :=
  match run.parts.preprocessor with
  | .ended (.ok result) =>
    if result.succeeded && !result.stderr.isEmpty then some result.stderr else none
  | _ => none

/-- Shows the messages of the preprocessor, the first time only. One that failed is run again on
this host, and then shows its own. -/
def showMessages (run : CompileRun ω κ) : CompileRun ω κ :=
  if run.messagesShown then run
  else
    let run := { run with messagesShown := true }
    match run.messages? with
    | some messages => run.showStderr messages
    | none => run

/-- Stops the watchdog's timer. -/
def stopWatchdog (run : CompileRun ω κ) : CompileRun ω κ :=
  { run with parts := { run.parts with watchdog := run.parts.watchdog.stop } }

/-- Stops a preprocessor that runs. -/
def stopPreprocessor (run : CompileRun ω κ) : CompileRun ω κ :=
  match run.parts.preprocessor with
  | .running =>
    { run with parts := { run.parts with
        surroundings := Collaborators.stopPreprocessor run.parts.surroundings
        preprocessor := .stopped } }
  | _ => run

/-- Ends what still runs of an attempt. Doing so again changes nothing. -/
def tearDown (run : CompileRun ω κ) : CompileRun ω κ :=
  run.stopWatchdog.stopPreprocessor.showMessages

end CompileRun

end Offload
