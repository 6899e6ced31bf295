import Offload.Cache.Directory
import Offload.Client.Log
import Offload.Client.Machine
import Offload.Compile.Policy
import Offload.Logging

/-!
# The client

From a command line to an exit code: the client reads flags, environment and configuration, opens
its log, finds the compiler and compiles, or looks after the slots of its machine.
-/

namespace Offload

/-! ## State -/

/-- Something that the client writes to its standard error. -/
inductive Utterance where
  | record (record : LogRecord)
  | text (text : String)
  | bytes (data : Bytes)
deriving DecidableEq, Repr

/-- A client at work. -/
structure Client where
  machine : Machine
  log : OpenLog
  stdout : Bytes
  stderr : List Utterance

/-- How a client ended. -/
inductive ClientEnd where
  | exited (code : Int)
  | killed (signal : Nat)
  /-- it waits for ever -/
  | stuck
deriving DecidableEq, Repr

/-- A step of a client. -/
abbrev ClientM := StateM Client

namespace Client

/-- A client that has just been started on a machine. -/
def ofMachine (machine : Machine) : Client := ⟨machine, ⟨.nowhere, .errorsOnly⟩, [], []⟩

/-! ## Output -/

/-- Writes to the standard output. -/
def say (text : String) : ClientM Unit :=
  modify fun c => { c with stdout := c.stdout ++ Bytes.ofString text }

/-- Writes to the standard error. -/
def utter (u : Utterance) : ClientM Unit := modify fun c => { c with stderr := c.stderr ++ [u] }

/-- Says on the standard error why the client fails. -/
def complain (what : String) : ClientM Unit := utter (.text ("fiskc: " ++ what ++ "\n"))

/-- Adds a text to a file that exists. -/
def appendTo (files : FileTree) (path text : String) : FileTree :=
  match files.read path with
  | .ok contents => ((files.write path (contents ++ Bytes.ofString text)).toOption).getD files
  | .error _ => files

/-- Logs a record. -/
def note (r : LogRecord) : ClientM Unit := do
  let c ← get
  if c.log.takes r then
    match c.log.sink with
    | .stderr => utter (.record r)
    | .file path =>
      set { c with machine := { c.machine with files := appendTo c.machine.files path r.line } }
    | .nowhere => return

/-! ## Preparation -/

/-- Opens the file of a log, which is created if it is missing. -/
def openLogFile (files : FileTree) (path : String) (append : Bool) :
    Except SystemError FileTree :=
  match append, files.read path with
  | true, .ok _ => .ok files
  | _, _ => files.write path []

/-- The settings of the log. -/
def logConfig (flags : Flags) (layers : ConfigLayers) (config : ClientConfig)
    (reader : VariableReader) : LogConfig × VariableReader :=
  let (log, reader) := LogConfig.ofReader reader LogLevel.default
  let log := match layers.string? "log-level" with
    | some level => log.withFallbackLevel level.value level.source
    | none => log
  let log := log.withFallbackFile config.logFile config.logFileAppend
  let log := flags.log.elim log log.withLevel
  (flags.logFile.elim log log.withFile, reader)

/-- Opens the log. -/
def openLog (settings : LogConfig) : ClientM Unit := do
  let c ← get
  let filter := LogFilter.ofText settings.directive
  match settings.file with
  | none => set { c with log := ⟨.stderr, filter⟩ }
  | some file =>
    match openLogFile c.machine.files file.value settings.append with
    | .ok files =>
      set { c with log := ⟨.file file.value, filter⟩, machine := { c.machine with files } }
    | .error e => complain ("failed to initialize logging: " ++ e.text)

/-- Prepares the directory for what is kept between runs. -/
def prepareCache (config : ClientConfig) : ClientM Unit := do
  match config.cacheDir with
  | none => return
  | some dir =>
    let c ← get
    let (files, outcome) := CacheDirectory.prepare c.machine.files dir
    set { c with machine := { c.machine with files } }
    match outcome with
    | .ok _ => return
    | .error e => note (.cacheUnusable dir e)

/-- The kinds whose semaphores cannot be opened. -/
def unlimitedKinds (host : Semaphores) (capacities : PerKind Nat) : List (SlotKind × SystemError) :=
  SlotKind.all.filterMap fun kind =>
    match host.openNamed kind.semaphoreName ((SlotSource.atLeastOne capacities).get kind) with
    | .ok _ => none
    | .error e => some (kind, e)

/-- Opens the slots of the machine. -/
def openSlots (config : ClientConfig) : ClientM SlotController := do
  let c ← get
  for (kind, cause) in unlimitedKinds c.machine.semaphores config.slots do
    note (.slotsUnlimited kind cause)
  let (source, semaphores) := SlotSource.hostWide c.machine.semaphores config.slots
  modify fun c => { c with machine := { c.machine with semaphores } }
  return .ofSource source

/-! ## Looking after slots -/

/-- Removes the slots of the machine. -/
def cleanSlots : ClientM Unit := do
  let c ← get
  let (removed, semaphores) := SlotSource.clean c.machine.semaphores
  set { c with machine := { c.machine with semaphores } }
  say ("Removed " ++ toString removed ++ " semaphore(s)\n")

/-- Shows the slots of the machine. -/
def showSlots (config : ClientConfig) : ClientM Unit := do
  let slots ← openSlots config
  for report in slots.report (← get).machine.semaphores do
    say (report.text ++ "\n")

/-- Removes the slots, or shows them, or both. -/
def maintain (flags : Flags) (config : ClientConfig) : ClientM ClientEnd := do
  if flags.cleanSemaphores then cleanSlots
  if flags.dumpSemaphores then showSlots config
  return .exited 0

/-! ## Compiling -/

/-- The signals that end a client in an orderly way: to terminate, to interrupt, to hang up. -/
def orderlySignals : List Nat := [15, 2, 1]

/-- Writes what the compiler wrote to the streams that it shares with the client. -/
def passOn (run : ProgramRun) : ClientM Unit :=
  modify fun c => { c with stdout := c.stdout ++ run.stdout, stderr := c.stderr ++ [.bytes run.stderr] }

/-- Shows what was done in the course of a compile. -/
def showDeed (session : Session) : Deed → ClientM Unit
  | .requested _ => return
  | .gaveUp reason => note (.gaveUp reason)
  | .compiled _ _ => session.compiled.forM passOn
  | .shownOnStdout data => modify fun c => { c with stdout := c.stdout ++ data }
  | .shownOnStderr data => utter (.bytes data)

/-- The end of a client whose compiler does not end. -/
def endWaiting (session : Session) : ClientM ClientEnd := do
  match session.compiled.map ProgramRun.ending with
  | some (.signals number) =>
    if number ∈ orderlySignals then
      note (.interrupted number)
      return .exited (128 + number)
    else return .killed number
  | _ => return .stuck

/-- The end of a client. -/
def conclude (session : Session) : CompileEnd → ClientM ClientEnd
  | some (.ok outcome) => return .exited outcome.exitCode
  | some (.error e) => do
    complain e.text
    return .exited e.exitCode
  | none => endWaiting session

/-- Gives back the slots that a client still holds, unless it was killed. -/
def giveSlotsBack (slots : SlotController) (ending : ClientEnd) : ClientM Unit := do
  match ending with
  | .exited _ =>
    modify fun c =>
      let (_, _, semaphores) := slots.releaseAll c.machine.semaphores
      { c with machine := { c.machine with semaphores } }
  | _ => return

/-- How often a client waits for a worker, at most. -/
def rounds : Nat := 1000000

/-- Compiles with a compiler that was found. -/
def compileWith (config : ClientConfig) (flags : Flags) (configError : Option ConfigError)
    (compiler : ResolvedCompiler) (args : List String) : ClientM ClientEnd := do
  let slots ← openSlots config
  let machine := (← get).machine
  let request : CompileRequest :=
    { config
      flags
      invocation := .parse compiler.argv0 args
      compilerName := compiler.argv0
      unusable := configError.map fun e => "config error: " ++ e.text }
  let session := Session.ofMachine machine compiler.path config.environmentCache
  let run := CompileRun.fresh request session slots machine.semaphores machine.files
  let (ending, run) := run.compile rounds request
  let session := run.parts.surroundings
  modify fun c =>
    { c with machine := { c.machine with files := run.files, semaphores := run.semaphores } }
  match config.environmentCache, session.unkept with
  | some path, some cause => note (.hashNotKept path cause)
  | _, _ => pure ()
  run.deeds.forM (showDeed session)
  let ending ← conclude session ending
  giveSlotsBack run.slots ending
  return ending

/-- Finds the compiler and compiles. -/
def compile (config : ClientConfig) (flags : Flags) (configError : Option ConfigError)
    (argv0 : String) (args : List String) : ClientM ClientEnd := do
  prepareCache config
  match (← get).machine.search.find argv0 flags.compiler args with
  | .ok (compiler, args) => compileWith config flags configError compiler args
  | .error e =>
    complain e.text
    return .exited 1

/-! ## The whole -/

/-- Runs a client with a command line. A configuration that cannot be read does not keep it from
compiling. -/
def perform (argv0 : String) (args : List String) : ClientM ClientEnd := do
  let machine := (← get).machine
  let line := CommandLine.parse args
  let (flags, reader) := line.flags.withVariables (.ofVariables machine.vars)
  let loaded := ConfigLayers.load machine.files (ClientConfig.defaultPaths machine.host)
  let layers := loaded.toOption.getD .empty
  let configError := match loaded with
    | .ok _ => none
    | .error e => some e
  let config := ClientConfig.ofLayers machine.host layers
  let (settings, reader) := logConfig flags layers config reader
  openLog settings
  reader.errors.forM fun e => note (.invalidVariable e)
  line.flagError.forM fun e => note (.flagsIgnored e)
  configError.forM fun e => note (.configUnusable e)
  note (.called argv0 line.compilerArgs)
  if flags.isMaintenance then maintain flags config
  else compile config flags configError argv0 line.compilerArgs

/-- Runs a client on a machine. -/
def run (machine : Machine) (argv0 : String) (args : List String) : ClientEnd × Client :=
  (perform argv0 args).run (ofMachine machine)

end Client

end Offload
