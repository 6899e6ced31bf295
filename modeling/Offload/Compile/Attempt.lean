import Offload.Compile.Run
import Offload.Environment

/-!
# An attempt to compile on a worker

The scheduler names a worker; meanwhile the preprocessor runs. The worker takes the preprocessed
source and answers with the output of the compiler. Whatever goes wrong on the way abandons the
attempt. All waiting up to the result is bounded by the watchdog, which has the last word: when it has
fired, nothing else counts. Once the result is written the watchdog is stopped, and nothing bounds the wait
for the connection to the scheduler to be closed.
-/

namespace Offload

/-- A step of an attempt. -/
abbrev Step (ω κ α : Type) := ExceptT Abandon (StateM (CompileRun ω κ)) α

namespace Attempt

variable {ω κ : Type} [Channel κ] [Collaborators ω κ]

/-- Gives the attempt up. -/
def giveUp {α : Type} (reason : Fallback) : Step ω κ α := throw (.fallback reason)

/-- Acts on the parts. -/
def act (f : Parts ω κ → Parts ω κ) : Step ω κ Unit :=
  modify fun run => { run with parts := f run.parts }

/-- Registers a source of events. -/
def register (source : EventSource (Parts ω κ)) : Step ω κ Unit :=
  modify fun run => run.addSource source

/-! ## Waiting -/

/-- Waits until `done` holds. The first argument bounds the waiting. -/
def await (rounds : Nat) (done : Parts ω κ → Bool) : Step ω κ Unit := do
  let run ← get
  let doneOrFired := fun p : Parts ω κ => p.watchdog.fired || done p
  match run.mux.runUntil Parts.around doneOrFired rounds run.parts with
  | .noSources parts =>
    set { run with parts }
    giveUp .nothingToWaitFor
  | .pending parts =>
    set { run with parts }
    throw .stalled
  | .done _ parts =>
    set { run with parts }
    -- the watchdog counts even if `done` holds as well
    match parts.watchdog.timeout with
    | some timeout => giveUp (.timeout timeout)
    | none => return

/-! ## The preprocessor -/

/-- Gives up if the preprocessor has failed. -/
def checkPreprocessor : Step ω κ Unit := do
  match (← get).parts.preprocessor with
  | .ended (.error cause) => giveUp (.preprocessorFailed cause)
  | .ended (.ok result) =>
    if result.succeeded then return else giveUp (.preprocessorExited result.exitCode)
  | _ => return

/-- The preprocessed source. -/
def preprocessedSource : Step ω κ Bytes := do
  match (← get).parts.preprocessor with
  | .notStarted => giveUp .preprocessorNeverStarted
  | .ended (.ok result) => return result.stdout
  | _ => giveUp .sourceUnavailable

/-- Starts the watchdog and the preprocessor. -/
def begin (request : CompileRequest) : Step ω κ Unit := do
  act Parts.startWatchdog
  register Parts.watchdogSource
  act fun p => { p with
    surroundings := Collaborators.startPreprocessor p.surroundings request.invocation
    preprocessor := .running }
  register Parts.preprocessorSource
  -- one that fails at once is noticed before anyone is asked
  act fun p => p.pollPreprocessor.2
  checkPreprocessor

/-! ## The scheduler -/

/-- The compiler's environment. -/
def identify (config : ClientConfig) : Step ω κ Environment := do
  let run ← get
  let (hash, files, surroundings) := Collaborators.compilerHash run.parts.surroundings run.files
  set { run.withSurroundings surroundings with files }
  match hash with
  | .ok hash => return ⟨hash, config.compatibleWith hash⟩
  | .error cause => giveUp (.unidentified cause)

/-- The request for a connection to the scheduler. -/
def schedulerRequest (request : CompileRequest) (environment : Environment) (source : String) :
    ConnectRequest :=
  { url := request.config.endpoint
    headers :=
      [(Headers.environments, environment.headerValue), (Headers.sourceFile, source),
       (Headers.clientName, request.config.clientName), (Headers.clientVersion, clientVersionText)]
      ++ (request.flags.worker.map fun worker => (Headers.worker, worker)).toList
      ++ (request.config.hostname.map fun name => (Headers.clientHostname, name)).toList
    timeout := request.config.schedulerConnectTimeout }

/-- Opens a connection. -/
def connect (request : ConnectRequest) (refused : TransportError → Fallback) :
    Step ω κ (Accepted κ) := do
  let run ← get
  let (answer, surroundings) := Collaborators.connect run.parts.surroundings request
  set ((run.withSurroundings surroundings).note (.requested request))
  match answer with
  | .ok accepted => return accepted
  | .error cause => giveUp (refused cause)

/-- Begins the conversation with the scheduler. -/
def greetScheduler (client : String) (channel : κ) : Step ω κ Unit := do
  let conversation := (SchedulerConversation.ofClient client).onOpen
  act fun p => { p with scheduler := some (.ofChannel channel conversation) }
  register Parts.schedulerSource

/-- What the scheduler answered. -/
def schedulerOutcome? (p : Parts ω κ) : Option SchedulerOutcome :=
  p.scheduler.bind fun c => c.conversation.outcome

/-- The worker that the scheduler names. -/
def assignment : Step ω κ Assignment := do
  match schedulerOutcome? (← get).parts with
  | some (.assigned worker) => return worker
  | some (.versionMismatch minVersion) => throw (.tooOld minVersion)
  | some .needsEnvironment => giveUp .noEnvironment
  | some .noWorker => giveUp .noWorker
  | some (.versionVerified _) => giveUp .noAssignment
  | some (.failed error) => giveUp (.schedulerFailed error)
  | none => giveUp .schedulerSilent

/-- Gets a worker from the scheduler. -/
def acquireWorker (rounds : Nat) (request : CompileRequest) (source : String) :
    Step ω κ Assignment := do
  let environment ← identify request.config
  let accepted ← connect (schedulerRequest request environment source) .schedulerUnreachable
  act (Parts.enter .connectedToScheduler)
  greetScheduler request.config.name accepted.channel
  await rounds Parts.schedulerEnded
  assignment

/-! ## The worker -/

/-- What a worker is called. -/
def workerName (worker : Assignment) : String := worker.host ++ ":" ++ toString worker.port.toNat

/-- The request for a connection to a worker. -/
def workerRequest (config : ClientConfig) (worker : Assignment) : ConnectRequest :=
  { url := worker.compileUrl
    headers := [(Headers.jobId, toString worker.jobId.toNat)]
    timeout := config.workerConnectTimeout }

/-- Whether the headers of a worker's answer ask to hold the upload back. -/
def asksToWait (headers : Headers) : Bool := Headers.last? headers Headers.wait == some "true"

/-- Begins the conversation with a worker. -/
def greetWorker (channel : κ) (wait : Bool) : Step ω κ Unit := do
  act fun p => { p with worker := some (.ofChannel channel (WorkerConversation.fresh.onOpen wait)) }
  register Parts.workerSource

/-- Gives up if the conversation with the worker has failed. -/
def checkWorker : Step ω κ Unit := do
  match (← get).parts.worker with
  | some c =>
    if c.conversation.state = .failed then
      giveUp (.workerFailed (c.conversation.error.getD "worker connection failed"))
    else return
  | none => return

/-- Waits for the worker, or for the end of the conversation with it. -/
def awaitWorker (rounds : Nat) (done : Parts ω κ → Bool) : Step ω κ Unit := do
  await rounds fun p => done p || p.workerIs WorkerConversation.isTerminal
  checkWorker

/-- The job that is handed to a worker. -/
def envelope (request : CompileRequest) (worker : Assignment) (wait : Bool) (payload : Bytes) :
    JobEnvelope :=
  ⟨request.invocation.remoteCommandLine worker.extraArgs, request.compilerName, wait,
   UInt64.ofNat payload.length⟩

/-- Begins the upload. -/
def beginUpload (name : String) (job : JobEnvelope) (payload : Bytes) : Step ω κ Unit := do
  match (← get).parts.worker with
  | none => return
  | some c =>
    match c.conversation.beginUpload job payload with
    | .ok conversation => act fun p => { p with worker := some { c with conversation } }
    | .error cause => giveUp (.uploadRefused name cause)

/-- Hands the job over, as soon as there is a source to be compiled. -/
def upload (rounds : Nat) (request : CompileRequest) (worker : Assignment) (wait : Bool) :
    Step ω κ Unit := do
  awaitWorker rounds (Parts.workerIs WorkerConversation.isClearToUpload)
  awaitWorker rounds Parts.preprocessorEnded
  checkPreprocessor
  let payload ← preprocessedSource
  beginUpload (workerName worker) (envelope request worker wait payload) payload
  awaitWorker rounds (Parts.workerIs WorkerConversation.uploadFlushed)

/-- The result of the job. -/
def takeResult (name : String) : Step ω κ JobResult := do
  match (← get).parts.worker.bind fun c => c.conversation.result with
  | none => giveUp .resultMissing
  | some result =>
    act fun p => { p with worker := p.worker.map fun c =>
      { c with conversation := c.conversation.takeResult.2 } }
    -- a failure that is none of the compiler's
    if !result.success && result.exitCode = 0 then giveUp (.failureReported name) else return result

/-! ## The result -/

/-- Where a file of the result goes. -/
def outputPath (inv : Invocation) (file : OutputFile) : Step ω κ String := do
  match file.path, inv.objectOutput? with
  | some path, _ => return path
  | none, some path => return path
  | none, none => giveUp .noObjectPath

/-- Writes the files of a result. -/
def writeFiles (inv : Invocation) : List OutputFile → Step ω κ Unit
  | [] => return
  | file :: rest => do
    let path ← outputPath inv file
    let run ← get
    match run.files.write path file.data with
    | .error cause => giveUp (.unwritable path cause)
    | .ok files =>
      set { run with files }
      writeFiles inv rest

/-- The reason that is given to the scheduler at the end. -/
def closeReason : String := "got response"

/-- Where the closing of the connection to the scheduler begins. -/
def beginClosing (p : Parts ω κ) : Connection.ClosingStage :=
  match p.scheduler with
  | some c => c.beginClosing closeReason
  | none => .ended none

/-- Goes on with the closing of the connection to the scheduler. -/
def pollClosing (stage : Connection.ClosingStage) (p : Parts ω κ) :
    Connection.ClosingStage × Parts ω κ :=
  match p.scheduler with
  | some c =>
    let (stage, channel) := Connection.goOnClosing stage c.channel
    (stage, { p with scheduler := some { c with channel } })
  | none => (.ended none, p)

/-- Waits until the connection to the scheduler is closed, or cannot be; whether it has come to that. The
first argument bounds the waiting. -/
def awaitClosing : Nat → Connection.ClosingStage → Parts ω κ → Bool × Parts ω κ
  | 0, _, p => (false, p)
  | rounds + 1, stage, p =>
    match pollClosing stage p with
    | (.ended _, p) => (true, p)
    | (stage, p) =>
      match p.idle with
      | none => (false, p)
      | some p => awaitClosing rounds stage p.meanwhile

/-- Closes the connection to the scheduler. The watchdog does not bound this wait: it is stopped by now,
and no source of events is polled meanwhile. -/
def closeScheduler (rounds : Nat) : Step ω κ Unit := do
  let run ← get
  let (closed, parts) := awaitClosing rounds (beginClosing run.parts) run.parts
  set { run with parts }
  if closed then return else throw .stalled

/-- Shows the output of the compiler. -/
def showOutput (result : JobResult) (run : CompileRun ω κ) : CompileRun ω κ :=
  let run := if result.stdout.isEmpty then run else run.showStdout result.stdout
  if result.stderr.isEmpty then run else run.showStderr result.stderr

/-- Delivers a result. -/
def deliver (rounds : Nat) (inv : Invocation) (result : JobResult) : Step ω κ Unit := do
  writeFiles inv result.files
  act (Parts.enter .finished)
  modify fun run => run.showMessages.stopWatchdog
  closeScheduler rounds
  modify (showOutput result)

/-! ## The whole -/

/-- Compiles on a worker. -/
def remote (rounds : Nat) (request : CompileRequest) : Step ω κ CompileOutcome := do
  match request.invocation.sourceFile? with
  | none => giveUp .noSingleSource
  | some source =>
    begin request
    let worker ← acquireWorker rounds request source
    -- it has run while the scheduler was asked
    checkPreprocessor
    act (Parts.enter .acquiredWorker)
    let name := workerName worker
    let accepted ← connect (workerRequest request.config worker) (.workerUnreachable name)
    let wait := asksToWait accepted.headers
    greetWorker accepted.channel wait
    upload rounds request worker wait
    act (Parts.enter .uploadedJob)
    -- nothing but the end of the conversation is waited for
    awaitWorker rounds fun _ => false
    let result ← takeResult name
    deliver rounds request.invocation result
    return ⟨result.exitCode.toInt, .onWorker name⟩

end Attempt

end Offload
