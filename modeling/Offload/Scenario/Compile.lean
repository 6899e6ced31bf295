import Offload.Compile.Policy
import Offload.Json.Reader
import Offload.Scenario.Description
import Offload.Scenario.Report
import Offload.Scenario.World

/-!
# Scenarios of compiles

A compile in scripted surroundings, from its description to the report on it.
-/

namespace Offload.Scenario

/-! ## Description -/

/-- The host on which scenarios take place. -/
def host (home : Option String) : Host := ⟨1, "<os-hostname>", home⟩

/-- The configuration in a text; a text that holds none leaves the defaults. -/
def config (home : Option String) (text : String) : ClientConfig :=
  .ofLayers (host home) (.ofValues ((Json.parse? text).toList.map fun v => ⟨v, .default⟩))

/-- A peer. -/
def peer (value : Json) : Peer :=
  match value.textAt? "refuse", value.flagAt "timeout", value.textAt? "invalid" with
  | some reason, _, _ => .refuses reason
  | none, true, _ => .silent
  | none, false, some what => .invalid what
  | none, false, none =>
    let script := Script.ofReplies ((value.itemsAt "greet").map arrival)
      ((value.itemsAt "replies").map reply)
    .accepts ⟨⟨script, (value.itemsAt "after_preprocess").map arrival⟩, value.pairsAt "headers"⟩

/-- What the preprocessor yields. -/
def preprocessed (value : Json) : Option (Except CompilerError Preprocessed) :=
  if value.flagAt "cpp_never" then none
  else
    match value.textAt? "cpp_error" with
    | some what => some (.error (.taskFailed what))
    | none =>
      some (.ok ⟨(value.valueAt "cpp_exit").asInt?.getD 0, bytes (value.valueAt "cpp_stdout"),
        bytes (value.valueAt "cpp_stderr")⟩)

/-- The compiler as workers know it. -/
def compilerName (toolchain : Json) : String := (toolchain.textAt? "argv0").getD "gcc"

/-- How a compile on this host ends. -/
def localEnd (toolchain : Json) : Except CompilerError Int :=
  match toolchain.natAt? "local_error" with
  | some number => .error (.notRun (compilerName toolchain) (.ofNumber number))
  | none => .ok ((toolchain.valueAt "local_exit").asInt?.getD 0)

/-- The hash of the compiler. -/
def compilerHash (toolchain : Json) : Except CompilerError String :=
  match toolchain.textAt? "hash" with
  | some hash => .ok hash
  | none => .error (.taskFailed "no hash")

/-- A span that exceeds every deadline. -/
def leapOver (d : StageDeadlines) : Micros :=
  d.schedulerConnect + d.workerAcquire + d.jobUpload + d.response + StageDeadlines.maxTick + 1

/-- Takes several units of a kind, as far as there are any; how many that are. -/
def takeMany (source : SlotSource) (kind : SlotKind) : Nat → Semaphores → Nat × Semaphores
  | 0, units => (0, units)
  | n + 1, units =>
    match source.take? units kind with
    | none => (0, units)
    | some (_, units) =>
      let (taken, units) := takeMany source kind n units
      (taken + 1, units)

/-- The compile that a description asks for. -/
def compileRequest (value : Json) : CompileRequest :=
  let name := compilerName (value.valueAt "toolchain")
  { config := config none (value.textAt "config")
    flags := { Flags.none with worker := value.textAt? "slave", disabled := value.flagAt "disabled" }
    invocation := .parse name (value.textsAt "args")
    compilerName := name
    unusable := value.textAt? "remote_disabled" }

/-- The state before the compile. -/
def beforeCompile (value : Json) (request : CompileRequest) : CompileRun World PeerChannel :=
  let toolchain := value.valueAt "toolchain"
  let capacities := (value.field? "capacity").getD (.array [.nat 1, .nat 1])
  let (source, units) := SlotSource.inProcess .none
    ⟨(capacities.item 0).natValue, (capacities.item 1).natValue⟩
  let (busy, units) := takeMany source .compile (value.natAt "busy") units
  let world : World :=
    { time := 0
      leap := leapOver (.ofConfig request.config)
      hash := compilerHash toolchain
      preprocessor := preprocessed toolchain
      preprocessorEnded := false
      compiler := localEnd toolchain
      peers := (value.itemsAt "peers").map peer
      busy := (source, busy)
      streamsBroken := value.flagAt "output_fails" }
  .fresh request world (.ofSource source) units (scratchTree (value.itemsAt "files"))

/-- How often a scenario may wait. -/
def rounds : Nat := 1000

/-! ## Report -/

/-- The kind of an error. -/
def compilerErrorKind : CompilerError → String
  | .notFound _ => "NotFound"
  | .notNamed => "NoCompiler"
  | .notRun _ _ => "Spawn"
  | .notHashed _ _ => "Hash"
  | .taskFailed _ => "Task"

/-- The wording of a cause; times are left out, since they differ from run to run. -/
def causeText : LocalCause → String
  | .fallback (.timeout t) => Fallback.timeoutText t.stage "<elapsed>"
  | cause => cause.text

/-- How the compile ended. -/
def endJson : CompileEnd → Json
  | none => .null
  | some (.ok ⟨code, execution⟩) =>
    let (remote, detail) := match execution with
      | .onWorker worker => (true, worker)
      | .onHost cause => (false, causeText cause)
    .object [("exit_code", .int code), ("remote", .bool remote), ("detail", .string detail)]
  | some (.error e) =>
    let kind := match e with
      | .tooOld _ => "VersionMismatch"
      | .compiler cause => compilerErrorKind cause
    .object [("error", .string kind), ("message", .string e.text), ("exit_code", .int e.exitCode)]

/-- A request for a connection. -/
def requestJson (r : ConnectRequest) : Json :=
  .object [("url", .string r.url), ("headers", .array (r.headers.map fun h => .strings [h.1, h.2])),
    ("timeout", Json.digits r.timeout)]

/-- What a peer has seen. -/
def peerJson (channel : Option PeerChannel) : Json :=
  .object [("sent", .array ((channel.map (·.script.sent)).getD [] |>.map frameJson)),
    ("closed", .bool ((channel.map (·.script.shut)).getD false))]

/-- What the peers have seen: the scheduler is the first, the worker the second. -/
def peersJson (parts : Parts World PeerChannel) : Nat → List Json
  | 0 => []
  | 1 => [peerJson (parts.scheduler.map (·.channel))]
  | n + 2 =>
    peerJson (parts.scheduler.map (·.channel)) :: peerJson (parts.worker.map (·.channel))
      :: List.replicate n (peerJson none)

/-- The report on a compile. -/
def compileReport (value : Json) : Json :=
  let request := compileRequest value
  let (ending, run) := (beforeCompile value request).compile rounds request
  let stats := run.slots.ledger.get .compile
  let shown := fun f : Deed → Option Bytes => bytesJson (run.deeds.filterMap f).flatten
  .object [("result", endJson ending),
    ("forced_local", Json.ofOption (fun r : ForcedReason => .string r.text) request.forcedReason?),
    ("requests", .array (run.deeds.filterMap fun
      | .requested r => some (requestJson r)
      | _ => none)),
    ("peers", .array (peersJson run.parts (value.itemsAt "peers").length)),
    ("local_runs", .array (run.deeds.filterMap fun
      | .compiled args slot => some (.object [("args", .strings args), ("slot", .string slot.name)])
      | _ => none)),
    ("tried", .nat stats.tried), ("waited", .nat stats.waited),
    ("stdout", shown fun
      | .shownOnStdout data => some data
      | _ => none),
    ("stderr", shown fun
      | .shownOnStderr data => some data
      | _ => none),
    ("files", treeJson plain run.files scratch)]

end Offload.Scenario
