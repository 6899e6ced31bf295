import Offload.Config.Endpoint
import Offload.Config.Layers
import Offload.LogLevel
import Offload.SlotKind

/-!
# The configuration of the client

Every setting has a default, which also stands in for a value of the wrong type.
-/

namespace Offload

/-- What the client finds on its host. -/
structure Host where
  cpus : Nat
  name : String
  /-- the user's directory -/
  home : Option String
deriving DecidableEq, Repr

/-- The settings of the client. Times are in milliseconds. -/
structure ClientConfig where
  /-- the scheduler's address as it is configured -/
  scheduler : String
  schedulerConnectTimeout : Nat
  /-- from the scheduler's answer to the connection until it names a worker -/
  acquireWorkerTimeout : Nat
  workerConnectTimeout : Nat
  uploadTimeout : Nat
  responseTimeout : Nat
  clientName : String
  name : String
  hostname : Option String
  cacheDir : Option String
  slots : PerKind Nat
  watchdog : Bool
  /-- never take a free local slot before trying a worker -/
  noLocal : Bool
  /-- for a compiler's hash the remote environments that can stand in for it -/
  compatibleHashes : List (String × List String)
  logFile : Option String
  logFileAppend : Bool
  logLevel : String
deriving DecidableEq, Repr

namespace ClientConfig

/-! ## Defaults -/

/-- The address of a scheduler on this host. -/
def defaultScheduler : String := "ws://localhost:8097"

/-- The default of `scheduler-connect-timeout`. -/
def defaultSchedulerConnectTimeout : Nat := 3000

/-- The default of `acquired-slave-timeout`. -/
def defaultAcquireWorkerTimeout : Nat := 2000

/-- The default of `slave-connect-timeout`. -/
def defaultWorkerConnectTimeout : Nat := 1000

/-- The default of `upload-job-timeout`. -/
def defaultUploadTimeout : Nat := 5000

/-- The default of `response-timeout`. -/
def defaultResponseTimeout : Nat := 120000

/-! ## Files -/

/-- The files that are read, the user's before the system's. -/
def defaultPaths (host : Host) : List String :=
  (host.home.map fun home => Path.joinText home ".config/fisk/client.conf").toList
    ++ ["/etc/xdg/fisk/client.conf"]

/-! ## Settings -/

/-- A time in milliseconds. -/
def milliseconds (config : ConfigLayers) (key : String) (default : Nat) : Nat :=
  match config.integer? key with
  | some n => if 0 ≤ n.value then n.value.toNat else default
  | none => default

/-- The number of compile slots: `slots`, at least one, or else `desired_slots` if that is positive,
or else one for each processor. -/
def compileSlots (host : Host) (config : ConfigLayers) : Nat :=
  match config.integer? "slots" with
  | some n => (max n.value 1).toNat
  | none =>
    match config.integer? "desired_slots" with
    | some n => if 0 < n.value then n.value.toNat else host.cpus
    | none => host.cpus

/-- The number of preprocess slots: `cpp-slots`, at least one, or else two for each processor. -/
def preprocessSlots (host : Host) (config : ConfigLayers) : Nat :=
  match config.integer? "cpp-slots" with
  | some n => (max n.value 1).toNat
  | none => host.cpus * 2

/-- The directory for what is kept between runs. -/
def cacheDirOf (host : Host) (config : ConfigLayers) : Option String :=
  match ((config.string? "cache-dir").map Sourced.value).filter fun dir => !dir.isEmpty with
  | some dir => some dir
  | none => host.home.map fun home => Path.joinText home ".cache/fisk/client"

/-- The aliases of one hash: a text, or a list of which the texts count. -/
def aliases? : Json → Option (List String)
  | .string name => some [name]
  | .array items => some (items.filterMap Json.asString?)
  | _ => none

/-- The aliases of all hashes. -/
def compatibleHashesOf (config : ConfigLayers) : List (String × List String) :=
  match (config.get? "compatible-hashes").map Sourced.value with
  | some (.object fields) => fields.filterMap fun f => (aliases? f.2).map fun a => (f.1, a)
  | _ => []

/-- The value of a setting, or else its default. -/
def valueOr {α : Type} (setting : Option (Sourced α)) (default : α) : α :=
  (setting.map (·.value)).getD default

/-- The settings in a stack of layers. -/
def ofLayers (host : Host) (config : ConfigLayers) : ClientConfig :=
  let hostname := (config.string? "hostname").map (·.value)
  let name := valueOr (config.string? "name") (hostname.getD host.name)
  { scheduler := valueOr (config.string? "scheduler") defaultScheduler
    schedulerConnectTimeout :=
      milliseconds config "scheduler-connect-timeout" defaultSchedulerConnectTimeout
    acquireWorkerTimeout :=
      milliseconds config "acquired-slave-timeout" defaultAcquireWorkerTimeout
    workerConnectTimeout :=
      milliseconds config "slave-connect-timeout" defaultWorkerConnectTimeout
    uploadTimeout := milliseconds config "upload-job-timeout" defaultUploadTimeout
    responseTimeout := milliseconds config "response-timeout" defaultResponseTimeout
    clientName := valueOr (config.string? "client-name") name
    name
    hostname
    cacheDir := cacheDirOf host config
    slots := ⟨compileSlots host config, preprocessSlots host config⟩
    watchdog := valueOr (config.boolean? "watchdog") true
    noLocal := valueOr (config.boolean? "no-local") false
    compatibleHashes := compatibleHashesOf config
    logFile := (config.string? "log-file").map (·.value)
    logFileAppend := valueOr (config.boolean? "log-file-append") false
    logLevel := valueOr (config.string? "log-level") LogLevel.default }

/-- The settings in the files of the user and of the system. -/
def load (host : Host) (tree : FileTree) : Except ConfigError ClientConfig :=
  (ConfigLayers.load tree (defaultPaths host)).map (ofLayers host)

/-! ## What follows from the settings -/

/-- Where the scheduler takes announcements. -/
def endpoint (config : ClientConfig) : String := Endpoint.ofAddress config.scheduler

/-- The remote environments that can stand in for a compiler. -/
def compatibleWith (config : ClientConfig) (hash : String) : List String :=
  ((config.compatibleHashes.find? fun e => e.1 == hash).map (·.2)).getD []

/-- The file that keeps the hashes of compilers. -/
def environmentCache (config : ClientConfig) : Option String :=
  config.cacheDir.map fun dir => Path.joinText dir "environment_cache.json"

end ClientConfig

end Offload
