import Offload.Message.Basic

/-!
# Messages of the scheduler
-/

namespace Offload

/-- The worker that the scheduler picked for a job. -/
structure Assignment where
  ip : String
  hostname : String
  port : UInt16
  jobId : UInt64
  environment : String
  extraArgs : List String
deriving DecidableEq, Repr

namespace Assignment

/-- The address to connect to: the IP address if there is one, else the host name. -/
def host (a : Assignment) : String := if a.ip.isEmpty then a.hostname else a.ip

/-- Whether there is a worker to connect to. The scheduler leaves the address out when every worker
is busy. -/
def isUsable (a : Assignment) : Bool := a.port ≠ 0 && !a.host.isEmpty

/-- Host and port of the worker. -/
def address (a : Assignment) : String := a.host ++ ":" ++ toString a.port.toNat

/-- Where the worker takes jobs. -/
def compileUrl (a : Assignment) : String := "ws://" ++ a.address ++ "/compile"

/-- The fields of an assignment in their order. -/
def toFields (a : Assignment) : Json.Fields :=
  [("ip", .string a.ip), ("hostname", .string a.hostname), ("port", .nat a.port.toNat),
   ("id", .nat a.jobId.toNat), ("environment", .string a.environment),
   ("extraArgs", .strings a.extraArgs)]

/-- An assignment from the fields of a message. -/
def ofFields? (fields : Json.Fields) : Option Assignment := do
  let ip ← Message.optional fields "ip" Json.asString? ""
  let hostname ← Message.optional fields "hostname" Json.asString? ""
  let port ← Message.optional fields "port" Message.asUInt16? 0
  let jobId ← Message.optional fields "id" Message.asUInt64? 0
  let environment ← Message.optional fields "environment" Json.asString? ""
  let extraArgs ← Message.optional fields "extraArgs" (Message.asListOf? Json.asString?) []
  return ⟨ip, hostname, port, jobId, environment, extraArgs⟩

end Assignment

/-- What the scheduler says to a client. -/
inductive SchedulerMessage where
  /-- no worker has an environment like ours -/
  | needsEnvironment
  | assignment (worker : Assignment)
  /-- this client is older than the scheduler accepts -/
  | versionMismatch (minVersion : String)
  | versionVerified (minVersion : String)
deriving DecidableEq, Repr

namespace SchedulerMessage

/-- The names of the message types. -/
def types : List String := ["needsEnvironment", "slave", "version_mismatch", "version_verified"]

/-- The JSON form of a message. -/
def toJson : SchedulerMessage → Json
  | needsEnvironment => .object [("type", .string "needsEnvironment")]
  | assignment worker => .object (("type", .string "slave") :: worker.toFields)
  | versionMismatch v =>
    .object [("type", .string "version_mismatch"), ("minimum_version", .string v)]
  | versionVerified v =>
    .object [("type", .string "version_verified"), ("minimum_version", .string v)]

/-- The text of a message. -/
def encode (m : SchedulerMessage) : String := m.toJson.render

/-- A message of a known type from its fields. -/
def ofFields? (kind : String) (fields : Json.Fields) : Option SchedulerMessage :=
  if kind = "needsEnvironment" then some needsEnvironment
  else if kind = "slave" then (Assignment.ofFields? fields).map assignment
  else if kind = "version_mismatch" then
    (Message.optional fields "minimum_version" Json.asString? "").map versionMismatch
  else if kind = "version_verified" then
    (Message.optional fields "minimum_version" Json.asString? "").map versionVerified
  else none

/-- Reads the text of a message. -/
def parse (text : String) : Except MessageError SchedulerMessage := do
  let (kind, fields) ← Message.tagged types text
  Message.ofFields (ofFields? kind fields)

end SchedulerMessage

end Offload
