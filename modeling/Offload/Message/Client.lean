import Offload.Json.Printer

/-!
# Messages of the client
-/

namespace Offload

/-- The first message to the scheduler: a job is to be compiled. -/
structure Announcement where
  client : String
deriving DecidableEq, Repr

namespace Announcement

/-- The JSON form of an announcement. -/
def toJson (a : Announcement) : Json :=
  .object [("client", .string a.client), ("type", .string "compile")]

/-- The text of an announcement. -/
def encode (a : Announcement) : String := a.toJson.render

end Announcement

/-- The message to the worker that announces the preprocessed source. -/
structure JobEnvelope where
  commandLine : List String
  argv0 : String
  /-- whether the worker asked to hold the upload back -/
  wait : Bool
  /-- the size of the source, which follows in one binary frame -/
  bytes : UInt64
deriving DecidableEq, Repr

namespace JobEnvelope

/-- The JSON form of an envelope. -/
def toJson (e : JobEnvelope) : Json :=
  .object [("type", .string "job"), ("commandLine", .strings e.commandLine),
    ("argv0", .string e.argv0), ("wait", .bool e.wait), ("bytes", .nat e.bytes.toNat)]

/-- The text of an envelope. -/
def encode (e : JobEnvelope) : String := e.toJson.render

end JobEnvelope

end Offload
