import Offload.Message.Basic

/-!
# Messages of a worker
-/

namespace Offload

/-- Where a chunk of a job's output belongs. -/
inductive OutputKind where
  | stdout
  | stderr
  | file
deriving DecidableEq, Repr

namespace OutputKind

/-- The name in JSON. -/
def key : OutputKind → String
  | stdout => "stdout"
  | stderr => "stderr"
  | file => "file"

/-- The kind with a name. -/
def ofKey? (key : String) : Option OutputKind := [stdout, stderr, file].find? fun k => k.key == key

/-- The kind that a JSON value names. An object with one field names it too, if that holds `null` or
an empty object. -/
def ofJson? : Json → Option OutputKind
  | .object [(k, .object [])] => ofKey? k
  | value => value.asCase?.bind ofKey?

end OutputKind

/-- An entry of the index of a result: what the next bytes of the output are. -/
structure OutputChunk where
  kind : OutputKind
  bytes : UInt64
  /-- the file that a chunk of kind `file` goes to; without one it is the object file -/
  path : Option String
deriving DecidableEq, Repr

namespace OutputChunk

/-- The JSON form of a chunk. A missing path is not written. -/
def toJson (c : OutputChunk) : Json :=
  .object ([("type", .string c.kind.key), ("bytes", .nat c.bytes.toNat)]
    ++ (c.path.map fun p => ("path", .string p)).toList)

/-- A path, or `null` for none. -/
def pathOfJson? : Json → Option (Option String)
  | .null => some none
  | .string s => some (some s)
  | _ => none

/-- A chunk from its JSON form: an object, or an array of its fields in order, of which the path may
be left out. -/
def ofJson? : Json → Option OutputChunk
  | .object fields => do
    let kind ← Message.required fields "type" OutputKind.ofJson?
    let bytes ← Message.required fields "bytes" Message.asUInt64?
    let path ← Message.optional fields "path" pathOfJson? none
    return ⟨kind, bytes, path⟩
  | .array [kind, bytes] => do
    return ⟨← OutputKind.ofJson? kind, ← Message.asUInt64? bytes, none⟩
  | .array [kind, bytes, path] => do
    return ⟨← OutputKind.ofJson? kind, ← Message.asUInt64? bytes, ← pathOfJson? path⟩
  | _ => none

end OutputChunk

/-- The header of a job's result. Binary frames with the bytes of its index follow it. -/
structure JobResponse where
  success : Bool
  exitCode : Int32
  index : List OutputChunk
deriving DecidableEq, Repr

/-- The sum of byte counts. -/
def OutputChunk.totalBytes : List OutputChunk → Nat
  | [] => 0
  | chunk :: rest => chunk.bytes.toNat + totalBytes rest

namespace JobResponse

/-- The sum of the byte counts, if it has 64 bits. -/
def totalBytes? (r : JobResponse) : Option Nat :=
  let total := OutputChunk.totalBytes r.index
  if total < UInt64.size then some total else none

/-- The fields of a header in their order. -/
def toFields (r : JobResponse) : Json.Fields :=
  [("success", .bool r.success), ("exitCode", .int r.exitCode.toInt),
   ("index", .array (r.index.map OutputChunk.toJson))]

/-- A header from the fields of a message. -/
def ofFields? (fields : Json.Fields) : Option JobResponse := do
  let success ← Message.optional fields "success" Json.asBool? false
  let exitCode ← Message.optional fields "exitCode" Message.asInt32? 0
  let index ← Message.optional fields "index" (Message.asListOf? OutputChunk.ofJson?) []
  return ⟨success, exitCode, index⟩

end JobResponse

/-- What a worker says to a client. -/
inductive WorkerMessage where
  /-- the worker is ready for the upload that it asked to hold back -/
  | resume
  | response (header : JobResponse)
deriving DecidableEq, Repr

namespace WorkerMessage

/-- The names of the message types. -/
def types : List String := ["resume", "response"]

/-- The JSON form of a message. -/
def toJson : WorkerMessage → Json
  | resume => .object [("type", .string "resume")]
  | response header => .object (("type", .string "response") :: header.toFields)

/-- The text of a message. -/
def encode (m : WorkerMessage) : String := m.toJson.render

/-- A message of a known type from its fields. -/
def ofFields? (kind : String) (fields : Json.Fields) : Option WorkerMessage :=
  if kind = "resume" then some resume
  else if kind = "response" then (JobResponse.ofFields? fields).map response
  else none

/-- Reads the text of a message. -/
def parse (text : String) : Except MessageError WorkerMessage := do
  let (kind, fields) ← Message.tagged types text
  Message.ofFields (ofFields? kind fields)

end WorkerMessage

end Offload
