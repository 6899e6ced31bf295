import Offload.Cache.Environments
import Offload.Json.Access
import Offload.Scenario.Channel

/-!
# Reports on scenarios

What a scenario left behind, as JSON.
-/

namespace Offload.Scenario

/-- Bytes as hexadecimal text. -/
def bytesJson (data : Bytes) : Json := .string (Text.hex data)

/-- A frame. -/
def frameJson : Frame → Json
  | .text text => .object [("text", .string text)]
  | .binary data => .object [("binary", bytesJson data)]
  | .close reason => .object [("close", Json.optionalText reason)]

/-- The value in a file that holds a cache of hashes. -/
def cacheValue? (contents : Bytes) : Option Json := do
  let text ← contents.toString?
  let _ ← EnvironmentCache.decode? text
  Json.parse? text

/-- An entry of a listing; the contents are shown as a function of path and bytes says. -/
def listedJson (contentsJson : String → Bytes → Json) : FileTree.Listed → Json
  | .bareDirectory path => .array [.string (path ++ "/"), .null]
  | .file path contents => .array [.string path, contentsJson path contents]

/-- The files below a directory. -/
def treeJson (contentsJson : String → Bytes → Json) (tree : FileTree) (base : Location) : Json :=
  .array ((tree.list base).map (listedJson contentsJson))

/-- The contents of a file as bytes. -/
def plain (_ : String) (contents : Bytes) : Json := bytesJson contents

/-- The contents of a file as bytes, or as a value if it is a cache of hashes. -/
def cacheAware (path : String) (contents : Bytes) : Json :=
  match Text.endsWith ".json" path, cacheValue? contents with
  | true, some value => value
  | _, _ => bytesJson contents

end Offload.Scenario
