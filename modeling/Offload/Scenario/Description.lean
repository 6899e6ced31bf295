import Offload.FileTree.Operations
import Offload.Json.Access
import Offload.Scenario.Channel
import Offload.Scenario.Stub

/-!
# Descriptions of scenarios

Scenarios are described in JSON: the files that are there, what a compiler does, what a peer
answers. What a description leaves out does not happen.
-/

namespace Offload.Scenario

/-! ## Bytes and frames -/

/-- Bytes as hexadecimal text, or as a unit and how often it is repeated. -/
def bytes : Json → Bytes
  | .string s => (Text.unhexChars? s.toList).getD []
  | value =>
    let unit := (Text.unhexChars? (value.textAt "fill").toList).getD []
    (List.replicate (value.natAt "count") unit).flatten

/-- A frame. -/
def frame (value : Json) : Frame :=
  match value.textAt? "text", value.field? "binary" with
  | some text, _ => .text text
  | none, some data => .binary (bytes data)
  | none, none => .close (value.textAt? "close")

/-- Something that arrives. -/
def arrival (value : Json) : Arrival :=
  match value.textAt? "error", value.field? "end" with
  | some what, _ => .error (.socket what)
  | none, some _ => .ended
  | none, none => .frame (frame value)

/-- What is done with a frame. -/
def reply (value : Json) : Reply :=
  match value.field? "frames", value.flagAt "drop", value.textAt? "refuse" with
  | some frames, _, _ => .arrivals (frames.items.map arrival)
  | none, true, _ => .vanish
  | none, false, some what => .refuse what
  | none, false, none => .nothing

/-! ## Files -/

/-- Where the scratch directory lies, in which a scenario takes place. -/
def scratch : Location := ["@"]

/-- Where the program of the client lies. -/
def clientPlace : Location := ["wrapper"]

/-- The path of the client's program. -/
def clientPath : String := "/" ++ "/".intercalate clientPlace

/-- Adds a file, a directory, or a link to the client's program. -/
def addFile (tree : FileTree) (value : Json) : FileTree :=
  let path := value.textAt "path"
  if value.flagAt "dir" then (tree.createDirs path).1
  else if value.flagAt "wrapper" then tree.addLink path clientPath
  else
    let contents := match value.textAt? "text" with
      | some text => Bytes.ofString text
      | none => bytes (value.valueAt "bytes")
    tree.addFile path contents (value.flagAt "exec")

/-- The directories that every machine has. -/
def standardDirectories : List String := ["/usr/bin", "/bin", "/dev", "/etc", "/tmp"]

/-- The files that every machine has, and whether they can be run. -/
def standardFiles : List (String × String × Bool) :=
  [("/dev/null", "", false), ("/etc/passwd", "root:x:0:0:root:/root:/bin/sh\n", false),
   ("/usr/bin/true", "", true), ("/usr/bin/false", "", true),
   ("/bin/true", "", true), ("/bin/false", "", true)]

/-- What every machine has, the client's program among it. -/
def standardTree (workingDirectory : Location) : FileTree :=
  let tree := FileTree.withWorkingDirectory workingDirectory
  let tree := standardDirectories.foldl (fun t dir => (t.createDirs dir).1) tree
  let tree := standardFiles.foldl (fun t f => t.addFile f.1 (Bytes.ofString f.2.1) f.2.2) tree
  tree.put clientPlace (.file ⟨[], true, tree.clock⟩)

/-- A machine with files in its scratch directory. -/
def scratchTree (files : List Json) : FileTree := files.foldl addFile (standardTree scratch)

/-! ## Compilers -/

/-- A compiler. -/
def stub (value : Json) : Stub :=
  { preprocessed := Bytes.ofString (value.textAt "cpp_stdout")
    diagnostics := Bytes.ofString (value.textAt "cpp_stderr")
    preprocessorExit := value.natAt "cpp_exit"
    stderr := Bytes.ofString (value.textAt "stderr")
    ending :=
      match value.natAt? "kill_parent", value.natAt? "signal" with
      | some n, _ => .signals n
      | none, some n => .ended (.ofSignal n)
      | none, none => .ended (.ofExit (value.natAt "exit")) }

end Offload.Scenario
