import Offload.Client.Session
import Offload.Scenario.Compile

/-!
# Scenarios of whole clients

A client is run on a machine that has one compiler, two directories of programs and a user, from a
description to the report on it.
-/

namespace Offload.Scenario

/-! ## Placeholders -/

/-- What stands for the directory of a scenario in descriptions and reports. -/
def rootMark : String := "@ROOT@"

/-- The directory of a scenario. -/
def root : String := "/" ++ rootMark

/-- The location of a path below the directory of a scenario. -/
def below (names : List String) : Location := rootMark :: names

/-- What stands for the address of the scheduler. -/
def schedulerMark : String := "@SCHEDULER@"

/-- The address of the scheduler, which depends on whether there is one. -/
def schedulerAddress (value : Json) : String :=
  if ((value.valueAt "scheduler").isNull) then "ws://127.0.0.1:1" else "ws://127.0.0.1:2"

/-- Puts in what the placeholders stand for. -/
def fillIn (value : Json) (text : String) : String :=
  (text.replace rootMark root).replace schedulerMark (schedulerAddress value)

/-- Puts the placeholders back. -/
def takeOut (value : Json) (text : String) : String :=
  (text.replace root rootMark).replace (schedulerAddress value) schedulerMark

/-! ## Description -/

/-- The files of a machine before the client runs. -/
def machineFiles (value : Json) : FileTree :=
  let stubName := (value.valueAt "stub").textAt "name"
  let tree := standardTree (below [])
  let tree := ["work", "home", "bin", "wrapbin"].foldl (fun t dir => (t.createDirs dir).1) tree
  let tree := tree.addLink ("wrapbin/" ++ stubName) clientPath
  let tree := tree.addFile ("bin/" ++ stubName) (Bytes.ofString stubName) true
  let tree := (value.itemsAt "files").foldl addFile tree
  let tree := match value.textAt? "config" with
    | some text =>
      tree.addFile "home/.config/fisk/client.conf" (Bytes.ofString (fillIn value text)) false
    | none => tree
  { tree with workingDirectory := below ["work"] }

/-- What the programs of a machine do. -/
def machineBehaviour (value : Json) : Location → Program :=
  let description := value.valueAt "stub"
  behaviour (below ["bin", description.textAt "name"]) (stub description).program

/-- The machine that a description asks for. -/
def machine (value : Json) : Machine :=
  let set := (value.pairsAt "env").map fun e => (e.1, fillIn value e.2)
  let vars : Variables :=
    ⟨[("HOME", root ++ "/home"),
      ("PATH", root ++ "/wrapbin:" ++ root ++ "/bin:/usr/bin:/bin")] ++ set⟩
  { host := host (vars.lookup? "HOME")
    vars
    files := machineFiles value
    directories :=
      (Text.splitAt ':' ((vars.lookup? "PATH").getD "").toList).map String.ofList
    self := clientPlace
    semaphores := .none
    behaviour := machineBehaviour value
    processId := 1
    network := .networkUnreachable }

/-! ## Report -/

/-- A record of the log. Where a text is not JSON, no more is said. -/
def recordText : LogRecord → String
  | .configUnusable (.notJson _) => "WARN Failed to load config: failed to parse <json>\n"
  | r => r.line

/-- Bytes as text. -/
def textOf (data : Bytes) : String := data.toString?.getD ""

/-- The standard error as text. -/
def stderrText (said : List Utterance) : String :=
  String.join (said.map fun
    | .record r => recordText r
    | .text s => s
    | .bytes data => textOf data)

/-- What a log held before. -/
def earlier : Bytes := Bytes.ofString "earlier\n"

/-- The contents of a file of a machine: logs, caches and configurations are not shown. -/
def machineContents (path : String) (contents : Bytes) : Json :=
  if Text.endsWith ".log" path then
    .object [("log", .bool (!contents.isEmpty)), ("kept", .bool (earlier.isPrefixOf contents))]
  else if Text.endsWith "environment_cache.json" path then .string "<cache>"
  else if Text.endsWith "client.conf" path then .string "<config>"
  else bytesJson contents

/-- The exit code of a client; `null` if it was killed. -/
def exitJson : ClientEnd → Json
  | .exited code => .int (code % 256)
  | _ => .null

/-- The report on a client. -/
def machineReport (value : Json) : Json :=
  let args := (value.textsAt "args").map (fillIn value)
  let (ending, client) := Client.run (machine value) (fillIn value (value.textAt "argv0")) args
  let files := client.machine.files
  .object [("exit", exitJson ending),
    ("stdout", .string (takeOut value (textOf client.stdout))),
    ("stderr", .string (takeOut value (stderrText client.stderr))),
    ("semaphores_left", .nat (SlotSource.clean client.machine.semaphores).1),
    ("work", treeJson machineContents files (below ["work"])),
    ("home", treeJson machineContents files (below ["home"])),
    ("scheduler", .null), ("worker", .null)]

/-- The report on a request for a connection that reaches no peer. -/
def unreachableReport (value : Json) : Json :=
  let request : ConnectRequest :=
    ⟨(value.textAt "url").replace "@PORT@" "1", value.pairsAt "headers", 0⟩
  let kind := match request.unreachable .networkUnreachable with
    | .invalidRequest _ => "InvalidRequest"
    | _ => "Connect"
  .object [("client", Json.bareFailure kind), ("server", .null)]

end Offload.Scenario
