import Offload.Config.Source
import Offload.FileTree.Operations
import Offload.Json.Printer
import Offload.Json.Reader
import Offload.Text.Blank

/-!
# Layered configuration

A configuration is a stack of JSON objects. The first layer that has a key with a value other than
`null` decides; a value of the wrong type hides the layers below it.
-/

namespace Offload

/-- The settings of one place. -/
structure ConfigLayer where
  source : Source
  values : Json.Fields

/-- Layers, the one with the highest precedence first. -/
structure ConfigLayers where
  layers : List ConfigLayer

/-- Why a configuration file cannot be used. -/
inductive ConfigError where
  | unreadable (path : String) (cause : SystemError)
  | blank (path : String)
  | notJson (path : String)
  | notAnObject (path : String)
deriving DecidableEq, Repr

/-- The wording of an error. -/
def ConfigError.text : ConfigError → String
  | unreadable path cause => "failed to read " ++ path ++ ": " ++ cause.text
  | blank path => "config file " ++ path ++ " is empty"
  | notJson path => "failed to parse " ++ path ++ ": <json>"
  | notAnObject path => "failed to parse " ++ path ++ ": top level must be a JSON object"

namespace ConfigLayer

/-- The value of a key, unless it is `null`. -/
def get? (layer : ConfigLayer) (key : String) : Option (Sourced Json) :=
  ((Json.Fields.get? layer.values key).filter fun v => !v.isNull).map fun v => ⟨v, layer.source⟩

/-- The layer in the text of a file. -/
def ofText (path text : String) : Except ConfigError ConfigLayer :=
  if text.toList.all Text.isBlank then .error (.blank path)
  else
    match Json.parse? text with
    | some (.object fields) => .ok ⟨.file path, fields⟩
    | some _ => .error (.notAnObject path)
    | none => .error (.notJson path)

end ConfigLayer

namespace ConfigLayers

/-- No layers. -/
def empty : ConfigLayers := ⟨[]⟩

/-- Layers from values in memory; those that are not objects are left out. -/
def ofValues (values : List (Sourced Json)) : ConfigLayers :=
  ⟨values.filterMap fun v => v.value.asObject?.map fun fields => ⟨v.source, fields⟩⟩

/-- The value that decides a key. -/
def get? (config : ConfigLayers) (key : String) : Option (Sourced Json) :=
  config.layers.findSome? (·.get? key)

/-- The value of a key, if it has the type that `read` takes. -/
def typed? {α : Type} (read : Json → Option α) (config : ConfigLayers) (key : String) :
    Option (Sourced α) :=
  (config.get? key).bind fun found => (read found.value).map fun a => ⟨a, found.source⟩

/-- A text. -/
def string? (config : ConfigLayers) (key : String) : Option (Sourced String) :=
  config.typed? Json.asString? key

/-- An integer of 64 bits. -/
def integer? (config : ConfigLayers) (key : String) : Option (Sourced Int) :=
  config.typed? Json.asInt64? key

/-- A truth value. -/
def boolean? (config : ConfigLayers) (key : String) : Option (Sourced Bool) :=
  config.typed? Json.asBool? key

/-- The layer of a file; `none` if there is no such file. -/
def readLayer (tree : FileTree) (path : String) : Except ConfigError (Option ConfigLayer) :=
  match tree.readText path with
  | .ok text => (ConfigLayer.ofText path text).map some
  | .error .notFound => .ok none
  | .error cause => .error (.unreadable path cause)

/-- The layers of several files, the first with the highest precedence. Files that do not exist are
skipped, and the first that cannot be used ends the reading. -/
def load (tree : FileTree) : List String → Except ConfigError ConfigLayers
  | [] => .ok empty
  | path :: rest => do
    let layer ← readLayer tree path
    let others ← load tree rest
    return ⟨layer.toList ++ others.layers⟩

end ConfigLayers

end Offload
