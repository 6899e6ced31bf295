import Offload.Json.Basic

/-!
# Stages of a remote compile

The checkpoints of a remote compile in the order in which they are reached.
-/

namespace Offload

/-- A checkpoint of a remote compile. -/
inductive Stage where
  | init
  | connectedToScheduler
  | acquiredWorker
  | uploadedJob
  | finished
deriving DecidableEq, Repr

namespace Stage

/-- The position in the order. -/
def index : Stage → Nat
  | init => 0
  | connectedToScheduler => 1
  | acquiredWorker => 2
  | uploadedJob => 3
  | finished => 4

/-- All stages in order. -/
def all : List Stage := [init, connectedToScheduler, acquiredWorker, uploadedJob, finished]

/-- The stage after this one. -/
def next? : Stage → Option Stage
  | init => some connectedToScheduler
  | connectedToScheduler => some acquiredWorker
  | acquiredWorker => some uploadedJob
  | uploadedJob => some finished
  | finished => none

/-- The name shown to the user. -/
def name : Stage → String
  | init => "init"
  | connectedToScheduler => "connected-to-scheduler"
  | acquiredWorker => "acquired-worker"
  | uploadedJob => "uploaded-job"
  | finished => "finished"

/-- The name in JSON. -/
def key : Stage → String
  | init => "init"
  | connectedToScheduler => "connected_to_scheduler"
  | acquiredWorker => "acquired_worker"
  | uploadedJob => "uploaded_job"
  | finished => "finished"

/-- The stage with a JSON name. -/
def ofKey? (key : String) : Option Stage := all.find? fun s => s.key == key

/-- The stage that a JSON value names. -/
def ofJson? (value : Json) : Option Stage := value.asCase?.bind ofKey?

instance : LT Stage := ⟨fun a b => a.index < b.index⟩
instance : LE Stage := ⟨fun a b => a.index ≤ b.index⟩
instance (a b : Stage) : Decidable (a < b) := inferInstanceAs (Decidable (a.index < b.index))
instance (a b : Stage) : Decidable (a ≤ b) := inferInstanceAs (Decidable (a.index ≤ b.index))

theorem lt_iff_index {a b : Stage} : a < b ↔ a.index < b.index := Iff.rfl

theorem le_iff_index {a b : Stage} : a ≤ b ↔ a.index ≤ b.index := Iff.rfl

end Stage

end Offload
