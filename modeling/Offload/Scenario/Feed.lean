import Offload.Multiplexer

/-!
# Sources that feed each other

A source is named by a counter and is ready while its counter is positive. Its dispatch takes one
from the counter and adds to others.
-/

namespace Offload.Scenario

/-- Counters by name, the names of the sources dispatched so far, and how often sources were
polled. -/
structure Feed where
  counters : List (String × Nat)
  log : List String
  polls : Nat
deriving DecidableEq, Repr

namespace Feed

/-- Nothing counted. -/
def empty : Feed := ⟨[], [], 0⟩

/-- The counter of a name. -/
def count (f : Feed) (name : String) : Nat :=
  ((f.counters.find? fun c => c.1 == name).map (·.2)).getD 0

/-- Sets the counter of a name. -/
def setCount (f : Feed) (name : String) (n : Nat) : Feed :=
  { f with counters := (name, n) :: f.counters.filter fun c => c.1 != name }

/-- Adds one to the counter of a name. -/
def feed (f : Feed) (name : String) : Feed := f.setCount name (f.count name + 1)

/-- The source of a counter, which feeds other counters. -/
def source (name : String) (feeds : List String) : EventSource Feed where
  poll f := (0 < f.count name, { f with polls := f.polls + 1 })
  dispatch f :=
    let f := feeds.foldl feed (f.setCount name (f.count name - 1))
    { f with log := f.log ++ [name] }

/-- Nothing happens but by the sources. -/
def still : Multiplexer.Surroundings Feed := ⟨id, fun _ => none⟩

/-- Waits once. -/
def exec (mux : Multiplexer Feed) (f : Feed) : Waited Feed Nat := mux.exec still 1 f

/-- Waits until so many dispatches are logged. -/
def runUntil (mux : Multiplexer Feed) (dispatched : Nat) (f : Feed) : Waited Feed Nat :=
  mux.runUntil still (fun f => dispatched ≤ f.log.length) dispatched f

end Feed

end Offload.Scenario
