import Offload.Connection

/-!
# A conversation that notes what it is told
-/

namespace Offload.Scenario

/-- A conversation that says what is put into its outbox and notes what it is told. -/
structure Recorder where
  outbox : List Frame
  told : List ConnectionEvent
deriving DecidableEq, Repr

namespace Recorder

/-- Nothing said, nothing told. -/
def empty : Recorder := ⟨[], []⟩

/-- Has one more frame to send. -/
def queue (r : Recorder) (frame : Frame) : Recorder := { r with outbox := r.outbox ++ [frame] }

/-- Notes an event. -/
def note (r : Recorder) (event : ConnectionEvent) : Recorder := { r with told := r.told ++ [event] }

instance : Conversation Recorder where
  outbox r := r.outbox
  withOutbox r outbox := { r with outbox }
  onFrame r frame := r.note (.frame frame)
  onFlushed r := r.note .flushed
  onClosed r reason := r.note (.closed reason)
  isTerminal _ := false

end Recorder

end Offload.Scenario
