import Offload.Connection
import Offload.Message.Client
import Offload.Message.Scheduler

/-!
# The conversation with the scheduler

The client announces a job, and the scheduler names a worker or says why not. The first answer
decides; nothing that comes after it counts.
-/

namespace Offload

/-- How the conversation with the scheduler ended. -/
inductive SchedulerOutcome where
  | assigned (worker : Assignment)
  /-- every worker is busy -/
  | noWorker
  | needsEnvironment
  | versionVerified (minVersion : String)
  /-- this client is too old -/
  | versionMismatch (minVersion : String)
  | failed (error : String)
deriving DecidableEq, Repr

/-- Where the conversation with the scheduler stands. -/
inductive SchedulerState where
  | connecting
  | handshakeSent
  | awaitingAssignment
  | done
  | failed
deriving DecidableEq, Repr

/-- The conversation with the scheduler. -/
structure SchedulerConversation where
  client : String
  state : SchedulerState
  outbox : List Frame
  outcome : Option SchedulerOutcome
deriving DecidableEq, Repr

namespace SchedulerConversation

/-- The name as a source of events. -/
def name : String := "scheduler"

/-- A conversation that has not begun, of a client with a name. -/
def ofClient (client : String) : SchedulerConversation := ⟨client, .connecting, [], none⟩

/-- The frame that announces the job. -/
def announcement (client : String) : Frame := .text (Announcement.encode ⟨client⟩)

/-- The connection is open. -/
def onOpen (c : SchedulerConversation) : SchedulerConversation :=
  if c.state = .connecting then
    { c with outbox := c.outbox ++ [announcement c.client], state := .handshakeSent }
  else c

/-- Whether the conversation has ended. -/
def isTerminal (c : SchedulerConversation) : Bool := c.state = .done || c.state = .failed

/-- The state in which an outcome leaves the conversation. -/
def finalState : SchedulerOutcome → SchedulerState
  | .failed _ | .versionMismatch _ => .failed
  | _ => .done

/-- Ends the conversation. -/
def finish (c : SchedulerConversation) (outcome : SchedulerOutcome) : SchedulerConversation :=
  { c with state := finalState outcome, outbox := [], outcome := some outcome }

/-- The outcome that a message means. -/
def outcomeOfMessage : SchedulerMessage → SchedulerOutcome
  | .needsEnvironment => .needsEnvironment
  | .assignment worker => if worker.isUsable then .assigned worker else .noWorker
  | .versionMismatch v => .versionMismatch v
  | .versionVerified v => .versionVerified v

/-- The outcome that a text means. -/
def outcomeOfText (text : String) : SchedulerOutcome :=
  match SchedulerMessage.parse text with
  | .ok message => outcomeOfMessage message
  | .error (.remote report) => .failed ("scheduler error: " ++ report)
  | .error e => .failed ("bad scheduler message: " ++ e.text)

/-- The outcome of a connection that was closed. -/
def outcomeOfClose (reason : String) : SchedulerOutcome :=
  .failed ("scheduler closed the connection: " ++ reason)

/-- The outcome that a frame means. -/
def outcomeOfFrame : Frame → SchedulerOutcome
  | .text text => outcomeOfText text
  | .binary data =>
    .failed ("unexpected binary frame (" ++ toString data.length ++ " bytes) from scheduler")
  | .close reason => outcomeOfClose (reason.getD "")

/-- A frame arrived. -/
def onFrame (c : SchedulerConversation) (frame : Frame) : SchedulerConversation :=
  if c.isTerminal then c
  else if c.state = .connecting then c.finish (.failed "scheduler spoke before the announcement")
  else c.finish (outcomeOfFrame frame)

/-- The announcement has left. -/
def onFlushed (c : SchedulerConversation) : SchedulerConversation :=
  if c.state = .handshakeSent then { c with state := .awaitingAssignment } else c

/-- No more frames arrive. -/
def onClosed (c : SchedulerConversation) (reason : String) : SchedulerConversation :=
  if c.isTerminal then c else c.finish (outcomeOfClose reason)

/-- Takes the next frame to send. -/
def pollOutbound (c : SchedulerConversation) : Option Frame × SchedulerConversation :=
  (c.outbox.head?, { c with outbox := c.outbox.tail })

/-- Takes the outcome. -/
def takeOutcome (c : SchedulerConversation) : Option SchedulerOutcome × SchedulerConversation :=
  (c.outcome, { c with outcome := none })

/-- The worker, if one was assigned. -/
def assignment? (c : SchedulerConversation) : Option Assignment :=
  match c.outcome with
  | some (.assigned worker) => some worker
  | _ => none

/-- Whether no worker has an environment like ours. -/
def needsEnvironment (c : SchedulerConversation) : Bool := c.outcome == some .needsEnvironment

/-- The error, if the conversation failed. -/
def error? (c : SchedulerConversation) : Option String :=
  match c.outcome with
  | some (.failed e) => some e
  | _ => none

instance : Conversation SchedulerConversation where
  outbox c := c.outbox
  withOutbox c outbox := { c with outbox }
  onFrame
  onFlushed
  onClosed
  isTerminal

end SchedulerConversation

end Offload
