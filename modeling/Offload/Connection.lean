import Offload.Frame

/-!
# A conversation over a channel

A connection joins a channel, which moves frames, and a conversation, which decides what they mean.
When it is polled it writes what the conversation has to say and reads all frames that are there;
when it is dispatched it tells the conversation what happened, in order.
-/

namespace Offload

/-! ## Channels -/

/-- What arrives on a channel: a frame, an error, or the end. -/
inductive Arrival where
  | frame (frame : Frame)
  | error (error : TransportError)
  | ended
deriving DecidableEq, Repr

/-- The answer of a channel that may have to be asked again. -/
inductive Readiness where
  | ready
  | pending
  | failed (error : TransportError)
deriving DecidableEq, Repr

/-- Moves frames in both directions. -/
class Channel (κ : Type) where
  /-- whether a frame would be accepted -/
  pollReady : κ → Readiness × κ
  /-- hands a frame over -/
  send : κ → Frame → Except TransportError Unit × κ
  /-- whether all accepted frames have left -/
  pollFlush : κ → Readiness × κ
  /-- ends the channel -/
  pollClose : κ → Readiness × κ
  /-- what can be read now, in order -/
  readable : κ → List Arrival
  /-- takes so many of them -/
  consume : κ → Nat → κ

/-! ## Conversations -/

/-- One side of a conversation. -/
class Conversation (π : Type) where
  /-- the frames that are to be sent, in order -/
  outbox : π → List Frame
  /-- leaves just these to be sent -/
  withOutbox : π → List Frame → π
  onFrame : π → Frame → π
  /-- all frames that were taken have reached the socket -/
  onFlushed : π → π
  /-- no more frames arrive -/
  onClosed : π → String → π
  /-- nothing can change any more -/
  isTerminal : π → Bool

/-- What a conversation is told. -/
inductive ConnectionEvent where
  | frame (frame : Frame)
  | flushed
  | closed (reason : String)
deriving DecidableEq, Repr

/-- A conversation over a channel. -/
structure Connection (κ π : Type) where
  channel : κ
  conversation : π
  /-- what the conversation has not been told yet -/
  events : List ConnectionEvent
  /-- a frame that was taken and has not been accepted -/
  held : Option Frame
  unflushed : Bool
  closed : Bool

namespace Connection

variable {κ π : Type} [Channel κ] [Conversation π]

/-- A connection on which nothing has happened. -/
def ofChannel (channel : κ) (conversation : π) : Connection κ π :=
  ⟨channel, conversation, [], none, false, false⟩

/-- Tells the conversation something. -/
def tell (conversation : π) : ConnectionEvent → π
  | .frame frame => Conversation.onFrame conversation frame
  | .flushed => Conversation.onFlushed conversation
  | .closed reason => Conversation.onClosed conversation reason

/-- Ends a connection that failed. -/
def fail (c : Connection κ π) (error : TransportError) : Connection κ π :=
  { c with closed := true, held := none, events := c.events ++ [.closed error.text] }

/-! ## Writing -/

/-- How the writing of frames went. -/
structure Written (κ : Type) where
  channel : κ
  /-- the frame that was not accepted yet -/
  held : Option Frame
  /-- the frames that were not taken -/
  rest : List Frame
  /-- whether a frame was accepted -/
  accepted : Bool
  failure : Option TransportError

/-- Hands frames to a channel until it refuses one. A frame in hand is lost when the channel
fails. -/
def writeFrames (channel : κ) (accepted : Bool) : List Frame → Written κ
  | [] => ⟨channel, none, [], accepted, none⟩
  | frame :: rest =>
    match Channel.pollReady channel with
    | (.pending, channel) => ⟨channel, some frame, rest, accepted, none⟩
    | (.failed e, channel) => ⟨channel, none, rest, accepted, some e⟩
    | (.ready, channel) =>
      match Channel.send channel frame with
      | (.ok (), channel) => writeFrames channel true rest
      | (.error e, channel) => ⟨channel, none, rest, accepted, some e⟩

/-- Writes the frames of the conversation. -/
def write (c : Connection κ π) : Connection κ π :=
  let w := writeFrames c.channel c.unflushed (c.held.toList ++ Conversation.outbox c.conversation)
  let c := { c with
    channel := w.channel
    conversation := Conversation.withOutbox c.conversation w.rest
    held := w.held
    unflushed := w.accepted }
  match w.failure with
  | some e => c.fail e
  | none => c

/-- Flushes what was accepted. -/
def flush (c : Connection κ π) : Connection κ π :=
  if c.closed || !c.unflushed then c
  else
    match Channel.pollFlush c.channel with
    | (.ready, channel) =>
      { c with
        channel
        unflushed := false
        events := if c.held.isNone then c.events ++ [.flushed] else c.events }
    | (.pending, channel) => { c with channel }
    | (.failed e, channel) => { c with channel }.fail e

/-! ## Reading -/

/-- The reason for a close, in the words of the peer if it gave any. -/
def closeReason (reason : Option String) : String :=
  match reason with
  | some r => if r.isEmpty then "closed by peer" else r
  | none => "closed by peer"

/-- How a reading left the connection. -/
inductive Ending where
  | stillOpen
  | closed
  | failed
deriving DecidableEq, Repr

/-- The events of what arrived, up to the first that ends the connection; how many arrivals that
takes, and how it leaves the connection. -/
def readEvents : List Arrival → List ConnectionEvent × Nat × Ending
  | [] => ([], 0, .stillOpen)
  | .frame (.close reason) :: _ => ([.closed (closeReason reason)], 1, .closed)
  | .error e :: _ => ([.closed e.text], 1, .failed)
  | .ended :: _ => ([.closed TransportError.closed.text], 1, .closed)
  | .frame frame :: rest =>
    let (events, count, ending) := readEvents rest
    (.frame frame :: events, count + 1, ending)

/-- Reads all that is there. -/
def read (c : Connection κ π) : Connection κ π :=
  if c.closed then c
  else
    let (events, count, ending) := readEvents (Channel.readable c.channel)
    { c with
      channel := Channel.consume c.channel count
      events := c.events ++ events
      held := if ending = .failed then none else c.held
      closed := ending ≠ .stillOpen }

/-! ## Driving -/

/-- Writes, flushes and reads. True if the conversation is to be told something. -/
def poll (c : Connection κ π) : Bool × Connection κ π :=
  let c := if c.closed then c else c.write
  let c := c.flush.read
  (!c.events.isEmpty, c)

/-- Tells the conversation what happened. -/
def dispatch (c : Connection κ π) : Connection κ π :=
  { c with events := [], conversation := c.events.foldl tell c.conversation }

/-! ## Closing -/

/-- How closing a connection went. -/
inductive Closing where
  | closed
  | pending
  | failed (error : TransportError)
deriving DecidableEq, Repr

/-- How far the closing of a channel has come. -/
inductive ClosingStage where
  /-- the close frame has not been accepted -/
  | sending (reason : String)
  /-- not all that was accepted has left -/
  | flushing
  /-- the channel has not ended -/
  | shuttingDown
  | ended (failure : Option TransportError)
deriving DecidableEq, Repr

/-- What it comes to for someone who does not wait. -/
def ClosingStage.closing : ClosingStage → Closing
  | ended none => .closed
  | ended (some e) => .failed e
  | _ => .pending

/-- Ends the channel. -/
def shutDown (channel : κ) : ClosingStage × κ :=
  match Channel.pollClose channel with
  | (.ready, channel) => (.ended none, channel)
  | (.pending, channel) => (.shuttingDown, channel)
  | (.failed .closed, channel) => (.ended none, channel)
  | (.failed e, channel) => (.ended (some e), channel)

/-- Flushes and ends the channel. -/
def flushAndShutDown (channel : κ) : ClosingStage × κ :=
  match Channel.pollFlush channel with
  | (.ready, channel) => shutDown channel
  | (.pending, channel) => (.flushing, channel)
  | (.failed e, channel) => (.ended (some e), channel)

/-- Sends a close frame and ends the channel. -/
def sendAndShutDown (reason : String) (channel : κ) : ClosingStage × κ :=
  match Channel.pollReady channel with
  | (.pending, channel) => (.sending reason, channel)
  | (.failed e, channel) => (.ended (some e), channel)
  | (.ready, channel) =>
    match Channel.send channel (.close (some reason)) with
    | (.error e, channel) => (.ended (some e), channel)
    | (.ok (), channel) => flushAndShutDown channel

/-- Goes on with the closing of a channel, as far as that goes without waiting. -/
def goOnClosing : ClosingStage → κ → ClosingStage × κ
  | .sending reason, channel => sendAndShutDown reason channel
  | .flushing, channel => flushAndShutDown channel
  | .shuttingDown, channel => shutDown channel
  | .ended failure, channel => (.ended failure, channel)

/-- Where the closing of a connection begins. -/
def beginClosing (c : Connection κ π) (reason : String) : ClosingStage :=
  if c.closed then .ended none else .sending reason

/-- Closes a connection, as far as that goes without waiting. -/
def close (c : Connection κ π) (reason : String) : Closing × κ :=
  let (stage, channel) := goOnClosing (c.beginClosing reason) c.channel
  (stage.closing, channel)

end Connection

end Offload
