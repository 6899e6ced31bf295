import Offload.Proofs.Connection.Translation

/-!
# Records of a connection

A channel can keep a record of the calls that are made on it (`Recorded`), and a conversation of the
frames that are taken from it and of what it is told (`Observed`). A connection does with records what
it does without them (`forget_recorded`), so that the records of a run say what the connection did.
-/

namespace Offload

/-! ## Channels with a record -/

/-- A call on a channel, with its answer. -/
inductive ChannelCall where
  | asked (answer : Readiness)
  | accepted (frame : Frame)
  | refused (frame : Frame) (error : TransportError)
  | flushed (answer : Readiness)
  /-- all that could be read was taken, or as much of it as is listed -/
  | read (items : List Arrival)
  | shut (answer : Readiness)
deriving DecidableEq, Repr

/-- A channel with the calls that were made on it. -/
structure Recorded (κ : Type) where
  channel : κ
  calls : List ChannelCall

namespace Recorded

variable {κ : Type} [Channel κ]

/-- Notes the answer to a question. -/
def note (r : Recorded κ) (call : Readiness → ChannelCall) (answer : Readiness × κ) :
    Readiness × Recorded κ :=
  (answer.1, ⟨answer.2, r.calls ++ [call answer.1]⟩)

/-- Hands a frame over and notes what became of it. -/
def send (r : Recorded κ) (frame : Frame) : Except TransportError Unit × Recorded κ :=
  match Channel.send r.channel frame with
  | (.ok (), channel) => (.ok (), ⟨channel, r.calls ++ [.accepted frame]⟩)
  | (.error e, channel) => (.error e, ⟨channel, r.calls ++ [.refused frame e]⟩)

instance : Channel (Recorded κ) where
  pollReady r := r.note .asked (Channel.pollReady r.channel)
  send
  pollFlush r := r.note .flushed (Channel.pollFlush r.channel)
  pollClose r := r.note .shut (Channel.pollClose r.channel)
  readable r := Channel.readable r.channel
  consume r n :=
    ⟨Channel.consume r.channel n, r.calls ++ [.read ((Channel.readable r.channel).take n)]⟩

/-- The record repeats each answer of the channel. -/
theorem channelMap : ChannelMap (channel : Recorded κ → κ) where
  pollReady r := rfl
  send r frame := by
    show Channel.send r.channel frame = (r.send frame).map id channel
    rw [send]
    rcases Channel.send r.channel frame with ⟨e | u, after⟩ <;> rfl
  pollFlush r := rfl
  pollClose r := rfl
  readable r := rfl
  consume r n := rfl

end Recorded

/-! ## Conversations with a record -/

/-- A conversation with the frames that were taken from it and what it was told. -/
structure Observed (π : Type) where
  conversation : π
  taken : List Frame
  told : List ConnectionEvent

namespace Observed

variable {π : Type} [Conversation π]

/-- The frames in front of those that are left have been taken. -/
def withOutbox (o : Observed π) (frames : List Frame) : Observed π :=
  let outbox := Conversation.outbox o.conversation
  { o with
    conversation := Conversation.withOutbox o.conversation frames
    taken := o.taken ++ outbox.take (outbox.length - frames.length) }

/-- Passes on what is told and notes it. -/
def hear (o : Observed π) (event : ConnectionEvent) : Observed π :=
  { o with conversation := Connection.tell o.conversation event, told := o.told ++ [event] }

instance : Conversation (Observed π) where
  outbox o := Conversation.outbox o.conversation
  withOutbox
  onFrame o frame := o.hear (.frame frame)
  onFlushed o := o.hear .flushed
  onClosed o reason := o.hear (.closed reason)
  isTerminal o := Conversation.isTerminal o.conversation

theorem tell_eq (o : Observed π) (event : ConnectionEvent) :
    Connection.tell o event = o.hear event := by
  cases event <;> rfl

theorem conversationMap : ConversationMap (conversation : Observed π → π) where
  outbox _ := rfl
  withOutbox _ _ := rfl
  tell o event := (congrArg conversation (o.tell_eq event)).symm
  isTerminal _ := rfl

/-- All that a conversation is told is noted in order. -/
theorem foldl_tell (events : List ConnectionEvent) (o : Observed π) :
    events.foldl Connection.tell o = { o with
      conversation := events.foldl Connection.tell o.conversation, told := o.told ++ events } := by
  induction events generalizing o with
  | nil => simp
  | cons event rest ih =>
    rw [List.foldl_cons, tell_eq, ih, List.foldl_cons]
    simp [hear]

end Observed

/-! ## Runs -/

/-- Something that happens to a connection. -/
inductive ConnectionOp (κ π : Type) where
  | polled
  | dispatched
  /-- the world changes the channel, or someone else uses the conversation -/
  | changed (channel : κ → κ) (conversation : π → π)

/-- Changes from outside leave the records alone. -/
def ConnectionOp.onRecords {κ π : Type} :
    ConnectionOp κ π → ConnectionOp (Recorded κ) (Observed π)
  | .polled => .polled
  | .dispatched => .dispatched
  | .changed channel conversation =>
    .changed (fun r => { r with channel := channel r.channel })
      fun o => { o with conversation := conversation o.conversation }

namespace Connection

variable {κ π : Type} [Channel κ] [Conversation π]

/-- The connection after an operation. -/
def perform (c : Connection κ π) : ConnectionOp κ π → Connection κ π
  | .polled => c.poll.2
  | .dispatched => c.dispatch
  | .changed channel conversation =>
    { c with channel := channel c.channel, conversation := conversation c.conversation }

/-- The connection after a sequence of operations. -/
def performAll (c : Connection κ π) (ops : List (ConnectionOp κ π)) : Connection κ π :=
  ops.foldl perform c

theorem performAll_append (c : Connection κ π) (ops ops' : List (ConnectionOp κ π)) :
    c.performAll (ops ++ ops') = (c.performAll ops).performAll ops' :=
  List.foldl_append

/-- A run with records, of a connection on which nothing has happened. -/
def recorded (channel : κ) (conversation : π) (ops : List (ConnectionOp κ π)) :
    Connection (Recorded κ) (Observed π) :=
  (ofChannel (Recorded.mk channel []) (Observed.mk conversation [] [])).performAll
    (ops.map .onRecords)

theorem recorded_append (channel : κ) (conversation : π) (ops more : List (ConnectionOp κ π)) :
    recorded channel conversation (ops ++ more)
      = (recorded channel conversation ops).performAll (more.map .onRecords) := by
  rw [recorded, List.map_append, performAll_append]
  rfl

/-- The calls that a run makes on the channel. -/
def callsOf (channel : κ) (conversation : π) (ops : List (ConnectionOp κ π)) : List ChannelCall :=
  (recorded channel conversation ops).channel.calls

/-- The frames that a run takes from the conversation. -/
def takenOf (channel : κ) (conversation : π) (ops : List (ConnectionOp κ π)) : List Frame :=
  (recorded channel conversation ops).conversation.taken

/-- What a run tells the conversation. -/
def toldOf (channel : κ) (conversation : π) (ops : List (ConnectionOp κ π)) :
    List ConnectionEvent :=
  (recorded channel conversation ops).conversation.told

/-! ## Without the records -/

/-- The connection without its records. -/
def forget (c : Connection (Recorded κ) (Observed π)) : Connection κ π :=
  { c with channel := c.channel.channel, conversation := c.conversation.conversation }

theorem forget_perform (c : Connection (Recorded κ) (Observed π)) (op : ConnectionOp κ π) :
    (c.perform op.onRecords).forget = c.forget.perform op := by
  cases op with
  | polled => exact congrArg Prod.snd (map_poll Recorded.channelMap Observed.conversationMap c).symm
  | dispatched => exact (map_dispatch Observed.conversationMap c).symm
  | changed channel conversation => rfl

/-- A run with records is the run without them. -/
theorem forget_recorded (channel : κ) (conversation : π) (ops : List (ConnectionOp κ π)) :
    (recorded channel conversation ops).forget = (ofChannel channel conversation).performAll ops := by
  have hrun : ∀ c : Connection (Recorded κ) (Observed π),
      (c.performAll (ops.map .onRecords)).forget = c.forget.performAll ops := by
    induction ops with
    | nil => exact fun c => rfl
    | cons op rest ih =>
      intro c
      have hstep := ih (c.perform op.onRecords)
      rw [forget_perform] at hstep
      exact hstep
  exact hrun _

end Connection

end Offload
