import Offload.Connection

/-!
# Translations of a connection

A translation of channels commutes with the calls on a channel, one of conversations with all that a
conversation is told. A connection only makes these calls: what it does to the translated connection
is the translation of what it does.
-/

namespace Offload

variable {κ κ' π π' : Type}

/-- A translation of channels. Calls on the translated channel have the same answers. -/
structure ChannelMap [Channel κ] [Channel κ'] (f : κ → κ') : Prop where
  pollReady : ∀ c, Channel.pollReady (f c) = (Channel.pollReady c).map id f
  send : ∀ c frame, Channel.send (f c) frame = (Channel.send c frame).map id f
  pollFlush : ∀ c, Channel.pollFlush (f c) = (Channel.pollFlush c).map id f
  pollClose : ∀ c, Channel.pollClose (f c) = (Channel.pollClose c).map id f
  readable : ∀ c, Channel.readable (f c) = Channel.readable c
  consume : ∀ c n, Channel.consume (f c) n = f (Channel.consume c n)

/-- A translation of conversations. The translated conversation has the same frames to send. -/
structure ConversationMap [Conversation π] [Conversation π'] (g : π → π') : Prop where
  outbox : ∀ c, Conversation.outbox (g c) = Conversation.outbox c
  withOutbox : ∀ c frames, Conversation.withOutbox (g c) frames = g (Conversation.withOutbox c frames)
  tell : ∀ c event, Connection.tell (g c) event = g (Connection.tell c event)
  isTerminal : ∀ c : π, Conversation.isTerminal (g c) = Conversation.isTerminal c

theorem conversationMap_id [Conversation π] : ConversationMap (id : π → π) :=
  ⟨fun _ => rfl, fun _ _ => rfl, fun _ _ => rfl, fun _ => rfl⟩

namespace Connection

/-- The connection with its channel and its conversation translated. -/
def map (f : κ → κ') (g : π → π') (c : Connection κ π) : Connection κ' π' :=
  { c with channel := f c.channel, conversation := g c.conversation }

/-- How the writing of frames went, on the translated channel. -/
def Written.map (f : κ → κ') (w : Written κ) : Written κ' := { w with channel := f w.channel }

variable [Channel κ] [Channel κ'] [Conversation π] [Conversation π'] {f : κ → κ'} {g : π → π'}

/-! ## Driving -/

theorem map_writeFrames (hf : ChannelMap f) (frames : List Frame) (channel : κ) (accepted : Bool) :
    writeFrames (f channel) accepted frames = (writeFrames channel accepted frames).map f := by
  induction frames generalizing channel accepted with
  | nil => rfl
  | cons frame rest ih =>
    rw [writeFrames, writeFrames, hf.pollReady]
    rcases Channel.pollReady channel with ⟨_ | _ | e, after⟩
    · simp only [Prod.map, id, hf.send]
      rcases Channel.send after frame with ⟨e | u, last⟩
      · rfl
      · exact ih last true
    · rfl
    · rfl

theorem map_write (hf : ChannelMap f) (hg : ConversationMap g) (c : Connection κ π) :
    (c.map f g).write = c.write.map f g := by
  have hwritten : writeFrames (c.map f g).channel (c.map f g).unflushed
      ((c.map f g).held.toList ++ Conversation.outbox (c.map f g).conversation)
      = (writeFrames c.channel c.unflushed
          (c.held.toList ++ Conversation.outbox c.conversation)).map f := by
    rw [← map_writeFrames hf]
    exact congrArg (fun frames => writeFrames (f c.channel) c.unflushed (c.held.toList ++ frames))
      (hg.outbox c.conversation)
  rw [write, write, hwritten]
  generalize writeFrames c.channel c.unflushed (c.held.toList ++ Conversation.outbox c.conversation)
    = w
  obtain ⟨channel, held, rest, accepted, _ | e⟩ := w <;>
    simp [Written.map, map, fail, hg.withOutbox]

omit [Conversation π] [Conversation π'] in
theorem map_flush (hf : ChannelMap f) (c : Connection κ π) :
    (c.map f g).flush = c.flush.map f g := by
  have hask : Channel.pollFlush (c.map f g).channel = (Channel.pollFlush c.channel).map id f :=
    hf.pollFlush c.channel
  rw [flush, flush, hask]
  show (if c.closed || !c.unflushed then c.map f g else _) = _
  split
  · rfl
  · rcases Channel.pollFlush c.channel with ⟨_ | _ | e, channel⟩ <;> rfl

omit [Conversation π] [Conversation π'] in
theorem map_read (hf : ChannelMap f) (c : Connection κ π) : (c.map f g).read = c.read.map f g := by
  have hreadable : Channel.readable (c.map f g).channel = Channel.readable c.channel :=
    hf.readable c.channel
  rw [read, read, hreadable]
  show (if c.closed then c.map f g else _) = _
  split
  · rfl
  · simp [map, hf.consume]

theorem map_poll (hf : ChannelMap f) (hg : ConversationMap g) (c : Connection κ π) :
    (c.map f g).poll = (c.poll.1, c.poll.2.map f g) := by
  have hpoll : (if (c.map f g).closed then c.map f g else (c.map f g).write).flush.read
      = ((if c.closed then c else c.write).flush.read).map f g := by
    rw [← map_read hf, ← map_flush hf, apply_ite (map f g), ← map_write hf hg]
    rfl
  rw [poll, poll, hpoll]
  rfl

omit [Channel κ] [Channel κ'] in
theorem map_dispatch (hg : ConversationMap g) (c : Connection κ π) :
    (c.map f g).dispatch = c.dispatch.map f g := by
  have htold (events : List ConnectionEvent) (conversation : π) :
      events.foldl tell (g conversation) = g (events.foldl tell conversation) := by
    induction events generalizing conversation with
    | nil => rfl
    | cons event rest ih => rw [List.foldl_cons, hg.tell, ih, List.foldl_cons]
  rw [dispatch, dispatch, map, map]
  dsimp only
  rw [htold]

/-! ## Closing -/

omit [Conversation π] [Conversation π'] in
theorem map_goOnClosing (hf : ChannelMap f) (stage : ClosingStage) (channel : κ) :
    goOnClosing stage (f channel) = (goOnClosing stage channel).map id f := by
  have hshut (channel : κ) : shutDown (f channel) = (shutDown channel).map id f := by
    rw [shutDown, shutDown, hf.pollClose]
    rcases Channel.pollClose channel with ⟨_ | _ | _ | _, after⟩ <;> rfl
  have hflush (channel : κ) : flushAndShutDown (f channel) = (flushAndShutDown channel).map id f := by
    rw [flushAndShutDown, flushAndShutDown, hf.pollFlush]
    rcases Channel.pollFlush channel with ⟨_ | _ | _, after⟩
    · exact hshut after
    · rfl
    · rfl
  cases stage with
  | sending reason =>
    show sendAndShutDown reason (f channel) = (sendAndShutDown reason channel).map id f
    rw [sendAndShutDown, sendAndShutDown, hf.pollReady]
    rcases Channel.pollReady channel with ⟨_ | _ | _, after⟩
    · simp only [Prod.map, id, hf.send]
      rcases Channel.send after (.close (some reason)) with ⟨e | u, last⟩
      · rfl
      · exact hflush last
    · rfl
    · rfl
  | flushing => exact hflush channel
  | shuttingDown => exact hshut channel
  | ended failure => rfl

end Connection

end Offload
