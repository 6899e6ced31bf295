import Offload.Connection
import Mathlib.Logic.Relation

/-!
# What a connection does to its conversation

Whatever the channel does, a connection acts on its conversation in two ways only: it takes frames
out of the outbox, and it tells the conversation what happened. What both keep, the connection keeps.
-/

namespace Offload

open Relation

variable {κ π : Type} [Channel κ] [Conversation π]

/-- One thing that a connection does to its conversation. -/
inductive Talk : π → π → Prop
  | took (c : π) (frames : List Frame) : Talk c (Conversation.withOutbox c frames)
  | told (c : π) (event : ConnectionEvent) : Talk c (Connection.tell c event)

/-- A property of a conversation that no connection can change. -/
structure KeptByTalk (S : π → Prop) : Prop where
  took : ∀ c, S c → ∀ frames, S (Conversation.withOutbox c frames)
  told : ∀ c, S c → ∀ event, S (Connection.tell c event)

theorem KeptByTalk.talks {S : π → Prop} (h : KeptByTalk S) {c c' : π}
    (htalk : ReflTransGen Talk c c') (hc : S c) : S c' := by
  induction htalk with
  | refl => exact hc
  | tail _ hlast ih =>
    cases hlast with
    | took frames => exact h.took _ ih frames
    | told event => exact h.told _ ih event

namespace Connection

theorem talks_foldl_tell (events : List ConnectionEvent) (c : π) :
    ReflTransGen Talk c (events.foldl tell c) := by
  induction events generalizing c with
  | nil => exact .refl
  | cons event rest ih => exact .head (.told c event) (ih _)

theorem conversation_write (c : Connection κ π) :
    ∃ frames, c.write.conversation = Conversation.withOutbox c.conversation frames := by
  refine ⟨(writeFrames c.channel c.unflushed
    (c.held.toList ++ Conversation.outbox c.conversation)).rest, ?_⟩
  rw [write]
  split <;> rfl

omit [Conversation π] in
theorem conversation_flush (c : Connection κ π) : c.flush.conversation = c.conversation := by
  rw [flush]
  split
  · rfl
  · split <;> rfl

omit [Conversation π] in
theorem conversation_read (c : Connection κ π) : c.read.conversation = c.conversation := by
  rw [read]
  split <;> rfl

/-- Polling a connection takes frames out of the outbox at most. -/
theorem conversation_poll (c : Connection κ π) :
    c.poll.2.conversation = c.conversation ∨
      ∃ frames, c.poll.2.conversation = Conversation.withOutbox c.conversation frames := by
  have hpoll : c.poll.2 = (if c.closed then c else c.write).flush.read := rfl
  rw [hpoll, conversation_read, conversation_flush]
  split
  · exact .inl rfl
  · exact .inr (conversation_write c)

theorem talks_poll (c : Connection κ π) :
    ReflTransGen Talk c.conversation c.poll.2.conversation := by
  rcases conversation_poll c with h | ⟨frames, h⟩
  · rw [h]
  · rw [h]
    exact .single (.took _ frames)

omit [Channel κ] in
theorem talks_dispatch (c : Connection κ π) :
    ReflTransGen Talk c.conversation c.dispatch.conversation :=
  talks_foldl_tell c.events c.conversation

end Connection

end Offload
