import Offload.Conversation.Scheduler
import Offload.Proofs.Talk

/-!
# The end of the conversation with the scheduler

A conversation with the scheduler has an outcome exactly when it has ended (`Coherent`), and the
first outcome stays (`EndedIn`). Both hold whatever the connection does.
-/

namespace Offload

namespace SchedulerConversation

/-- There is an outcome exactly when the conversation has ended. -/
def Coherent (c : SchedulerConversation) : Prop := c.outcome.isSome = c.isTerminal

/-- The conversation has ended in an outcome. -/
structure EndedIn (outcome : SchedulerOutcome) (c : SchedulerConversation) : Prop where
  outcome : c.outcome = some outcome
  terminal : c.isTerminal = true

@[simp] theorem isTerminal_finish (c : SchedulerConversation) (outcome : SchedulerOutcome) :
    (c.finish outcome).isTerminal = true := by
  cases outcome <;> rfl

@[simp] theorem outcome_finish (c : SchedulerConversation) (outcome : SchedulerOutcome) :
    (c.finish outcome).outcome = some outcome := rfl

theorem coherent_finish (c : SchedulerConversation) (outcome : SchedulerOutcome) :
    (c.finish outcome).Coherent := by
  rw [Coherent, isTerminal_finish, outcome_finish]
  rfl

/-- That what was sent has left does not end a conversation. -/
@[simp] theorem isTerminal_onFlushed (c : SchedulerConversation) :
    c.onFlushed.isTerminal = c.isTerminal := by
  unfold onFlushed
  split
  · rename_i hstate
    simp [isTerminal, hstate]
  · rfl

@[simp] theorem outcome_onFlushed (c : SchedulerConversation) :
    c.onFlushed.outcome = c.outcome := by
  unfold onFlushed
  split <;> rfl

/-- What a conversation is told leaves it as it is once it has ended. -/
theorem tell_of_terminal {c : SchedulerConversation} (h : c.isTerminal = true)
    (event : ConnectionEvent) : Connection.tell c event = c := by
  cases event with
  | frame frame =>
    show c.onFrame frame = c
    rw [onFrame, if_pos h]
  | flushed =>
    show c.onFlushed = c
    have hstate : c.state ≠ .handshakeSent := by
      intro hsent
      simp [isTerminal, hsent] at h
    rw [onFlushed, if_neg hstate]
  | closed reason =>
    show c.onClosed reason = c
    rw [onClosed, if_pos h]

theorem keptByTalk_coherent : KeptByTalk Coherent where
  took c hc frames := hc
  told c hc event := by
    cases event with
    | frame frame =>
      show (c.onFrame frame).Coherent
      unfold onFrame
      split
      · exact hc
      · split <;> exact coherent_finish c _
    | flushed =>
      show c.onFlushed.Coherent
      rw [Coherent, outcome_onFlushed, isTerminal_onFlushed]
      exact hc
    | closed reason =>
      show (c.onClosed reason).Coherent
      unfold onClosed
      split
      · exact hc
      · exact coherent_finish c _

/-- The first outcome stays. -/
theorem keptByTalk_endedIn (outcome : SchedulerOutcome) : KeptByTalk (EndedIn outcome) where
  took c hc frames := ⟨hc.outcome, hc.terminal⟩
  told c hc event := by
    rw [tell_of_terminal hc.terminal]
    exact hc

theorem coherent_onOpen (client : String) : (ofClient client).onOpen.Coherent := rfl

/-- A conversation that has ended has ended in an outcome. -/
theorem Coherent.endedIn {c : SchedulerConversation} (h : c.Coherent) (hend : c.isTerminal = true) :
    ∃ outcome, c.EndedIn outcome := by
  obtain ⟨outcome, houtcome⟩ := Option.isSome_iff_exists.mp (h.trans hend)
  exact ⟨outcome, houtcome, hend⟩

theorem Coherent.outcome_eq_none {c : SchedulerConversation} (h : c.Coherent)
    (hopen : c.isTerminal = false) : c.outcome = none :=
  Option.not_isSome_iff_eq_none.mp (by rw [h, hopen]; decide)

end SchedulerConversation

end Offload
