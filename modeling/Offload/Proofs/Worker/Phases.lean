import Offload.Conversation.Worker
import Offload.Proofs.Talk

/-!
# A worker before and after the upload

No connection can bring a conversation with a worker further than the upload before there is one
(`WorkerConversation.Unsent`), nor end it well without a result (`WorkerConversation.Answered`).
-/

namespace Offload

namespace WorkerConversation

variable {c : WorkerConversation}

/-- No connection changes what a failure, a message, bytes and a flush each keep. -/
theorem keptByTalk_of {S : WorkerConversation → Prop}
    (htook : ∀ c frames, S c → S { c with outbox := frames })
    (hfail : ∀ c error, S c → S (c.fail error))
    (hmessage : ∀ c message, S c → S (c.onMessage message))
    (hbinary : ∀ c data, S c → S (c.onBinary data)) (hflushed : ∀ c, S c → S c.onFlushed) :
    KeptByTalk S where
  took c hc frames := htook c frames hc
  told c hc event := by
    have hclosed (reason : String) : S (c.onClosed reason) := by
      unfold onClosed
      split
      · exact hc
      · exact hfail c _ hc
    cases event with
    | frame frame =>
      show S (c.onFrame frame)
      unfold onFrame
      split
      · exact hc
      · split
        · exact hfail c _ hc
        · cases frame with
          | text text =>
            show S (c.onText text)
            unfold onText
            split
            · exact hmessage c _ hc
            · exact hfail c _ hc
            · exact hfail c _ hc
          | binary data => exact hbinary c data hc
          | close reason => exact hclosed _
    | flushed => exact hflushed c hc
    | closed reason => exact hclosed reason

/-- Nothing was uploaded yet. The worker may hold the upload back only if it `waits`. -/
structure Unsent (waits : Prop) (c : WorkerConversation) : Prop where
  response : c.response = none
  state : waits ∧ c.state = .awaitingWaitAck ∨ c.state = .connected ∨ c.state = .failed

theorem unsent_onOpen (wait : Bool) : Unsent True (fresh.onOpen wait) where
  response := by cases wait <;> rfl
  state := by cases wait <;> simp [fresh, onOpen]

/-- Before the upload, what the worker says lets the upload begin or ends the conversation. -/
theorem keptByTalk_unsent (waits : Prop) : KeptByTalk (Unsent waits) := by
  have hfail (c : WorkerConversation) (error : String) (hc : Unsent waits c) :
      Unsent waits (c.fail error) := ⟨hc.response, .inr (.inr rfl)⟩
  refine keptByTalk_of (fun c frames hc => ⟨hc.response, hc.state⟩) hfail ?_ ?_ ?_
  · intro c message hc
    cases message with
    | resume =>
      unfold onMessage
      dsimp only
      split
      · exact ⟨hc.response, .inr (.inl rfl)⟩
      · exact hfail c _ hc
    | response header =>
      -- only an upload is answered
      have hidle : ¬ ((c.state = .uploading ∨ c.state = .awaitingResult) ∧ c.response = none) := by
        intro hawaited
        rcases hc.state with ⟨-, hstate⟩ | hstate | hstate <;> simp [hstate] at hawaited
      unfold onMessage
      dsimp only
      rw [if_neg hidle]
      exact hfail c _ hc
  · intro c data hc
    unfold onBinary
    rw [if_pos hc.response]
    exact hfail c _ hc
  · intro c hc
    have hidle : ¬ (c.state = .uploading ∧ c.outbox = []) := by
      intro hflushed
      rcases hc.state with ⟨-, hstate⟩ | hstate | hstate <;> simp [hstate] at hflushed
    unfold onFlushed
    rw [if_neg hidle]
    exact hc

/-- A connected worker takes a job that announces its payload. -/
theorem beginUpload_of_connected (hstate : c.state = .connected) {job : JobEnvelope}
    {payload : Bytes} (hsize : job.bytes.toNat = payload.length) :
    ∃ begun, c.beginUpload job payload = .ok begun ∧ begun.state = .uploading := by
  unfold beginUpload
  rw [if_neg (not_not_intro hstate), if_neg (not_not_intro hsize)]
  exact ⟨_, rfl, rfl⟩

/-- A conversation that is done has a result. -/
def Answered (c : WorkerConversation) : Prop := c.state = .done → c.result.isSome = true

theorem answered_of_ne (h : c.state ≠ .done) : Answered c := fun hdone => absurd hdone h

theorem answered_completeIfWhole (h : Answered c) : Answered c.completeIfWhole := by
  unfold completeIfWhole
  split
  · exact h
  · split
    · exact h
    · split
      · exact answered_of_ne (by simp [fail])
      · exact fun _ => rfl

theorem keptByTalk_answered : KeptByTalk Answered := by
  have hfail (c : WorkerConversation) (error : String) : Answered (c.fail error) :=
    answered_of_ne (by simp [fail])
  refine keptByTalk_of (fun c frames hc => hc) (fun c error _ => hfail c error) ?_ ?_ ?_
  · intro c message hc
    cases message with
    | resume =>
      unfold onMessage
      dsimp only
      split
      · exact answered_of_ne (by simp)
      · exact hfail c _
    | response header =>
      unfold onMessage
      dsimp only
      split
      · unfold onResponse
        split
        · exact hfail c _
        · split
          · exact hfail c _
          · exact answered_completeIfWhole (answered_of_ne (by simp))
      · exact hfail c _
  · intro c data hc
    unfold onBinary
    dsimp only
    split
    · exact hfail c _
    · split
      · exact hfail c _
      · exact answered_completeIfWhole hc
  · intro c hc
    unfold onFlushed
    split
    · exact answered_of_ne (by simp)
    · exact hc

end WorkerConversation

end Offload
