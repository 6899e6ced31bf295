import Offload.Proofs.Worker.Run

/-!
# What always holds of a conversation with a worker

A frame is ignored, lets the upload begin, carries a part of the result, or ends the conversation with
an error (`Reaction`). From this and from `Sound` follows what holds in every state that a conversation
can come to (`always_sound`): its records fit its state, every error is one of those that a worker or
the connection can be blamed for (`Complaint`), and an end is final.
-/

namespace Offload

namespace WorkerConversation

/-! ## Errors -/

/-- The errors with which a conversation ends: what arrived was wrong, or nothing arrives any more. -/
inductive Complaint : String → Prop
  | spokeEarly : Complaint "worker spoke before the handshake completed"
  | unexpectedResume (state : WorkerState) : Complaint ("unexpected resume while " ++ state.name)
  | unexpectedResponse (state : WorkerState) : Complaint ("unexpected response while " ++ state.name)
  | unexpectedBytes (count : Nat) (state : WorkerState) :
    Complaint ("unexpected binary frame (" ++ toString count ++ " bytes) while " ++ state.name)
  | overflow : Complaint "worker response index overflows"
  | tooLarge (total : Nat) : Complaint ("worker announced " ++ toString total ++ " bytes of output")
  | tooMany (total expected : Nat) :
    Complaint ("worker sent " ++ toString total ++ " bytes, expected " ++ toString expected)
  | reported (report : String) : Complaint ("worker error: " ++ report)
  | unreadable (what : String) : Complaint ("bad worker message: " ++ what)
  | closed (reason : String) : Complaint ("worker closed the connection: " ++ reason)

theorem append_ne_of_not_prefix {start text : String} (h : ¬ start.toList <+: text.toList)
    (rest : String) : start ++ rest ≠ text := by
  rintro rfl
  apply h
  rw [String.toList_append]
  exact List.prefix_append _ _

/-- That a result does not match its index is no complaint. -/
theorem Complaint.ne_unmatched {error : String} (h : Complaint error) :
    error ≠ "worker output does not match its index" := by
  cases h with
  | spokeEarly => decide
  | unexpectedResume state => exact append_ne_of_not_prefix (by decide) _
  | unexpectedResponse state => exact append_ne_of_not_prefix (by decide) _
  | unexpectedBytes count state =>
    rw [String.append_assoc, String.append_assoc]
    exact append_ne_of_not_prefix (by decide) _
  | overflow => decide
  | tooLarge total =>
    rw [String.append_assoc]
    exact append_ne_of_not_prefix (by decide) _
  | tooMany total expected =>
    rw [String.append_assoc, String.append_assoc]
    exact append_ne_of_not_prefix (by decide) _
  | reported report => exact append_ne_of_not_prefix (by decide) _
  | unreadable what => exact append_ne_of_not_prefix (by decide) _
  | closed reason => exact append_ne_of_not_prefix (by decide) _

/-! ## Frames -/

/-- What a frame makes of a conversation. -/
inductive Reaction (c : WorkerConversation) : Frame → WorkerConversation → Prop
  | ignored (frame : Frame) (h : c.isTerminal = true) : Reaction c frame c
  | resumed (text : String) (hstate : c.state = .awaitingWaitAck)
    (hparse : WorkerMessage.parse text = .ok .resume) :
    Reaction c (.text text) { c with state := .connected }
  /-- the header of the result -/
  | answered (text : String) (header : JobResponse) (total : Nat)
    (hstate : c.state = .uploading ∨ c.state = .awaitingResult) (hnone : c.response = none)
    (hparse : WorkerMessage.parse text = .ok (.response header))
    (htotal : header.totalBytes? = some total) (hlimit : total ≤ maxResultBytes) :
    Reaction c (.text text) { c with
      state := .awaitingResult, outbox := [], response := some header, expected := total
      }.completeIfWhole
  /-- bytes of the result -/
  | collected (data : Bytes) (header : JobResponse) (hbuffering : Buffering header c)
    (hroom : c.received.length + data.length ≤ c.expected) :
    Reaction c (.binary data) { c with received := c.received ++ data }.completeIfWhole
  | failed (frame : Frame) (error : String) (hopen : c.isTerminal = false)
    (herror : Complaint error) : Reaction c frame (c.fail error)

variable {c : WorkerConversation}

theorem reaction_onMessage (hopen : c.isTerminal = false) {text : String} {m : WorkerMessage}
    (hparse : WorkerMessage.parse text = .ok m) : Reaction c (.text text) (c.onMessage m) := by
  cases m with
  | resume =>
    unfold onMessage
    dsimp only
    split
    · rename_i hstate
      exact .resumed text hstate hparse
    · exact .failed _ _ hopen (.unexpectedResume _)
  | response header =>
    unfold onMessage
    dsimp only
    split
    · rename_i hawaited
      unfold onResponse
      split
      · exact .failed _ _ hopen .overflow
      · rename_i total htotal
        split
        · exact .failed _ _ hopen (.tooLarge total)
        · exact .answered text header total hawaited.1 hawaited.2 hparse htotal (by omega)
    · exact .failed _ _ hopen (.unexpectedResponse _)

theorem reaction_onBinary (h : Sound c) (hopen : c.isTerminal = false) (data : Bytes) :
    Reaction c (.binary data) (c.onBinary data) := by
  unfold onBinary
  split
  · exact .failed _ _ hopen (.unexpectedBytes _ _)
  · rename_i hresponse
    obtain ⟨header, hheader⟩ := Option.ne_none_iff_exists'.mp hresponse
    dsimp only
    split
    · exact .failed _ _ hopen (.tooMany _ _)
    · -- a response is stored, so that its bytes are waited for
      have hstate : c.state = .awaitingResult := by
        obtain ⟨-, -, hstate⟩ := h.response header hheader
        rcases hstate with hstate | hstate | hstate
        · exact hstate
        · simp [isTerminal, hstate] at hopen
        · simp [isTerminal, hstate] at hopen
      exact .collected data header (h.buffering hstate hheader) (by omega)

/-- Whatever a frame does to a conversation is one of its reactions. -/
theorem reaction_onFrame (h : Sound c) (frame : Frame) : Reaction c frame (c.onFrame frame) := by
  unfold onFrame
  split
  · rename_i hterminal
    exact .ignored frame hterminal
  · rename_i hterminal
    have hopen : c.isTerminal = false := by simpa using hterminal
    split
    · exact .failed _ _ hopen .spokeEarly
    · cases frame with
      | text text =>
        show Reaction c (.text text) (c.onText text)
        unfold onText
        split
        · rename_i m hparse
          exact reaction_onMessage hopen hparse
        · exact .failed _ _ hopen (.reported _)
        · exact .failed _ _ hopen (.unreadable _)
      | binary data => exact reaction_onBinary h hopen data
      | close reason =>
        show Reaction c (.close reason) (c.onClosed (reason.getD ""))
        rw [onClosed, if_neg hterminal]
        exact .failed _ _ hopen (.closed _)

/-- When bytes are collected, the conversation goes on or is done with the result of these bytes. -/
theorem Buffering.completeIfWhole_cases {header : JobResponse} (h : Buffering header c) :
    c.completeIfWhole = c ∨ c.completeIfWhole = { c with
      received := [], result := some (resultOf header c.received), state := .done } := by
  rcases Nat.lt_or_eq_of_le h.received with hlt | heq
  · exact .inl (completeIfWhole_of_lt h hlt)
  · exact .inr (completeIfWhole_of_eq h heq)

theorem Buffering.error_completeIfWhole {header : JobResponse} (h : Buffering header c) :
    c.completeIfWhole.error = none := by
  rcases h.completeIfWhole_cases with hsame | hdone
  · rw [hsame]
    exact h.error
  · rw [hdone]
    exact h.error

/-! ## What every operation keeps -/

/-- The error that is recorded, if there is one, is a complaint. -/
def Complains (c : WorkerConversation) : Prop := ∀ error, c.error = some error → Complaint error

theorem Complains.perform (hc : Complains c) (h : Sound c) (op : WorkerOp) :
    Complains (c.perform op) := by
  cases op with
  | opened wait =>
    show Complains (c.onOpen wait)
    unfold onOpen
    split <;> exact hc
  | upload job payload =>
    show Complains ((c.beginUpload job payload).toOption.getD c)
    cases hafter : c.beginUpload job payload with
    | error cause => exact hc
    | ok after =>
      obtain ⟨-, rfl⟩ := beginUpload_ok hafter
      exact hc
  | polled => exact hc
  | frame frame =>
    have hreaction := reaction_onFrame h frame
    change Complains (c.onFrame frame)
    generalize c.onFrame frame = after at hreaction
    intro error herror
    cases hreaction with
    | ignored => exact hc error herror
    | resumed => exact hc error herror
    | answered text header total hstate hnone hparse htotal hlimit =>
      have hbegun := h.buffering_onResponse hstate hnone htotal hlimit
      rw [hbegun.error_completeIfWhole] at herror
      simp at herror
    | collected data header hbuffering hroom =>
      rw [(hbuffering.append hroom).error_completeIfWhole] at herror
      simp at herror
    | failed frame complaint hopen hcomplaint =>
      obtain rfl := Option.some.inj herror
      exact hcomplaint
  | flushed =>
    show Complains c.onFlushed
    unfold onFlushed
    split <;> exact hc
  | closed reason =>
    show Complains (c.onClosed reason)
    unfold onClosed
    split
    · exact hc
    · intro error herror
      obtain rfl := Option.some.inj herror
      exact .closed reason
  | taken => exact hc

theorem Complains.performAll (hc : Complains c) (h : Sound c) (ops : List WorkerOp) :
    Complains (c.performAll ops) := by
  induction ops generalizing c with
  | nil => exact hc
  | cons op rest ih => exact ih (hc.perform h op) (h.perform op)

/-! ## The end -/

/-- Once it has ended, a conversation changes only in that its result is taken. -/
theorem perform_of_terminal (h : Sound c) (hend : c.isTerminal = true) (op : WorkerOp) :
    c.perform op = if op = .taken then { c with result := none } else c := by
  have hstate : c.state = .done ∨ c.state = .failed := by simpa [isTerminal] using hend
  cases op with
  | opened wait => exact if_neg (by rcases hstate with h | h <;> simp [h])
  | upload job payload =>
    have hrefused : c.beginUpload job payload = .error (.notReady c.state) :=
      if_pos (by rcases hstate with h | h <;> simp [h])
    show (c.beginUpload job payload).toOption.getD c = c
    rw [hrefused]
    rfl
  | polled =>
    have hnil : c.outbox = [] :=
      h.outbox_eq_nil (by rcases hstate with h | h <;> simp [h])
    show { c with outbox := c.outbox.tail } = c
    rw [hnil, List.tail_nil, ← hnil]
  | frame frame => exact if_pos hend
  | flushed => exact if_neg (by rcases hstate with h | h <;> simp [h])
  | closed reason => exact if_pos hend
  | taken => rfl

theorem performAll_of_terminal (h : Sound c) (hend : c.isTerminal = true) (ops : List WorkerOp) :
    c.performAll ops = if .taken ∈ ops then { c with result := none } else c := by
  induction ops generalizing c with
  | nil => simp
  | cons op rest ih =>
    have hafter := perform_of_terminal h hend op
    have hsound := h.perform op
    rw [performAll_cons]
    by_cases htaken : op = .taken
    · have hmem : WorkerOp.taken ∈ op :: rest := by simp [htaken]
      rw [if_pos htaken] at hafter
      rw [hafter] at hsound ⊢
      rw [ih hsound hend, if_pos hmem]
      split <;> rfl
    · rw [if_neg htaken] at hafter
      rw [hafter, ih h hend]
      simp [Ne.symm htaken]

/-! ## Every state -/

/-- In every state that a conversation can come to, what is recorded fits the state: an error in the
failed state and there only, a result only when it is done, frames to be sent only while uploading,
and a response that adds up to the bytes that are expected, of which some are missing as long as they
are waited for. So the bytes always match the index. Once it has ended nothing changes, except that
the result can be taken. -/
theorem always_sound (ops : List WorkerOp) :
    let c := fresh.performAll ops
    (c.error.isSome = true ↔ c.state = .failed) ∧
      (c.result.isSome = true → c.state = .done) ∧
      (c.outbox ≠ [] → c.state = .uploading) ∧
      (∀ header, c.response = some header →
        OutputChunk.totalBytes header.index = c.expected ∧ c.expected ≤ 1073741824 ∧
          (c.state = .awaitingResult ∨ c.state = .done ∨ c.state = .failed)) ∧
      c.received.length ≤ c.expected ∧
      (c.response.isSome = true → c.state = .awaitingResult → c.received.length < c.expected) ∧
      c.error ≠ some "worker output does not match its index" ∧
      (c.state = .done ∨ c.state = .failed → ∀ more,
        (c.performAll more).state = c.state ∧ (c.performAll more).error = c.error ∧
          (c.performAll more).outbox = c.outbox ∧
          (c.performAll more).result = if .taken ∈ more then none else c.result) := by
  intro c
  have hsound : Sound c := sound_fresh.performAll ops
  have hcomplains : Complains c :=
    Complains.performAll (by simp [Complains, fresh]) sound_fresh ops
  refine ⟨hsound.error, hsound.result, hsound.outbox, ?_, hsound.received, hsound.missing, ?_, ?_⟩
  · intro header hheader
    obtain ⟨htotal, hlimit, hstate⟩ := hsound.response header hheader
    exact ⟨totalBytes_of_totalBytes? htotal, hlimit, hstate⟩
  · intro hunmatched
    exact (hcomplains _ hunmatched).ne_unmatched rfl
  · intro hend more
    have hterminal : c.isTerminal = true := by simpa [isTerminal] using hend
    rw [performAll_of_terminal hsound hterminal more]
    split <;> exact ⟨rfl, rfl, rfl, rfl⟩

/-- A conversation that was closed stays failed, whatever else is tried. -/
theorem always_sound_closed :
    let c := fresh.performAll [.opened true, .closed "bye"]
    let later := c.performAll [.upload ⟨[], "cc", true, 0⟩ [], .frame (.binary [1]), .taken]
    c.state = .failed ∧ later.state = .failed ∧
      later.error = some "worker closed the connection: bye" := by
  intro c later
  have h := (always_sound [.opened true, .closed "bye"]).2.2.2.2.2.2.2 (.inr rfl)
    [.upload ⟨[], "cc", true, 0⟩ [], .frame (.binary [1]), .taken]
  exact ⟨rfl, h.1, h.2.1⟩

end WorkerConversation

end Offload
