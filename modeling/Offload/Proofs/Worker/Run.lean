import Offload.Conversation.Worker
import Mathlib.Data.List.Basic

/-!
# Runs of the conversation with a worker

Whatever is done to a conversation with a worker, in whatever order, it stays `Sound`: what it has
recorded fits the state that it is in. In particular it buffers no more than the response announced,
so that a result can always be put together (`assemble?_of_le`).
-/

namespace Offload

/-! ## Runs -/

/-- Something that is done to a conversation with a worker. -/
inductive WorkerOp where
  | opened (wait : Bool)
  | upload (job : JobEnvelope) (payload : Bytes)
  | polled
  | frame (frame : Frame)
  | flushed
  | closed (reason : String)
  | taken
deriving DecidableEq, Repr

namespace WorkerConversation

/-- The conversation after an operation. An upload that is refused changes nothing. -/
def perform (c : WorkerConversation) : WorkerOp → WorkerConversation
  | .opened wait => c.onOpen wait
  | .upload job payload => (c.beginUpload job payload).toOption.getD c
  | .polled => c.pollOutbound.2
  | .frame frame => c.onFrame frame
  | .flushed => c.onFlushed
  | .closed reason => c.onClosed reason
  | .taken => c.takeResult.2

/-- The conversation after a sequence of operations. -/
def performAll (c : WorkerConversation) (ops : List WorkerOp) : WorkerConversation :=
  ops.foldl perform c

@[simp] theorem performAll_nil (c : WorkerConversation) : c.performAll [] = c := rfl

@[simp] theorem performAll_cons (c : WorkerConversation) (op : WorkerOp) (ops : List WorkerOp) :
    c.performAll (op :: ops) = (c.perform op).performAll ops := rfl

theorem performAll_append (c : WorkerConversation) (ops ops' : List WorkerOp) :
    c.performAll (ops ++ ops') = (c.performAll ops).performAll ops' :=
  List.foldl_append

/-! ## Results -/

/-- The pieces of a payload, by the index. -/
def pieces : List OutputChunk → Bytes → List (OutputChunk × Bytes)
  | [], _ => []
  | chunk :: rest, payload =>
    (chunk, payload.take chunk.bytes.toNat) :: pieces rest (payload.drop chunk.bytes.toNat)

/-- The bytes of the pieces of a kind. -/
def bytesOfKind (kind : OutputKind) (pieces : List (OutputChunk × Bytes)) : Bytes :=
  (pieces.filter fun piece => piece.1.kind = kind).flatMap fun piece => piece.2

/-- The files among pieces. -/
def filesOf (pieces : List (OutputChunk × Bytes)) : List OutputFile :=
  (pieces.filter fun piece => piece.1.kind = .file).map fun piece => ⟨piece.1.path, piece.2⟩

/-- The result that the pieces of a payload make, in the order of the index. -/
def resultOf (header : JobResponse) (payload : Bytes) : JobResult where
  success := header.success
  exitCode := header.exitCode
  stdout := bytesOfKind .stdout (pieces header.index payload)
  stderr := bytesOfKind .stderr (pieces header.index payload)
  files := filesOf (pieces header.index payload)

/-- A payload that is long enough is distributed over its pieces. -/
theorem addChunks_of_le (index : List OutputChunk) (r : JobResult) (payload : Bytes)
    (h : OutputChunk.totalBytes index ≤ payload.length) :
    r.addChunks index payload = some { r with
      stdout := r.stdout ++ bytesOfKind .stdout (pieces index payload)
      stderr := r.stderr ++ bytesOfKind .stderr (pieces index payload)
      files := r.files ++ filesOf (pieces index payload) } := by
  induction index generalizing r payload with
  | nil => simp [JobResult.addChunks, pieces, bytesOfKind, filesOf]
  | cons chunk rest ih =>
    rw [OutputChunk.totalBytes] at h
    have hshort : ¬ payload.length < chunk.bytes.toNat := by omega
    have hrest : OutputChunk.totalBytes rest ≤ (payload.drop chunk.bytes.toNat).length := by
      rw [List.length_drop]
      omega
    rw [JobResult.addChunks, if_neg hshort, ih _ _ hrest]
    unfold JobResult.addChunk
    cases hkind : chunk.kind <;> simp [pieces, bytesOfKind, filesOf, hkind]

theorem assemble?_of_le (header : JobResponse) (payload : Bytes)
    (h : OutputChunk.totalBytes header.index ≤ payload.length) :
    JobResult.assemble? header payload = some (resultOf header payload) := by
  rw [JobResult.assemble?, addChunks_of_le _ _ _ h]
  simp [resultOf]

/-- Every piece has the length that the index gives it. -/
theorem length_of_mem_pieces (index : List OutputChunk) (payload : Bytes)
    (h : OutputChunk.totalBytes index ≤ payload.length) (piece : OutputChunk × Bytes)
    (hpiece : piece ∈ pieces index payload) : piece.2.length = piece.1.bytes.toNat := by
  induction index generalizing payload with
  | nil => simp [pieces] at hpiece
  | cons chunk rest ih =>
    rw [OutputChunk.totalBytes] at h
    rw [pieces, List.mem_cons] at hpiece
    rcases hpiece with rfl | hpiece
    · show (payload.take chunk.bytes.toNat).length = chunk.bytes.toNat
      rw [List.length_take]
      omega
    · refine ih _ ?_ hpiece
      rw [List.length_drop]
      omega

/-- The pieces in the order of the index are the payload. -/
theorem flatMap_pieces (index : List OutputChunk) (payload : Bytes)
    (h : OutputChunk.totalBytes index = payload.length) :
    (pieces index payload).flatMap (fun piece => piece.2) = payload := by
  induction index generalizing payload with
  | nil =>
    have hnil : payload = [] := List.eq_nil_of_length_eq_zero h.symm
    rw [hnil]
    rfl
  | cons chunk rest ih =>
    rw [OutputChunk.totalBytes] at h
    rw [pieces, List.flatMap_cons, ih]
    · exact List.take_append_drop _ _
    · rw [List.length_drop]
      omega

theorem map_fst_pieces (index : List OutputChunk) (payload : Bytes) :
    (pieces index payload).map (fun piece => piece.1) = index := by
  induction index generalizing payload with
  | nil => rfl
  | cons chunk rest ih => rw [pieces, List.map_cons, ih]

/-! ## What a run keeps -/

/-- What a conversation has recorded fits its state. -/
structure Sound (c : WorkerConversation) : Prop where
  error : c.error.isSome = true ↔ c.state = .failed
  result : c.result.isSome = true → c.state = .done
  outbox : c.outbox ≠ [] → c.state = .uploading
  /-- a response is stored while its bytes are waited for, and from then on -/
  response : ∀ header, c.response = some header → header.totalBytes? = some c.expected ∧
    c.expected ≤ maxResultBytes ∧ (c.state = .awaitingResult ∨ c.state = .done ∨ c.state = .failed)
  silent : c.response = none → c.received = []
  received : c.received.length ≤ c.expected
  /-- bytes are waited for as long as some are missing -/
  missing : c.response.isSome = true → c.state = .awaitingResult → c.received.length < c.expected

theorem sound_fresh : Sound fresh := by
  refine ⟨?_, ?_, ?_, ?_, ?_, ?_, ?_⟩ <;> simp [fresh]

section Steps

variable {c : WorkerConversation} {header : JobResponse}

theorem Sound.result_eq_none (h : Sound c) (hstate : c.state ≠ .done) : c.result = none := by
  by_contra hsome
  exact hstate (h.result (Option.isSome_iff_ne_none.mpr hsome))

theorem Sound.error_eq_none (h : Sound c) (hstate : c.state ≠ .failed) : c.error = none := by
  by_contra hsome
  exact hstate (h.error.mp (Option.isSome_iff_ne_none.mpr hsome))

theorem Sound.outbox_eq_nil (h : Sound c) (hstate : c.state ≠ .uploading) : c.outbox = [] := by
  by_contra hne
  exact hstate (h.outbox hne)

/-- Before the response nothing is stored. -/
theorem Sound.response_eq_none (h : Sound c) (hawaiting : c.state ≠ .awaitingResult)
    (hdone : c.state ≠ .done) (hfailed : c.state ≠ .failed) : c.response = none := by
  cases hresponse : c.response with
  | none => rfl
  | some header =>
    obtain ⟨-, -, hstate⟩ := h.response header hresponse
    simp [hawaiting, hdone, hfailed] at hstate

/-- A conversation that has not ended may fail. -/
theorem Sound.fail (h : Sound c) (hstate : c.state ≠ .done) (error : String) :
    Sound (c.fail error) where
  error := by simp [WorkerConversation.fail]
  result := by simp [WorkerConversation.fail, h.result_eq_none hstate]
  outbox := by simp [WorkerConversation.fail]
  response header hheader := by
    obtain ⟨htotal, hlimit, -⟩ := h.response header hheader
    exact ⟨htotal, hlimit, .inr (.inr rfl)⟩
  silent := h.silent
  received := h.received
  missing _ hawaiting := by simp [WorkerConversation.fail] at hawaiting

/-- A conversation that has not ended and does not wait for bytes. -/
def Early (c : WorkerConversation) : Prop :=
  c.state ≠ .awaitingResult ∧ c.state ≠ .done ∧ c.state ≠ .failed

/-- Before the response, a conversation may go on to any state but the last two. -/
theorem Sound.goOn (h : Sound c) (hearly : c.Early) {state : WorkerState} {outbox : List Frame}
    (flushed : Bool) (hfailed : state ≠ .failed) (houtbox : outbox ≠ [] → state = .uploading) :
    Sound { c with state, outbox, uploadFlushed := flushed } := by
  obtain ⟨hawaiting, hdone, hopen⟩ := hearly
  have hresponse := h.response_eq_none hawaiting hdone hopen
  have hresult := h.result_eq_none hdone
  have herror := h.error_eq_none hopen
  refine ⟨?_, ?_, houtbox, ?_, h.silent, h.received, ?_⟩
  · simp [herror, hfailed]
  · simp [hresult]
  · simp [hresponse]
  · simp [hresponse]

theorem Sound.onOpen (h : Sound c) (wait : Bool) : Sound (c.onOpen wait) := by
  unfold WorkerConversation.onOpen
  split
  · rename_i hstate
    have hearly : c.Early := by simp [Early, hstate]
    refine h.goOn hearly c.uploadFlushed (by cases wait <;> simp) fun hne => ?_
    exact absurd (h.outbox_eq_nil (by simp [hstate])) hne
  · exact h

/-- An upload that is accepted finds the connection open, and nothing stored. -/
theorem beginUpload_ok {job : JobEnvelope} {payload : Bytes} {after : WorkerConversation}
    (h : c.beginUpload job payload = .ok after) : c.state = .connected ∧
      after = { c with outbox := c.outbox ++ jobFrames job payload, state := .uploading } := by
  unfold WorkerConversation.beginUpload at h
  split at h
  · simp at h
  · rename_i hstate
    split at h
    · simp at h
    · exact ⟨by simpa using hstate, (Except.ok.inj h).symm⟩

theorem Sound.beginUpload (h : Sound c) {job : JobEnvelope} {payload : Bytes}
    {after : WorkerConversation} (hafter : c.beginUpload job payload = .ok after) : Sound after := by
  obtain ⟨hstate, rfl⟩ := beginUpload_ok hafter
  have hearly : c.Early := by simp [Early, hstate]
  exact h.goOn hearly c.uploadFlushed (by simp) fun _ => rfl

theorem Sound.polled (h : Sound c) : Sound c.pollOutbound.2 where
  error := h.error
  result := h.result
  outbox htail := by
    apply h.outbox
    intro hnil
    exact htail (by simp [pollOutbound, hnil])
  response := h.response
  silent := h.silent
  received := h.received
  missing := h.missing

theorem Sound.onFlushed (h : Sound c) : Sound c.onFlushed := by
  unfold WorkerConversation.onFlushed
  split
  · rename_i hflushed
    obtain ⟨hstate, hnil⟩ := hflushed
    have hearly : c.Early := by simp [Early, hstate]
    exact h.goOn hearly true (by simp) fun hne => absurd hnil hne
  · exact h

theorem Sound.taken (h : Sound c) : Sound c.takeResult.2 where
  error := h.error
  result := by simp [takeResult]
  outbox := h.outbox
  response := h.response
  silent := h.silent
  received := h.received
  missing := h.missing

theorem Sound.onClosed (h : Sound c) (reason : String) : Sound (c.onClosed reason) := by
  unfold WorkerConversation.onClosed
  split
  · exact h
  · rename_i hterminal
    exact h.fail (by intro hdone; simp [isTerminal, hdone] at hterminal) _

/-! ## Bytes of a result -/

theorem totalBytes_of_totalBytes? {total : Nat} (h : header.totalBytes? = some total) :
    OutputChunk.totalBytes header.index = total := by
  unfold JobResponse.totalBytes? at h
  dsimp only at h
  split at h
  · exact Option.some.inj h
  · simp at h

/-- The bytes that a response announced are being collected. -/
structure Buffering (header : JobResponse) (c : WorkerConversation) : Prop where
  state : c.state = .awaitingResult
  response : c.response = some header
  total : header.totalBytes? = some c.expected
  limit : c.expected ≤ maxResultBytes
  received : c.received.length ≤ c.expected
  outbox : c.outbox = []
  result : c.result = none
  error : c.error = none

theorem Sound.buffering (h : Sound c) (hstate : c.state = .awaitingResult)
    (hresponse : c.response = some header) : Buffering header c := by
  obtain ⟨htotal, hlimit, -⟩ := h.response header hresponse
  exact ⟨hstate, hresponse, htotal, hlimit, h.received, h.outbox_eq_nil (by simp [hstate]),
    h.result_eq_none (by simp [hstate]), h.error_eq_none (by simp [hstate])⟩

/-- As long as bytes are missing, nothing is put together. -/
theorem completeIfWhole_of_lt (h : Buffering header c) (hlt : c.received.length < c.expected) :
    c.completeIfWhole = c := by
  rw [completeIfWhole, h.response]
  dsimp only
  rw [if_pos (by omega)]

/-- With the last byte the conversation is done. -/
theorem completeIfWhole_of_eq (h : Buffering header c) (heq : c.received.length = c.expected) :
    c.completeIfWhole = { c with
      received := [], result := some (resultOf header c.received), state := .done } := by
  have htotal := totalBytes_of_totalBytes? h.total
  rw [completeIfWhole, h.response]
  dsimp only
  rw [if_neg (by omega), assemble?_of_le header c.received (by omega)]

theorem Buffering.completeIfWhole (h : Buffering header c) : Sound c.completeIfWhole := by
  rcases Nat.lt_or_eq_of_le h.received with hlt | heq
  · rw [completeIfWhole_of_lt h hlt]
    refine ⟨?_, ?_, ?_, ?_, ?_, h.received, fun _ _ => hlt⟩
    · simp [h.error, h.state]
    · simp [h.result]
    · simp [h.outbox]
    · intro other hother
      obtain rfl := Option.some.inj (h.response.symm.trans hother)
      exact ⟨h.total, h.limit, .inl h.state⟩
    · simp [h.response]
  · rw [completeIfWhole_of_eq h heq]
    refine ⟨?_, ?_, ?_, ?_, ?_, ?_, ?_⟩
    · simp [h.error]
    · simp
    · simp [h.outbox]
    · intro other hother
      obtain rfl := Option.some.inj (h.response.symm.trans hother)
      exact ⟨h.total, h.limit, .inr (.inl rfl)⟩
    · simp [h.response]
    · simp
    · simp

/-! ## Frames -/

/-- A response that is awaited starts the collection of its bytes. -/
theorem Sound.buffering_onResponse (h : Sound c)
    (hstate : c.state = .uploading ∨ c.state = .awaitingResult) (hnone : c.response = none)
    {total : Nat} (htotal : header.totalBytes? = some total) (hlimit : total ≤ maxResultBytes) :
    Buffering header { c with
      state := .awaitingResult, outbox := [], response := some header, expected := total } := by
  have hdone : c.state ≠ .done := by rcases hstate with h | h <;> simp [h]
  have hfailed : c.state ≠ .failed := by rcases hstate with h | h <;> simp [h]
  refine ⟨rfl, rfl, htotal, hlimit, ?_, rfl, h.result_eq_none hdone, h.error_eq_none hfailed⟩
  show c.received.length ≤ total
  rw [h.silent hnone]
  exact Nat.zero_le _

theorem Sound.onMessage (h : Sound c) (hterminal : c.isTerminal = false) (m : WorkerMessage) :
    Sound (c.onMessage m) := by
  have hdone : c.state ≠ .done := by intro hstate; simp [isTerminal, hstate] at hterminal
  cases m with
  | resume =>
    unfold WorkerConversation.onMessage
    dsimp only
    split
    · rename_i hstate
      have hearly : c.Early := by simp [Early, hstate]
      refine h.goOn hearly c.uploadFlushed (by simp) fun hne => ?_
      exact absurd (h.outbox_eq_nil (by simp [hstate])) hne
    · exact h.fail hdone _
  | response header =>
    unfold WorkerConversation.onMessage
    dsimp only
    split
    · rename_i hawaited
      unfold onResponse
      split
      · exact h.fail hdone _
      · rename_i total htotal
        split
        · exact h.fail hdone _
        · have hlimit : total ≤ maxResultBytes := by omega
          exact (h.buffering_onResponse hawaited.1 hawaited.2 htotal hlimit).completeIfWhole
    · exact h.fail hdone _

/-- Bytes that do not exceed what was announced are added to those that are there. -/
theorem Buffering.append (h : Buffering header c) {data : Bytes}
    (hle : c.received.length + data.length ≤ c.expected) :
    Buffering header { c with received := c.received ++ data } :=
  ⟨h.state, h.response, h.total, h.limit, by rw [List.length_append]; exact hle, h.outbox,
    h.result, h.error⟩

theorem Sound.onBinary (h : Sound c) (hterminal : c.isTerminal = false) (data : Bytes) :
    Sound (c.onBinary data) := by
  have hdone : c.state ≠ .done := by intro hstate; simp [isTerminal, hstate] at hterminal
  have hfailed : c.state ≠ .failed := by intro hstate; simp [isTerminal, hstate] at hterminal
  unfold WorkerConversation.onBinary
  split
  · exact h.fail hdone _
  · rename_i hresponse
    obtain ⟨header, hheader⟩ := Option.ne_none_iff_exists'.mp hresponse
    dsimp only
    split
    · exact h.fail hdone _
    · have hstate : c.state = .awaitingResult := by
        obtain ⟨-, -, hstate⟩ := h.response header hheader
        simpa [hdone, hfailed] using hstate
      exact ((h.buffering hstate hheader).append (by omega)).completeIfWhole

theorem Sound.onFrame (h : Sound c) (frame : Frame) : Sound (c.onFrame frame) := by
  unfold WorkerConversation.onFrame
  split
  · exact h
  · rename_i hterminal
    have hopen : c.isTerminal = false := by simpa using hterminal
    have hdone : c.state ≠ .done := by intro hstate; simp [isTerminal, hstate] at hopen
    split
    · exact h.fail hdone _
    · cases frame with
      | text text =>
        show Sound (c.onText text)
        unfold onText
        split
        · exact h.onMessage hopen _
        · exact h.fail hdone _
        · exact h.fail hdone _
      | binary data => exact h.onBinary hopen data
      | close reason => exact h.onClosed _

/-! ## Runs -/

theorem Sound.perform (h : Sound c) (op : WorkerOp) : Sound (c.perform op) := by
  cases op with
  | opened wait => exact h.onOpen wait
  | upload job payload =>
    show Sound ((c.beginUpload job payload).toOption.getD c)
    cases hafter : c.beginUpload job payload with
    | error cause => exact h
    | ok after => exact h.beginUpload hafter
  | polled => exact h.polled
  | frame frame => exact h.onFrame frame
  | flushed => exact h.onFlushed
  | closed reason => exact h.onClosed reason
  | taken => exact h.taken

theorem Sound.performAll (h : Sound c) (ops : List WorkerOp) : Sound (c.performAll ops) := by
  induction ops generalizing c with
  | nil => exact h
  | cons op rest ih => exact ih (h.perform op)

end Steps

end WorkerConversation

end Offload
