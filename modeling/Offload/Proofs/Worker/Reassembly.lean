import Offload.Proofs.Message.RoundTrip
import Offload.Proofs.Worker.Run

/-!
# The result of a job, however its bytes arrive

After its response a worker sends the bytes that the response announced. How they are cut into
frames, and what else is done in between, does not matter: with the last byte the conversation is
done, and its result is what the index makes of all bytes (`result_of_payload`). The proof follows
the bytes that have arrived so far (`Collecting`) from frame to frame.
-/

namespace Offload

/-! ## What happens after a response -/

namespace WorkerOp

/-- Nothing arrives from the worker. -/
def isLocal : WorkerOp → Bool
  | frame _ | closed _ => false
  | _ => true

/-- Frames are taken from the outbox, or have left. -/
def isQuiet : WorkerOp → Bool
  | polled | flushed => true
  | _ => false

/-- Bytes of the result arrive, or frames are taken from the outbox, or have left. -/
def isTransfer : WorkerOp → Bool
  | polled | flushed | frame (.binary _) => true
  | _ => false

/-- The bytes of the result that arrive. -/
def bytes : WorkerOp → Bytes
  | frame (.binary data) => data
  | _ => []

variable {op : WorkerOp}

theorem quiet_cases (h : op.isQuiet = true) : op = .polled ∨ op = .flushed := by
  cases op with
  | polled => exact .inl rfl
  | flushed => exact .inr rfl
  | _ => simp [isQuiet] at h

/-- An operation of a transfer is quiet, or a binary frame. -/
theorem transfer_cases (h : op.isTransfer = true) :
    op.isQuiet = true ∨ ∃ data, op = .frame (.binary data) := by
  cases op with
  | polled => exact .inl rfl
  | flushed => exact .inl rfl
  | frame frame =>
    cases frame with
    | binary data => exact .inr ⟨data, rfl⟩
    | _ => simp [isTransfer] at h
  | _ => simp [isTransfer] at h

theorem bytes_of_quiet (h : op.isQuiet = true) : op.bytes = [] := by
  rcases quiet_cases h with rfl | rfl <;> rfl

end WorkerOp

namespace WorkerConversation

/-- The bytes of the result that arrive, all together. -/
def payloadOf (ops : List WorkerOp) : Bytes := ops.flatMap WorkerOp.bytes

@[simp] theorem payloadOf_cons (op : WorkerOp) (ops : List WorkerOp) :
    payloadOf (op :: ops) = op.bytes ++ payloadOf ops := rfl

/-- The number of bytes that a response announces. -/
def announced (header : JobResponse) : Nat := OutputChunk.totalBytes header.index

/-- A job was uploaded, and the response is awaited. -/
structure Awaiting (c : WorkerConversation) : Prop where
  sound : Sound c
  state : c.state = .uploading ∨ c.state = .awaitingResult
  response : c.response = none

/-- So many bytes of the result have arrived, and some are missing. -/
structure Collecting (header : JobResponse) (got : Bytes) (c : WorkerConversation) : Prop where
  buffering : Buffering header c
  received : c.received = got
  missing : got.length < announced header

/-- All bytes of the result have arrived. -/
structure Complete (header : JobResponse) (payload : Bytes) (c : WorkerConversation) : Prop where
  state : c.state = .done
  result : c.result = some (resultOf header payload)

/-- More bytes than announced have arrived. -/
structure Overrun (c : WorkerConversation) : Prop where
  state : c.state = .failed
  result : c.result = none

variable {c : WorkerConversation} {header : JobResponse} {got : Bytes}

/-! ## Once it has ended -/

/-- A conversation that has ended is left alone by what a worker sends. -/
theorem transfer_of_terminal {op : WorkerOp} (hop : op.isTransfer = true)
    (hend : c.state = .done ∨ c.state = .failed) :
    (c.perform op).state = c.state ∧ (c.perform op).result = c.result := by
  have hterminal : c.isTerminal = true := by
    rcases hend with h | h <;> simp [isTerminal, h]
  have hstate : c.state ≠ .uploading := by
    rcases hend with h | h <;> simp [h]
  rcases WorkerOp.transfer_cases hop with hquiet | ⟨data, rfl⟩
  · rcases WorkerOp.quiet_cases hquiet with rfl | rfl
    · exact ⟨rfl, rfl⟩
    · show c.onFlushed.state = c.state ∧ c.onFlushed.result = c.result
      rw [onFlushed, if_neg (fun h => hstate h.1)]
      exact ⟨rfl, rfl⟩
  · show (c.onFrame (.binary data)).state = c.state ∧ (c.onFrame (.binary data)).result = c.result
    unfold onFrame
    rw [if_pos hterminal]
    exact ⟨rfl, rfl⟩

theorem transfers_of_terminal (ops : List WorkerOp) (hops : ∀ op ∈ ops, op.isTransfer = true)
    (hend : c.state = .done ∨ c.state = .failed) :
    (c.performAll ops).state = c.state ∧ (c.performAll ops).result = c.result := by
  induction ops generalizing c with
  | nil => exact ⟨rfl, rfl⟩
  | cons op rest ih =>
    obtain ⟨hstate, hresult⟩ := transfer_of_terminal (hops op List.mem_cons_self) hend
    have hrest := ih (fun other h => hops other (List.mem_cons_of_mem _ h)) (hstate ▸ hend)
    exact ⟨hrest.1.trans hstate, hrest.2.trans hresult⟩

theorem Complete.transfers {payload : Bytes} (h : Complete header payload c) (ops : List WorkerOp)
    (hops : ∀ op ∈ ops, op.isTransfer = true) : Complete header payload (c.performAll ops) := by
  obtain ⟨hstate, hresult⟩ := transfers_of_terminal ops hops (.inl h.state)
  exact ⟨hstate.trans h.state, hresult.trans h.result⟩

theorem Overrun.transfers (h : Overrun c) (ops : List WorkerOp)
    (hops : ∀ op ∈ ops, op.isTransfer = true) : Overrun (c.performAll ops) := by
  obtain ⟨hstate, hresult⟩ := transfers_of_terminal ops hops (.inr h.state)
  exact ⟨hstate.trans h.state, hresult.trans h.result⟩

/-! ## One step -/

theorem Collecting.expected (h : Collecting header got c) : c.expected = announced header :=
  (totalBytes_of_totalBytes? h.buffering.total).symm

/-- To take frames from the outbox does not touch the bytes. -/
theorem Collecting.quiet (h : Collecting header got c) {op : WorkerOp} (hop : op.isQuiet = true) :
    Collecting header got (c.perform op) := by
  have hb := h.buffering
  rcases WorkerOp.quiet_cases hop with rfl | rfl
  · have houtbox : c.outbox.tail = [] := by rw [hb.outbox]; rfl
    exact ⟨⟨hb.state, hb.response, hb.total, hb.limit, hb.received, houtbox, hb.result, hb.error⟩,
      h.received, h.missing⟩
  · have hsame : c.perform .flushed = c := by
      show c.onFlushed = c
      rw [onFlushed, if_neg (by simp [hb.state])]
    rw [hsame]
    exact h

/-- A binary frame is a matter of its bytes alone. -/
theorem Collecting.perform_binary (h : Collecting header got c) (data : Bytes) :
    c.perform (.frame (.binary data)) =
      if announced header < got.length + data.length then
        c.fail ("worker sent " ++ toString (got.length + data.length) ++ " bytes, expected "
          ++ toString (announced header))
      else { c with received := got ++ data }.completeIfWhole := by
  have hb := h.buffering
  have hterminal : c.isTerminal = false := by simp [isTerminal, hb.state]
  show c.onFrame (.binary data) = _
  rw [onFrame, if_neg (by simp [hterminal]), if_neg (by simp [hb.state])]
  rw [onBinary, if_neg (by simp [hb.response]), h.received, h.expected]

theorem Collecting.binary (h : Collecting header got c) {data : Bytes}
    (hle : (got ++ data).length ≤ announced header) :
    Buffering header { c with received := got ++ data } ∧
      c.perform (.frame (.binary data)) = { c with received := got ++ data }.completeIfWhole := by
  rw [List.length_append] at hle
  have hroom : c.received.length + data.length ≤ c.expected := by
    rw [h.received, h.expected]
    exact hle
  have hbuffering := h.buffering.append hroom
  rw [h.received] at hbuffering
  refine ⟨hbuffering, ?_⟩
  rw [h.perform_binary, if_neg (by omega)]

/-- A frame that leaves bytes missing. -/
theorem Collecting.more (h : Collecting header got c) {data : Bytes}
    (hlt : (got ++ data).length < announced header) :
    Collecting header (got ++ data) (c.perform (.frame (.binary data))) := by
  obtain ⟨hbuffering, hperform⟩ := h.binary (Nat.le_of_lt hlt)
  have hmissing : (got ++ data).length < c.expected := by rw [h.expected]; exact hlt
  rw [hperform, completeIfWhole_of_lt hbuffering hmissing]
  exact ⟨hbuffering, rfl, hlt⟩

/-- The frame with the last byte. -/
theorem Collecting.last (h : Collecting header got c) {data : Bytes}
    (heq : (got ++ data).length = announced header) :
    Complete header (got ++ data) (c.perform (.frame (.binary data))) := by
  obtain ⟨hbuffering, hperform⟩ := h.binary (Nat.le_of_eq heq)
  have hwhole : (got ++ data).length = c.expected := by rw [h.expected]; exact heq
  rw [hperform, completeIfWhole_of_eq hbuffering hwhole]
  exact ⟨rfl, rfl⟩

/-- A frame with more bytes than are missing. -/
theorem Collecting.tooMuch (h : Collecting header got c) {data : Bytes}
    (hgt : announced header < got.length + data.length) :
    Overrun (c.perform (.frame (.binary data))) := by
  rw [h.perform_binary, if_pos hgt]
  exact ⟨rfl, h.buffering.result⟩

/-! ## All frames -/

/-- As long as bytes are missing, they are collected. -/
theorem Collecting.transfers_missing (h : Collecting header got c) (ops : List WorkerOp)
    (hops : ∀ op ∈ ops, op.isTransfer = true)
    (hlt : (got ++ payloadOf ops).length < announced header) :
    Collecting header (got ++ payloadOf ops) (c.performAll ops) := by
  induction ops generalizing c got with
  | nil =>
    rw [payloadOf, List.flatMap_nil, List.append_nil]
    exact h
  | cons op rest ih =>
    have hrest : ∀ other ∈ rest, other.isTransfer = true := fun other h =>
      hops other (List.mem_cons_of_mem _ h)
    rw [payloadOf_cons, ← List.append_assoc] at hlt ⊢
    rw [performAll_cons]
    rcases WorkerOp.transfer_cases (hops op List.mem_cons_self) with hquiet | ⟨data, rfl⟩
    · rw [WorkerOp.bytes_of_quiet hquiet, List.append_nil] at hlt ⊢
      exact ih (h.quiet hquiet) hrest hlt
    · refine ih (h.more ?_) hrest hlt
      show (got ++ data).length < announced header
      rw [List.length_append] at hlt
      exact Nat.lt_of_le_of_lt (Nat.le_add_right _ _) hlt

/-- With the last byte the result is there, and it stays. -/
theorem Collecting.transfers_whole (h : Collecting header got c) (ops : List WorkerOp)
    (hops : ∀ op ∈ ops, op.isTransfer = true)
    (heq : (got ++ payloadOf ops).length = announced header) :
    Complete header (got ++ payloadOf ops) (c.performAll ops) := by
  induction ops generalizing c got with
  | nil =>
    rw [payloadOf, List.flatMap_nil, List.append_nil] at heq
    exact absurd h.missing (by omega)
  | cons op rest ih =>
    have hrest : ∀ other ∈ rest, other.isTransfer = true := fun other h =>
      hops other (List.mem_cons_of_mem _ h)
    rw [payloadOf_cons, ← List.append_assoc] at heq ⊢
    rw [performAll_cons]
    rcases WorkerOp.transfer_cases (hops op List.mem_cons_self) with hquiet | ⟨data, rfl⟩
    · rw [WorkerOp.bytes_of_quiet hquiet, List.append_nil] at heq ⊢
      exact ih (h.quiet hquiet) hrest heq
    · by_cases hlast : (got ++ data).length = announced header
      · -- no bytes are left for the frames that follow
        have hnil : payloadOf rest = [] := by
          change ((got ++ data) ++ payloadOf rest).length = _ at heq
          rw [List.length_append, hlast] at heq
          exact List.eq_nil_of_length_eq_zero (by omega)
        rw [hnil, List.append_nil]
        exact (h.last hlast).transfers rest hrest
      · have hlt : (got ++ data).length < announced header := by
          change ((got ++ data) ++ payloadOf rest).length = _ at heq
          rw [List.length_append] at heq
          omega
        exact ih (h.more hlt) hrest heq

/-- A frame with too many bytes fails the conversation for good. -/
theorem Collecting.transfers_tooMuch (h : Collecting header got c) (before rest : List WorkerOp)
    (data : Bytes) (hbefore : ∀ op ∈ before, op.isTransfer = true)
    (hrest : ∀ op ∈ rest, op.isTransfer = true)
    (hlt : (got ++ payloadOf before).length < announced header)
    (hgt : announced header < (got ++ payloadOf before).length + data.length) :
    Overrun (c.performAll (before ++ .frame (.binary data) :: rest)) := by
  rw [performAll_append, performAll_cons]
  exact ((h.transfers_missing before hbefore hlt).tooMuch hgt).transfers rest hrest

/-! ## From the upload on -/

theorem Awaiting.of_upload (h : Sound c) {job : JobEnvelope} {payload : Bytes}
    {after : WorkerConversation} (hafter : c.beginUpload job payload = .ok after) :
    Awaiting after := by
  have hsound := h.beginUpload hafter
  obtain ⟨hstate, rfl⟩ := beginUpload_ok hafter
  refine ⟨hsound, .inl rfl, ?_⟩
  exact h.response_eq_none (by simp [hstate]) (by simp [hstate]) (by simp [hstate])

/-- Until the worker answers, the response stays awaited. -/
theorem Awaiting.perform (h : Awaiting c) {op : WorkerOp} (hop : op.isLocal = true) :
    Awaiting (c.perform op) := by
  have hsound := h.sound.perform op
  cases op with
  | opened wait =>
    have hsame : c.perform (.opened wait) = c := by
      show c.onOpen wait = c
      rw [onOpen, if_neg (by rcases h.state with h | h <;> simp [h])]
    rw [hsame]
    exact h
  | upload job payload =>
    -- one upload is all that is accepted
    have hrefused : c.beginUpload job payload = .error (.notReady c.state) := by
      rw [beginUpload, if_pos (by rcases h.state with h | h <;> simp [h])]
    have hsame : c.perform (.upload job payload) = c := by
      show (c.beginUpload job payload).toOption.getD c = c
      rw [hrefused]
      rfl
    rw [hsame]
    exact h
  | polled => exact ⟨hsound, h.state, h.response⟩
  | flushed =>
    refine ⟨hsound, ?_, ?_⟩
    · show c.onFlushed.state = .uploading ∨ c.onFlushed.state = .awaitingResult
      unfold onFlushed
      split
      · exact .inr rfl
      · exact h.state
    · show c.onFlushed.response = none
      unfold onFlushed
      split <;> exact h.response
  | taken => exact ⟨hsound, h.state, h.response⟩
  | frame frame => simp [WorkerOp.isLocal] at hop
  | closed reason => simp [WorkerOp.isLocal] at hop

theorem Awaiting.performAll (h : Awaiting c) (ops : List WorkerOp)
    (hops : ∀ op ∈ ops, op.isLocal = true) : Awaiting (c.performAll ops) := by
  induction ops generalizing c with
  | nil => exact h
  | cons op rest ih =>
    exact ih (h.perform (hops op List.mem_cons_self)) fun other h =>
      hops other (List.mem_cons_of_mem _ h)

/-- The response starts the collection of its bytes, or is the whole result if it announces none. -/
theorem Awaiting.onResponse (h : Awaiting c) {text : String}
    (hparse : WorkerMessage.parse text = .ok (.response header))
    (hlimit : announced header ≤ maxResultBytes) :
    (0 < announced header → Collecting header [] (c.perform (.frame (.text text)))) ∧
      (announced header = 0 → Complete header [] (c.perform (.frame (.text text)))) := by
  have hterminal : c.isTerminal = false := by
    rcases h.state with hstate | hstate <;> simp [isTerminal, hstate]
  have hconnecting : c.state ≠ .connecting := by
    rcases h.state with hstate | hstate <;> simp [hstate]
  have htotal : header.totalBytes? = some (announced header) := by
    have hword : announced header < UInt64.size := Nat.lt_of_le_of_lt hlimit (by decide)
    exact if_pos hword
  let begun : WorkerConversation := { c with
    state := .awaitingResult, outbox := [], response := some header, expected := announced header }
  have hbegun : Buffering header begun :=
    h.sound.buffering_onResponse h.state h.response htotal hlimit
  have hnil : begun.received = [] := h.sound.silent h.response
  have hperform : c.perform (.frame (.text text)) = begun.completeIfWhole := by
    show c.onFrame (.text text) = _
    rw [onFrame, if_neg (by simp [hterminal]), if_neg hconnecting]
    show c.onText text = _
    rw [onText, hparse]
    show c.onMessage (.response header) = _
    rw [onMessage, if_pos ⟨h.state, h.response⟩, WorkerConversation.onResponse, htotal]
    exact if_neg (by omega)
  rw [hperform]
  constructor
  · intro hpos
    have hlt : begun.received.length < begun.expected := by
      rw [hnil]
      exact hpos
    rw [completeIfWhole_of_lt hbegun hlt]
    exact ⟨hbegun, hnil, hpos⟩
  · intro hzero
    have hwhole : begun.received.length = begun.expected := by
      rw [hnil]
      exact hzero.symm
    rw [completeIfWhole_of_eq hbegun hwhole, hnil]
    exact ⟨rfl, rfl⟩

/-- The pieces of a payload are cut out of it in the order of the index. -/
structure CutBy (index : List OutputChunk) (payload : Bytes)
    (pieces : List (OutputChunk × Bytes)) : Prop where
  index : pieces.map (fun piece => piece.1) = index
  length : ∀ piece ∈ pieces, piece.2.length = piece.1.bytes.toNat
  payload : pieces.flatMap (fun piece => piece.2) = payload

/-- When an upload was accepted and the worker answers with a response, the result is what the index
makes of the bytes that follow, however they are cut into frames: when all have arrived and not
before. If more arrive than were announced the conversation fails. -/
theorem result_of_payload (ops : List WorkerOp) (job : JobEnvelope) (source : Bytes)
    (accepted : WorkerConversation)
    (hupload : (fresh.performAll ops).beginUpload job source = .ok accepted)
    (waiting : List WorkerOp) (hwaiting : ∀ op ∈ waiting, op.isLocal = true)
    (text : String) (header : JobResponse)
    (hparse : WorkerMessage.parse text = .ok (.response header))
    (hlimit : announced header ≤ maxResultBytes) :
    let responded := (accepted.performAll waiting).perform (.frame (.text text))
    (∀ transfer : List WorkerOp, (∀ op ∈ transfer, op.isTransfer = true) →
      ((payloadOf transfer).length = announced header →
        (responded.performAll transfer).state = .done ∧
          (responded.performAll transfer).result = some (resultOf header (payloadOf transfer)) ∧
          CutBy header.index (payloadOf transfer) (pieces header.index (payloadOf transfer))) ∧
      ((payloadOf transfer).length < announced header →
        (responded.performAll transfer).state ≠ .done ∧
          (responded.performAll transfer).result = none)) ∧
    ∀ (before rest : List WorkerOp) (data : Bytes), (∀ op ∈ before, op.isTransfer = true) →
      (∀ op ∈ rest, op.isTransfer = true) → (payloadOf before).length < announced header →
      announced header < (payloadOf before).length + data.length →
      (responded.performAll (before ++ .frame (.binary data) :: rest)).state = .failed ∧
        (responded.performAll (before ++ .frame (.binary data) :: rest)).result = none := by
  intro responded
  have huploaded := Awaiting.of_upload (sound_fresh.performAll ops) hupload
  have hawaiting := huploaded.performAll waiting hwaiting
  obtain ⟨hcollecting, hempty⟩ := hawaiting.onResponse hparse hlimit
  refine ⟨fun transfer htransfer => ⟨fun heq => ?_, fun hlt => ?_⟩, ?_⟩
  · have hcut : CutBy header.index (payloadOf transfer)
        (pieces header.index (payloadOf transfer)) :=
      ⟨map_fst_pieces _ _, length_of_mem_pieces _ _ (Nat.le_of_eq heq.symm),
        flatMap_pieces _ _ heq.symm⟩
    have hcomplete : Complete header (payloadOf transfer) (responded.performAll transfer) := by
      rcases Nat.eq_zero_or_pos (announced header) with hzero | hpos
      · have hnil : payloadOf transfer = [] := List.eq_nil_of_length_eq_zero (by omega)
        rw [hnil]
        exact (hempty hzero).transfers transfer htransfer
      · exact (hcollecting hpos).transfers_whole transfer htransfer heq
    exact ⟨hcomplete.state, hcomplete.result, hcut⟩
  · have hpart : Collecting header (payloadOf transfer) (responded.performAll transfer) :=
      (hcollecting (by omega)).transfers_missing transfer htransfer hlt
    refine ⟨?_, hpart.buffering.result⟩
    rw [hpart.buffering.state]
    decide
  · intro before rest data hbefore hrest hlt hgt
    have hoverrun :=
      (hcollecting (by omega)).transfers_tooMuch before rest data hbefore hrest hlt hgt
    exact ⟨hoverrun.state, hoverrun.result⟩

/-- Three bytes in two frames, for the standard output and for a file. -/
theorem result_of_payload_inTwoFrames :
    let header : JobResponse := ⟨true, 0, [⟨.stdout, 2, none⟩, ⟨.file, 1, some "main.d"⟩]⟩
    let c := fresh.performAll [.opened false, .upload ⟨["-c"], "cc", false, 1⟩ [7], .polled,
      .frame (.text (WorkerMessage.response header).encode), .frame (.binary [1]), .flushed,
      .frame (.binary [2, 3])]
    c.state = .done ∧ c.result = some ⟨true, 0, [1, 2], [], [⟨some "main.d", [3]⟩]⟩ := by
  intro header c
  have hupload : (fresh.performAll [.opened false]).beginUpload ⟨["-c"], "cc", false, 1⟩ [7] =
      .ok (fresh.performAll [.opened false, .upload ⟨["-c"], "cc", false, 1⟩ [7]]) := rfl
  have h := ((result_of_payload [.opened false] ⟨["-c"], "cc", false, 1⟩ [7] _ hupload [.polled]
    (by decide) _ header (WorkerMessage.parse_encode (.response header)) (by decide)).1
      [.frame (.binary [1]), .flushed, .frame (.binary [2, 3])] (by decide)).1 rfl
  simp only [performAll_cons, performAll_nil] at h
  simp only [c, performAll_cons, performAll_nil]
  exact ⟨h.1, h.2.1⟩

end WorkerConversation

end Offload
