import Offload.Proofs.Worker.Invariant

/-!
# What a worker is sent

However uploads, frames and polls follow each other, at most one upload is accepted, and what is handed
out over a whole run is a beginning of its frames: the envelope, then the source (`upload_once`). The
proof cuts a run at the accepted upload. Before it nothing is to be sent; from it on the outbox holds
all that will ever be handed out (`Committed.handedOut_isPrefix`).
-/

namespace Offload

/-! ## What a run hands out -/

/-- The worker lets the upload begin. -/
def WorkerOp.Resumes (op : WorkerOp) : Prop :=
  ∃ text, op = .frame (.text text) ∧ WorkerMessage.parse text = .ok .resume

namespace WorkerConversation

/-- The uploads that an operation begins. -/
def uploadsOf (c : WorkerConversation) : WorkerOp → List (JobEnvelope × Bytes)
  | .upload job payload => if (c.beginUpload job payload).isOk then [(job, payload)] else []
  | _ => []

/-- The uploads that are accepted in a run, in order. -/
def uploads (c : WorkerConversation) : List WorkerOp → List (JobEnvelope × Bytes)
  | [] => []
  | op :: rest => c.uploadsOf op ++ (c.perform op).uploads rest

/-- The frames that an operation hands out. -/
def framesOf (c : WorkerConversation) : WorkerOp → List Frame
  | .polled => c.pollOutbound.1.toList
  | _ => []

/-- The frames that are handed out in a run, in order. -/
def handedOut (c : WorkerConversation) : List WorkerOp → List Frame
  | [] => []
  | op :: rest => c.framesOf op ++ (c.perform op).handedOut rest

theorem handedOut_append (c : WorkerConversation) (ops ops' : List WorkerOp) :
    c.handedOut (ops ++ ops') = c.handedOut ops ++ (c.performAll ops).handedOut ops' := by
  induction ops generalizing c with
  | nil => rfl
  | cons op rest ih =>
    rw [List.cons_append, handedOut, handedOut, ih, List.append_assoc]
    rfl

variable {c : WorkerConversation}

/-! ## After the upload -/

/-- A state in which no upload begins any more. -/
structure Committed (c : WorkerConversation) : Prop where
  sound : Sound c
  connecting : c.state ≠ .connecting
  connected : c.state ≠ .connected
  waiting : c.state ≠ .awaitingWaitAck

namespace Committed

theorem of_failed (h : Sound c) (hstate : c.state = .failed) : Committed c :=
  ⟨h, by simp [hstate], by simp [hstate], by simp [hstate]⟩

theorem beginUpload (h : Committed c) (job : JobEnvelope) (payload : Bytes) :
    c.beginUpload job payload = .error (.notReady c.state) := if_pos h.connected

theorem of_bytes (h : Sound c.completeIfWhole) {header : JobResponse} (hb : Buffering header c) :
    Committed c.completeIfWhole ∧ c.completeIfWhole.outbox = [] := by
  rcases hb.completeIfWhole_cases with hsame | hdone
  · rw [hsame] at h ⊢
    exact ⟨⟨h, by simp [hb.state], by simp [hb.state], by simp [hb.state]⟩, hb.outbox⟩
  · rw [hdone] at h ⊢
    exact ⟨⟨h, by simp, by simp, by simp⟩, hb.outbox⟩

/-- A frame at most clears the outbox. -/
theorem onFrame (h : Committed c) (frame : Frame) :
    Committed (c.onFrame frame) ∧ ((c.onFrame frame).outbox = [] ∨ c.onFrame frame = c) := by
  have hsound := h.sound.onFrame frame
  have hreaction := reaction_onFrame h.sound frame
  generalize c.onFrame frame = after at hsound hreaction
  cases hreaction with
  | ignored => exact ⟨h, .inr rfl⟩
  | resumed text hstate => exact absurd hstate h.waiting
  | answered text header total hstate hnone hparse htotal hlimit =>
    have hbegun := h.sound.buffering_onResponse hstate hnone htotal hlimit
    exact (of_bytes hsound hbegun).imp_right .inl
  | collected data header hbuffering hroom =>
    exact (of_bytes hsound (hbuffering.append hroom)).imp_right .inl
  | failed frame error hopen herror => exact ⟨of_failed hsound rfl, .inl rfl⟩

/-- An operation leaves of the outbox what it does not hand out, or less. -/
theorem perform (h : Committed c) (op : WorkerOp) :
    Committed (c.perform op) ∧ c.uploadsOf op = [] ∧
      c.framesOf op ++ (c.perform op).outbox <+: c.outbox := by
  cases op with
  | opened wait =>
    have hsame : c.perform (.opened wait) = c := if_neg h.connecting
    rw [hsame]
    exact ⟨h, rfl, List.prefix_rfl⟩
  | upload job payload =>
    have hrefused := h.beginUpload job payload
    have hsame : c.perform (.upload job payload) = c := by
      show (c.beginUpload job payload).toOption.getD c = c
      rw [hrefused]
      rfl
    rw [hsame]
    refine ⟨h, ?_, List.prefix_rfl⟩
    rw [uploadsOf, hrefused]
    rfl
  | polled =>
    refine ⟨⟨h.sound.polled, h.connecting, h.connected, h.waiting⟩, rfl, ?_⟩
    show c.outbox.head?.toList ++ c.outbox.tail <+: c.outbox
    cases c.outbox <;> simp
  | frame frame =>
    obtain ⟨hafter, hcleared | hsame⟩ := h.onFrame frame
    · refine ⟨hafter, rfl, ?_⟩
      show (c.onFrame frame).outbox <+: c.outbox
      rw [hcleared]
      exact List.nil_prefix
    · refine ⟨hafter, rfl, ?_⟩
      show (c.onFrame frame).outbox <+: c.outbox
      exact ⟨[], by rw [List.append_nil, hsame]⟩
  | flushed =>
    have hsound := h.sound.onFlushed
    show Committed c.onFlushed ∧ _ ∧ c.onFlushed.outbox <+: c.outbox
    unfold onFlushed at hsound ⊢
    split at hsound
    · rename_i hflushed
      rw [if_pos hflushed]
      exact ⟨⟨hsound, by simp, by simp, by simp⟩, rfl, List.prefix_rfl⟩
    · rename_i hflushed
      rw [if_neg hflushed]
      exact ⟨h, rfl, List.prefix_rfl⟩
  | closed reason =>
    have hsound := h.sound.onClosed reason
    show Committed (c.onClosed reason) ∧ _ ∧ (c.onClosed reason).outbox <+: c.outbox
    unfold onClosed at hsound ⊢
    split at hsound
    · rename_i hterminal
      rw [if_pos hterminal]
      exact ⟨h, rfl, List.prefix_rfl⟩
    · rename_i hterminal
      rw [if_neg hterminal]
      exact ⟨of_failed hsound rfl, rfl, List.nil_prefix⟩
  | taken => exact ⟨⟨h.sound.taken, h.connecting, h.connected, h.waiting⟩, rfl, List.prefix_rfl⟩

/-- What is handed out from now on is a beginning of what is to be sent now. -/
theorem handedOut_isPrefix (h : Committed c) (ops : List WorkerOp) :
    c.uploads ops = [] ∧ c.handedOut ops <+: c.outbox := by
  induction ops generalizing c with
  | nil => exact ⟨rfl, List.nil_prefix⟩
  | cons op rest ih =>
    obtain ⟨hafter, hnone, hframes⟩ := h.perform op
    obtain ⟨huploads, hout⟩ := ih hafter
    refine ⟨?_, ?_⟩
    · rw [uploads, hnone, huploads]
      rfl
    · rw [handedOut]
      exact ((List.prefix_append_right_inj _).mpr hout).trans hframes

end Committed

/-- Once it has failed, a conversation hands nothing out and stays failed. -/
theorem handedOut_of_failed (h : Sound c) (hstate : c.state = .failed) (ops : List WorkerOp) :
    c.uploads ops = [] ∧ c.handedOut ops = [] ∧ (c.performAll ops).state = .failed := by
  obtain ⟨huploads, hout⟩ := (Committed.of_failed h hstate).handedOut_isPrefix ops
  rw [h.outbox_eq_nil (by simp [hstate])] at hout
  refine ⟨huploads, List.prefix_nil.mp hout, ?_⟩
  rw [performAll_of_terminal h (by simp [isTerminal, hstate]) ops]
  split <;> exact hstate

/-! ## Before the upload -/

/-- A state in which nothing is to be sent and an upload may still begin. -/
structure Idle (c : WorkerConversation) : Prop where
  sound : Sound c
  early : c.Early
  idle : c.state ≠ .uploading

theorem idle_fresh : Idle fresh :=
  ⟨sound_fresh, ⟨by simp [fresh], by simp [fresh], by simp [fresh]⟩, by simp [fresh]⟩

/-- An envelope announces the size of the source that it is accepted with. -/
theorem size_of_beginUpload {job : JobEnvelope} {payload : Bytes} {after : WorkerConversation}
    (h : c.beginUpload job payload = .ok after) : job.bytes.toNat = payload.length := by
  unfold WorkerConversation.beginUpload at h
  split at h
  · simp at h
  · split at h
    · simp at h
    · rename_i hsize
      simpa using hsize

/-- What an operation makes of an idle conversation. -/
inductive Advance (c : WorkerConversation) : WorkerOp → WorkerConversation → Prop
  | stays (op : WorkerOp) (h : c.uploadsOf op = []) : Advance c op c
  | opens (wait : Bool) (hstate : c.state = .connecting) : Advance c (.opened wait)
    { c with state := if wait then .awaitingWaitAck else .connected }
  | resumes (op : WorkerOp) (h : op.Resumes) (hstate : c.state = .awaitingWaitAck) :
    Advance c op { c with state := .connected }
  | uploads (job : JobEnvelope) (payload : Bytes) (after : WorkerConversation)
    (h : c.beginUpload job payload = .ok after) : Advance c (.upload job payload) after
  | fails (op : WorkerOp) (after : WorkerConversation) (h : c.uploadsOf op = [])
    (hstate : after.state = .failed) : Advance c op after

namespace Idle

theorem outbox (h : Idle c) : c.outbox = [] := h.sound.outbox_eq_nil h.idle

theorem isTerminal (h : Idle c) : c.isTerminal = false := by
  simp [WorkerConversation.isTerminal, h.early.2.1, h.early.2.2]

theorem framesOf (h : Idle c) (op : WorkerOp) : c.framesOf op = [] := by
  cases op with
  | polled =>
    show c.outbox.head?.toList = []
    rw [h.outbox]
    rfl
  | _ => rfl

theorem advance (h : Idle c) (op : WorkerOp) : Advance c op (c.perform op) := by
  cases op with
  | opened wait =>
    show Advance c (.opened wait) (c.onOpen wait)
    unfold onOpen
    split
    · rename_i hstate
      exact .opens wait hstate
    · exact .stays _ rfl
  | upload job payload =>
    show Advance c _ ((c.beginUpload job payload).toOption.getD c)
    cases hafter : c.beginUpload job payload with
    | error cause =>
      refine .stays _ ?_
      rw [uploadsOf, hafter]
      rfl
    | ok after => exact .uploads job payload after hafter
  | polled =>
    have hsame : c.perform .polled = c := by
      show { c with outbox := c.outbox.tail } = c
      rw [h.outbox, List.tail_nil, ← h.outbox]
    rw [hsame]
    exact .stays _ rfl
  | frame frame =>
    have hreaction := reaction_onFrame h.sound frame
    change Advance c _ (c.onFrame frame)
    generalize c.onFrame frame = after at hreaction
    cases hreaction with
    | ignored => exact .stays _ rfl
    | resumed text hstate hparse => exact .resumes _ ⟨text, rfl, hparse⟩ hstate
    | answered text header total hstate =>
      rcases hstate with hstate | hstate
      · exact absurd hstate h.idle
      · exact absurd hstate h.early.1
    | collected data header hbuffering => exact absurd hbuffering.state h.early.1
    | failed => exact .fails _ _ rfl rfl
  | flushed =>
    have hsame : c.perform .flushed = c := if_neg fun hflushed => h.idle hflushed.1
    rw [hsame]
    exact .stays _ rfl
  | closed reason =>
    refine .fails _ _ rfl ?_
    show (c.onClosed reason).state = .failed
    rw [onClosed, if_neg (by simp [h.isTerminal])]
    rfl
  | taken =>
    have hsame : c.perform .taken = c := by
      show { c with result := none } = c
      rw [← h.sound.result_eq_none h.early.2.1]
    rw [hsame]
    exact .stays _ rfl

/-- An idle conversation that is opened, or may go on, is idle. -/
theorem of_open {state : WorkerState} (hsound : Sound { c with state })
    (hstate : state = .awaitingWaitAck ∨ state = .connected) : Idle { c with state } := by
  rcases hstate with rfl | rfl <;>
    exact ⟨hsound, ⟨by simp, by simp, by simp⟩, by simp⟩

/-- At most one upload is accepted, and what is handed out is a beginning of its frames. -/
theorem uploads (h : Idle c) (ops : List WorkerOp) :
    c.uploads ops = [] ∧ c.handedOut ops = [] ∨
      ∃ job payload, c.uploads ops = [(job, payload)] ∧ job.bytes.toNat = payload.length ∧
        c.handedOut ops <+: jobFrames job payload := by
  induction ops generalizing c with
  | nil => exact .inl ⟨rfl, rfl⟩
  | cons op rest ih =>
    have hsound := h.sound.perform op
    have hadvance := h.advance op
    rw [WorkerConversation.uploads, handedOut, h.framesOf op, List.nil_append]
    generalize c.perform op = after at hsound hadvance
    cases hadvance with
    | stays op hnone =>
      rw [hnone]
      exact ih h
    | opens wait =>
      exact ih (of_open hsound (by cases wait <;> simp))
    | resumes op hresumes =>
      obtain ⟨text, rfl, -⟩ := hresumes
      exact ih (of_open hsound (.inr rfl))
    | uploads job payload after hafter =>
      obtain ⟨hstate, rfl⟩ := beginUpload_ok hafter
      have hcommitted : Committed { c with
          outbox := c.outbox ++ jobFrames job payload, state := .uploading } :=
        ⟨hsound, by simp, by simp, by simp⟩
      -- what the rest of the run hands out is in the outbox already
      obtain ⟨hnone, hout⟩ := hcommitted.handedOut_isPrefix rest
      refine .inr ⟨job, payload, ?_, ?_, ?_⟩
      · rw [uploadsOf, hafter, hnone]
        rfl
      · exact size_of_beginUpload hafter
      · refine hout.trans ?_
        show c.outbox ++ jobFrames job payload <+: _
        rw [h.outbox]
        exact List.prefix_rfl
    | fails op after hnone hstate =>
      obtain ⟨huploads, hout, -⟩ := handedOut_of_failed hsound hstate rest
      rw [hnone, huploads]
      exact .inl ⟨rfl, hout⟩

/-- As long as no one opens the connection, nothing is handed out. -/
theorem handedOut_unopened (h : Idle c) (hstate : c.state = .connecting) (ops : List WorkerOp)
    (hops : ∀ wait, .opened wait ∉ ops) :
    c.handedOut ops = [] ∧ (c.performAll ops = c ∨
      Sound (c.performAll ops) ∧ (c.performAll ops).state = .failed) := by
  induction ops with
  | nil => exact ⟨rfl, .inl rfl⟩
  | cons op rest ih =>
    have hsound := h.sound.perform op
    have hadvance := h.advance op
    rw [handedOut, h.framesOf op, List.nil_append, performAll_cons]
    generalize c.perform op = after at hsound hadvance
    cases hadvance with
    | stays op hnone => exact ih fun wait hmem => hops wait (List.mem_cons_of_mem _ hmem)
    | opens wait => exact absurd List.mem_cons_self (hops wait)
    | resumes op hresumes hwaiting => simp [hstate] at hwaiting
    | uploads job payload after hafter =>
      exact absurd (beginUpload_ok hafter).1 (by simp [hstate])
    | fails op after hnone hfailed =>
      obtain ⟨-, hout, hlast⟩ := handedOut_of_failed hsound hfailed rest
      exact ⟨hout, .inr ⟨hsound.performAll rest, hlast⟩⟩

/-- As long as the worker holds the upload back, nothing is handed out. -/
theorem handedOut_waiting (h : Idle c) (hstate : c.state = .awaitingWaitAck) (ops : List WorkerOp)
    (hops : ∀ op ∈ ops, ¬ op.Resumes) : c.handedOut ops = [] := by
  induction ops with
  | nil => rfl
  | cons op rest ih =>
    have hsound := h.sound.perform op
    have hadvance := h.advance op
    rw [handedOut, h.framesOf op, List.nil_append]
    generalize c.perform op = after at hsound hadvance
    cases hadvance with
    | stays op hnone => exact ih fun other hmem => hops other (List.mem_cons_of_mem _ hmem)
    | opens wait hconnecting => simp [hstate] at hconnecting
    | resumes op hresumes => exact absurd hresumes (hops _ List.mem_cons_self)
    | uploads job payload after hafter =>
      exact absurd (beginUpload_ok hafter).1 (by simp [hstate])
    | fails op after hnone hfailed => exact (handedOut_of_failed hsound hfailed rest).2.1

end Idle

/-! ## Whole runs -/

/-- In every run of a conversation at most one upload is accepted, of a source of the size that its
envelope announces; and what is handed out is a beginning of the envelope and the source, which is
left out when it is empty. If the connection was opened with the request to wait, nothing is handed
out until the worker has let the upload begin. An upload that is refused changes nothing. -/
theorem upload_once (ops : List WorkerOp) :
    (fresh.uploads ops = [] ∧ fresh.handedOut ops = [] ∨
      ∃ job payload, fresh.uploads ops = [(job, payload)] ∧ job.bytes.toNat = payload.length ∧
        fresh.handedOut ops <+:
          .text job.encode :: if payload = [] then [] else [.binary payload]) ∧
      (∀ before rest, ops = before ++ .opened true :: rest → (∀ wait, .opened wait ∉ before) →
        fresh.handedOut ops ≠ [] → ∃ op ∈ rest, op.Resumes) ∧
      ∀ job payload cause, (fresh.performAll ops).beginUpload job payload = .error cause →
        fresh.performAll (ops ++ [.upload job payload]) = fresh.performAll ops := by
  refine ⟨?_, ?_, ?_⟩
  · rcases idle_fresh.uploads ops with hnone | ⟨job, payload, hjob, hsize, hout⟩
    · exact .inl hnone
    · refine .inr ⟨job, payload, hjob, hsize, ?_⟩
      unfold jobFrames at hout
      simpa using hout
  · rintro before rest rfl hbefore hout
    by_contra hnone
    have hheld : ∀ op ∈ rest, ¬ op.Resumes := fun op hop hresumes => hnone ⟨op, hop, hresumes⟩
    apply hout
    obtain ⟨hunopened, hafter⟩ := idle_fresh.handedOut_unopened rfl before hbefore
    rw [handedOut_append, hunopened, List.nil_append]
    -- when it is opened, the connection is as it was at first, or has failed
    rcases hafter with hsame | ⟨hsound, hfailed⟩
    · rw [hsame]
      have hwaiting : Idle { fresh with state := .awaitingWaitAck } :=
        .of_open (sound_fresh.onOpen true) (.inl rfl)
      exact hwaiting.handedOut_waiting rfl rest hheld
    · exact (handedOut_of_failed hsound hfailed _).2.1
  · intro job payload cause hrefused
    rw [performAll_append]
    show ((fresh.performAll ops).beginUpload job payload).toOption.getD _ = _
    rw [hrefused]
    rfl

/-- A job that is offered too early is handed out after the worker let the upload begin. -/
theorem upload_once_resumed :
    let job : JobEnvelope := ⟨["-c"], "cc", true, 1⟩
    let rest : List WorkerOp := [.upload job [7], .polled, .frame (.text WorkerMessage.resume.encode),
      .upload job [7], .polled, .polled, .flushed]
    fresh.handedOut (.opened true :: rest) = [.text job.encode, .binary [7]] ∧
      ∃ op ∈ rest, op.Resumes := by
  intro job rest
  have hout : fresh.handedOut (.opened true :: rest) = [.text job.encode, .binary [7]] := by
    decide +kernel
  refine ⟨hout, (upload_once (.opened true :: rest)).2.1 [] rest rfl (by simp) ?_⟩
  rw [hout]
  simp

end WorkerConversation

end Offload
