import Offload.Proofs.Worker.Upload
import Mathlib.Data.List.Induction

/-!
# When an upload counts as flushed

A flush completes the upload if everything has been handed out by then and the conversation is still
uploading. A worker that answers early takes it out of that state: if the header of its response
arrives when both frames were handed out, but before they are flushed, then the flush that follows is
not noticed, and none is any more. So the upload counts as flushed exactly if a flush came after the
last of its frames and before anything from the worker (`uploadFlushed_iff`); it never does so before
the frames were handed out.

The flag is set in one place (`uploadFlushed_perform`). What remains is how a conversation comes to be
uploading, and what it has handed out by then (`uploading_of_run`).
-/

namespace Offload

/-- The worker has sent something, or the connection to it has ended. -/
def WorkerOp.FromWorker : WorkerOp → Prop
  | .frame _ | .closed _ => True
  | _ => False

namespace WorkerConversation

variable {c : WorkerConversation}

/-- The upload of a job was accepted, all its frames were handed out, and then there was a flush, all
before anything came from the worker. -/
def FlushedInTime (ops : List WorkerOp) : Prop :=
  ∃ before job payload quiet rest,
    ops = before ++ .upload job payload :: (quiet ++ .flushed :: rest) ∧
      ((fresh.performAll before).beginUpload job payload).isOk = true ∧
      (∀ op ∈ quiet, ¬ op.FromWorker) ∧
      fresh.handedOut (before ++ .upload job payload :: quiet) = jobFrames job payload

/-! ## One operation -/

theorem uploadFlushed_onFrame (h : Sound c) (frame : Frame) :
    (c.onFrame frame).uploadFlushed = c.uploadFlushed := by
  have hreaction := reaction_onFrame h frame
  generalize c.onFrame frame = after at hreaction
  cases hreaction with
  | ignored => rfl
  | resumed => rfl
  | answered text header total hstate hnone hparse htotal hlimit =>
    rcases (h.buffering_onResponse hstate hnone htotal hlimit).completeIfWhole_cases with hc | hc <;>
      rw [hc]
  | collected data header hbuffering hroom =>
    rcases (hbuffering.append hroom).completeIfWhole_cases with hc | hc <;> rw [hc]
  | failed => rfl

/-- The upload becomes flushed by a flush while it is going on and nothing is left to hand out, and
by nothing else. -/
theorem uploadFlushed_perform (h : Sound c) (op : WorkerOp) :
    (c.perform op).uploadFlushed = true ↔
      c.uploadFlushed = true ∨ op = .flushed ∧ c.state = .uploading ∧ c.outbox = [] := by
  have hsame (hop : op ≠ .flushed) (hflag : (c.perform op).uploadFlushed = c.uploadFlushed) :
      (c.perform op).uploadFlushed = true ↔
        c.uploadFlushed = true ∨ op = .flushed ∧ c.state = .uploading ∧ c.outbox = [] := by
    rw [hflag]
    simp [hop]
  cases op with
  | opened wait =>
    apply hsame (by simp)
    show (c.onOpen wait).uploadFlushed = _
    unfold onOpen
    split <;> rfl
  | upload job payload =>
    apply hsame (by simp)
    show ((c.beginUpload job payload).toOption.getD c).uploadFlushed = _
    cases hafter : c.beginUpload job payload with
    | error cause => rfl
    | ok after =>
      obtain ⟨-, rfl⟩ := beginUpload_ok hafter
      rfl
  | polled => exact hsame (by simp) rfl
  | frame frame => exact hsame (by simp) (uploadFlushed_onFrame h frame)
  | flushed =>
    show c.onFlushed.uploadFlushed = true ↔ _
    unfold onFlushed
    split
    · rename_i hflushed
      simp [hflushed]
    · rename_i hflushed
      simp [hflushed]
  | closed reason =>
    apply hsame (by simp)
    show (c.onClosed reason).uploadFlushed = _
    unfold onClosed
    split <;> rfl
  | taken => exact hsame (by simp) rfl

/-- A conversation that is uploading after a frame was not so before. -/
theorem not_uploading_onFrame (h : Sound c) (frame : Frame) : (c.onFrame frame).state ≠ .uploading := by
  have hreaction := reaction_onFrame h frame
  generalize c.onFrame frame = after at hreaction
  cases hreaction with
  | ignored frame hend =>
    intro hstate
    simp [isTerminal, hstate] at hend
  | resumed => simp
  | answered text header total hstate hnone hparse htotal hlimit =>
    rcases (h.buffering_onResponse hstate hnone htotal hlimit).completeIfWhole_cases with hc | hc <;>
      simp [hc]
  | collected data header hbuffering hroom =>
    rcases (hbuffering.append hroom).completeIfWhole_cases with hc | hc <;> rw [hc]
    · simp [hbuffering.state]
    · simp
  | failed => simp [fail]

theorem not_uploading_onClosed (reason : String) : (c.onClosed reason).state ≠ .uploading := by
  unfold onClosed
  split
  · rename_i hend
    intro hstate
    simp [isTerminal, hstate] at hend
  · simp [fail]

/-- As long as nothing comes from the worker, an uploading conversation hands out what is in its
outbox, and goes on uploading until the upload is flushed. -/
theorem perform_uploading (h : Sound c) (hstate : c.state = .uploading) (op : WorkerOp)
    (hquiet : ¬ op.FromWorker) : c.framesOf op ++ (c.perform op).outbox = c.outbox ∧
      ((c.perform op).state = .uploading ∨ (c.perform op).uploadFlushed = true) := by
  cases op with
  | opened wait =>
    have hsame : c.perform (.opened wait) = c := if_neg (by simp [hstate])
    rw [hsame]
    exact ⟨rfl, .inl hstate⟩
  | upload job payload =>
    have hrefused : c.beginUpload job payload = .error (.notReady c.state) :=
      if_pos (by simp [hstate])
    have hsame : c.perform (.upload job payload) = c := by
      show (c.beginUpload job payload).toOption.getD c = c
      rw [hrefused]
      rfl
    rw [hsame]
    exact ⟨rfl, .inl hstate⟩
  | polled =>
    refine ⟨?_, .inl hstate⟩
    show c.outbox.head?.toList ++ c.outbox.tail = c.outbox
    cases c.outbox <;> rfl
  | frame frame => exact absurd trivial hquiet
  | flushed =>
    by_cases hempty : c.outbox = []
    · refine ⟨?_, .inr ((uploadFlushed_perform h .flushed).mpr (.inr ⟨rfl, hstate, hempty⟩))⟩
      show c.onFlushed.outbox = c.outbox
      unfold onFlushed
      split <;> rfl
    · have hsame : c.perform .flushed = c := if_neg fun hflushed => hempty hflushed.2
      rw [hsame]
      exact ⟨rfl, .inl hstate⟩
  | closed reason => exact absurd trivial hquiet
  | taken => exact ⟨rfl, .inl hstate⟩

/-- A conversation begins to upload when an upload is accepted, and goes on as long as nothing comes
from the worker. -/
theorem uploading_perform (h : Sound c) (op : WorkerOp) (hstate : (c.perform op).state = .uploading) :
    (∃ job payload, op = .upload job payload ∧ (c.beginUpload job payload).isOk = true ∧
        (c.perform op).outbox = c.outbox ++ jobFrames job payload) ∨
      c.state = .uploading ∧ ¬ op.FromWorker := by
  cases op with
  | opened wait =>
    right
    change (c.onOpen wait).state = .uploading at hstate
    unfold onOpen at hstate
    split at hstate
    · cases wait <;> simp at hstate
    · exact ⟨hstate, id⟩
  | upload job payload =>
    change ((c.beginUpload job payload).toOption.getD c).state = .uploading at hstate
    cases hafter : c.beginUpload job payload with
    | error cause =>
      rw [hafter] at hstate
      exact .inr ⟨hstate, id⟩
    | ok after =>
      refine .inl ⟨job, payload, rfl, by rw [hafter]; rfl, ?_⟩
      show ((c.beginUpload job payload).toOption.getD c).outbox = _
      obtain ⟨-, rfl⟩ := beginUpload_ok hafter
      rw [hafter]
      rfl
  | polled => exact .inr ⟨hstate, id⟩
  | frame frame => exact absurd hstate (not_uploading_onFrame h frame)
  | flushed =>
    right
    change c.onFlushed.state = .uploading at hstate
    unfold onFlushed at hstate
    split at hstate
    · simp at hstate
    · exact ⟨hstate, id⟩
  | closed reason => exact absurd hstate (not_uploading_onClosed reason)
  | taken => exact .inr ⟨hstate, id⟩

/-! ## Runs -/

theorem uploads_append (c : WorkerConversation) (ops ops' : List WorkerOp) :
    c.uploads (ops ++ ops') = c.uploads ops ++ (c.performAll ops).uploads ops' := by
  induction ops generalizing c with
  | nil => rfl
  | cons op rest ih =>
    rw [List.cons_append, uploads, uploads, ih, List.append_assoc]
    rfl

/-- In a run the upload becomes flushed by a flush that finds it going on with nothing left to hand
out. -/
theorem uploadFlushed_performAll (h : Sound c) (ops : List WorkerOp) :
    (c.performAll ops).uploadFlushed = true ↔ c.uploadFlushed = true ∨
      ∃ before rest, ops = before ++ .flushed :: rest ∧
        (c.performAll before).state = .uploading ∧ (c.performAll before).outbox = [] := by
  induction ops generalizing c with
  | nil => simp
  | cons op rest ih =>
    rw [performAll_cons, ih (h.perform op), uploadFlushed_perform h op, or_assoc]
    apply or_congr_right
    constructor
    · rintro (⟨rfl, hflush⟩ | ⟨before, rest, rfl, hflush⟩)
      · exact ⟨[], rest, rfl, hflush⟩
      · exact ⟨op :: before, rest, rfl, hflush⟩
    · rintro ⟨before, after, hops, hflush⟩
      -- the flush is the first operation or comes later
      cases before with
      | nil =>
        rw [List.nil_append, List.cons.injEq] at hops
        exact .inl ⟨hops.1, hflush⟩
      | cons first before =>
        rw [List.cons_append, List.cons.injEq] at hops
        obtain ⟨rfl, hrest⟩ := hops
        exact .inr ⟨before, after, hrest, hflush⟩

/-- Before an upload is accepted, nothing is handed out. -/
theorem handedOut_of_accepted {before : List WorkerOp} {job : JobEnvelope} {payload : Bytes}
    (h : ((fresh.performAll before).beginUpload job payload).isOk = true) :
    fresh.handedOut before = [] := by
  obtain ⟨-, hout⟩ | ⟨first, source, hfirst, -⟩ := idle_fresh.uploads before
  · exact hout
  · -- an upload before this one would be a second one
    have htwo : fresh.uploads (before ++ [.upload job payload]) =
        [(first, source), (job, payload)] := by
      rw [uploads_append, hfirst, uploads, uploadsOf, if_pos h]
      rfl
    obtain ⟨hnone, -⟩ | ⟨only, _, honly, -⟩ :=
      idle_fresh.uploads (before ++ [.upload job payload])
    · rw [hnone] at htwo
      cases htwo
    · rw [honly] at htwo
      cases htwo

/-- A conversation that is uploading has accepted an upload, since when nothing has come from the
worker; what it has handed out and what is left are the frames of this job. -/
theorem uploading_of_run (ops : List WorkerOp) (hstate : (fresh.performAll ops).state = .uploading) :
    ∃ before job payload quiet, ops = before ++ .upload job payload :: quiet ∧
      ((fresh.performAll before).beginUpload job payload).isOk = true ∧
      (∀ op ∈ quiet, ¬ op.FromWorker) ∧
      fresh.handedOut ops ++ (fresh.performAll ops).outbox = jobFrames job payload := by
  induction ops using List.reverseRecOn with
  | nil => simp [fresh] at hstate
  | append_singleton ops op ih =>
    have hsound := sound_fresh.performAll ops
    rw [performAll_append, performAll_cons, performAll_nil] at hstate ⊢
    rw [handedOut_append]
    obtain ⟨job, payload, rfl, haccepted, houtbox⟩ | ⟨huploading, hquiet⟩ :=
      uploading_perform hsound op hstate
    · refine ⟨ops, job, payload, [], rfl, haccepted, by simp, ?_⟩
      have hearly : (fresh.performAll ops).outbox = [] := by
        apply hsound.outbox_eq_nil
        intro huploading
        unfold beginUpload at haccepted
        rw [if_pos (by simp [huploading])] at haccepted
        cases haccepted
      rw [handedOut_of_accepted haccepted, houtbox, hearly]
      rfl
    · obtain ⟨before, job, payload, quiet, hops, haccepted, hbefore, hframes⟩ := ih huploading
      refine ⟨before, job, payload, quiet ++ [op], ?_, haccepted, ?_, ?_⟩
      · rw [hops, List.append_assoc]
        rfl
      · intro other hother
        rw [List.mem_append, List.mem_singleton] at hother
        rcases hother with hother | rfl
        · exact hbefore other hother
        · exact hquiet
      · show fresh.handedOut ops ++ ((fresh.performAll ops).framesOf op ++ []) ++ _ = _
        rw [List.append_nil, List.append_assoc, (perform_uploading hsound huploading op hquiet).1,
          hframes]

/-- From the upload on, as long as nothing comes from the worker, the upload is flushed or going on,
with the rest of its frames in the outbox. -/
theorem quiet_run (h : Sound c) (hstate : c.state = .uploading) (quiet : List WorkerOp)
    (hquiet : ∀ op ∈ quiet, ¬ op.FromWorker) : (c.performAll quiet).uploadFlushed = true ∨
      (c.performAll quiet).state = .uploading ∧
        c.handedOut quiet ++ (c.performAll quiet).outbox = c.outbox := by
  induction quiet generalizing c with
  | nil => exact .inr ⟨hstate, rfl⟩
  | cons op rest ih =>
    have hsound := h.perform op
    obtain ⟨hframes, huploading | hflushed⟩ :=
      perform_uploading h hstate op (hquiet op List.mem_cons_self)
    · obtain hflushed | ⟨hlast, hrest⟩ :=
        ih hsound huploading fun other hother => hquiet other (List.mem_cons_of_mem _ hother)
      · exact .inl hflushed
      · refine .inr ⟨hlast, ?_⟩
        rw [handedOut, List.append_assoc, performAll_cons, hrest, hframes]
    · exact .inl ((uploadFlushed_performAll hsound rest).mpr (.inl hflushed))

/-- An upload that was flushed in time counts as flushed. -/
theorem FlushedInTime.uploadFlushed {ops : List WorkerOp} (h : FlushedInTime ops) :
    (fresh.performAll ops).uploadFlushed = true := by
  obtain ⟨before, job, payload, quiet, rest, rfl, haccepted, hquiet, hout⟩ := h
  have hsound := sound_fresh.performAll before
  obtain ⟨after, hafter⟩ : ∃ after, (fresh.performAll before).beginUpload job payload = .ok after := by
    cases hbegun : (fresh.performAll before).beginUpload job payload with
    | error cause =>
      rw [hbegun] at haccepted
      cases haccepted
    | ok after => exact ⟨after, rfl⟩
  have hperformed : (fresh.performAll before).perform (.upload job payload) = after := by
    show ((fresh.performAll before).beginUpload job payload).toOption.getD _ = after
    rw [hafter]
    rfl
  have huploaded := hsound.beginUpload hafter
  obtain ⟨hconnected, hframes⟩ := beginUpload_ok hafter
  have hstate : after.state = .uploading := by rw [hframes]
  have houtbox : after.outbox = jobFrames job payload := by
    rw [hframes, hsound.outbox_eq_nil (by simp [hconnected])]
    rfl
  rw [handedOut_append, handedOut_of_accepted haccepted, List.nil_append, handedOut, hperformed] at hout
  rw [performAll_append, performAll_cons, hperformed, performAll_append, performAll_cons]
  have hlast := huploaded.performAll quiet
  apply (uploadFlushed_performAll (hlast.perform .flushed) rest).mpr
  left
  apply (uploadFlushed_perform hlast .flushed).mpr
  obtain hflushed | ⟨huploading, hleft⟩ := quiet_run huploaded hstate quiet hquiet
  · exact .inl hflushed
  · refine .inr ⟨rfl, huploading, ?_⟩
    -- all frames were handed out, so that none is left
    have hlength := congrArg List.length hleft
    have hall : after.handedOut quiet = jobFrames job payload := hout
    rw [List.length_append, hall, houtbox] at hlength
    exact List.eq_nil_of_length_eq_zero (by omega)

theorem FlushedInTime.of_uploadFlushed {ops : List WorkerOp}
    (h : (fresh.performAll ops).uploadFlushed = true) : FlushedInTime ops := by
  obtain hfresh | ⟨pre, rest, rfl, hstate, houtbox⟩ := (uploadFlushed_performAll sound_fresh ops).mp h
  · cases hfresh
  · obtain ⟨before, job, payload, quiet, hpre, haccepted, hquiet, hframes⟩ :=
      uploading_of_run pre hstate
    refine ⟨before, job, payload, quiet, rest, ?_, haccepted, hquiet, ?_⟩
    · rw [hpre, List.append_assoc]
      rfl
    · rw [← hpre, ← hframes, houtbox, List.append_nil]

/-- An upload counts as flushed exactly if it was flushed in time: after all its frames were handed
out, and before anything came from the worker. So it never counts as flushed before the whole job was
handed out, the envelope and, unless it is empty, the source. -/
theorem uploadFlushed_iff (ops : List WorkerOp) :
    ((fresh.performAll ops).uploadFlushed = true ↔ FlushedInTime ops) ∧
      ((fresh.performAll ops).uploadFlushed = true → ∃ job payload,
        fresh.uploads ops = [(job, payload)] ∧ fresh.handedOut ops =
          .text job.encode :: if payload = [] then [] else [.binary payload]) := by
  refine ⟨⟨.of_uploadFlushed, fun h => h.uploadFlushed⟩, fun hflushed => ?_⟩
  obtain ⟨before, job, payload, quiet, rest, hops, haccepted, -, hout⟩ :=
    FlushedInTime.of_uploadFlushed hflushed
  -- this upload is the only one of the run, whose frames bound what is handed out
  have hmem : (job, payload) ∈ fresh.uploads ops := by
    rw [hops, uploads_append, uploads, uploadsOf, if_pos haccepted]
    simp
  have hstart : jobFrames job payload <+: fresh.handedOut ops := by
    have hsplit : ops = (before ++ .upload job payload :: quiet) ++ .flushed :: rest := by
      rw [hops, List.append_assoc]
      rfl
    rw [hsplit, handedOut_append, hout]
    exact List.prefix_append _ _
  obtain ⟨hnone, -⟩ | ⟨only, source, honly, -, hbound⟩ := idle_fresh.uploads ops
  · rw [hnone] at hmem
    cases hmem
  · rw [honly, List.mem_singleton, Prod.mk.injEq] at hmem
    obtain ⟨rfl, rfl⟩ := hmem
    refine ⟨job, payload, honly, ?_⟩
    have hall := hbound.eq_of_length_le hstart.length_le
    rw [hall, jobFrames]
    simp only [List.isEmpty_iff]

/-- A header that arrives between the last frame and its flush: the whole job was handed out and
flushed, and does not count as flushed. -/
theorem uploadFlushed_missed_early :
    let job : JobEnvelope := ⟨["-c"], "cc", false, 1⟩
    let header := (WorkerMessage.response ⟨true, 0, [⟨.stdout, 3, none⟩]⟩).encode
    let ops : List WorkerOp :=
      [.opened false, .upload job [7], .polled, .polled, .frame (.text header)]
    fresh.uploads ops = [(job, [7])] ∧ fresh.handedOut ops = [.text job.encode, .binary [7]] ∧
      (fresh.performAll ops).state = .awaitingResult ∧
      (fresh.performAll (ops ++ [.flushed])).uploadFlushed = false := by
  decide +kernel

end WorkerConversation

end Offload
