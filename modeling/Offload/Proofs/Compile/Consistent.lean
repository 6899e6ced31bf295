import Offload.Proofs.Compile.Files
import Offload.Proofs.Compile.Order

/-!
# What no attempt is given up for

However scheduler, worker, preprocessor and watchdog behave, no compile is given up for a reason
that would show the client inconsistent (`compile_consistent`). Each phase of an attempt leaves it
in the order that the next one needs. Before the upload a worker cannot be done, so that what is
waited for has come when a wait ends; the source that is uploaded has the length that is announced;
and after the upload a worker that is done has a result. A compile that does not end has no reason at all,
so nothing is said of it.
-/

namespace Offload

open Relation Multiplexer

variable {ω κ : Type}

section Steps

variable [Channel κ] [Collaborators ω κ] {surroundings : ω} {V : Option WorkerConversation → Prop}
  {run after : CompileRun ω κ}

namespace Attempt

/-! ## The scheduler -/

/-- The beginning of an attempt puts it in order. -/
theorem orderly_begin {request : CompileRequest} (hfit : SourcesFit run.parts.surroundings)
    (hrun : run.Unstarted request.config) :
    Orderly run (fun _ => begin request)
      (fun _ after => after.InOrder run.parts.surroundings fun _ => True) := by
  let started : CompileRun ω κ := { run with parts := run.parts.startWatchdog }
  let watched := started.addSource Parts.watchdogSource
  let launched : CompileRun ω κ := { watched with parts := { watched.parts with
    surroundings := Collaborators.startPreprocessor watched.parts.surroundings request.invocation
    preprocessor := .running } }
  let known := launched.addSource Parts.preprocessorSource
  have hsources : watched.mux.sources = [(run.mux.nextId, Parts.watchdogSource)] := by
    show run.mux.sources ++ _ = _
    rw [hrun.sources]
    rfl
  have hlaunched : launched.InOrder run.parts.surroundings fun _ => True := by
    refine ⟨⟨?_, run.mux.nextId, ?_⟩, ?_, by simp [Preprocessor.Fits, launched], ?_, trivial⟩
    · intro source hsource
      change source ∈ watched.mux.sources at hsource
      rw [hsources, List.mem_singleton] at hsource
      rw [hsource]
      exact .watchdog
    · show _ ∈ watched.mux.sources
      rw [hsources]
      exact List.mem_singleton_self _
    · exact .tail (.single (.clock _)) (.startPreprocessor _ request.invocation)
    · intro c hc
      change run.parts.scheduler = some c at hc
      rw [hrun.scheduler] at hc
      cases hc
  have hknown : known.InOrder run.parts.surroundings fun _ => True :=
    hlaunched.addSource .preprocessor
  -- the preprocessor is polled at once
  let polled : CompileRun ω κ := { known with parts := known.parts.pollPreprocessor.2 }
  have hpolled : polled.InOrder run.parts.surroundings fun _ => True := by
    have hmoves : ReflTransGen (Move False) known polled :=
      Move.of_parts known (moves_pollPreprocessor known.parts)
    exact ⟨hknown.watched, (kept_asked _).moves hmoves hknown.asked,
      fits_pollPreprocessor hfit hknown.asked hknown.fits,
      (kept_schedulerIs SchedulerConversation.keptByTalk_coherent).moves hmoves hknown.scheduler,
      trivial⟩
  have hbegin : (begin request).result run = checkPreprocessor.result polled := rfl
  have hcheck := orderly_checkPreprocessor polled
  refine ⟨fun rounds a after hresult => ?_, fun rounds why after hresult => ?_, False.elim⟩
  · rw [hbegin] at hresult
    obtain ⟨rfl, -⟩ := hcheck.success rounds a after hresult
    exact hpolled
  · rw [hbegin] at hresult
    exact hcheck.failure rounds why after hresult

theorem orderly_greetScheduler (hrun : run.InOrder surroundings V) (client : String) (channel : κ) :
    Orderly run (fun _ => greetScheduler client channel)
      (fun _ after => after.InOrder surroundings V) := by
  let conversation := (SchedulerConversation.ofClient client).onOpen
  let met : CompileRun ω κ :=
    { run with parts := { run.parts with scheduler := some (.ofChannel channel conversation) } }
  have hmet : met.InOrder surroundings V :=
    ⟨hrun.watched, hrun.asked, hrun.fits, fun c hc => by
      obtain rfl := Option.some.inj hc
      exact SchedulerConversation.coherent_onOpen client, hrun.worker⟩
  have hresult : (greetScheduler client channel).result run
      = (.ok (), met.addSource Parts.schedulerSource) := rfl
  exact .of_ok hresult (hmet.addSource .scheduler)

theorem orderly_acquireWorker (hfit : SourcesFit surroundings) (hV : KeptOnceMet V)
    (hrun : run.InOrder surroundings V) (request : CompileRequest) (source : String) :
    Orderly run (fun rounds => acquireWorker rounds request source)
      (fun _ after => after.InOrder surroundings V) := by
  refine .bind (orderly_identify hrun _) fun environment after hafter => ?_
  refine .bind (orderly_connect hafter _ fun _ => rfl) fun accepted after hafter => ?_
  refine .bind (Q := fun _ later => later.InOrder surroundings V)
    (.of_ok (a := ()) rfl (hafter.enter (by decide))) fun _ after hafter => ?_
  refine .bind (orderly_greetScheduler hafter _ _) fun _ after hafter => ?_
  refine .bind (orderly_await hfit hV hafter _) fun _ after hafter => ?_
  refine (orderly_assignment hafter.1 hafter.2).mono ?_ fun _ _ h => h
  rintro worker _ rfl
  exact hafter.1

/-! ## The worker -/

theorem orderly_greetWorker (hrun : run.InOrder surroundings V) (channel : κ) (wait : Bool) :
    Orderly run (fun _ => greetWorker channel wait)
      (fun _ after => after.InOrder surroundings (Met (WorkerConversation.Unsent True))) := by
  let met : CompileRun ω κ := { run with parts := { run.parts with
    worker := some (.ofChannel channel (WorkerConversation.fresh.onOpen wait)) } }
  have hmet : met.InOrder surroundings (Met (WorkerConversation.Unsent True)) :=
    hrun.withWorker ⟨_, rfl, WorkerConversation.unsent_onOpen wait⟩
  have hresult : (greetWorker channel wait).result run
      = (.ok (), met.addSource Parts.workerSource) := rfl
  exact .of_ok hresult (hmet.addSource .worker)

/-- Before the upload a conversation that has not failed goes on: what was waited for has come. -/
theorem reached_of_unsent {waits : Prop} {aim : Parts ω κ → Bool}
    (hrun : run.InOrder surroundings (Met (WorkerConversation.Unsent waits)))
    (haim : (aim run.parts || run.parts.workerIs WorkerConversation.isTerminal) = true)
    (hopen : run.parts.workerIs (fun c => c.state = .failed) = false) :
    aim run.parts = true ∧ ∃ c, run.parts.worker = some c ∧ c.conversation.response = none ∧
      (waits ∧ c.conversation.state = .awaitingWaitAck ∨ c.conversation.state = .connected) := by
  obtain ⟨c, hc, hunsent, hfailed⟩ := hrun.exists_worker hopen
  have hstate : waits ∧ c.conversation.state = .awaitingWaitAck ∨
      c.conversation.state = .connected := by
    rcases hunsent.state with hwaiting | hconnected | hlost
    · exact .inl hwaiting
    · exact .inr hconnected
    · exact absurd hlost hfailed
  refine ⟨?_, c, hc, hunsent.response, hstate⟩
  rcases (Bool.or_eq_true _ _).mp haim with haim | hterminal
  · exact haim
  · -- a conversation that is done was uploaded to
    rcases hstate with ⟨-, hstate⟩ | hstate <;>
      simp [Parts.workerIs, hc, WorkerConversation.isTerminal, hstate] at hterminal

/-- A worker that is clear to upload holds the upload back no longer. -/
theorem orderly_awaitClear (hfit : SourcesFit surroundings)
    (hrun : run.InOrder surroundings (Met (WorkerConversation.Unsent True))) :
    Orderly run
      (fun rounds => awaitWorker rounds (Parts.workerIs WorkerConversation.isClearToUpload))
      (fun _ after => after.InOrder surroundings (Met (WorkerConversation.Unsent False))) := by
  refine (orderly_awaitWorker hfit (WorkerConversation.keptByTalk_unsent True).met hrun _).mono ?_
    fun _ _ h => h
  rintro _ after ⟨hafter, haim, hopen⟩
  obtain ⟨hclear, c, hc, hresponse, -⟩ := reached_of_unsent hafter haim hopen
  have hstate : c.conversation.state = .connected := by
    simpa [Parts.workerIs, hc, WorkerConversation.isClearToUpload] using hclear
  -- so whether the worker holds the upload back need not be considered any more
  refine { hafter with worker := ⟨c.conversation, ?_, hresponse, .inr (.inl hstate)⟩ }
  rw [Parts.conversation, hc]
  rfl

/-- A preprocessor that has ended, and not badly, leaves a source. -/
theorem orderly_preprocessedSource (hrun : run.InOrder surroundings V)
    (hended : run.parts.preprocessorEnded = true)
    (hwell : ∀ cause, run.parts.preprocessor ≠ .ended (.error cause)) :
    Orderly run (fun _ => preprocessedSource)
      (fun payload after => after = run ∧ payload.length < UInt64.size) := by
  obtain ⟨result, hresult⟩ : ∃ result, run.parts.preprocessor = .ended (.ok result) := by
    unfold Parts.preprocessorEnded at hended
    split at hended
    · rename_i answer hanswer
      cases answer with
      | error cause => exact absurd hanswer (hwell cause)
      | ok result => exact ⟨result, hanswer⟩
    · cases hended
  have hsource : preprocessedSource.result run = (.ok result.stdout, run) := by
    unfold preprocessedSource
    rw [Step.result_bind_of_ok (Step.result_get run), hresult]
    rfl
  exact .of_ok hsource ⟨rfl, hrun.fits result hresult⟩

/-- A connected worker takes a job that announces its payload, and is not done before it answers. -/
theorem orderly_beginUpload (hrun : run.InOrder surroundings V)
    {c : Connection κ WorkerConversation} (hc : run.parts.worker = some c)
    (hstate : c.conversation.state = .connected) (name : String) {job : JobEnvelope}
    {payload : Bytes} (hsize : job.bytes.toNat = payload.length) :
    Orderly run (fun _ => beginUpload name job payload)
      (fun _ after => after.InOrder surroundings (Met WorkerConversation.Answered)) := by
  obtain ⟨begun, hbegun, hbusy⟩ := WorkerConversation.beginUpload_of_connected hstate hsize
  let after : CompileRun ω κ :=
    { run with parts := { run.parts with worker := some { c with conversation := begun } } }
  have hresult : (beginUpload name job payload).result run = (.ok (), after) := by
    unfold beginUpload
    rw [Step.result_bind_of_ok (Step.result_get run), hc]
    simp only [hbegun]
    rfl
  have hanswered : begun.Answered := WorkerConversation.answered_of_ne (by simp [hbusy])
  exact .of_ok hresult (hrun.withWorker ⟨begun, rfl, hanswered⟩)

theorem orderly_upload (hfit : SourcesFit surroundings)
    (hrun : run.InOrder surroundings (Met (WorkerConversation.Unsent True)))
    (request : CompileRequest) (worker : Assignment) (wait : Bool) :
    Orderly run (fun rounds => upload rounds request worker wait)
      (fun _ after => after.InOrder surroundings (Met WorkerConversation.Answered)) := by
  refine .bind (orderly_awaitClear hfit hrun) fun _ after hafter => ?_
  refine .bind (orderly_awaitWorker hfit (WorkerConversation.keptByTalk_unsent False).met hafter _)
    fun _ after hafter => ?_
  obtain ⟨hafter, haim, hopen⟩ := hafter
  obtain ⟨hended, c, hc, -, hstate⟩ := reached_of_unsent hafter haim hopen
  have hconnected : c.conversation.state = .connected := by simpa using hstate
  refine .bind (orderly_checkPreprocessor after) fun _ checked hchecked => ?_
  obtain ⟨rfl, hwell⟩ := hchecked
  refine .bind (orderly_preprocessedSource hafter hended hwell) fun payload _ hsource => ?_
  obtain ⟨rfl, hfits⟩ := hsource
  have hsize : (envelope request worker wait payload).bytes.toNat = payload.length :=
    UInt64.toNat_ofNat_of_lt hfits
  refine .bind (orderly_beginUpload hafter hc hconnected _ hsize) fun _ after hafter => ?_
  exact (orderly_awaitWorker hfit WorkerConversation.keptByTalk_answered.met hafter _).mono
    (fun _ _ h => h.1) fun _ _ h => h

/-! ## The result -/

/-- A worker whose conversation has ended well has a result. -/
theorem orderly_takeResult (hrun : run.InOrder surroundings (Met WorkerConversation.Answered))
    (hterminal : run.parts.workerIs WorkerConversation.isTerminal = true)
    (hopen : run.parts.workerIs (fun c => c.state = .failed) = false) (name : String) :
    Orderly run (fun _ => takeResult name) (fun _ _ => True) := by
  obtain ⟨c, hc, hanswered, hfailed⟩ := hrun.exists_worker hopen
  have hdone : c.conversation.state = .done := by
    simpa [Parts.workerIs, hc, WorkerConversation.isTerminal, hfailed] using hterminal
  obtain ⟨result, hresult⟩ := Option.isSome_iff_exists.mp (hanswered hdone)
  have htaken : (run.parts.worker.bind fun c => c.conversation.result) = some result := by
    rw [hc]
    exact hresult
  have hanswer := fst_result_takeResult name htaken
  refine ⟨fun _ _ _ _ => trivial, fun _ why after hwhy => ?_, False.elim⟩
  rw [hwhy] at hanswer
  split at hanswer
  · rw [Except.error.inj hanswer]
    exact Abandon.consistent_fallback rfl
  · cases hanswer

/-- Delivering fails only where a file cannot be written, or by waiting for the scheduler to be left. -/
theorem orderly_deliver (run : CompileRun ω κ) (inv : Invocation) (result : JobResult) :
    Orderly run (fun rounds => deliver rounds inv result) (fun _ _ => True) := by
  simp only [deliver_eq]
  refine .bind (Q := fun _ _ => True) ?_ fun _ after _ =>
    (leads_present (Q := fun _ => True) result fun _ => trivial).mono (fun _ _ _ => trivial) ?_
  case refine_2 =>
    rintro why last ⟨rfl, -⟩
    exact Abandon.consistent_stalled
  rcases written_or_refused inv run.files result.files with ⟨last, hwritten⟩ |
    ⟨done, file, rest, last, reason, hfiles, hwritten, hrefused⟩
  · exact .of_ok (result_writeFiles hwritten) trivial
  · rw [hfiles]
    refine .of_error (result_writeFiles_refused hwritten hrefused) ?_ (by simp)
    refine Abandon.consistent_fallback ?_
    cases hrefused with
    | noObjectPath _ => rfl
    | unwritable _ _ => rfl

/-! ## The whole -/

/-- An attempt to compile one source is given up only for a reason that there can be. -/
theorem orderly_remote {request : CompileRequest} {source : String}
    (hsource : request.invocation.sourceFile? = some source)
    (hfit : SourcesFit run.parts.surroundings) (hrun : run.Unstarted request.config) :
    Orderly run (fun rounds => remote rounds request) (fun _ _ => True) := by
  unfold remote
  rw [hsource]
  have hno : KeptOnceMet fun _ : Option WorkerConversation => True := fun _ _ _ _ => trivial
  refine .bind (orderly_begin hfit hrun) fun _ after hafter => ?_
  refine .bind (orderly_acquireWorker hfit hno hafter request source) fun worker after hafter => ?_
  refine .bind (orderly_checkPreprocessor after) fun _ checked hchecked => ?_
  obtain ⟨rfl, -⟩ := hchecked
  refine .bind (Q := fun _ later => later.InOrder run.parts.surroundings _)
    (.of_ok (a := ()) rfl (hafter.enter (by decide))) fun _ after hafter => ?_
  refine .bind (orderly_connect hafter _ fun _ => rfl) fun accepted after hafter => ?_
  -- from here on there is a worker
  refine .bind (orderly_greetWorker hafter _ _) fun _ after hafter => ?_
  refine .bind (orderly_upload hfit hafter request worker _) fun _ after hafter => ?_
  refine .bind (Q := fun _ later => later.InOrder run.parts.surroundings _)
    (.of_ok (a := ()) rfl (hafter.enter (by decide))) fun _ after hafter => ?_
  refine .bind (orderly_awaitWorker hfit WorkerConversation.keptByTalk_answered.met hafter _)
    fun _ after hafter => ?_
  obtain ⟨hafter, hterminal, hopen⟩ := hafter
  refine .bind (orderly_takeResult hafter (by simpa using hterminal) hopen _)
    fun result after _ => ?_
  refine .bind (orderly_deliver after _ result) fun _ after _ => ?_
  exact .of_ok (Step.result_pure _ after) trivial

end Attempt

end Steps

/-! ## A compile -/

section Compile

variable [Channel κ] [Collaborators ω κ] {request : CompileRequest} {run : CompileRun ω κ}

/-- A compile in which nothing was given up, and which was not done here, for a reason that would
show the client inconsistent. -/
structure ConsistentEnd (ended : CompileEnd × CompileRun ω κ) : Prop where
  gaveUp : ∀ reason, Deed.gaveUp reason ∈ ended.2.deeds → reason.isInconsistent = false
  onHost : ∀ code reason, ended.1 = some (.ok ⟨code, .onHost (.fallback reason)⟩) →
    reason.isInconsistent = false

/-- This host takes over for a reason that there can be. -/
def LocalCause.Consistent (cause : LocalCause) : Prop :=
  ∀ reason, cause = .fallback reason → reason.isInconsistent = false

omit [Channel κ] [Collaborators ω κ] in
theorem gaveUp_mem_milestones {reason : Fallback} (h : Deed.gaveUp reason ∈ run.deeds) :
    Deed.gaveUp reason ∈ run.milestones := List.mem_filter.mpr ⟨h, rfl⟩

omit [Channel κ] [Collaborators ω κ] in
/-- Before a compile on this host nothing was given up but for its cause. -/
theorem LocalCause.Consistent.gaveUp {cause : LocalCause} (hcause : cause.Consistent)
    (hrun : run.milestones = cause.abandonment) {reason : Fallback}
    (h : Deed.gaveUp reason ∈ run.deeds) : reason.isInconsistent = false := by
  have habandoned : Deed.gaveUp reason ∈ cause.abandonment := hrun ▸ gaveUp_mem_milestones h
  cases cause with
  | fallback given =>
    have hgiven : reason = given := by simpa [LocalCause.abandonment] using habandoned
    rw [hgiven]
    exact hcause given rfl
  | _ => simp [LocalCause.abandonment] at habandoned

omit [Channel κ] in
/-- The compiler on this host gives nothing up. -/
theorem consistentEnd_compileIn {cause : LocalCause} (hcause : cause.Consistent)
    (hrun : run.milestones = cause.abandonment) (permit : Permit) :
    ConsistentEnd (run.compileIn request cause permit) := by
  unfold CompileRun.compileIn
  rcases hanswer : Collaborators.runCompiler run.parts.surroundings request.invocation.args
    run.files with ⟨answer, files, surroundings⟩
  let noted := (run.withSurroundings surroundings).note (.compiled request.invocation.args .compile)
  have hdeeds : ∀ reason, Deed.gaveUp reason ∈ noted.deeds → reason.isInconsistent = false := by
    intro reason hreason
    have hbefore : Deed.gaveUp reason ∈ run.deeds := by
      simpa [noted, CompileRun.note, CompileRun.withSurroundings] using hreason
    exact hcause.gaveUp hrun hbefore
  dsimp only
  rw [hanswer]
  -- the compiler does not end, cannot be run, or ends with a code
  rcases answer with _ | error | code
  · exact ⟨hdeeds, by simp⟩
  · exact ⟨hdeeds, by simp⟩
  · refine ⟨hdeeds, fun other reason h => ?_⟩
    obtain ⟨-, hreason⟩ : code = other ∧ cause = .fallback reason := by simpa using h
    exact hcause reason hreason

omit [Channel κ] in
theorem consistentEnd_compileHere {cause : LocalCause} (hcause : cause.Consistent)
    (hrun : run.milestones = cause.abandonment) :
    ConsistentEnd (run.compileHere request cause) := by
  unfold CompileRun.compileHere
  cases hslot : run.awaitSlot with
  | none => exact ⟨fun _ hreason => hcause.gaveUp hrun hreason, by simp⟩
  | some given =>
    have hgiven : given.2.milestones = cause.abandonment := by
      obtain ⟨_, _, _, -, hafter⟩ := CompileRun.eq_of_awaitSlot hslot
      rw [hafter, ← hrun]
      rfl
    exact consistentEnd_compileIn hcause hgiven given.1

/-- What an attempt ends with is given up only if the attempt was, and then for its reason. -/
theorem consistentEnd_conclude {start : CompileRun ω κ} (hstart : start.milestones = [])
    (answer : Except Abandon CompileOutcome × CompileRun ω κ)
    (hok : ∀ outcome after, answer = (.ok outcome, after) → Delivered start outcome after)
    (herror : ∀ why after, answer = (.error why, after) →
      Ceased start why after ∧ why.Consistent) :
    ConsistentEnd (CompileRun.conclude request answer) := by
  have hnothing {after : CompileRun ω κ} (h : start.Untouched after) (reason : Fallback) :
      Deed.gaveUp reason ∉ after.deeds := by
    intro hreason
    have habandoned := gaveUp_mem_milestones hreason
    rw [h.milestones, hstart] at habandoned
    cases habandoned
  rcases answer with ⟨why | outcome, after⟩
  · obtain ⟨hceased, hconsistent⟩ := herror why after rfl
    have huntouched := hceased.untouched
    cases why with
    | stalled =>
      exact ⟨fun reason h => absurd h (hnothing huntouched reason), by simp [CompileRun.conclude]⟩
    | tooOld minVersion =>
      exact ⟨fun reason h => absurd h (hnothing (untouched_tearDown huntouched) reason),
        by simp [CompileRun.conclude]⟩
    | fallback reason =>
      have hcause : (LocalCause.fallback reason).Consistent := by
        intro other hother
        exact hconsistent other (congrArg Abandon.fallback (LocalCause.fallback.inj hother))
      have hgaveUp : (after.tearDown.note (.gaveUp reason)).milestones
          = (LocalCause.fallback reason).abandonment := by
        rw [milestones_note, (untouched_tearDown huntouched).milestones, hstart]
        rfl
      exact consistentEnd_compileHere hcause hgaveUp
  · have hdelivered := hok outcome after rfl
    obtain ⟨worker, hworker⟩ := hdelivered.worker
    refine ⟨fun reason h =>
      absurd h (hnothing (untouched_tearDown hdelivered.untouched) reason), fun code reason h => ?_⟩
    -- a worker did it
    have houtcome : outcome = ⟨code, .onHost (.fallback reason)⟩ := by
      simpa [CompileRun.conclude] using h
    rw [houtcome] at hworker
    cases hworker

/-- However scheduler, worker, preprocessor and watchdog behave, no compile is given up, or done on
this host, for a reason that would show the parts of the client not to fit together. The lengths of
the sources that the preprocessor makes are numbers of 64 bits, as lengths in memory are. -/
theorem compile_consistent (request : CompileRequest) (surroundings : ω) (slots : SlotController)
    (semaphores : Semaphores) (files : FileTree) (rounds : Nat) (hfit : SourcesFit surroundings) :
    ConsistentEnd ((CompileRun.fresh (κ := κ) request surroundings slots semaphores files).compile
      rounds request) := by
  let start : CompileRun ω κ := .fresh request surroundings slots semaphores files
  show ConsistentEnd (start.compile rounds request)
  have hforced (reason : ForcedReason) :
      ConsistentEnd (start.compileHere request (.forced reason)) := by
    have hcause : (LocalCause.forced reason).Consistent := by
      intro _ h
      cases h
    exact consistentEnd_compileHere hcause rfl
  rcases hreason : request.forcedReason? with _ | reason
  · -- a worker may be tried, and then there is one source
    obtain ⟨source, hsource⟩ := CompileRequest.sourceFile?_of_free hreason
    rcases compile_cases start request with
      ⟨reason, hcompile⟩ | ⟨permit, taken, left, hcompile⟩ | ⟨refused, -, hcompile⟩
    · rw [hcompile]
      exact hforced reason
    · have hcause : LocalCause.slotFree.Consistent := by
        intro _ h
        cases h
      rw [hcompile]
      exact consistentEnd_compileIn hcause rfl permit
    · have hrefused : CompileRun.Unstarted request.config { start with slots := refused } :=
        ⟨rfl, rfl, rfl⟩
      have hleads := leads_remote hrefused
      have horderly := Attempt.orderly_remote hsource hfit hrefused
      rw [hcompile, compileAway_eq]
      exact consistentEnd_conclude rfl _ (hleads.success rounds) fun why after h =>
        ⟨hleads.failure rounds why after h, horderly.failure rounds why after h⟩
  · have hcompile : start.compile rounds request = start.compileHere request (.forced reason) := by
      unfold CompileRun.compile
      rw [hreason]
    rw [hcompile]
    exact hforced reason

end Compile

/-! ## A preprocessor that fails -/

section Failing

open Scenario

/-- Nothing that is asked of a scripted world changes what its preprocessor makes. -/
theorem preprocessor_of_asked {w later : World} (h : Asked w later) :
    later.preprocessor = w.preprocessor := by
  cases h with
  | connect request =>
    show (w.connect request).2.preprocessor = _
    unfold World.connect
    split <;> rfl
  | idle _ h =>
    obtain rfl := Option.some.inj h
    unfold World.idle
    split <;> rfl
  | _ => rfl

theorem sourcesFit_world {w : World}
    (h : ∀ result, w.preprocessor = some (.ok result) → result.stdout.length < UInt64.size) :
    SourcesFit w := by
  intro later result hlater hpoll
  have hsame : later.preprocessor = w.preprocessor := by
    clear hpoll
    induction hlater with
    | refl => rfl
    | tail _ hlast ih => exact (preprocessor_of_asked hlast).trans ih
  change (if later.preprocessorEnded then later.preprocessor else none) = _ at hpoll
  split at hpoll
  · exact h result (hsame ▸ hpoll)
  · cases hpoll

/-- A world in which the scheduler names a worker, and then the preprocessor fails. -/
def failingWorld : World := { helpfulWorld with preprocessor := some (.ok ⟨1, [35], [119]⟩) }

/-- In such a world an attempt is given up, and this host compiles. -/
theorem compile_consistent_failing :
    let start : CompileRun World PeerChannel :=
      .fresh plainRequest failingWorld unlimitedSlots .none emptyTree
    let ended := start.compile 20 plainRequest
    SourcesFit failingWorld ∧
      ended.1 = some (.ok ⟨0, .onHost (.fallback (.preprocessorExited 1))⟩) ∧
      ConsistentEnd ended := by
  intro start ended
  have hfit : SourcesFit failingWorld := by
    refine sourcesFit_world fun result h => ?_
    have hresult : ⟨1, [35], [119]⟩ = result := Except.ok.inj (Option.some.inj h)
    rw [← hresult]
    decide
  have hended : ended.1 = some (.ok ⟨0, .onHost (.fallback (.preprocessorExited 1))⟩) :=
    eq_of_toOption (by decide +kernel)
  exact ⟨hfit, hended,
    compile_consistent plainRequest failingWorld unlimitedSlots .none emptyTree 20 hfit⟩

end Failing

end Offload