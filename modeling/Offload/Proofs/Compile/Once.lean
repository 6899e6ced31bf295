import Offload.Proofs.Compile.Files
import Offload.Proofs.Compile.Stages
import Offload.Proofs.Compile.Stalling

/-!
# A compile is performed once

Whatever scheduler, worker, preprocessor and compiler do, a compile is done by a worker or on this host, or
the scheduler rejects the client, and no two of these (`Performed`). A worker did it only if the result that
was received from the worker that the scheduler assigned is written and nothing went wrong on the way; if
something did (`Troubled`), then this host does it, once and with all arguments. The scheduler's rejection is
the one failure that ends otherwise.

Not every compile ends: a peer may stay silent while no watchdog runs, the connection to the scheduler may
never be closed, there may never be a slot, and the compiler may run forever. `Performed` says what holds then
as well, and `compile_performed_once` says that there is no other way not to end.
-/

namespace Offload

open Relation

variable {ω κ : Type} [Channel κ] [Collaborators ω κ]

/-! ## How a compile was performed -/

/-- A worker did a compile: of the worker that the scheduler assigned, which is done, a result was received, it
does not report an unexplained failure, and its files are written. The preprocessor ended well, the watchdog
has not fired, and the compiler was not run on this host. -/
structure DoneAway (rounds : Nat) (request : CompileRequest) (start : CompileRun ω κ)
    (worker : Assignment) (result : JobResult) (run : CompileRun ω κ) : Prop where
  received : ∃ tried preprocessed, start.trying? request = some tried ∧
    tried.Receives rounds request (Attempt.workerName worker) preprocessed result ∧
    run.parts.PreprocessedTo preprocessed
  explained : result.isUnexplained = false
  assigned : Attempt.schedulerOutcome? run.parts = some (.assigned worker)
  done : run.parts.workerIs (fun c => c.state = .done) = true
  inTime : run.parts.watchdog.fired = false
  written : Written request.invocation (start.prepared rounds request) result.files run.files
  alone : run.milestones = []

/-- The connection to the scheduler is being closed, and it has not come to that. -/
def CompileRun.StillClosing (rounds : Nat) (run : CompileRun ω κ) : Prop :=
  ∃ written, (Attempt.waitedClosing rounds written).1 = false ∧
    run = Attempt.afterClosing rounds written

/-- How a compile was performed, by its end and the state after it. -/
inductive Performed (rounds : Nat) (request : CompileRequest) (start : CompileRun ω κ) :
    CompileEnd → CompileRun ω κ → Prop
  /-- no worker was tried, and this host did it -/
  | untried (cause : LocalCause) (ended : CompileEnd) (run : CompileRun ω κ)
    (htry : start.trying? request = none) (hcause : ∀ reason, cause ≠ .fallback reason)
    (h : PerformedHere request cause ended run) : Performed rounds request start ended run
  /-- a worker did it -/
  | onWorker (worker : Assignment) (result : JobResult) (run : CompileRun ω κ)
    (h : DoneAway rounds request start worker result run) :
    Performed rounds request start
      (some (.ok ⟨result.exitCode.toInt, .onWorker (Attempt.workerName worker)⟩)) run
  /-- an attempt failed, and this host did it -/
  | fallback (tried after : CompileRun ω κ) (reason : Fallback) (ended : CompileEnd)
    (run : CompileRun ω κ) (htry : start.trying? request = some tried)
    (hfailed : (Attempt.remote rounds request).result tried = (.error (.fallback reason), after))
    (h : PerformedHere request (.fallback reason) ended run) : Performed rounds request start ended run
  /-- the scheduler does not take the client, and nobody did it -/
  | rejected (minVersion : String) (run : CompileRun ω κ) (h : run.parts.Rejected minVersion)
    (halone : run.milestones = []) :
    Performed rounds request start (some (.error (.tooOld minVersion))) run
  /-- a peer is waited for -/
  | waiting (run : CompileRun ω κ) (h : run.parts.Waits) (halone : run.milestones = []) :
    Performed rounds request start none run
  /-- a worker did it, but the scheduler is still to be left -/
  | closing (worker : Assignment) (result : JobResult) (run : CompileRun ω κ)
    (h : DoneAway rounds request start worker result run) (hpending : run.StillClosing rounds) :
    Performed rounds request start none run

/-- What can go wrong with an attempt to compile on a worker, by the state after it. -/
inductive Troubled (rounds : Nat) (request : CompileRequest) (start run : CompileRun ω κ) : Prop
  /-- the watchdog fired -/
  | timeout (h : run.parts.watchdog.fired = true)
  /-- the preprocessor could not be run, or it failed -/
  | preprocessor (answer : Except CompilerError Preprocessed)
    (h : run.parts.preprocessor = .ended answer)
    (hfailed : ∀ result, answer = .ok result → result.succeeded = false)
  /-- the scheduler assigned no worker: it answered otherwise, or not at all, or it was not reached, or the
  compiler was not identified before -/
  | unassigned (h : ∀ worker, Attempt.schedulerOutcome? run.parts ≠ some (.assigned worker))
  /-- the worker was not reached -/
  | unreached (h : run.parts.worker = none)
  | workerFailed (h : run.parts.workerIs (fun c => c.state = .failed) = true)
  /-- the result reports a failure that is none of the compiler's -/
  | unexplained (tried : CompileRun ω κ) (worker : String) (preprocessed : Preprocessed)
    (result : JobResult) (htry : start.trying? request = some tried)
    (h : tried.Receives rounds request worker preprocessed result)
    (hfailed : result.isUnexplained = true)
  /-- not all files of the result can be written -/
  | unwritable (tried : CompileRun ω κ) (worker : String) (preprocessed : Preprocessed)
    (result : JobResult) (htry : start.trying? request = some tried)
    (h : tried.Receives rounds request worker preprocessed result)
    (hfailed : ∀ last, ¬ Written request.invocation (start.prepared rounds request) result.files last)

variable {request : CompileRequest} {rounds : Nat} {start tried run : CompileRun ω κ}

/-- Nothing has gone wrong where a worker did a compile. -/
theorem DoneAway.untroubled {worker : Assignment} {result : JobResult}
    (h : DoneAway rounds request start worker result run) : ¬ Troubled rounds request start run := by
  obtain ⟨tried, preprocessed, htry, hreceives, hpreprocessed⟩ := h.received
  have hsame {other : CompileRun ω κ} {name : String} {before : Preprocessed} {second : JobResult}
      (htry' : start.trying? request = some other)
      (h' : other.Receives rounds request name before second) : second = result := by
    obtain rfl : tried = other := Option.some.inj (htry.symm.trans htry')
    exact h'.result_unique hreceives
  obtain ⟨c, hc, hdone⟩ := (Option.any_eq_true _ _).mp h.done
  intro htrouble
  -- each trouble contradicts what is known of the result or of the parts
  cases htrouble with
  | timeout hfired => simp [h.inTime] at hfired
  | preprocessor answer hended hfailed =>
    obtain rfl : .ok preprocessed = answer :=
      Preprocessor.ended.inj (hpreprocessed.ended.symm.trans hended)
    have hnot := hfailed preprocessed rfl
    simp [hpreprocessed.succeeded] at hnot
  | unassigned hnone => exact hnone worker h.assigned
  | unreached hnone => simp [hnone] at hc
  | workerFailed hfailed =>
    have hstate : c.conversation.state = .done := by simpa using hdone
    simp [Parts.workerIs, hc, hstate] at hfailed
  | unexplained other name before second htry' h' hfailed =>
    obtain rfl := hsame htry' h'
    simp [h.explained] at hfailed
  | unwritable other name before second htry' h' hfailed =>
    obtain rfl := hsame htry' h'
    exact hfailed run.files h.written

/-- A compile is performed once. It ends with the rejection of the client exactly if the scheduler said so
before the watchdog fired; any other attempt that went wrong is followed by a compile on this host. -/
structure DoneOnce (rounds : Nat) (request : CompileRequest) (start : CompileRun ω κ)
    (ended : CompileEnd × CompileRun ω κ) : Prop where
  performed : Performed rounds request start ended.1 ended.2
  rejected : ∀ v, ended.1 = some (.error (.tooOld v)) ↔ ended.2.parts.Rejected v
  troubled : ended.1.isSome = true → start.trying? request ≠ none →
    Troubled rounds request start ended.2 → (∀ v, ¬ ended.2.parts.Rejected v) →
    ∃ reason, PerformedHere request (.fallback reason) ended.1 ended.2

theorem Performed.doneOnce {ended : CompileEnd × CompileRun ω κ}
    (h : Performed rounds request start ended.1 ended.2)
    (hrejected : ∀ v, ended.1 = some (.error (.tooOld v)) ↔ ended.2.parts.Rejected v) :
    DoneOnce rounds request start ended where
  performed := h
  rejected := hrejected
  troubled hended htry htrouble hnot := by
    obtain ⟨ending, last⟩ := ended
    cases h with
    | untried cause _ _ htry' hcause h => exact absurd htry' htry
    | onWorker worker result _ h => exact absurd htrouble h.untroubled
    | fallback tried after reason _ _ htry' hfailed h => exact ⟨reason, h⟩
    | rejected minVersion _ h halone => exact absurd h (hnot minVersion)
    | waiting _ h halone => simp at hended
    | closing worker result _ h hpending => simp at hended

/-- A compile for which no worker is tried has nothing to do with the scheduler. -/
theorem DoneHere.doneOnce {cause : LocalCause} {ended : CompileEnd × CompileRun ω κ}
    (h : DoneHere request cause run ended) (htry : start.trying? request = none)
    (hcause : ∀ reason, cause ≠ .fallback reason) (hrun : ∀ v, ¬ run.parts.Rejected v) :
    DoneOnce rounds request start ended := by
  have hperformed : Performed rounds request start ended.1 ended.2 :=
    .untried cause ended.1 ended.2 htry hcause h.performed
  refine hperformed.doneOnce fun v => iff_of_false (h.notRejected v) ?_
  rw [h.verdict.rejected_iff]
  exact hrun v

/-! ## An attempt -/

/-- An attempt fails, and stalls only while it waits for a result, or it has received a result that can be
written. -/
theorem fails_or_delivers (hrun : tried.Unstarted request.config) (rounds : Nat) :
    (∃ why after, (Attempt.remote rounds request).result tried = (.error why, after) ∧
        (why = .stalled → (Attempt.awaitResult rounds request).result tried = (.error why, after))) ∨
      ∃ worker preprocessed result last, tried.Receives rounds request worker preprocessed result ∧
        result.isUnexplained = false ∧ Written request.invocation
          ((Attempt.awaitResult rounds request).result tried).2.files result.files last := by
  rcases receives_or_keeps hrun rounds with
    ⟨why, after, -, hremote, hcause⟩ | ⟨worker, preprocessed, result, hreceives, hexplained⟩
  · refine .inl ⟨why, after, hremote, ?_⟩
    rintro rfl
    rcases hcause with hawaited | ⟨reason, hreason⟩
    · exact hawaited
    · cases hreason
  · rcases written_or_refused request.invocation
      ((Attempt.awaitResult rounds request).result tried).2.files result.files with
      ⟨last, hwritten⟩ | ⟨done, file, rest, last, reason, hfiles, hwritten, hrefused⟩
    · exact .inr ⟨worker, preprocessed, result, last, hreceives, hexplained, hwritten⟩
    · obtain ⟨after, -, hremote⟩ :=
        result_remote_refused hreceives hexplained hfiles hwritten hrefused
      exact .inl ⟨.fallback reason, after, hremote, nofun⟩

omit [Channel κ] in
/-- Closing leaves the conversation with the worker alone. -/
theorem kept_workerIs_closing (condition : WorkerConversation → Bool) :
    KeptByClosing (ω := ω) (κ := κ) fun p => p.workerIs condition = true where
  scheduler _ _ _ _ hp := hp
  meanwhile p hp := (workerIs_meanwhile p condition).trans hp
  idle _ _ hlater hp := (workerIs_idle hlater condition).trans hp

theorem workerIs_afterClosing {condition : WorkerConversation → Bool}
    (h : run.parts.workerIs condition = true) (rounds : Nat) :
    (Attempt.afterClosing rounds run).parts.workerIs condition = true := by
  let finished : CompileRun ω κ := { run with parts := run.parts.enter .finished }
  have hbefore : (Attempt.beforeClosing run).parts.workerIs condition = true := by
    obtain ⟨s, deeds, hshown⟩ := CompileRun.showMessages_eq finished
    show finished.showMessages.parts.workerIs condition = true
    rw [hshown]
    exact h
  have hkept : KeptByClosing (ω := ω) (κ := κ) fun p => p.workerIs condition = true :=
    kept_workerIs_closing condition
  exact hkept.awaitClosing rounds _ (Attempt.beforeClosing run).parts hbefore

omit [Channel κ] in
/-- The output and the end of an attempt are none of the worker's. -/
theorem worker_tearDown_showOutput (run : CompileRun ω κ) (result : JobResult) :
    (Attempt.showOutput result run).tearDown.parts.worker = run.parts.worker := by
  obtain ⟨s, deeds, houtput⟩ := CompileRun.showOutput_eq run result
  have hstopped (run : CompileRun ω κ) :
      run.stopWatchdog.stopPreprocessor.parts.worker = run.parts.worker := by
    unfold CompileRun.stopPreprocessor
    split <;> rfl
  rw [houtput]
  obtain ⟨t, others, hmessages⟩ := CompileRun.showMessages_eq
    ({ run.withSurroundings s with deeds } : CompileRun ω κ).stopWatchdog.stopPreprocessor
  rw [CompileRun.tearDown, hmessages]
  exact hstopped { run.withSurroundings s with deeds }

theorem leaves_takeResult_workerState (run : CompileRun ω κ) (name : String) (state : WorkerState) :
    Leaves (Parts.workerIs fun c => c.state = state) run (Attempt.takeResult name) := by
  refine .get_bind ?_
  split
  · exact .giveUp nofun
  · refine .bind (.act ?_) fun _ after _ => ?_
    · show (run.parts.worker.map _).any _ = _
      rw [Option.any_map]
      rfl
    · split
      · exact .giveUp nofun
      · exact .pure _

/-- Once the files of a result are written a worker has done the compile. What is left changes nothing about
that: to close the connection to the scheduler, to show the output, and to tear the attempt down. -/
theorem doneAway_of_moves (hrun : tried.Unstarted request.config) (hnone : tried.milestones = [])
    (htry : start.trying? request = some tried) {name : String} {preprocessed : Preprocessed}
    {result : JobResult} {last : FileTree} {before : CompileRun ω κ}
    (hreceives : tried.Receives rounds request name preprocessed result)
    (hexplained : result.isUnexplained = false)
    (hawaited : (Attempt.awaitResult rounds request).result tried = (.ok name, before))
    (hwritten : Written request.invocation before.files result.files last)
    (hmoves : ReflTransGen (Move True) (Attempt.written name before last) run)
    (hfiles : run.files = last) (hfired : run.parts.watchdog.fired = false)
    (hdone : (Attempt.written name before last).parts.workerIs (fun c => c.state = .done) = true →
      run.parts.workerIs (fun c => c.state = .done) = true) :
    ∃ worker, name = Attempt.workerName worker ∧ DoneAway rounds request start worker result run := by
  have hawait := leads_awaitResult False False.elim hrun False.elim
  obtain ⟨worker, known, hname, hunderway⟩ := hawait.success rounds name before hawaited
  obtain ⟨hscheduler, hworker⟩ := (stalls_awaitResult hrun).success rounds name before hawaited
  have htook : ReflTransGen (Move False) before (Attempt.written name before last) := by
    have htaken : ReflTransGen (Move False) before ((Attempt.takeResult name).result before).2 :=
      (Attempt.proceeds_takeResult before name).moves
    exact htaken.tail (.files _ last)
  have hkept {I : CompileRun ω κ → Prop} (hfalse : KeptByMoves False I) (htrue : KeptByMoves True I)
      (h : I before) : I run := htrue.moves hmoves (hfalse.moves htook h)
  obtain ⟨after, hagain, hpreprocessed, hresult⟩ := id hreceives
  obtain rfl : before = after := congrArg Prod.snd (hawaited.symm.trans hagain)
  refine ⟨worker, hname, ⟨tried, preprocessed, htry, hname ▸ hreceives, ?_⟩, hexplained, ?_, ?_,
    hfired, ?_, ?_⟩
  · exact hkept (kept_preprocessedTo preprocessed) (kept_preprocessedTo preprocessed) hpreprocessed
  · have hended := SchedulerConversation.keptByTalk_endedIn (.assigned worker)
    have hmet := hkept kept_met.1 kept_met.1 hscheduler
    obtain ⟨c, hc⟩ := Option.isSome_iff_exists.mp hmet
    have houtcome := hkept (kept_schedulerIs hended) (kept_schedulerIs hended) hunderway.scheduler c hc
    rw [Attempt.schedulerOutcome?, hc]
    exact houtcome.outcome
  · refine hdone ?_
    have hleft : Leaves (Parts.workerIs fun c => c.state = .done) before (Attempt.takeResult name) :=
      leaves_takeResult_workerState before name .done
    show ((Attempt.takeResult name).result before).2.parts.workerIs _ = true
    rw [hleft.view]
    exact hworker
  · rw [CompileRun.prepared_of_trying htry, hawaited, hfiles]
    exact hwritten
  · have huntouched := hkept (kept_untouched tried) (kept_untouched tried) hunderway.untouched
    exact huntouched.milestones.trans hnone

/-- A result that can be written is delivered, or the scheduler cannot be left. -/
theorem performed_written (hrun : tried.Unstarted request.config) (hnone : tried.milestones = [])
    (htry : start.trying? request = some tried) {name : String} {preprocessed : Preprocessed}
    {result : JobResult} {last : FileTree}
    (hreceives : tried.Receives rounds request name preprocessed result)
    (hexplained : result.isUnexplained = false)
    (hwritten : Written request.invocation
      ((Attempt.awaitResult rounds request).result tried).2.files result.files last) :
    let ended := CompileRun.conclude request ((Attempt.remote rounds request).result tried)
    Performed rounds request start ended.1 ended.2 := by
  intro ended
  show Performed rounds request start ended.1 ended.2
  obtain ⟨before, hawaited, hremote⟩ := result_remote_written hreceives hexplained hwritten
  rw [hawaited] at hwritten
  have hstages := through_remote hrun
  let written := Attempt.written name before last
  let closing := Attempt.afterClosing rounds written
  have hclosing : ReflTransGen (Move True) written closing := moves_afterClosing written rounds
  have hfiles : closing.files = last := CompileRun.files_afterClosing written rounds
  cases hclosed : (Attempt.waitedClosing rounds written).1 with
  | false =>
    rw [if_neg (by simp [written, hclosed])] at hremote
    -- if the watchdog had fired then the attempt would have been given up for that
    have htimedOut : TimedOut .stalled closing := hstages.failure rounds .stalled closing hremote
    have hfired : closing.parts.watchdog.fired = false := by
      cases htimeout : closing.parts.watchdog.timeout with
      | none => rw [Watchdog.fired, htimeout, Option.isSome_none]
      | some timeout => cases (htimedOut timeout).mp htimeout
    obtain ⟨worker, -, haway⟩ := doneAway_of_moves hrun hnone htry hreceives hexplained hawaited
      hwritten hclosing hfiles hfired fun h => workerIs_afterClosing h rounds
    have hended : ended = (none, closing) := congrArg (CompileRun.conclude request) hremote
    rw [hended]
    exact .closing worker result closing haway ⟨written, hclosed, rfl⟩
  | true =>
    rw [if_pos hclosed] at hremote
    let shown := Attempt.presented rounds result written
    have hunfired := (hstages.success rounds _ shown hremote).unfired
    have hmoves : ReflTransGen (Move True) written shown.tearDown :=
      hclosing.trans ((moves_showOutput closing trivial result).trans (moves_tearDown shown trivial))
    have hshown : shown.tearDown.files = last := by
      rw [CompileRun.files_tearDown, ← hfiles]
      exact CompileRun.files_showOutput closing result
    have hfired : shown.tearDown.parts.watchdog.fired = false := by
      rw [CompileRun.watchdog_tearDown]
      show shown.parts.watchdog.timeout.isSome = false
      rw [hunfired, Option.isSome_none]
    have hdone (h : written.parts.workerIs (fun c => c.state = .done) = true) :
        shown.tearDown.parts.workerIs (fun c => c.state = .done) = true := by
      show (Attempt.showOutput result closing).tearDown.parts.worker.any _ = true
      rw [worker_tearDown_showOutput]
      exact workerIs_afterClosing h rounds
    obtain ⟨worker, rfl, haway⟩ := doneAway_of_moves hrun hnone htry hreceives hexplained hawaited
      hwritten hmoves hshown hfired hdone
    have hended : ended = (some (.ok ⟨result.exitCode.toInt, .onWorker (Attempt.workerName worker)⟩),
        shown.tearDown) := congrArg (CompileRun.conclude request) hremote
    rw [hended]
    exact .onWorker worker result shown.tearDown haway

/-- What an attempt comes to when it fails. -/
theorem performed_failed (hrun : tried.Unstarted request.config) (hnone : tried.milestones = [])
    (htry : start.trying? request = some tried) {why : Abandon} {after : CompileRun ω κ}
    (hremote : (Attempt.remote rounds request).result tried = (.error why, after))
    (hstalled : why = .stalled →
      (Attempt.awaitResult rounds request).result tried = (.error why, after)) :
    let ended := CompileRun.conclude request ((Attempt.remote rounds request).result tried)
    Performed rounds request start ended.1 ended.2 := by
  intro ended
  have hended : ended = CompileRun.conclude request (.error why, after) :=
    congrArg (CompileRun.conclude request) hremote
  have hceased := (leads_remote hrun).failure rounds why after hremote
  rw [hended]
  cases why with
  | stalled =>
    have hwaits := (stalls_awaitResult hrun).failure rounds _ after (hstalled rfl) rfl
    exact .waiting after hwaits (hceased.untouched.milestones.trans hnone)
  | tooOld minVersion =>
    have hrejected := (hceased.rejected minVersion).mp rfl
    have huntouched := untouched_tearDown hceased.untouched
    exact .rejected minVersion after.tearDown (((CompileRun.SameVerdict.tearDown after).rejected_iff _).mpr
      hrejected) (huntouched.milestones.trans hnone)
  | fallback reason =>
    have hdone : DoneHere request (.fallback reason) after _ :=
      doneHere_fallback hnone hceased.untouched reason
    exact .fallback tried after reason _ _ htry hremote hdone.performed

/-- The rejection by the scheduler is what an attempt is given up for, and nothing later takes it back. -/
theorem rejected_conclude (hrun : tried.Unstarted request.config) (hnone : tried.milestones = [])
    (rounds : Nat) (v : String) :
    let ended := CompileRun.conclude request ((Attempt.remote rounds request).result tried)
    ended.1 = some (.error (.tooOld v)) ↔ ended.2.parts.Rejected v := by
  have hleads := leads_remote hrun
  dsimp only
  rcases hanswer : (Attempt.remote rounds request).result tried with ⟨why | outcome, after⟩
  · have hceased := hleads.failure rounds why after hanswer
    cases why with
    | stalled =>
      refine iff_of_false (by simp [CompileRun.conclude]) fun h => ?_
      cases (hceased.rejected v).mpr h
    | tooOld minVersion =>
      have hrejected : after.tearDown.parts.Rejected v ↔ after.parts.Rejected v :=
        (CompileRun.SameVerdict.tearDown after).rejected_iff v
      refine Iff.trans ?_ ((hceased.rejected v).trans hrejected.symm)
      simp [CompileRun.conclude]
    | fallback reason =>
      have hdone : DoneHere request (.fallback reason) after
          (CompileRun.conclude request (.error (.fallback reason), after)) :=
        doneHere_fallback hnone hceased.untouched reason
      refine iff_of_false (hdone.notRejected v) fun h => ?_
      cases (hceased.rejected v).mpr ((hdone.verdict.rejected_iff v).mp h)
  · have hdelivered := hleads.success rounds outcome after hanswer
    refine iff_of_false (by simp [CompileRun.conclude]) fun h => ?_
    exact hdelivered.accepted v (((CompileRun.SameVerdict.tearDown after).rejected_iff v).mp h)

/-! ## A compile -/

/-- A compile that tries a worker is performed once. -/
theorem doneOnce_compileAway (hrun : tried.Unstarted request.config) (hnone : tried.milestones = [])
    (htry : start.trying? request = some tried) (rounds : Nat) :
    DoneOnce rounds request start (tried.compileAway rounds request) := by
  rw [compileAway_eq]
  refine Performed.doneOnce ?_ (rejected_conclude hrun hnone rounds)
  rcases fails_or_delivers hrun rounds with ⟨why, after, hremote, hstalled⟩ |
    ⟨worker, preprocessed, result, last, hreceives, hexplained, hwritten⟩
  · exact performed_failed hrun hnone htry hremote hstalled
  · exact performed_written hrun hnone htry hreceives hexplained hwritten

/-- In these surroundings it comes to the end of each connection to the scheduler that is closed. -/
def Closes (ω κ : Type) [Channel κ] [Collaborators ω κ] : Prop :=
  ∀ p : Parts ω κ, ∃ rounds, (Attempt.awaitClosing rounds (Attempt.beginClosing p) p).1 = true

/-- An attempt that fails ends the compile, where the host serves, unless it stalls. -/
theorem isSome_conclude_error (hrun : tried.Unstarted request.config)
    (hserves : Serves (ω := ω) request tried.slots.source tried.semaphores) {why : Abandon}
    {after : CompileRun ω κ}
    (hremote : (Attempt.remote rounds request).result tried = (.error why, after))
    (hwhy : why ≠ .stalled) : (CompileRun.conclude request (.error why, after)).1.isSome = true := by
  have huntouched := untouched_tearDown ((leads_remote hrun).failure rounds why after hremote).untouched
  cases why with
  | stalled => exact absurd rfl hwhy
  | tooOld minVersion => rfl
  | fallback reason =>
    refine isSome_compileHere _ ?_
    show Serves request after.tearDown.slots.source after.tearDown.semaphores
    rw [huntouched.slots, huntouched.semaphores]
    exact hserves

/-- A compile ends if nothing is waited for at a peer, where the host serves and connections are closed. -/
theorem compileAway_ends (hcloses : Closes ω κ) (hrun : tried.Unstarted request.config)
    (hserves : Serves (ω := ω) request tried.slots.source tried.semaphores)
    (h : ((Attempt.awaitResult rounds request).result tried).1 ≠ .error .stalled) :
    ∃ more, (tried.compileAway more request).1.isSome = true := by
  rcases fails_or_delivers hrun rounds with ⟨why, after, hremote, hstalled⟩ |
    ⟨worker, preprocessed, result, last, hreceives, hexplained, hwritten⟩
  · refine ⟨rounds, ?_⟩
    rw [compileAway_eq, hremote]
    refine isSome_conclude_error hrun hserves hremote ?_
    rintro rfl
    exact h (congrArg Prod.fst (hstalled rfl))
  · -- with enough rounds for the close the rest goes as with these
    obtain ⟨before, hawaited, hpreprocessed, hresult⟩ := hreceives
    let written := Attempt.written worker before last
    obtain ⟨enough, hclosed⟩ := hcloses (Attempt.beforeClosing written).parts
    have hagain : (Attempt.awaitResult (max rounds enough) request).result tried = (.ok worker, before) :=
      (steady_awaitResult tried request rounds _ (Nat.le_max_left _ _) h).trans hawaited
    rw [hawaited, ← hagain] at hwritten
    obtain ⟨after, hafter, hremote⟩ := result_remote_written
      ⟨before, hagain, hpreprocessed, hresult⟩ hexplained hwritten
    obtain rfl : before = after := congrArg Prod.snd (hagain.symm.trans hafter)
    have hlast : (Attempt.waitedClosing (max rounds enough) written).1 = true := by
      rw [Attempt.waitedClosing, awaitClosing_of_le (Nat.le_max_right _ _) hclosed]
      exact hclosed
    refine ⟨max rounds enough, ?_⟩
    rw [compileAway_eq, hremote, if_pos hlast]
    rfl

/-- Where the host serves and connections are closed, a compile that tries a worker ends, or it waits for a
peer forever; and that only if the watchdog is disabled, or time does not pass. -/
theorem compileAway_ends_or_waits (hcloses : Closes ω κ) (hrun : tried.Unstarted request.config)
    (hserves : Serves (ω := ω) request tried.slots.source tried.semaphores) :
    (∃ rounds, (tried.compileAway rounds request).1.isSome = true) ∨
      (∀ rounds, (tried.compileAway rounds request).1 = none ∧
          (tried.compileAway rounds request).2.parts.Waits) ∧
        ¬ (request.config.watchdog = true ∧ ∃ age : ω → Nat, TimePasses age) := by
  -- either no number of rounds is enough for the peers, or some number is
  by_cases hstalls : ∀ rounds, ((Attempt.awaitResult rounds request).result tried).1 = .error .stalled
  · refine .inr ⟨fun rounds => ?_, ?_⟩
    · rcases hawaited : (Attempt.awaitResult rounds request).result tried with ⟨answer, after⟩
      obtain rfl : answer = .error .stalled := by
        have hanswer := hstalls rounds
        rw [hawaited] at hanswer
        exact hanswer
      have hremote : (Attempt.remote rounds request).result tried = (.error .stalled, after) := by
        rw [Attempt.remote_eq]
        exact Step.result_bind_of_error hawaited _
      rw [compileAway_eq, hremote]
      exact ⟨rfl, (stalls_awaitResult hrun).failure rounds _ after hawaited rfl⟩
    · -- a watchdog that sees time pass does not let a wait go on
      rintro ⟨hwatchdog, age, hage⟩
      have hawait := leads_awaitResult True (fun _ => ⟨age, hage⟩) hrun fun _ => hwatchdog
      obtain ⟨enough, answer, hnot, hend⟩ := hawait.settles trivial
      rw [← hend enough (Nat.le_refl _)] at hnot
      exact hnot (hstalls enough)
  · obtain ⟨rounds, hnot⟩ := Classical.not_forall.mp hstalls
    exact .inl (compileAway_ends hcloses hrun hserves hnot)

/-- On a quiet host connections are closed at once. -/
theorem closes_quietHost : Closes QuietHost DeadChannel := by
  rintro ⟨surroundings, watchdog, preprocessor, scheduler, worker⟩
  refine ⟨1, ?_⟩
  cases scheduler with
  | none => rfl
  | some c =>
    obtain ⟨channel, conversation, events, held, unflushed, closed⟩ := c
    cases closed <;> rfl

end Offload
