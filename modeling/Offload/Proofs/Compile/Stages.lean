import Offload.Proofs.Compile.Aside
import Offload.Proofs.Compile.Output

/-!
# The watchdog and the outcome agree

An attempt leads its watchdog through the stages one by one (`Watchdog.Through`), and fails for a
timeout exactly if the watchdog has fired (`TimedOut`). So a compile was done on a worker only if the
watchdog went through all stages and never fired, and once it has fired the compile is done here for
that reason, whatever else has become true meanwhile. When the result has arrived the watchdog is stopped,
and it does not bound the close of the connection to the scheduler: a compile that is stuck there has its timer
off, and has not ended.
-/

namespace Offload

open Relation Multiplexer

variable {ω κ α : Type}

/-! ## The watchdog -/

namespace Watchdog

/-- The stages that a watchdog has entered, the last one first. It is in the last one, and has not
fired. -/
structure Through (stages : List Stage) (w : Watchdog) : Prop where
  entered : w.entered.map Prod.fst = stages
  stage : stages.head? = some w.stage
  unfired : w.timeout = none

variable {w : Watchdog} {stages : List Stage}

theorem through_start (config : ClientConfig) (now : Micros) :
    ((ofConfig config).start now).Through [.init] := by
  unfold Watchdog.start
  dsimp only
  split <;> exact ⟨rfl, rfl, rfl⟩

/-- A later stage is entered. -/
theorem Through.transition {current : Stage} (h : w.Through (current :: stages)) {stage : Stage}
    (hlater : current < stage) (now : Micros) :
    (w.transition stage now).2.Through (stage :: current :: stages) := by
  have hcurrent : current = w.stage := Option.some.inj h.stage
  have hgoes : ¬ (w.fired = true ∨ stage ≤ w.stage) := by
    rintro (hfired | hle)
    · rw [fired, h.unfired] at hfired
      cases hfired
    · exact Nat.not_le_of_lt hlater (hcurrent ▸ hle)
  rw [Watchdog.transition, if_neg hgoes]
  refine ⟨?_, rfl, h.unfired⟩
  rw [List.map_cons, h.entered]

end Watchdog

/-! ## Waiting -/

/-- An attempt fails for a timeout exactly if the watchdog has fired, and then for what it fired
for. -/
def TimedOut (why : Abandon) (after : CompileRun ω κ) : Prop :=
  ∀ timeout, after.parts.watchdog.timeout = some timeout ↔ why = .fallback (.timeout timeout)

section Attempt

variable [Channel κ] [Collaborators ω κ] {run : CompileRun ω κ} {stages : List Stage}
  {request : CompileRequest}

/-- The stages that the watchdog of an attempt has gone through. -/
abbrev CompileRun.Through (stages : List Stage) (run : CompileRun ω κ) : Prop :=
  run.Seen Parts.watchdog (Watchdog.Through stages)

theorem timedOut_of_through {why : Abandon} (h : run.Through stages)
    (hwhy : ∀ timeout, why ≠ .fallback (.timeout timeout)) : TimedOut why run := by
  intro timeout
  rw [h.holds.unfired]
  exact iff_of_false (by simp) (hwhy timeout)

/-- A step that leaves the watchdog alone keeps its stages. -/
theorem Leaves.through {step : Step ω κ α} (h : Leaves Parts.watchdog run step)
    (hrun : run.Through stages) :
    Leads False run (fun _ => step) (fun _ after => after.Through stages) TimedOut :=
  h.leads hrun fun _ _ hafter hwhy => timedOut_of_through hafter hwhy

/-- Waiting does not enter a stage. -/
theorem kept_stages (mux : Multiplexer (Parts ω κ))
    (hmux : ∀ source ∈ mux.sources, OfAttempt source.2) (w : Watchdog) :
    KeptByWaiting Parts.around mux fun p =>
      p.watchdog.entered = w.entered ∧ p.watchdog.stage = w.stage where
  poll source hsource p hp := by
    rcases watchdog_poll (hmux source hsource) p with hsame | ⟨hself, -⟩
    · rw [hsame]
      exact hp
    · rw [hself]
      show (p.watchdog.poll _).2.entered = _ ∧ (p.watchdog.poll _).2.stage = _
      unfold Watchdog.poll
      split <;> exact hp
  meanwhile p hp := hp
  idle p later hp hlater := by
    obtain ⟨s, -, rfl⟩ := surroundings_of_idle hlater
    exact hp
  dispatch source hsource p hp := by
    have hattempt := hmux source hsource
    generalize source.2 = told at hattempt ⊢
    cases hattempt with
    | watchdog =>
      show (p.watchdog.check _).2.entered = _ ∧ (p.watchdog.check _).2.stage = _
      unfold Watchdog.check
      split
      · exact hp
      · split <;> exact hp
    | _ => exact hp

/-- The watchdog has the last word in a wait, whether or not what is waited for has come true. -/
theorem timeout_await_iff (hsourced : run.Sourced) (aim : Parts ω κ → Bool) (rounds : Nat)
    (timeout : Timeout) :
    ((Attempt.await rounds aim).result run).2.parts.watchdog.timeout = some timeout ↔
      ((Attempt.await rounds aim).result run).1 = .error (.fallback (.timeout timeout)) := by
  rw [Attempt.result_await, Attempt.verdict_snd]
  have hunfired (hfired : (Attempt.waited run aim rounds).state.watchdog.fired = false) :
      (Attempt.waited run aim rounds).state.watchdog.timeout ≠ some timeout := by
    intro htimeout
    rw [Watchdog.fired, htimeout] at hfired
    cases hfired
  cases hverdict : (Attempt.verdict run (Attempt.waited run aim rounds)).1 with
  | ok => exact iff_of_false (hunfired (Attempt.verdict_ok hverdict).2) (by simp)
  | error why =>
    rcases Attempt.verdict_error hverdict with ⟨fired, rfl, hfired⟩ | ⟨hwhy, hend⟩
    · show (Attempt.waited run aim rounds).state.watchdog.timeout = _ ↔ _
      rw [hfired]
      simp
    · have hall : KeptByPolling (Parts.around (ω := ω) (κ := κ)) run.mux fun _ => True :=
        ⟨fun _ _ _ h => h, fun _ h => h, fun _ _ h _ => h⟩
      obtain ⟨hfired, -⟩ := Attempt.waited_unfinished hsourced hall (fun _ _ => trivial) rounds hend
      refine iff_of_false (hunfired hfired) ?_
      rcases hwhy with rfl | rfl <;> simp

theorem through_await (hrun : run.Through stages) (aim : Parts ω κ → Bool) :
    Leads False run (fun rounds => Attempt.await rounds aim)
      (fun _ after => after.Through stages) TimedOut where
  success rounds a after hresult := by
    obtain ⟨hfired, -⟩ := Attempt.reached_of_await hresult
    obtain rfl := Attempt.eq_of_await hresult
    obtain ⟨hentered, hstage⟩ := state_runUntil (kept_stages run.mux hrun.sourced run.parts.watchdog)
      (fun p => p.watchdog.fired || aim p) rounds run.parts ⟨rfl, rfl⟩
    refine ⟨hrun.sourced, ?_, ?_, ?_⟩
    · exact (congrArg _ hentered).trans hrun.holds.entered
    · exact hrun.holds.stage.trans (congrArg some hstage.symm)
    · exact Option.isNone_iff_eq_none.1 (by simpa [Watchdog.fired] using hfired)
  failure rounds why after hresult := by
    intro timeout
    have hiff := timeout_await_iff hrun.sourced aim rounds timeout
    rw [hresult] at hiff
    simpa using hiff
  settles := False.elim

theorem through_awaitWorker (hrun : run.Through stages) (aim : Parts ω κ → Bool) :
    Leads False run (fun rounds => Attempt.awaitWorker rounds aim)
      (fun _ after => after.Through stages) TimedOut :=
  .bind (through_await hrun _) fun _ after hafter =>
    (Attempt.leaves_checkWorker after).through hafter

/-! ## An attempt -/

theorem through_enter {current : Stage} (hrun : run.Through (current :: stages)) {stage : Stage}
    (hlater : current < stage) :
    Leads False run (fun _ => Attempt.act (Parts.enter stage))
      (fun _ after => after.Through (stage :: current :: stages)) TimedOut :=
  .of_ok (Step.result_modify _ run) ⟨hrun.sourced, hrun.holds.transition hlater _⟩

omit [Channel κ] in
theorem blind_watchdog : Blind (ω := ω) (κ := κ) Parts.watchdog where
  launched p inv := rfl
  ended p := by
    unfold Parts.pollPreprocessor
    split
    · split <;> rfl
    · rfl
  hashed p files := rfl
  scheduler p c := rfl

theorem through_begin (hrun : run.Unstarted request.config) :
    Leads False run (fun _ => Attempt.begin request)
      (fun _ after => after.Through [.init]) TimedOut := by
  let started : CompileRun ω κ := { run with parts := run.parts.startWatchdog }
  have hstarted : started.Through [.init] := by
    refine ⟨fun source hsource => ?_, ?_⟩
    · change source ∈ run.mux.sources at hsource
      rw [hrun.sources] at hsource
      cases hsource
    · show ((run.parts.watchdog.start run.parts.now.1)).Through _
      rw [hrun.watchdog]
      exact Watchdog.through_start request.config _
  refine .bind (Q := fun _ after => after = started) (.of_ok (a := ()) rfl rfl) ?_
  rintro _ _ rfl
  exact (Attempt.leaves_launch started blind_watchdog request.invocation).through hstarted

theorem through_acquireWorker (hrun : run.Through [.init]) (source : String) :
    Leads False run (fun rounds => Attempt.acquireWorker rounds request source)
      (fun _ after => after.Through [.connectedToScheduler, .init]) TimedOut := by
  refine .bind ((Attempt.leaves_identify run blind_watchdog _).through hrun) fun _ after hafter => ?_
  refine .bind ((Attempt.leaves_connect after _ rfl (by simp)).through hafter) fun _ after hafter => ?_
  refine .bind (through_enter hafter (by decide)) fun _ after hafter => ?_
  refine .bind ((Attempt.leaves_greetScheduler after blind_watchdog _ _).through hafter)
    fun _ after hafter => ?_
  refine .bind (through_await hafter _) fun _ after hafter => ?_
  exact (Attempt.leaves_assignment after).through hafter

theorem leaves_greetWorker_watchdog (run : CompileRun ω κ) (channel : κ) (wait : Bool) :
    Leaves Parts.watchdog run (Attempt.greetWorker channel wait) :=
  .bind (.act rfl) fun _ _ _ => .register .worker

theorem leaves_beginUpload_watchdog (run : CompileRun ω κ) (name : String) (job : JobEnvelope)
    (payload : Bytes) : Leaves Parts.watchdog run (Attempt.beginUpload name job payload) := by
  refine .get_bind ?_
  split
  · exact .pure ()
  · split
    · exact .act rfl
    · exact .giveUp (by simp)

theorem leaves_takeResult_watchdog (run : CompileRun ω κ) (name : String) :
    Leaves Parts.watchdog run (Attempt.takeResult name) := by
  refine .get_bind ?_
  split
  · exact .giveUp (by simp)
  · refine .bind (.act rfl) fun _ after _ => ?_
    split
    · exact .giveUp (by simp)
    · exact .pure _

theorem through_upload (hrun : run.Through stages) (worker : Assignment) (wait : Bool) :
    Leads False run (fun rounds => Attempt.upload rounds request worker wait)
      (fun _ after => after.Through stages) TimedOut := by
  refine .bind (through_awaitWorker hrun _) fun _ after hafter => ?_
  refine .bind (through_awaitWorker hafter _) fun _ after hafter => ?_
  refine .bind ((Attempt.leaves_checkPreprocessor after).through hafter) fun _ after hafter => ?_
  refine .bind ((Attempt.leaves_preprocessedSource after).through hafter)
    fun payload after hafter => ?_
  refine .bind ((leaves_beginUpload_watchdog after _ _ payload).through hafter)
    fun _ after hafter => ?_
  exact through_awaitWorker hafter _

theorem through_awaitResult (hrun : run.Unstarted request.config) :
    Leads False run (fun rounds => Attempt.awaitResult rounds request)
      (fun _ after => after.Through
        [.uploadedJob, .acquiredWorker, .connectedToScheduler, .init]) TimedOut := by
  unfold Attempt.awaitResult
  cases hsource : request.invocation.sourceFile? with
  | none =>
    refine .of_error (Step.result_throw _ run) (fun timeout => ?_) (by simp)
    rw [hrun.watchdog]
    exact iff_of_false (by simp [Watchdog.ofConfig, Watchdog.ofDeadlines]) (by simp)
  | some source =>
    refine .bind (through_begin hrun) fun _ after hafter => ?_
    refine .bind (through_acquireWorker hafter source) fun worker after hafter => ?_
    refine .bind ((Attempt.leaves_checkPreprocessor after).through hafter) fun _ after hafter => ?_
    refine .bind (through_enter hafter (by decide)) fun _ after hafter => ?_
    refine .bind ((Attempt.leaves_connect after _ rfl (by simp)).through hafter)
      fun accepted after hafter => ?_
    refine .bind ((leaves_greetWorker_watchdog after _ _).through hafter) fun _ after hafter => ?_
    refine .bind (through_upload hafter worker _) fun _ after hafter => ?_
    refine .bind (through_enter hafter (by decide)) fun _ after hafter => ?_
    refine .bind (through_awaitWorker hafter _) fun _ after hafter => ?_
    exact (Leaves.pure _).through hafter

omit [Channel κ] in
/-- Closing leaves the watchdog alone. -/
theorem kept_watchdog_closing (w : Watchdog) :
    KeptByClosing (ω := ω) (κ := κ) fun p => p.watchdog = w where
  scheduler p c channel hc hp := hp
  meanwhile p hp := hp
  idle p later hlater hp := by
    obtain ⟨s, -, rfl⟩ := surroundings_of_idle hlater
    exact hp

/-- A delivery enters the last stage and stops the timer. -/
theorem watchdog_afterClosing (rounds : Nat) (run : CompileRun ω κ) :
    (Attempt.afterClosing rounds run).parts.watchdog = (run.parts.enter .finished).watchdog.stop := by
  let finished : CompileRun ω κ := { run with parts := run.parts.enter .finished }
  have hkept : KeptByClosing fun p : Parts ω κ => p.watchdog = (Attempt.beforeClosing run).parts.watchdog :=
    kept_watchdog_closing _
  obtain ⟨s, deeds, hshown⟩ := CompileRun.showMessages_eq finished
  refine (hkept.awaitClosing rounds _ (Attempt.beforeClosing run).parts rfl).trans ?_
  show finished.showMessages.parts.watchdog.stop = _
  rw [hshown]
  rfl

theorem watchdog_present (rounds : Nat) (result : JobResult) (run : CompileRun ω κ) :
    ((Attempt.present rounds result).result run).2.parts.watchdog =
      (run.parts.enter .finished).watchdog.stop := by
  rw [Attempt.result_present, ← watchdog_afterClosing rounds run]
  split
  · obtain ⟨s, deeds, hshown⟩ := CompileRun.showOutput_eq (Attempt.afterClosing rounds run) result
    rw [hshown]
    rfl
  · rfl

/-- All stages, the last one first. -/
theorem through_remote (hrun : run.Unstarted request.config) :
    Leads False run (fun rounds => Attempt.remote rounds request)
      (fun _ after => after.parts.watchdog.Through Stage.all.reverse) TimedOut := by
  simp only [Attempt.remote_eq]
  refine .bind (through_awaitResult hrun) fun name after hafter => ?_
  refine .bind ((leaves_takeResult_watchdog after name).through hafter) fun result after hafter => ?_
  refine .bind (Q := fun _ after => after.parts.watchdog.Through Stage.all.reverse) ?_
    fun _ after hafter => .of_ok (Step.result_pure _ after) hafter
  simp only [Attempt.deliver_eq]
  refine .bind ((Attempt.leaves_writeFiles after _ _).through hafter) fun _ after hafter => ?_
  have hlater : Stage.uploadedJob < .finished := by decide
  have hfinished := hafter.holds.transition hlater after.parts.now.1
  have hthrough (rounds : Nat) : ((Attempt.present rounds result).result after).2.parts.watchdog.Through
      Stage.all.reverse := by
    rw [watchdog_present]
    exact ⟨hfinished.entered, hfinished.stage, hfinished.unfired⟩
  refine (leads_present result hthrough).mono (fun _ _ h => h) ?_
  -- it can only stall, and the watchdog has not fired
  rintro why last ⟨rfl, hlast⟩ timeout
  rw [hlast.unfired]
  exact iff_of_false nofun nofun

end Attempt

/-! ## A compile -/

namespace CompileRun

variable [Collaborators ω κ] {request : CompileRequest}

/-- The end of an attempt stops the watchdog, and nothing else of it changes. -/
theorem watchdog_tearDown (run : CompileRun ω κ) :
    run.tearDown.parts.watchdog = run.parts.watchdog.stop := by
  obtain ⟨s, deeds, hshown⟩ := showMessages_eq run.stopWatchdog.stopPreprocessor
  rw [tearDown, hshown]
  exact watchdog_stopPreprocessor run.stopWatchdog

theorem watchdog_compileIn (run : CompileRun ω κ) (cause : LocalCause) (permit : Permit) :
    (run.compileIn request cause permit).2.parts.watchdog = run.parts.watchdog := by
  unfold compileIn
  dsimp only
  split <;> rfl

theorem watchdog_compileHere (run : CompileRun ω κ) (cause : LocalCause) :
    (run.compileHere request cause).2.parts.watchdog = run.parts.watchdog := by
  unfold compileHere
  split
  · rename_i permit after hslot
    rw [watchdog_compileIn]
    obtain ⟨_, _, _, -, rfl⟩ := eq_of_awaitSlot hslot
    rfl
  · rfl

end CompileRun

/-- An attempt is given up and the compile is done here after all. The watchdog does not run any more when it
begins, and if it ends then it ends here for that reason, or with an error of the compiler. -/
structure FallsBack [Collaborators ω κ] (request : CompileRequest) (reason : Fallback)
    (attempted : CompileRun ω κ) (ended : CompileEnd × CompileRun ω κ) : Prop where
  disarmed : attempted.tearDown.parts.watchdog.timer = none
  here : ended = (attempted.tearDown.note (.gaveUp reason)).compileHere request (.fallback reason)
  ending : ∀ ending, ended.1 = some ending →
    (∃ code, ending = .ok ⟨code, .onHost (.fallback reason)⟩) ∨
      ∃ error, ending = .error (.compiler error)

/-- The watchdog of an attempt, given what the attempt came to, and the end of the compile agree. -/
structure WatchdogAgrees [Collaborators ω κ] (request : CompileRequest)
    (answer : Except Abandon CompileOutcome × CompileRun ω κ)
    (ended : CompileEnd × CompileRun ω κ) : Prop where
  /-- a worker did it only if the watchdog never fired and all stages were entered in their order -/
  onWorker : ∀ code worker, ended.1 = some (.ok ⟨code, .onWorker worker⟩) →
    ended.2.parts.watchdog.timeout = none ∧
      ended.2.parts.watchdog.entered.reverse.map Prod.fst = Stage.all
  /-- whatever else is true, once the watchdog has fired it is the reason to compile here -/
  timedOut : ∀ timeout, answer.2.parts.watchdog.timeout = some timeout →
    FallsBack request (.timeout timeout) answer.2 ended
  /-- the compiler is run here only after the watchdog's timer was stopped -/
  here : ended.2.milestones = [] ∨ ∃ reason, FallsBack request reason answer.2 ended
  /-- and the timer is stopped when the compile ends, however it ends -/
  stopped : ended.1.isSome = true → ended.2.parts.watchdog.timer = none

section Compile

variable [Channel κ] [Collaborators ω κ] {request : CompileRequest} {tried : CompileRun ω κ}

theorem fallsBack_conclude {start run : CompileRun ω κ} (hstart : start.milestones = [])
    (h : start.Untouched run) (reason : Fallback) :
    FallsBack request reason run (CompileRun.conclude request (.error (.fallback reason), run)) where
  disarmed := run.tornDown_tearDown.watchdog
  here := rfl
  ending ending hended := by
    have hdone : DoneHere request _ run _ := doneHere_fallback hstart h reason
    obtain ⟨answer, rfl⟩ := hdone.performed.exists_answer hended
    cases answer with
    | ok code => exact .inl ⟨code, rfl⟩
    | error error => exact .inr ⟨error, rfl⟩

theorem watchdogAgrees_conclude (hrun : tried.Unstarted request.config)
    (hnone : tried.milestones = []) (rounds : Nat) :
    let answer := (Attempt.remote rounds request).result tried
    WatchdogAgrees request answer (CompileRun.conclude request answer) := by
  intro answer
  have hstages := through_remote hrun
  have hleads := leads_remote hrun
  rcases hanswer : answer with ⟨why | ⟨code, execution⟩, after⟩
  case error =>
    have htimedOut : TimedOut why after := hstages.failure rounds why after hanswer
    have huntouched : tried.Untouched after := (hleads.failure rounds why after hanswer).untouched
    -- only a fallback can be for a timeout
    cases why with
    | stalled =>
      refine ⟨by simp [CompileRun.conclude], fun timeout h => ?_,
        .inl (huntouched.milestones.trans hnone), by simp [CompileRun.conclude]⟩
      simpa using (htimedOut timeout).mp h
    | tooOld minVersion =>
      refine ⟨by simp [CompileRun.conclude], fun timeout h => ?_,
        .inl ((untouched_tearDown huntouched).milestones.trans hnone),
        fun _ => after.tornDown_tearDown.watchdog⟩
      simpa using (htimedOut timeout).mp h
    | fallback reason =>
      have hback : FallsBack request reason after _ := fallsBack_conclude hnone huntouched reason
      refine ⟨fun code worker h => ?_, fun timeout h => ?_, .inr ⟨reason, hback⟩, fun _ => ?_⟩
      · exact (quietHere_compileHere request _ _).here code worker h |>.elim
      · obtain rfl : reason = .timeout timeout :=
          Abandon.fallback.inj ((htimedOut timeout).mp h)
        exact hback
      · rw [hback.here, CompileRun.watchdog_compileHere]
        exact hback.disarmed
  case ok =>
    have hthrough := hstages.success rounds _ after hanswer
    have hdelivered := hleads.success rounds _ after hanswer
    refine ⟨fun _ _ _ => ?_, fun timeout h => ?_,
      .inl ((untouched_tearDown hdelivered.untouched).milestones.trans hnone),
      fun _ => after.tornDown_tearDown.watchdog⟩
    · show after.tearDown.parts.watchdog.timeout = none ∧
        after.tearDown.parts.watchdog.entered.reverse.map Prod.fst = Stage.all
      rw [CompileRun.watchdog_tearDown]
      refine ⟨hthrough.unfired, ?_⟩
      show after.parts.watchdog.entered.reverse.map Prod.fst = _
      rw [List.map_reverse, hthrough.entered, List.reverse_reverse]
    · exact absurd (hthrough.unfired.symm.trans h) (by simp)

/-- The watchdog and the end of a compile that tries a worker agree. In every single wait the
watchdog has the last word: the wait fails for a timeout exactly if the watchdog has fired by its
end, whether or not what was waited for has come true as well. -/
theorem watchdog_agrees (request : CompileRequest) (surroundings : ω) (slots : SlotController)
    (semaphores : Semaphores) (files : FileTree) (tried : CompileRun ω κ)
    (htry : (CompileRun.fresh request surroundings slots semaphores files).trying? request
      = some tried) :
    let start := CompileRun.fresh request surroundings slots semaphores files
    (∀ rounds, WatchdogAgrees request ((Attempt.remote rounds request).result tried)
      (start.compile rounds request)) ∧
    ∀ (run : CompileRun ω κ) (aim : Parts ω κ → Bool) (rounds : Nat), run.Sourced →
      let waited := (Attempt.await rounds aim).result run
      ∀ timeout, waited.2.parts.watchdog.timeout = some timeout ↔
        waited.1 = .error (.fallback (.timeout timeout)) := by
  intro start
  refine ⟨fun rounds => ?_, fun run aim rounds hsourced =>
    timeout_await_iff hsourced aim rounds⟩
  obtain ⟨⟨left, units, rfl⟩, hcompile⟩ := compile_of_trying htry rounds
  rw [hcompile, compileAway_eq]
  exact watchdogAgrees_conclude ⟨rfl, rfl, rfl⟩ rfl rounds

end Compile

/-! ## An answer that comes too late -/

/-- A channel on which a worker is assigned. -/
structure LateChannel where
  arrived : Bool

instance : Channel LateChannel where
  pollReady c := (.ready, c)
  send c _ := (.ok (), c)
  pollFlush c := (.ready, c)
  pollClose c := (.ready, c)
  readable c :=
    if c.arrived then
      [.frame (.text (SchedulerMessage.assignment ⟨"10.0.0.1", "", 80, 7, "", []⟩).encode)]
    else []
  consume _ _ := ⟨false⟩

/-- A host that is like a quiet one, except that the scheduler answers after three seconds: when
the time for that has just run out. -/
structure LateHost where
  seconds : Nat

instance : Collaborators LateHost LateChannel where
  clock s := (1000000 * s.seconds, s)
  connect s _ := (.ok ⟨⟨false⟩, []⟩, s)
  compilerHash s files := (.ok "", files, s)
  startPreprocessor s _ := s
  pollPreprocessor s := (none, s)
  stopPreprocessor s := s
  runCompiler s _ files := (some (.ok 0), files, s)
  showStdout s _ := (.ok (), s)
  showStderr s _ := (.ok (), s)
  awaitUnit s _ semaphores := (semaphores, s)
  meanwhile s := ⟨s.seconds + 1⟩
  idle s := some s
  catchUp s c := if s.seconds = 3 then ⟨true⟩ else c

/-- The scheduler names a worker in the round in which the watchdog fires, and the compile is done
here all the same. -/
theorem watchdog_agrees_late :
    let start : CompileRun LateHost LateChannel :=
      .fresh plainRequest ⟨0⟩ unlimitedSlots .none emptyTree
    let after := ((Attempt.remote 10 plainRequest).result start).2
    let timeout : Timeout := ⟨.connectedToScheduler, 3000000⟩
    start.trying? plainRequest = some start ∧ after.parts.schedulerEnded = true ∧
      after.parts.watchdog.timeout = some timeout ∧
      FallsBack plainRequest (.timeout timeout) after (start.compile 10 plainRequest) := by
  intro start after timeout
  have htry : start.trying? plainRequest = some start := rfl
  have hended : after.parts.schedulerEnded = true := by decide +kernel
  have hfired : after.parts.watchdog.timeout = some timeout := by decide +kernel
  have hagrees := (watchdog_agrees plainRequest (⟨0⟩ : LateHost) unlimitedSlots .none emptyTree
    start htry).1 10
  exact ⟨htry, hended, hfired, hagrees.timedOut timeout hfired⟩

end Offload
