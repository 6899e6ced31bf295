import Offload.Proofs.Compile.Aside
import Offload.Proofs.Compile.Ending

/-!
# What an attempt waits for

Until there is a result an attempt stalls only while the watchdog has not fired and a conversation goes on,
with the scheduler or with the worker (`Parts.Waits`); whatever ends that lets it go on. To wait longer
changes nothing about an attempt that did not stall (`Steady`). Both are shown along the steps, the first for
the steps up to the result, the second for all of them.
-/

namespace Offload

open Relation Multiplexer

variable {ω κ α β : Type}

/-! ## Waiting for a peer -/

/-- The watchdog has not fired, and the scheduler or the worker can still say something. -/
structure Parts.Waits (p : Parts ω κ) : Prop where
  unfired : p.watchdog.fired = false
  peer : (∃ c, p.scheduler = some c ∧ c.conversation.isTerminal = false) ∨
    ∃ c, p.worker = some c ∧ c.conversation.isTerminal = false

/-- A step that stalls waits for a peer. -/
def Stalls (why : Abandon) (after : CompileRun ω κ) : Prop := why = .stalled → after.parts.Waits

section Waiting

variable [Channel κ] [Collaborators ω κ] {run : CompileRun ω κ} {request : CompileRequest}

/-- A step that does not wait does not stall. -/
theorem stalls_of_proceeds {I : CompileRun ω κ → Prop} (hI : KeptByMoves False I) (hrun : I run)
    {step : Step ω κ α} (h : Proceeds False run step) :
    Leads False run (fun _ => step) (fun _ after => I after) Stalls := by
  refine h.leads.mono (fun _ after hmoves => hI.moves hmoves hrun) ?_
  rintro why after ⟨⟨reason, rfl⟩, -⟩ hstalled
  cases hstalled

/-- The scheduler was met. -/
structure CompileRun.MetScheduler (run : CompileRun ω κ) : Prop where
  sourced : run.Sourced
  scheduler : run.parts.scheduler.isSome = true

/-- The scheduler was met, and the worker as well. -/
structure CompileRun.MetBoth (run : CompileRun ω κ) : Prop extends run.MetScheduler where
  worker : run.parts.worker.isSome = true

theorem kept_metScheduler : KeptByMoves (ω := ω) (κ := κ) False CompileRun.MetScheduler := by
  intro run after hmove hrun
  exact ⟨kept_sourced run after hmove hrun.sourced, kept_met.1 run after hmove hrun.scheduler⟩

theorem kept_metBoth : KeptByMoves (ω := ω) (κ := κ) False CompileRun.MetBoth := by
  intro run after hmove hrun
  exact ⟨kept_metScheduler run after hmove hrun.toMetScheduler,
    kept_met.2 run after hmove hrun.worker⟩

/-- Polling does not end the conversation with the worker. -/
theorem kept_workerOpen_polling {mux : Multiplexer (Parts ω κ)}
    (hmux : ∀ source ∈ mux.sources, OfAttempt source.2) :
    KeptByPolling Parts.around mux fun p : Parts ω κ =>
      p.workerIs WorkerConversation.isTerminal = false where
  poll source hsource p hp := by
    have hattempt := hmux source hsource
    generalize source.2 = polled at hattempt ⊢
    cases hattempt with
    | watchdog => exact hp
    | preprocessor =>
      change p.pollPreprocessor.2.workerIs _ = false
      unfold Parts.pollPreprocessor
      split
      · split <;> exact hp
      · exact hp
    | scheduler =>
      change p.pollScheduler.2.workerIs _ = false
      unfold Parts.pollScheduler
      split <;> exact hp
    | worker =>
      change p.pollWorker.2.workerIs _ = false
      unfold Parts.pollWorker
      split
      · rename_i c hc
        have hopen : c.conversation.isTerminal = false := by
          simpa [Parts.workerIs, hc] using hp
        show c.poll.2.conversation.isTerminal = false
        rcases Connection.conversation_poll c with hsame | ⟨frames, htook⟩
        · rw [hsame]
          exact hopen
        · rw [htook]
          exact hopen
      · exact hp
  meanwhile p hp := (workerIs_meanwhile p _).trans hp
  idle _ _ hp hlater := (workerIs_idle hlater _).trans hp

theorem stalls_awaitScheduler (hrun : run.MetScheduler) :
    Leads False run (fun rounds => Attempt.await rounds Parts.schedulerEnded)
      (fun _ after => after.MetScheduler) Stalls := by
  have hopen : KeptByPolling (Parts.around (ω := ω) (κ := κ)) run.mux fun p =>
      p.SchedulerIs fun c => c.isTerminal = false :=
    kept_schedulerIs_polling hrun.sourced fun c hc frames => hc
  have hmissed (p : Parts ω κ) (hp : p.schedulerEnded = false) :
      p.SchedulerIs fun c => c.isTerminal = false := by
    intro c hc
    simpa [Parts.schedulerEnded, hc] using hp
  refine (Attempt.leads_await (fun h => h.elim) hrun.sourced (fun h => h.elim) hopen hmissed).mono ?_ ?_
  · rintro _ after ⟨hmoves, -, -⟩
    exact kept_metScheduler.moves hmoves hrun
  · -- after a wait that stalls, the scheduler is the one that can still speak
    rintro why after ⟨hmoves, -, hunfired, hend⟩ hstalled
    obtain ⟨c, hc⟩ := Option.isSome_iff_exists.mp (kept_metScheduler.moves hmoves hrun).scheduler
    have hnot := hunfired hstalled
    refine ⟨hnot, .inl ⟨c, hc, ?_⟩⟩
    rcases hend with hfired | hopen
    · simp [hnot] at hfired
    · exact hopen c hc

/-- A wait for the worker ends with its aim or with the end of the conversation, which has not failed. -/
theorem stalls_awaitWorker (hrun : run.MetBoth) (aim : Parts ω κ → Bool) :
    Leads False run (fun rounds => Attempt.awaitWorker rounds aim)
      (fun _ after => after.MetBoth ∧
        (aim after.parts || after.parts.workerIs WorkerConversation.isTerminal) = true ∧
        after.parts.workerIs (fun c => c.state = .failed) = false) Stalls := by
  have hmissed (p : Parts ω κ) (hp : (aim p || p.workerIs WorkerConversation.isTerminal) = false) :
      p.workerIs WorkerConversation.isTerminal = false := (Bool.or_eq_false_iff.mp hp).2
  refine .bind (Q := fun _ after => after.MetBoth ∧
    (aim after.parts || after.parts.workerIs WorkerConversation.isTerminal) = true) ?_
    fun _ ended hended => ?_
  · refine (Attempt.leads_await (fun h => h.elim) hrun.sourced (fun h => h.elim)
      (kept_workerOpen_polling hrun.sourced) hmissed).mono ?_ ?_
    · rintro _ after ⟨hmoves, -, haim⟩
      exact ⟨kept_metBoth.moves hmoves hrun, haim⟩
    · rintro why after ⟨hmoves, -, hunfired, hend⟩ hstalled
      obtain ⟨c, hc⟩ := Option.isSome_iff_exists.mp (kept_metBoth.moves hmoves hrun).worker
      have hnot := hunfired hstalled
      refine ⟨hnot, .inr ⟨c, hc, ?_⟩⟩
      rcases hend with hfired | hopen
      · simp [hnot] at hfired
      · simpa [Parts.workerIs, hc] using hopen
  · have hchecked : Leads False ended (fun _ => Attempt.checkWorker) (fun _ after => after.MetBoth)
        Stalls := stalls_of_proceeds kept_metBoth hended.1 (Attempt.proceeds_checkWorker ended)
    refine ⟨fun rounds a after hresult => ?_, hchecked.failure, False.elim⟩
    obtain ⟨rfl, hopen⟩ := Attempt.result_checkWorker_ok hresult
    exact ⟨hended.1, hended.2, hopen⟩

/-! ### The steps -/

theorem stalls_begin (hrun : run.Unstarted request.config) :
    Leads False run (fun _ => Attempt.begin request) (fun _ after => after.Sourced) Stalls := by
  have hsourced : run.Sourced := by
    intro source hsource
    rw [hrun.sources] at hsource
    cases hsource
  refine .bind (Q := fun _ after => after.Sourced) (.of_ok (a := ()) rfl hsourced) fun _ after hafter => ?_
  refine .bind (stalls_of_proceeds kept_sourced hafter (.register .watchdog)) fun _ after hafter => ?_
  refine .bind (Q := fun _ after => after.Sourced) (.of_ok (a := ()) rfl hafter) fun _ after hafter => ?_
  exact stalls_of_proceeds kept_sourced hafter (Attempt.proceeds_awaitPreprocessor after)

theorem stalls_assignment (hrun : run.MetScheduler) :
    Leads False run (fun _ => Attempt.assignment) (fun _ after => after.MetScheduler) Stalls := by
  cases houtcome : Attempt.schedulerOutcome? run.parts with
  | some outcome =>
    have hresult := Attempt.result_assignment houtcome
    cases outcome with
    | assigned worker => exact .of_ok hresult hrun
    | versionMismatch minVersion => exact .of_error hresult nofun nofun
    | _ => exact .of_error hresult nofun nofun
  | none =>
    have hresult : (Attempt.assignment : Step ω κ Assignment).result run =
        (.error (.fallback .schedulerSilent), run) := by
      unfold Attempt.assignment
      rw [Step.result_bind_of_ok (Step.result_get run), houtcome]
      rfl
    exact .of_error hresult nofun nofun

theorem stalls_acquireWorker (hrun : run.Sourced) (source : String) :
    Leads False run (fun rounds => Attempt.acquireWorker rounds request source)
      (fun _ after => after.MetScheduler) Stalls := by
  refine .bind (stalls_of_proceeds kept_sourced hrun (Attempt.proceeds_identify run _))
    fun environment after hafter => ?_
  refine .bind (stalls_of_proceeds kept_sourced hafter (Attempt.proceeds_connect after _ _))
    fun accepted after hafter => ?_
  refine .bind (stalls_of_proceeds kept_sourced hafter (Attempt.proceeds_enter after _ nofun))
    fun _ after hafter => ?_
  refine .bind (Q := fun _ greeted => greeted.MetScheduler) ?_ fun _ greeted hgreeted => ?_
  · let conversation := (SchedulerConversation.ofClient request.config.name).onOpen
    let met : CompileRun ω κ := { after with parts := { after.parts with
      scheduler := some (.ofChannel accepted.channel conversation) } }
    have hmet : met.Sourced := hafter
    have hresult : (Attempt.greetScheduler request.config.name accepted.channel).result after
        = (.ok (), met.addSource Parts.schedulerSource) := rfl
    have hmove : Move False met (met.addSource Parts.schedulerSource) := .registered met _ .scheduler
    exact .of_ok hresult ⟨kept_sourced _ _ hmove hmet, rfl⟩
  refine .bind (stalls_awaitScheduler hgreeted) fun _ after hafter => ?_
  exact stalls_assignment hafter

theorem stalls_greetWorker (hrun : run.MetScheduler) (channel : κ) (wait : Bool) :
    Leads False run (fun _ => Attempt.greetWorker channel wait) (fun _ after => after.MetBoth)
      Stalls := by
  have hkept := stalls_of_proceeds kept_metScheduler hrun (Attempt.proceeds_greetWorker run channel wait)
  refine ⟨fun rounds a after hresult => ?_, hkept.failure, False.elim⟩
  have hmet := hkept.success rounds a after hresult
  obtain rfl := (Prod.mk.inj hresult).2
  exact ⟨hmet, rfl⟩

theorem stalls_upload (hrun : run.MetBoth) (worker : Assignment) (wait : Bool) :
    Leads False run (fun rounds => Attempt.upload rounds request worker wait)
      (fun _ after => after.MetBoth) Stalls := by
  refine .bind (stalls_awaitWorker hrun _) fun _ after hafter => ?_
  refine .bind (stalls_awaitWorker hafter.1 _) fun _ after hafter => ?_
  refine .bind (stalls_of_proceeds kept_metBoth hafter.1 (Attempt.proceeds_checkPreprocessor after))
    fun _ after hafter => ?_
  refine .bind (stalls_of_proceeds kept_metBoth hafter (Attempt.proceeds_preprocessedSource after))
    fun payload after hafter => ?_
  refine .bind (stalls_of_proceeds kept_metBoth hafter (Attempt.proceeds_beginUpload after _ _ payload))
    fun _ after hafter => ?_
  exact (stalls_awaitWorker hafter _).mono (fun _ _ h => h.1) fun _ _ h => h

/-- Up to a result an attempt stalls only where it waits for a peer, and when it has come to a result, the
scheduler was met and the worker is done. -/
theorem stalls_awaitResult (hrun : run.Unstarted request.config) :
    Leads False run (fun rounds => Attempt.awaitResult rounds request)
      (fun _ after => after.parts.scheduler.isSome = true ∧
        after.parts.workerIs (fun c => c.state = .done) = true) Stalls := by
  unfold Attempt.awaitResult
  cases hsource : request.invocation.sourceFile? with
  | none => exact .of_error (Step.result_throw _ run) nofun nofun
  | some source =>
    refine .bind (stalls_begin hrun) fun _ after hafter => ?_
    refine .bind (stalls_acquireWorker hafter source) fun worker after hafter => ?_
    refine .bind (stalls_of_proceeds kept_metScheduler hafter
      (Attempt.proceeds_checkPreprocessor after)) fun _ after hafter => ?_
    refine .bind (stalls_of_proceeds kept_metScheduler hafter
      (Attempt.proceeds_enter after _ nofun)) fun _ after hafter => ?_
    refine .bind (stalls_of_proceeds kept_metScheduler hafter
      (Attempt.proceeds_connect after _ _)) fun accepted after hafter => ?_
    -- from here on there is a worker
    refine .bind (stalls_greetWorker hafter _ _) fun _ after hafter => ?_
    refine .bind (stalls_upload hafter worker _) fun _ after hafter => ?_
    refine .bind (stalls_of_proceeds kept_metBoth hafter (Attempt.proceeds_enter after _ nofun))
      fun _ after hafter => ?_
    refine .bind (stalls_awaitWorker hafter _) fun _ after hafter => ?_
    obtain ⟨hmet, hterminal, hopen⟩ := hafter
    obtain ⟨c, hc⟩ := Option.isSome_iff_exists.mp hmet.worker
    have hfailed : c.conversation.state ≠ .failed := by simpa [Parts.workerIs, hc] using hopen
    refine .of_ok (Step.result_pure _ after) ⟨hmet.scheduler, ?_⟩
    simpa [Parts.workerIs, hc, WorkerConversation.isTerminal, hfailed] using hterminal

end Waiting

/-! ## Waiting longer -/

/-- What a step comes to, if it does not stall, it comes to as well when it may wait longer. -/
def Steady (run : CompileRun ω κ) (step : Nat → Step ω κ α) : Prop :=
  ∀ rounds more, rounds ≤ more → ((step rounds).result run).1 ≠ .error .stalled →
    (step more).result run = (step rounds).result run

namespace Steady

variable {run : CompileRun ω κ}

theorem const (step : Step ω κ α) : Steady run fun _ => step := fun _ _ _ _ => rfl

theorem bind {step : Nat → Step ω κ α} {next : Nat → α → Step ω κ β} (h : Steady run step)
    (hnext : ∀ a after, Steady after fun rounds => next rounds a) :
    Steady run fun rounds => step rounds >>= next rounds := by
  intro rounds more hle hnot
  have hsame := h rounds more hle
  rcases hresult : (step rounds).result run with ⟨why | a, after⟩
  · rw [Step.result_bind_of_error hresult] at hnot ⊢
    rw [hresult] at hsame
    have hwhy : (Except.error why : Except Abandon α) ≠ .error .stalled := by
      rintro ⟨⟩
      exact hnot rfl
    exact Step.result_bind_of_error (hsame hwhy) _
  · rw [Step.result_bind_of_ok hresult] at hnot ⊢
    rw [hresult] at hsame
    rw [Step.result_bind_of_ok (hsame nofun)]
    exact hnext a after rounds more hle hnot

end Steady

section Longer

variable [Channel κ] [Collaborators ω κ] (run : CompileRun ω κ)

omit [Channel κ] in
theorem steady_await (aim : Parts ω κ → Bool) :
    Steady run fun rounds => Attempt.await rounds aim := by
  intro rounds more hle hnot
  rw [Attempt.result_await] at hnot ⊢
  rw [Attempt.result_await]
  have hwaited : Attempt.waited run aim more = Attempt.waited run aim rounds := by
    cases hend : Attempt.waited run aim rounds with
    | done n last => exact runUntil_of_le hle hend
    | noSources last => exact runUntil_noSources_of_le hle hend
    | pending last =>
      rw [hend] at hnot
      exact absurd rfl hnot
  rw [hwaited]

omit [Channel κ] in
theorem steady_awaitWorker (aim : Parts ω κ → Bool) :
    Steady run fun rounds => Attempt.awaitWorker rounds aim :=
  .bind (steady_await run _) fun _ _ => .const _

theorem steady_acquireWorker (request : CompileRequest) (source : String) :
    Steady run fun rounds => Attempt.acquireWorker rounds request source := by
  refine .bind (.const _) fun environment after => ?_
  refine .bind (.const _) fun accepted after => ?_
  refine .bind (.const _) fun _ after => ?_
  refine .bind (.const _) fun _ after => ?_
  exact .bind (steady_await after _) fun _ after => .const _

omit [Channel κ] in
theorem steady_upload (request : CompileRequest) (worker : Assignment) (wait : Bool) :
    Steady run fun rounds => Attempt.upload rounds request worker wait := by
  refine .bind (steady_awaitWorker run _) fun _ after => ?_
  refine .bind (steady_awaitWorker after _) fun _ after => ?_
  refine .bind (.const _) fun _ after => ?_
  refine .bind (.const _) fun payload after => ?_
  refine .bind (.const _) fun _ after => ?_
  exact steady_awaitWorker after _

theorem steady_awaitResult (request : CompileRequest) :
    Steady run fun rounds => Attempt.awaitResult rounds request := by
  unfold Attempt.awaitResult
  cases request.invocation.sourceFile? with
  | none => exact .const _
  | some source =>
    refine .bind (.const _) fun _ after => ?_
    refine .bind (steady_acquireWorker after request source) fun worker after => ?_
    refine .bind (.const _) fun _ after => ?_
    refine .bind (.const _) fun _ after => ?_
    refine .bind (.const _) fun accepted after => ?_
    refine .bind (.const _) fun _ after => ?_
    refine .bind (steady_upload after request worker _) fun _ after => ?_
    refine .bind (.const _) fun _ after => ?_
    exact .bind (steady_awaitWorker after _) fun _ after => .const _

theorem steady_present (result : JobResult) :
    Steady run fun rounds => Attempt.present rounds result := by
  intro rounds more hle hnot
  have hrounds := Attempt.result_present run rounds result
  rw [hrounds] at hnot
  split at hnot
  · rename_i hclosed
    have hwaited : Attempt.waitedClosing more run = Attempt.waitedClosing rounds run :=
      awaitClosing_of_le hle hclosed
    rw [hrounds, Attempt.result_present, Attempt.afterClosing, Attempt.afterClosing, hwaited]
  · exact absurd rfl hnot

/-- A longer wait changes nothing about an attempt that did not stall. -/
theorem steady_remote (request : CompileRequest) :
    Steady run fun rounds => Attempt.remote rounds request := by
  simp only [Attempt.remote_eq, Attempt.deliver_eq]
  refine .bind (steady_awaitResult run request) fun name after => ?_
  refine .bind (.const _) fun result after => ?_
  refine .bind ?_ fun _ after => .const _
  exact .bind (.const _) fun _ after => steady_present after result

/-- Nor about a compile that ended. -/
theorem compile_of_le {rounds more : Nat} (hle : rounds ≤ more) {request : CompileRequest}
    (h : (run.compile rounds request).1.isSome = true) :
    run.compile more request = run.compile rounds request := by
  rcases compile_cases run request with
    ⟨reason, hcompile⟩ | ⟨permit, taken, left, hcompile⟩ | ⟨refused, -, hcompile⟩
  · rw [hcompile, hcompile]
  · rw [hcompile, hcompile]
  · rw [hcompile, compileAway_eq] at h
    rw [hcompile, hcompile, compileAway_eq, compileAway_eq]
    rw [steady_remote _ request rounds more hle]
    intro hstalled
    rcases hanswer : (Attempt.remote rounds request).result { run with slots := refused }
      with ⟨answer, after⟩
    rw [hanswer] at h hstalled
    obtain rfl : answer = .error .stalled := hstalled
    simp [CompileRun.conclude] at h

end Longer

end Offload
