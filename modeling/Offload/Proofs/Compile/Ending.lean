import Offload.Compile.Policy
import Offload.Proofs.Compile.Closing
import Offload.Proofs.Compile.Verdict

/-!
# How a compile ends

An attempt to compile on a worker ends with an outcome or is given up, and an attempt that is given up leaves
slots and semaphores alone (`leads_remote`). A compile on this host runs the compiler once, with all of its
arguments, unless there never is a slot (`PerformedHere`). What an attempt came to decides how the compile
goes on (`CompileRun.conclude`).
-/

namespace Offload

open Relation Multiplexer

variable {ω κ : Type}

/-! ## How a compile is performed -/

/-- What the deeds say of the attempt before a compile on this host. -/
def LocalCause.abandonment : LocalCause → List Deed
  | .fallback reason => [.gaveUp reason]
  | _ => []

/-- The end of a compile on this host, by the answer of the compiler. -/
def LocalCause.ending (cause : LocalCause) :
    Except CompilerError Int → Except ClientError CompileOutcome
  | .ok code => .ok ⟨code, .onHost cause⟩
  | .error error => .error (.compiler error)

/-- What the deeds say once the compiler is run in full. -/
def CompileRequest.runsHere (request : CompileRequest) (cause : LocalCause) : List Deed :=
  cause.abandonment ++ [.compiled request.invocation.args .compile]

/-- How a compile was performed on this host, by its end and the state after it. -/
inductive PerformedHere [Collaborators ω κ] (request : CompileRequest) (cause : LocalCause) :
    CompileEnd → CompileRun ω κ → Prop
  /-- the compiler was run here, once, with all arguments -/
  | ended (answer : Except CompilerError Int) (run : CompileRun ω κ)
    (h : run.milestones = request.runsHere cause)
    (hanswer : ∃ (s : ω) (files : FileTree),
      (Collaborators.runCompiler s request.invocation.args files).1 = some answer) :
    PerformedHere request cause (some (cause.ending answer)) run
  /-- there never is a slot -/
  | queueing (run : CompileRun ω κ) (h : run.milestones = cause.abandonment)
    (hslot : run.awaitSlot = none) : PerformedHere request cause none run
  /-- the compiler, run here once with all arguments, does not end -/
  | compiling (run : CompileRun ω κ) (h : run.milestones = request.runsHere cause)
    (hanswer : ∃ (s : ω) (files : FileTree),
      (Collaborators.runCompiler s request.invocation.args files).1 = none) :
    PerformedHere request cause none run

/-- A compile on this host that ends, ends by the answer of the compiler. -/
theorem PerformedHere.exists_answer [Collaborators ω κ] {request : CompileRequest} {cause : LocalCause}
    {ended : CompileEnd} {run : CompileRun ω κ} (h : PerformedHere request cause ended run)
    {ending : Except ClientError CompileOutcome} (hended : ended = some ending) :
    ∃ answer, ending = cause.ending answer := by
  cases h with
  | ended answer h hanswer => exact ⟨answer, (Option.some.inj hended).symm⟩
  | queueing h hslot => cases hended
  | compiling h hanswer => cases hended

/-- This host serves a compile: a slot can be had, at least once others have done with theirs, and
the compiler ends. -/
structure Serves [Collaborators ω κ] (request : CompileRequest) (source : SlotSource)
    (semaphores : Semaphores) : Prop where
  slot : ∀ s : ω, (source.take? semaphores .compile).isSome = true ∨
    (source.take? (Collaborators.awaitUnit s .compile semaphores).1 .compile).isSome = true
  compiler : ∀ (s : ω) (files : FileTree),
    (Collaborators.runCompiler s request.invocation.args files).1.isSome = true

/-! ## An attempt -/

section Attempt

variable [Channel κ] [Collaborators ω κ] {timely : Prop} {run : CompileRun ω κ}
  {request : CompileRequest}

/-- A worker did the compile. -/
structure Delivered (start : CompileRun ω κ) (outcome : CompileOutcome) (after : CompileRun ω κ) :
    Prop where
  worker : ∃ worker, outcome.execution = .onWorker worker
  accepted : ∀ v, ¬ after.parts.Rejected v
  untouched : start.Untouched after

theorem leads_begin (hrun : run.Unstarted request.config)
    (htimely : timely → request.config.watchdog = true) :
    Leads timely run (fun _ => Attempt.begin request)
      (fun _ after => Underway timely (fun _ => False) none run after) (Abandoned run) := by
  -- what is known of an attempt holds only once the watchdog is started and registered
  let started : CompileRun ω κ := { run with parts := run.parts.startWatchdog }
  refine .bind (Q := fun _ after => after = started) (.of_ok (a := ()) rfl rfl) ?_
  rintro _ _ rfl
  let watched := started.addSource Parts.watchdogSource
  refine .bind (Q := fun _ after => after = watched) (.of_ok (a := ()) rfl rfl) ?_
  rintro _ _ rfl
  let launched : CompileRun ω κ := { watched with parts := { watched.parts with
    surroundings :=
      Collaborators.startPreprocessor watched.parts.surroundings request.invocation
    preprocessor := .running } }
  refine .bind (Q := fun _ after => after = launched) (.of_ok (a := ()) rfl rfl) ?_
  rintro _ _ rfl
  have hsources : launched.mux.sources = [(run.mux.nextId, Parts.watchdogSource)] := by
    show run.mux.sources ++ _ = _
    rw [hrun.sources]
    rfl
  have hlaunched : Underway timely (fun _ => False) none run launched := by
    refine ⟨⟨rfl, rfl, rfl⟩, ⟨fun h => ⟨h.deeds, h.messages⟩, ?_⟩, ?_,
      fun h => ⟨?_, run.mux.nextId, ?_⟩, ?_, by simp⟩
    · exact .tail (.single (.clock _)) (.startPreprocessor _ request.invocation)
    · intro source hsource
      rw [hsources, List.mem_singleton] at hsource
      rw [hsource]
      exact .watchdog
    · show (run.parts.watchdog.start run.parts.now.1).Watches
      rw [hrun.watchdog]
      exact Watchdog.watches_start_ofConfig (htimely h) _
    · rw [hsources]
      exact List.mem_singleton_self _
    · intro c hc
      change run.parts.scheduler = some c at hc
      rw [hrun.scheduler] at hc
      exact absurd hc (by simp)
  exact leads_of_proceeds innocent_false hlaunched (Attempt.proceeds_awaitPreprocessor launched)

/-- What an attempt does until the conversation with the worker has ended. It comes to the name of
the worker. -/
def Attempt.awaitResult (rounds : Nat) (request : CompileRequest) : Step ω κ String := do
  match request.invocation.sourceFile? with
  | none => giveUp .noSingleSource
  | some source =>
    begin request
    let worker ← acquireWorker rounds request source
    checkPreprocessor
    act (Parts.enter .acquiredWorker)
    let name := workerName worker
    let accepted ← connect (workerRequest request.config worker) (.workerUnreachable name)
    let wait := asksToWait accepted.headers
    greetWorker accepted.channel wait
    upload rounds request worker wait
    act (Parts.enter .uploadedJob)
    awaitWorker rounds fun _ => false
    return name

/-- A result is waited for, taken and delivered. -/
theorem Attempt.remote_eq (rounds : Nat) (request : CompileRequest) :
    Attempt.remote (ω := ω) (κ := κ) rounds request = (do
      let name ← awaitResult rounds request
      let result ← takeResult name
      deliver rounds request.invocation result
      return ⟨result.exitCode.toInt, .onWorker name⟩) := by
  unfold remote awaitResult
  cases request.invocation.sourceFile? with
  | none => rfl
  | some source => simp only [bind_assoc, pure_bind]

/-- When a result is waited for no longer, a worker was named and the preprocessor ended well. -/
theorem leads_awaitResult (timely : Prop) (htime : timely → ∃ age : ω → Nat, TimePasses age)
    (hrun : run.Unstarted request.config) (htimely : timely → request.config.watchdog = true) :
    Leads timely run (fun rounds => Attempt.awaitResult rounds request)
      (fun name after => ∃ worker result, name = Attempt.workerName worker ∧ Underway timely
        (SchedulerConversation.EndedIn (.assigned worker)) (some result) run after)
      (Abandoned run) := by
  unfold Attempt.awaitResult
  cases hsource : request.invocation.sourceFile? with
  | none =>
    have hresult : (Attempt.giveUp .noSingleSource : Step ω κ String).result run
        = (.error (.fallback .noSingleSource), run) := rfl
    refine .of_error hresult ⟨fun v => ⟨by simp, fun hrejected => ?_⟩, ⟨rfl, rfl, rfl⟩, id, .refl⟩ (by simp)
    have houtcome := hrejected.outcome
    rw [Attempt.schedulerOutcome?, hrun.scheduler] at houtcome
    exact absurd houtcome (by simp)
  | some source =>
    refine .bind (leads_begin hrun htimely) fun _ after hafter => ?_
    -- from here on the outcome of the scheduler is the worker
    refine .bind (leads_acquireWorker htime hafter request source) fun worker after hafter => ?_
    have hS : Innocent (SchedulerConversation.EndedIn (.assigned worker)) :=
      innocent_endedIn (by simp)
    refine .bind (leads_of_proceeds hS hafter (Attempt.proceeds_checkPreprocessor after))
      fun _ after hafter => ?_
    refine .bind (leads_of_proceeds hS hafter (Attempt.proceeds_enter after _ (by simp)))
      fun _ after hafter => ?_
    refine .bind (leads_of_proceeds hS hafter (Attempt.proceeds_connect after _ _))
      fun accepted after hafter => ?_
    refine .bind (leads_of_proceeds hS hafter (Attempt.proceeds_greetWorker after _ _))
      fun _ after hafter => ?_
    refine .bind (leads_upload htime hS hafter request worker _) fun _ after hafter => ?_
    -- and from here on the preprocessor has ended
    obtain ⟨result, hafter⟩ := hafter
    refine .bind (leads_of_proceeds hS hafter (Attempt.proceeds_enter after _ (by simp)))
      fun _ after hafter => ?_
    refine .bind (leads_awaitWorker htime hS hafter _) fun _ after hafter => ?_
    exact .of_ok (Step.result_pure _ after) ⟨worker, result, rfl, hafter⟩

/-- An attempt ended without an outcome: what it says of the scheduler's verdict is so, and nothing of it
was seen unless it goes on to wait. -/
structure Ceased (start : CompileRun ω κ) (why : Abandon) (after : CompileRun ω κ) : Prop where
  rejected : ∀ v, why = .tooOld v ↔ after.parts.Rejected v
  untouched : start.Untouched after
  unseen : why ≠ .stalled → start.Unseen after

omit [Channel κ] in
theorem Abandoned.ceased {start : CompileRun ω κ} {why : Abandon} {after : CompileRun ω κ}
    (h : Abandoned start why after) : Ceased start why after :=
  ⟨h.rejected, h.untouched, fun _ => h.unseen⟩

/-- Delivering a result changes nothing that is known of the scheduler. -/
theorem leads_deliver {start : CompileRun ω κ} {S : SchedulerConversation → Prop}
    {known : Option Preprocessed} (hS : Innocent S) (hrun : Underway False S known start run)
    (result : JobResult) :
    Leads False run (fun rounds => Attempt.deliver rounds request.invocation result)
      (fun _ after => start.Untouched after ∧ ∀ v, ¬ after.parts.Rejected v) (Ceased start) := by
  have hwritten := leads_of_proceeds hS hrun
    (Attempt.proceeds_writeFiles run request.invocation result.files)
  refine .bind (hwritten.mono (fun _ _ h => h) fun _ _ h => h.ceased) fun _ after hafter => ?_
  have hpresented (rounds : Nat) :
      let last := ((Attempt.present rounds result).result after).2
      start.Untouched last ∧ ∀ v, ¬ last.parts.Rejected v := by
    have hmoves := moves_present after rounds result
    have hscheduler := (kept_schedulerIs hS.kept).moves hmoves hafter.scheduler
    exact ⟨(kept_untouched start).moves hmoves hafter.untouched,
      not_rejected_of_schedulerIs hS.accepted hscheduler⟩
  refine (leads_present result hpresented).mono (fun _ _ h => h) ?_
  rintro why last ⟨rfl, huntouched, haccepted⟩
  exact ⟨fun v => iff_of_false nofun (haccepted v), huntouched, absurd rfl⟩

/-- An attempt delivers what a worker made, or fails. -/
theorem leads_remote (hrun : run.Unstarted request.config) :
    Leads False run (fun rounds => Attempt.remote rounds request) (Delivered run)
      (Ceased run) := by
  simp only [Attempt.remote_eq]
  have hawaited := leads_awaitResult False False.elim hrun False.elim
  refine .bind (hawaited.mono (fun _ _ h => h) fun _ _ h => h.ceased) fun name after hafter => ?_
  obtain ⟨worker, _, -, hafter⟩ := hafter
  have hS : Innocent (SchedulerConversation.EndedIn (.assigned worker)) :=
    innocent_endedIn (by simp)
  have htaken := leads_of_proceeds hS hafter (Attempt.proceeds_takeResult after name)
  refine .bind (htaken.mono (fun _ _ h => h) fun _ _ h => h.ceased) fun result after hafter => ?_
  refine .bind (leads_deliver hS hafter result) fun _ after hafter => ?_
  exact .of_ok (Step.result_pure _ after) ⟨⟨_, rfl⟩, hafter.2, hafter.1⟩

end Attempt

/-! ## The verdict after an attempt -/

/-- What the scheduler said, and whether the watchdog has fired, is as it was. -/
structure CompileRun.SameVerdict (run after : CompileRun ω κ) : Prop where
  scheduler : after.parts.scheduler = run.parts.scheduler
  fired : after.parts.watchdog.fired = run.parts.watchdog.fired

namespace CompileRun.SameVerdict

variable {run after last : CompileRun ω κ}

theorem trans (h : run.SameVerdict after) (h' : after.SameVerdict last) : run.SameVerdict last :=
  ⟨h'.scheduler.trans h.scheduler, h'.fired.trans h.fired⟩

theorem rejected_iff (h : run.SameVerdict after) (v : String) :
    after.parts.Rejected v ↔ run.parts.Rejected v := by
  have houtcome : Attempt.schedulerOutcome? after.parts = Attempt.schedulerOutcome? run.parts := by
    rw [Attempt.schedulerOutcome?, h.scheduler]
    rfl
  constructor
  · intro hrejected
    exact ⟨houtcome ▸ hrejected.outcome, h.fired ▸ hrejected.inTime⟩
  · intro hrejected
    exact ⟨houtcome ▸ hrejected.outcome, h.fired ▸ hrejected.inTime⟩

variable [Collaborators ω κ]

theorem showStderr (run : CompileRun ω κ) (data : Bytes) :
    run.SameVerdict (run.showStderr data) := by
  unfold CompileRun.showStderr
  split <;> exact ⟨rfl, rfl⟩

theorem showMessages (run : CompileRun ω κ) : run.SameVerdict run.showMessages := by
  unfold CompileRun.showMessages
  split
  · exact ⟨rfl, rfl⟩
  · have hmarked : run.SameVerdict { run with messagesShown := true } := ⟨rfl, rfl⟩
    dsimp only
    split
    · exact hmarked.trans (showStderr _ _)
    · exact hmarked

theorem stopPreprocessor (run : CompileRun ω κ) : run.SameVerdict run.stopPreprocessor := by
  unfold CompileRun.stopPreprocessor
  split <;> exact ⟨rfl, rfl⟩

theorem tearDown (run : CompileRun ω κ) : run.SameVerdict run.tearDown := by
  have hstopped : run.SameVerdict run.stopWatchdog := ⟨rfl, rfl⟩
  exact hstopped.trans ((stopPreprocessor _).trans (showMessages _))

end CompileRun.SameVerdict

/-! ## A compile on this host -/

section Here

variable [Collaborators ω κ] {request : CompileRequest} {cause : LocalCause}

/-- To be given a slot changes nothing else but the surroundings, if it is waited for. -/
theorem CompileRun.eq_of_awaitSlot {run after : CompileRun ω κ} {permit : Permit}
    (h : run.awaitSlot = some (permit, after)) : ∃ surroundings slots semaphores,
      (surroundings = run.parts.surroundings ∨ surroundings =
        (Collaborators.awaitUnit run.parts.surroundings .compile run.semaphores).2) ∧
      after = { run.withSurroundings surroundings with slots, semaphores } := by
  unfold CompileRun.awaitSlot at h
  split at h
  · obtain rfl := (Prod.mk.inj (Option.some.inj h)).2
    exact ⟨_, _, _, .inl rfl, rfl⟩
  · obtain ⟨_, -, hgiven⟩ := Option.map_eq_some_iff.mp h
    obtain rfl := (Prod.mk.inj hgiven).2
    exact ⟨_, _, _, .inr rfl, rfl⟩

/-- A compile on this host: how it was performed, and that the scheduler has no part in it. -/
structure DoneHere (request : CompileRequest) (cause : LocalCause) (run : CompileRun ω κ)
    (ended : CompileEnd × CompileRun ω κ) : Prop where
  performed : PerformedHere request cause ended.1 ended.2
  verdict : run.SameVerdict ended.2
  notRejected : ∀ v, ended.1 ≠ some (.error (.tooOld v))

theorem doneHere_compileIn (run : CompileRun ω κ) (permit : Permit)
    (hrun : run.milestones = cause.abandonment) :
    DoneHere request cause run (run.compileIn request cause permit) := by
  unfold CompileRun.compileIn
  rcases hanswer : Collaborators.runCompiler run.parts.surroundings request.invocation.args run.files
    with ⟨answer, files, surroundings⟩
  have hgiven : (Collaborators.runCompiler run.parts.surroundings request.invocation.args
      run.files).1 = answer := by rw [hanswer]
  let noted : CompileRun ω κ :=
    { (run.withSurroundings surroundings).note (.compiled request.invocation.args .compile) with
      files }
  have hnoted : noted.milestones = request.runsHere cause := by
    show ((run.withSurroundings surroundings).note _).milestones = _
    rw [milestones_note]
    show run.milestones ++ _ = _
    rw [hrun]
    rfl
  dsimp only
  rw [hanswer]
  -- the compiler does not end, cannot be run, or ends with a code
  rcases answer with _ | error | code
  · exact ⟨.compiling noted hnoted ⟨_, _, hgiven⟩, ⟨rfl, rfl⟩, by simp⟩
  · exact ⟨.ended (.error error) (noted.releaseSlot permit) hnoted ⟨_, _, hgiven⟩,
      ⟨rfl, rfl⟩, by simp⟩
  · exact ⟨.ended (.ok code) (noted.releaseSlot permit) hnoted ⟨_, _, hgiven⟩,
      ⟨rfl, rfl⟩, by simp⟩

theorem doneHere_compileHere (run : CompileRun ω κ) (hrun : run.milestones = cause.abandonment) :
    DoneHere request cause run (run.compileHere request cause) := by
  unfold CompileRun.compileHere
  cases hslot : run.awaitSlot with
  | none => exact ⟨.queueing run hrun hslot, ⟨rfl, rfl⟩, by simp⟩
  | some given =>
    obtain ⟨permit, after⟩ := given
    obtain ⟨surroundings, slots, semaphores, -, rfl⟩ := CompileRun.eq_of_awaitSlot hslot
    have hdone : DoneHere request cause _ (CompileRun.compileIn _ request cause permit) :=
      doneHere_compileIn { run.withSurroundings surroundings with slots, semaphores } permit hrun
    exact ⟨hdone.performed, ⟨hdone.verdict.1, hdone.verdict.2⟩, hdone.notRejected⟩

theorem isSome_compileIn {source : SlotSource} {semaphores : Semaphores}
    (h : Serves (ω := ω) request source semaphores) (run : CompileRun ω κ) (permit : Permit) :
    (run.compileIn request cause permit).1.isSome = true := by
  have hends := h.compiler run.parts.surroundings run.files
  unfold CompileRun.compileIn
  dsimp only
  rcases hanswer : Collaborators.runCompiler run.parts.surroundings request.invocation.args run.files
    with ⟨_ | error | code, files, surroundings⟩
  · rw [hanswer] at hends
    exact absurd hends (by simp)
  · rfl
  · rfl

theorem isSome_compileHere (run : CompileRun ω κ)
    (h : Serves (ω := ω) request run.slots.source run.semaphores) :
    (run.compileHere request cause).1.isSome = true := by
  unfold CompileRun.compileHere
  cases hslot : run.awaitSlot with
  | some given => exact isSome_compileIn h given.2 given.1
  | none =>
    unfold CompileRun.awaitSlot at hslot
    split at hslot
    · exact absurd hslot (by simp)
    · rename_i hfirst
      have hsecond : run.slots.waitAcquire
          (Collaborators.awaitUnit run.parts.surroundings .compile run.semaphores).1 .compile
            = none := Option.map_eq_none_iff.mp hslot
      rcases h.slot run.parts.surroundings with htake | htake
      · rw [Option.map_eq_none_iff.mp hfirst] at htake
        exact absurd htake (by simp)
      · rw [Option.map_eq_none_iff.mp hsecond] at htake
        exact absurd htake (by simp)

end Here

/-! ## A compile -/

section Compile

variable [Channel κ] [Collaborators ω κ] {request : CompileRequest} {run : CompileRun ω κ}

omit [Channel κ] [Collaborators ω κ] in
theorem CompileRun.Unstarted.not_rejected {config : ClientConfig} (h : run.Unstarted config)
    (v : String) : ¬ run.parts.Rejected v := by
  intro hrejected
  have houtcome := hrejected.outcome
  rw [Attempt.schedulerOutcome?, h.scheduler] at houtcome
  exact absurd houtcome (by simp)

/-- The end of a compile, by what the attempt came to. -/
def CompileRun.conclude (request : CompileRequest) :
    Except Abandon CompileOutcome × CompileRun ω κ → CompileEnd × CompileRun ω κ
  | (.ok outcome, run) => (some (.ok outcome), run.tearDown)
  | (.error .stalled, run) => (none, run)
  | (.error (.tooOld minVersion), run) => (some (.error (.tooOld minVersion)), run.tearDown)
  | (.error (.fallback reason), run) =>
    (run.tearDown.note (.gaveUp reason)).compileHere request (.fallback reason)

theorem compileAway_eq (rounds : Nat) :
    run.compileAway rounds request
      = CompileRun.conclude request ((Attempt.remote rounds request).result run) := by
  unfold CompileRun.compileAway CompileRun.conclude Step.result
  rcases (Attempt.remote rounds request).run.run run with ⟨⟨_⟩ | _, _⟩ <;> rfl

theorem untouched_tearDown {start : CompileRun ω κ} (h : start.Untouched run) :
    start.Untouched run.tearDown := by
  have hmoves : ReflTransGen (Move True) run run.tearDown := moves_tearDown run trivial
  exact (kept_untouched start).moves hmoves h

/-- What is left to this host is done here, after the abandonment. -/
theorem doneHere_fallback {start : CompileRun ω κ} (hstart : start.milestones = [])
    (h : start.Untouched run) (reason : Fallback) :
    DoneHere request (.fallback reason) run
      ((run.tearDown.note (.gaveUp reason)).compileHere request (.fallback reason)) := by
  have hgaveUp : (run.tearDown.note (.gaveUp reason)).milestones
      = (LocalCause.fallback reason).abandonment := by
    rw [milestones_note, (untouched_tearDown h).milestones, hstart]
    rfl
  have hsame : run.SameVerdict (run.tearDown.note (.gaveUp reason)) :=
    CompileRun.SameVerdict.trans (.tearDown run) ⟨rfl, rfl⟩
  have hdone : DoneHere request (.fallback reason) _
      ((run.tearDown.note (.gaveUp reason)).compileHere request (.fallback reason)) :=
    doneHere_compileHere _ hgaveUp
  exact ⟨hdone.performed, hsame.trans hdone.verdict, hdone.notRejected⟩

omit [Channel κ] [Collaborators ω κ] in
theorem unstarted_fresh (request : CompileRequest) (surroundings : ω) (slots : SlotController)
    (semaphores : Semaphores) (files : FileTree) :
    (CompileRun.fresh (κ := κ) request surroundings slots semaphores files).Unstarted request.config :=
  ⟨rfl, rfl, rfl⟩

/-- A compile is done here at once, or in a free slot, or on a worker if that can be done. -/
theorem compile_cases (run : CompileRun ω κ) (request : CompileRequest) :
    (∃ reason, ∀ rounds, run.compile rounds request = run.compileHere request (.forced reason)) ∨
      (∃ permit slots semaphores, ∀ rounds, run.compile rounds request
        = { run with slots, semaphores }.compileIn request .slotFree permit) ∨
      ∃ slots, slots.source = run.slots.source ∧ ∀ rounds, run.compile rounds request
        = { run with slots }.compileAway rounds request := by
  unfold CompileRun.compile
  cases request.forcedReason? with
  | some reason => exact .inl ⟨reason, fun _ => rfl⟩
  | none =>
    cases request.config.noLocal with
    | true => exact .inr (.inr ⟨run.slots, rfl, fun _ => rfl⟩)
    | false =>
      let ledger := run.slots.ledger.modify .compile fun s => { s with tried := s.tried + 1 }
      unfold SlotController.tryAcquire
      cases run.slots.source.take? run.semaphores .compile with
      | none => exact .inr (.inr ⟨{ run.slots with ledger }, rfl, fun _ => rfl⟩)
      | some taken => exact .inr (.inl ⟨taken.1, _, taken.2, fun _ => rfl⟩)

end Compile

/-! ## A quiet host -/

/-- A channel that takes everything, and over which nothing comes. -/
structure DeadChannel where

instance : Channel DeadChannel where
  pollReady c := (.ready, c)
  send c _ := (.ok (), c)
  pollFlush c := (.ready, c)
  pollClose c := (.ready, c)
  readable _ := []
  consume c _ := c

/-- A host on which peers accept connections and then are silent: all that happens is that time
passes, by a second for each round of polling. -/
structure QuietHost where
  seconds : Nat

instance : Collaborators QuietHost DeadChannel where
  clock s := (1000000 * s.seconds, s)
  connect s _ := (.ok ⟨⟨⟩, []⟩, s)
  compilerHash s files := (.ok "", files, s)
  startPreprocessor s _ := s
  pollPreprocessor s := (none, s)
  stopPreprocessor s := s
  runCompiler s _ files := (some (.ok 0), files, s)
  showStdout s _ := (.ok (), s)
  showStderr s _ := (.ok (), s)
  awaitUnit s _ semaphores := (semaphores, s)
  meanwhile s := ⟨s.seconds + 1⟩
  idle s := some s
  catchUp _ c := c

theorem timePasses_quietHost : TimePasses QuietHost.seconds where
  clock s := Nat.le_refl _
  pollPreprocessor s := Nat.le_refl _
  meanwhile s := Nat.lt_succ_self _
  idle s := ⟨s, rfl, Nat.le_refl _⟩
  unbounded t := by
    refine ⟨t, fun s hs => ?_⟩
    show t ≤ 1000000 * s.seconds
    omega

/-- A compile with the default settings, except that a worker is always tried. -/
def plainRequest : CompileRequest where
  config := { ClientConfig.ofLayers ⟨1, "host", none⟩ ⟨[]⟩ with noLocal := true }
  flags := .none
  invocation := .parse "gcc" ["-c", "a.c"]
  compilerName := "gcc"
  unusable := none

/-- A source of slots without a limit. -/
def unlimitedSlots : SlotController := .ofSource ⟨.const 1, .const "", .const none⟩

theorem serves_quietHost : Serves (ω := QuietHost) plainRequest unlimitedSlots.source .none where
  slot _ := .inl rfl
  compiler _ _ := rfl

/-- A host without files. -/
def emptyTree : FileTree := ⟨[], [], ⟨0, 0⟩⟩

end Offload
