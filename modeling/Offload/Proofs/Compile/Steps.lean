import Offload.Proofs.Compile.Moves

/-!
# The steps of an attempt that do not wait

A step that does not wait goes by moves, and when it fails the compile is to be done on this host
(`Proceeds`). One lemma for each such step; the steps that wait are the matter of another module.
-/

namespace Offload

open Relation

variable {ω κ α β : Type}

/-! ## Running a step -/

namespace Step

/-- What a step comes to, and the state after it. -/
def result (step : Step ω κ α) (run : CompileRun ω κ) : Except Abandon α × CompileRun ω κ :=
  step.run.run run

@[simp] theorem result_pure (a : α) (run : CompileRun ω κ) :
    result (pure a) run = (.ok a, run) := rfl

@[simp] theorem result_get (run : CompileRun ω κ) : result get run = (.ok run, run) := rfl

@[simp] theorem result_set (run after : CompileRun ω κ) :
    result (set after) run = (.ok (), after) := rfl

@[simp] theorem result_modify (f : CompileRun ω κ → CompileRun ω κ) (run : CompileRun ω κ) :
    result (modify f) run = (.ok (), f run) := rfl

@[simp] theorem result_throw (why : Abandon) (run : CompileRun ω κ) :
    result (α := α) (throw why) run = (.error why, run) := rfl

/-- A step is followed by another one, unless it fails. -/
theorem result_bind (step : Step ω κ α) (next : α → Step ω κ β) (run : CompileRun ω κ) :
    result (step >>= next) run = match result step run with
      | (.ok a, after) => result (next a) after
      | (.error why, after) => (.error why, after) := by
  unfold result
  rw [ExceptT.run_bind, StateT.run_bind]
  change (match step.run.run run with | (a, s) => _) = _
  rcases step.run.run run with ⟨_ | a, after⟩ <;> rfl

theorem result_bind_of_ok {step : Step ω κ α} {a : α} {run after : CompileRun ω κ}
    (h : result step run = (.ok a, after)) (next : α → Step ω κ β) :
    result (step >>= next) run = result (next a) after := by
  rw [result_bind, h]

theorem result_bind_of_error {step : Step ω κ α} {why : Abandon} {run after : CompileRun ω κ}
    (h : result step run = (.error why, after)) (next : α → Step ω κ β) :
    result (step >>= next) run = (.error why, after) := by
  rw [result_bind, h]

/-- Two steps succeed one after another. -/
theorem exists_of_result_bind {step : Step ω κ α} {next : α → Step ω κ β} {b : β}
    {run final : CompileRun ω κ} (h : result (step >>= next) run = (.ok b, final)) :
    ∃ a after, result step run = (.ok a, after) ∧ result (next a) after = (.ok b, final) := by
  rcases hresult : result step run with ⟨why | a, after⟩
  · rw [result_bind_of_error hresult] at h
    simp at h
  · rw [result_bind_of_ok hresult] at h
    exact ⟨a, after, rfl, h⟩

end Step

/-! ## Steps that do not wait -/

/-- A step goes by moves, and fails only by leaving the compile to this host. -/
structure Proceeds [Channel κ] [Collaborators ω κ] (closing : Prop) (run : CompileRun ω κ)
    (step : Step ω κ α) : Prop where
  moves : ReflTransGen (Move closing) run (step.result run).2
  failure : ∀ why, (step.result run).1 = .error why → ∃ reason, why = .fallback reason

namespace Proceeds

variable [Channel κ] [Collaborators ω κ] {closing : Prop} {run : CompileRun ω κ}

theorem pure (a : α) : Proceeds closing run (Pure.pure a : Step ω κ α) where
  moves := .refl
  failure why h := by simp at h

theorem giveUp (reason : Fallback) : Proceeds closing run (Attempt.giveUp (α := α) reason) where
  moves := .refl
  failure why h := by
    rw [Attempt.giveUp, Step.result_throw] at h
    exact ⟨reason, (Except.error.inj h).symm⟩

theorem modify {f : CompileRun ω κ → CompileRun ω κ}
    (h : ReflTransGen (Move closing) run (f run)) : Proceeds closing run (modify f : Step ω κ Unit) where
  moves := h
  failure why h := by simp at h

theorem act {f : Parts ω κ → Parts ω κ}
    (h : ReflTransGen (PartsMove closing) run.parts (f run.parts)) :
    Proceeds closing run (Attempt.act f) :=
  modify (Move.of_parts run h)

theorem register {source : EventSource (Parts ω κ)} (h : OfAttempt source) :
    Proceeds closing run (Attempt.register source) :=
  modify (.single (.registered run source h))

theorem set {after : CompileRun ω κ} (h : ReflTransGen (Move closing) run after) :
    Proceeds closing run (set after : Step ω κ Unit) where
  moves := h
  failure why h := by simp at h

/-- One step after another. -/
theorem bind {step : Step ω κ α} {next : α → Step ω κ β} (h : Proceeds closing run step)
    (hnext : ∀ a after, step.result run = (.ok a, after) → Proceeds closing after (next a)) :
    Proceeds closing run (step >>= next) := by
  rcases hresult : step.result run with ⟨_ | a, after⟩
  case error why =>
    refine ⟨?_, fun cause hcause => ?_⟩
    · rw [Step.result_bind_of_error hresult]
      simpa only [hresult] using h.moves
    · rw [Step.result_bind_of_error hresult] at hcause
      obtain rfl := Except.error.inj hcause
      exact h.failure why (by rw [hresult])
  case ok =>
    have hrest := hnext a after hresult
    have hmoves : ReflTransGen (Move closing) run after := by simpa only [hresult] using h.moves
    refine ⟨?_, ?_⟩
    · rw [Step.result_bind_of_ok hresult]
      exact hmoves.trans hrest.moves
    · rw [Step.result_bind_of_ok hresult]
      exact hrest.failure

/-- Looking at the state is no step of its own. -/
theorem get_bind {next : CompileRun ω κ → Step ω κ β} (h : Proceeds closing run (next run)) :
    Proceeds closing run (get >>= next) := by
  refine bind ⟨.refl, fun why hwhy => by simp at hwhy⟩ fun a after hget => ?_
  obtain ⟨rfl, rfl⟩ : run = a ∧ run = after := by simpa using hget
  exact h

end Proceeds

namespace Attempt

variable [Channel κ] [Collaborators ω κ] {closing : Prop} (run : CompileRun ω κ)

theorem proceeds_checkPreprocessor : Proceeds closing run checkPreprocessor := by
  refine .get_bind ?_
  split
  · exact .giveUp _
  · split
    · exact .pure ()
    · exact .giveUp _
  · exact .pure ()

theorem proceeds_preprocessedSource : Proceeds closing run preprocessedSource := by
  refine .get_bind ?_
  split
  · exact .giveUp _
  · exact .pure _
  · exact .giveUp _

theorem proceeds_identify (config : ClientConfig) : Proceeds closing run (identify config) := by
  refine .get_bind (.bind (.set ?_) fun _ after _ => ?_)
  · have hasked : Asked run.parts.surroundings _ := .compilerHash run.parts.surroundings run.files
    exact .tail (.single (.parts run _ (.surroundings run.parts _ hasked))) (.files _ _)
  · split
    · exact .pure _
    · exact .giveUp _

theorem proceeds_connect (request : ConnectRequest) (refused : TransportError → Fallback) :
    Proceeds closing run (connect request refused) := by
  refine .get_bind (.bind (.set ?_) fun _ after _ => ?_)
  · have hasked : Asked run.parts.surroundings _ := .connect run.parts.surroundings request
    refine .tail (.single (.parts run _ (.surroundings run.parts _ hasked))) ?_
    exact .did _ _ rfl (by simp [Deed.isShown])
  · split
    · exact .pure _
    · exact .giveUp _

theorem proceeds_enter (stage : Stage) (h : stage = .finished → closing) :
    Proceeds closing run (act (Parts.enter stage)) :=
  .act (moves_enter stage run.parts h)

/-- What is left of the beginning once the preprocessor runs. -/
theorem proceeds_awaitPreprocessor :
    Proceeds closing run (do
      register Parts.preprocessorSource
      act fun p => p.pollPreprocessor.2
      checkPreprocessor) := by
  refine .bind (.register .preprocessor) fun _ after _ => ?_
  refine .bind (.act (moves_pollPreprocessor after.parts)) fun _ after _ => ?_
  exact proceeds_checkPreprocessor after

theorem proceeds_greetWorker (channel : κ) (wait : Bool) :
    Proceeds closing run (greetWorker channel wait) := by
  refine .bind (.act (.single (.worker run.parts _ fun _ => rfl))) fun _ after _ => ?_
  exact .register .worker

theorem proceeds_checkWorker : Proceeds closing run checkWorker := by
  refine .get_bind ?_
  split
  · split
    · exact .giveUp _
    · exact .pure ()
  · exact .pure ()

theorem proceeds_beginUpload (name : String) (job : JobEnvelope) (payload : Bytes) :
    Proceeds closing run (beginUpload name job payload) := by
  refine .get_bind ?_
  split
  · exact .pure ()
  · split
    · exact .act (.single (.worker run.parts _ fun _ => rfl))
    · exact .giveUp _

theorem proceeds_takeResult (name : String) : Proceeds closing run (takeResult name) := by
  refine .get_bind ?_
  split
  · exact .giveUp _
  · refine .bind (.act (.single (.worker run.parts _ fun h => Option.isSome_map.trans h)))
      fun _ after _ => ?_
    split
    · exact .giveUp _
    · exact .pure _

theorem proceeds_outputPath (inv : Invocation) (file : OutputFile) :
    Proceeds closing run (outputPath inv file) := by
  unfold outputPath
  split
  · exact .pure _
  · exact .pure _
  · exact .giveUp _

theorem proceeds_writeFiles (inv : Invocation) (files : List OutputFile) :
    Proceeds closing run (writeFiles inv files) := by
  induction files generalizing run with
  | nil => exact .pure ()
  | cons file rest ih =>
    refine .bind (proceeds_outputPath run inv file) fun path after _ => .get_bind ?_
    split
    · exact .giveUp _
    · refine .bind (.set (.single (.files after _))) fun _ later _ => ?_
      exact ih later

end Attempt

/-! ## Showing -/

section Showing

variable [Channel κ] [Collaborators ω κ] {closing : Prop} (run : CompileRun ω κ)

/-- The state after something was to be shown, by the answer of the surroundings. -/
def CompileRun.shown (run : CompileRun ω κ) (deed : Deed) :
    Except SystemError Unit × ω → CompileRun ω κ
  | (.ok (), surroundings) => (run.withSurroundings surroundings).note deed
  | (.error _, surroundings) => run.withSurroundings surroundings

omit [Channel κ] in
theorem CompileRun.showStdout_eq (data : Bytes) :
    run.showStdout data
      = run.shown (.shownOnStdout data) (Collaborators.showStdout run.parts.surroundings data) := rfl

omit [Channel κ] in
theorem CompileRun.showStderr_eq (data : Bytes) :
    run.showStderr data
      = run.shown (.shownOnStderr data) (Collaborators.showStderr run.parts.surroundings data) := rfl

theorem moves_shown (h : closing) {deed : Deed} (hdeed : deed.isOfAttempt = true)
    {answer : Except SystemError Unit × ω} (hasked : Asked run.parts.surroundings answer.2) :
    ReflTransGen (Move closing) run (run.shown deed answer) := by
  have hmove : Move closing run (run.withSurroundings answer.2) :=
    .parts run _ (.surroundings run.parts answer.2 hasked)
  rcases answer with ⟨_ | _, surroundings⟩
  · exact .single hmove
  · exact .tail (.single hmove) (.did _ _ hdeed fun _ => h)

theorem moves_showStdout (h : closing) (data : Bytes) :
    ReflTransGen (Move closing) run (run.showStdout data) := by
  rw [CompileRun.showStdout_eq]
  exact moves_shown run h rfl (.showStdout _ _)

theorem moves_showStderr (h : closing) (data : Bytes) :
    ReflTransGen (Move closing) run (run.showStderr data) := by
  rw [CompileRun.showStderr_eq]
  exact moves_shown run h rfl (.showStderr _ _)

theorem moves_showMessages (h : closing) : ReflTransGen (Move closing) run run.showMessages := by
  unfold CompileRun.showMessages
  split
  · exact .refl
  · dsimp only
    split
    · exact .head (.messagesShown run h) (moves_showStderr _ h _)
    · exact .single (.messagesShown run h)

theorem moves_showOutput (h : closing) (result : JobResult) :
    ReflTransGen (Move closing) run (Attempt.showOutput result run) := by
  have hstdout : ReflTransGen (Move closing) run
      (if result.stdout.isEmpty then run else run.showStdout result.stdout) := by
    split
    · exact .refl
    · exact moves_showStdout run h _
  unfold Attempt.showOutput
  dsimp only
  split
  · exact hstdout
  · exact hstdout.trans (moves_showStderr _ h _)

theorem moves_stopWatchdog (h : closing) : Move closing run run.stopWatchdog :=
  .parts run _ (.watchdogStopped run.parts h)

theorem moves_stopPreprocessor : ReflTransGen (Move closing) run run.stopPreprocessor := by
  unfold CompileRun.stopPreprocessor
  split
  · rename_i hrunning
    refine Move.of_parts run ?_
    refine .tail (.single (.surroundings run.parts _ (.stopPreprocessor _))) ?_
    exact .preprocessor { run.parts with surroundings := _ } .stopped hrunning
  · exact .refl

/-- Ending what still runs of an attempt goes by the moves that deliver a result. -/
theorem moves_tearDown (h : closing) : ReflTransGen (Move closing) run run.tearDown :=
  .head (moves_stopWatchdog run h)
    ((moves_stopPreprocessor run.stopWatchdog).trans (moves_showMessages _ h))

end Showing

end Offload
