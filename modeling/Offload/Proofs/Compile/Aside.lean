import Offload.Proofs.Compile.Leads

/-!
# What a step leaves alone

Most steps of an attempt act neither on the watchdog nor on the conversation with the worker. What a
step leaves alone is said of a view of the parts (`Leaves`), so that the watchdog and the worker can
be followed through an attempt by the few steps that act on them. Such a step never fails for a
timeout.
-/

namespace Offload

open Relation

variable {ω κ α β γ : Type}

/-! ## The judgement -/

/-- A step changes nothing that is seen in a view, and if it fails, then not for a timeout. -/
structure Leaves [Channel κ] [Collaborators ω κ] (view : Parts ω κ → γ) (run : CompileRun ω κ)
    (step : Step ω κ α) : Prop where
  view : view (step.result run).2.parts = view run.parts
  sourced : run.Sourced → (step.result run).2.Sourced
  untimely : ∀ timeout, (step.result run).1 ≠ .error (.fallback (.timeout timeout))

/-- What is seen in a view, in a state of an attempt. -/
structure CompileRun.Seen [Channel κ] [Collaborators ω κ] (view : Parts ω κ → γ) (P : γ → Prop)
    (run : CompileRun ω κ) : Prop where
  sourced : run.Sourced
  holds : P (view run.parts)

namespace Leaves

variable [Channel κ] [Collaborators ω κ] {view : Parts ω κ → γ} {run : CompileRun ω κ}

theorem pure (a : α) : Leaves view run (Pure.pure a : Step ω κ α) where
  view := rfl
  sourced h := h
  untimely timeout h := by cases h

theorem throw {why : Abandon} (h : ∀ timeout, why ≠ .fallback (.timeout timeout)) :
    Leaves (α := α) view run (MonadExcept.throw why : Step ω κ α) where
  view := rfl
  sourced h := h
  untimely timeout herror := h timeout (Except.error.inj herror)

theorem giveUp {reason : Fallback} (h : ∀ timeout, reason ≠ .timeout timeout) :
    Leaves (α := α) view run (Attempt.giveUp reason) :=
  throw fun timeout hwhy => h timeout (Abandon.fallback.inj hwhy)

theorem modify {f : CompileRun ω κ → CompileRun ω κ} (hview : view (f run).parts = view run.parts)
    (hsourced : run.Sourced → (f run).Sourced) :
    Leaves view run (modify f : Step ω κ Unit) where
  view := hview
  sourced := hsourced
  untimely timeout h := by cases h

theorem act {f : Parts ω κ → Parts ω κ} (hview : view (f run.parts) = view run.parts) :
    Leaves view run (Attempt.act f) := modify hview id

theorem register {source : EventSource (Parts ω κ)} (h : OfAttempt source) :
    Leaves view run (Attempt.register source) := by
  have hmove : Move False run _ := .registered run source h
  exact modify rfl (kept_sourced run _ hmove)

theorem set {after : CompileRun ω κ} (hview : view after.parts = view run.parts)
    (hsourced : run.Sourced → after.Sourced) : Leaves view run (set after : Step ω κ Unit) where
  view := hview
  sourced := hsourced
  untimely timeout h := by cases h

/-- One step after another. -/
theorem bind {step : Step ω κ α} {next : α → Step ω κ β} (h : Leaves view run step)
    (hnext : ∀ a after, step.result run = (.ok a, after) → Leaves view after (next a)) :
    Leaves view run (step >>= next) := by
  rcases hresult : step.result run with ⟨_ | a, after⟩
  case error why =>
    refine ⟨?_, ?_, fun timeout herror => ?_⟩
    · rw [Step.result_bind_of_error hresult]
      simpa only [hresult] using h.view
    · rw [Step.result_bind_of_error hresult]
      simpa only [hresult] using h.sourced
    · rw [Step.result_bind_of_error hresult] at herror
      obtain rfl := Except.error.inj herror
      exact h.untimely timeout (by rw [hresult])
  case ok =>
    have hrest := hnext a after hresult
    have hview : view after.parts = view run.parts := by simpa only [hresult] using h.view
    have hsourced : run.Sourced → after.Sourced := by simpa only [hresult] using h.sourced
    refine ⟨?_, ?_, ?_⟩
    · rw [Step.result_bind_of_ok hresult]
      exact hrest.view.trans hview
    · rw [Step.result_bind_of_ok hresult]
      exact fun hrun => hrest.sourced (hsourced hrun)
    · rw [Step.result_bind_of_ok hresult]
      exact hrest.untimely

/-- Looking at the state is no step of its own. -/
theorem get_bind {next : CompileRun ω κ → Step ω κ β} (h : Leaves view run (next run)) :
    Leaves view run (get >>= next) := by
  have hresult : (get >>= next : Step ω κ β).result run = (next run).result run :=
    Step.result_bind_of_ok (Step.result_get run) next
  refine ⟨?_, ?_, ?_⟩
  · rw [hresult]
    exact h.view
  · rw [hresult]
    exact h.sourced
  · rw [hresult]
    exact h.untimely

/-- What is seen is seen after the step as well. -/
theorem leads {step : Step ω κ α} (h : Leaves view run step) {P : γ → Prop}
    {E : Abandon → CompileRun ω κ → Prop} (hrun : run.Seen view P)
    (hE : ∀ why after, after.Seen view P → (∀ timeout, why ≠ .fallback (.timeout timeout)) →
      E why after) :
    Leads False run (fun _ => step) (fun _ after => after.Seen view P) E := by
  have hafter : (step.result run).2.Seen view P :=
    ⟨h.sourced hrun.sourced, h.view ▸ hrun.holds⟩
  refine ⟨fun _ a after hresult => ?_, fun _ why after hresult => ?_, False.elim⟩
  · rw [hresult] at hafter
    exact hafter
  · rw [hresult] at hafter
    refine hE why after hafter fun timeout hwhy => h.untimely timeout ?_
    rw [hresult, hwhy]

end Leaves

/-! ## Steps -/

/-- A view in which neither the compiler and the preprocessor nor the scheduler is seen. -/
structure Blind [Collaborators ω κ] (view : Parts ω κ → γ) : Prop where
  launched : ∀ p inv, view { p with
    surroundings := Collaborators.startPreprocessor p.surroundings inv
    preprocessor := .running } = view p
  ended : ∀ p : Parts ω κ, view p.pollPreprocessor.2 = view p
  hashed : ∀ p files, view { p with
    surroundings := (Collaborators.compilerHash p.surroundings files).2.2 } = view p
  scheduler : ∀ p c, view { p with scheduler := c } = view p

namespace Attempt

variable [Channel κ] [Collaborators ω κ] {view : Parts ω κ → γ} (run : CompileRun ω κ)

theorem leaves_checkPreprocessor : Leaves view run checkPreprocessor := by
  refine .get_bind ?_
  split
  · exact .giveUp nofun
  · split
    · exact .pure ()
    · exact .giveUp nofun
  · exact .pure ()

/-- What is left of the beginning once the watchdog is started. -/
theorem leaves_launch (h : Blind view) (inv : Invocation) :
    Leaves view run (do
      register Parts.watchdogSource
      act fun p => { p with
        surroundings := Collaborators.startPreprocessor p.surroundings inv
        preprocessor := .running }
      register Parts.preprocessorSource
      act fun p => p.pollPreprocessor.2
      checkPreprocessor) := by
  refine .bind (.register .watchdog) fun _ after _ => ?_
  refine .bind (.act (h.launched after.parts inv)) fun _ after _ => ?_
  refine .bind (.register .preprocessor) fun _ after _ => ?_
  refine .bind (.act (h.ended after.parts)) fun _ after _ => ?_
  exact leaves_checkPreprocessor after

theorem leaves_preprocessedSource : Leaves view run preprocessedSource := by
  refine .get_bind ?_
  split
  · exact .giveUp nofun
  · exact .pure _
  · exact .giveUp nofun

theorem leaves_identify (h : Blind view) (config : ClientConfig) :
    Leaves view run (identify config) := by
  refine .get_bind (.bind (.set (h.hashed run.parts run.files) id) fun _ after _ => ?_)
  split
  · exact .pure _
  · exact .giveUp nofun

theorem leaves_connect (request : ConnectRequest) {refused : TransportError → Fallback}
    (h : view { run.parts with
      surroundings := (Collaborators.connect run.parts.surroundings request).2 } = view run.parts)
    (hrefused : ∀ cause timeout, refused cause ≠ .timeout timeout) :
    Leaves view run (connect request refused) := by
  refine .get_bind (.bind (.set h id) fun _ after _ => ?_)
  split
  · exact .pure _
  · exact .giveUp (hrefused _)

theorem leaves_greetScheduler (h : Blind view) (client : String) (channel : κ) :
    Leaves view run (greetScheduler client channel) :=
  .bind (.act (h.scheduler run.parts _)) fun _ _ _ => .register .scheduler

theorem leaves_assignment : Leaves view run assignment := by
  refine .get_bind ?_
  split
  · exact .pure _
  · exact .throw nofun
  · exact .giveUp nofun
  · exact .giveUp nofun
  · exact .giveUp nofun
  · exact .giveUp nofun
  · exact .giveUp nofun

theorem leaves_checkWorker : Leaves view run checkWorker := by
  refine .get_bind ?_
  split
  · split
    · exact .giveUp nofun
    · exact .pure ()
  · exact .pure ()

theorem leaves_outputPath (inv : Invocation) (file : OutputFile) :
    Leaves view run (outputPath inv file) := by
  unfold outputPath
  split
  · exact .pure _
  · exact .pure _
  · exact .giveUp nofun

theorem leaves_writeFiles (inv : Invocation) (files : List OutputFile) :
    Leaves view run (writeFiles inv files) := by
  induction files generalizing run with
  | nil => exact .pure ()
  | cons file rest ih =>
    refine .bind (leaves_outputPath run inv file) fun path after _ => .get_bind ?_
    split
    · exact .giveUp nofun
    · exact .bind (.set rfl id) fun _ later _ => ih later

/-! ## What a step that succeeds has seen -/

section Seen

omit [Channel κ] [Collaborators ω κ]

variable {run}

theorem result_checkWorker_ok {after : CompileRun ω κ} {a : Unit}
    (h : (checkWorker : Step ω κ Unit).result run = (.ok a, after)) :
    after = run ∧ after.parts.workerIs (fun c => c.state = .failed) = false := by
  unfold checkWorker at h
  rw [Step.result_bind_of_ok (Step.result_get run)] at h
  split at h
  · rename_i c hc
    split at h
    · cases (Prod.mk.inj h).1
    · rename_i hstate
      obtain rfl := (Prod.mk.inj h).2
      exact ⟨rfl, by simp [Parts.workerIs, hc, hstate]⟩
  · rename_i hc
    obtain rfl := (Prod.mk.inj h).2
    exact ⟨rfl, by simp [Parts.workerIs, hc]⟩

/-- A preprocessor that has not failed may still run, or has ended well. -/
theorem result_checkPreprocessor_ok {after : CompileRun ω κ}
    {a : Unit} (h : (checkPreprocessor : Step ω κ Unit).result run = (.ok a, after)) :
    ∀ result, after.parts.preprocessor = .ended (.ok result) → result.succeeded = true := by
  unfold checkPreprocessor at h
  rw [Step.result_bind_of_ok (Step.result_get run)] at h
  intro result hresult
  split at h
  · cases (Prod.mk.inj h).1
  · rename_i other hother
    split at h
    · rename_i hsucceeded
      obtain rfl := (Prod.mk.inj h).2
      rw [hother] at hresult
      obtain rfl := Except.ok.inj (Preprocessor.ended.inj hresult)
      exact hsucceeded
    · cases (Prod.mk.inj h).1
  · rename_i hother
    obtain rfl := (Prod.mk.inj h).2
    exact absurd hresult (hother _)

/-- The source is what a preprocessor that ended made of it. -/
theorem result_preprocessedSource_ok {after : CompileRun ω κ}
    {payload : Bytes} (h : (preprocessedSource : Step ω κ Bytes).result run = (.ok payload, after)) :
    after = run ∧ ∃ result, after.parts.preprocessor = .ended (.ok result) ∧
      payload = result.stdout := by
  unfold preprocessedSource at h
  rw [Step.result_bind_of_ok (Step.result_get run)] at h
  split at h
  · cases (Prod.mk.inj h).1
  · rename_i result hresult
    obtain ⟨hpayload, rfl⟩ := Prod.mk.inj h
    exact ⟨rfl, result, hresult, (Except.ok.inj hpayload).symm⟩
  · cases (Prod.mk.inj h).1

/-- A worker is that which the scheduler assigned. -/
theorem result_assignment_ok {after : CompileRun ω κ}
    {worker : Assignment}
    (h : (assignment : Step ω κ Assignment).result run = (.ok worker, after)) :
    after = run ∧ schedulerOutcome? after.parts = some (.assigned worker) := by
  unfold assignment at h
  rw [Step.result_bind_of_ok (Step.result_get run)] at h
  split at h
  · rename_i other hother
    obtain ⟨hworker, rfl⟩ := Prod.mk.inj h
    obtain rfl := Except.ok.inj hworker
    exact ⟨rfl, hother⟩
  all_goals cases (Prod.mk.inj h).1

end Seen

omit [Channel κ] in
theorem result_connect (request : ConnectRequest) (refused : TransportError → Fallback) :
    (connect request refused).result run =
      ((Collaborators.connect run.parts.surroundings request).1.mapError
          fun cause => .fallback (refused cause),
        (run.withSurroundings (Collaborators.connect run.parts.surroundings request).2).note
          (.requested request)) := by
  unfold connect
  rw [Step.result_bind_of_ok (Step.result_get run)]
  dsimp only
  rw [Step.result_bind_of_ok (Step.result_set run _)]
  cases (Collaborators.connect run.parts.surroundings request).1 <;> rfl

end Attempt

end Offload
