import Offload.Proofs.Compile.Aside
import Offload.Proofs.Compile.Verdict
import Offload.Proofs.Worker.Phases

/-!
# An attempt in order

Some of the reasons to give an attempt up would show that the parts of the client do not fit
together (`Fallback.isInconsistent`): that there is no source to be compiled, nothing to wait for,
no answer of a scheduler that has answered. Each of them is ruled out by what another part
guarantees. This is carried through the attempt as `CompileRun.InOrder`: the watchdog is waited for, the length
of a preprocessed source can be announced, the scheduler has an outcome if it has ended, and the
worker is where the phase of the attempt wants it. In this order a wait ends with its aim, or for a
reason that there can be, and so does every step (`Orderly`).
-/

namespace Offload

open Relation Multiplexer

variable {ω κ α : Type}

/-! ## Reasons -/

/-- Whether a reason would show that the parts of the client do not fit together. -/
def Fallback.isInconsistent : Fallback → Bool
  | .noSingleSource | .nothingToWaitFor | .schedulerSilent | .preprocessorNeverStarted => true
  | .sourceUnavailable | .uploadRefused _ _ | .resultMissing => true
  | _ => false

/-- An attempt stops for a reason that there can be. -/
def Abandon.Consistent (why : Abandon) : Prop :=
  ∀ reason, why = .fallback reason → reason.isInconsistent = false

theorem Abandon.consistent_fallback {reason : Fallback} (h : reason.isInconsistent = false) :
    (Abandon.fallback reason).Consistent := by
  intro other hother
  rw [← Abandon.fallback.inj hother]
  exact h

theorem Abandon.consistent_tooOld (minVersion : String) :
    (Abandon.tooOld minVersion).Consistent := by
  intro reason h
  cases h

theorem Abandon.consistent_stalled : Abandon.stalled.Consistent := by
  intro reason h
  cases h

/-- A step leads to a state in which something holds, or stops for a reason that there can be. -/
abbrev Orderly (run : CompileRun ω κ) (step : Nat → Step ω κ α)
    (Q : α → CompileRun ω κ → Prop) : Prop :=
  Leads False run step Q fun why _ => why.Consistent

/-- A compile that nothing keeps on this host has one source. -/
theorem CompileRequest.sourceFile?_of_free {request : CompileRequest}
    (h : request.forcedReason? = none) :
    ∃ source, request.invocation.sourceFile? = some source := by
  have hlocal : request.invocation.localReason? = none := by
    unfold CompileRequest.forcedReason? at h
    split at h
    · cases h
    · split at h
      · cases h
      · exact Option.map_eq_none_iff.mp h
  unfold Invocation.localReason? at hlocal
  unfold Invocation.sourceFile?
  split at hlocal
  · cases hlocal
  · split at hlocal
    · cases hlocal
    · cases hsources : request.invocation.sources with
      | nil =>
        rw [hsources] at hlocal
        cases hlocal
      | cons source rest =>
        cases rest with
        | nil => exact ⟨source.path, rfl⟩
        | cons other more =>
          rw [hsources] at hlocal
          cases hlocal

/-! ## An attempt in order -/

/-- The length of a source that the preprocessor can make, in surroundings that come from these, is
a number of 64 bits. -/
def SourcesFit [Collaborators ω κ] (surroundings : ω) : Prop :=
  ∀ later result, ReflTransGen Asked surroundings later →
    (Collaborators.pollPreprocessor later).1 = some (.ok result) →
    result.stdout.length < UInt64.size

/-- The length of a source that the preprocessor has made is a number of 64 bits. -/
def Preprocessor.Fits (p : Preprocessor) : Prop :=
  ∀ result, p = .ended (.ok result) → result.stdout.length < UInt64.size

/-- What is known of the conversation with a worker, if there is one, no talk changes. -/
def KeptOnceMet (V : Option WorkerConversation → Prop) : Prop :=
  ∀ c c', ReflTransGen Talk c c' → V (some c) → V (some c')

/-- There is a conversation, of which something holds. -/
def Met (S : WorkerConversation → Prop) (worker : Option WorkerConversation) : Prop :=
  ∃ c, worker = some c ∧ S c

theorem KeptByTalk.met {S : WorkerConversation → Prop} (h : KeptByTalk S) :
    KeptOnceMet (Met S) := by
  intro c c' htalk hmet
  obtain ⟨d, hd, hS⟩ := hmet
  obtain rfl := Option.some.inj hd
  exact ⟨c', rfl, h.talks htalk hS⟩

/-- The conversation with the worker. -/
def Parts.conversation (p : Parts ω κ) : Option WorkerConversation :=
  p.worker.map fun c => c.conversation

/-- An attempt that began in some surroundings is in order. Of the worker, if there is one, `V` is
known. -/
structure CompileRun.InOrder [Channel κ] [Collaborators ω κ] (surroundings : ω)
    (V : Option WorkerConversation → Prop) (run : CompileRun ω κ) : Prop where
  watched : WatchedBy run.mux.sources
  asked : ReflTransGen Asked surroundings run.parts.surroundings
  fits : run.parts.preprocessor.Fits
  scheduler : run.parts.SchedulerIs SchedulerConversation.Coherent
  worker : V run.parts.conversation

section Waiting

variable [Channel κ] [Collaborators ω κ] {mux : Multiplexer (Parts ω κ)} {surroundings : ω}
  {V : Option WorkerConversation → Prop}

theorem asked_of_partsMoves {closing : Prop} {p p' : Parts ω κ}
    (hmoves : ReflTransGen (PartsMove closing) p p')
    (h : ReflTransGen Asked surroundings p.surroundings) :
    ReflTransGen Asked surroundings p'.surroundings := by
  induction hmoves with
  | refl => exact h
  | tail _ hlast ih =>
    cases hlast with
    | surroundings later hasked => exact ih.tail hasked
    | _ => exact ih

omit [Channel κ] in
theorem fits_pollPreprocessor (hfit : SourcesFit surroundings) {p : Parts ω κ}
    (hasked : ReflTransGen Asked surroundings p.surroundings) (h : p.preprocessor.Fits) :
    p.pollPreprocessor.2.preprocessor.Fits := by
  unfold Parts.pollPreprocessor
  split
  · split
    · rename_i answer later hpoll
      intro result hresult
      obtain rfl : answer = .ok result := by simpa using hresult
      exact hfit p.surroundings result hasked (congrArg Prod.fst hpoll)
    · exact h
  · exact h

/-- While sources are polled and dispatched, the preprocessor may end. -/
theorem kept_fits (hfit : SourcesFit surroundings)
    (hmux : ∀ source ∈ mux.sources, OfAttempt source.2) :
    KeptByWaiting Parts.around mux fun p : Parts ω κ =>
      ReflTransGen Asked surroundings p.surroundings ∧ p.preprocessor.Fits where
  poll source hsource p hp := by
    have hattempt := hmux source hsource
    have hmoves : ReflTransGen (PartsMove False) p (source.2.poll p).2 := moves_poll hattempt p
    refine ⟨asked_of_partsMoves hmoves hp.1, ?_⟩
    generalize source.2 = polled at hattempt ⊢
    cases hattempt with
    | watchdog => exact hp.2
    | preprocessor => exact fits_pollPreprocessor hfit hp.1 hp.2
    | scheduler =>
      change p.pollScheduler.2.preprocessor.Fits
      unfold Parts.pollScheduler
      split <;> exact hp.2
    | worker =>
      change p.pollWorker.2.preprocessor.Fits
      unfold Parts.pollWorker
      split <;> exact hp.2
  meanwhile p hp := by
    have hmoves : ReflTransGen (PartsMove False) p p.meanwhile := moves_meanwhile p
    exact ⟨asked_of_partsMoves hmoves hp.1, hp.2⟩
  idle p later hp hlater := by
    obtain ⟨s, hasked, rfl⟩ := surroundings_of_idle hlater
    exact ⟨hp.1.tail hasked, hp.2⟩
  dispatch source hsource p hp := by
    have hattempt := hmux source hsource
    have hmoves : ReflTransGen (PartsMove False) p (source.2.dispatch p) :=
      moves_dispatch hattempt p
    refine ⟨asked_of_partsMoves hmoves hp.1, ?_⟩
    generalize source.2 = told at hattempt ⊢
    cases hattempt with
    | _ => exact hp.2

/-- While sources are polled and dispatched, the worker is talked to. -/
theorem kept_conversation (hV : KeptOnceMet V) (hmux : ∀ source ∈ mux.sources, OfAttempt source.2) :
    KeptByWaiting Parts.around mux fun p : Parts ω κ => V p.conversation where
  poll source hsource p hp := by
    have hattempt := hmux source hsource
    generalize source.2 = polled at hattempt ⊢
    cases hattempt with
    | watchdog => exact hp
    | preprocessor =>
      change V p.pollPreprocessor.2.conversation
      unfold Parts.pollPreprocessor
      split
      · split <;> exact hp
      · exact hp
    | scheduler =>
      change V p.pollScheduler.2.conversation
      unfold Parts.pollScheduler
      split <;> exact hp
    | worker =>
      change V p.pollWorker.2.conversation
      unfold Parts.pollWorker
      split
      · rename_i c hc
        unfold Parts.conversation at hp
        rw [hc] at hp
        exact hV _ _ (Connection.talks_poll c) hp
      · exact hp
  meanwhile p hp := by
    have hsame : p.meanwhile.conversation = p.conversation := by
      unfold Parts.conversation Parts.meanwhile
      cases p.worker <;> rfl
    change V p.meanwhile.conversation
    rw [hsame]
    exact hp
  idle p later hp hlater := by
    obtain ⟨s, -, rfl⟩ := surroundings_of_idle hlater
    exact hp
  dispatch source hsource p hp := by
    have hattempt := hmux source hsource
    generalize source.2 = told at hattempt ⊢
    cases hattempt with
    | worker =>
      change V (Option.map _ (p.worker.map Connection.dispatch))
      unfold Parts.conversation at hp
      cases hc : p.worker with
      | none =>
        rw [hc] at hp
        exact hp
      | some c =>
        rw [hc] at hp
        exact hV _ _ (Connection.talks_dispatch c) hp
    | _ => exact hp

end Waiting

section Steps

variable [Channel κ] [Collaborators ω κ] {surroundings : ω} {V : Option WorkerConversation → Prop}
  {run after : CompileRun ω κ}

namespace CompileRun.InOrder

/-- What goes by moves and acts neither on the preprocessor nor on the worker keeps the order. -/
theorem of_moves (h : run.InOrder surroundings V) (hmoves : ReflTransGen (Move False) run after)
    (hpreprocessor : after.parts.preprocessor = run.parts.preprocessor)
    (hworker : after.parts.worker = run.parts.worker) : after.InOrder surroundings V where
  watched := ⟨kept_sourced.moves hmoves h.watched.sourced,
    (kept_registered Parts.watchdogSource).moves hmoves h.watched.watchdog⟩
  asked := (kept_asked surroundings).moves hmoves h.asked
  fits := hpreprocessor ▸ h.fits
  scheduler := (kept_schedulerIs SchedulerConversation.keptByTalk_coherent).moves hmoves h.scheduler
  worker := by
    unfold Parts.conversation
    rw [hworker]
    exact h.worker

theorem addSource (h : run.InOrder surroundings V) {source : EventSource (Parts ω κ)}
    (hsource : OfAttempt source) : (run.addSource source).InOrder surroundings V :=
  h.of_moves (.single (.registered run source hsource)) rfl rfl

theorem enter (h : run.InOrder surroundings V) {stage : Stage} (hstage : stage ≠ .finished) :
    InOrder surroundings V { run with parts := run.parts.enter stage } :=
  have hmoves : ReflTransGen (PartsMove False) run.parts (run.parts.enter stage) :=
    moves_enter stage run.parts fun hlast => absurd hlast hstage
  h.of_moves (Move.of_parts run hmoves) rfl rfl

/-- The worker is met or talked to. -/
theorem withWorker (h : run.InOrder surroundings V) {V' : Option WorkerConversation → Prop}
    {worker : Option (Connection κ WorkerConversation)}
    (hworker : V' (worker.map fun c => c.conversation)) :
    InOrder surroundings V' { run with parts := { run.parts with worker } } :=
  ⟨h.watched, h.asked, h.fits, h.scheduler, hworker⟩

/-- A worker that was met and has not failed. -/
theorem exists_worker {S : WorkerConversation → Prop} (h : run.InOrder surroundings (Met S))
    (hopen : run.parts.workerIs (fun c => c.state = .failed) = false) :
    ∃ c, run.parts.worker = some c ∧ S c.conversation ∧ c.conversation.state ≠ .failed := by
  obtain ⟨d, hd, hS⟩ := h.worker
  obtain ⟨c, hc, rfl⟩ := Option.map_eq_some_iff.mp hd
  exact ⟨c, hc, hS, by simpa [Parts.workerIs, hc] using hopen⟩

end CompileRun.InOrder

/-! ## Steps -/

namespace Attempt

/-- A wait keeps the order. It ends with its aim, or for a reason that there can be. -/
theorem orderly_await (hfit : SourcesFit surroundings) (hV : KeptOnceMet V)
    (hrun : run.InOrder surroundings V) (aim : Parts ω κ → Bool) :
    Orderly run (fun rounds => await rounds aim)
      (fun _ after => after.InOrder surroundings V ∧ aim after.parts = true) := by
  refine ⟨fun rounds a after hresult => ?_, fun rounds why after hresult => ?_, False.elim⟩
  · obtain ⟨-, haim⟩ := reached_of_await hresult
    obtain rfl := eq_of_await hresult
    have hmoves : ReflTransGen (Move False) run
        { run with parts := (waited run aim rounds).state } :=
      moves_waited hrun.watched.sourced rounds
    have hpreprocessor := state_runUntil (kept_fits hfit hrun.watched.sourced)
      (fun p => p.watchdog.fired || aim p) rounds run.parts ⟨hrun.asked, hrun.fits⟩
    have hworker := state_runUntil (kept_conversation hV hrun.watched.sourced)
      (fun p => p.watchdog.fired || aim p) rounds run.parts hrun.worker
    refine ⟨⟨hrun.watched, hpreprocessor.1, hpreprocessor.2, ?_, hworker⟩, haim⟩
    exact (kept_schedulerIs SchedulerConversation.keptByTalk_coherent).moves hmoves hrun.scheduler
  · rw [result_await] at hresult
    -- the watchdog at least is waited for
    have hsome : ∀ parts, waited run aim rounds ≠ .noSources parts := by
      intro parts
      exact runUntil_ne_noSources hrun.watched.sources_ne_nil _ rounds run.parts parts
    generalize waited run aim rounds = w at hresult hsome
    cases w with
    | noSources parts => exact absurd rfl (hsome parts)
    | pending parts =>
      obtain ⟨rfl, -⟩ : Abandon.stalled = why ∧ _ := by simpa [verdict] using hresult
      exact Abandon.consistent_stalled
    | done n parts =>
      unfold verdict at hresult
      cases htimeout : parts.watchdog.timeout with
      | none => simp [htimeout] at hresult
      | some timeout =>
        obtain ⟨rfl, -⟩ : Abandon.fallback (.timeout timeout) = why ∧ _ := by
          simpa [htimeout] using hresult
        exact Abandon.consistent_fallback rfl

omit [Channel κ] [Collaborators ω κ] in
/-- A preprocessor that is not seen to fail may still run, or has ended well. -/
theorem orderly_checkPreprocessor (run : CompileRun ω κ) :
    Orderly run (fun _ => checkPreprocessor)
      (fun _ after => after = run ∧ ∀ cause, run.parts.preprocessor ≠ .ended (.error cause)) := by
  refine .get_bind ?_
  cases hpreprocessor : run.parts.preprocessor with
  | ended answer =>
    cases answer with
    | error cause => exact .of_error rfl (Abandon.consistent_fallback rfl) (by simp)
    | ok result =>
      dsimp only
      split
      · exact .of_ok rfl ⟨rfl, by simp⟩
      · exact .of_error rfl (Abandon.consistent_fallback rfl) (by simp)
  | _ => exact .of_ok rfl ⟨rfl, by simp⟩

omit [Channel κ] [Collaborators ω κ] in
theorem orderly_checkWorker (run : CompileRun ω κ) :
    Orderly run (fun _ => checkWorker)
      (fun _ after => after = run ∧ run.parts.workerIs (fun c => c.state = .failed) = false) := by
  refine ⟨fun _ a after hresult => ?_, fun _ why after hresult => ?_, False.elim⟩
  · obtain ⟨rfl, hstate⟩ := result_checkWorker_ok hresult
    exact ⟨rfl, hstate⟩
  · unfold checkWorker at hresult
    rw [Step.result_bind_of_ok (Step.result_get run)] at hresult
    split at hresult
    · split at hresult
      · rw [← Except.error.inj (Prod.mk.inj hresult).1]
        exact Abandon.consistent_fallback rfl
      · cases (Prod.mk.inj hresult).1
    · cases (Prod.mk.inj hresult).1

/-- A wait for the worker ends with its aim or the end of a conversation that has not failed. -/
theorem orderly_awaitWorker (hfit : SourcesFit surroundings) (hV : KeptOnceMet V)
    (hrun : run.InOrder surroundings V) (aim : Parts ω κ → Bool) :
    Orderly run (fun rounds => awaitWorker rounds aim)
      (fun _ after => after.InOrder surroundings V ∧
        (aim after.parts || after.parts.workerIs WorkerConversation.isTerminal) = true ∧
        after.parts.workerIs (fun c => c.state = .failed) = false) := by
  refine .bind (orderly_await hfit hV hrun _) fun _ ended hended => ?_
  refine (orderly_checkWorker ended).mono ?_ fun _ _ h => h
  rintro _ after ⟨rfl, hstate⟩
  exact ⟨hended.1, hended.2, hstate⟩

theorem orderly_identify (hrun : run.InOrder surroundings V) (config : ClientConfig) :
    Orderly run (fun _ => identify config) (fun _ after => after.InOrder surroundings V) := by
  have hasked : Asked run.parts.surroundings _ := .compilerHash run.parts.surroundings run.files
  refine .get_bind (.bind (Q := fun _ after => after.InOrder surroundings V)
    (.of_ok (a := ()) rfl ?_) fun _ after hafter => ?_)
  · refine hrun.of_moves (.tail (.single (.parts run _ (.surroundings run.parts _ hasked)))
      (.files _ _)) rfl rfl
  · split
    · exact .of_ok rfl hafter
    · exact .of_error rfl (Abandon.consistent_fallback rfl) (by simp)

theorem orderly_connect (hrun : run.InOrder surroundings V) (request : ConnectRequest)
    {refused : TransportError → Fallback}
    (hrefused : ∀ cause, (refused cause).isInconsistent = false) :
    Orderly run (fun _ => connect request refused)
      (fun _ after => after.InOrder surroundings V) := by
  have hmoves : ReflTransGen (Move False) run _ := (proceeds_connect run request refused).moves
  have hresult := result_connect run request refused
  rw [hresult] at hmoves
  cases hanswer : (Collaborators.connect run.parts.surroundings request).1 with
  | error cause =>
    rw [hanswer] at hresult
    exact .of_error hresult (Abandon.consistent_fallback (hrefused cause)) (by simp)
  | ok accepted =>
    rw [hanswer] at hresult
    exact .of_ok hresult (hrun.of_moves hmoves rfl rfl)

/-- A scheduler that has ended the conversation has answered. -/
theorem orderly_assignment (hrun : run.InOrder surroundings V)
    (hend : run.parts.schedulerEnded = true) :
    Orderly run (fun _ => assignment) (fun _ after => after = run) := by
  obtain ⟨c, hc, hterminal⟩ := scheduler_of_schedulerEnded hend
  obtain ⟨outcome, hended⟩ := (hrun.scheduler c hc).endedIn hterminal
  have houtcome : schedulerOutcome? run.parts = some outcome := by
    rw [schedulerOutcome?, hc]
    exact hended.outcome
  have hresult := result_assignment houtcome
  cases outcome with
  | assigned worker => exact .of_ok hresult rfl
  | versionMismatch minVersion => exact .of_error hresult (Abandon.consistent_tooOld _) (by simp)
  | needsEnvironment => exact .of_error hresult (Abandon.consistent_fallback rfl) (by simp)
  | noWorker => exact .of_error hresult (Abandon.consistent_fallback rfl) (by simp)
  | versionVerified minVersion =>
    exact .of_error hresult (Abandon.consistent_fallback rfl) (by simp)
  | failed error => exact .of_error hresult (Abandon.consistent_fallback rfl) (by simp)

end Attempt

end Steps

end Offload
