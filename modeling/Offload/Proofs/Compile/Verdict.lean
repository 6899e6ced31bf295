import Offload.Proofs.Compile.Leads
import Offload.Proofs.Conversation.Ending

/-!
# The verdict of the scheduler

An attempt fails with the verdict that the client is too old exactly when the conversation with the
scheduler ended in that outcome before the watchdog fired (`Parts.Rejected`). The proof goes through
the steps of an attempt once. Up to the scheduler there is no conversation with it; while its answer
is waited for, the conversation is coherent; after that the outcome stays the worker it named.

On the way it is noted what else is known of an attempt that goes on: nothing of it was seen
(`CompileRun.Unseen`), and once the job is handed over the preprocessor has ended well
(`Parts.PreprocessedTo`).
-/

namespace Offload

open Relation Multiplexer

variable {ω κ α : Type}

/-- The scheduler rejected the client, and the watchdog has not fired. -/
structure Parts.Rejected (p : Parts ω κ) (minVersion : String) : Prop where
  outcome : Attempt.schedulerOutcome? p = some (.versionMismatch minVersion)
  inTime : p.watchdog.fired = false

/-- Nothing of an attempt has happened to a compile. -/
structure CompileRun.Unstarted (config : ClientConfig) (run : CompileRun ω κ) : Prop where
  watchdog : run.parts.watchdog = .ofConfig config
  scheduler : run.parts.scheduler = none
  sources : run.mux.sources = []

/-- An attempt passes no milestone and takes no slot. -/
structure CompileRun.Untouched (start run : CompileRun ω κ) : Prop where
  milestones : run.milestones = start.milestones
  slots : run.slots = start.slots
  semaphores : run.semaphores = start.semaphores

/-- Nothing of an attempt was seen: it showed nothing, and all it did to the surroundings was to ask
them. -/
structure CompileRun.Unseen [Collaborators ω κ] (start run : CompileRun ω κ) : Prop where
  silent : start.Silent → run.Silent
  asked : ReflTransGen Asked start.parts.surroundings run.parts.surroundings

/-- The preprocessor is seen to have ended well, with this result. -/
structure Parts.PreprocessedTo (p : Parts ω κ) (result : Preprocessed) : Prop where
  ended : p.preprocessor = .ended (.ok result)
  succeeded : result.succeeded = true

/-- A step of an attempt failed: what it says of the scheduler's verdict is so, and nothing of the attempt was
seen. -/
structure Abandoned [Collaborators ω κ] (start : CompileRun ω κ) (why : Abandon)
    (after : CompileRun ω κ) : Prop where
  rejected : ∀ v, why = .tooOld v ↔ after.parts.Rejected v
  untouched : start.Untouched after
  unseen : start.Unseen after

variable [Channel κ] [Collaborators ω κ] {closing timely : Prop} {start run after : CompileRun ω κ}
  {S : SchedulerConversation → Prop} {known : Option Preprocessed}

theorem kept_untouched (start : CompileRun ω κ) :
    KeptByMoves closing fun run => start.Untouched run := by
  intro run after hmove hrun
  have hkept := kept_milestones start.milestones start.slots start.semaphores run after hmove
    ⟨hrun.milestones, hrun.slots, hrun.semaphores⟩
  exact ⟨hkept.1, hkept.2.1, hkept.2.2⟩

theorem kept_unseen (start : CompileRun ω κ) : KeptByMoves False fun run => start.Unseen run := by
  intro run after hmove hrun
  exact ⟨fun h => kept_silent run after hmove (hrun.silent h),
    kept_asked _ run after hmove hrun.asked⟩

theorem kept_preprocessedTo (result : Preprocessed) :
    KeptByMoves (ω := ω) (κ := κ) closing fun run => run.parts.PreprocessedTo result :=
  fun run after hmove hrun =>
    ⟨kept_preprocessed _ run after hmove hrun.ended, hrun.succeeded⟩

/-- A state of an attempt short of the delivery: what is known of the conversation with the scheduler
is `S`, and what is known of the preprocessor is its result, if any. -/
structure Underway (timely : Prop) (S : SchedulerConversation → Prop) (known : Option Preprocessed)
    (start run : CompileRun ω κ) : Prop where
  untouched : start.Untouched run
  unseen : start.Unseen run
  sourced : run.Sourced
  guarded : timely → run.Guarded
  scheduler : run.parts.SchedulerIs S
  preprocessed : ∀ result ∈ known, run.parts.PreprocessedTo result

/-- What is known of the conversation is kept, and rules the verdict out. -/
structure Innocent (S : SchedulerConversation → Prop) : Prop where
  kept : KeptByTalk S
  accepted : ∀ c, S c → ∀ v, c.outcome ≠ some (.versionMismatch v)

theorem innocent_false : Innocent fun _ => False where
  kept := ⟨fun _ h => h.elim, fun _ h => h.elim⟩
  accepted _ h := h.elim

theorem innocent_endedIn {outcome : SchedulerOutcome} (h : ∀ v, outcome ≠ .versionMismatch v) :
    Innocent (SchedulerConversation.EndedIn outcome) where
  kept := SchedulerConversation.keptByTalk_endedIn outcome
  accepted c hc v := by simpa [hc.outcome] using h v

omit [Channel κ] [Collaborators ω κ] in
theorem not_rejected_of_schedulerIs {p : Parts ω κ}
    (hS : ∀ c, S c → ∀ v, c.outcome ≠ some (.versionMismatch v)) (h : p.SchedulerIs S)
    (v : String) : ¬ p.Rejected v := by
  intro hrejected
  obtain ⟨c, hc, houtcome⟩ := Option.bind_eq_some_iff.mp hrejected.outcome
  exact hS c.conversation (h c hc) v houtcome

namespace Underway

theorem moves (hS : KeptByTalk S) (h : Underway timely S known start run)
    (hmoves : ReflTransGen (Move False) run after) : Underway timely S known start after where
  untouched := (kept_untouched start).moves hmoves h.untouched
  unseen := (kept_unseen start).moves hmoves h.unseen
  sourced := kept_sourced.moves hmoves h.sourced
  guarded htimely := kept_guarded.moves hmoves (h.guarded htimely)
  scheduler := (kept_schedulerIs hS).moves hmoves h.scheduler
  preprocessed result hresult :=
    (kept_preprocessedTo result).moves hmoves (h.preprocessed result hresult)

/-- Without a verdict, what fails leaves the compile to this host. -/
theorem abandoned (hS : Innocent S) (h : Underway timely S known start after) {why : Abandon}
    (hwhy : ∀ v, why ≠ .tooOld v) : Abandoned start why after where
  rejected v :=
    ⟨fun hold => (hwhy v hold).elim,
      fun hrejected => (not_rejected_of_schedulerIs hS.accepted h.scheduler v hrejected).elim⟩
  untouched := h.untouched
  unseen := h.unseen

end Underway

/-! ## Up to the scheduler, and from it on -/

/-- A step that does not wait keeps what is known. -/
theorem leads_of_proceeds (hS : Innocent S) (hrun : Underway timely S known start run)
    {step : Step ω κ α} (h : Proceeds False run step) :
    Leads timely run (fun _ => step) (fun _ after => Underway timely S known start after)
      (Abandoned start) := by
  refine h.leads.mono (fun a after hmoves => hrun.moves hS.kept hmoves) ?_
  rintro why after ⟨⟨reason, rfl⟩, hmoves⟩
  exact (hrun.moves hS.kept hmoves).abandoned hS (by simp)

variable (htime : timely → ∃ age : ω → Nat, TimePasses age)
include htime

/-- A wait for the worker keeps what is known. -/
theorem leads_awaitWorker (hS : Innocent S) (hrun : Underway timely S known start run)
    (aim : Parts ω κ → Bool) :
    Leads timely run (fun rounds => Attempt.awaitWorker rounds aim)
      (fun _ after => Underway timely S known start after) (Abandoned start) := by
  -- how the wait failed does not matter here
  have hall : KeptByPolling (Parts.around (ω := ω) (κ := κ)) run.mux fun _ => True :=
    ⟨fun _ _ _ h => h, fun _ h => h, fun _ _ h _ => h⟩
  refine .bind (Q := fun _ after => Underway timely S known start after) ?_ fun _ after hafter => ?_
  · refine (Attempt.leads_await htime hrun.sourced hrun.guarded hall fun _ _ => trivial).mono ?_ ?_
    · rintro _ after ⟨hmoves, -, -⟩
      exact hrun.moves hS.kept hmoves
    · rintro why after ⟨hmoves, hwhy, -, -⟩
      exact (hrun.moves hS.kept hmoves).abandoned hS hwhy
  · exact leads_of_proceeds hS hafter (Attempt.proceeds_checkWorker after)

omit htime

/-- A preprocessor that has not failed may still run, or has ended well. -/
theorem leads_checkPreprocessor (hS : Innocent S) (hrun : Underway timely S known start run) :
    Leads timely run (fun _ => Attempt.checkPreprocessor)
      (fun _ after => Underway timely S known start after ∧
        ∀ result, after.parts.preprocessor = .ended (.ok result) → result.succeeded = true)
      (Abandoned start) := by
  have hresult : Attempt.checkPreprocessor.result run = _ :=
    Step.result_bind_of_ok (Step.result_get run) _
  cases hpre : run.parts.preprocessor with
  | ended answer =>
    rcases answer with cause | result
    · rw [hpre] at hresult
      exact .of_error hresult (hrun.abandoned hS (by simp)) (by simp)
    · cases hgood : result.succeeded with
      | true =>
        rw [hpre] at hresult
        simp only [hgood] at hresult
        refine .of_ok hresult ⟨hrun, fun other hother => ?_⟩
        obtain rfl : result = other := by simpa [hpre] using hother
        exact hgood
      | false =>
        rw [hpre] at hresult
        simp only [hgood] at hresult
        exact .of_error hresult (hrun.abandoned hS (by simp)) (by simp)
  | _ =>
    rw [hpre] at hresult
    exact .of_ok hresult ⟨hrun, by simp [hpre]⟩

/-- The source is what a preprocessor that ended made of it. -/
theorem leads_preprocessedSource (hS : Innocent S) (hrun : Underway timely S known start run)
    (hwell : ∀ result, run.parts.preprocessor = .ended (.ok result) → result.succeeded = true) :
    Leads timely run (fun _ => Attempt.preprocessedSource)
      (fun _ after => ∃ result, Underway timely S (some result) start after) (Abandoned start) := by
  have hresult : Attempt.preprocessedSource.result run = _ :=
    Step.result_bind_of_ok (Step.result_get run) _
  have hfails {reason : Fallback} {why : Abandon} (h : why = .fallback reason) :
      Abandoned start why run := h ▸ hrun.abandoned hS (by simp)
  cases hpre : run.parts.preprocessor with
  | ended answer =>
    rw [hpre] at hresult
    rcases answer with cause | result
    · exact .of_error hresult (hfails rfl) (by simp)
    · refine .of_ok hresult ⟨result, { hrun with preprocessed := fun other hother => ?_ }⟩
      obtain rfl := Option.some.inj hother
      exact ⟨hpre, hwell result hpre⟩
  | _ =>
    rw [hpre] at hresult
    exact .of_error hresult (hfails rfl) (by simp)

theorem leads_upload (htime : timely → ∃ age : ω → Nat, TimePasses age) (hS : Innocent S)
    (hrun : Underway timely S known start run) (request : CompileRequest) (worker : Assignment)
    (wait : Bool) :
    Leads timely run (fun rounds => Attempt.upload rounds request worker wait)
      (fun _ after => ∃ result, Underway timely S (some result) start after) (Abandoned start) := by
  refine .bind (leads_awaitWorker htime hS hrun _) fun _ after hafter => ?_
  refine .bind (leads_awaitWorker htime hS hafter _) fun _ after hafter => ?_
  refine .bind (leads_checkPreprocessor hS hafter) fun _ after hafter => ?_
  refine .bind (leads_preprocessedSource hS hafter.1 hafter.2) fun payload after hafter => ?_
  obtain ⟨result, hafter⟩ := hafter
  refine .bind (leads_of_proceeds hS hafter (Attempt.proceeds_beginUpload after _ _ payload))
    fun _ after hafter => ?_
  exact (leads_awaitWorker htime hS hafter _).mono (fun _ _ h => ⟨result, h⟩) fun _ _ h => h

/-! ## The answer of the scheduler -/

/-- What an outcome makes of an attempt. -/
def Attempt.answer : SchedulerOutcome → Except Abandon Assignment
  | .assigned worker => .ok worker
  | .versionMismatch minVersion => .error (.tooOld minVersion)
  | .needsEnvironment => .error (.fallback .noEnvironment)
  | .noWorker => .error (.fallback .noWorker)
  | .versionVerified _ => .error (.fallback .noAssignment)
  | .failed error => .error (.fallback (.schedulerFailed error))

omit [Channel κ] [Collaborators ω κ] in
theorem Attempt.result_assignment {outcome : SchedulerOutcome}
    (h : schedulerOutcome? run.parts = some outcome) :
    (assignment : Step ω κ Assignment).result run = (answer outcome, run) := by
  unfold assignment
  rw [Step.result_bind_of_ok (Step.result_get run), h]
  cases outcome <;> rfl

omit [Channel κ] [Collaborators ω κ] in
theorem scheduler_of_schedulerEnded {p : Parts ω κ} (h : p.schedulerEnded = true) :
    ∃ c, p.scheduler = some c ∧ c.conversation.isTerminal = true := by
  obtain ⟨c, hc, hterminal⟩ := (Option.any_eq_true _ _).mp h
  exact ⟨c, hc, hterminal⟩

section Scheduler

open SchedulerConversation

/-- The answer of the scheduler is its verdict, or a worker, or leaves the compile to this host. -/
theorem leads_assignment (hrun : Underway timely Coherent known start run)
    (hfired : run.parts.watchdog.fired = false) (hend : run.parts.schedulerEnded = true) :
    Leads timely run (fun _ => Attempt.assignment)
      (fun worker after => Underway timely (EndedIn (.assigned worker)) known start after)
      (Abandoned start) := by
  obtain ⟨c, hc, hterminal⟩ := scheduler_of_schedulerEnded hend
  obtain ⟨outcome, hended⟩ := (hrun.scheduler c hc).endedIn hterminal
  have hknown : Underway timely (EndedIn outcome) known start run := by
    refine { hrun with scheduler := fun d hd => ?_ }
    obtain rfl : c = d := Option.some.inj (hc.symm.trans hd)
    exact hended
  have houtcome : Attempt.schedulerOutcome? run.parts = some outcome := by
    rw [Attempt.schedulerOutcome?, hc]
    exact hended.outcome
  have hresult := Attempt.result_assignment houtcome
  -- only the verdict of the scheduler is no fallback
  have hinnocent (reason : Fallback) (hanswer : Attempt.answer outcome = .error (.fallback reason))
      (hother : ∀ v, outcome ≠ .versionMismatch v) :
      Leads timely run (fun _ => Attempt.assignment)
        (fun worker after => Underway timely (EndedIn (.assigned worker)) known start after)
        (Abandoned start) := by
    rw [hanswer] at hresult
    exact .of_error hresult (hknown.abandoned (innocent_endedIn hother) (by simp)) (by simp)
  cases outcome with
  | assigned worker => exact .of_ok hresult hknown
  | versionMismatch minVersion =>
    refine .of_error hresult ⟨fun v => ⟨?_, ?_⟩, hrun.untouched, hrun.unseen⟩ (by simp)
    · intro hv
      obtain rfl := Abandon.tooOld.inj hv
      exact ⟨houtcome, hfired⟩
    · intro hrejected
      have hsame := houtcome.symm.trans hrejected.outcome
      simpa using hsame
  | needsEnvironment => exact hinnocent _ rfl (by simp)
  | noWorker => exact hinnocent _ rfl (by simp)
  | versionVerified minVersion => exact hinnocent _ rfl (by simp)
  | failed error => exact hinnocent _ rfl (by simp)

variable (htime : timely → ∃ age : ω → Nat, TimePasses age)
include htime

/-- The wait for the scheduler ends with its answer, or without one. -/
theorem leads_awaitScheduler (hrun : Underway timely Coherent known start run) :
    Leads timely run (fun rounds => Attempt.await rounds Parts.schedulerEnded)
      (fun _ after => Underway timely Coherent known start after ∧ after.parts.watchdog.fired = false ∧
        after.parts.schedulerEnded = true)
      (Abandoned start) := by
  have hopen : KeptByPolling (Parts.around (ω := ω) (κ := κ)) run.mux fun p =>
      p.SchedulerIs fun c => c.isTerminal = false :=
    kept_schedulerIs_polling hrun.sourced fun c hc frames => hc
  have hmissed : ∀ p : Parts ω κ, p.schedulerEnded = false →
      p.SchedulerIs fun c => c.isTerminal = false := by
    intro p hp c hc
    simpa [Parts.schedulerEnded, hc] using hp
  refine (Attempt.leads_await htime hrun.sourced hrun.guarded hopen hmissed).mono ?_ ?_
  · rintro _ after ⟨hmoves, hfired, hend⟩
    exact ⟨hrun.moves keptByTalk_coherent hmoves, hfired, hend⟩
  · rintro why after ⟨hmoves, hwhy, -, hcause⟩
    have hafter := hrun.moves keptByTalk_coherent hmoves
    have hnot : ∀ v, ¬ after.parts.Rejected v := by
      intro v hrejected
      obtain ⟨c, hc, houtcome⟩ := Option.bind_eq_some_iff.mp hrejected.outcome
      -- the watchdog fired first, or the conversation was still open and had no outcome
      rcases hcause with hfired | hrest
      · rw [hrejected.inTime] at hfired
        exact absurd hfired (by decide)
      · rw [(hafter.scheduler c hc).outcome_eq_none (hrest c hc)] at houtcome
        exact absurd houtcome (by simp)
    exact ⟨fun v => ⟨fun hold => (hwhy v hold).elim, fun h => (hnot v h).elim⟩, hafter.untouched,
      hafter.unseen⟩

theorem leads_acquireWorker (hrun : Underway timely (fun _ => False) known start run)
    (request : CompileRequest) (source : String) :
    Leads timely run (fun rounds => Attempt.acquireWorker rounds request source)
      (fun worker after => Underway timely (EndedIn (.assigned worker)) known start after)
      (Abandoned start) := by
  refine .bind (leads_of_proceeds innocent_false hrun (Attempt.proceeds_identify run _))
    fun environment after hafter => ?_
  refine .bind (leads_of_proceeds innocent_false hafter (Attempt.proceeds_connect after _ _))
    fun accepted after hafter => ?_
  refine .bind (leads_of_proceeds innocent_false hafter (Attempt.proceeds_enter after _ (by simp)))
    fun _ after hafter => ?_
  refine .bind (Q := fun _ greeted => Underway timely Coherent known start greeted) ?_
    fun _ greeted hgreeted => ?_
  · -- the conversation begins without an outcome
    let conversation := (ofClient request.config.name).onOpen
    let met : CompileRun ω κ := { after with
      parts := { after.parts with
        scheduler := some (.ofChannel accepted.channel conversation) } }
    have hmet : Underway timely Coherent known start met :=
      { untouched := ⟨hafter.untouched.milestones, hafter.untouched.slots,
          hafter.untouched.semaphores⟩
        unseen := ⟨fun h => ⟨(hafter.unseen.silent h).deeds, (hafter.unseen.silent h).messages⟩,
          hafter.unseen.asked⟩
        sourced := hafter.sourced
        guarded := fun h => ⟨(hafter.guarded h).watches, (hafter.guarded h).registered⟩
        scheduler := fun c hc => by
          obtain rfl := Option.some.inj hc
          exact coherent_onOpen _
        preprocessed := fun result h =>
          ⟨(hafter.preprocessed result h).ended, (hafter.preprocessed result h).succeeded⟩ }
    have hresult : (Attempt.greetScheduler request.config.name accepted.channel).result after
        = (.ok (), met.addSource Parts.schedulerSource) := rfl
    refine .of_ok hresult ?_
    exact hmet.moves keptByTalk_coherent (.single (.registered met _ .scheduler))
  refine .bind (leads_awaitScheduler htime hgreeted) fun _ last hlast => ?_
  exact leads_assignment hlast.1 hlast.2.1 hlast.2.2

end Scheduler

end Offload
