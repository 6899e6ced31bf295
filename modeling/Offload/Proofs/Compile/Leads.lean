import Offload.Proofs.Compile.Progress
import Offload.Proofs.Compile.Steps

/-!
# The steps of an attempt that may wait

A step that may wait depends on a bound on the waiting. `Leads` says what holds when the step
succeeds and what holds when it fails, whatever the bound; and if time passes, the step ends, and
ends alike from some bound on. The rule for `await` rests on what a wait keeps and on the watchdog,
which bounds it.
-/

namespace Offload

open Relation Multiplexer

variable {ω κ α β : Type}

/-! ## The judgement -/

/-- What a step that may wait leads to, from a state: `Q` when it succeeds and `E` when it fails.
When it is `timely` it comes to an end that no longer waiting changes. -/
structure Leads (timely : Prop) (run : CompileRun ω κ) (step : Nat → Step ω κ α)
    (Q : α → CompileRun ω κ → Prop) (E : Abandon → CompileRun ω κ → Prop) : Prop where
  success : ∀ rounds a after, (step rounds).result run = (.ok a, after) → Q a after
  failure : ∀ rounds why after, (step rounds).result run = (.error why, after) → E why after
  settles : timely → ∃ enough answer, answer.1 ≠ .error .stalled ∧
    ∀ rounds, enough ≤ rounds → (step rounds).result run = answer

namespace Leads

variable {timely : Prop} {run : CompileRun ω κ} {Q : α → CompileRun ω κ → Prop}
  {R : β → CompileRun ω κ → Prop} {E : Abandon → CompileRun ω κ → Prop}

/-- A step that does not wait leads to what it comes to. -/
theorem of_ok {step : Step ω κ α} {a : α} {after : CompileRun ω κ}
    (h : step.result run = (.ok a, after)) (hQ : Q a after) :
    Leads timely run (fun _ => step) Q E where
  success _ b other hother := by
    obtain ⟨rfl, rfl⟩ : a = b ∧ after = other := by simpa [h] using hother
    exact hQ
  failure _ why other hother := by simp [h] at hother
  settles _ := ⟨0, (.ok a, after), by simp, fun _ _ => h⟩

theorem of_error {step : Step ω κ α} {why : Abandon} {after : CompileRun ω κ}
    (h : step.result run = (.error why, after)) (hE : E why after) (hwhy : why ≠ .stalled) :
    Leads timely run (fun _ => step) Q E where
  success _ b other hother := by simp [h] at hother
  failure _ cause other hother := by
    obtain ⟨rfl, rfl⟩ : why = cause ∧ after = other := by simpa [h] using hother
    exact hE
  settles _ := ⟨0, (.error why, after), by simpa using hwhy, fun _ _ => h⟩

/-- One step after another. -/
theorem bind {step : Nat → Step ω κ α} {next : Nat → α → Step ω κ β}
    (h : Leads timely run step Q E)
    (hnext : ∀ a after, Q a after → Leads timely after (fun rounds => next rounds a) R E) :
    Leads timely run (fun rounds => step rounds >>= next rounds) R E where
  success rounds b final hfinal := by
    obtain ⟨a, after, hresult, hfinal⟩ := Step.exists_of_result_bind hfinal
    exact (hnext a after (h.success rounds a after hresult)).success rounds b final hfinal
  failure rounds why final hfinal := by
    rcases hresult : (step rounds).result run with ⟨cause | a, after⟩
    · rw [Step.result_bind_of_error hresult] at hfinal
      obtain ⟨rfl, rfl⟩ : cause = why ∧ after = final := by simpa using hfinal
      exact h.failure rounds cause after hresult
    · rw [Step.result_bind_of_ok hresult] at hfinal
      exact (hnext a after (h.success rounds a after hresult)).failure rounds why final hfinal
  settles htimely := by
    obtain ⟨enough, ⟨why | a, after⟩, hstalled, hend⟩ := h.settles htimely
    · refine ⟨enough, (.error why, after), ?_, fun rounds hle => ?_⟩
      · intro hwhy
        exact hstalled (congrArg Except.error (Except.error.inj hwhy))
      · exact Step.result_bind_of_error (hend rounds hle) _
    -- the first step ends alike from some bound on, so the second always starts from one state
    · have hQ : Q a after := h.success enough a after (hend enough (Nat.le_refl _))
      obtain ⟨more, answer, hlast, hmore⟩ := (hnext a after hQ).settles htimely
      refine ⟨max enough more, answer, hlast, fun rounds hle => ?_⟩
      rw [Step.result_bind_of_ok (hend rounds (by omega))]
      exact hmore rounds (by omega)

/-- Looking at the state is no step of its own. -/
theorem get_bind {next : Nat → CompileRun ω κ → Step ω κ β}
    (h : Leads timely run (fun rounds => next rounds run) R E) :
    Leads timely run (fun rounds => get >>= next rounds) R E := by
  have hresult (rounds : Nat) :
      (get >>= next rounds : Step ω κ β).result run = (next rounds run).result run :=
    Step.result_bind_of_ok (Step.result_get run) _
  refine ⟨fun rounds => ?_, fun rounds => ?_, ?_⟩
  · rw [hresult]
    exact h.success rounds
  · rw [hresult]
    exact h.failure rounds
  · simp only [hresult]
    exact h.settles

theorem mono {step : Nat → Step ω κ α} {Q' : α → CompileRun ω κ → Prop}
    {E' : Abandon → CompileRun ω κ → Prop} (h : Leads timely run step Q E)
    (hQ : ∀ a after, Q a after → Q' a after) (hE : ∀ why after, E why after → E' why after) :
    Leads timely run step Q' E' where
  success rounds a after hafter := hQ a after (h.success rounds a after hafter)
  failure rounds why after hafter := hE why after (h.failure rounds why after hafter)
  settles := h.settles

end Leads

/-- A step that does not wait leads wherever its moves lead. -/
theorem Proceeds.leads [Channel κ] [Collaborators ω κ] {closing timely : Prop}
    {run : CompileRun ω κ} {step : Step ω κ α} (h : Proceeds closing run step) :
    Leads timely run (fun _ => step) (fun _ after => ReflTransGen (Move closing) run after)
      fun why after => (∃ reason, why = .fallback reason) ∧
        ReflTransGen (Move closing) run after := by
  have hmoves := h.moves
  rcases hresult : step.result run with ⟨why | a, after⟩
  · rw [hresult] at hmoves
    obtain ⟨reason, rfl⟩ := h.failure why (by rw [hresult])
    exact .of_error hresult ⟨⟨reason, rfl⟩, hmoves⟩ (by simp)
  · rw [hresult] at hmoves
    exact .of_ok hresult hmoves

/-! ## Waiting -/

variable [Channel κ] [Collaborators ω κ]

namespace Attempt

/-- The wait of an attempt for an aim. -/
def waited (run : CompileRun ω κ) (aim : Parts ω κ → Bool) (rounds : Nat) : Waited (Parts ω κ) Nat :=
  run.mux.runUntil Parts.around (fun p => p.watchdog.fired || aim p) rounds run.parts

/-- What a wait comes to, by the way in which it ended. -/
def verdict (run : CompileRun ω κ) :
    Waited (Parts ω κ) Nat → Except Abandon Unit × CompileRun ω κ
  | .noSources parts => (.error (.fallback .nothingToWaitFor), { run with parts })
  | .pending parts => (.error .stalled, { run with parts })
  | .done _ parts =>
    match parts.watchdog.timeout with
    | some timeout => (.error (.fallback (.timeout timeout)), { run with parts })
    | none => (.ok (), { run with parts })

omit [Channel κ] in
theorem result_await (rounds : Nat) (aim : Parts ω κ → Bool) (run : CompileRun ω κ) :
    (await rounds aim).result run = verdict run (waited run aim rounds) := by
  unfold await waited
  rw [Step.result_bind_of_ok (Step.result_get run)]
  dsimp only
  cases run.mux.runUntil Parts.around (fun p => p.watchdog.fired || aim p) rounds run.parts with
  | noSources parts => rfl
  | pending parts => rfl
  | done n parts =>
    rw [Step.result_bind_of_ok (Step.result_set run _)]
    unfold verdict
    cases htimeout : parts.watchdog.timeout with
    | none =>
      simp only [htimeout]
      rfl
    | some timeout =>
      simp only [htimeout]
      rfl

omit [Channel κ] [Collaborators ω κ]

variable {run : CompileRun ω κ} {w : Waited (Parts ω κ) Nat}

theorem verdict_snd (run : CompileRun ω κ) (w : Waited (Parts ω κ) Nat) :
    (verdict run w).2 = { run with parts := w.state } := by
  cases w with
  | noSources parts => rfl
  | pending parts => rfl
  | done n parts =>
    unfold verdict
    dsimp only
    split <;> rfl

/-- A wait succeeds if it is over and the watchdog has not fired. -/
theorem verdict_ok (h : (verdict run w).1 = .ok ()) :
    w.isDone = true ∧ w.state.watchdog.fired = false := by
  cases w with
  | noSources parts => simp [verdict] at h
  | pending parts => simp [verdict] at h
  | done n parts =>
    refine ⟨rfl, ?_⟩
    show parts.watchdog.timeout.isSome = false
    cases htimeout : parts.watchdog.timeout with
    | some timeout => simp [verdict, htimeout] at h
    | none => rfl

/-- A wait fails because the watchdog has fired, or because it is not over. -/
theorem verdict_error {why : Abandon} (h : (verdict run w).1 = .error why) :
    (∃ timeout, why = .fallback (.timeout timeout) ∧ w.state.watchdog.timeout = some timeout) ∨
      (why = .fallback .nothingToWaitFor ∨ why = .stalled) ∧ w.isDone = false := by
  cases w with
  | noSources parts =>
    obtain rfl := Except.error.inj h
    exact .inr ⟨.inl rfl, rfl⟩
  | pending parts =>
    obtain rfl := Except.error.inj h
    exact .inr ⟨.inr rfl, rfl⟩
  | done n parts =>
    cases htimeout : parts.watchdog.timeout with
    | none => simp [verdict, htimeout] at h
    | some timeout =>
      simp only [verdict, htimeout] at h
      obtain rfl := Except.error.inj h
      exact .inl ⟨timeout, rfl, htimeout⟩

/-- Waiting changes nothing but the parts. -/
theorem eq_of_await [Collaborators ω κ] {aim : Parts ω κ → Bool} {rounds : Nat}
    {answer : Except Abandon Unit} {after : CompileRun ω κ}
    (h : (await rounds aim).result run = (answer, after)) :
    after = { run with parts := (waited run aim rounds).state } := by
  rw [result_await] at h
  rw [← verdict_snd, h]

/-- A wait that succeeds has reached its aim before the watchdog fired. -/
theorem reached_of_await [Collaborators ω κ] {aim : Parts ω κ → Bool} {rounds : Nat}
    {a : Unit} {after : CompileRun ω κ} (h : (await rounds aim).result run = (.ok a, after)) :
    after.parts.watchdog.fired = false ∧ aim after.parts = true := by
  rw [eq_of_await h]
  rw [result_await] at h
  obtain ⟨hdone, hfired⟩ := verdict_ok (congrArg Prod.fst h)
  -- the wait is for the aim or the watchdog, and it was not the watchdog
  refine ⟨hfired, ?_⟩
  rcases (Bool.or_eq_true _ _).mp (runUntil_finished _ rounds run.parts hdone) with hwatchdog | haim
  · exact absurd (hwatchdog.symm.trans hfired) (by decide)
  · exact haim

/-- A wait that is over does not stall. -/
theorem verdict_not_stalled (h : w.isDone = true) : (verdict run w).1 ≠ .error .stalled := by
  obtain ⟨n, parts, rfl⟩ := Waited.exists_of_isDone h
  unfold verdict
  dsimp only
  split <;> simp

end Attempt

/-- Polling does not make the watchdog fire. -/
theorem kept_notFired {mux : Multiplexer (Parts ω κ)}
    (hmux : ∀ source ∈ mux.sources, OfAttempt source.2) :
    KeptByPolling Parts.around mux fun p : Parts ω κ => p.watchdog.fired = false where
  poll source hsource p hp := by
    rcases watchdog_poll (hmux source hsource) p with hsame | ⟨hself, -⟩
    · rw [hsame]
      exact hp
    · rw [hself]
      exact (Watchdog.fired_poll _ _).trans hp
  meanwhile p hp := hp
  idle p later hp hlater := by
    obtain ⟨s, -, rfl⟩ := surroundings_of_idle hlater
    exact hp

/-- What holds of the conversation with the scheduler whatever is left in its outbox, holds while
sources are polled. -/
theorem kept_schedulerIs_polling {mux : Multiplexer (Parts ω κ)}
    (hmux : ∀ source ∈ mux.sources, OfAttempt source.2) {S : SchedulerConversation → Prop}
    (hS : ∀ c, S c → ∀ frames, S (Conversation.withOutbox c frames)) :
    KeptByPolling Parts.around mux fun p : Parts ω κ => p.SchedulerIs S where
  poll source hsource p hp := by
    have hattempt := hmux source hsource
    generalize source.2 = polled at hattempt ⊢
    cases hattempt with
    | watchdog => exact hp
    | preprocessor =>
      change Parts.SchedulerIs S p.pollPreprocessor.2
      unfold Parts.pollPreprocessor
      split
      · split <;> exact hp
      · exact hp
    | scheduler =>
      change Parts.SchedulerIs S p.pollScheduler.2
      unfold Parts.pollScheduler
      split
      · rename_i c hc
        intro d hd
        obtain rfl := Option.some.inj hd
        rcases Connection.conversation_poll c with hsame | ⟨frames, htook⟩
        · rw [hsame]
          exact hp c hc
        · rw [htook]
          exact hS _ (hp c hc) frames
      · exact hp
    | worker =>
      change Parts.SchedulerIs S p.pollWorker.2
      unfold Parts.pollWorker
      split <;> exact hp
  meanwhile p hp := by
    intro d hd
    obtain ⟨c, hc, rfl⟩ := Option.map_eq_some_iff.mp hd
    exact hp c hc
  idle p later hp hlater := by
    obtain ⟨s, -, rfl⟩ := surroundings_of_idle hlater
    exact hp

namespace Attempt

variable {timely : Prop} {run : CompileRun ω κ} {aim : Parts ω κ → Bool}

theorem moves_waited (hsourced : run.Sourced) (rounds : Nat) :
    ReflTransGen (Move False) run { run with parts := (waited run aim rounds).state } :=
  Move.of_parts run (state_runUntil (moves_of_waiting run.mux hsourced run.parts) _ rounds _ .refl)

/-- A wait that is not over is left where the watchdog has not fired and the aim is missed. -/
theorem waited_unfinished {L : Parts ω κ → Prop} (hsourced : run.Sourced)
    (hL : KeptByPolling Parts.around run.mux L) (hmissed : ∀ p, aim p = false → L p) (rounds : Nat)
    (hend : (waited run aim rounds).isDone = false) :
    (waited run aim rounds).state.watchdog.fired = false ∧ L (waited run aim rounds).state := by
  have hnotFired : KeptByPolling Parts.around run.mux fun p => p.watchdog.fired = false :=
    kept_notFired hsourced
  have hboth : KeptByPolling Parts.around run.mux fun p => p.watchdog.fired = false ∧ L p := by
    refine ⟨?_, ?_, ?_⟩
    · intro source hsource p hp
      exact ⟨hnotFired.poll source hsource p hp.1, hL.poll source hsource p hp.2⟩
    · intro p hp
      exact ⟨hp.1, hL.meanwhile p hp.2⟩
    · intro p later hp hlater
      exact ⟨hnotFired.idle p later hp.1 hlater, hL.idle p later hp.2 hlater⟩
  have hwaiting : KeptByWaiting Parts.around run.mux
      fun p => ReflTransGen (PartsMove False) run.parts p :=
    moves_of_waiting run.mux hsourced run.parts
  refine runUntil_unfinished hwaiting hboth _ ?_ rounds run.parts .refl hend
  intro p _ hp
  obtain ⟨hfired, hno⟩ := Bool.or_eq_false_iff.mp hp
  exact ⟨hfired, hmissed p hno⟩

/-- Waiting ends where the aim is reached before the watchdog fires, and otherwise with the watchdog
fired or where polling found nothing to do. -/
theorem leads_await (htime : timely → ∃ age : ω → Nat, TimePasses age) (hsourced : run.Sourced)
    (hguarded : timely → run.Guarded) {L : Parts ω κ → Prop}
    (hL : KeptByPolling Parts.around run.mux L) (hmissed : ∀ p, aim p = false → L p) :
    Leads timely run (fun rounds => await rounds aim)
      (fun _ after => ReflTransGen (Move False) run after ∧ after.parts.watchdog.fired = false ∧
        aim after.parts = true)
      fun why after => ReflTransGen (Move False) run after ∧ (∀ v, why ≠ .tooOld v) ∧
        (why = .stalled → after.parts.watchdog.fired = false) ∧
        (after.parts.watchdog.fired = true ∨ L after.parts) where
  success rounds a after hresult := by
    have hreached := reached_of_await hresult
    obtain rfl := eq_of_await hresult
    exact ⟨moves_waited hsourced rounds, hreached⟩
  failure rounds why after hresult := by
    obtain rfl := eq_of_await hresult
    rw [result_await] at hresult
    have hmoves : ReflTransGen (Move False) run
        { run with parts := (waited run aim rounds).state } := moves_waited hsourced rounds
    have herror : (verdict run (waited run aim rounds)).1 = .error why := by rw [hresult]
    rcases verdict_error herror with ⟨timeout, rfl, htimeout⟩ | ⟨hwhy, hend⟩
    · exact ⟨hmoves, by simp, by simp, .inl (Option.isSome_of_eq_some htimeout)⟩
    · obtain ⟨hfired, hl⟩ := waited_unfinished hsourced hL hmissed rounds hend
      have hold : ∀ v, why ≠ .tooOld v := by rcases hwhy with rfl | rfl <;> simp
      exact ⟨hmoves, hold, fun _ => hfired, .inr hl⟩
  settles htimely := by
    obtain ⟨age, hage⟩ := htime htimely
    obtain ⟨enough, n, last, hend⟩ := settles_of_guarded hage run hsourced (hguarded htimely) aim
    refine ⟨enough, verdict run (.done n last), verdict_not_stalled rfl, fun rounds hle => ?_⟩
    rw [result_await, waited, runUntil_of_le hle hend]

end Attempt

end Offload
