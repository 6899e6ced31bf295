import Offload.Proofs.Compile.Leads

/-!
# The end of a delivery

When the files of a result are written, the connection to the scheduler is closed before the output is
shown. That is waited for outside of the multiplexer, with the watchdog stopped, so that nothing bounds the
wait: if the channel stays pending then the compile never ends, although the result is there. While the client
waits it changes its parts in no way but by that channel (`KeptByClosing`), and a longer wait for a close
that came about ends alike (`awaitClosing_of_le`).
-/

namespace Offload

open Relation

variable {ω κ : Type} [Channel κ] [Collaborators ω κ] (run : CompileRun ω κ)

/-! ## Closing -/

/-- What holds of the parts while the connection to the scheduler is closed: its channel changes, and so does
what surrounds the client. -/
structure KeptByClosing (I : Parts ω κ → Prop) : Prop where
  scheduler : ∀ p c channel, p.scheduler = some c → I p →
    I { p with scheduler := some { c with channel } }
  meanwhile : ∀ p, I p → I p.meanwhile
  idle : ∀ p later, p.idle = some later → I p → I later

theorem KeptByClosing.awaitClosing {I : Parts ω κ → Prop} (h : KeptByClosing I) (rounds : Nat)
    (stage : Connection.ClosingStage) (p : Parts ω κ) (hp : I p) :
    I (Attempt.awaitClosing rounds stage p).2 := by
  induction rounds generalizing stage p with
  | zero => exact hp
  | succ rounds ih =>
    have hpolled : I (Attempt.pollClosing stage p).2 := by
      unfold Attempt.pollClosing
      split
      · rename_i c hc
        exact h.scheduler p c _ hc hp
      · exact hp
    rw [Attempt.awaitClosing]
    split
    · rename_i failure after hafter
      rw [hafter] at hpolled
      exact hpolled
    · rename_i next after _ hafter
      rw [hafter] at hpolled
      split
      · exact hpolled
      · rename_i later hlater
        exact ih next later.meanwhile (h.meanwhile later (h.idle after later hlater hpolled))

/-- Closing goes by moves of the parts. -/
theorem moves_awaitClosing {closing : Prop} (rounds : Nat) (stage : Connection.ClosingStage) (p : Parts ω κ) :
    ReflTransGen (PartsMove closing) p (Attempt.awaitClosing rounds stage p).2 := by
  have hkept : KeptByClosing fun q : Parts ω κ => ReflTransGen (PartsMove closing) p q := by
    refine ⟨fun q c channel hc hq => ?_, fun q hq => ?_, fun q later hlater hq => ?_⟩
    · exact hq.tail (.schedulerTalked q c { c with channel } hc .refl)
    · exact hq.trans (moves_meanwhile q)
    · obtain ⟨s, hs, rfl⟩ := surroundings_of_idle hlater
      exact hq.tail (.surroundings q s hs)
  exact hkept.awaitClosing rounds stage p .refl

/-- A longer wait for the same close ends alike. -/
theorem awaitClosing_of_le {rounds more : Nat} (hle : rounds ≤ more)
    {stage : Connection.ClosingStage} {p : Parts ω κ}
    (h : (Attempt.awaitClosing rounds stage p).1 = true) :
    Attempt.awaitClosing more stage p = Attempt.awaitClosing rounds stage p := by
  induction rounds generalizing more stage p with
  | zero => exact absurd h (by simp [Attempt.awaitClosing])
  | succ rounds ih =>
    obtain ⟨more, rfl⟩ : ∃ fewer, more = fewer + 1 := ⟨more - 1, by omega⟩
    rw [Attempt.awaitClosing] at h
    rw [Attempt.awaitClosing, Attempt.awaitClosing]
    generalize Attempt.pollClosing stage p = polled at h
    -- the polls are the same, as long as there is another one
    obtain ⟨next, after⟩ := polled
    cases next with
    | ended failure => rfl
    | _ =>
      dsimp only at h ⊢
      cases hidle : after.idle with
      | none => rfl
      | some later =>
        rw [hidle] at h
        exact ih (by omega) h

/-! ## Presenting a result -/

/-- The state in which the closing of the connection to the scheduler begins: the files are written, and the
messages of the preprocessor are shown. -/
def Attempt.beforeClosing (run : CompileRun ω κ) : CompileRun ω κ :=
  let finished : CompileRun ω κ := { run with parts := run.parts.enter .finished }
  finished.showMessages.stopWatchdog

/-- The wait for the connection to be closed, and whether it has come to that. -/
def Attempt.waitedClosing (rounds : Nat) (run : CompileRun ω κ) : Bool × Parts ω κ :=
  awaitClosing rounds (beginClosing (beforeClosing run).parts) (beforeClosing run).parts

/-- The state after that wait. -/
def Attempt.afterClosing (rounds : Nat) (run : CompileRun ω κ) : CompileRun ω κ :=
  { beforeClosing run with parts := (waitedClosing rounds run).2 }

/-- What is left of a delivery once the files are written. -/
def Attempt.present (rounds : Nat) (result : JobResult) : Step ω κ Unit := do
  modify beforeClosing
  closeScheduler rounds
  modify (showOutput result)

theorem Attempt.deliver_eq (rounds : Nat) (inv : Invocation) (result : JobResult) :
    Attempt.deliver (ω := ω) (κ := κ) rounds inv result
      = (do Attempt.writeFiles inv result.files; Attempt.present rounds result) := rfl

theorem Attempt.result_closeScheduler (rounds : Nat) :
    (closeScheduler rounds).result run =
      (if (awaitClosing rounds (beginClosing run.parts) run.parts).1 then .ok ()
        else .error .stalled,
        { run with parts := (awaitClosing rounds (beginClosing run.parts) run.parts).2 }) := by
  unfold closeScheduler
  rw [Step.result_bind_of_ok (Step.result_get run)]
  rcases awaitClosing rounds (beginClosing run.parts) run.parts with ⟨_ | _, after⟩ <;> rfl

/-- A result is presented unless the connection to the scheduler cannot be closed in the end. -/
theorem Attempt.result_present (rounds : Nat) (result : JobResult) :
    (present rounds result).result run =
      if (waitedClosing rounds run).1 then (.ok (), showOutput result (afterClosing rounds run))
      else (.error .stalled, afterClosing rounds run) := by
  have hclosing := result_closeScheduler (beforeClosing run) rounds
  rw [present, Step.result_bind_of_ok (Step.result_modify _ run), afterClosing, waitedClosing]
  split
  · rename_i hclosed
    rw [if_pos hclosed] at hclosing
    exact (Step.result_bind_of_ok hclosing _).trans (Step.result_modify _ _)
  · rename_i hpending
    rw [if_neg hpending] at hclosing
    exact Step.result_bind_of_error hclosing _

variable {run} in
/-- Presenting a result leads to its state, and does not fail but by waiting. -/
theorem leads_present (result : JobResult) {Q : CompileRun ω κ → Prop}
    (h : ∀ rounds, Q ((Attempt.present rounds result).result run).2) :
    Leads False run (fun rounds => Attempt.present rounds result) (fun _ after => Q after)
      fun why after => why = .stalled ∧ Q after where
  success rounds a after hresult := by
    have hafter := h rounds
    rw [hresult] at hafter
    exact hafter
  failure rounds why after hresult := by
    have hafter := h rounds
    rw [hresult] at hafter
    refine ⟨?_, hafter⟩
    rw [Attempt.result_present] at hresult
    split at hresult
    · cases hresult
    · cases hresult
      rfl
  settles := False.elim

theorem moves_beforeClosing :
    ReflTransGen (Move True) run (Attempt.beforeClosing run) := by
  let finished : CompileRun ω κ := { run with parts := run.parts.enter .finished }
  have hfinished : ReflTransGen (Move True) run finished :=
    Move.of_parts run (moves_enter .finished run.parts fun _ => trivial)
  exact hfinished.trans ((moves_showMessages finished trivial).tail (moves_stopWatchdog _ trivial))

theorem moves_afterClosing (rounds : Nat) :
    ReflTransGen (Move True) run (Attempt.afterClosing rounds run) :=
  (moves_beforeClosing run).trans
    (Move.of_parts (Attempt.beforeClosing run) (moves_awaitClosing rounds _ _))

theorem moves_present (rounds : Nat) (result : JobResult) :
    ReflTransGen (Move True) run ((Attempt.present rounds result).result run).2 := by
  rw [Attempt.result_present]
  split
  · exact (moves_afterClosing run rounds).trans (moves_showOutput _ trivial result)
  · exact moves_afterClosing run rounds

end Offload
