import Offload.Proofs.Compile.Moves

/-!
# The watchdog watches

A watchdog that was started watches each stage but the last: it has a deadline for the stage, knows
when the stage was entered, and has fired or has a timer that runs (`Watchdog.Watches`). No move
short of the delivery of a result ends that (`kept_guarded`).
-/

namespace Offload

open Relation

/-! ## Watching -/

namespace Watchdog

variable {w : Watchdog} {deadline since now : Nat}

/-- An enabled watchdog has a deadline for the stage it is in, counted from a time. -/
structure Bounds (w : Watchdog) (deadline since : Nat) : Prop where
  enabled : w.enabled = true
  deadline : w.deadlines.forStage? w.stage = some deadline
  since : w.enteredAt? w.stage = some since

/-- A watchdog that watches the stage it is in. -/
structure Watches (w : Watchdog) : Prop where
  bounds : ∃ deadline since, w.Bounds deadline since
  ticks : w.fired = true ∨ ∃ timer, w.timer = some timer

theorem poll_fst_of_le {timer : Timer} (h : w.timer = some timer) (hnow : timer.next ≤ now) :
    (w.poll now).1 = true := by
  simp [poll, h, Timer.poll, Nat.not_lt.mpr hnow]

theorem poll_snd_of_not_due (h : (w.poll now).1 = false) : (w.poll now).2 = w := by
  obtain ⟨_, _, _, _, _ | timer, _⟩ := w
  · rfl
  · by_cases hnow : now < timer.next
    · simp [poll, Timer.poll, hnow]
    · simp [poll, Timer.poll, hnow] at h

theorem Bounds.poll (h : w.Bounds deadline since) (now : Micros) :
    (w.poll now).2.Bounds deadline since := by
  unfold Watchdog.poll
  split
  · exact h
  · exact ⟨h.enabled, h.deadline, h.since⟩

theorem Bounds.check (h : w.Bounds deadline since) (now : Micros) :
    (w.check now).2.Bounds deadline since := by
  unfold Watchdog.check
  split
  · exact h
  · split
    · exact h
    · exact ⟨h.enabled, h.deadline, h.since⟩

/-- A watchdog that is checked after the deadline has fired. -/
theorem Bounds.check_fired (h : w.Bounds deadline since) (hlate : since + deadline < now) :
    (w.check now).2.fired = true := by
  unfold Watchdog.check
  by_cases hfired : w.fired = true
  · rw [if_pos (by simp [hfired])]
    exact hfired
  · have hlong : ¬ now - since ≤ deadline := by omega
    have hover : w.overrun? now = some (now - since) := by
      simp only [overrun?, h.deadline, h.since, Option.bind_eq_bind, Option.bind_some]
      rw [if_neg hlong]
    rw [if_neg (by simp [hfired, h.enabled]), hover]
    rfl

theorem fired_poll (w : Watchdog) (now : Micros) : (w.poll now).2.fired = w.fired := by
  unfold poll
  split <;> rfl

theorem fired_check (h : w.fired = true) (now : Micros) : (w.check now).2.fired = true := by
  unfold check
  rw [if_pos (by simp [h])]
  exact h

/-- To begin the first stage touches neither the timer nor the timeout. -/
theorem timer_begin (w : Watchdog) (now : Micros) : (w.begin now).timer = w.timer := by
  unfold Watchdog.begin
  split <;> rfl

theorem fired_begin (w : Watchdog) (now : Micros) : (w.begin now).fired = w.fired := by
  unfold Watchdog.begin
  split <;> rfl

theorem Watches.poll (h : w.Watches) (now : Micros) : (w.poll now).2.Watches := by
  obtain ⟨⟨deadline, since, hbounds⟩, hticks⟩ := h
  refine ⟨⟨deadline, since, hbounds.poll now⟩, ?_⟩
  rw [fired_poll]
  refine hticks.imp_right fun ⟨timer, htimer⟩ => ?_
  simp [Watchdog.poll, htimer]

theorem Watches.check (h : w.Watches) (now : Micros) : (w.check now).2.Watches := by
  obtain ⟨⟨deadline, since, hbounds⟩, hticks⟩ := h
  refine ⟨⟨deadline, since, hbounds.check now⟩, ?_⟩
  unfold Watchdog.check
  split
  · exact hticks
  · split
    · exact hticks
    · exact .inl rfl

/-- Every stage but the last is bounded once it is entered. -/
theorem Watches.transition (h : w.Watches) {stage : Stage} (hstage : stage ≠ .finished)
    (now : Micros) : (w.transition stage now).2.Watches := by
  unfold Watchdog.transition
  split
  · exact h
  · obtain ⟨⟨deadline, since, hbounds⟩, hticks⟩ := h
    obtain ⟨d, hd⟩ : ∃ d, w.deadlines.forStage? stage = some d := by
      cases stage <;> simp [StageDeadlines.forStage?] at hstage ⊢
    exact ⟨⟨d, now, hbounds.enabled, hd, by simp [enteredAt?]⟩, hticks⟩

theorem Bounds.begin (h : w.Bounds deadline since) (now : Micros) :
    (w.begin now).Bounds deadline since := by
  unfold Watchdog.begin
  split
  · exact h
  · rename_i hinit
    -- only another stage than the first can have been entered
    have hstage : Stage.init ≠ w.stage := by
      intro heq
      rw [heq, h.since] at hinit
      simp at hinit
    refine ⟨h.enabled, h.deadline, ?_⟩
    have hfind : ((Stage.init, now) :: w.entered).find? (fun e => e.1 == w.stage)
        = w.entered.find? fun e => e.1 == w.stage := by
      rw [List.find?_cons_of_neg (by simpa using hstage)]
    rw [enteredAt?, hfind]
    exact h.since

theorem Watches.start (h : w.Watches) (now : Micros) : (w.start now).Watches := by
  obtain ⟨⟨deadline, since, hbounds⟩, hticks⟩ := h
  have hbegin := hbounds.begin now
  unfold Watchdog.start
  dsimp only
  split
  · exact ⟨⟨deadline, since, hbegin.enabled, hbegin.deadline, hbegin.since⟩, .inr ⟨_, rfl⟩⟩
  · refine ⟨⟨deadline, since, hbegin⟩, ?_⟩
    rw [fired_begin, timer_begin]
    exact hticks

/-- A watchdog that is enabled watches as soon as it is started. -/
theorem watches_start_ofConfig {config : ClientConfig} (h : config.watchdog = true)
    (now : Micros) : ((ofConfig config).start now).Watches := by
  have hstart : (ofConfig config).start now
      = ⟨.ofConfig config, true, .init, [(.init, now)],
          some ⟨now + (StageDeadlines.ofConfig config).tickInterval,
            (StageDeadlines.ofConfig config).tickInterval⟩, none⟩ := by
    simp [ofConfig, ofDeadlines, Watchdog.start, Watchdog.begin, enteredAt?, fired, isRunning, h]
  rw [hstart]
  exact ⟨⟨_, now, rfl, rfl, rfl⟩, .inr ⟨_, rfl⟩⟩

end Watchdog

/-! ## A guarded attempt -/

variable {ω κ : Type} [Channel κ] [Collaborators ω κ] {closing : Prop}

/-- A watchdog watches, and its timer is waited for. -/
structure CompileRun.Guarded (run : CompileRun ω κ) : Prop where
  watches : run.parts.watchdog.Watches
  registered : ∃ id, (id, Parts.watchdogSource) ∈ run.mux.sources

theorem watches_of_partsMove {p p' : Parts ω κ} (hmove : PartsMove False p p')
    (h : p.watchdog.Watches) : p'.watchdog.Watches := by
  cases hmove with
  | watchdogStarted now => exact h.start now
  | watchdogPolled now => exact h.poll now
  | watchdogChecked now => exact h.check now
  | stageEntered stage now hstage => exact h.transition hstage now
  | watchdogStopped hclosing => exact hclosing.elim
  | _ => exact h

theorem watches_of_partsMoves {p p' : Parts ω κ} (hmoves : ReflTransGen (PartsMove False) p p')
    (h : p.watchdog.Watches) : p'.watchdog.Watches := by
  induction hmoves with
  | refl => exact h
  | tail _ hlast ih => exact watches_of_partsMove hlast ih

/-- Until a result is delivered, an attempt stays guarded. -/
theorem kept_guarded : KeptByMoves (ω := ω) (κ := κ) False CompileRun.Guarded := by
  intro run after hmove hrun
  refine ⟨?_, kept_registered Parts.watchdogSource run after hmove hrun.registered⟩
  cases hmove with
  | parts p h => exact watches_of_partsMove h hrun.watches
  | _ => exact hrun.watches

end Offload
