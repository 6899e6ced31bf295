import Offload.Proofs.Watchdog.Firing
import Mathlib.Data.List.Chain

/-!
# An overrun is found in time

A stage that overruns its deadline is found by the first check after the deadline, and the check before
that one was not after it. So if the checks come at most a tick apart, the alarm is at most a tick late
(`detected_in_time`). The checks need not follow each other directly: the timer may be polled, started
and stopped between them. Nor does it matter whether their times only go up.
-/

namespace Offload

namespace StageDeadlines

variable {d : StageDeadlines} {stage : Stage} {deadline : Micros}

/-- Every stage but the last has a deadline. -/
theorem exists_forStage? (d : StageDeadlines) (h : stage ≠ .finished) :
    ∃ deadline, d.forStage? stage = some deadline := by
  cases stage
  case finished => exact absurd rfl h
  all_goals exact ⟨_, rfl⟩

theorem smallest_le (h : d.forStage? stage = some deadline) : d.smallest ≤ deadline := by
  have hleft : d.smallest ≤ min d.schedulerConnect d.workerAcquire := Nat.min_le_left _ _
  have hright : d.smallest ≤ min d.jobUpload d.response := Nat.min_le_right _ _
  cases stage with
  | finished => cases h
  | init => cases h; exact hleft.trans (Nat.min_le_left _ _)
  | connectedToScheduler => cases h; exact hleft.trans (Nat.min_le_right _ _)
  | acquiredWorker => cases h; exact hright.trans (Nat.min_le_left _ _)
  | uploadedJob => cases h; exact hright.trans (Nat.min_le_right _ _)

/-- The tick stays between its bounds, and it is no longer than a quarter of any deadline unless it is
the shortest. -/
theorem tickInterval_bounds (h : d.forStage? stage = some deadline) :
    minTick ≤ d.tickInterval ∧ d.tickInterval ≤ maxTick ∧
      d.tickInterval ≤ max minTick (deadline / 4) := by
  have hquarter : d.smallest / 4 ≤ deadline / 4 := Nat.div_le_div_right (smallest_le h)
  refine ⟨?_, Nat.min_le_right _ _, ?_⟩
  · exact Nat.le_min.mpr ⟨Nat.le_max_right _ _, by decide⟩
  · calc d.tickInterval ≤ max (d.smallest / 4) minTick := Nat.min_le_left _ _
      _ ≤ max minTick (deadline / 4) :=
        Nat.max_le.mpr ⟨hquarter.trans (Nat.le_max_right _ _), Nat.le_max_left _ _⟩

end StageDeadlines

namespace WatchdogOp

/-- When an operation compares the time with the deadline. -/
def checkedAt? : WatchdogOp → Option Micros
  | checked now => some now
  | _ => none

/-- Whether an operation is to enter a later stage. -/
def isTransition : WatchdogOp → Bool
  | entered _ _ => true
  | _ => false

theorem checkedAt?_eq_some_iff {op : WatchdogOp} {now : Micros} :
    op.checkedAt? = some now ↔ op = .checked now := by
  cases op <;> simp [checkedAt?]

end WatchdogOp

namespace Watchdog

/-- The times of the checks in a run. -/
def checkTimes (ops : List WatchdogOp) : List Micros := ops.filterMap WatchdogOp.checkedAt?

/-- Each time comes at most `gap` after the one before it, the first at most `gap` after a start. -/
def Spaced (gap start : Micros) (times : List Micros) : Prop :=
  (start :: times).IsChain fun before now => now ≤ before + gap

instance (gap start : Micros) (times : List Micros) : Decidable (Spaced gap start times) :=
  inferInstanceAs (Decidable (List.IsChain _ _))

section Times

variable {op : WatchdogOp} {rest : List WatchdogOp} {gap start limit : Micros}

/-- What follows a check is spaced from this check on. -/
theorem Spaced.cons_rest (h : Spaced gap start (checkTimes (op :: rest))) :
    Spaced gap (op.checkedAt?.getD start) (checkTimes rest) := by
  cases hcheck : op.checkedAt? with
  | none =>
    rw [checkTimes, List.filterMap_cons_none hcheck] at h
    exact h
  | some now =>
    rw [checkTimes, List.filterMap_cons_some hcheck] at h
    exact h.tail

theorem exists_late_cons (h : ∃ now ∈ checkTimes (op :: rest), limit < now)
    (hearly : ∀ now, op.checkedAt? = some now → now ≤ limit) :
    ∃ now ∈ checkTimes rest, limit < now := by
  obtain ⟨now, hnow, hlate⟩ := h
  obtain ⟨other, hother, hcheck⟩ := List.mem_filterMap.mp hnow
  refine ⟨now, List.mem_filterMap.mpr ⟨other, ?_, hcheck⟩, hlate⟩
  refine (List.mem_cons.mp hother).resolve_left ?_
  rintro rfl
  exact Nat.not_lt.mpr (hearly now hcheck) hlate

end Times

/-- The watchdog waits for the end of the stage that it is in, which has a deadline. -/
structure Waiting (w : Watchdog) (since deadline : Micros) : Prop where
  enabled : w.enabled = true
  silent : w.fired = false
  entered : w.enteredAt? w.stage = some since
  deadline : w.deadlines.forStage? w.stage = some deadline

namespace Waiting

variable {w : Watchdog} {op : WatchdogOp} {since deadline now gap start : Micros}

theorem overdue (h : w.Waiting since deadline) (hlate : since + deadline < now) :
    w.Overdue since now :=
  ⟨h.enabled, h.silent, h.entered, deadline, h.deadline, Nat.lt_sub_iff_add_lt'.mpr hlate⟩

theorem not_overdue (h : w.Waiting since deadline) (hearly : now ≤ since + deadline)
    (entry : Micros) : ¬ w.Overdue entry now := by
  intro hdue
  obtain ⟨limit, hlimit, hlate⟩ := hdue.late
  obtain rfl := Option.some.inj (h.entered.symm.trans hdue.entered)
  obtain rfl := Option.some.inj (h.deadline.symm.trans hlimit)
  exact Nat.not_lt.mpr hearly (Nat.lt_sub_iff_add_lt'.mp hlate)

/-- A check after the deadline sets off the alarm. -/
theorem check_late (h : w.Waiting since deadline) (hlate : since + deadline < now) :
    (w.check now).1 = true ∧ w.alarmsOf (.checked now) = [⟨w.stage, now - since⟩] ∧
      (w.perform (.checked now)).fired = true := by
  refine ⟨(check_fst_iff w now).mpr ⟨since, h.overdue hlate⟩, alarmsOf_checked (h.overdue hlate), ?_⟩
  show (w.check now).2.fired = true
  rw [check_of_overdue (h.overdue hlate)]
  rfl

/-- As long as no stage is entered and no check comes after the deadline, the watchdog waits on in
silence. -/
theorem perform (h : w.Waiting since deadline) (hstays : op.isTransition = false)
    (hearly : ∀ now, op.checkedAt? = some now → now ≤ since + deadline) :
    w.alarmsOf op = [] ∧ (w.perform op).stage = w.stage ∧
      (w.perform op).Waiting since deadline := by
  have hnone : ∀ now entry, op = .checked now → ¬ w.Overdue entry now := by
    rintro now entry rfl
    exact h.not_overdue (hearly now rfl) entry
  have hquiet : w.alarmsOf op = [] := by
    cases op with
    | checked now =>
      rw [alarmsOf, check_of_not_overdue fun entry => hnone now entry rfl]
      rfl
    | _ => rfl
  refine ⟨hquiet, ?_⟩
  have hstep := step_perform w op
  generalize w.perform op = next at hstep
  cases hstep with
  | timer => exact ⟨rfl, h.enabled, h.silent, h.entered, h.deadline⟩
  | begins op now timer hop hinit =>
    -- the first stage is not the current one, which was entered
    have hother : Stage.init ≠ w.stage := by
      intro hstage
      rw [hstage, h.entered] at hinit
      cases hinit
    refine ⟨rfl, h.enabled, h.silent, ?_, h.deadline⟩
    exact (enteredAt?_cons .init now w.stage).trans ((if_neg hother).trans h.entered)
  | enters stage now => cases hstays
  | fires now entry hdue => exact absurd hdue (hnone now entry rfl)

/-- The first check after the deadline sets off the alarm. What came last before it, a check or the entry
of the stage, was at `start`, not after the deadline. -/
theorem detected (h : w.Waiting since deadline) {ops : List WatchdogOp}
    (hstart : start ≤ since + deadline) (hstays : ∀ op ∈ ops, op.isTransition = false)
    (hspaced : Spaced gap start (checkTimes ops))
    (hpast : ∃ now ∈ checkTimes ops, since + deadline < now) :
    ∃ before now after, ops = before ++ .checked now :: after ∧
      since + deadline < now ∧ now ≤ since + deadline + gap ∧
      w.alarms before = [] ∧ ((w.performAll before).check now).1 = true ∧
      w.alarms ops = [⟨w.stage, now - since⟩] := by
  induction ops generalizing w start with
  | nil =>
    obtain ⟨now, hnow, -⟩ := hpast
    cases hnow
  | cons op rest ih =>
    rw [List.forall_mem_cons] at hstays
    by_cases hearly : ∀ now, op.checkedAt? = some now → now ≤ since + deadline
    case neg =>
      simp only [not_forall, Nat.not_le, WatchdogOp.checkedAt?_eq_some_iff] at hearly
      obtain ⟨now, rfl, hlate⟩ := hearly
      obtain ⟨htrue, halarm, hfires⟩ := h.check_late hlate
      have hsilent : (w.perform (.checked now)).alarms rest = [] :=
        (alarms_performAll _ rest).2.1 hfires
      have hgap : now ≤ start + gap := hspaced.rel
      refine ⟨[], now, rest, rfl, hlate, ?_, rfl, htrue, ?_⟩
      · exact hgap.trans (Nat.add_le_add_right hstart gap)
      · rw [alarms, halarm, hsilent, List.append_nil]
    case pos =>
      obtain ⟨hquiet, hstage, hwaits⟩ := h.perform hstays.1 hearly
      have hnext : op.checkedAt?.getD start ≤ since + deadline := by
        cases hcheck : op.checkedAt? with
        | none => exact hstart
        | some now => exact hearly now hcheck
      obtain ⟨before, now, after, rfl, hlate, hsoon, hbefore, htrue, halarms⟩ :=
        ih hwaits hnext hstays.2 (Spaced.cons_rest hspaced) (exists_late_cons hpast hearly)
      refine ⟨op :: before, now, after, rfl, hlate, hsoon, ?_, htrue, ?_⟩
      · rw [alarms, hquiet, hbefore, List.append_nil]
      · rw [alarms, hquiet, halarms, hstage, List.nil_append]

end Waiting

/-- Every stage but the last has a deadline, and the tick lies between 5 ms and 100 ms, and not above a
quarter of the deadline if that is more than 5 ms. A watchdog that has not fired and is in such a stage,
entered at `since`, fires exactly once in every run without a transition in which the checks come at most
a tick apart, the first at most a tick after the entry, and go on until the deadline has passed by more
than a tick: it fires after the deadline, and at most a tick after it. -/
theorem detected_in_time (deadlines : StageDeadlines) (stage : Stage) (hstage : stage ≠ .finished) :
    ∃ deadline, deadlines.forStage? stage = some deadline ∧
      5000 ≤ deadlines.tickInterval ∧ deadlines.tickInterval ≤ 100000 ∧
      deadlines.tickInterval ≤ max 5000 (deadline / 4) ∧
      ∀ (w : Watchdog) (since : Micros) (ops : List WatchdogOp),
        w.deadlines = deadlines → w.stage = stage → w.enteredAt? stage = some since →
        w.enabled = true → w.fired = false →
        (∀ op ∈ ops, op.isTransition = false) →
        Spaced deadlines.tickInterval since (checkTimes ops) →
        (∃ now ∈ checkTimes ops, since + deadline + deadlines.tickInterval < now) →
        ∃ before now after, ops = before ++ .checked now :: after ∧
          since + deadline < now ∧ now ≤ since + deadline + deadlines.tickInterval ∧
          w.alarms before = [] ∧ ((w.performAll before).check now).1 = true ∧
          w.alarms ops = [⟨stage, now - since⟩] := by
  obtain ⟨deadline, hdeadline⟩ := deadlines.exists_forStage? hstage
  obtain ⟨hmin, hmax, hquarter⟩ := StageDeadlines.tickInterval_bounds hdeadline
  refine ⟨deadline, hdeadline, hmin, hmax, hquarter, ?_⟩
  rintro w since ops rfl rfl hentered henabled hsilent hstays hspaced ⟨now, hnow, hpast⟩
  have hwaits : w.Waiting since deadline := ⟨henabled, hsilent, hentered, hdeadline⟩
  refine hwaits.detected (Nat.le_add_right since deadline) hstays hspaced ⟨now, hnow, ?_⟩
  exact Nat.lt_of_le_of_lt (Nat.le_add_right _ _) hpast

/-- With a deadline of 20 ms the tick is the shortest. One check comes just when the deadline is reached;
the alarm is set off after it, in the 5 ms that follow. -/
theorem detected_in_time_shortestTick :
    let w := (ofDeadlines (.uniform 20000) true).performAll
      [.started 0, .entered .acquiredWorker 1000]
    let ops := [.checked 5000, .checked 10000, .polled 12000, .checked 15000, .stopped,
      .checked 16000, .checked 21000, .checked 26000, .started 26500, .checked 31000]
    w.enteredAt? .acquiredWorker = some 1000 ∧ Spaced 5000 1000 (checkTimes ops) ∧
      ∃ now, 21000 < now ∧ now ≤ 26000 ∧ w.alarms ops = [⟨.acquiredWorker, now - 1000⟩] := by
  intro w ops
  have hspaced : Spaced 5000 1000 (checkTimes ops) := by decide
  obtain ⟨deadline, hdeadline, -, -, -, hdetects⟩ :=
    detected_in_time (.uniform 20000) .acquiredWorker (by decide)
  obtain rfl := Option.some.inj hdeadline
  obtain ⟨before, now, after, -, hlate, hsoon, -, -, halarms⟩ := hdetects w 1000 ops
    rfl rfl (by decide) rfl (by decide) (by decide) hspaced (by decide)
  exact ⟨by decide, hspaced, now, hlate, hsoon, halarms⟩

end Watchdog

end Offload
