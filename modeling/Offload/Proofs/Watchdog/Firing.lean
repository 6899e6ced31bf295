import Offload.Watchdog
import Mathlib.Data.List.Nodup

/-!
# The watchdog fires once

Whatever is done to a watchdog, at whatever times, each operation does one of four things (`Step`): it
touches the timer only, it enters the first stage, it enters a later stage, or it fires. From this
follows what holds of every run (`fires_once`). Times may go back and forth, and stages may be left
out. A watchdog that has fired can still be told that the first stage begins, if it never was
(`lateStart_recorded`); nothing else about its stages changes any more.
-/

namespace Offload

/-! ## Runs -/

/-- Something that is done to a watchdog. -/
inductive WatchdogOp where
  | begun (now : Micros)
  | started (now : Micros)
  | entered (stage : Stage) (now : Micros)
  | checked (now : Micros)
  | polled (now : Micros)
  | stopped
deriving DecidableEq, Repr

/-- When an operation enters the first stage, if it does so unless that was done before. -/
def WatchdogOp.beginsAt? : WatchdogOp → Option Micros
  | begun now | started now => some now
  | _ => none

namespace Watchdog

/-- The watchdog after an operation. -/
def perform (w : Watchdog) : WatchdogOp → Watchdog
  | .begun now => w.begin now
  | .started now => w.start now
  | .entered stage now => (w.transition stage now).2
  | .checked now => (w.check now).2
  | .polled now => (w.poll now).2
  | .stopped => w.stop

/-- The watchdog after a sequence of operations. -/
def performAll (w : Watchdog) (ops : List WatchdogOp) : Watchdog := ops.foldl perform w

@[simp] theorem performAll_nil (w : Watchdog) : w.performAll [] = w := rfl

@[simp] theorem performAll_cons (w : Watchdog) (op : WatchdogOp) (ops : List WatchdogOp) :
    w.performAll (op :: ops) = (w.perform op).performAll ops := rfl

/-- What is reported by an operation: a check that fires tells the stage and the time it has taken. -/
def alarmsOf (w : Watchdog) : WatchdogOp → List Timeout
  | .checked now => if (w.check now).1 then (w.check now).2.timeout.toList else []
  | _ => []

/-- What is reported in a run, in order. -/
def alarms (w : Watchdog) : List WatchdogOp → List Timeout
  | [] => []
  | op :: rest => w.alarmsOf op ++ (w.perform op).alarms rest

variable {w : Watchdog} {op : WatchdogOp} {stage : Stage} {now since : Micros}

/-! ## Times of entry -/

theorem enteredAt?_cons (s : Stage) (t : Micros) (stage : Stage) :
    { w with entered := (s, t) :: w.entered }.enteredAt? stage
      = if s = stage then some t else w.enteredAt? stage := by
  unfold enteredAt?
  by_cases h : s = stage
  · simp [h]
  · simp [h]

theorem enteredAt?_eq_none_iff :
    w.enteredAt? stage = none ↔ stage ∉ w.entered.map Prod.fst := by
  rw [enteredAt?, Option.map_eq_none_iff, List.find?_eq_none]
  refine ⟨fun hnone hmem => ?_, fun hnot entry hentry hstage => ?_⟩
  · obtain ⟨entry, hentry, hstage⟩ := List.mem_map.mp hmem
    exact hnone entry hentry (by simp [hstage])
  · exact hnot (List.mem_map.mpr ⟨entry, hentry, by simpa using hstage⟩)

/-! ## Checks -/

/-- At this time the watchdog is to fire: the stage that it is in has a deadline and was entered
longer ago than that. -/
structure Overdue (w : Watchdog) (since now : Micros) : Prop where
  enabled : w.enabled = true
  silent : w.fired = false
  entered : w.enteredAt? w.stage = some since
  late : ∃ deadline, w.deadlines.forStage? w.stage = some deadline ∧ deadline < now - since

theorem check_of_overdue (h : w.Overdue since now) :
    w.check now = (true, { w with timer := none, timeout := some ⟨w.stage, now - since⟩ }) := by
  obtain ⟨deadline, hdeadline, hlate⟩ := h.late
  have hover : w.overrun? now = some (now - since) := by
    simp only [overrun?, hdeadline, h.entered, Option.bind_eq_bind, Option.bind_some]
    rw [if_neg (Nat.not_le.mpr hlate)]
  rw [check, if_neg (by simp [h.silent, h.enabled]), hover]
  rfl

theorem check_of_not_overdue (h : ∀ since, ¬ w.Overdue since now) : w.check now = (false, w) := by
  unfold check
  split
  · rfl
  · rename_i hready
    have hsilent : w.fired = false := by
      cases hfired : w.fired <;> simp [hfired] at hready ⊢
    have henabled : w.enabled = true := by
      cases hoff : w.enabled <;> simp [hoff] at hready ⊢
    -- a stage that overran its deadline would be overdue
    have hover : w.overrun? now = none := by
      unfold overrun?
      cases hdeadline : w.deadlines.forStage? w.stage with
      | none => rfl
      | some deadline =>
        cases hsince : w.enteredAt? w.stage with
        | none => rfl
        | some since =>
          have hle : now - since ≤ deadline := by
            by_contra hlate
            exact h since ⟨henabled, hsilent, hsince, deadline, hdeadline, Nat.not_le.mp hlate⟩
          simp only [Option.bind_eq_bind, Option.bind_some]
          rw [if_pos hle]
    rw [hover]

/-- A check fires exactly when the watchdog is overdue. -/
theorem check_fst_iff (w : Watchdog) (now : Micros) :
    (w.check now).1 = true ↔ ∃ since, w.Overdue since now := by
  refine ⟨fun hfires => ?_, fun ⟨since, hdue⟩ => ?_⟩
  · by_contra hnone
    rw [check_of_not_overdue fun since hdue => hnone ⟨since, hdue⟩] at hfires
    exact absurd hfires Bool.false_ne_true
  · rw [check_of_overdue hdue]

theorem check_of_fired (h : w.fired = true) (now : Micros) : w.check now = (false, w) :=
  check_of_not_overdue fun since hdue => by simp [hdue.silent] at h

theorem transition_of_fired (h : w.fired = true) (stage : Stage) (now : Micros) :
    w.transition stage now = (false, w) :=
  if_pos (.inl h)

/-! ## One step -/

/-- What an operation makes of a watchdog. -/
inductive Step (w : Watchdog) : WatchdogOp → Watchdog → Prop
  /-- only the timer changes, and it is not started after the watchdog has fired -/
  | timer (op : WatchdogOp) (timer : Option Timer)
    (hbegun : op.beginsAt? = none ∨ ∃ t, w.enteredAt? .init = some t)
    (hstop : w.fired = true → w.timer = none → timer = none) : Step w op { w with timer }
  /-- the first stage is entered, even by a watchdog that has fired -/
  | begins (op : WatchdogOp) (now : Micros) (timer : Option Timer) (hop : op.beginsAt? = some now)
    (hinit : w.enteredAt? .init = none)
    (hstop : w.fired = true → w.timer = none → timer = none) :
    Step w op { w with entered := (.init, now) :: w.entered, timer }
  /-- a later stage is entered -/
  | enters (stage : Stage) (now : Micros) (hsilent : w.fired = false) (hlater : w.stage < stage) :
    Step w (.entered stage now) { w with stage, entered := (stage, now) :: w.entered }
  | fires (now since : Micros) (hdue : w.Overdue since now) :
    Step w (.checked now) { w with timer := none, timeout := some ⟨w.stage, now - since⟩ }

/-- To start a watchdog is to begin, and perhaps to arm the timer. -/
theorem start_eq (w : Watchdog) (now : Micros) :
    ∃ timer, w.start now = { w.begin now with timer } ∧
      (w.fired = true → w.timer = none → timer = none) := by
  have hsame : (w.begin now).timer = w.timer ∧ (w.begin now).fired = w.fired := by
    unfold Watchdog.begin
    split <;> exact ⟨rfl, rfl⟩
  unfold start
  dsimp only
  split
  · rename_i harm
    refine ⟨_, rfl, fun hfired => ?_⟩
    simp [hsame.2, hfired] at harm
  · exact ⟨(w.begin now).timer, rfl, fun _ htimer => hsame.1.trans htimer⟩

/-- To begin enters the first stage, unless that was done before. -/
theorem step_begin (hop : op.beginsAt? = some now) (timer : Option Timer)
    (hstop : w.fired = true → w.timer = none → timer = none) :
    Step w op { w.begin now with timer } := by
  cases hinit : w.enteredAt? .init with
  | some t =>
    have hsame : w.begin now = w := if_pos (by simp [hinit])
    rw [hsame]
    exact .timer op timer (.inr ⟨t, hinit⟩) hstop
  | none =>
    have henters : w.begin now = { w with entered := (.init, now) :: w.entered } :=
      if_neg (by simp [hinit])
    rw [henters]
    exact .begins op now timer hop hinit hstop

/-- Whatever is done to a watchdog is one of its steps. -/
theorem step_perform (w : Watchdog) (op : WatchdogOp) : Step w op (w.perform op) := by
  cases op with
  | begun now =>
    have hsame : w.begin now = { w.begin now with timer := w.timer } := by
      unfold Watchdog.begin
      split <;> rfl
    show Step w _ (w.begin now)
    rw [hsame]
    exact step_begin rfl w.timer fun _ htimer => htimer
  | started now =>
    obtain ⟨timer, hstart, hstop⟩ := w.start_eq now
    show Step w _ (w.start now)
    rw [hstart]
    exact step_begin rfl timer hstop
  | entered stage now =>
    show Step w _ (w.transition stage now).2
    unfold transition
    split
    · exact .timer _ w.timer (.inl rfl) fun _ htimer => htimer
    · rename_i hgoes
      rw [not_or, Bool.not_eq_true, Stage.le_iff_index, Nat.not_le] at hgoes
      exact .enters stage now hgoes.1 hgoes.2
  | checked now =>
    show Step w _ (w.check now).2
    by_cases hdue : ∃ since, w.Overdue since now
    · obtain ⟨since, hdue⟩ := hdue
      rw [check_of_overdue hdue]
      exact .fires now since hdue
    · rw [check_of_not_overdue fun since h => hdue ⟨since, h⟩]
      exact .timer _ w.timer (.inl rfl) fun _ htimer => htimer
  | polled now =>
    show Step w _ (w.poll now).2
    unfold poll
    split
    · exact .timer _ w.timer (.inl rfl) fun _ htimer => htimer
    · rename_i timer htimer
      refine .timer _ _ (.inl rfl) fun _ hnone => ?_
      simp [htimer] at hnone
  | stopped => exact .timer _ none (.inl rfl) fun _ _ => rfl

/-! ## What every step keeps -/

/-- Each stage was entered once at most, and none that is later than the current one. -/
structure Orderly (w : Watchdog) : Prop where
  once : (w.entered.map Prod.fst).Nodup
  reached : ∀ entry ∈ w.entered, entry.1 ≤ w.stage

/-- A stage that is entered now was not entered before. -/
theorem Orderly.enter (h : w.Orderly) {stage : Stage} (hfresh : w.enteredAt? stage = none)
    {next : Watchdog} (hentered : next.entered = (stage, now) :: w.entered)
    (hle : w.stage ≤ next.stage) (hstage : stage ≤ next.stage) : next.Orderly := by
  refine ⟨?_, ?_⟩
  · rw [hentered, List.map_cons, List.nodup_cons]
    exact ⟨enteredAt?_eq_none_iff.mp hfresh, h.once⟩
  · intro entry hentry
    rw [hentered, List.mem_cons] at hentry
    rcases hentry with rfl | hbefore
    · exact hstage
    · exact Nat.le_trans (h.reached entry hbefore) hle

theorem Orderly.not_entered (h : w.Orderly) (hlater : w.stage < stage) :
    w.enteredAt? stage = none := by
  rw [enteredAt?_eq_none_iff, List.mem_map]
  rintro ⟨entry, hentry, rfl⟩
  have hreached := h.reached entry hentry
  rw [Stage.le_iff_index] at hreached
  rw [Stage.lt_iff_index] at hlater
  omega

theorem Orderly.perform (h : w.Orderly) (op : WatchdogOp) : (w.perform op).Orderly := by
  have hstep := step_perform w op
  generalize w.perform op = next at hstep
  cases hstep with
  | timer => exact ⟨h.once, h.reached⟩
  | begins op now timer hop hinit =>
    exact h.enter hinit rfl (Nat.le_refl _) (Nat.zero_le _)
  | enters stage now hsilent hlater =>
    exact h.enter (h.not_entered hlater) rfl (Nat.le_of_lt hlater) (Nat.le_refl _)
  | fires => exact ⟨h.once, h.reached⟩

theorem Orderly.performAll (h : w.Orderly) (ops : List WatchdogOp) : (w.performAll ops).Orderly := by
  induction ops generalizing w with
  | nil => exact h
  | cons op rest ih => exact ih (h.perform op)

theorem orderly_ofDeadlines (deadlines : StageDeadlines) (enabled : Bool) :
    (ofDeadlines deadlines enabled).Orderly :=
  ⟨List.nodup_nil, by simp [ofDeadlines]⟩

/-- A step goes on in the order of the stages, and forgets no time of entry. -/
theorem Orderly.goesOn (h : w.Orderly) (op : WatchdogOp) :
    w.stage ≤ (w.perform op).stage ∧
      ∀ stage t, w.enteredAt? stage = some t → (w.perform op).enteredAt? stage = some t := by
  have hstep := step_perform w op
  generalize w.perform op = next at hstep
  -- a stage whose time is known is not the one that is entered now
  have hkeeps : ∀ fresh now, w.enteredAt? fresh = none → ∀ stage t, w.enteredAt? stage = some t →
      { w with entered := (fresh, now) :: w.entered }.enteredAt? stage = some t := by
    intro fresh now hfresh stage t hknown
    have hother : fresh ≠ stage := by
      rintro rfl
      simp [hfresh] at hknown
    rw [enteredAt?_cons, if_neg hother]
    exact hknown
  cases hstep with
  | timer => exact ⟨Nat.le_refl _, fun _ _ hknown => hknown⟩
  | begins op now timer hop hinit => exact ⟨Nat.le_refl _, hkeeps .init now hinit⟩
  | enters stage now hsilent hlater =>
    exact ⟨Nat.le_of_lt hlater, hkeeps stage now (h.not_entered hlater)⟩
  | fires => exact ⟨Nat.le_refl _, fun _ _ hknown => hknown⟩

theorem Orderly.goesOnAll (h : w.Orderly) (ops : List WatchdogOp) :
    w.stage ≤ (w.performAll ops).stage ∧
      ∀ stage t, w.enteredAt? stage = some t → (w.performAll ops).enteredAt? stage = some t := by
  induction ops generalizing w with
  | nil => exact ⟨Nat.le_refl _, fun _ _ hknown => hknown⟩
  | cons op rest ih =>
    obtain ⟨hstage, hknown⟩ := h.goesOn op
    obtain ⟨hstages, hknowns⟩ := ih (h.perform op)
    exact ⟨Nat.le_trans hstage hstages, fun stage t ht => hknowns stage t (hknown stage t ht)⟩

theorem settings_performAll (w : Watchdog) (ops : List WatchdogOp) :
    (w.performAll ops).deadlines = w.deadlines ∧ (w.performAll ops).enabled = w.enabled := by
  induction ops generalizing w with
  | nil => exact ⟨rfl, rfl⟩
  | cons op rest ih =>
    have hstep := step_perform w op
    have hrest := ih (w.perform op)
    rw [performAll_cons, hrest.1, hrest.2]
    generalize w.perform op = next at hstep
    cases hstep <;> exact ⟨rfl, rfl⟩

/-! ## Alarms -/

theorem alarmsOf_checked (h : w.Overdue since now) :
    w.alarmsOf (.checked now) = [⟨w.stage, now - since⟩] := by
  rw [alarmsOf, check_of_overdue h]
  rfl

/-- A step reports at most one alarm, and it is the step that fires. -/
theorem alarmsOf_perform (w : Watchdog) (op : WatchdogOp) :
    (w.fired = false ∧ (w.perform op).fired = true ∧ (w.alarmsOf op).length = 1) ∨
      ((w.perform op).fired = w.fired ∧ w.alarmsOf op = []) := by
  have hstep := step_perform w op
  by_cases hdue : ∃ now since, op = .checked now ∧ w.Overdue since now
  · obtain ⟨now, since, rfl, hdue⟩ := hdue
    refine .inl ⟨hdue.silent, ?_, ?_⟩
    · show (w.check now).2.fired = true
      rw [check_of_overdue hdue]
      rfl
    · rw [alarmsOf_checked hdue]
      rfl
  · have hquiet : w.alarmsOf op = [] := by
      cases op with
      | checked now =>
        rw [alarmsOf, check_of_not_overdue fun since h => hdue ⟨now, since, rfl, h⟩]
        rfl
      | _ => rfl
    refine .inr ⟨?_, hquiet⟩
    generalize w.perform op = next at hstep
    cases hstep with
    | fires now since h => exact absurd ⟨now, since, rfl, h⟩ hdue
    | _ => rfl

/-- A run reports at most one alarm, and none if the watchdog has fired before; after it the watchdog
has fired exactly if it had before or there was an alarm. -/
theorem alarms_performAll (w : Watchdog) (ops : List WatchdogOp) :
    (w.alarms ops).length ≤ 1 ∧ (w.fired = true → w.alarms ops = []) ∧
      ((w.performAll ops).fired = true ↔ w.fired = true ∨ w.alarms ops ≠ []) := by
  induction ops generalizing w with
  | nil => simp [alarms]
  | cons op rest ih =>
    obtain ⟨hone, hnone, hfired⟩ := ih (w.perform op)
    rw [alarms, performAll_cons, hfired]
    rcases alarmsOf_perform w op with ⟨hsilent, hfires, hlength⟩ | ⟨hsame, hquiet⟩
    · rw [hnone hfires, List.append_nil]
      have hne : w.alarmsOf op ≠ [] := by
        intro hnil
        simp [hnil] at hlength
      exact ⟨Nat.le_of_eq hlength, by simp [hsilent], by simp [hfires, hne]⟩
    · rw [hquiet, List.nil_append, ← hsame]
      exact ⟨hone, hnone, Iff.rfl⟩

/-! ## After the alarm -/

/-- What a watchdog that has fired still lets happen: it can be told when the first stage began. -/
structure Spent (w : Watchdog) (begun : Option Micros) (later : Watchdog) : Prop where
  fired : later.fired = true
  timer : later.timer = none
  stage : later.stage = w.stage
  others : ∀ stage, stage ≠ .init → later.enteredAt? stage = w.enteredAt? stage
  first : later.enteredAt? .init = (w.enteredAt? .init).or begun

theorem spent_perform (hfired : w.fired = true) (htimer : w.timer = none) (op : WatchdogOp) :
    w.Spent op.beginsAt? (w.perform op) := by
  have hstep := step_perform w op
  generalize w.perform op = next at hstep
  cases hstep with
  | timer op timer hbegun hstop =>
    refine ⟨hfired, hstop hfired htimer, rfl, fun _ _ => rfl, ?_⟩
    show w.enteredAt? .init = (w.enteredAt? .init).or op.beginsAt?
    rcases hbegun with hnone | ⟨t, hknown⟩
    · rw [hnone, Option.or_none]
    · rw [hknown, Option.some_or]
  | begins op now timer hop hinit hstop =>
    refine ⟨hfired, hstop hfired htimer, rfl, ?_, ?_⟩
    · intro stage hstage
      exact (enteredAt?_cons .init now stage).trans (if_neg (Ne.symm hstage))
    · rw [hinit, hop, Option.none_or]
      exact (enteredAt?_cons .init now .init).trans (if_pos rfl)
  | enters stage now hsilent => simp [hfired] at hsilent
  | fires now since hdue => exact absurd hdue.silent (by simp [hfired])

theorem spent_performAll (hfired : w.fired = true) (htimer : w.timer = none)
    (ops : List WatchdogOp) :
    w.Spent (ops.findSome? WatchdogOp.beginsAt?) (w.performAll ops) := by
  induction ops generalizing w with
  | nil => exact ⟨hfired, htimer, rfl, fun _ _ => rfl, by simp⟩
  | cons op rest ih =>
    have hfirst := spent_perform hfired htimer op
    have hrest := ih hfirst.fired hfirst.timer
    refine ⟨hrest.fired, hrest.timer, hrest.stage.trans hfirst.stage, ?_, ?_⟩
    · intro stage hstage
      exact (hrest.others stage hstage).trans (hfirst.others stage hstage)
    · rw [performAll_cons, hrest.first, hfirst.first, Option.or_assoc, List.findSome?_cons]
      cases op.beginsAt? <;> rfl

/-- A watchdog that has fired has no timer. -/
theorem timer_performAll (h : w.fired = true → w.timer = none) (ops : List WatchdogOp) :
    (w.performAll ops).fired = true → (w.performAll ops).timer = none := by
  induction ops generalizing w with
  | nil => exact h
  | cons op rest ih =>
    refine ih fun hfired => ?_
    have hstep := step_perform w op
    generalize w.perform op = next at hstep hfired
    cases hstep with
    | timer op timer hbegun hstop => exact hstop hfired (h hfired)
    | begins op now timer hop hinit hstop => exact hstop hfired (h hfired)
    | enters => exact h hfired
    | fires => rfl

/-! ## Whole runs -/

/-- A watchdog that fired without having been started enters the first stage when it is started. -/
theorem lateStart_recorded :
    let w := (ofDeadlines (.uniform 100000) true).performAll
      [.entered .connectedToScheduler 0, .checked 101000]
    w.fired = true ∧ w.enteredAt? .init = none ∧
      (w.perform (.started 200000)).enteredAt? .init = some 200000 := by
  decide

/-- In every run of a watchdog the stage never goes back, the entry of a stage is recorded once at most,
and there is one alarm at most. A check fires exactly when the watchdog is enabled and has not fired
before, and the current stage has a deadline and was entered longer ago than that; it reports the stage
and this time. After the alarm no transition and no check does anything, the timer does not run, and
the stage and the times of entry stay, except that the first stage is entered by the next start if it
never was. -/
theorem fires_once (deadlines : StageDeadlines) (enabled : Bool) (ops : List WatchdogOp) :
    let fresh := ofDeadlines deadlines enabled
    let w := fresh.performAll ops
    (w.entered.map Prod.fst).Nodup ∧ (fresh.alarms ops).length ≤ 1 ∧
      (∀ more, w.stage ≤ (w.performAll more).stage ∧
        ∀ stage t, w.enteredAt? stage = some t → (w.performAll more).enteredAt? stage = some t) ∧
      (∀ now, (w.check now).1 = true ↔ enabled = true ∧ fresh.alarms ops = [] ∧
        ∃ deadline since, deadlines.forStage? w.stage = some deadline ∧
          w.enteredAt? w.stage = some since ∧ deadline < now - since) ∧
      (∀ now since, (w.check now).1 = true → w.enteredAt? w.stage = some since →
        w.alarmsOf (.checked now) = [⟨w.stage, now - since⟩]) ∧
      (fresh.alarms ops ≠ [] → ∀ more,
        let later := w.performAll more
        (∀ stage now, later.transition stage now = (false, later)) ∧
          (∀ now, later.check now = (false, later)) ∧
          later.timer = none ∧ later.stage = w.stage ∧
          (∀ stage, stage ≠ .init → later.enteredAt? stage = w.enteredAt? stage) ∧
          later.enteredAt? .init
            = (w.enteredAt? .init).or (more.findSome? WatchdogOp.beginsAt?)) := by
  intro fresh w
  have horderly : w.Orderly := (orderly_ofDeadlines deadlines enabled).performAll ops
  obtain ⟨hone, -, hfired⟩ := alarms_performAll fresh ops
  obtain ⟨hdeadlines, henabled⟩ := settings_performAll fresh ops
  change w.deadlines = deadlines at hdeadlines
  change w.enabled = enabled at henabled
  have halarm : w.fired = true ↔ fresh.alarms ops ≠ [] := by
    show (fresh.performAll ops).fired = true ↔ _
    rw [hfired]
    simp [fresh, ofDeadlines, fired]
  refine ⟨horderly.once, hone, horderly.goesOnAll, ?_, ?_, ?_⟩
  · intro now
    have hsilent : w.fired = false ↔ fresh.alarms ops = [] := by
      rw [← Bool.not_eq_true, halarm, not_ne_iff]
    rw [check_fst_iff, ← henabled, ← hdeadlines, ← hsilent]
    refine ⟨fun ⟨since, hdue⟩ => ?_, fun ⟨hon, hquiet, deadline, since, hdeadline, hsince, hlate⟩ => ?_⟩
    · obtain ⟨deadline, hdeadline, hlate⟩ := hdue.late
      exact ⟨hdue.enabled, hdue.silent, deadline, since, hdeadline, hdue.entered, hlate⟩
    · exact ⟨since, hon, hquiet, hsince, deadline, hdeadline, hlate⟩
  · intro now since hfires hsince
    obtain ⟨entry, hdue⟩ := (check_fst_iff w now).mp hfires
    obtain rfl := Option.some.inj (hdue.entered.symm.trans hsince)
    exact alarmsOf_checked hdue
  · intro hrang more later
    have hspent := halarm.mpr hrang
    have htimer : w.timer = none :=
      timer_performAll (w := fresh) (by simp [fresh, ofDeadlines]) ops hspent
    have hlater := spent_performAll hspent htimer more
    exact ⟨transition_of_fired hlater.fired, check_of_fired hlater.fired, hlater.timer,
      hlater.stage, hlater.others, hlater.first⟩

/-- A stage that overruns its deadline sets off the alarm, and starting the watchdog again does not
arm it. -/
theorem fires_once_overrun :
    let fresh := ofDeadlines (.uniform 100000) true
    let w := fresh.performAll [.started 0, .entered .acquiredWorker 50000, .checked 150001]
    let later := w.performAll [.started 200000, .entered .finished 300000]
    fresh.alarms [.started 0, .entered .acquiredWorker 50000, .checked 150001]
        = [⟨.acquiredWorker, 100001⟩] ∧
      later.timer = none ∧ later.stage = .acquiredWorker ∧ later.enteredAt? .init = some 0 := by
  intro fresh w later
  have hrang : fresh.alarms [.started 0, .entered .acquiredWorker 50000, .checked 150001]
      = [⟨.acquiredWorker, 100001⟩] := by decide
  obtain ⟨-, -, -, -, -, hspent⟩ := fires_once (.uniform 100000) true
    [.started 0, .entered .acquiredWorker 50000, .checked 150001]
  obtain ⟨-, -, htimer, hstage, -, hfirst⟩ := hspent (by rw [hrang]; simp)
    [.started 200000, .entered .finished 300000]
  exact ⟨hrang, htimer, hstage, hfirst⟩

end Watchdog

end Offload
