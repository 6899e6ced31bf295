import Offload.Config.Client
import Offload.Stage

/-!
# The watchdog of a remote compile

Each stage has a deadline, counted from the time at which the stage was entered. When the current
stage overruns its deadline the watchdog fires, once, and its timer stops. Times are in
microseconds from an arbitrary start.
-/

namespace Offload

/-- A point in time, or a span of time, in microseconds. -/
abbrev Micros := Nat

/-- The time that each stage may take. -/
structure StageDeadlines where
  /-- to reach the scheduler -/
  schedulerConnect : Micros
  /-- to be given a worker -/
  workerAcquire : Micros
  /-- to hand the job over -/
  jobUpload : Micros
  /-- to get the result -/
  response : Micros
deriving DecidableEq, Repr

namespace StageDeadlines

/-- The deadlines that are configured. -/
def ofConfig (config : ClientConfig) : StageDeadlines :=
  ⟨1000 * config.schedulerConnectTimeout, 1000 * config.acquireWorkerTimeout,
   1000 * config.uploadTimeout, 1000 * config.responseTimeout⟩

/-- One deadline for all stages. -/
def uniform (deadline : Micros) : StageDeadlines := ⟨deadline, deadline, deadline, deadline⟩

/-- The deadline of a stage. The last stage has none. -/
def forStage? (d : StageDeadlines) : Stage → Option Micros
  | .init => some d.schedulerConnect
  | .connectedToScheduler => some d.workerAcquire
  | .acquiredWorker => some d.jobUpload
  | .uploadedJob => some d.response
  | .finished => none

/-- The smallest deadline. -/
def smallest (d : StageDeadlines) : Micros :=
  min (min d.schedulerConnect d.workerAcquire) (min d.jobUpload d.response)

/-- The shortest time between two checks. -/
def minTick : Micros := 5000

/-- The longest time between two checks. -/
def maxTick : Micros := 100000

/-- The time between two checks: a quarter of the smallest deadline, within bounds. -/
def tickInterval (d : StageDeadlines) : Micros := min (max (d.smallest / 4) minTick) maxTick

end StageDeadlines

/-- A timer that goes off again and again. -/
structure Timer where
  next : Micros
  period : Micros
deriving DecidableEq, Repr

namespace Timer

/-- How late a tick may be taken without moving those after it. -/
def tolerance : Micros := 5000

/-- Takes the tick that is due. After a late one the next comes a full period later. -/
def poll (timer : Timer) (now : Micros) : Bool × Timer :=
  if now < timer.next then (false, timer)
  else
    -- a little late is on time, so that the ticks do not drift
    let start := if timer.next + tolerance < now then now else timer.next
    (true, { timer with next := start + timer.period })

end Timer

/-- What the watchdog fired for. -/
structure Timeout where
  stage : Stage
  elapsed : Micros
deriving DecidableEq, Repr

/-- The watchdog. -/
structure Watchdog where
  deadlines : StageDeadlines
  /-- without this it follows the stages and never fires -/
  enabled : Bool
  stage : Stage
  /-- for each stage that was entered, when -/
  entered : List (Stage × Micros)
  timer : Option Timer
  timeout : Option Timeout
deriving DecidableEq, Repr

namespace Watchdog

/-- The name as a source of events. -/
def name : String := "watchdog"

/-- A watchdog that has not been started. -/
def ofDeadlines (deadlines : StageDeadlines) (enabled : Bool) : Watchdog :=
  ⟨deadlines, enabled, .init, [], none, none⟩

/-- The watchdog that is configured. -/
def ofConfig (config : ClientConfig) : Watchdog :=
  ofDeadlines (.ofConfig config) config.watchdog

/-- Whether it has fired. -/
def fired (w : Watchdog) : Bool := w.timeout.isSome

/-- Whether its timer runs. -/
def isRunning (w : Watchdog) : Bool := w.timer.isSome

/-- When a stage was entered. -/
def enteredAt? (w : Watchdog) (stage : Stage) : Option Micros :=
  (w.entered.find? fun e => e.1 == stage).map (·.2)

/-- Enters the first stage, unless that was done before. -/
def begin (w : Watchdog) (now : Micros) : Watchdog :=
  if (w.enteredAt? .init).isSome then w else { w with entered := (.init, now) :: w.entered }

/-- Enters the first stage and starts the timer, unless it runs, or never is to run. -/
def start (w : Watchdog) (now : Micros) : Watchdog :=
  let w := w.begin now
  if w.enabled && !w.fired && !w.isRunning then
    let tick := w.deadlines.tickInterval
    { w with timer := some ⟨now + tick, tick⟩ }
  else w

/-- Enters a later stage. False, and nothing happens, if the stage is not later than the current
one or if the watchdog has fired. -/
def transition (w : Watchdog) (stage : Stage) (now : Micros) : Bool × Watchdog :=
  if w.fired ∨ stage ≤ w.stage then (false, w)
  else (true, { w with stage, entered := (stage, now) :: w.entered })

/-- Stops the timer. -/
def stop (w : Watchdog) : Watchdog := { w with timer := none }

/-- The time by which the current stage has overrun its deadline, if it has: the time since it was
entered. -/
def overrun? (w : Watchdog) (now : Micros) : Option Micros := do
  let deadline ← w.deadlines.forStage? w.stage
  let entered ← w.enteredAt? w.stage
  if now - entered ≤ deadline then none else some (now - entered)

/-- Fires if the current stage has overrun its deadline. True the first time only. -/
def check (w : Watchdog) (now : Micros) : Bool × Watchdog :=
  if w.fired || !w.enabled then (false, w)
  else
    match w.overrun? now with
    | none => (false, w)
    | some elapsed => (true, { w.stop with timeout := some ⟨w.stage, elapsed⟩ })

/-- Whether the timer has gone off. -/
def poll (w : Watchdog) (now : Micros) : Bool × Watchdog :=
  match w.timer with
  | none => (false, w)
  | some timer =>
    let (due, timer) := timer.poll now
    (due, { w with timer := some timer })

end Watchdog

end Offload
