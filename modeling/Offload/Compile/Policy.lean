import Offload.Compile.Attempt

/-!
# Where to compile

A compile is done on this host if it must be or if there is room for it, and otherwise on a worker.
A worker that cannot do it costs time only: then this host does it after all. A client that is too
old for the scheduler compiles nowhere.
-/

namespace Offload

/-- How a compile ended; `none` if it never does. -/
abbrev CompileEnd := Option (Except ClientError CompileOutcome)

namespace CompileRun

variable {ω κ : Type} [Channel κ] [Collaborators ω κ]

/-- Waits for a compile slot; `none` if there never is one. -/
def awaitSlot (run : CompileRun ω κ) : Option (Permit × CompileRun ω κ) :=
  match run.slots.waitAcquire run.semaphores .compile with
  | some (permit, slots, semaphores) => some (permit, { run with slots, semaphores })
  | none =>
    let (semaphores, surroundings) :=
      Collaborators.awaitUnit run.parts.surroundings .compile run.semaphores
    (run.slots.waitAcquire semaphores .compile).map fun (permit, slots, semaphores) =>
      (permit, { run.withSurroundings surroundings with slots, semaphores })

/-- Gives a compile slot back. -/
def releaseSlot (run : CompileRun ω κ) (permit : Permit) : CompileRun ω κ :=
  let (slots, semaphores) := run.slots.release run.semaphores .compile permit
  { run with slots, semaphores }

/-- Runs the compiler in a slot. A compiler that does not end keeps it. -/
def compileIn (run : CompileRun ω κ) (request : CompileRequest) (cause : LocalCause)
    (permit : Permit) : CompileEnd × CompileRun ω κ :=
  let args := request.invocation.args
  let (answer, files, surroundings) :=
    Collaborators.runCompiler run.parts.surroundings args run.files
  let run := { (run.withSurroundings surroundings).note (.compiled args .compile) with files }
  match answer with
  | none => (none, run)
  | some (.ok code) => (some (.ok ⟨code, .onHost cause⟩), run.releaseSlot permit)
  | some (.error error) => (some (.error (.compiler error)), run.releaseSlot permit)

/-- Compiles on this host, as soon as there is a slot. -/
def compileHere (run : CompileRun ω κ) (request : CompileRequest) (cause : LocalCause) :
    CompileEnd × CompileRun ω κ :=
  match run.awaitSlot with
  | some (permit, run) => run.compileIn request cause permit
  | none => (none, run)

/-- Compiles on a worker if that can be done, and otherwise here. -/
def compileAway (rounds : Nat) (run : CompileRun ω κ) (request : CompileRequest) :
    CompileEnd × CompileRun ω κ :=
  match (Attempt.remote rounds request).run.run run with
  | (.ok outcome, run) => (some (.ok outcome), run.tearDown)
  | (.error .stalled, run) => (none, run)
  | (.error (.tooOld minVersion), run) => (some (.error (.tooOld minVersion)), run.tearDown)
  | (.error (.fallback reason), run) =>
    (run.tearDown.note (.gaveUp reason)).compileHere request (.fallback reason)

/-- Compiles. The first argument bounds the waiting for a worker. -/
def compile (rounds : Nat) (run : CompileRun ω κ) (request : CompileRequest) :
    CompileEnd × CompileRun ω κ :=
  match request.forcedReason? with
  | some reason => run.compileHere request (.forced reason)
  | none =>
    if request.config.noLocal then run.compileAway rounds request
    else
      match run.slots.tryAcquire run.semaphores .compile with
      | (some permit, slots, semaphores) =>
        { run with slots, semaphores }.compileIn request .slotFree permit
      | (none, slots, semaphores) => { run with slots, semaphores }.compileAway rounds request

end CompileRun

end Offload
