import Offload.Proofs.Compile.Ending

/-!
# A compile on this host has one slot

The compiler is run on this host in one compile slot: the one that was tried for, if that was given at
once, and otherwise one that was waited for. It is held as long as the compiler runs, and is given back
however that ends. A compile that is done elsewhere never has a slot (`slot_discipline`).

What is held while the compiler runs is seen in surroundings that differ in one thing: there the
compiler does not end, so that the compile is left in the state that it has meanwhile.

That slots are given back is said of compiles that end. One that is stuck in closing the connection to the
scheduler has none.
-/

namespace Offload

variable {ω κ : Type}

/-! ## The record of a controller -/

/-- More tries and more waits. -/
def SlotStats.more (stats : SlotStats) (tries waits : Nat) : SlotStats :=
  { stats with tried := stats.tried + tries, waited := stats.waited + waits }

/-- What is taken is counted if there is a semaphore to take it from. -/
theorem SlotSource.permit_of_take? {source : SlotSource} {kind : SlotKind} {host after : Semaphores}
    {permit : Permit} (h : source.take? host kind = some (permit, after)) :
    source.counters.get kind = none ∧ permit = .uncounted ∧ after = host ∨
      (source.counters.get kind).isSome = true ∧ permit = .counted := by
  unfold take? at h
  cases hcounter : source.counters.get kind with
  | none =>
    rw [hcounter] at h
    obtain ⟨rfl, rfl⟩ := Prod.mk.inj (Option.some.inj h)
    exact .inl ⟨rfl, rfl, rfl⟩
  | some id =>
    rw [hcounter] at h
    obtain ⟨_, -, htaken⟩ := Option.map_eq_some_iff.mp h
    exact .inr ⟨rfl, (congrArg Prod.fst htaken).symm⟩

namespace SlotController

variable (c : SlotController) {host after : Semaphores} {permit : Permit}

/-- The controller after more tries and waits for compile slots. There is no other way to a slot. -/
def recorded (tries waits : Nat) : SlotController :=
  { c with ledger := c.ledger.modify .compile (·.more tries waits) }

/-- The controller with one more compile slot. -/
def holding (permit : Permit) : SlotController :=
  { c with ledger := c.ledger.modify .compile (·.hold permit) }

theorem recorded_recorded (tries waits tries' waits' : Nat) :
    (c.recorded tries waits).recorded tries' waits' = c.recorded (tries + tries') (waits + waits') := by
  simp [recorded, PerKind.modify, PerKind.set, PerKind.get, SlotStats.more, Nat.add_assoc]

theorem recorded_zero : c.recorded 0 0 = c := by
  simp [recorded, PerKind.modify, PerKind.set, PerKind.get, SlotStats.more]

theorem tryAcquire_eq (host : Semaphores) : c.tryAcquire host .compile =
    match c.source.take? host .compile with
    | none => (none, c.recorded 1 0, host)
    | some (permit, host) => (some permit, (c.recorded 1 0).holding permit, host) := by
  unfold tryAcquire
  cases c.source.take? host .compile <;> rfl

theorem waitAcquire_eq (host : Semaphores) : c.waitAcquire host .compile =
    (c.source.take? host .compile).map fun (permit, host) =>
      (permit, (c.recorded 0 1).holding permit, host) := rfl

/-- To give a slot back undoes that it was taken. -/
theorem release_holding (h : c.source.take? host .compile = some (permit, after)) :
    (c.holding permit).release after .compile permit = (c, c.source.giveBack after .compile) := by
  rcases SlotSource.permit_of_take? h with ⟨hcounter, rfl, -⟩ | ⟨-, rfl⟩
  · rw [SlotSource.giveBack, hcounter]
    simp [release, holding, PerKind.modify, SlotStats.hold, PerKind.set, PerKind.get]
  · simp [release, holding, PerKind.modify, SlotStats.hold, PerKind.set, PerKind.get]

@[simp] theorem tried_recorded (tries waits : Nat) :
    ((c.recorded tries waits).ledger.get .compile).tried = (c.ledger.get .compile).tried + tries := by
  simp [recorded, PerKind.get_modify, SlotStats.more]

@[simp] theorem held_recorded (tries waits : Nat) :
    ((c.recorded tries waits).ledger.get .compile).held = (c.ledger.get .compile).held := by
  simp [recorded, PerKind.get_modify, SlotStats.more]

@[simp] theorem tried_holding (permit : Permit) :
    ((c.holding permit).ledger.get .compile).tried = (c.ledger.get .compile).tried := by
  cases permit <;> simp [holding, PerKind.get_modify, SlotStats.hold]

/-- A slot is one more that is held, unless there are slots without limit. -/
theorem held_holding (h : c.source.take? host .compile = some (permit, after)) :
    ((c.holding permit).ledger.get .compile).held = (c.ledger.get .compile).held +
      if (c.source.counters.get .compile).isSome = true then 1 else 0 := by
  rcases SlotSource.permit_of_take? h with ⟨hcounter, rfl, -⟩ | ⟨hcounter, rfl⟩
  · simp [hcounter, holding, PerKind.get_modify, SlotStats.hold]
  · simp [hcounter, holding, PerKind.get_modify, SlotStats.hold]

end SlotController

/-! ## While the compiler runs -/

/-- The same surroundings, in which the compiler does not end. -/
@[reducible] def Collaborators.endless (C : Collaborators ω κ) : Collaborators ω κ :=
  { C with runCompiler := fun s args files => (none, (C.runCompiler s args files).2) }

variable [C : Collaborators ω κ]

/-- The state of a compile while the compiler runs: a compiler that does not end leaves it so. -/
def CompileRun.whileCompiling [Channel κ] (rounds : Nat) (run : CompileRun ω κ)
    (request : CompileRequest) : CompileRun ω κ :=
  (@CompileRun.compile ω κ _ C.endless rounds run request).2

/-- The compiler is run in one slot. Of the last three arguments the first is the controller without
that slot, the second the state while the compiler runs, the third the end. -/
structure RunsInSlot (request : CompileRequest) (cause : LocalCause) (slots : SlotController)
    (during : CompileRun ω κ) (ended : CompileEnd × CompileRun ω κ) : Prop where
  once : ended.2.milestones = request.runsHere cause
  held : ∃ permit semaphores,
    slots.source.take? semaphores .compile = some (permit, during.semaphores) ∧
      during.slots = slots.holding permit
  /-- a compiler that does not end keeps the slot, and any other end gives it back -/
  released : ended = (none, during) ∨ ∃ answer, ended = (some (cause.ending answer),
    { during with slots, semaphores := slots.source.giveBack during.semaphores .compile })

section Here

variable {request : CompileRequest} {cause : LocalCause} {run : CompileRun ω κ}

/-- The compiler was run, in a slot that is still held. -/
def CompileRun.ran (run : CompileRun ω κ) (request : CompileRequest) : CompileRun ω κ :=
  let (_, files, surroundings) :=
    Collaborators.runCompiler run.parts.surroundings request.invocation.args run.files
  { (run.withSurroundings surroundings).note (.compiled request.invocation.args .compile) with files }

theorem compileIn_endless (permit : Permit) :
    @CompileRun.compileIn ω κ C.endless run request cause permit = (none, run.ran request) := rfl

theorem compileIn_eq (permit : Permit) : run.compileIn request cause permit =
    match (C.runCompiler run.parts.surroundings request.invocation.args run.files).1 with
    | none => (none, run.ran request)
    | some answer => (some (cause.ending answer), (run.ran request).releaseSlot permit) := by
  unfold CompileRun.compileIn CompileRun.ran
  dsimp only
  rcases Collaborators.runCompiler run.parts.surroundings request.invocation.args run.files
    with ⟨_ | _ | _, _, _⟩ <;> rfl

theorem milestones_ran (hrun : run.milestones = cause.abandonment) :
    (run.ran request).milestones = request.runsHere cause := by
  show ((run.withSurroundings _).note _).milestones = _
  rw [milestones_note]
  show run.milestones ++ _ = _
  rw [hrun]
  rfl

theorem runsInSlot_compileIn {slots : SlotController} {semaphores : Semaphores} {permit : Permit}
    (hslots : run.slots = slots.holding permit)
    (htake : slots.source.take? semaphores .compile = some (permit, run.semaphores))
    (hrun : run.milestones = cause.abandonment) :
    RunsInSlot request cause slots (@CompileRun.compileIn ω κ C.endless run request cause permit).2
      (run.compileIn request cause permit) := by
  have hreleased : (run.ran request).releaseSlot permit = { run.ran request with
      slots, semaphores := slots.source.giveBack run.semaphores .compile } := by
    have hrelease : (run.ran request).slots.release (run.ran request).semaphores .compile permit =
        (slots, slots.source.giveBack run.semaphores .compile) := by
      show run.slots.release run.semaphores .compile permit = _
      rw [hslots]
      exact slots.release_holding htake
    unfold CompileRun.releaseSlot
    rw [hrelease]
  have hheld : ∃ permit semaphores,
      slots.source.take? semaphores .compile = some (permit, (run.ran request).semaphores) ∧
        (run.ran request).slots = slots.holding permit := ⟨permit, semaphores, htake, hslots⟩
  rw [compileIn_endless, compileIn_eq]
  cases (C.runCompiler run.parts.surroundings request.invocation.args run.files).1 with
  | none => exact ⟨milestones_ran hrun, hheld, .inl rfl⟩
  | some answer =>
    dsimp only
    rw [hreleased]
    exact ⟨milestones_ran hrun, hheld, .inr ⟨answer, rfl⟩⟩

/-- Whoever is given a slot after waiting has it from one wait. -/
theorem awaitSlot_eq_some {after : CompileRun ω κ} {permit : Permit}
    (h : run.awaitSlot = some (permit, after)) :
    (∃ semaphores, run.slots.source.take? semaphores .compile = some (permit, after.semaphores)) ∧
      after.slots = (run.slots.recorded 0 1).holding permit ∧ after.milestones = run.milestones := by
  have hgiven {host : Semaphores} {given : Permit × SlotController × Semaphores}
      (hwait : run.slots.waitAcquire host .compile = some given) :
      run.slots.source.take? host .compile = some (given.1, given.2.2) ∧
        given.2.1 = (run.slots.recorded 0 1).holding given.1 := by
    rw [SlotController.waitAcquire_eq, Option.map_eq_some_iff] at hwait
    obtain ⟨⟨taken, left⟩, htake, rfl⟩ := hwait
    exact ⟨htake, rfl⟩
  unfold CompileRun.awaitSlot at h
  split at h
  · rename_i hwait
    obtain ⟨rfl, rfl⟩ := Prod.mk.inj (Option.some.inj h)
    exact ⟨⟨_, (hgiven hwait).1⟩, (hgiven hwait).2, rfl⟩
  · obtain ⟨given, hwait, hafter⟩ := Option.map_eq_some_iff.mp h
    obtain ⟨rfl, rfl⟩ := Prod.mk.inj hafter
    exact ⟨⟨_, (hgiven hwait).1⟩, (hgiven hwait).2, rfl⟩

/-- A compile on this host waits for its slot once, or forever. -/
theorem runsInSlot_compileHere (request : CompileRequest)
    (hrun : run.milestones = cause.abandonment) :
    RunsInSlot request cause (run.slots.recorded 0 1)
        (@CompileRun.compileHere ω κ C.endless run request cause).2
        (run.compileHere request cause) ∨
      run.compileHere request cause = (none, run) := by
  have hendless : @CompileRun.awaitSlot ω κ C.endless run = run.awaitSlot := rfl
  unfold CompileRun.compileHere
  rw [hendless]
  cases hslot : run.awaitSlot with
  | none => exact .inr rfl
  | some given =>
    obtain ⟨⟨_, htake⟩, hslots, hmilestones⟩ := awaitSlot_eq_some hslot
    exact .inl (runsInSlot_compileIn hslots htake (hmilestones.trans hrun))

end Here

/-! ## A compile that is done elsewhere -/

/-- The compiler was run on this host. -/
def CompileRun.Compiled (run : CompileRun ω κ) : Prop :=
  ∃ args kind, Deed.compiled args kind ∈ run.deeds

/-- A worker did the compile, or the scheduler does not take the client. -/
def CompileEnd.IsElsewhere (ended : CompileEnd) : Prop :=
  (∃ code worker, ended = some (.ok ⟨code, .onWorker worker⟩)) ∨
    ∃ minVersion, ended = some (.error (.tooOld minVersion))

/-- The compiler was not run on this host, and no slot was had for that. -/
structure Unslotted (slots : SlotController) (semaphores : Semaphores) (run : CompileRun ω κ) :
    Prop where
  uncompiled : ¬ run.Compiled
  slots : run.slots = slots
  semaphores : run.semaphores = semaphores

section Away

variable {request : CompileRequest} {cause : LocalCause} {run : CompileRun ω κ}

omit C in
theorem compiled_iff_mem_milestones :
    run.Compiled ↔ ∃ args kind, Deed.compiled args kind ∈ run.milestones := by
  simp [CompileRun.Compiled, CompileRun.milestones, Deed.isOfAttempt]

omit C in
theorem not_compiled_of_milestones (h : run.milestones = cause.abandonment) : ¬ run.Compiled := by
  rw [compiled_iff_mem_milestones, h]
  cases cause <;> simp [LocalCause.abandonment]

omit C in
theorem RunsInSlot.compiled {slots : SlotController} {during : CompileRun ω κ}
    {ended : CompileEnd × CompileRun ω κ} (h : RunsInSlot request cause slots during ended) :
    ended.2.Compiled := by
  rw [compiled_iff_mem_milestones, h.once]
  exact ⟨_, _, List.mem_append_right _ (List.mem_singleton_self _)⟩

variable [Channel κ]

/-- An attempt does not depend on whether the compiler ends. -/
theorem remote_endless (rounds : Nat) (request : CompileRequest) :
    @Attempt.remote ω κ _ C.endless rounds request = Attempt.remote rounds request := by
  have hawait (stage : Connection.ClosingStage) (p : Parts ω κ) :
      @Attempt.awaitClosing ω κ _ C.endless rounds stage p = Attempt.awaitClosing rounds stage p := by
    induction rounds generalizing stage p with
    | zero => rfl
    | succ rounds ih =>
      rw [@Attempt.awaitClosing.eq_2 ω κ _ C.endless, @Attempt.awaitClosing.eq_2 ω κ _ C]
      simp only [ih]
      rfl
  have hclose : @Attempt.closeScheduler ω κ _ C.endless rounds = Attempt.closeScheduler rounds := by
    unfold Attempt.closeScheduler
    simp only [hawait]
  have hdeliver (inv : Invocation) (result : JobResult) :
      @Attempt.deliver ω κ _ C.endless rounds inv result = Attempt.deliver rounds inv result := by
    unfold Attempt.deliver
    rw [hclose]
    rfl
  unfold Attempt.remote
  simp only [hdeliver]
  rfl

/-- When an attempt has left its compile to this host, that waits for a slot once. Before that no slot
was had, and nothing ends here. -/
theorem compileAway_slots (hrun : run.Unstarted request.config) (hnone : run.milestones = [])
    (rounds : Nat) :
    (∃ reason, RunsInSlot request (.fallback reason) (run.slots.recorded 0 1)
        (@CompileRun.compileAway ω κ _ C.endless rounds run request).2
        (run.compileAway rounds request)) ∨
      Unslotted run.slots run.semaphores (run.compileAway rounds request).2 ∧
        ((run.compileAway rounds request).1 = none ∨ (run.compileAway rounds request).1.IsElsewhere) := by
  have hleads := leads_remote hrun
  have huntouched {after : CompileRun ω κ} (h : run.Untouched after) :
      Unslotted run.slots run.semaphores after := by
    have hafter : after.milestones = LocalCause.slotFree.abandonment := h.milestones.trans hnone
    exact ⟨not_compiled_of_milestones hafter, h.slots, h.semaphores⟩
  rw [@compileAway_eq ω κ _ C, @compileAway_eq ω κ _ C.endless, remote_endless]
  rcases hanswer : (Attempt.remote rounds request).result run with ⟨why | outcome, after⟩
  · have hafter := (hleads.failure rounds why after hanswer).untouched
    cases why with
    | stalled => exact .inr ⟨huntouched hafter, .inl rfl⟩
    | tooOld minVersion =>
      exact .inr ⟨huntouched (untouched_tearDown hafter), .inr (.inr ⟨minVersion, rfl⟩)⟩
    | fallback reason =>
      have htorn := untouched_tearDown hafter
      have hleft : (after.tearDown.note (.gaveUp reason)).milestones
          = (LocalCause.fallback reason).abandonment := by
        rw [milestones_note, htorn.milestones, hnone]
        rfl
      rcases runsInSlot_compileHere request hleft with hruns | hwaits
      · refine .inl ⟨reason, ?_⟩
        rw [← htorn.slots]
        exact hruns
      · refine .inr ?_
        show Unslotted _ _ (CompileRun.compileHere _ request (.fallback reason)).2 ∧
          ((CompileRun.compileHere _ request (.fallback reason)).1 = none ∨ _)
        rw [hwaits]
        exact ⟨⟨not_compiled_of_milestones hleft, htorn.slots, htorn.semaphores⟩, .inl rfl⟩
  · have hdelivered := hleads.success rounds outcome after hanswer
    obtain ⟨worker, hworker⟩ := hdelivered.worker
    refine .inr ⟨huntouched (untouched_tearDown hdelivered.untouched), .inr (.inl ⟨outcome.exitCode, worker, ?_⟩)⟩
    rw [← hworker]
    rfl

end Away

/-! ## A compile without an attempt -/

/-- No worker was tried: there is no preprocessor and no connection, and none was asked for. All that
the surroundings were asked for is a slot and the compiler. -/
structure StayedHere (request : CompileRequest) (start after : CompileRun ω κ) : Prop where
  parts : ∃ waited,
    (waited = start.parts.surroundings ∨
      waited = (Collaborators.awaitUnit start.parts.surroundings .compile start.semaphores).2) ∧
    (after.parts = { start.parts with surroundings := waited } ∨
      after.parts = { start.parts with
        surroundings := (C.runCompiler waited request.invocation.args start.files).2.2 })
  requested : ∀ r, Deed.requested r ∈ after.deeds → Deed.requested r ∈ start.deeds

section Stayed

variable {request : CompileRequest} {cause : LocalCause} {run start : CompileRun ω κ}

theorem stayedHere_compileIn {waited : ω} (permit : Permit)
    (hwaited : waited = start.parts.surroundings ∨
      waited = (Collaborators.awaitUnit start.parts.surroundings .compile start.semaphores).2)
    (hparts : run.parts = { start.parts with surroundings := waited })
    (hfiles : run.files = start.files) (hdeeds : run.deeds = start.deeds) :
    StayedHere request start (run.compileIn request cause permit).2 := by
  have hran : StayedHere request start (run.ran request) := by
    refine ⟨⟨waited, hwaited, .inr ?_⟩, fun r hr => ?_⟩
    · show ({ run.parts with surroundings :=
        (C.runCompiler run.parts.surroundings request.invocation.args run.files).2.2 } : Parts ω κ) = _
      rw [hparts, hfiles]
    · rcases List.mem_append.mp hr with hold | hnew
      · exact hdeeds ▸ hold
      · simp at hnew
  rw [compileIn_eq]
  split
  · exact hran
  · exact ⟨hran.parts, hran.requested⟩

theorem stayedHere_compileHere : StayedHere request run (run.compileHere request cause).2 := by
  unfold CompileRun.compileHere
  cases hslot : run.awaitSlot with
  | none => exact ⟨⟨_, .inl rfl, .inl rfl⟩, fun _ h => h⟩
  | some given =>
    obtain ⟨permit, after⟩ := given
    obtain ⟨surroundings, slots, semaphores, hwaited, rfl⟩ := CompileRun.eq_of_awaitSlot hslot
    exact stayedHere_compileIn permit hwaited rfl rfl rfl

end Stayed

/-! ## The discipline -/

/-- How often a slot is tried for: once, unless the compile has to be done here anyway or is not to be
done here if a worker can do it. -/
def CompileRequest.tries (request : CompileRequest) : Nat :=
  if request.forcedReason? = none ∧ request.config.noLocal = false then 1 else 0

/-- A slot is tried for and given at once. -/
def CompileRun.GivenAtOnce (run : CompileRun ω κ) (request : CompileRequest) : Prop :=
  request.tries = 1 ∧ (run.slots.tryAcquire run.semaphores .compile).1.isSome = true

instance (run : CompileRun ω κ) (request : CompileRequest) : Decidable (run.GivenAtOnce request) :=
  inferInstanceAs (Decidable (_ ∧ _))

/-- How often a compile on this host waits for a slot: once, unless one was given at once. -/
def CompileRun.waits (run : CompileRun ω κ) (request : CompileRequest) : Nat :=
  if run.GivenAtOnce request then 0 else 1

/-- What a controller has done for compiles. -/
abbrev CompileRun.compileSlots (run : CompileRun ω κ) : SlotStats := run.slots.ledger.get .compile

/-- How a compile makes use of the compile slots: by its start, the state while the compiler runs, and
its end. -/
structure SlotDiscipline (request : CompileRequest) (start during : CompileRun ω κ)
    (ended : CompileEnd × CompileRun ω κ) : Prop where
  /-- the compiler is run in one slot, which was given at once or was waited for once -/
  compiled : ended.2.Compiled → ∃ cause, RunsInSlot request cause
    (start.slots.recorded request.tries (start.waits request)) during ended
  /-- so one more slot is held meanwhile, if slots are limited -/
  oneMore : ended.2.Compiled → during.compileSlots.held = start.compileSlots.held +
    if (start.slots.source.counters.get .compile).isSome = true then 1 else 0
  /-- if one was given at once, then no worker was tried -/
  atOnce : start.GivenAtOnce request → ended.2.Compiled ∧ StayedHere request start ended.2
  /-- a compile that has to be done here tries for no slot and for no worker -/
  forced : request.forcedReason? ≠ none →
    ended.2.compileSlots.tried = start.compileSlots.tried ∧ StayedHere request start ended.2
  /-- a compile that is done elsewhere does not come to that -/
  elsewhere : ended.1.IsElsewhere → ¬ ended.2.Compiled
  /-- and any other that ends has run the compiler here -/
  here : ended.1.isSome = true → ¬ ended.1.IsElsewhere → ended.2.Compiled
  /-- nor does it have a slot, until the compiler is run here: if it tried for one, it was refused -/
  slotless : ¬ ended.2.Compiled → ¬ start.GivenAtOnce request ∧
    Unslotted (start.slots.recorded request.tries 0) start.semaphores ended.2
  /-- as many slots are held in the end as before -/
  returned : ended.1.isSome = true → ended.2.compileSlots.held = start.compileSlots.held

section Discipline

variable {request : CompileRequest} {cause : LocalCause} {start during : CompileRun ω κ}
  {ended : CompileEnd × CompileRun ω κ}

omit C in
theorem CompileRequest.tries_of_forced (h : request.forcedReason? ≠ none) : request.tries = 0 := by
  simp [tries, h]

theorem SlotDiscipline.of_runsInSlot
    (h : RunsInSlot request cause (start.slots.recorded request.tries (start.waits request)) during
      ended)
    (hatOnce : start.GivenAtOnce request → StayedHere request start ended.2)
    (hforced : request.forcedReason? ≠ none → StayedHere request start ended.2) :
    SlotDiscipline request start during ended where
  compiled _ := ⟨cause, h⟩
  oneMore _ := by
    obtain ⟨permit, _, htake, hslots⟩ := h.held
    rw [CompileRun.compileSlots, hslots, SlotController.held_holding _ htake,
      SlotController.held_recorded]
    rfl
  atOnce hgiven := ⟨h.compiled, hatOnce hgiven⟩
  forced hreason := by
    refine ⟨?_, hforced hreason⟩
    have hnone := CompileRequest.tries_of_forced hreason
    obtain ⟨permit, _, _, hslots⟩ := h.held
    rcases h.released with rfl | ⟨answer, rfl⟩
    · simp [CompileRun.compileSlots, hslots, hnone]
    · simp [CompileRun.compileSlots, hnone]
  elsewhere := by
    rcases h.released with rfl | ⟨answer, rfl⟩
    · simp [CompileEnd.IsElsewhere]
    · cases answer <;> simp [CompileEnd.IsElsewhere, LocalCause.ending]
  here _ _ := h.compiled
  slotless huncompiled := (huncompiled h.compiled).elim
  returned := by
    rcases h.released with rfl | ⟨answer, rfl⟩
    · simp
    · simp [CompileRun.compileSlots]

theorem SlotDiscipline.of_unslotted
    (h : Unslotted (start.slots.recorded request.tries 0) start.semaphores ended.2)
    (hended : ended.1 = none ∨ ended.1.IsElsewhere) (hrefused : ¬ start.GivenAtOnce request)
    (hforced : request.forcedReason? ≠ none → StayedHere request start ended.2) :
    SlotDiscipline request start during ended where
  compiled hcompiled := (h.uncompiled hcompiled).elim
  oneMore hcompiled := (h.uncompiled hcompiled).elim
  atOnce hgiven := (hrefused hgiven).elim
  forced hreason := by
    refine ⟨?_, hforced hreason⟩
    simp [CompileRun.compileSlots, h.slots, CompileRequest.tries_of_forced hreason]
  elsewhere _ := h.uncompiled
  here hsome hnot := by
    rcases hended with hnone | helsewhere
    · simp [hnone] at hsome
    · exact absurd helsewhere hnot
  slotless _ := ⟨hrefused, h⟩
  returned _ := by simp [CompileRun.compileSlots, h.slots]

/-- A compile that has to be done here waits for a slot. -/
theorem slotDiscipline_compileHere {reason : ForcedReason}
    (hreason : request.forcedReason? = some reason) (hnone : start.milestones = []) :
    SlotDiscipline request start
      (@CompileRun.compileHere ω κ C.endless start request (.forced reason)).2
      (start.compileHere request (.forced reason)) := by
  have htries : request.tries = 0 := CompileRequest.tries_of_forced (by simp [hreason])
  have hrefused : ¬ start.GivenAtOnce request := by simp [CompileRun.GivenAtOnce, htries]
  have hstayed : StayedHere request start (start.compileHere request (.forced reason)).2 :=
    stayedHere_compileHere
  have hstart : start.milestones = (LocalCause.forced reason).abandonment := hnone
  rcases runsInSlot_compileHere request hstart with hruns | hwaits
  · have hcounts : start.slots.recorded request.tries (start.waits request) =
        start.slots.recorded 0 1 := by
      rw [htries, CompileRun.waits, if_neg hrefused]
    rw [← hcounts] at hruns
    exact .of_runsInSlot hruns (fun _ => hstayed) fun _ => hstayed
  · refine .of_unslotted ?_ (.inl ?_) hrefused fun _ => hstayed
    · rw [hwaits, htries, SlotController.recorded_zero]
      exact ⟨not_compiled_of_milestones hstart, rfl, rfl⟩
    · rw [hwaits]

/-- A compile for which a slot was given at once makes use of it. -/
theorem slotDiscipline_compileIn {permit : Permit} {left : Semaphores}
    (hreason : request.forcedReason? = none) (htries : request.tries = 1)
    (htake : start.slots.source.take? start.semaphores .compile = some (permit, left))
    (hnone : start.milestones = []) :
    let had : CompileRun ω κ :=
      { start with slots := (start.slots.recorded 1 0).holding permit, semaphores := left }
    SlotDiscipline request start
      (@CompileRun.compileIn ω κ C.endless had request .slotFree permit).2
      (had.compileIn request .slotFree permit) := by
  intro had
  have hgiven : start.GivenAtOnce request := by
    refine ⟨htries, ?_⟩
    rw [SlotController.tryAcquire_eq, htake]
    rfl
  have hhad : had.milestones = LocalCause.slotFree.abandonment := hnone
  have hslots : had.slots = (start.slots.recorded 1 0).holding permit := rfl
  have htaken : (start.slots.recorded 1 0).source.take? start.semaphores .compile =
      some (permit, had.semaphores) := htake
  have hruns : RunsInSlot request .slotFree _ _ (had.compileIn request .slotFree permit) :=
    runsInSlot_compileIn hslots htaken hhad
  have hcounts : start.slots.recorded request.tries (start.waits request) =
      start.slots.recorded 1 0 := by
    rw [htries, CompileRun.waits, if_pos hgiven]
  rw [← hcounts] at hruns
  exact .of_runsInSlot hruns (fun _ => stayedHere_compileIn permit (.inl rfl) rfl rfl rfl)
    fun h => (h hreason).elim

variable [Channel κ]

/-- A compile that is given no slot at once tries a worker first. -/
theorem slotDiscipline_compileAway (rounds : Nat) (hreason : request.forcedReason? = none)
    (hrefused : ¬ start.GivenAtOnce request) (hstart : start.Unstarted request.config)
    (hnone : start.milestones = []) :
    let tried : CompileRun ω κ := { start with slots := start.slots.recorded request.tries 0 }
    SlotDiscipline request start (@CompileRun.compileAway ω κ _ C.endless rounds tried request).2
      (tried.compileAway rounds request) := by
  intro tried
  have htried : tried.Unstarted request.config :=
    ⟨hstart.watchdog, hstart.scheduler, hstart.sources⟩
  rcases compileAway_slots htried hnone rounds with ⟨reason, hruns⟩ | ⟨hunslotted, hended⟩
  · have hcounts : start.slots.recorded request.tries (start.waits request) =
        tried.slots.recorded 0 1 := by
      rw [SlotController.recorded_recorded, CompileRun.waits, if_neg hrefused, Nat.add_zero,
        Nat.zero_add]
    rw [← hcounts] at hruns
    exact .of_runsInSlot hruns (fun h => (hrefused h).elim) fun h => (h hreason).elim
  · exact .of_unslotted hunslotted hended hrefused fun h => (h hreason).elim

/-- In every compile, whatever its surroundings do, the compiler is run on this host in one compile
slot, if at all. That is the slot of the one try, if it succeeds, and then nothing is waited for and
no worker is tried; otherwise it was waited for once. A compile that has to be done here does not try,
neither for a slot nor for a worker; one that is done elsewhere never has a slot, and any other that ends has
run the compiler here; and when a compile has ended, as many slots are held as before. -/
theorem slot_discipline (rounds : Nat) (request : CompileRequest) (surroundings : ω)
    (slots : SlotController) (semaphores : Semaphores) (files : FileTree) :
    let start : CompileRun ω κ := .fresh request surroundings slots semaphores files
    SlotDiscipline request start (start.whileCompiling rounds request)
      (start.compile rounds request) := by
  intro start
  have hfresh : start.Unstarted request.config :=
    unstarted_fresh request surroundings slots semaphores files
  unfold CompileRun.whileCompiling CompileRun.compile
  cases hreason : request.forcedReason? with
  | some reason => exact slotDiscipline_compileHere hreason rfl
  | none =>
    dsimp only
    cases hlocal : request.config.noLocal with
    | true =>
      have htries : request.tries = 0 := by simp [CompileRequest.tries, hlocal]
      have hrefused : ¬ start.GivenAtOnce request := by simp [CompileRun.GivenAtOnce, htries]
      have haway := slotDiscipline_compileAway rounds hreason hrefused hfresh rfl
      rw [htries, SlotController.recorded_zero] at haway
      exact haway
    | false =>
      have htries : request.tries = 1 := by simp [CompileRequest.tries, hreason, hlocal]
      rw [SlotController.tryAcquire_eq]
      cases htake : start.slots.source.take? start.semaphores .compile with
      | none =>
        have hrefused : ¬ start.GivenAtOnce request := by
          simp [CompileRun.GivenAtOnce, SlotController.tryAcquire_eq, htake]
        have haway := slotDiscipline_compileAway rounds hreason hrefused hfresh rfl
        rw [htries] at haway
        exact haway
      | some taken => exact slotDiscipline_compileIn hreason htries htake rfl

end Discipline

/-- The only slot of a host is held while the compiler runs, and free again when it has ended. -/
example :
    let request := { plainRequest with config := { plainRequest.config with noLocal := false } }
    let (source, semaphores) := SlotSource.inProcess .none (.const 1)
    let start := CompileRun.fresh request (⟨0⟩ : QuietHost) (.ofSource source) semaphores emptyTree
    (start.whileCompiling 0 request).compileSlots = ⟨1, 1, 0⟩ ∧
      (start.compile 0 request).2.compileSlots = ⟨0, 1, 0⟩ := by
  decide

end Offload
