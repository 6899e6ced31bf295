import Offload.Compile.Attempt
import Offload.Proofs.Talk
import Offload.Proofs.Waiting

/-!
# What an attempt does, move by move

An attempt to compile on a worker changes its state in a handful of ways. They are listed here once
(`PartsMove`, `Move`); a property that each of them keeps holds at the end of the attempt, however it
ends, so that no later proof looks at the steps of an attempt again. The sources of events move the
parts only (`moves_of_waiting`).

Entering the last stage, stopping the watchdog and showing something are moves of the delivery of a
result alone. The parameter `closing` says whether a result is being delivered. The surroundings
change by what they are asked and in no other way (`Asked`).
-/

namespace Offload

open Relation

variable {ω κ : Type}

/-! ## Moves -/

/-- A change of the surroundings by something that an attempt asks of them. -/
inductive Asked [Collaborators ω κ] : ω → ω → Prop
  | clock (s : ω) : Asked s (Collaborators.clock s).2
  | connect (s : ω) (request : ConnectRequest) : Asked s (Collaborators.connect s request).2
  | compilerHash (s : ω) (files : FileTree) : Asked s (Collaborators.compilerHash s files).2.2
  | startPreprocessor (s : ω) (inv : Invocation) :
    Asked s (Collaborators.startPreprocessor s inv)
  | pollPreprocessor (s : ω) : Asked s (Collaborators.pollPreprocessor s).2
  | stopPreprocessor (s : ω) : Asked s (Collaborators.stopPreprocessor s)
  | showStdout (s : ω) (data : Bytes) : Asked s (Collaborators.showStdout s data).2
  | showStderr (s : ω) (data : Bytes) : Asked s (Collaborators.showStderr s data).2
  | meanwhile (s : ω) : Asked s (Collaborators.meanwhile s)
  | idle (s later : ω) (h : Collaborators.idle s = some later) : Asked s later

/-- A change of the parts of an attempt. -/
inductive PartsMove [Channel κ] [Collaborators ω κ] (closing : Prop) :
    Parts ω κ → Parts ω κ → Prop
  | surroundings (p : Parts ω κ) (s : ω) (h : Asked p.surroundings s) :
    PartsMove closing p { p with surroundings := s }
  /-- the preprocessor ends, or is stopped -/
  | preprocessor (p : Parts ω κ) (state : Preprocessor) (h : p.preprocessor = .running) :
    PartsMove closing p { p with preprocessor := state }
  | watchdogStarted (p : Parts ω κ) (now : Micros) :
    PartsMove closing p { p with watchdog := p.watchdog.start now }
  | watchdogPolled (p : Parts ω κ) (now : Micros) :
    PartsMove closing p { p with watchdog := (p.watchdog.poll now).2 }
  | watchdogChecked (p : Parts ω κ) (now : Micros) :
    PartsMove closing p { p with watchdog := (p.watchdog.check now).2 }
  | stageEntered (p : Parts ω κ) (stage : Stage) (now : Micros) (h : stage = .finished → closing) :
    PartsMove closing p { p with watchdog := (p.watchdog.transition stage now).2 }
  | watchdogStopped (p : Parts ω κ) (h : closing) :
    PartsMove closing p { p with watchdog := p.watchdog.stop }
  /-- the scheduler is talked to -/
  | schedulerTalked (p : Parts ω κ) (c c' : Connection κ SchedulerConversation)
    (h : p.scheduler = some c) (talk : ReflTransGen Talk c.conversation c'.conversation) :
    PartsMove closing p { p with scheduler := some c' }
  /-- the worker is met or talked to, or its result is taken -/
  | worker (p : Parts ω κ) (w : Option (Connection κ WorkerConversation))
    (h : p.worker.isSome = true → w.isSome = true) : PartsMove closing p { p with worker := w }

/-- The sources of events that an attempt registers. -/
inductive OfAttempt [Channel κ] [Collaborators ω κ] : EventSource (Parts ω κ) → Prop
  | watchdog : OfAttempt Parts.watchdogSource
  | preprocessor : OfAttempt Parts.preprocessorSource
  | scheduler : OfAttempt Parts.schedulerSource
  | worker : OfAttempt Parts.workerSource

/-- A deed of an attempt: the compiler is not run in full, and the attempt is not over. -/
def Deed.isOfAttempt : Deed → Bool
  | .requested _ | .shownOnStdout _ | .shownOnStderr _ => true
  | .gaveUp _ | .compiled _ _ => false

/-- A deed that someone sees. -/
def Deed.isShown : Deed → Bool
  | .shownOnStdout _ | .shownOnStderr _ => true
  | .requested _ | .gaveUp _ | .compiled _ _ => false

/-- A change of the state of a compile in an attempt. -/
inductive Move [Channel κ] [Collaborators ω κ] (closing : Prop) :
    CompileRun ω κ → CompileRun ω κ → Prop
  | parts (run : CompileRun ω κ) (p : Parts ω κ) (h : PartsMove closing run.parts p) :
    Move closing run { run with parts := p }
  | registered (run : CompileRun ω κ) (source : EventSource (Parts ω κ)) (h : OfAttempt source) :
    Move closing run (run.addSource source)
  | files (run : CompileRun ω κ) (files : FileTree) : Move closing run { run with files }
  | did (run : CompileRun ω κ) (deed : Deed) (h : deed.isOfAttempt = true)
    (hshown : deed.isShown = true → closing) : Move closing run (run.note deed)
  | messagesShown (run : CompileRun ω κ) (h : closing) :
    Move closing run { run with messagesShown := true }

variable [Channel κ] [Collaborators ω κ] {closing : Prop}

/-- A property of the parts that an attempt keeps. -/
def KeptByMoves (closing : Prop) (I : CompileRun ω κ → Prop) : Prop :=
  ∀ run after, Move closing run after → I run → I after

theorem KeptByMoves.moves {I : CompileRun ω κ → Prop} (h : KeptByMoves closing I)
    {run after : CompileRun ω κ} (hmoves : ReflTransGen (Move closing) run after) (hrun : I run) :
    I after := by
  induction hmoves with
  | refl => exact hrun
  | tail _ hlast ih => exact h _ _ hlast ih

/-- A property of the parts is kept if moves of the parts keep it. -/
theorem KeptByMoves.of_parts {I : Parts ω κ → Prop}
    (h : ∀ p p', PartsMove closing p p' → I p → I p') :
    KeptByMoves (ω := ω) (κ := κ) closing fun run => I run.parts := by
  intro run after hmove hrun
  cases hmove with
  | parts p hparts => exact h run.parts p hparts hrun
  | _ => exact hrun

/-- Moves of the parts are moves of the whole. -/
theorem Move.of_parts (run : CompileRun ω κ) {p p' : Parts ω κ}
    (h : ReflTransGen (PartsMove closing) p p') :
    ReflTransGen (Move closing) { run with parts := p } { run with parts := p' } := by
  induction h with
  | refl => exact .refl
  | tail _ hlast ih => exact .tail ih (.parts { run with parts := _ } _ hlast)

/-! ## What every move keeps -/

/-- The runs of the compiler in full and the abandonments among what was done. -/
def CompileRun.milestones (run : CompileRun ω κ) : List Deed :=
  run.deeds.filter fun deed => !deed.isOfAttempt

omit [Channel κ] [Collaborators ω κ] in
theorem milestones_note (run : CompileRun ω κ) (deed : Deed) :
    (run.note deed).milestones = run.milestones ++ if deed.isOfAttempt then [] else [deed] := by
  unfold CompileRun.milestones CompileRun.note
  rw [List.filter_append]
  cases h : deed.isOfAttempt <;> simp [h]

/-- An attempt passes no milestone and takes no slot. -/
theorem kept_milestones (deeds : List Deed) (slots : SlotController) (semaphores : Semaphores) :
    KeptByMoves (ω := ω) (κ := κ) closing fun run =>
      run.milestones = deeds ∧ run.slots = slots ∧ run.semaphores = semaphores := by
  intro run after hmove hrun
  cases hmove with
  | parts p h => exact hrun
  | registered source h => exact hrun
  | files files => exact hrun
  | did deed h hshown =>
    refine ⟨?_, hrun.2⟩
    rw [milestones_note, if_pos h, List.append_nil]
    exact hrun.1
  | messagesShown h => exact hrun

/-- Only sources of the attempt are registered. -/
def CompileRun.Sourced (run : CompileRun ω κ) : Prop := ∀ source ∈ run.mux.sources, OfAttempt source.2

theorem kept_sourced : KeptByMoves (ω := ω) (κ := κ) closing CompileRun.Sourced := by
  intro run after hmove hrun
  cases hmove with
  | parts p h => exact hrun
  | registered source h =>
    intro other hother
    change other ∈ run.mux.sources ++ [(run.mux.nextId, source)] at hother
    rw [List.mem_append, List.mem_singleton] at hother
    rcases hother with hother | rfl
    · exact hrun other hother
    · exact h
  | files files => exact hrun
  | did deed h hshown => exact hrun
  | messagesShown h => exact hrun

/-- A source that is registered stays so. -/
theorem kept_registered (source : EventSource (Parts ω κ)) :
    KeptByMoves (ω := ω) (κ := κ) closing fun run => ∃ id, (id, source) ∈ run.mux.sources := by
  intro run after hmove hrun
  cases hmove with
  | parts p h => exact hrun
  | registered other h =>
    obtain ⟨id, hid⟩ := hrun
    exact ⟨id, List.mem_append_left _ hid⟩
  | files files => exact hrun
  | did deed h hshown => exact hrun
  | messagesShown h => exact hrun

/-- What holds of the conversation with the scheduler, if there is one. -/
def Parts.SchedulerIs (S : SchedulerConversation → Prop) (p : Parts ω κ) : Prop :=
  ∀ c, p.scheduler = some c → S c.conversation

/-- What talk cannot change about the conversation with the scheduler, no move changes. -/
theorem kept_schedulerIs {S : SchedulerConversation → Prop} (hS : KeptByTalk S) :
    KeptByMoves (ω := ω) (κ := κ) closing fun run => run.parts.SchedulerIs S := by
  refine .of_parts fun p p' hmove hp => ?_
  cases hmove with
  | schedulerTalked c c' hc talk =>
    intro d hd
    obtain rfl := Option.some.inj hd
    exact hS.talks talk (hp c hc)
  | _ => exact hp

/-- Whoever was met stays so. -/
theorem kept_met :
    KeptByMoves (ω := ω) (κ := κ) closing (fun run => run.parts.scheduler.isSome = true) ∧
      KeptByMoves (ω := ω) (κ := κ) closing fun run => run.parts.worker.isSome = true := by
  refine ⟨.of_parts (I := fun p => p.scheduler.isSome = true) fun p p' hmove hp => ?_,
    .of_parts (I := fun p => p.worker.isSome = true) fun p p' hmove hp => ?_⟩
  · cases hmove with
    | schedulerTalked c c' hc talk => rfl
    | _ => exact hp
  · cases hmove with
    | worker w h => exact h hp
    | _ => exact hp

/-- Nothing was shown. -/
structure CompileRun.Silent (run : CompileRun ω κ) : Prop where
  deeds : ∀ deed ∈ run.deeds, deed.isShown = false
  messages : run.messagesShown = false

/-- Short of the delivery of a result nothing is shown. -/
theorem kept_silent : KeptByMoves (ω := ω) (κ := κ) False CompileRun.Silent := by
  intro run after hmove hrun
  cases hmove with
  | parts p h => exact ⟨hrun.deeds, hrun.messages⟩
  | registered source h => exact ⟨hrun.deeds, hrun.messages⟩
  | files files => exact ⟨hrun.deeds, hrun.messages⟩
  | did deed h hshown =>
    refine ⟨fun other hother => ?_, hrun.messages⟩
    change other ∈ run.deeds ++ [deed] at hother
    rw [List.mem_append, List.mem_singleton] at hother
    rcases hother with hother | rfl
    · exact hrun.deeds other hother
    · exact Bool.eq_false_iff.mpr hshown
  | messagesShown h => exact h.elim

/-- The surroundings change by what they are asked. -/
theorem kept_asked (s : ω) :
    KeptByMoves (ω := ω) (κ := κ) closing fun run =>
      ReflTransGen Asked s run.parts.surroundings := by
  refine .of_parts (I := fun p => ReflTransGen Asked s p.surroundings) fun p p' hmove hp => ?_
  cases hmove with
  | surroundings later h => exact hp.tail h
  | _ => exact hp

/-- A preprocessor that has ended stays so. -/
theorem kept_preprocessed (result : Except CompilerError Preprocessed) :
    KeptByMoves (ω := ω) (κ := κ) closing fun run => run.parts.preprocessor = .ended result := by
  refine .of_parts (I := fun p => p.preprocessor = .ended result) fun p p' hmove hp => ?_
  cases hmove with
  | preprocessor state h => exact absurd (hp.symm.trans h) (by simp)
  | _ => exact hp

/-! ## Sources of events -/

section Sources

theorem moves_now (p : Parts ω κ) : PartsMove closing p p.now.2 := .surroundings p _ (.clock _)

theorem moves_enter (stage : Stage) (p : Parts ω κ) (h : stage = .finished → closing) :
    ReflTransGen (PartsMove closing) p (p.enter stage) :=
  .tail (.single (moves_now p)) (.stageEntered p.now.2 stage p.now.1 h)

theorem moves_pollPreprocessor (p : Parts ω κ) :
    ReflTransGen (PartsMove closing) p p.pollPreprocessor.2 := by
  rw [Parts.pollPreprocessor]
  split
  · rename_i hrunning
    have hasked := Asked.pollPreprocessor p.surroundings
    split
    · rename_i result s hpoll
      rw [hpoll] at hasked
      exact .tail (.single (.surroundings p s hasked))
        (.preprocessor { p with surroundings := s } _ hrunning)
    · rename_i s hpoll
      rw [hpoll] at hasked
      exact .single (.surroundings p s hasked)
  · exact .refl

theorem moves_poll {source : EventSource (Parts ω κ)} (h : OfAttempt source) (p : Parts ω κ) :
    ReflTransGen (PartsMove closing) p (source.poll p).2 := by
  cases h with
  | watchdog => exact .tail (.single (moves_now p)) (.watchdogPolled p.now.2 p.now.1)
  | preprocessor => exact moves_pollPreprocessor p
  | scheduler =>
    change ReflTransGen _ p p.pollScheduler.2
    rw [Parts.pollScheduler]
    split
    · rename_i c hc
      exact .single (.schedulerTalked p c _ hc (Connection.talks_poll c))
    · exact .refl
  | worker =>
    change ReflTransGen _ p p.pollWorker.2
    rw [Parts.pollWorker]
    split
    · exact .single (.worker p _ fun _ => rfl)
    · exact .refl

theorem moves_dispatch {source : EventSource (Parts ω κ)} (h : OfAttempt source) (p : Parts ω κ) :
    ReflTransGen (PartsMove closing) p (source.dispatch p) := by
  cases h with
  | watchdog => exact .tail (.single (moves_now p)) (.watchdogChecked p.now.2 p.now.1)
  | preprocessor => exact .refl
  | scheduler =>
    change ReflTransGen _ p { p with scheduler := p.scheduler.map Connection.dispatch }
    cases hc : p.scheduler with
    | none => rw [Option.map_none, ← hc]
    | some c => exact .single (.schedulerTalked p c _ hc (Connection.talks_dispatch c))
  | worker => exact .single (.worker p _ fun h => Option.isSome_map.trans h)

theorem moves_meanwhile (p : Parts ω κ) : ReflTransGen (PartsMove closing) p p.meanwhile := by
  let s := Collaborators.meanwhile p.surroundings
  have hworker : ReflTransGen (PartsMove closing) p
      { p with surroundings := s, worker := p.worker.map (Parts.refresh s) } :=
    .tail (.single (.surroundings p s (.meanwhile _)))
      (.worker { p with surroundings := s } _ fun h => Option.isSome_map.trans h)
  rw [Parts.meanwhile]
  cases hc : p.scheduler with
  | none => rw [Option.map_none, ← hc]; exact hworker
  | some c =>
    -- refreshing changes the channel alone
    exact .tail hworker (.schedulerTalked _ c (Parts.refresh s c) hc .refl)

omit [Channel κ] in
/-- To be idle changes the surroundings alone. -/
theorem surroundings_of_idle {p later : Parts ω κ} (h : Parts.around.idle p = some later) :
    ∃ s, Asked p.surroundings s ∧ later = { p with surroundings := s } := by
  change (Collaborators.idle p.surroundings).map _ = some later at h
  obtain ⟨s, hs, rfl⟩ := Option.map_eq_some_iff.mp h
  exact ⟨s, .idle _ _ hs, rfl⟩

omit [Channel κ] in
/-- What happens around the client says nothing for the worker. -/
theorem workerIs_meanwhile (p : Parts ω κ) (condition : WorkerConversation → Bool) :
    p.meanwhile.workerIs condition = p.workerIs condition := by
  show (p.worker.map _).any _ = p.worker.any _
  rw [Option.any_map]
  rfl

omit [Channel κ] in
theorem workerIs_idle {p later : Parts ω κ} (h : Parts.around.idle p = some later)
    (condition : WorkerConversation → Bool) : later.workerIs condition = p.workerIs condition := by
  obtain ⟨s, -, rfl⟩ := surroundings_of_idle h
  rfl

/-- Waiting proceeds by moves of the parts. -/
theorem moves_of_waiting (mux : Multiplexer (Parts ω κ))
    (hmux : ∀ source ∈ mux.sources, OfAttempt source.2) (start : Parts ω κ) :
    Multiplexer.KeptByWaiting Parts.around mux fun p =>
      ReflTransGen (PartsMove closing) start p where
  poll source hsource p hp := hp.trans (moves_poll (hmux source hsource) p)
  meanwhile p hp := hp.trans (moves_meanwhile p)
  idle p later hp hlater := by
    obtain ⟨s, hs, rfl⟩ := surroundings_of_idle hlater
    exact hp.tail (.surroundings p s hs)
  dispatch source hsource p hp := hp.trans (moves_dispatch (hmux source hsource) p)

end Sources

end Offload
