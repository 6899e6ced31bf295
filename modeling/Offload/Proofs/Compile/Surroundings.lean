import Offload.Compile.Run
import Offload.Proofs.Connection.Translation
import Offload.Proofs.Waiting
import Mathlib.Data.List.Forall2

/-!
# Translations of the surroundings

Surroundings may be translated so that they answer alike (`SurroundingsMap`); the parts of a compile
are translated along with them (`Parts.map`). The sources of events make no difference between parts
and their translation, so that a wait among the translated parts ends as the wait among the parts
(`Multiplexer.map_runUntil`).
-/

namespace Offload

open Multiplexer

/-! ## Waiting -/

section Waiting

variable {σ τ α : Type} {m : σ → τ}

/-- A source that acts on images of states as another one acts on the states. -/
structure EventSource.Mirrors (m : σ → τ) (source : EventSource σ) (image : EventSource τ) :
    Prop where
  poll : ∀ s, image.poll (m s) = (source.poll s).map id m
  dispatch : ∀ s, image.dispatch (m s) = m (source.dispatch s)

/-- Sources that do so one by one. -/
abbrev SourcesMirror (m : σ → τ) :
    List (Nat × EventSource σ) → List (Nat × EventSource τ) → Prop :=
  List.Forall₂ fun source image => source.2.Mirrors m image.2

/-- The end of a wait, for the image of the state. -/
def Waited.map (m : σ → τ) : Waited σ α → Waited τ α
  | .done value s => .done value (m s)
  | .noSources s => .noSources (m s)
  | .pending s => .pending (m s)

namespace Multiplexer

/-- The same happens around the sources. -/
structure Surroundings.Mirrors (m : σ → τ) (around : Surroundings σ) (image : Surroundings τ) :
    Prop where
  meanwhile : ∀ s, image.meanwhile (m s) = m (around.meanwhile s)
  idle : ∀ s, image.idle (m s) = (around.idle s).map m

theorem mirrors_pollAll {sources : List (Nat × EventSource σ)} {images : List (Nat × EventSource τ)}
    (h : SourcesMirror m sources images) (s : σ) :
    SourcesMirror m (pollAll sources s).1 (pollAll images (m s)).1 ∧
      (pollAll images (m s)).2 = m (pollAll sources s).2 := by
  induction h generalizing s with
  | nil => exact ⟨.nil, rfl⟩
  | @cons source image rest images hsource _ ih =>
    rw [pollAll, pollAll, hsource.poll]
    rcases source.2.poll s with ⟨_ | _, after⟩
    · exact ih after
    · exact ⟨.cons hsource (ih after).1, (ih after).2⟩

theorem map_dispatchAll {sources : List (Nat × EventSource σ)} {images : List (Nat × EventSource τ)}
    (h : SourcesMirror m sources images) (s : σ) :
    dispatchAll images (m s) = m (dispatchAll sources s) := by
  induction h generalizing s with
  | nil => rfl
  | @cons source image rest images hsource _ ih =>
    exact (congrArg (dispatchAll images) (hsource.dispatch s)).trans (ih _)

variable {around : Surroundings σ} {around' : Surroundings τ} {mux : Multiplexer σ}
  {mux' : Multiplexer τ}

theorem map_exec (haround : around.Mirrors m around')
    (hmux : SourcesMirror m mux.sources mux'.sources) (rounds : Nat) (s : σ) :
    exec around' mux' rounds (m s) = (exec around mux rounds s).map m := by
  have hempty : mux'.sources.isEmpty = mux.sources.isEmpty := by
    generalize mux.sources = sources at hmux ⊢
    generalize mux'.sources = images at hmux ⊢
    cases hmux <;> rfl
  induction rounds generalizing s with
  | zero => rfl
  | succ rounds ih =>
    obtain ⟨hready, hstate⟩ := mirrors_pollAll hmux (around.meanwhile s)
    rw [exec, exec, hempty, haround.meanwhile]
    split
    · rfl
    -- the ready sources mirror each other too, so that both rounds find something or neither does
    · generalize pollAll mux.sources (around.meanwhile s) = polled at hready hstate ⊢
      generalize pollAll mux'.sources (m (around.meanwhile s)) = polled' at hready hstate ⊢
      obtain ⟨ready, after⟩ := polled
      obtain ⟨ready', after'⟩ := polled'
      obtain rfl : after' = m after := hstate
      cases hready with
      | nil =>
        dsimp only
        rw [haround.idle]
        cases around.idle after with
        | none => rfl
        | some later => exact ih later
      | cons hfirst hrest =>
        have hall : SourcesMirror m (_ :: _) (_ :: _) := .cons hfirst hrest
        exact congrArg₂ Waited.done hall.length_eq.symm (map_dispatchAll hall after)

theorem map_runUntil (haround : around.Mirrors m around')
    (hmux : SourcesMirror m mux.sources mux'.sources) {done : σ → Bool} {done' : τ → Bool}
    (hdone : ∀ s, done' (m s) = done s) (rounds : Nat) (s : σ) :
    runUntil around' mux' done' rounds (m s) = (runUntil around mux done rounds s).map m := by
  induction rounds generalizing s with
  | zero =>
    rw [runUntil_zero, runUntil_zero, hdone, apply_ite (Waited.map m)]
    rfl
  | succ rounds ih =>
    rw [runUntil_succ, runUntil_succ, hdone, map_exec haround hmux]
    split
    · rfl
    · cases exec around mux (rounds + 1) s with
      | done n after =>
        simp only [Waited.map, ih]
        cases runUntil around mux done rounds after <;> rfl
      | noSources after => rfl
      | pending after => rfl

end Multiplexer

end Waiting

/-! ## Surroundings -/

section Surroundings

variable {ω ω' κ κ' : Type}

/-- An accepted connection with its channel translated. -/
def Accepted.map (g : κ → κ') (accepted : Accepted κ) : Accepted κ' :=
  { accepted with channel := g accepted.channel }

/-- A translation of surroundings, and of the channels they open. The translated surroundings answer
as they are answered. -/
structure SurroundingsMap [Channel κ] [Channel κ'] [Collaborators ω κ] [Collaborators ω' κ']
    (f : ω → ω') (g : κ → κ') : Prop where
  channel : ChannelMap g
  clock : ∀ w, Collaborators.clock (f w) = (Collaborators.clock w).map id f
  connect : ∀ w request, Collaborators.connect (f w) request =
    (Collaborators.connect w request).map (Except.map (Accepted.map g)) f
  compilerHash : ∀ w files, Collaborators.compilerHash (f w) files =
    (Collaborators.compilerHash w files).map id (Prod.map id f)
  startPreprocessor : ∀ w inv,
    Collaborators.startPreprocessor (f w) inv = f (Collaborators.startPreprocessor w inv)
  pollPreprocessor : ∀ w,
    Collaborators.pollPreprocessor (f w) = (Collaborators.pollPreprocessor w).map id f
  stopPreprocessor : ∀ w,
    Collaborators.stopPreprocessor (f w) = f (Collaborators.stopPreprocessor w)
  runCompiler : ∀ w args files, Collaborators.runCompiler (f w) args files =
    (Collaborators.runCompiler w args files).map id (Prod.map id f)
  showStdout : ∀ w data,
    Collaborators.showStdout (f w) data = (Collaborators.showStdout w data).map id f
  showStderr : ∀ w data,
    Collaborators.showStderr (f w) data = (Collaborators.showStderr w data).map id f
  awaitUnit : ∀ w kind semaphores, Collaborators.awaitUnit (f w) kind semaphores =
    (Collaborators.awaitUnit w kind semaphores).map id f
  meanwhile : ∀ w, Collaborators.meanwhile (f w) = f (Collaborators.meanwhile w)
  idle : ∀ w, Collaborators.idle (f w) = (Collaborators.idle w).map f
  catchUp : ∀ w channel,
    Collaborators.catchUp (f w) (g channel) = g (Collaborators.catchUp w channel)

/-- The parts in translated surroundings. -/
def Parts.map (f : ω → ω') (g : κ → κ') (p : Parts ω κ) : Parts ω' κ' where
  surroundings := f p.surroundings
  watchdog := p.watchdog
  preprocessor := p.preprocessor
  scheduler := p.scheduler.map (Connection.map g id)
  worker := p.worker.map (Connection.map g id)

variable [Channel κ] [Channel κ'] [Collaborators ω κ] [Collaborators ω' κ'] {f : ω → ω'}
  {g : κ → κ'}

namespace Parts

theorem map_now (h : SurroundingsMap f g) (p : Parts ω κ) :
    (p.map f g).now = p.now.map id (map f g) := by
  rw [now, now]
  have hclock : Collaborators.clock (p.map f g).surroundings
      = (Collaborators.clock p.surroundings).map id f := h.clock p.surroundings
  rw [hclock]
  rfl

theorem map_startWatchdog (h : SurroundingsMap f g) (p : Parts ω κ) :
    (p.map f g).startWatchdog = p.startWatchdog.map f g := by
  rw [startWatchdog, startWatchdog, map_now h]
  rfl

theorem map_enter (h : SurroundingsMap f g) (stage : Stage) (p : Parts ω κ) :
    (p.map f g).enter stage = (p.enter stage).map f g := by
  rw [enter, enter, map_now h]
  rfl

theorem map_pollPreprocessor (h : SurroundingsMap f g) (p : Parts ω κ) :
    (p.map f g).pollPreprocessor = p.pollPreprocessor.map id (map f g) := by
  obtain ⟨surroundings, watchdog, preprocessor, scheduler, worker⟩ := p
  cases preprocessor with
  | running =>
    simp only [pollPreprocessor, map, h.pollPreprocessor]
    rcases Collaborators.pollPreprocessor surroundings with ⟨_ | result, after⟩ <;> rfl
  | _ => rfl

/-! Each source mirrors itself. -/

theorem mirrors_watchdogSource (h : SurroundingsMap f g) :
    EventSource.Mirrors (map f g) watchdogSource watchdogSource where
  poll p := by
    show (p.map f g).pollWatchdog = p.pollWatchdog.map id (map f g)
    rw [pollWatchdog, pollWatchdog, map_now h]
    rfl
  dispatch p := by
    show (p.map f g).checkWatchdog = p.checkWatchdog.map f g
    rw [checkWatchdog, checkWatchdog, map_now h]
    rfl

theorem mirrors_preprocessorSource (h : SurroundingsMap f g) :
    EventSource.Mirrors (map f g) preprocessorSource preprocessorSource where
  poll := map_pollPreprocessor h
  dispatch _ := rfl

theorem mirrors_schedulerSource (h : SurroundingsMap f g) :
    EventSource.Mirrors (map f g) schedulerSource schedulerSource where
  poll p := by
    show (p.map f g).pollScheduler = p.pollScheduler.map id (map f g)
    obtain ⟨surroundings, watchdog, preprocessor, scheduler, worker⟩ := p
    cases scheduler with
    | none => rfl
    | some c =>
      simp only [pollScheduler, map, Option.map_some,
        Connection.map_poll h.channel conversationMap_id]
      rfl
  dispatch p := by
    obtain ⟨surroundings, watchdog, preprocessor, scheduler, worker⟩ := p
    cases scheduler with
    | none => rfl
    | some c =>
      simp only [schedulerSource, map, Option.map_some, Connection.map_dispatch conversationMap_id]

theorem mirrors_workerSource (h : SurroundingsMap f g) :
    EventSource.Mirrors (map f g) workerSource workerSource where
  poll p := by
    show (p.map f g).pollWorker = p.pollWorker.map id (map f g)
    obtain ⟨surroundings, watchdog, preprocessor, scheduler, worker⟩ := p
    cases worker with
    | none => rfl
    | some c =>
      simp only [pollWorker, map, Option.map_some,
        Connection.map_poll h.channel conversationMap_id]
      rfl
  dispatch p := by
    obtain ⟨surroundings, watchdog, preprocessor, scheduler, worker⟩ := p
    cases worker with
    | none => rfl
    | some c =>
      simp only [workerSource, map, Option.map_some, Connection.map_dispatch conversationMap_id]

theorem mirrors_around (h : SurroundingsMap f g) :
    Multiplexer.Surroundings.Mirrors (map f g) around around where
  meanwhile p := by
    have hrefresh {π : Type} (w : ω) (c : Option (Connection κ π)) :
        (c.map (Connection.map g id)).map (refresh (f w))
          = (c.map (refresh w)).map (Connection.map g id) := by
      cases c with
      | none => rfl
      | some c => simp only [Option.map_some, refresh, Connection.map, h.catchUp, id]
    simp only [around, meanwhile, map, h.meanwhile, hrefresh]
  idle p := by
    simp only [around, idle, map, h.idle, Option.map_map]
    rfl

end Parts

end Surroundings

end Offload
