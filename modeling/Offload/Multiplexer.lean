/-!
# The multiplexer

Sources of events are polled together and dispatched one after the other. They act on a common state
`σ`, so that the dispatch of one source may make another one ready; that one waits for the next
round.
-/

namespace Offload

/-- A source of events: whether it has something to handle, and the handling. -/
structure EventSource (σ : Type) where
  /-- makes progress and says whether there is something to handle -/
  poll : σ → Bool × σ
  dispatch : σ → σ

/-- Sources in the order of their registration. -/
structure Multiplexer (σ : Type) where
  sources : List (Nat × EventSource σ)
  /-- the number of the next registration, from a counter that does not run out -/
  nextId : Nat

/-- How a wait ended. -/
inductive Waited (σ : Type) (α : Type) where
  | done (value : α) (state : σ)
  /-- no source is registered, so that nothing can end the wait -/
  | noSources (state : σ)
  /-- nothing is ready, and nothing will be -/
  | pending (state : σ)

namespace Multiplexer

variable {σ : Type}

/-- The wording of a wait without sources. -/
def noSourcesText : String := "no event sources registered"

/-- Without sources. -/
def empty : Multiplexer σ := ⟨[], 0⟩

/-- Registers a source under a number of its own. -/
def add (mux : Multiplexer σ) (source : EventSource σ) : Nat × Multiplexer σ :=
  (mux.nextId, ⟨mux.sources ++ [(mux.nextId, source)], mux.nextId + 1⟩)

/-- Takes a source out. False if it was not there. -/
def remove (mux : Multiplexer σ) (id : Nat) : Bool × Multiplexer σ :=
  (mux.sources.any fun s => s.1 == id,
    { mux with sources := mux.sources.filter fun s => s.1 != id })

/-- The number of sources. -/
def size (mux : Multiplexer σ) : Nat := mux.sources.length

/-- Polls sources in order. The ready ones. -/
def pollAll : List (Nat × EventSource σ) → σ → List (Nat × EventSource σ) × σ
  | [], s => ([], s)
  | source :: rest, s =>
    let (ready, s) := source.2.poll s
    let (others, s) := pollAll rest s
    (if ready then source :: others else others, s)

/-- Dispatches sources in order. -/
def dispatchAll (sources : List (Nat × EventSource σ)) (s : σ) : σ :=
  sources.foldl (fun s source => source.2.dispatch s) s

/-- What happens around the sources while they are waited for. -/
structure Surroundings (σ : Type) where
  /-- between two rounds of polling -/
  meanwhile : σ → σ
  /-- when no source is ready; `none` if nothing will happen -/
  idle : σ → Option σ

/-- Waits until a source is ready and dispatches the ready ones once; their number. The first
argument bounds the rounds of polling. -/
def exec (around : Surroundings σ) (mux : Multiplexer σ) : Nat → σ → Waited σ Nat
  | 0, s => .pending s
  | rounds + 1, s =>
    if mux.sources.isEmpty then .noSources s
    else
      match pollAll mux.sources (around.meanwhile s) with
      | ([], s) =>
        match around.idle s with
        | none => .pending s
        | some s => exec around mux rounds s
      | (ready, s) => .done ready.length (dispatchAll ready s)

/-- Waits and dispatches until the question is answered by true; how often. Asking may act on the
state. The first argument bounds the number of waits, and for each of them the rounds of polling. -/
def runUntilAsked (around : Surroundings σ) (mux : Multiplexer σ) (ask : σ → Bool × σ) :
    Nat → σ → Waited σ Nat
  | 0, s => if (ask s).1 then .done 0 (ask s).2 else .pending (ask s).2
  | rounds + 1, s =>
    if (ask s).1 then .done 0 (ask s).2
    else
      match exec around mux (rounds + 1) (ask s).2 with
      | .done _ s =>
        match runUntilAsked around mux ask rounds s with
        | .done n s => .done (n + 1) s
        | other => other
      | other => other

/-- Waits and dispatches until `done` holds; how often. The first argument bounds the number of
waits, and for each of them the rounds of polling. -/
def runUntil (around : Surroundings σ) (mux : Multiplexer σ) (done : σ → Bool) :
    Nat → σ → Waited σ Nat :=
  runUntilAsked around mux fun s => (done s, s)

end Multiplexer

end Offload
