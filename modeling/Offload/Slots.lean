import Offload.Semaphores
import Offload.SlotKind

/-!
# Admission to local capacity

All clients of a host share two semaphores, one for each kind of slot. A slot is one unit taken from
a semaphore. A controller hands slots out and keeps a ledger of the counted units that it holds, so
that all of them can be given back at once. Where a semaphore cannot be had, its kind is unlimited
and nothing is counted.
-/

namespace Offload

/-- What was handed out: a unit that has to be given back, or leave without one. -/
inductive Permit where
  | counted
  | uncounted
deriving DecidableEq, Repr

/-- Where slots come from: for each kind the semaphore, if there is one, its name, and the number of
units it is meant to have. -/
structure SlotSource where
  capacities : PerKind Nat
  names : PerKind String
  counters : PerKind (Option Nat)
deriving DecidableEq, Repr

/-- What a controller has done for one kind. -/
structure SlotStats where
  /-- counted units held now -/
  held : Nat
  /-- attempts that do not wait -/
  tried : Nat
  /-- waits that ended -/
  waited : Nat
deriving DecidableEq, Repr

/-- Hands out slots. -/
structure SlotController where
  source : SlotSource
  ledger : PerKind SlotStats
deriving DecidableEq, Repr

/-! ## Sources -/

namespace SlotSource

/-- A kind has at least one unit. -/
def atLeastOne (capacities : PerKind Nat) : PerKind Nat := .ofFn fun k => max (capacities.get k) 1

/-- Semaphores of one process. -/
def inProcess (host : Semaphores) (capacities : PerKind Nat) : SlotSource × Semaphores :=
  let capacities := atLeastOne capacities
  let (compile, host) := host.create capacities.compile capacities.compile
  let (preprocess, host) := host.create capacities.preprocess capacities.preprocess
  (⟨capacities, .ofFn fun k => "in-process:" ++ k.name, ⟨some compile, some preprocess⟩⟩, host)

/-- Opens the semaphore of a kind; a kind without one is unlimited. -/
def openKind (host : Semaphores) (capacities : PerKind Nat) (kind : SlotKind) :
    Option Nat × Semaphores :=
  match host.openNamed kind.semaphoreName (capacities.get kind) with
  | .ok (id, host) => (some id, host)
  | .error _ => (none, host)

/-- The semaphores that all processes of a host share. -/
def hostWide (host : Semaphores) (capacities : PerKind Nat) : SlotSource × Semaphores :=
  let capacities := atLeastOne capacities
  let (compile, host) := openKind host capacities .compile
  let (preprocess, host) := openKind host capacities .preprocess
  (⟨capacities, .ofFn SlotKind.semaphoreName, ⟨compile, preprocess⟩⟩, host)

/-- Removes the names of the shared semaphores, so that the next client makes new ones. The number
of names that were there. -/
def clean (host : Semaphores) : Nat × Semaphores :=
  SlotKind.all.foldl (fun (n, host) kind =>
    match host.unlink kind.semaphoreName with
    | .ok (removed, host) => (if removed then n + 1 else n, host)
    | .error _ => (n, host)) (0, host)

/-- Takes a unit; `none` if none is free. -/
def take? (source : SlotSource) (host : Semaphores) (kind : SlotKind) : Option (Permit × Semaphores) :=
  match source.counters.get kind with
  | none => some (.uncounted, host)
  | some id => (host.take? id).map fun host => (.counted, host)

/-- Gives a counted unit back. -/
def giveBack (source : SlotSource) (host : Semaphores) (kind : SlotKind) : Semaphores :=
  match source.counters.get kind with
  | none => host
  | some id => host.giveBack id

/-- Gives several counted units back. -/
def giveBackMany (source : SlotSource) (host : Semaphores) (kind : SlotKind) : Nat → Semaphores
  | 0 => host
  | n + 1 => source.giveBackMany (source.giveBack host kind) kind n

end SlotSource

/-! ## Controllers -/

namespace SlotStats

/-- Nothing done. -/
def zero : SlotStats := ⟨0, 0, 0⟩

/-- A unit more is held, if it is counted. -/
def hold (stats : SlotStats) : Permit → SlotStats
  | .counted => { stats with held := stats.held + 1 }
  | .uncounted => stats

end SlotStats

namespace SlotController

/-- A controller that holds nothing. -/
def ofSource (source : SlotSource) : SlotController := ⟨source, .const .zero⟩

/-- Takes a unit if one is free. -/
def tryAcquire (c : SlotController) (host : Semaphores) (kind : SlotKind) :
    Option Permit × SlotController × Semaphores :=
  let ledger := c.ledger.modify kind fun s => { s with tried := s.tried + 1 }
  match c.source.take? host kind with
  | none => (none, { c with ledger }, host)
  | some (permit, host) => (some permit, { c with ledger := ledger.modify kind (·.hold permit) }, host)

/-- Waits for a unit; `none` if none is free, and then nothing has happened. -/
def waitAcquire (c : SlotController) (host : Semaphores) (kind : SlotKind) :
    Option (Permit × SlotController × Semaphores) :=
  (c.source.take? host kind).map fun (permit, host) =>
    (permit, { c with
      ledger := c.ledger.modify kind fun s => { s with waited := s.waited + 1 }.hold permit }, host)

/-- Gives the unit of a slot back, if the slot is counted and the controller still holds a unit. -/
def release (c : SlotController) (host : Semaphores) (kind : SlotKind) (permit : Permit) :
    SlotController × Semaphores :=
  -- the ledger does not know which slot a unit is held for
  if permit = .counted ∧ (c.ledger.get kind).held ≠ 0 then
    ({ c with ledger := c.ledger.modify kind fun s => { s with held := s.held - 1 } },
      c.source.giveBack host kind)
  else (c, host)

/-- Gives back all units of one kind that the controller holds. -/
def releaseKind (c : SlotController) (host : Semaphores) (kind : SlotKind) :
    SlotController × Semaphores :=
  ({ c with ledger := c.ledger.modify kind fun s => { s with held := 0 } },
    c.source.giveBackMany host kind (c.ledger.get kind).held)

/-- The number of units that the controller holds. -/
def heldInAll (c : SlotController) : Nat :=
  (c.ledger.get .compile).held + (c.ledger.get .preprocess).held

/-- Gives back all units that the controller holds. The slots that are out are not told. -/
def releaseAll (c : SlotController) (host : Semaphores) : Nat × SlotController × Semaphores :=
  (c.heldInAll, SlotKind.all.foldl (fun (c, host) kind => releaseKind c host kind) (c, host))

end SlotController

/-! ## Reports -/

/-- The state of one kind. -/
structure SlotReport where
  kind : SlotKind
  name : String
  capacity : Nat
  /-- free units as a signed word, so that a count from half the range on shows as negative; `none`
  if the kind is unlimited -/
  available : Option Int64
deriving DecidableEq, Repr

namespace SlotReport

/-- Fills a text up to a width. -/
def padRight (width : Nat) (s : String) : String :=
  s ++ String.ofList (List.replicate (width - s.length) ' ')

/-- The report as a line. -/
def text (r : SlotReport) : String :=
  r.kind.name ++ " " ++ padRight 14 r.name ++ " capacity " ++ toString r.capacity
    ++ match r.available with
      | none => " (unavailable, unlimited)"
      | some n => " available " ++ toString n.toInt

/-- Whether a unit can be had at once, going by the report. -/
def showsFree (r : SlotReport) : Bool :=
  match r.available with
  | none => true
  | some n => 0 < n

end SlotReport

/-- The state of one kind. -/
def SlotController.reportKind (c : SlotController) (host : Semaphores) (kind : SlotKind) :
    SlotReport :=
  ⟨kind, c.source.names.get kind, c.source.capacities.get kind,
    (c.source.counters.get kind).map fun id => Int64.ofNat (host.free id)⟩

/-- The state of each kind. -/
def SlotController.report (c : SlotController) (host : Semaphores) : List SlotReport :=
  SlotKind.all.map (c.reportKind host)

/-! ## Runs -/

/-- A slot that was handed out, by the position of its controller. -/
structure Slot where
  controller : Nat
  kind : SlotKind
  permit : Permit
  /-- whether it still has something to give back -/
  live : Bool
deriving DecidableEq, Repr

/-- The controllers of a host and the slots that they handed out. -/
structure Admission where
  host : Semaphores
  controllers : List SlotController
  slots : List Slot
deriving DecidableEq, Repr

/-- An operation on a controller or on a slot, both by position. -/
inductive SlotOp where
  | tryAcquire (controller : Nat) (kind : SlotKind)
  | waitAcquire (controller : Nat) (kind : SlotKind)
  /-- gives a slot back, or drops it -/
  | release (slot : Nat)
  | releaseAll (controller : Nat)
deriving DecidableEq, Repr

/-- What an operation answers. -/
inductive SlotAnswer where
  /-- the position of the new slot -/
  | acquired (slot : Nat)
  | refused
  | wouldBlock
  | done
  | released (count : Nat)
deriving DecidableEq, Repr

namespace Admission

/-- Notes a slot. -/
def handOut (a : Admission) (id : Nat) (kind : SlotKind) (permit : Permit) (c : SlotController)
    (host : Semaphores) : SlotAnswer × Admission :=
  (.acquired a.slots.length,
    ⟨host, a.controllers.set id c, a.slots ++ [⟨id, kind, permit, true⟩]⟩)

/-- Performs an operation. Positions that do not exist are left alone. -/
def step (a : Admission) : SlotOp → SlotAnswer × Admission
  | .tryAcquire id kind =>
    match a.controllers[id]? with
    | none => (.refused, a)
    | some c =>
      match c.tryAcquire a.host kind with
      | (some permit, c, host) => a.handOut id kind permit c host
      | (none, c, host) => (.refused, { a with host, controllers := a.controllers.set id c })
  | .waitAcquire id kind =>
    match (a.controllers[id]?).bind fun c => c.waitAcquire a.host kind with
    | some (permit, c, host) => a.handOut id kind permit c host
    | none => (.wouldBlock, a)
  | .release slot =>
    match a.slots[slot]? with
    | none => (.done, a)
    | some s =>
      if s.live then
        let slots := a.slots.set slot { s with live := false }
        match a.controllers[s.controller]? with
        | none => (.done, { a with slots })
        | some c =>
          let (c, host) := c.release a.host s.kind s.permit
          (.done, ⟨host, a.controllers.set s.controller c, slots⟩)
      else (.done, a)
  | .releaseAll id =>
    match a.controllers[id]? with
    | none => (.released 0, a)
    | some c =>
      let (n, c, host) := c.releaseAll a.host
      (.released n, { a with host, controllers := a.controllers.set id c })

/-- Performs an operation for someone who must not be held up: a wait is begun only if the report
shows a free unit. -/
def stepByReport (a : Admission) : SlotOp → SlotAnswer × Admission
  | .waitAcquire id kind =>
    if (a.controllers[id]?).any fun c => (c.reportKind a.host kind).showsFree
    then a.step (.waitAcquire id kind)
    else (.wouldBlock, a)
  | op => a.step op

/-- Performs operations one after the other. -/
def run (a : Admission) (ops : List SlotOp) : Admission :=
  ops.foldl (fun a op => (a.step op).2) a

end Admission

end Offload
