import Offload.Slots

/-!
# Giving back with a check

A unit that is given back when all units are free is ignored. Here the same operations report it as
an error instead. As long as there is none, they do the same (`Admission.step_of_strictly`).
-/

namespace Offload

/-- Both parts of a computation that succeeds have succeeded. -/
theorem ok_of_bind {ε α β : Type} {x : Except ε α} {f : α → Except ε β} {b : β}
    (h : x >>= f = .ok b) : ∃ a, x = .ok a ∧ f a = .ok b := by
  cases x with
  | error e => cases h
  | ok a => exact ⟨a, rfl, h⟩

/-! ## Sources -/

namespace SlotSource

variable {source : SlotSource} {host after : Semaphores} {kind : SlotKind}

/-- Gives a counted unit back. It is an error if all units are free. -/
def giveBackStrictly (source : SlotSource) (host : Semaphores) (kind : SlotKind) :
    Except SystemError Semaphores :=
  match source.counters.get kind with
  | none => .ok host
  | some id => host.post id

/-- Gives several counted units back. It is an error if there are not as many that are not free. -/
def giveBackManyStrictly (source : SlotSource) (host : Semaphores) (kind : SlotKind) :
    Nat → Except SystemError Semaphores
  | 0 => .ok host
  | n + 1 => do source.giveBackManyStrictly (← source.giveBackStrictly host kind) kind n

theorem giveBack_of_strictly (h : source.giveBackStrictly host kind = .ok after) :
    source.giveBack host kind = after := by
  unfold giveBackStrictly at h
  unfold giveBack
  cases hcounter : source.counters.get kind with
  | none =>
    rw [hcounter] at h
    exact Except.ok.inj h
  | some id =>
    rw [hcounter] at h
    have hpost : host.post id = .ok after := h
    show (host.post id).toOption.getD host = after
    rw [hpost]
    rfl

theorem giveBackMany_of_strictly {n : Nat}
    (h : source.giveBackManyStrictly host kind n = .ok after) :
    source.giveBackMany host kind n = after := by
  induction n generalizing host with
  | zero => exact Except.ok.inj h
  | succ n ih =>
    obtain ⟨next, hfirst, hrest⟩ := ok_of_bind h
    rw [giveBackMany, giveBack_of_strictly hfirst]
    exact ih hrest

end SlotSource

/-! ## Controllers -/

namespace SlotController

variable {c after : SlotController} {host host' : Semaphores} {kind : SlotKind}

/-- Gives the unit of a slot back, with a check. -/
def releaseStrictly (c : SlotController) (host : Semaphores) (kind : SlotKind) (permit : Permit) :
    Except SystemError (SlotController × Semaphores) :=
  if permit = .counted ∧ (c.ledger.get kind).held ≠ 0 then do
    let host ← c.source.giveBackStrictly host kind
    return ({ c with ledger := c.ledger.modify kind fun s => { s with held := s.held - 1 } }, host)
  else .ok (c, host)

/-- Gives back all units of one kind that the controller holds, with a check. -/
def releaseKindStrictly (c : SlotController) (host : Semaphores) (kind : SlotKind) :
    Except SystemError (SlotController × Semaphores) := do
  let host ← c.source.giveBackManyStrictly host kind (c.ledger.get kind).held
  return ({ c with ledger := c.ledger.modify kind fun s => { s with held := 0 } }, host)

/-- Gives back all units that the controller holds, with a check. -/
def releaseAllStrictly (c : SlotController) (host : Semaphores) :
    Except SystemError (Nat × SlotController × Semaphores) := do
  let first ← c.releaseKindStrictly host .compile
  let second ← first.1.releaseKindStrictly first.2 .preprocess
  return (c.heldInAll, second)

theorem release_of_strictly {permit : Permit} {answer : SlotController × Semaphores}
    (h : c.releaseStrictly host kind permit = .ok answer) :
    c.release host kind permit = answer := by
  unfold releaseStrictly at h
  unfold release
  split at h
  · rename_i hgives
    obtain ⟨next, hback, hanswer⟩ := ok_of_bind h
    rw [if_pos hgives, SlotSource.giveBack_of_strictly hback]
    exact Except.ok.inj hanswer
  · rename_i hkeeps
    rw [if_neg hkeeps]
    exact Except.ok.inj h

theorem releaseKind_of_strictly {answer : SlotController × Semaphores}
    (h : c.releaseKindStrictly host kind = .ok answer) : c.releaseKind host kind = answer := by
  obtain ⟨next, hback, hanswer⟩ := ok_of_bind h
  rw [releaseKind, SlotSource.giveBackMany_of_strictly hback]
  exact Except.ok.inj hanswer

theorem releaseAll_of_strictly {answer : Nat × SlotController × Semaphores}
    (h : c.releaseAllStrictly host = .ok answer) : c.releaseAll host = answer := by
  obtain ⟨first, hcompile, hrest⟩ := ok_of_bind h
  obtain ⟨second, hpreprocess, hanswer⟩ := ok_of_bind hrest
  have hall : c.releaseAll host = (c.heldInAll, releaseKind (c.releaseKind host .compile).1
      (c.releaseKind host .compile).2 .preprocess) := rfl
  rw [hall, releaseKind_of_strictly hcompile, releaseKind_of_strictly hpreprocess]
  exact Except.ok.inj hanswer

/-- Everything is given back one kind after the other. -/
theorem releaseAllStrictly_of_kinds {c₁ c₂ : SlotController} {host₁ host₂ : Semaphores}
    (hcompile : c.releaseKindStrictly host .compile = .ok (c₁, host₁))
    (hpreprocess : c₁.releaseKindStrictly host₁ .preprocess = .ok (c₂, host₂)) :
    c.releaseAllStrictly host = .ok (c.heldInAll, c₂, host₂) := by
  rw [releaseAllStrictly, hcompile]
  show (c₁.releaseKindStrictly host₁ .preprocess >>= fun second => .ok (c.heldInAll, second)) = _
  rw [hpreprocess]
  rfl

end SlotController

/-! ## Runs -/

namespace Admission

/-- Performs an operation, and checks what is given back. -/
def stepStrictly (a : Admission) : SlotOp → Except SystemError (SlotAnswer × Admission)
  | .release slot =>
    match a.slots[slot]? with
    | none => .ok (.done, a)
    | some s =>
      if s.live then
        let slots := a.slots.set slot { s with live := false }
        match a.controllers[s.controller]? with
        | none => .ok (.done, { a with slots })
        | some c => do
          let (c, host) ← c.releaseStrictly a.host s.kind s.permit
          return (.done, ⟨host, a.controllers.set s.controller c, slots⟩)
      else .ok (.done, a)
  | .releaseAll id =>
    match a.controllers[id]? with
    | none => .ok (.released 0, a)
    | some c => do
      let (n, c, host) ← c.releaseAllStrictly a.host
      return (.released n, { a with host, controllers := a.controllers.set id c })
  | op => .ok (a.step op)

/-- An operation that passes the check does what it does without. -/
theorem step_of_strictly {a : Admission} {op : SlotOp} {answer : SlotAnswer × Admission}
    (h : a.stepStrictly op = .ok answer) : a.step op = answer := by
  cases op with
  | tryAcquire id kind => exact Except.ok.inj h
  | waitAcquire id kind => exact Except.ok.inj h
  | release slot =>
    cases hs : a.slots[slot]? with
    | none =>
      simp only [stepStrictly, step, hs] at h ⊢
      exact Except.ok.inj h
    | some s =>
      cases hlive : s.live with
      | false =>
        simp only [stepStrictly, step, hs, hlive] at h ⊢
        exact Except.ok.inj h
      | true =>
        cases hc : a.controllers[s.controller]? with
        | none =>
          simp only [stepStrictly, step, hs, hlive, hc] at h ⊢
          exact Except.ok.inj h
        | some c =>
          simp only [stepStrictly, step, hs, hlive, hc] at h ⊢
          obtain ⟨released, hreleased, hanswer⟩ := ok_of_bind h
          rw [SlotController.release_of_strictly hreleased]
          exact Except.ok.inj hanswer
  | releaseAll id =>
    cases hc : a.controllers[id]? with
    | none =>
      simp only [stepStrictly, step, hc] at h ⊢
      exact Except.ok.inj h
    | some c =>
      simp only [stepStrictly, step, hc] at h ⊢
      obtain ⟨released, hreleased, hanswer⟩ := ok_of_bind h
      rw [SlotController.releaseAll_of_strictly hreleased]
      exact Except.ok.inj hanswer

/-- A controller that holds a unit although all are free does not pass. -/
example : stepStrictly ⟨⟨[⟨1, 1⟩], []⟩,
    [⟨⟨⟨1, 1⟩, ⟨"", ""⟩, ⟨some 0, none⟩⟩, ⟨⟨1, 0, 0⟩, ⟨0, 0, 0⟩⟩⟩],
    [⟨0, .compile, .counted, true⟩]⟩ (.release 0) = .error .overflow := rfl

end Admission

end Offload
