import Offload.Proofs.Slots.Sharing

/-!
# Conservation of units

However many controllers share the semaphores of one process, and whatever they do, no unit is lost
and none is made. A slot that was given back stays so, and a kind that is not counted is never short.
Main statement: `Admission.units_conserved`.
-/

namespace Offload

namespace Admission

variable {a : Admission}

/-! ## Slots that are gone -/

/-- A slot that has nothing to give back any more. -/
def Gone (a : Admission) (i : Nat) : Prop := ∃ s, a.slots[i]? = some s ∧ s.live = false

/-- What an operation does to the slots. -/
theorem slots_step (a : Admission) (op : SlotOp) :
    (a.step op).2.slots = a.slots ∨ (∃ new, (a.step op).2.slots = a.slots ++ [new]) ∨
      ∃ i s, a.slots[i]? = some s ∧
        (a.step op).2.slots = a.slots.set i { s with live := false } := by
  cases op with
  | tryAcquire id kind =>
    unfold step
    dsimp only
    split
    · exact .inl rfl
    · split
      · exact .inr (.inl ⟨_, rfl⟩)
      · exact .inl rfl
  | waitAcquire id kind =>
    unfold step
    dsimp only
    split
    · exact .inr (.inl ⟨_, rfl⟩)
    · exact .inl rfl
  | release i =>
    unfold step
    dsimp only
    split
    · exact .inl rfl
    · rename_i s hs
      split
      · split
        · exact .inr (.inr ⟨i, s, hs, rfl⟩)
        · exact .inr (.inr ⟨i, s, hs, rfl⟩)
      · exact .inl rfl
  | releaseAll id =>
    unfold step
    dsimp only
    split <;> exact .inl rfl

theorem Gone.step {i : Nat} (h : a.Gone i) (op : SlotOp) : (a.step op).2.Gone i := by
  obtain ⟨s, hs, hlive⟩ := h
  obtain ⟨hi, -⟩ := List.getElem?_eq_some_iff.1 hs
  obtain hsame | ⟨new, hnew⟩ | ⟨j, t, ht, hset⟩ := slots_step a op
  · exact ⟨s, hsame ▸ hs, hlive⟩
  · refine ⟨s, ?_, hlive⟩
    rw [hnew, List.getElem?_append_left hi]
    exact hs
  · rw [Gone, hset, List.getElem?_set]
    split
    · rename_i heq
      subst heq
      exact ⟨{ t with live := false }, by rw [if_pos hi], rfl⟩
    · exact ⟨s, hs, hlive⟩

theorem Gone.run {i : Nat} (h : a.Gone i) (ops : List SlotOp) : (a.run ops).Gone i := by
  induction ops generalizing a with
  | nil => exact h
  | cons op rest ih => exact ih (h.step op)

theorem gone_release {i : Nat} (hi : i < a.slots.length) : (a.step (.release i)).2.Gone i := by
  have hs := List.getElem?_eq_getElem hi
  cases hlive : a.slots[i].live with
  | false =>
    have h : a.Gone i := ⟨_, hs, hlive⟩
    exact h.step _
  | true =>
    refine ⟨{ a.slots[i] with live := false }, ?_, rfl⟩
    cases hc : a.controllers[a.slots[i].controller]? <;>
      simp [Admission.step, hlive, hc, hi]

theorem Gone.release {i : Nat} (h : a.Gone i) : a.step (.release i) = (.done, a) := by
  obtain ⟨s, hs, hlive⟩ := h
  simp [Admission.step, hs, hlive]

end Admission

/-! ## Kinds without a limit -/

theorem SlotSource.take?_of_unlimited {source : SlotSource} {kind : SlotKind}
    (hkind : source.counters.get kind = none) (host : Semaphores) :
    source.take? host kind = some (.uncounted, host) := by
  rw [SlotSource.take?, hkind]

/-- A controller of a source that does not count a kind. -/
structure SlotController.Unlimited (source : SlotSource) (kind : SlotKind) (c : SlotController) :
    Prop where
  source : c.source = source
  held : (c.ledger.get kind).held = 0

namespace SlotController.Unlimited

variable {source : SlotSource} {kind : SlotKind} {c : SlotController}

theorem modify (h : c.Unlimited source kind) (about : SlotKind) (g : SlotStats → SlotStats)
    (hg : about = kind → (g (c.ledger.get kind)).held = 0) :
    SlotController.Unlimited source kind { c with ledger := c.ledger.modify about g } := by
  refine ⟨h.source, ?_⟩
  rw [PerKind.get_modify]
  split
  · rename_i heq
    exact hg heq
  · exact h.held

/-- What is taken of the kind is not counted. -/
theorem held_hold (hkind : source.counters.get kind = none) {about : SlotKind}
    {host host' : Semaphores} {permit : Permit}
    (htake : source.take? host about = some (permit, host')) (heq : about = kind)
    (stats : SlotStats) : (stats.hold permit).held = stats.held := by
  subst heq
  rw [SlotSource.take?_of_unlimited hkind] at htake
  obtain ⟨rfl, rfl⟩ := Prod.mk.inj (Option.some.inj htake)
  rfl

theorem tryAcquire (h : c.Unlimited source kind) (hkind : source.counters.get kind = none)
    (host : Semaphores) (about : SlotKind) :
    (c.tryAcquire host about).2.1.Unlimited source kind := by
  obtain ⟨rfl, hheld⟩ := h
  have htried := modify ⟨rfl, hheld⟩ about (fun s => { s with tried := s.tried + 1 }) fun _ => hheld
  unfold SlotController.tryAcquire
  cases htake : c.source.take? host about with
  | none => exact htried
  | some taken =>
    refine htried.modify about (·.hold taken.1) fun heq => ?_
    rw [held_hold hkind htake heq]
    exact htried.held

theorem waitAcquire (h : c.Unlimited source kind) (hkind : source.counters.get kind = none)
    {host : Semaphores} {about : SlotKind} {answer : Permit × SlotController × Semaphores}
    (hwait : c.waitAcquire host about = some answer) : answer.2.1.Unlimited source kind := by
  obtain ⟨rfl, hheld⟩ := h
  obtain ⟨taken, htake, rfl⟩ := Option.map_eq_some_iff.1 hwait
  refine modify ⟨rfl, hheld⟩ about (fun s => { s with waited := s.waited + 1 }.hold taken.1)
    fun heq => ?_
  rw [held_hold hkind htake heq]
  exact hheld

theorem release (h : c.Unlimited source kind) (host : Semaphores) (about : SlotKind)
    (permit : Permit) : (c.release host about permit).1.Unlimited source kind := by
  unfold SlotController.release
  split
  · refine h.modify about (fun s => { s with held := s.held - 1 }) fun _ => ?_
    show (c.ledger.get kind).held - 1 = 0
    rw [h.held]
  · exact h

theorem releaseKind (h : c.Unlimited source kind) (host : Semaphores) (about : SlotKind) :
    (c.releaseKind host about).1.Unlimited source kind :=
  h.modify about (fun s => { s with held := 0 }) fun _ => rfl

end SlotController.Unlimited

namespace Admission

variable {capacities : PerKind Nat} {source : SlotSource} {kind : SlotKind} {n id : Nat}
  {a : Admission} {c : SlotController}

/-- Controllers of a source that does not count a kind. -/
structure Unlimited (source : SlotSource) (kind : SlotKind) (n : Nat) (a : Admission) : Prop where
  count : a.controllers.length = n
  controllers : ∀ c ∈ a.controllers, c.Unlimited source kind

namespace Unlimited

theorem set (h : a.Unlimited source kind n) (hc : c.Unlimited source kind) (id : Nat)
    (host : Semaphores) (slots : List Slot) :
    Unlimited source kind n ⟨host, a.controllers.set id c, slots⟩ where
  count := by rw [List.length_set, h.count]
  controllers d hd := by
    rcases List.mem_or_eq_of_mem_set hd with hd | rfl
    · exact h.controllers d hd
    · exact hc

theorem step (h : a.Unlimited source kind n) (hkind : source.counters.get kind = none)
    (op : SlotOp) : (a.step op).2.Unlimited source kind n := by
  cases op with
  | tryAcquire id about =>
    cases hc : a.controllers[id]? with
    | none => simpa only [Admission.step, hc] using h
    | some c =>
      have hafter := (h.controllers c (List.mem_of_getElem? hc)).tryAcquire hkind a.host about
      rcases htry : c.tryAcquire a.host about with ⟨_ | permit, c', host⟩
      · rw [htry] at hafter
        simp only [Admission.step, hc, htry]
        exact h.set hafter id _ _
      · rw [htry] at hafter
        simp only [Admission.step, hc, htry]
        exact h.set hafter id _ _
  | waitAcquire id about =>
    cases hc : a.controllers[id]? with
    | none => simpa only [Admission.step, hc, Option.bind_none] using h
    | some c =>
      cases hwait : c.waitAcquire a.host about with
      | none => simpa only [Admission.step, hc, Option.bind_some, hwait] using h
      | some answer =>
        have hafter := (h.controllers c (List.mem_of_getElem? hc)).waitAcquire hkind hwait
        simp only [Admission.step, hc, Option.bind_some, hwait]
        exact h.set hafter id _ _
  | release i =>
    cases hs : a.slots[i]? with
    | none => simpa only [Admission.step, hs] using h
    | some s =>
      cases hlive : s.live with
      | false => simpa [Admission.step, hs, hlive] using h
      | true =>
        cases hc : a.controllers[s.controller]? with
        | none =>
          simp only [Admission.step, hs, hlive, hc]
          exact ⟨h.count, h.controllers⟩
        | some c =>
          simp only [Admission.step, hs, hlive, hc]
          have hunlimited := h.controllers c (List.mem_of_getElem? hc)
          exact h.set (hunlimited.release a.host s.kind s.permit) s.controller _ _
  | releaseAll id =>
    cases hc : a.controllers[id]? with
    | none => simpa only [Admission.step, hc] using h
    | some c =>
      have hunlimited := h.controllers c (List.mem_of_getElem? hc)
      simp only [Admission.step, hc]
      exact h.set ((hunlimited.releaseKind a.host .compile).releaseKind _ .preprocess) id _ _

theorem run (h : a.Unlimited source kind n) (hkind : source.counters.get kind = none)
    (ops : List SlotOp) : (a.run ops).Unlimited source kind n := by
  induction ops generalizing a with
  | nil => exact h
  | cons op rest ih => exact ih (h.step hkind op)

theorem acquired (h : a.Unlimited source kind n) (hkind : source.counters.get kind = none)
    (hid : id < n) :
    (a.step (.tryAcquire id kind)).1 = .acquired a.slots.length ∧
      (a.step (.waitAcquire id kind)).1 = .acquired a.slots.length := by
  have hc := List.getElem?_eq_getElem (h.count.symm ▸ hid)
  have hunlimited := h.controllers _ (List.mem_of_getElem? hc)
  have htake := SlotSource.take?_of_unlimited hkind a.host
  refine ⟨?_, ?_⟩
  · simp only [Admission.step, hc, SlotController.tryAcquire, hunlimited.source, htake, handOut]
  · simp only [Admission.step, hc, Option.bind_some, SlotController.waitAcquire,
      hunlimited.source, htake, Option.map_some, handOut]

/-- Giving back a slot of the kind does nothing to the semaphores. -/
theorem host_release (h : a.Unlimited source kind n) {i : Nat} {s : Slot}
    (hs : a.slots[i]? = some s) (hkind : s.kind = kind) : (a.step (.release i)).2.host = a.host := by
  cases hlive : s.live with
  | false => simp [Admission.step, hs, hlive]
  | true =>
    cases hc : a.controllers[s.controller]? with
    | none => simp only [Admission.step, hs, hlive, hc]; rfl
    | some c =>
      have hheld := (h.controllers c (List.mem_of_getElem? hc)).held
      have hrelease : c.release a.host s.kind s.permit = (c, a.host) := by
        rw [SlotController.release, if_neg fun hgives => hgives.2 (hkind ▸ hheld)]
      simp only [Admission.step, hs, hlive, hc, hrelease]
      rfl

end Unlimited

theorem unlimited_sharing (source : SlotSource) (host : Semaphores) (kind : SlotKind) (n : Nat) :
    (sharing source host n).Unlimited source kind n where
  count := List.length_replicate
  controllers c hc := by
    rw [List.eq_of_mem_replicate hc]
    refine ⟨rfl, ?_⟩
    cases kind <;> rfl

/-! ## Conservation -/

/-- After any sequence of operations on any number of controllers that share the semaphores of one
process, the free units of each kind and those that all controllers hold make up its capacity. No
operation gives a unit back when all are free. An attempt that does not wait is refused exactly if
the units that are held make up the capacity, a slot that was given back has nothing to give back
ever after, and an operation on one kind changes nothing of the other. If the source does not count
a kind, all attempts to have a slot of it succeed, no unit of it is ever held, and giving a slot of
it back does nothing to the semaphores. -/
theorem units_conserved (capacities : PerKind Nat) (n : Nat) (ops : List SlotOp) :
    let a := (sharedInProcess capacities n).run ops
    let capacity := SlotSource.atLeastOne capacities
    (∀ kind, (processSource capacities).free a.host kind + a.heldByAll kind = capacity.get kind) ∧
    (∀ op, a.stepStrictly op = .ok (a.step op)) ∧
    (∀ id kind, id < n → ((a.step (.tryAcquire id kind)).1 = .refused ↔
      a.heldByAll kind = capacity.get kind)) ∧
    (∀ i later, i < a.slots.length →
      let b := (a.step (.release i)).2.run later
      b.step (.release i) = (.done, b)) ∧
    (∀ op kind other, a.kindOf op = some kind → kind ≠ other →
      (a.step op).2.part (processSource capacities) other
        = a.part (processSource capacities) other) ∧
    ∀ source host kind, source.counters.get kind = none →
      let b := (sharing source host n).run ops
      (∀ id, id < n → (b.step (.tryAcquire id kind)).1 = .acquired b.slots.length ∧
        (b.step (.waitAcquire id kind)).1 = .acquired b.slots.length) ∧
      (∀ c ∈ b.controllers, (c.ledger.get kind).held = 0) ∧
      ∀ i s, b.slots[i]? = some s → s.kind = kind → (b.step (.release i)).2.host = b.host := by
  obtain ⟨free, hshared⟩ := shared_run capacities n ops
  refine ⟨fun kind => ?_, fun op => (hshared.conserves op).1,
    fun id kind hid => hshared.refused_iff hid kind, fun i later hi => ?_,
    fun op kind other hkind hother => (hshared.conserves op).2.2 kind hkind other hother, ?_⟩
  · have hfree : (processSource capacities).free
        (processUnits (SlotSource.atLeastOne capacities) free) kind = free.get kind :=
      free_processUnits _ free kind
    rw [hshared.host, hfree]
    exact hshared.sum kind
  · exact ((gone_release hi).run later).release
  · intro source host kind hkind
    have hunlimited := (unlimited_sharing source host kind n).run hkind ops
    exact ⟨fun id hid => hunlimited.acquired hkind hid,
      fun c hc => (hunlimited.controllers c hc).held,
      fun i s hs hslot => hunlimited.host_release hs hslot⟩

/-- Two controllers and one unit to compile with, and two controllers without a limit. -/
theorem units_conserved_pair :
    let ops : List SlotOp := [.tryAcquire 0 .compile, .waitAcquire 1 .preprocess]
    let a := (sharedInProcess ⟨1, 2⟩ 2).run ops
    let b := (a.step (.release 0)).2.run [.tryAcquire 1 .compile]
    let unlimited : SlotSource := ⟨⟨1, 2⟩, ⟨"", ""⟩, ⟨none, none⟩⟩
    (a.step (.tryAcquire 1 .compile)).1 = .refused ∧
      b.heldByAll .compile = 1 ∧ b.step (.release 0) = (.done, b) ∧
      (a.step (.release 1)).2.part (processSource ⟨1, 2⟩) .compile
        = a.part (processSource ⟨1, 2⟩) .compile ∧
      (((sharing unlimited .none 2).run ops).step (.tryAcquire 1 .compile)).1 = .acquired 2 := by
  intro ops a b unlimited
  obtain ⟨-, -, hrefused, hgone, hother, hunlimited⟩ := units_conserved ⟨1, 2⟩ 2 ops
  exact ⟨(hrefused 1 .compile (by decide)).2 (by decide +kernel), by decide +kernel,
    hgone 0 [.tryAcquire 1 .compile] (by decide +kernel),
    hother (.release 1) .preprocess .compile (by decide +kernel) (by decide),
    ((hunlimited unlimited .none .compile rfl).1 1 (by decide)).1⟩

end Admission

end Offload
