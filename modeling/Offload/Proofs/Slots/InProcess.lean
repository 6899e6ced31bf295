import Offload.Proofs.Slots.Check

/-!
# What a step does to the units of one process

A controller over the semaphores of one process conserves its units: those that are free and those
that it holds make up the capacity (`InProcess`). What a step of it can do is listed once
(`Effect`, `does_step`), so that no later proof opens a semaphore again.
-/

namespace Offload

/-! ## Units -/

/-- The semaphores of one process, with so many free units of each kind. -/
def processUnits (limits free : PerKind Nat) : Semaphores :=
  ⟨[⟨free.compile, limits.compile⟩, ⟨free.preprocess, limits.preprocess⟩], []⟩

/-- The source of slots of one process. -/
def processSource (capacities : PerKind Nat) : SlotSource :=
  (SlotSource.inProcess .none capacities).1

section Units

variable {capacities limits free : PerKind Nat} {kind : SlotKind}

@[simp] theorem free_processUnits (limits free : PerKind Nat) (kind : SlotKind) :
    ((processSource capacities).counters.get kind).elim 0 (processUnits limits free).free
      = free.get kind := by
  cases kind <;> rfl

theorem take?_processUnits_of_zero (capacities limits : PerKind Nat) (h : free.get kind = 0) :
    (processSource capacities).take? (processUnits limits free) kind = none := by
  cases kind with
  | compile =>
    change free.compile = 0 at h
    simp [SlotSource.take?, processSource, SlotSource.inProcess, PerKind.get, Semaphores.take?,
      processUnits, Semaphores.create, Semaphores.none, h]
  | preprocess =>
    change free.preprocess = 0 at h
    simp [SlotSource.take?, processSource, SlotSource.inProcess, PerKind.get, Semaphores.take?,
      processUnits, Semaphores.create, Semaphores.none, h]

theorem take?_processUnits_of_pos (capacities limits : PerKind Nat) (h : 0 < free.get kind) :
    (processSource capacities).take? (processUnits limits free) kind
      = some (.counted, processUnits limits (free.modify kind (· - 1))) := by
  have hne : free.get kind ≠ 0 := by omega
  cases kind with
  | compile =>
    change free.compile ≠ 0 at hne
    simp [SlotSource.take?, processSource, SlotSource.inProcess, PerKind.get, Semaphores.take?,
      processUnits, Semaphores.create, Semaphores.none, PerKind.modify, PerKind.set, hne]
  | preprocess =>
    change free.preprocess ≠ 0 at hne
    simp [SlotSource.take?, processSource, SlotSource.inProcess, PerKind.get, Semaphores.take?,
      processUnits, Semaphores.create, Semaphores.none, PerKind.modify, PerKind.set, hne]

/-- Below the limit, a unit that is given back is free. -/
theorem giveBackStrictly_processUnits (capacities : PerKind Nat)
    (h : free.get kind < limits.get kind) :
    (processSource capacities).giveBackStrictly (processUnits limits free) kind
      = .ok (processUnits limits (free.modify kind (· + 1))) := by
  cases kind with
  | compile =>
    change free.compile < limits.compile at h
    have hnot : ¬ limits.compile ≤ free.compile := by omega
    simp [SlotSource.giveBackStrictly, processSource, SlotSource.inProcess, PerKind.get,
      Semaphores.post, processUnits, Semaphores.create, Semaphores.none, PerKind.modify,
      PerKind.set, hnot]
  | preprocess =>
    change free.preprocess < limits.preprocess at h
    have hnot : ¬ limits.preprocess ≤ free.preprocess := by omega
    simp [SlotSource.giveBackStrictly, processSource, SlotSource.inProcess, PerKind.get,
      Semaphores.post, processUnits, Semaphores.create, Semaphores.none, PerKind.modify,
      PerKind.set, hnot]

theorem giveBack_processUnits (capacities : PerKind Nat) (h : free.get kind < limits.get kind) :
    (processSource capacities).giveBack (processUnits limits free) kind
      = processUnits limits (free.modify kind (· + 1)) :=
  SlotSource.giveBack_of_strictly (giveBackStrictly_processUnits capacities h)

theorem modify_modify_add (p : PerKind Nat) (kind : SlotKind) (m n : Nat) :
    (p.modify kind (· + m)).modify kind (· + n) = p.modify kind (· + (m + n)) := by
  ext k
  rw [PerKind.get_modify, PerKind.get_modify, PerKind.get_modify]
  split
  · omega
  · rfl

theorem giveBackManyStrictly_processUnits (capacities : PerKind Nat) (n : Nat)
    (h : free.get kind + n ≤ limits.get kind) :
    (processSource capacities).giveBackManyStrictly (processUnits limits free) kind n
      = .ok (processUnits limits (free.modify kind (· + n))) := by
  induction n generalizing free with
  | zero =>
    have hsame : free.modify kind (· + 0) = free := by
      ext k
      rw [PerKind.get_modify]
      split <;> rfl
    rw [hsame]
    rfl
  | succ n ih =>
    have hmore : (free.modify kind (· + 1)).get kind + n ≤ limits.get kind := by
      rw [PerKind.get_modify, if_pos rfl]
      omega
    have hrest := ih hmore
    rw [modify_modify_add, Nat.add_comm 1 n] at hrest
    rw [SlotSource.giveBackManyStrictly, giveBackStrictly_processUnits capacities (by omega)]
    exact hrest

theorem giveBackMany_processUnits (capacities : PerKind Nat) (n : Nat)
    (h : free.get kind + n ≤ limits.get kind) :
    (processSource capacities).giveBackMany (processUnits limits free) kind n
      = processUnits limits (free.modify kind (· + n)) :=
  SlotSource.giveBackMany_of_strictly (giveBackManyStrictly_processUnits capacities n h)

end Units

/-! ## A controller -/

namespace Admission

/-- A controller over the semaphores of one process, before anything has happened. -/
def inProcess (capacities : PerKind Nat) : Admission :=
  let (source, host) := SlotSource.inProcess .none capacities
  ⟨host, [.ofSource source], []⟩

/-- The free units of a kind. -/
def free (a : Admission) (kind : SlotKind) : Nat :=
  ((a.controllers[0]?).bind fun c => c.source.counters.get kind).elim 0 a.host.free

/-- The units of a kind that the controller holds. -/
def held (a : Admission) (kind : SlotKind) : Nat :=
  (a.controllers[0]?).elim 0 fun c => (c.ledger.get kind).held

/-- The state of the controller of one process. -/
structure InProcess (capacities : PerKind Nat) (a : Admission) : Prop where
  units : ∃ free ledger, a.host = processUnits (SlotSource.atLeastOne capacities) free ∧
    a.controllers = [⟨processSource capacities, ledger⟩] ∧
    ∀ kind, free.get kind + (ledger.get kind).held = (SlotSource.atLeastOne capacities).get kind
  slots : ∀ s ∈ a.slots, s.controller = 0 ∧ s.permit = .counted

theorem inProcess_inProcess (capacities : PerKind Nat) :
    InProcess capacities (inProcess capacities) where
  units := by
    refine ⟨SlotSource.atLeastOne capacities, .const .zero, rfl, rfl, fun kind => ?_⟩
    cases kind <;> rfl
  slots s hs := by simp [inProcess] at hs

variable {capacities : PerKind Nat} {a : Admission}

theorem held_of_controllers {c : SlotController} (h : a.controllers = [c]) (kind : SlotKind) :
    a.held kind = (c.ledger.get kind).held := by
  unfold Admission.held
  rw [h]
  rfl

/-- No unit is lost and none is made. -/
theorem InProcess.free_add_held (h : InProcess capacities a) (kind : SlotKind) :
    a.free kind + a.held kind = (SlotSource.atLeastOne capacities).get kind := by
  obtain ⟨free, ledger, hhost, hcontrollers, hsum⟩ := h.units
  have hfree : a.free kind = free.get kind := by
    unfold Admission.free
    rw [hcontrollers, hhost]
    exact free_processUnits _ free kind
  rw [hfree, held_of_controllers hcontrollers]
  exact hsum kind

/-- What an operation does to the slots and the units. -/
inductive Effect (a after : Admission) : SlotOp → Prop
  | acquired (op : SlotOp) (kind : SlotKind)
    (hop : op = .tryAcquire 0 kind ∨ op = .waitAcquire 0 kind)
    (slots : after.slots = a.slots ++ [⟨0, kind, .counted, true⟩])
    (held : ∀ k, after.held k = if kind = k then a.held k + 1 else a.held k) : Effect a after op
  /-- a unit is given back, whoever holds it -/
  | returned (i : Nat) (s : Slot) (hs : a.slots[i]? = some s) (hlive : s.live = true)
    (hheld : 0 < a.held s.kind) (slots : after.slots = a.slots.set i { s with live := false })
    (held : ∀ k, after.held k = if s.kind = k then a.held k - 1 else a.held k) :
    Effect a after (.release i)
  /-- nothing is held that could be given back -/
  | inert (i : Nat) (s : Slot) (hs : a.slots[i]? = some s) (hlive : s.live = true)
    (hheld : a.held s.kind = 0) (slots : after.slots = a.slots.set i { s with live := false })
    (held : ∀ k, after.held k = a.held k) : Effect a after (.release i)
  | emptied (slots : after.slots = a.slots) (held : ∀ k, after.held k = 0) :
    Effect a after (.releaseAll 0)
  | nothing (op : SlotOp) (hop : op ≠ .releaseAll 0)
    (hgone : ∀ i s, op = .release i → a.slots[i]? = some s → s.live = false)
    (slots : after.slots = a.slots) (held : ∀ k, after.held k = a.held k) : Effect a after op

/-! ## Steps -/

section Steps

variable {free : PerKind Nat} {ledger : PerKind SlotStats} {slots : List Slot}

/-- A controller in a given state. -/
def processState (capacities free : PerKind Nat) (ledger : PerKind SlotStats) (slots : List Slot) :
    Admission :=
  ⟨processUnits (SlotSource.atLeastOne capacities) free, [⟨processSource capacities, ledger⟩], slots⟩

/-- No unit is lost, and every slot is a unit of the first controller. -/
structure Balanced (capacities free : PerKind Nat) (ledger : PerKind SlotStats) (slots : List Slot) :
    Prop where
  sum : ∀ kind, free.get kind + (ledger.get kind).held = (SlotSource.atLeastOne capacities).get kind
  slots : ∀ s ∈ slots, s.controller = 0 ∧ s.permit = .counted

/-- An operation does one of the listed things, and conserves the units. -/
structure Does (capacities : PerKind Nat) (a : Admission) (op : SlotOp) : Prop where
  effect : Effect a (a.step op).2 op
  inProcess : InProcess capacities (a.step op).2

theorem Balanced.inProcess (h : Balanced capacities free ledger slots) :
    InProcess capacities (processState capacities free ledger slots) :=
  ⟨⟨free, ledger, rfl, rfl, h.sum⟩, h.slots⟩

theorem InProcess.eq_processState (h : InProcess capacities a) :
    ∃ free ledger, a = processState capacities free ledger a.slots ∧
      Balanced capacities free ledger a.slots := by
  obtain ⟨free, ledger, hhost, hcontrollers, hsum⟩ := h.units
  refine ⟨free, ledger, ?_, hsum, h.slots⟩
  obtain ⟨host, controllers, slots⟩ := a
  obtain rfl : host = _ := hhost
  obtain rfl : controllers = _ := hcontrollers
  rfl

@[simp] theorem held_processState (kind : SlotKind) :
    (processState capacities free ledger slots).held kind = (ledger.get kind).held := rfl

/-- Taking a unit that is free. -/
theorem Balanced.acquired (h : Balanced capacities free ledger slots)
    (ledger' : PerKind SlotStats) (op : SlotOp) (kind : SlotKind)
    (hop : op = .tryAcquire 0 kind ∨ op = .waitAcquire 0 kind) (hfree : 0 < free.get kind)
    (hledger : ∀ k, (ledger'.get k).held
      = if kind = k then (ledger.get k).held + 1 else (ledger.get k).held)
    (hstep : ((processState capacities free ledger slots).step op).2
      = processState capacities (free.modify kind (· - 1)) ledger'
          (slots ++ [⟨0, kind, .counted, true⟩])) :
    Does capacities (processState capacities free ledger slots) op := by
  have hafter : Balanced capacities (free.modify kind (· - 1)) ledger'
      (slots ++ [⟨0, kind, .counted, true⟩]) := by
    refine ⟨fun k => ?_, fun s hs => ?_⟩
    · rw [PerKind.get_modify, hledger k]
      have hk := h.sum k
      split
      · rename_i heq
        rw [heq] at hfree
        omega
      · exact hk
    · rcases List.mem_append.mp hs with hs | hs
      · exact h.slots s hs
      · rw [List.mem_singleton.mp hs]
        exact ⟨rfl, rfl⟩
  refine ⟨?_, ?_⟩
  · rw [hstep]
    exact .acquired op kind hop rfl hledger
  · rw [hstep]
    exact hafter.inProcess

/-- Leaving the slots and the units alone. -/
theorem Balanced.nothing (h : Balanced capacities free ledger slots) (ledger' : PerKind SlotStats)
    (op : SlotOp) (hop : op ≠ .releaseAll 0)
    (hgone : ∀ i s, op = .release i → slots[i]? = some s → s.live = false)
    (hledger : ∀ k, (ledger'.get k).held = (ledger.get k).held)
    (hstep : ((processState capacities free ledger slots).step op).2
      = processState capacities free ledger' slots) :
    Does capacities (processState capacities free ledger slots) op := by
  have hafter : Balanced capacities free ledger' slots := by
    refine ⟨fun k => ?_, h.slots⟩
    rw [hledger k]
    exact h.sum k
  refine ⟨?_, ?_⟩
  · rw [hstep]
    exact .nothing op hop hgone rfl hledger
  · rw [hstep]
    exact hafter.inProcess

theorem held_modify_try (kind k : SlotKind) :
    ((ledger.modify kind fun s => { s with tried := s.tried + 1 }).get k).held
      = (ledger.get k).held := by
  rw [PerKind.get_modify]
  split <;> rfl

theorem Balanced.tryAcquire (h : Balanced capacities free ledger slots) (kind : SlotKind) :
    Does capacities (processState capacities free ledger slots) (.tryAcquire 0 kind) := by
  by_cases hzero : free.get kind = 0
  · have htake := take?_processUnits_of_zero capacities
      (SlotSource.atLeastOne capacities) hzero
    refine h.nothing _ _ (by simp) (by simp) (held_modify_try kind) ?_
    simp [step, processState, SlotController.tryAcquire, htake]
  · have hpos : 0 < free.get kind := by omega
    have htake := take?_processUnits_of_pos capacities
      (SlotSource.atLeastOne capacities) hpos
    refine h.acquired
      ((ledger.modify kind fun s => { s with tried := s.tried + 1 }).modify kind (·.hold .counted))
      _ kind (.inl rfl) hpos (fun k => ?_) ?_
    · rw [PerKind.get_modify]
      split
      · exact congrArg (· + 1) (held_modify_try kind k)
      · exact held_modify_try kind k
    · simp [step, processState, SlotController.tryAcquire, htake, handOut]

theorem Balanced.waitAcquire (h : Balanced capacities free ledger slots) (kind : SlotKind) :
    Does capacities (processState capacities free ledger slots) (.waitAcquire 0 kind) := by
  by_cases hzero : free.get kind = 0
  · have htake := take?_processUnits_of_zero capacities
      (SlotSource.atLeastOne capacities) hzero
    refine h.nothing ledger _ (by simp) (by simp) (fun _ => rfl) ?_
    simp [step, processState, SlotController.waitAcquire, htake]
  · have hpos : 0 < free.get kind := by omega
    have htake := take?_processUnits_of_pos capacities
      (SlotSource.atLeastOne capacities) hpos
    refine h.acquired
      (ledger.modify kind fun s => { s with waited := s.waited + 1 }.hold .counted)
      _ kind (.inr rfl) hpos (fun k => ?_) ?_
    · rw [PerKind.get_modify]
      split <;> rfl
    · simp [step, processState, SlotController.waitAcquire, htake, handOut]

/-- Giving back a live slot while a unit of its kind is held. -/
theorem Balanced.returned (h : Balanced capacities free ledger slots) {i : Nat} {s : Slot}
    (hs : slots[i]? = some s) (hlive : s.live = true) (hheld : 0 < (ledger.get s.kind).held)
    (hkept : ∀ t ∈ slots.set i { s with live := false }, t.controller = 0 ∧ t.permit = .counted) :
    Does capacities (processState capacities free ledger slots) (.release i) := by
  obtain ⟨hcontroller, hpermit⟩ := h.slots s (List.mem_of_getElem? hs)
  have hne : (ledger.get s.kind).held ≠ 0 := by omega
  have hback : free.get s.kind < (SlotSource.atLeastOne capacities).get s.kind := by
    have hkind := h.sum s.kind
    omega
  have hgive := giveBack_processUnits capacities hback
  let fewer := ledger.modify s.kind fun stats => { stats with held := stats.held - 1 }
  have hstep : ((processState capacities free ledger slots).step (.release i)).2
      = processState capacities (free.modify s.kind (· + 1)) fewer
          (slots.set i { s with live := false }) := by
    simp [step, processState, hs, hlive, hcontroller, SlotController.release, hne, hpermit, hgive,
      fewer]
  have hfewer : ∀ k, (fewer.get k).held
      = if s.kind = k then (ledger.get k).held - 1 else (ledger.get k).held := by
    intro k
    rw [PerKind.get_modify]
    split <;> rfl
  have hafter : Balanced capacities (free.modify s.kind (· + 1)) fewer
      (slots.set i { s with live := false }) := by
    refine ⟨fun k => ?_, hkept⟩
    have hk := h.sum k
    rw [PerKind.get_modify, hfewer k]
    split
    · rename_i heq
      rw [heq] at hheld
      omega
    · exact hk
  refine ⟨?_, ?_⟩
  · rw [hstep]
    exact .returned i s hs hlive hheld rfl hfewer
  · rw [hstep]
    exact hafter.inProcess

theorem Balanced.release (h : Balanced capacities free ledger slots) (i : Nat) :
    Does capacities (processState capacities free ledger slots) (.release i) := by
  have hgone (hnone : ∀ s, slots[i]? = some s → s.live = false) :
      ∀ j s, SlotOp.release i = .release j → slots[j]? = some s → s.live = false := by
    intro j s hj hs
    obtain rfl := SlotOp.release.inj hj
    exact hnone s hs
  cases hs : slots[i]? with
  | none =>
    refine h.nothing ledger _ (by simp) (hgone (by simp [hs])) (fun _ => rfl) ?_
    simp [step, processState, hs]
  | some s =>
    obtain ⟨hcontroller, hpermit⟩ := h.slots s (List.mem_of_getElem? hs)
    cases hlive : s.live with
    | false =>
      refine h.nothing ledger _ (by simp) (hgone (by simp [hs, hlive])) (fun _ => rfl) ?_
      simp [step, processState, hs, hlive]
    | true =>
      have hkept : ∀ t ∈ slots.set i { s with live := false },
          t.controller = 0 ∧ t.permit = .counted := by
        intro t ht
        rcases List.mem_or_eq_of_mem_set ht with ht | rfl
        · exact h.slots t ht
        · exact ⟨hcontroller, hpermit⟩
      -- the ledger keeps a number only: what is given back may be held for another slot
      by_cases hzero : (ledger.get s.kind).held = 0
      · have hstep : ((processState capacities free ledger slots).step (.release i)).2
            = processState capacities free ledger (slots.set i { s with live := false }) := by
          simp [step, processState, hs, hlive, hcontroller, SlotController.release, hzero]
        have hafter : Balanced capacities free ledger (slots.set i { s with live := false }) :=
          ⟨h.sum, hkept⟩
        refine ⟨?_, ?_⟩
        · rw [hstep]
          exact .inert i s hs hlive hzero rfl fun _ => rfl
        · rw [hstep]
          exact hafter.inProcess
      · exact h.returned hs hlive (Nat.pos_of_ne_zero hzero) hkept

/-- Giving back all units of a kind keeps the balance. -/
theorem Balanced.releaseKind (h : Balanced capacities free ledger slots) (kind : SlotKind) :
    ∃ free' ledger',
      SlotController.releaseKind ⟨processSource capacities, ledger⟩
          (processUnits (SlotSource.atLeastOne capacities) free) kind
        = (⟨processSource capacities, ledger'⟩,
            processUnits (SlotSource.atLeastOne capacities) free') ∧
      (∀ k, (ledger'.get k).held = if kind = k then 0 else (ledger.get k).held) ∧
      Balanced capacities free' ledger' slots := by
  have hledger : ∀ k, ((ledger.modify kind fun s => { s with held := 0 }).get k).held
      = if kind = k then 0 else (ledger.get k).held := by
    intro k
    rw [PerKind.get_modify]
    split <;> rfl
  refine ⟨free.modify kind (· + (ledger.get kind).held),
    ledger.modify kind fun s => { s with held := 0 }, ?_, hledger, fun k => ?_, h.slots⟩
  · have hmany := giveBackMany_processUnits capacities (ledger.get kind).held
      (Nat.le_of_eq (h.sum kind))
    rw [SlotController.releaseKind, hmany]
  · rw [PerKind.get_modify, hledger k]
    have hk := h.sum k
    split
    · rename_i heq
      rw [heq, Nat.add_zero]
      exact hk
    · exact hk

theorem Balanced.releaseAll (h : Balanced capacities free ledger slots) :
    Does capacities (processState capacities free ledger slots) (.releaseAll 0) := by
  obtain ⟨free₁, ledger₁, hfirst, hheld₁, h₁⟩ := h.releaseKind .compile
  obtain ⟨free₂, ledger₂, hsecond, hheld₂, h₂⟩ := h₁.releaseKind .preprocess
  have hstep : ((processState capacities free ledger slots).step (.releaseAll 0)).2
      = processState capacities free₂ ledger₂ slots := by
    simp [step, processState, SlotController.releaseAll, SlotKind.all, hfirst, hsecond]
  refine ⟨?_, ?_⟩
  · rw [hstep]
    refine .emptied rfl fun k => ?_
    rw [held_processState, hheld₂ k]
    cases k with
    | compile => exact hheld₁ .compile
    | preprocess => rfl
  · rw [hstep]
    exact h₂.inProcess

/-- Every operation does one of the listed things. -/
theorem does_step (h : InProcess capacities a) (op : SlotOp) : Does capacities a op := by
  obtain ⟨free, ledger, ha, hbalanced⟩ := h.eq_processState
  -- a position other than the first has no controller
  have hother (op : SlotOp) (hop : op ≠ .releaseAll 0) (hrelease : ∀ i, op ≠ .release i)
      (hstep : ((processState capacities free ledger a.slots).step op).2
        = processState capacities free ledger a.slots) :=
    hbalanced.nothing ledger op hop (fun i s hi => (hrelease i hi).elim) (fun _ => rfl) hstep
  rw [ha]
  cases op with
  | tryAcquire id kind =>
    cases id with
    | zero => exact hbalanced.tryAcquire kind
    | succ id => exact hother _ (by simp) (by simp) rfl
  | waitAcquire id kind =>
    cases id with
    | zero => exact hbalanced.waitAcquire kind
    | succ id => exact hother _ (by simp) (by simp) rfl
  | release i => exact hbalanced.release i
  | releaseAll id =>
    cases id with
    | zero => exact hbalanced.releaseAll
    | succ id => exact hother _ (by simp) (by simp) rfl

end Steps

end Admission

end Offload
