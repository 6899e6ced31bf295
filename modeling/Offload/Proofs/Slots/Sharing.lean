import Offload.Proofs.Slots.InProcess
import Mathlib.Algebra.GroupWithZero.Nat

/-!
# Units that several controllers share

Any number of controllers can share the semaphores of one process. Whatever one of them does moves
units of one kind between those that are free and those that it holds (`Deal`), or does this for
each kind in turn. So the free units and those that all controllers hold make up the capacity
(`Shared`), and every operation keeps this and gives no unit back when all are free
(`Shared.conserves`).
-/

namespace Offload

/-! ## One controller -/

/-- What a controller does to one kind. The units of the kind that are free and those that it holds
stay the same together, and nothing happens to the other kind. -/
structure Deal (kind : SlotKind) (free free' : PerKind Nat) (c c' : SlotController) : Prop where
  source : c'.source = c.source
  units : free'.get kind + (c'.ledger.get kind).held = free.get kind + (c.ledger.get kind).held
  others : ∀ k, kind ≠ k → free'.get k = free.get k ∧ c'.ledger.get k = c.ledger.get k

namespace Deal

variable {kind : SlotKind} {free free₁ free₂ : PerKind Nat} {c c₁ c₂ : SlotController}

theorem trans (h : Deal kind free free₁ c c₁) (h' : Deal kind free₁ free₂ c₁ c₂) :
    Deal kind free free₂ c c₂ where
  source := h'.source.trans h.source
  units := h'.units.trans h.units
  others k hk :=
    ⟨(h'.others k hk).1.trans (h.others k hk).1, (h'.others k hk).2.trans (h.others k hk).2⟩

theorem modify (f : Nat → Nat) (g : SlotStats → SlotStats)
    (h : f (free.get kind) + (g (c.ledger.get kind)).held
      = free.get kind + (c.ledger.get kind).held) :
    Deal kind free (free.modify kind f) c { c with ledger := c.ledger.modify kind g } where
  source := rfl
  units := by
    rw [PerKind.get_modify, PerKind.get_modify, if_pos rfl, if_pos rfl]
    exact h
  others k hk := by
    rw [PerKind.get_modify, PerKind.get_modify, if_neg hk, if_neg hk]
    exact ⟨rfl, rfl⟩

/-- A note in the ledger moves no unit. -/
theorem note (g : SlotStats → SlotStats) (h : ∀ stats, (g stats).held = stats.held) :
    Deal kind free free c { c with ledger := c.ledger.modify kind g } where
  source := rfl
  units := by
    rw [PerKind.get_modify, if_pos rfl, h]
  others k hk := by
    rw [PerKind.get_modify, if_neg hk]
    exact ⟨rfl, rfl⟩

end Deal

namespace SlotController

variable {capacities limits free : PerKind Nat} {c : SlotController}

/-- A unit is had exactly if one is free. -/
theorem tryAcquire_cases (limits free : PerKind Nat) (hc : c.source = processSource capacities)
    (kind : SlotKind) :
    (free.get kind = 0 ∧ ∃ c',
        c.tryAcquire (processUnits limits free) kind = (none, c', processUnits limits free) ∧
        Deal kind free free c c') ∨
      0 < free.get kind ∧ ∃ c' free',
        c.tryAcquire (processUnits limits free) kind
          = (some .counted, c', processUnits limits free') ∧
        Deal kind free free' c c' := by
  obtain ⟨source, ledger⟩ := c
  obtain rfl : source = _ := hc
  let tried : SlotController := ⟨processSource capacities,
    ledger.modify kind fun s => { s with tried := s.tried + 1 }⟩
  have htried : Deal kind free free ⟨processSource capacities, ledger⟩ tried :=
    Deal.note _ fun _ => rfl
  by_cases hzero : free.get kind = 0
  · have htake := take?_processUnits_of_zero capacities limits hzero
    refine .inl ⟨hzero, tried, ?_, htried⟩
    rw [tryAcquire, htake]
  · have htake := take?_processUnits_of_pos capacities limits (Nat.pos_of_ne_zero hzero)
    have hheld : Deal kind free (free.modify kind (· - 1)) tried
        ⟨processSource capacities, tried.ledger.modify kind (·.hold .counted)⟩ := by
      refine Deal.modify (· - 1) (·.hold .counted) ?_
      show free.get kind - 1 + ((tried.ledger.get kind).held + 1) = _
      omega
    refine .inr ⟨Nat.pos_of_ne_zero hzero, _, _, ?_, htried.trans hheld⟩
    rw [tryAcquire, htake]

theorem waitAcquire_cases (limits free : PerKind Nat) (hc : c.source = processSource capacities)
    (kind : SlotKind) :
    (free.get kind = 0 ∧ c.waitAcquire (processUnits limits free) kind = none) ∨
      0 < free.get kind ∧ ∃ c' free',
        c.waitAcquire (processUnits limits free) kind
          = some (.counted, c', processUnits limits free') ∧
        Deal kind free free' c c' := by
  obtain ⟨source, ledger⟩ := c
  obtain rfl : source = _ := hc
  by_cases hzero : free.get kind = 0
  · have htake := take?_processUnits_of_zero capacities limits hzero
    refine .inl ⟨hzero, ?_⟩
    rw [waitAcquire, htake]
    rfl
  · have htake := take?_processUnits_of_pos capacities limits (Nat.pos_of_ne_zero hzero)
    have hheld : Deal kind free (free.modify kind (· - 1)) ⟨processSource capacities, ledger⟩
        ⟨processSource capacities,
          ledger.modify kind fun s => { s with waited := s.waited + 1 }.hold .counted⟩ := by
      refine Deal.modify (· - 1) (fun s => { s with waited := s.waited + 1 }.hold .counted) ?_
      show free.get kind - 1 + ((ledger.get kind).held + 1) = free.get kind + (ledger.get kind).held
      omega
    refine .inr ⟨Nat.pos_of_ne_zero hzero, _, _, ?_, hheld⟩
    rw [waitAcquire, htake]
    rfl

/-- A unit that is given back was held, and so not all units are free. -/
theorem releaseStrictly_deal (hc : c.source = processSource capacities) (kind : SlotKind)
    (hunits : free.get kind + (c.ledger.get kind).held ≤ limits.get kind) :
    ∃ c' free', c.releaseStrictly (processUnits limits free) kind .counted
        = .ok (c', processUnits limits free') ∧
      Deal kind free free' c c' := by
  obtain ⟨source, ledger⟩ := c
  obtain rfl : source = _ := hc
  change free.get kind + (ledger.get kind).held ≤ limits.get kind at hunits
  by_cases hzero : (ledger.get kind).held = 0
  · refine ⟨_, free, ?_, rfl, rfl, fun _ _ => ⟨rfl, rfl⟩⟩
    rw [releaseStrictly, if_neg fun h => h.2 hzero]
  · have hback := giveBackStrictly_processUnits capacities
      (show free.get kind < limits.get kind by omega)
    have hgiven : Deal kind free (free.modify kind (· + 1)) ⟨processSource capacities, ledger⟩
        ⟨processSource capacities, ledger.modify kind fun s => { s with held := s.held - 1 }⟩ := by
      refine Deal.modify (· + 1) (fun s => { s with held := s.held - 1 }) ?_
      show free.get kind + 1 + ((ledger.get kind).held - 1)
        = free.get kind + (ledger.get kind).held
      omega
    refine ⟨_, _, ?_, hgiven⟩
    rw [releaseStrictly, if_pos ⟨rfl, hzero⟩, hback]
    rfl

theorem releaseKindStrictly_deal (hc : c.source = processSource capacities) (kind : SlotKind)
    (hunits : free.get kind + (c.ledger.get kind).held ≤ limits.get kind) :
    ∃ c' free', c.releaseKindStrictly (processUnits limits free) kind
        = .ok (c', processUnits limits free') ∧
      Deal kind free free' c c' := by
  obtain ⟨source, ledger⟩ := c
  obtain rfl : source = _ := hc
  have hgiven : Deal kind free (free.modify kind (· + (ledger.get kind).held))
      ⟨processSource capacities, ledger⟩
      ⟨processSource capacities, ledger.modify kind fun s => { s with held := 0 }⟩ :=
    Deal.modify _ (fun s => { s with held := 0 }) rfl
  refine ⟨_, _, ?_, hgiven⟩
  rw [releaseKindStrictly, giveBackManyStrictly_processUnits capacities _ hunits]
  rfl

end SlotController

/-! ## Several controllers -/

/-- The free units of a kind. -/
def SlotSource.free (source : SlotSource) (host : Semaphores) (kind : SlotKind) : Nat :=
  (source.counters.get kind).elim 0 host.free

theorem sum_map_set {α : Type} (f : α → Nat) {l : List α} {i : Nat} {x : α} (h : l[i]? = some x)
    (y : α) : ((l.set i y).map f).sum + f x = (l.map f).sum + f y := by
  induction l generalizing i with
  | nil => cases h
  | cons head rest ih =>
    cases i with
    | zero =>
      obtain rfl : head = x := Option.some.inj h
      simp only [List.set_cons_zero, List.map_cons, List.sum_cons]
      omega
    | succ i =>
      have hrest := ih (i := i) h
      simp only [List.set_cons_succ, List.map_cons, List.sum_cons]
      omega

theorem map_set_of_eq {α β : Type} {f : α → β} {l : List α} {i : Nat} {x y : α}
    (h : l[i]? = some x) (hf : f y = f x) : (l.set i y).map f = l.map f := by
  obtain ⟨hi, rfl⟩ := List.getElem?_eq_some_iff.1 h
  rw [List.map_set, hf, ← List.map_set, List.set_getElem_self]

theorem filter_set_of_neg {α : Type} {p : α → Bool} {l : List α} {i : Nat} {x y : α}
    (h : l[i]? = some x) (hx : p x = false) (hy : p y = false) :
    (l.set i y).filter p = l.filter p := by
  induction l generalizing i with
  | nil => cases h
  | cons head rest ih =>
    cases i with
    | zero =>
      obtain rfl : head = x := Option.some.inj h
      rw [List.set_cons_zero, List.filter_cons_of_neg (by simp [hy]),
        List.filter_cons_of_neg (by simp [hx])]
    | succ i => rw [List.set_cons_succ, List.filter_cons, List.filter_cons, ih (i := i) h]

namespace Admission

/-- So many controllers of one source, before anything has happened. -/
def sharing (source : SlotSource) (host : Semaphores) (n : Nat) : Admission :=
  ⟨host, List.replicate n (.ofSource source), []⟩

/-- So many controllers of the semaphores of one process. -/
def sharedInProcess (capacities : PerKind Nat) (n : Nat) : Admission :=
  let (source, host) := SlotSource.inProcess .none capacities
  sharing source host n

/-- The units of a kind that all controllers hold. -/
def heldByAll (a : Admission) (kind : SlotKind) : Nat :=
  (a.controllers.map fun c => (c.ledger.get kind).held).sum

/-- The kind that an operation is about, if it is about one. -/
def kindOf (a : Admission) : SlotOp → Option SlotKind
  | .tryAcquire _ kind => some kind
  | .waitAcquire _ kind => some kind
  | .release slot => (a.slots[slot]?).map (·.kind)
  | .releaseAll _ => none

/-- All that there is of a kind: the free units, what each controller has done, and the slots. -/
def part (a : Admission) (source : SlotSource) (kind : SlotKind) :
    Nat × List SlotStats × List Slot :=
  (source.free a.host kind, a.controllers.map fun c => c.ledger.get kind,
    a.slots.filter fun s => s.kind == kind)

/-- The state of controllers that share the semaphores of one process. -/
structure Shared (capacities : PerKind Nat) (n : Nat) (free : PerKind Nat) (a : Admission) :
    Prop where
  host : a.host = processUnits (SlotSource.atLeastOne capacities) free
  count : a.controllers.length = n
  sources : ∀ c ∈ a.controllers, c.source = processSource capacities
  sum : ∀ kind, free.get kind + a.heldByAll kind = (SlotSource.atLeastOne capacities).get kind
  slots : ∀ s ∈ a.slots, s.controller < n ∧ s.permit = .counted

/-- An operation keeps the units, passes the check, and leaves the other kind alone. -/
def Conserves (capacities : PerKind Nat) (n : Nat) (a : Admission) (op : SlotOp) : Prop :=
  a.stepStrictly op = .ok (a.step op) ∧ (∃ free, Shared capacities n free (a.step op).2) ∧
    ∀ kind, a.kindOf op = some kind → ∀ other, kind ≠ other →
      (a.step op).2.part (processSource capacities) other = a.part (processSource capacities) other

variable {capacities free free' : PerKind Nat} {n id : Nat} {a : Admission} {kind : SlotKind}
  {c c' : SlotController} {slots : List Slot}

theorem shared_sharedInProcess (capacities : PerKind Nat) (n : Nat) :
    Shared capacities n (SlotSource.atLeastOne capacities) (sharedInProcess capacities n) where
  host := rfl
  count := List.length_replicate
  sources c hc := by
    rw [List.eq_of_mem_replicate hc]
    rfl
  sum kind := by
    have hnone : (sharedInProcess capacities n).heldByAll kind = 0 := by
      rw [heldByAll, List.sum_eq_zero_iff_forall_eq_nat]
      intro held hheld
      obtain ⟨c, hc, rfl⟩ := List.mem_map.1 hheld
      rw [List.eq_of_mem_replicate hc]
      cases kind <;> rfl
    rw [hnone, Nat.add_zero]
  slots s hs := absurd hs List.not_mem_nil

/-- One of the controllers moves units of a kind. -/
theorem Shared.deal (h : Shared capacities n free a) (hc : a.controllers[id]? = some c)
    (hdeal : Deal kind free free' c c')
    (hslots : ∀ s ∈ slots, s.controller < n ∧ s.permit = .counted) :
    Shared capacities n free' ⟨processUnits (SlotSource.atLeastOne capacities) free',
      a.controllers.set id c', slots⟩ where
  host := rfl
  count := by rw [List.length_set, h.count]
  sources d hd := by
    rcases List.mem_or_eq_of_mem_set hd with hd | rfl
    · exact h.sources d hd
    · rw [hdeal.source, h.sources c (List.mem_of_getElem? hc)]
  sum k := by
    have hbefore := h.sum k
    have hset := sum_map_set (fun c => (c.ledger.get k).held) hc c'
    unfold heldByAll at hbefore ⊢
    by_cases hk : kind = k
    · subst hk
      have hunits := hdeal.units
      simp only at hset ⊢
      omega
    · obtain ⟨hfree, hledger⟩ := hdeal.others k hk
      simp only [hledger] at hset
      rw [hfree]
      simp only
      omega
  slots := hslots

theorem Shared.part_deal (h : Shared capacities n free a) (hc : a.controllers[id]? = some c)
    (hdeal : Deal kind free free' c c') {other : SlotKind} (hother : kind ≠ other)
    (hslots : (slots.filter fun s => s.kind == other) = a.slots.filter fun s => s.kind == other) :
    part ⟨processUnits (SlotSource.atLeastOne capacities) free', a.controllers.set id c', slots⟩
        (processSource capacities) other
      = a.part (processSource capacities) other := by
  obtain ⟨hfree, hledger⟩ := hdeal.others other hother
  have hunits : ∀ units : PerKind Nat, (processSource capacities).free
      (processUnits (SlotSource.atLeastOne capacities) units) other = units.get other :=
    fun units => free_processUnits _ units other
  rw [part, part, h.host, hslots, hunits, hunits, hfree, map_set_of_eq hc hledger]

/-- No more units are free than there are, together with those that one controller holds. -/
theorem Shared.free_add_held_le (h : Shared capacities n free a) (hc : a.controllers[id]? = some c)
    (kind : SlotKind) :
    free.get kind + (c.ledger.get kind).held ≤ (SlotSource.atLeastOne capacities).get kind := by
  have hsum := h.sum kind
  have hset := sum_map_set (fun c => (c.ledger.get kind).held) hc (.ofSource c.source)
  have hzero : ((SlotController.ofSource c.source).ledger.get kind).held = 0 := by
    cases kind <;> rfl
  unfold heldByAll at hsum
  simp only [hzero] at hset
  omega

/-! ### Steps -/

/-- An operation that leaves everything alone. -/
theorem Shared.unchanged (h : Shared capacities n free a) {op : SlotOp} (answer : SlotAnswer)
    (hstrictly : a.stepStrictly op = .ok (answer, a)) : Conserves capacities n a op := by
  have hstep := step_of_strictly hstrictly
  rw [Conserves, hstep]
  exact ⟨hstrictly, ⟨free, h⟩, fun _ _ _ _ => rfl⟩

/-- An operation in which one of the controllers moves units of a kind. -/
theorem Shared.moved (h : Shared capacities n free a) {op : SlotOp} (answer : SlotAnswer)
    (slots : List Slot) (hkind : a.kindOf op = some kind) (hc : a.controllers[id]? = some c)
    (hdeal : Deal kind free free' c c')
    (hslots : ∀ s ∈ slots, s.controller < n ∧ s.permit = .counted)
    (hsame : ∀ other, kind ≠ other →
      (slots.filter fun s => s.kind == other) = a.slots.filter fun s => s.kind == other)
    (hstrictly : a.stepStrictly op = .ok (answer,
      ⟨processUnits (SlotSource.atLeastOne capacities) free', a.controllers.set id c', slots⟩)) :
    Conserves capacities n a op := by
  have hstep := step_of_strictly hstrictly
  rw [Conserves, hstep]
  refine ⟨hstrictly, ⟨free', h.deal hc hdeal hslots⟩, fun about habout other hother => ?_⟩
  obtain rfl : kind = about := Option.some.inj (hkind.symm.trans habout)
  exact h.part_deal hc hdeal hother (hsame other hother)

/-- A slot that is handed out. -/
theorem Shared.handOut (h : Shared capacities n free a) {op : SlotOp}
    (hkind : a.kindOf op = some kind) (hc : a.controllers[id]? = some c)
    (hdeal : Deal kind free free' c c')
    (hstrictly : a.stepStrictly op = .ok (a.handOut id kind .counted c'
      (processUnits (SlotSource.atLeastOne capacities) free'))) :
    Conserves capacities n a op := by
  obtain ⟨hid, -⟩ := List.getElem?_eq_some_iff.1 hc
  refine h.moved _ _ hkind hc hdeal ?_ (fun other hother => ?_) hstrictly
  · intro s hs
    rcases List.mem_append.1 hs with hs | hs
    · exact h.slots s hs
    · rw [List.mem_singleton.1 hs]
      exact ⟨h.count ▸ hid, rfl⟩
  · rw [List.filter_append, List.filter_cons_of_neg (by simpa using hother), List.filter_nil,
      List.append_nil]

theorem Shared.tryAcquire (h : Shared capacities n free a) (id : Nat) (kind : SlotKind) :
    Conserves capacities n a (.tryAcquire id kind) := by
  cases hc : a.controllers[id]? with
  | none =>
    refine h.unchanged .refused ?_
    simp only [stepStrictly, step, hc]
  | some c =>
    have hsource := h.sources c (List.mem_of_getElem? hc)
    obtain ⟨-, c', htry, hdeal⟩ | ⟨-, c', free', htry, hdeal⟩ := SlotController.tryAcquire_cases
      (SlotSource.atLeastOne capacities) free hsource kind
    · refine h.moved .refused a.slots rfl hc hdeal h.slots (fun _ _ => rfl) ?_
      simp only [stepStrictly, step, hc, h.host, htry]
    · refine h.handOut rfl hc hdeal ?_
      simp only [stepStrictly, step, hc, h.host, htry]

theorem Shared.waitAcquire (h : Shared capacities n free a) (id : Nat) (kind : SlotKind) :
    Conserves capacities n a (.waitAcquire id kind) := by
  cases hc : a.controllers[id]? with
  | none =>
    refine h.unchanged .wouldBlock ?_
    simp only [stepStrictly, step, hc, Option.bind_none]
  | some c =>
    have hsource := h.sources c (List.mem_of_getElem? hc)
    obtain ⟨-, hwait⟩ | ⟨-, c', free', hwait, hdeal⟩ := SlotController.waitAcquire_cases
      (SlotSource.atLeastOne capacities) free hsource kind
    · refine h.unchanged .wouldBlock ?_
      simp only [stepStrictly, step, hc, Option.bind_some, h.host, hwait]
    · refine h.handOut rfl hc hdeal ?_
      simp only [stepStrictly, step, hc, Option.bind_some, h.host, hwait]

theorem Shared.release (h : Shared capacities n free a) (i : Nat) :
    Conserves capacities n a (.release i) := by
  cases hs : a.slots[i]? with
  | none =>
    refine h.unchanged .done ?_
    simp only [stepStrictly, hs]
  | some s =>
    obtain ⟨hcontroller, hpermit⟩ := h.slots s (List.mem_of_getElem? hs)
    cases hlive : s.live with
    | false =>
      refine h.unchanged .done ?_
      simp only [stepStrictly, hs, hlive]
      rfl
    | true =>
      obtain ⟨c, hc⟩ : ∃ c, a.controllers[s.controller]? = some c :=
        ⟨_, List.getElem?_eq_getElem (h.count.symm ▸ hcontroller)⟩
      obtain ⟨c', free', hrelease, hdeal⟩ := SlotController.releaseStrictly_deal
        (h.sources c (List.mem_of_getElem? hc)) s.kind (h.free_add_held_le hc s.kind)
      refine h.moved .done (a.slots.set i { s with live := false })
        (by rw [kindOf, hs]; rfl) hc hdeal ?_ (fun other hother => ?_) ?_
      · intro t ht
        rcases List.mem_or_eq_of_mem_set ht with ht | rfl
        · exact h.slots t ht
        · exact ⟨hcontroller, hpermit⟩
      · exact filter_set_of_neg hs (by simpa using hother) (by simpa using hother)
      · simp only [stepStrictly, hs, hlive, hc, h.host, hpermit, hrelease]
        rfl

theorem Shared.releaseAll (h : Shared capacities n free a) (id : Nat) :
    Conserves capacities n a (.releaseAll id) := by
  cases hc : a.controllers[id]? with
  | none =>
    refine h.unchanged (.released 0) ?_
    simp only [stepStrictly, hc]
  | some c =>
    obtain ⟨c₁, free₁, hcompile, hdeal₁⟩ := SlotController.releaseKindStrictly_deal
      (h.sources c (List.mem_of_getElem? hc)) .compile (h.free_add_held_le hc .compile)
    have h₁ := h.deal hc hdeal₁ h.slots
    have hc₁ : (a.controllers.set id c₁)[id]? = some c₁ :=
      List.getElem?_set_self (List.getElem?_eq_some_iff.1 hc).1
    obtain ⟨c₂, free₂, hpreprocess, hdeal₂⟩ := SlotController.releaseKindStrictly_deal
      (h₁.sources c₁ (List.mem_of_getElem? hc₁)) .preprocess (h₁.free_add_held_le hc₁ .preprocess)
    have h₂ := h₁.deal hc₁ hdeal₂ h.slots
    rw [List.set_set] at h₂
    have hstrictly : a.stepStrictly (.releaseAll id) = .ok (.released c.heldInAll,
        ⟨processUnits (SlotSource.atLeastOne capacities) free₂, a.controllers.set id c₂,
          a.slots⟩) := by
      have hall := SlotController.releaseAllStrictly_of_kinds hcompile hpreprocess
      simp only [stepStrictly, hc, h.host, hall]
      rfl
    rw [Conserves, step_of_strictly hstrictly]
    refine ⟨hstrictly, ⟨free₂, h₂⟩, ?_⟩
    intro kind hkind
    cases hkind

theorem Shared.conserves (h : Shared capacities n free a) (op : SlotOp) :
    Conserves capacities n a op := by
  cases op with
  | tryAcquire id kind => exact h.tryAcquire id kind
  | waitAcquire id kind => exact h.waitAcquire id kind
  | release i => exact h.release i
  | releaseAll id => exact h.releaseAll id

theorem shared_run (capacities : PerKind Nat) (n : Nat) (ops : List SlotOp) :
    ∃ free, Shared capacities n free ((sharedInProcess capacities n).run ops) := by
  have hrun : ∀ a, (∃ free, Shared capacities n free a) →
      ∃ free, Shared capacities n free (a.run ops) := by
    induction ops with
    | nil => exact fun a h => h
    | cons op rest ih =>
      rintro a ⟨free, h⟩
      exact ih (a.step op).2 (h.conserves op).2.1
  exact hrun _ ⟨_, shared_sharedInProcess capacities n⟩

/-- A controller is refused exactly if all units of the kind are held. -/
theorem Shared.refused_iff (h : Shared capacities n free a) (hid : id < n) (kind : SlotKind) :
    (a.step (.tryAcquire id kind)).1 = .refused ↔
      a.heldByAll kind = (SlotSource.atLeastOne capacities).get kind := by
  have hsum := h.sum kind
  have hc := List.getElem?_eq_getElem (h.count.symm ▸ hid)
  have hsource := h.sources _ (List.mem_of_getElem? hc)
  obtain ⟨hzero, c', htry, -⟩ | ⟨hpos, c', free', htry, -⟩ := SlotController.tryAcquire_cases
    (SlotSource.atLeastOne capacities) free hsource kind
  · have hrefused : (a.step (.tryAcquire id kind)).1 = .refused := by
      simp only [step, hc, h.host, htry]
    exact iff_of_true hrefused (by omega)
  · have hacquired : (a.step (.tryAcquire id kind)).1 = .acquired a.slots.length := by
      simp only [step, hc, h.host, htry]
      rfl
    refine iff_of_false ?_ (by omega)
    rw [hacquired]
    exact SlotAnswer.noConfusion

end Admission

end Offload
