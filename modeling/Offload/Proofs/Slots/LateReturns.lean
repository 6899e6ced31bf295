import Offload.Proofs.Slots.InProcess
import Mathlib.Data.List.Induction

/-!
# Slots that come back late

When a controller gives everything back at once, the slots that are still out should have nothing to
give back any more, so that never more slots of a kind are live than its capacity (`Promise`). The
ledger keeps only a number, though: a slot that was out then and comes back later is taken for one
that was handed out since. The promise holds for a run exactly if no slot comes back late, that is
while a later one of its kind is live (`promise_iff`).
-/

namespace Offload

open Admission

/-! ## Runs -/

/-- A run of the controller of one process: where it stands, and how many slots had been handed out
when everything was given back last. -/
structure SlotRun where
  now : Admission
  /-- slots before this position were out then, or had come back -/
  mark : Nat

namespace SlotRun

/-- Before anything has happened. -/
def start (capacities : PerKind Nat) : SlotRun := ⟨.inProcess capacities, 0⟩

/-- After an operation. -/
def step (r : SlotRun) (op : SlotOp) : SlotRun :=
  ⟨(r.now.step op).2, if op = .releaseAll 0 then r.now.slots.length else r.mark⟩

/-- After a sequence of operations from the start. -/
def after (capacities : PerKind Nat) (ops : List SlotOp) : SlotRun := ops.foldl step (start capacities)

@[simp] theorem after_append_singleton (capacities : PerKind Nat) (ops : List SlotOp)
    (op : SlotOp) : after capacities (ops ++ [op]) = (after capacities ops).step op := by
  rw [after, List.foldl_append]
  rfl

/-- Whether a slot is live and of a kind. -/
def isLive (kind : SlotKind) (s : Slot) : Bool := s.live && s.kind == kind && s.permit == .counted

/-- The number of live slots of a kind: counted, neither released nor dropped, and not out when
everything was given back. -/
def live (r : SlotRun) (kind : SlotKind) : Nat := (r.now.slots.drop r.mark).countP (isLive kind)

/-- A slot that was out when everything was given back. -/
def Outstanding (r : SlotRun) (i : Nat) : Prop :=
  i < r.mark ∧ ∃ s, r.now.slots[i]? = some s ∧ s.live = true

/-- Giving back a slot would be late: it was out when everything was given back, and a later slot
of its kind is live. -/
def Late (r : SlotRun) (i : Nat) : Prop :=
  i < r.mark ∧ ∃ s, r.now.slots[i]? = some s ∧ s.live = true ∧ 0 < r.live s.kind

end SlotRun

/-! ## The promise -/

/-- What is promised of a run: never are more slots of a kind live than its capacity, and to give
back a slot that was out when everything was given back changes neither the units that are free nor
those that are held. -/
structure Promise (capacities : PerKind Nat) (ops : List SlotOp) : Prop where
  bounded : ∀ before rest, ops = before ++ rest → ∀ kind,
    (SlotRun.after capacities before).live kind ≤ (SlotSource.atLeastOne capacities).get kind
  inert : ∀ before i rest, ops = before ++ .release i :: rest →
    (SlotRun.after capacities before).Outstanding i → ∀ kind,
      (SlotRun.after capacities (before ++ [.release i])).now.free kind
          = (SlotRun.after capacities before).now.free kind ∧
        (SlotRun.after capacities (before ++ [.release i])).now.held kind
          = (SlotRun.after capacities before).now.held kind

/-- No slot comes back late in a run. -/
def NeverLate (capacities : PerKind Nat) (ops : List SlotOp) : Prop :=
  ∀ before i rest, ops = before ++ .release i :: rest →
    ¬ (SlotRun.after capacities before).Late i

/-! ## What a run keeps -/

namespace SlotRun

variable {capacities : PerKind Nat} {r : SlotRun} {op : SlotOp}

/-- The units are conserved, and the mark is a number of slots that were handed out. -/
structure Sound (capacities : PerKind Nat) (r : SlotRun) : Prop where
  inProcess : r.now.InProcess capacities
  mark : r.mark ≤ r.now.slots.length

/-- As many units are held as slots are live. -/
def Even (r : SlotRun) : Prop := ∀ kind, r.now.held kind = r.live kind

theorem sound_start (capacities : PerKind Nat) : (start capacities).Sound capacities :=
  ⟨inProcess_inProcess capacities, Nat.le_refl _⟩

theorem even_start (capacities : PerKind Nat) : (start capacities).Even := by
  intro kind
  cases kind <;> rfl

theorem Sound.step (h : r.Sound capacities) (op : SlotOp) : (r.step op).Sound capacities := by
  obtain ⟨heffect, hin⟩ := does_step h.inProcess op
  refine ⟨hin, ?_⟩
  have hmark := h.mark
  show (if op = .releaseAll 0 then _ else _) ≤ (r.now.step op).2.slots.length
  cases heffect with
  | acquired _ kind hop hslots hheld =>
    have hne : op ≠ .releaseAll 0 := by rcases hop with rfl | rfl <;> simp
    rw [hslots, List.length_append, if_neg hne]
    omega
  | returned i s hs hlive hpos hslots hheld =>
    rw [hslots, List.length_set, if_neg (by simp)]
    exact hmark
  | inert i s hs hlive hzero hslots hheld =>
    rw [hslots, List.length_set, if_neg (by simp)]
    exact hmark
  | emptied hslots hheld =>
    rw [hslots]
    exact Nat.le_of_eq (if_pos rfl)
  | nothing _ hop hgone hslots hheld =>
    rw [hslots, if_neg hop]
    exact hmark

theorem sound_after (capacities : PerKind Nat) (ops : List SlotOp) :
    (after capacities ops).Sound capacities := by
  induction ops using List.reverseRecOn with
  | nil => exact sound_start capacities
  | append_singleton ops op ih =>
    rw [after_append_singleton]
    exact ih.step op

/-! ## Live slots -/

/-- A slot that was handed out since and is live is counted. -/
theorem Sound.live_pos (h : r.Sound capacities) {i : Nat} {s : Slot}
    (hs : r.now.slots[i]? = some s) (hlive : s.live = true) (hi : r.mark ≤ i) :
    0 < r.live s.kind := by
  have hpermit := (h.inProcess.slots s (List.mem_of_getElem? hs)).2
  have hmem : s ∈ r.now.slots.drop r.mark := by
    have hdrop : (r.now.slots.drop r.mark)[i - r.mark]? = some s := by
      rw [List.getElem?_drop, Nat.add_sub_cancel' hi]
      exact hs
    exact List.mem_of_getElem? hdrop
  apply List.countP_pos_iff.mpr
  exact ⟨s, hmem, by simp [isLive, hlive, hpermit]⟩

/-- When a slot that was handed out since comes back, one less of its kind is live. -/
theorem Sound.countP_set (h : r.Sound capacities) {i : Nat} {s : Slot}
    (hs : r.now.slots[i]? = some s) (hlive : s.live = true) (hi : r.mark ≤ i) (kind : SlotKind) :
    ((r.now.slots.set i { s with live := false }).drop r.mark).countP (isLive kind)
      = if s.kind = kind then r.live kind - 1 else r.live kind := by
  have hpermit := (h.inProcess.slots s (List.mem_of_getElem? hs)).2
  have hdrop : (r.now.slots.drop r.mark)[i - r.mark]? = some s := by
    rw [List.getElem?_drop, Nat.add_sub_cancel' hi]
    exact hs
  obtain ⟨hbound, hat⟩ := List.getElem?_eq_some_iff.mp hdrop
  have hgone : isLive kind { s with live := false } = false := by simp [isLive]
  have hwas : isLive kind s = decide (s.kind = kind) := by
    simp [isLive, hlive, hpermit, beq_eq_decide]
  rw [List.drop_set, if_neg (by omega), List.countP_set hbound, hat, hgone, hwas]
  show r.live kind - _ + _ = _
  by_cases heq : s.kind = kind <;> simp [heq]

/-- As long as no slot that was out gives anything back, as many units are held as slots are
live. -/
theorem Even.step (heven : r.Even) (h : r.Sound capacities)
    (hkept : ∀ i, op = .release i → r.Outstanding i → ∀ kind,
      (r.step op).now.held kind = r.now.held kind) : (r.step op).Even := by
  intro kind
  obtain ⟨heffect, -⟩ := does_step h.inProcess op
  have hmark := h.mark
  show (r.now.step op).2.held kind
    = ((r.now.step op).2.slots.drop (if op = .releaseAll 0 then r.now.slots.length else r.mark)).countP
        (isLive kind)
  cases heffect with
  | acquired _ k hop hslots hheld =>
    have hne : op ≠ .releaseAll 0 := by rcases hop with rfl | rfl <;> simp
    have hnew : List.countP (isLive kind) [⟨0, k, .counted, true⟩] = if k = kind then 1 else 0 := by
      by_cases heq : k = kind <;> simp [isLive, heq]
    rw [hheld, hslots, if_neg hne, List.drop_append_of_le_length hmark, List.countP_append, hnew,
      heven kind]
    split <;> rfl
  | returned i s hs hlive hpos hslots hheld =>
    by_cases hi : i < r.mark
    · -- it was out, so what is held does not change
      have hsame : (r.now.step (.release i)).2.held s.kind = r.now.held s.kind :=
        hkept i rfl ⟨hi, s, hs, hlive⟩ s.kind
      rw [hheld, if_pos rfl] at hsame
      omega
    · rw [hslots, if_neg (by simp), h.countP_set hs hlive (by omega), hheld, heven kind]
  | inert i s hs hlive hzero hslots hheld =>
    -- nothing is held, so the slot cannot have been handed out since
    have hi : i < r.mark := by
      by_contra hnot
      have hpos := h.live_pos hs hlive (by omega)
      rw [← heven s.kind] at hpos
      omega
    rw [hheld, hslots, if_neg (by simp), List.drop_set_of_lt hi]
    exact heven kind
  | emptied hslots hheld =>
    rw [hheld, hslots, if_pos rfl, List.drop_length]
    rfl
  | nothing _ hop hgone hslots hheld =>
    rw [hheld, hslots, if_neg hop]
    exact heven kind

/-- A slot that does not come back late has nothing to give back once it was out. -/
theorem Even.held_release (heven : r.Even) (h : r.Sound capacities) {i : Nat}
    (hlate : ¬ r.Late i) (hout : r.Outstanding i) (kind : SlotKind) :
    (r.step (.release i)).now.held kind = r.now.held kind := by
  obtain ⟨hi, s, hs, hlive⟩ := hout
  have hzero : r.now.held s.kind = 0 := by
    rw [heven s.kind]
    by_contra hne
    exact hlate ⟨hi, s, hs, hlive, Nat.pos_of_ne_zero hne⟩
  obtain ⟨heffect, -⟩ := does_step h.inProcess (.release i)
  show (r.now.step (.release i)).2.held kind = r.now.held kind
  cases heffect with
  | acquired _ k hop => simp at hop
  | returned _ t ht _ hpos =>
    obtain rfl : s = t := Option.some.inj (hs.symm.trans ht)
    omega
  | inert _ t ht htlive _ hslots hheld => exact hheld kind
  | nothing _ hop hgone hslots hheld => exact hheld kind

/-- A slot that comes back late gives a unit back. -/
theorem Even.held_release_of_late (heven : r.Even) (h : r.Sound capacities) {i : Nat}
    (hlate : r.Late i) : ∃ kind, (r.step (.release i)).now.held kind ≠ r.now.held kind := by
  obtain ⟨hi, s, hs, hlive, hpos⟩ := hlate
  rw [← heven s.kind] at hpos
  obtain ⟨heffect, -⟩ := does_step h.inProcess (.release i)
  -- a unit of its kind is held for the later slot, and that one is given back
  refine ⟨s.kind, ?_⟩
  show (r.now.step (.release i)).2.held s.kind ≠ r.now.held s.kind
  cases heffect with
  | acquired _ k hop => simp at hop
  | returned _ t ht _ _ hslots hheld =>
    obtain rfl : s = t := Option.some.inj (hs.symm.trans ht)
    rw [hheld, if_pos rfl]
    omega
  | inert _ t ht _ hzero =>
    obtain rfl : s = t := Option.some.inj (hs.symm.trans ht)
    omega
  | nothing _ hop hgone =>
    have hdead := hgone i s rfl hs
    rw [hlive] at hdead
    exact absurd hdead (by decide)

end SlotRun

/-! ## When the promise holds -/

section Main

variable {capacities : PerKind Nat} {ops : List SlotOp}

/-- Where the promise of inertness holds, or no slot comes back late, the run stays even. -/
theorem even_after (hkept : ∀ before i rest, ops = before ++ .release i :: rest →
      (SlotRun.after capacities before).Even → (SlotRun.after capacities before).Outstanding i →
      ∀ kind, ((SlotRun.after capacities before).step (.release i)).now.held kind
        = (SlotRun.after capacities before).now.held kind)
    (before rest : List SlotOp) (hops : ops = before ++ rest) :
    (SlotRun.after capacities before).Even := by
  induction before using List.reverseRecOn generalizing rest with
  | nil => exact SlotRun.even_start capacities
  | append_singleton before op ih =>
    have hcut : ops = before ++ op :: rest := by rw [hops, List.append_assoc]; rfl
    have heven := ih _ hcut
    rw [SlotRun.after_append_singleton]
    refine heven.step (SlotRun.sound_after capacities before) fun i hi => ?_
    subst hi
    exact hkept before i rest hcut heven

theorem even_of_neverLate (h : NeverLate capacities ops) (before rest : List SlotOp)
    (hops : ops = before ++ rest) : (SlotRun.after capacities before).Even :=
  even_after (fun before i rest hcut heven hout =>
    heven.held_release (SlotRun.sound_after capacities before) (h before i rest hcut) hout)
    before rest hops

theorem even_of_promise (h : Promise capacities ops) (before rest : List SlotOp)
    (hops : ops = before ++ rest) : (SlotRun.after capacities before).Even := by
  refine even_after (fun before i rest hcut _ hout kind => ?_) before rest hops
  rw [← SlotRun.after_append_singleton]
  exact (h.inert before i rest hcut hout kind).2

/-- The promise holds for a run exactly if no slot comes back late in it. -/
theorem promise_iff (capacities : PerKind Nat) (ops : List SlotOp) :
    Promise capacities ops ↔ NeverLate capacities ops := by
  constructor
  · intro h before i rest hops hlate
    have heven := even_of_promise h before _ hops
    obtain ⟨kind, hkind⟩ := heven.held_release_of_late (SlotRun.sound_after capacities before) hlate
    obtain ⟨hi, s, hs, hlive, -⟩ := hlate
    have hsame := (h.inert before i rest hops ⟨hi, s, hs, hlive⟩ kind).2
    rw [SlotRun.after_append_singleton] at hsame
    exact hkind hsame
  · intro h
    refine ⟨fun before rest hops kind => ?_, fun before i rest hops hout kind => ?_⟩
    -- as many are held as are live, and with the free ones they are the capacity
    · have hunits := (SlotRun.sound_after capacities before).inProcess.free_add_held kind
      rw [even_of_neverLate h before rest hops kind] at hunits
      omega
    · have hbefore := SlotRun.sound_after capacities before
      have hheld := (even_of_neverLate h before _ hops).held_release hbefore
        (h before i rest hops) hout kind
      have hunits := hbefore.inProcess.free_add_held kind
      have hafter := (hbefore.step (.release i)).inProcess.free_add_held kind
      rw [SlotRun.after_append_singleton]
      rw [hheld] at hafter
      exact ⟨by omega, hheld⟩

end Main

/-- A slot that comes back late: with one unit, two slots are live at the end. -/
def lateReturn : List SlotOp :=
  [.tryAcquire 0 .compile, .releaseAll 0, .tryAcquire 0 .compile, .release 0, .tryAcquire 0 .compile]

/-- The promise is broken: more slots are live than there are units. -/
theorem lateReturn_breaks_promise :
    (SlotRun.after ⟨1, 1⟩ lateReturn).live .compile = 2 ∧ ¬ Promise ⟨1, 1⟩ lateReturn := by
  have hlive : (SlotRun.after ⟨1, 1⟩ lateReturn).live .compile = 2 := by decide
  refine ⟨hlive, fun h => ?_⟩
  have hbounded := h.bounded lateReturn [] (by simp) .compile
  rw [hlive] at hbounded
  exact absurd hbounded (by decide)

end Offload
