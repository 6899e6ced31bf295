import Mathlib.Data.List.Nodup
import Mathlib.Logic.Relation
import Offload.Proofs.Waiting

/-!
# What the multiplexer dispatches

Sources note when they are polled and when they are dispatched (`EventSource.noting`), which changes
nothing about a wait. From their notes it can be read that a wait polls all sources, round by round,
until some are ready, and then dispatches just these, once and in the order of their registration
(`Dispatches`). What is said of a wait that ended is complemented by when it ends: exactly if it comes
to a round in which something is ready (`exec_ends_iff`). What only a dispatch makes ready is left to
the next wait (`waits_for_next`).

Numbers of registrations are given out one after another and never again, whatever is taken out in
between (`Registry.Sound`). They are taken from all natural numbers: a counter of 64 bits does not run
out before 2^64 registrations.
-/

namespace Offload

variable {σ : Type}

/-! ## Notes of sources -/

/-- What a source notes of a wait, under the number of its registration. -/
inductive Note where
  /-- it was polled, and whether it was ready -/
  | polled (id : Nat) (ready : Bool)
  | dispatched (id : Nat)
deriving DecidableEq, Repr

/-- The source, with notes on what is done to it. -/
def EventSource.noting (id : Nat) (source : EventSource σ) : EventSource (σ × List Note) where
  poll s := ((source.poll s.1).1, (source.poll s.1).2, s.2 ++ [.polled id (source.poll s.1).1])
  dispatch s := (source.dispatch s.1, s.2 ++ [.dispatched id])

namespace Multiplexer

/-- The registrations with their sources taking notes. -/
def notingAll (sources : List (Nat × EventSource σ)) : List (Nat × EventSource (σ × List Note)) :=
  sources.map fun source => (source.1, source.2.noting source.1)

/-- The multiplexer with all its sources taking notes. -/
def noting (mux : Multiplexer σ) : Multiplexer (σ × List Note) :=
  ⟨notingAll mux.sources, mux.nextId⟩

/-- The same surroundings, which leave the notes alone. -/
def Surroundings.noting (around : Surroundings σ) : Surroundings (σ × List Note) where
  meanwhile s := (around.meanwhile s.1, s.2)
  idle s := (around.idle s.1).map fun later => (later, s.2)

/-- A round of polling: which registrations were asked, in this order, and what they answered. -/
abbrev Polling := List (Nat × Bool)

/-- The notes that a round leaves. -/
def Polling.notes (polling : Polling) : List Note := polling.map fun p => .polled p.1 p.2

/-- The registrations that reported ready. -/
def Polling.ready (polling : Polling) : List Nat := (polling.filter (·.2)).map Prod.fst

/-- The notes of a wait that ended: in some rounds all sources were polled and none was ready; then
they were polled once more, and those that reported ready then, and no others, were dispatched, one
after the other in this order. -/
structure Dispatches (mux : Multiplexer σ) (idle : List Polling) (final : Polling) (count : Nat)
    (notes : List Note) : Prop where
  notes_eq : notes = idle.flatMap Polling.notes ++ final.notes ++ final.ready.map .dispatched
  idle_all : ∀ polling ∈ idle, polling.map Prod.fst = mux.sources.map Prod.fst
  idle_none : ∀ polling ∈ idle, polling.ready = []
  final_all : final.map Prod.fst = mux.sources.map Prod.fst
  count_eq : count = final.ready.length
  count_pos : 1 ≤ count

theorem notingAll_cons (source : Nat × EventSource σ) (rest : List (Nat × EventSource σ)) :
    notingAll (source :: rest) = (source.1, source.2.noting source.1) :: notingAll rest := rfl

/-! ## One round -/

/-- What the sources answer when they are polled one after the other. -/
def answers : List (Nat × EventSource σ) → σ → Polling
  | [], _ => []
  | source :: rest, s => (source.1, (source.2.poll s).1) :: answers rest (source.2.poll s).2

theorem answers_all (sources : List (Nat × EventSource σ)) (s : σ) :
    (answers sources s).map Prod.fst = sources.map Prod.fst := by
  induction sources generalizing s with
  | nil => rfl
  | cons source rest ih => rw [answers, List.map_cons, List.map_cons, ih]

theorem ready_answers (sources : List (Nat × EventSource σ)) (s : σ) :
    (answers sources s).ready = (pollAll sources s).1.map Prod.fst := by
  induction sources generalizing s with
  | nil => rfl
  | cons source rest ih =>
    have hrest := ih (source.2.poll s).2
    rw [answers, pollAll]
    cases hready : (source.2.poll s).1 <;> simpa [Polling.ready, hready] using hrest

theorem pollAll_notingAll (sources : List (Nat × EventSource σ)) (s : σ) (seen : List Note) :
    pollAll (notingAll sources) (s, seen) =
      (notingAll (pollAll sources s).1, (pollAll sources s).2, seen ++ (answers sources s).notes) := by
  induction sources generalizing s seen with
  | nil => simp [notingAll, pollAll, answers, Polling.notes]
  | cons source rest ih =>
    have hrest := ih (source.2.poll s).2 (seen ++ [.polled source.1 (source.2.poll s).1])
    have hpoll : (source.2.noting source.1).poll (s, seen) = ((source.2.poll s).1,
        (source.2.poll s).2, seen ++ [.polled source.1 (source.2.poll s).1]) := rfl
    simp only [notingAll_cons, pollAll, hpoll, hrest, answers]
    cases (source.2.poll s).1 <;> simp [Polling.notes, notingAll_cons]

theorem dispatchAll_notingAll (sources : List (Nat × EventSource σ)) (s : σ) (seen : List Note) :
    dispatchAll (notingAll sources) (s, seen) =
      (dispatchAll sources s, seen ++ (sources.map Prod.fst).map .dispatched) := by
  induction sources generalizing s seen with
  | nil => simp [notingAll, dispatchAll]
  | cons source rest ih =>
    have hrest := ih (source.2.dispatch s) (seen ++ [.dispatched source.1])
    rw [List.append_assoc] at hrest
    exact hrest

variable {around : Surroundings σ} {mux : Multiplexer σ}

theorem round_noting (s : σ) (seen : List Note) :
    round around.noting mux.noting (s, seen) =
      (notingAll (round around mux s).1, (round around mux s).2,
        seen ++ (answers mux.sources (around.meanwhile s)).notes) :=
  pollAll_notingAll mux.sources (around.meanwhile s) seen

/-- A wait that ends after one round of polling. -/
theorem dispatches_now {polling : Polling} (hall : polling.map Prod.fst = mux.sources.map Prod.fst)
    (hready : polling.ready ≠ []) :
    Dispatches mux [] polling polling.ready.length
      (polling.notes ++ polling.ready.map .dispatched) where
  notes_eq := by simp
  idle_all := by simp
  idle_none := by simp
  final_all := hall
  count_eq := rfl
  count_pos := List.length_pos_iff.mpr hready

/-- A round in which something is ready is the last of its wait: what is ready is dispatched. -/
theorem exec_noting_of_ready {s : σ} {asked : Polling}
    (hasked : answers mux.sources (around.meanwhile s) = asked) (hready : asked.ready ≠ [])
    (rounds : Nat) (seen : List Note) :
    let last := dispatchAll (round around mux s).1 (round around mux s).2
    exec around mux (rounds + 1) s = .done asked.ready.length last ∧
      exec around.noting mux.noting (rounds + 1) (s, seen) =
        .done asked.ready.length (last, seen ++ (asked.notes ++ asked.ready.map .dispatched)) := by
  intro last
  have hids : asked.ready = (round around mux s).1.map Prod.fst := by
    rw [← hasked]
    exact ready_answers _ _
  have hsome : (round around mux s).1 ≠ [] := by
    intro hnone
    apply hready
    rw [hids, hnone, List.map_nil]
  have hne : mux.sources ≠ [] := by
    intro hnil
    apply hsome
    rw [round, hnil]
    rfl
  have hnoting : mux.noting.sources ≠ [] := by simpa [noting, notingAll] using hne
  have hcount : asked.ready.length = (round around mux s).1.length := by
    rw [hids, List.length_map]
  constructor
  · rw [exec_succ rounds s hne, if_neg hsome, hcount]
  · rw [exec_succ rounds _ hnoting, round_noting, hasked,
      if_neg (by simpa [notingAll] using hsome), dispatchAll_notingAll, hids, List.append_assoc]
    simp [notingAll, last]

/-- A wait that goes on after a round of polling in which nothing was ready. -/
theorem Dispatches.idle_cons {idle : List Polling} {final polling : Polling} {count : Nat}
    {notes : List Note} (h : Dispatches mux idle final count notes)
    (hall : polling.map Prod.fst = mux.sources.map Prod.fst) (hnone : polling.ready = []) :
    Dispatches mux (polling :: idle) final count (polling.notes ++ notes) where
  notes_eq := by rw [h.notes_eq]; simp
  idle_all := List.forall_mem_cons.mpr ⟨hall, h.idle_all⟩
  idle_none := List.forall_mem_cons.mpr ⟨hnone, h.idle_none⟩
  final_all := h.final_all
  count_eq := h.count_eq
  count_pos := h.count_pos

/-- A wait that ends does so with the sources taking notes too, and these show what it dispatched. -/
theorem exec_noting {rounds count : Nat} {s last : σ}
    (h : exec around mux rounds s = .done count last) (seen : List Note) :
    ∃ idle final notes, Dispatches mux idle final count notes ∧
      exec around.noting mux.noting rounds (s, seen) = .done count (last, seen ++ notes) := by
  induction rounds generalizing s seen with
  | zero => simp [exec] at h
  | succ rounds ih =>
    have hne : mux.sources ≠ [] := by
      intro hnil
      simp [exec, hnil] at h
    have hnoting : mux.noting.sources ≠ [] := by simpa [noting, notingAll] using hne
    -- what this round of polling notes, and whom it finds ready
    set asked := answers mux.sources (around.meanwhile s) with hasked
    have hall : asked.map Prod.fst = mux.sources.map Prod.fst := answers_all _ _
    have hready : asked.ready = (round around mux s).1.map Prod.fst := ready_answers _ _
    by_cases hempty : asked.ready = []
    · have hnone : (round around mux s).1 = [] := by simpa [hready] using hempty
      rw [exec_succ rounds s hne, if_pos hnone] at h
      rw [exec_succ rounds _ hnoting, round_noting, ← hasked, if_pos (by rw [hnone]; rfl)]
      cases hidle : around.idle (round around mux s).2 with
      | none => simp [hidle] at h
      | some later =>
        rw [hidle] at h
        obtain ⟨idle, final, notes, hnotes, hexec⟩ := ih h (seen ++ asked.notes)
        refine ⟨asked :: idle, final, asked.notes ++ notes, hnotes.idle_cons hall hempty, ?_⟩
        simp only [Surroundings.noting, hidle, Option.map_some, Option.elim]
        rw [← List.append_assoc]
        exact hexec
    · obtain ⟨hended, hnotes⟩ := exec_noting_of_ready hasked.symm hempty rounds seen
      rw [hended] at h
      cases h
      exact ⟨[], asked, _, dispatches_now hall hempty, hnotes⟩

/-- A round in which nothing was ready, and what happened then. -/
def IdleRound (around : Surroundings σ) (mux : Multiplexer σ) (s later : σ) : Prop :=
  (round around mux s).1 = [] ∧ around.idle (round around mux s).2 = some later

/-- A wait ends exactly if idle rounds lead to one in which something is ready. -/
theorem exec_ends_iff {s : σ} :
    (∃ rounds count last, exec around mux rounds s = .done count last) ↔
      ∃ t, Relation.ReflTransGen (IdleRound around mux) s t ∧
        (answers mux.sources (around.meanwhile t)).ready ≠ [] := by
  constructor
  · rintro ⟨rounds, count, last, h⟩
    induction rounds generalizing s with
    | zero => simp [exec] at h
    | succ rounds ih =>
      -- a round in which nothing is ready leaves the rest of the wait
      by_cases hready : (answers mux.sources (around.meanwhile s)).ready = []
      · have hnone : (round around mux s).1 = [] := by
          have hids := ready_answers mux.sources (around.meanwhile s)
          rw [hready] at hids
          exact List.map_eq_nil_iff.mp hids.symm
        have hne : mux.sources ≠ [] := by
          intro hnil
          simp [exec, hnil] at h
        rw [exec_succ rounds s hne, if_pos hnone] at h
        cases hidle : around.idle (round around mux s).2 with
        | none => simp [hidle] at h
        | some later =>
          rw [hidle] at h
          obtain ⟨t, hreaches, ht⟩ := ih h
          exact ⟨t, hreaches.head ⟨hnone, hidle⟩, ht⟩
      · exact ⟨s, .refl, hready⟩
  · rintro ⟨t, hreaches, hready⟩
    have hne : mux.sources ≠ [] := by
      intro hnil
      rw [hnil] at hready
      exact hready rfl
    induction hreaches using Relation.ReflTransGen.head_induction_on with
    | refl => exact ⟨1, _, _, (exec_noting_of_ready rfl hready 0 []).1⟩
    | head hidle _ ih =>
      obtain ⟨rounds, count, last, hexec⟩ := ih
      refine ⟨rounds + 1, count, last, ?_⟩
      rw [exec_succ rounds _ hne, if_pos hidle.1, hidle.2]
      exact hexec

/-- A wait dispatches what was ready in its last round, and nothing else. -/
theorem Dispatches.dispatched_iff {idle : List Polling} {final : Polling} {count : Nat}
    {notes : List Note} (h : Dispatches mux idle final count notes) (id : Nat) :
    .dispatched id ∈ notes ↔ id ∈ final.ready := by
  have hpolled (polling : Polling) : .dispatched id ∉ polling.notes := by simp [Polling.notes]
  rw [h.notes_eq]
  simp [hpolled]

/-- Whatever the dispatch of others makes ready, after it was not in the last round of a wait, is left
to the next wait. That one finds it ready in its first round, and dispatches it. -/
theorem waits_for_next {rounds count : Nat} {s last : σ}
    (h : exec around mux rounds s = .done count last) (seen : List Note) :
    ∃ idle final notes, Dispatches mux idle final count notes ∧
      exec around.noting mux.noting rounds (s, seen) = .done count (last, seen ++ notes) ∧
      ∀ id, id ∉ final.ready → id ∈ (answers mux.sources (around.meanwhile last)).ready →
        .dispatched id ∉ notes ∧
        ∀ more, ∃ n next later, .dispatched id ∈ later ∧
          exec around.noting mux.noting (more + 1) (last, seen ++ notes) =
            .done n (next, seen ++ notes ++ later) := by
  obtain ⟨idle, final, notes, hnotes, hexec⟩ := exec_noting h seen
  refine ⟨idle, final, notes, hnotes, hexec, ?_⟩
  intro id hnot hnext
  have hready : (answers mux.sources (around.meanwhile last)).ready ≠ [] :=
    List.ne_nil_of_mem hnext
  constructor
  · rw [hnotes.dispatched_iff]
    exact hnot
  · intro more
    have hended := (exec_noting_of_ready (s := last) rfl hready more (seen ++ notes)).2
    refine ⟨_, _, _, ?_, hended⟩
    exact List.mem_append_right _ (List.mem_map_of_mem hnext)

/-! ## Waiting until a question is answered by true -/

/-- The question is answered by false so many times, each time followed by a wait that ends, and then
by true. -/
inductive AskedTimes (around : Surroundings σ) (mux : Multiplexer σ) (ask : σ → Bool × σ) :
    Nat → σ → σ → Prop
  | reached {s last : σ} (h : ask s = (true, last)) : AskedTimes around mux ask 0 s last
  | again {n rounds count : Nat} {s asked next last : σ} (h : ask s = (false, asked))
    (hexec : exec around mux rounds asked = .done count next)
    (hrest : AskedTimes around mux ask n next last) : AskedTimes around mux ask (n + 1) s last

/-- The answer of a wait is the number of waits before the question was answered by true. -/
theorem runUntilAsked_iff {ask : σ → Bool × σ} {n : Nat} {s last : σ} :
    (∃ rounds, runUntilAsked around mux ask rounds s = .done n last) ↔
      AskedTimes around mux ask n s last := by
  constructor
  · rintro ⟨rounds, h⟩
    induction rounds generalizing n s with
    | zero =>
      rcases hask : ask s with ⟨_ | _, asked⟩
      · simp [runUntilAsked, hask] at h
      · rw [runUntilAsked_of_reached hask] at h
        cases h
        exact .reached hask
    | succ rounds ih =>
      rcases hask : ask s with ⟨_ | _, asked⟩
      · by_cases hexec : (exec around mux (rounds + 1) asked).isDone = false
        · rw [runUntilAsked_of_exec_unfinished hask hexec] at h
          rw [h] at hexec
          simp [Waited.isDone] at hexec
        · obtain ⟨count, next, hresult⟩ := Waited.exists_of_isDone (by simpa using hexec)
          rw [runUntilAsked_of_exec_done hask hresult] at h
          cases hrest : runUntilAsked around mux ask rounds next with
          | done m final =>
            rw [hrest] at h
            cases h
            exact .again hask hresult (ih hrest)
          | noSources final => rw [hrest] at h; cases h
          | pending final => rw [hrest] at h; cases h
      · rw [runUntilAsked_of_reached hask] at h
        cases h
        exact .reached hask
  · intro h
    induction h with
    | reached h => exact ⟨0, runUntilAsked_of_reached h 0⟩
    | @again n rounds count s asked next last h hexec _ ih =>
      obtain ⟨bound, hrest⟩ := ih
      -- one bound has to serve the first wait and those after it
      have hexec' := exec_of_le (show rounds ≤ max rounds bound + 1 by omega) hexec
      refine ⟨max rounds bound + 1, ?_⟩
      rw [runUntilAsked_of_exec_done h hexec', runUntilAsked_of_le (by omega) hrest]
      rfl

/-- Nothing to wait for is found only where nothing is registered, and only by a question that was
answered by false. -/
theorem runUntilAsked_noSources_iff {ask : σ → Bool × σ} {s last : σ} :
    (∃ rounds, runUntilAsked around mux ask rounds s = .noSources last) ↔
      mux.sources = [] ∧ ask s = (false, last) := by
  constructor
  · rintro ⟨rounds, h⟩
    have hnil : mux.sources = [] :=
      not_not.mp fun hne => runUntilAsked_ne_noSources hne ask rounds s last h
    refine ⟨hnil, ?_⟩
    rcases hask : ask s with ⟨_ | _, asked⟩
    · cases rounds with
      | zero => simp [runUntilAsked, hask] at h
      | succ rounds =>
        have hexec : exec around mux (rounds + 1) asked = .noSources asked := by
          rw [exec, hnil]
          rfl
        rw [runUntilAsked_of_exec_unfinished hask (by rw [hexec]; rfl), hexec] at h
        cases h
        rfl
    · rw [runUntilAsked_of_reached hask] at h
      cases h
  · rintro ⟨hnil, hask⟩
    have hexec : exec around mux 1 last = .noSources last := by
      rw [exec, hnil]
      rfl
    exact ⟨1, by rw [runUntilAsked_of_exec_unfinished hask (by rw [hexec]; rfl), hexec]⟩

/-! ## Registrations -/

/-- What is done with a multiplexer. -/
inductive Call (σ : Type) where
  | add (source : EventSource σ)
  | remove (id : Nat)
  /-- waiting once, for so many rounds at most -/
  | exec (rounds : Nat)

/-- A multiplexer with its past: the registrations that were ever made, under the numbers that were
given out for them, and the numbers that were reported as taken out. -/
structure Registry (σ : Type) where
  mux : Multiplexer σ
  state : σ
  registered : List (Nat × EventSource σ)
  removed : List Nat

namespace Registry

/-- Without a past. -/
def start (s : σ) : Registry σ := ⟨.empty, s, [], []⟩

/-- The next call. -/
def perform (around : Surroundings σ) (r : Registry σ) : Call σ → Registry σ
  | .add source =>
    { r with
      mux := (r.mux.add source).2
      registered := r.registered ++ [((r.mux.add source).1, source)] }
  | .remove id =>
    { r with
      mux := (r.mux.remove id).2
      removed := if (r.mux.remove id).1 then r.removed ++ [id] else r.removed }
  | .exec rounds => { r with state := (r.mux.exec around rounds r.state).state }

/-- One call after another. -/
def performAll (around : Surroundings σ) (r : Registry σ) (calls : List (Call σ)) : Registry σ :=
  calls.foldl (perform around) r

/-- Numbers are given out in order, and those registrations are there that were not taken out. -/
structure Sound (r : Registry σ) : Prop where
  nextId : r.mux.nextId = r.registered.length
  numbered : r.registered.map Prod.fst = List.range r.registered.length
  sources : r.mux.sources = r.registered.filter fun source => source.1 ∉ r.removed
  removed_lt : ∀ id ∈ r.removed, id < r.registered.length

variable {r : Registry σ}

theorem sound_start (s : σ) : (start s).Sound := ⟨rfl, rfl, rfl, by simp [start]⟩

theorem Sound.lt_of_mem (h : r.Sound) {source : Nat × EventSource σ} (hsource : source ∈ r.registered) :
    source.1 < r.registered.length := by
  rw [← List.mem_range, ← h.numbered]
  exact List.mem_map_of_mem hsource

theorem Sound.add (h : r.Sound) (around : Surroundings σ) (source : EventSource σ) :
    (r.perform around (.add source)).Sound where
  nextId := by simp [perform, Multiplexer.add, h.nextId]
  numbered := by simp [perform, Multiplexer.add, h.numbered, h.nextId, List.range_succ]
  sources := by
    -- the new number was not taken out before, as it was not given out before
    have hnew : r.registered.length ∉ r.removed := fun hmem =>
      Nat.lt_irrefl _ (h.removed_lt _ hmem)
    simp [perform, Multiplexer.add, h.sources, h.nextId, hnew]
  removed_lt := fun id hid => by
    simpa [perform] using Nat.lt_succ_of_lt (h.removed_lt id hid)

theorem Sound.remove (h : r.Sound) (around : Surroundings σ) (id : Nat) :
    (r.perform around (.remove id)).Sound := by
  have hsources : (r.mux.remove id).2.sources = r.mux.sources.filter (·.1 != id) := rfl
  cases hthere : (r.mux.remove id).1 with
  | true =>
    have hlt : id < r.registered.length := by
      obtain ⟨source, hsource, hid⟩ := List.any_eq_true.mp hthere
      rw [h.sources] at hsource
      rw [← beq_iff_eq.mp hid]
      exact h.lt_of_mem (List.mem_of_mem_filter hsource)
    have hperform : r.perform around (.remove id) =
        { r with mux := (r.mux.remove id).2, removed := r.removed ++ [id] } := by
      simp only [perform, hthere, if_true]
    rw [hperform]
    refine ⟨h.nextId, h.numbered, ?_, ?_⟩
    · dsimp only
      rw [hsources, h.sources, List.filter_filter]
      refine List.filter_congr fun source _ => ?_
      by_cases hid : source.1 = id <;> simp [hid]
    · intro other hother
      rcases List.mem_append.mp hother with hother | hother
      · exact h.removed_lt other hother
      · rw [List.mem_singleton.mp hother]
        exact hlt
  | false =>
    -- nothing is there under this number, so that nothing is taken out
    have hkept : (r.mux.remove id).2.sources = r.mux.sources :=
      List.filter_eq_self.mpr fun source hsource => by
        simpa using List.any_eq_false.mp hthere source hsource
    have hperform : r.perform around (.remove id) = { r with mux := (r.mux.remove id).2 } := by
      simp only [perform, hthere, Bool.false_eq_true, if_false]
    rw [hperform]
    exact ⟨h.nextId, h.numbered, hkept.trans h.sources, h.removed_lt⟩

theorem Sound.perform (h : r.Sound) (around : Surroundings σ) (call : Call σ) :
    (r.perform around call).Sound := by
  cases call with
  | add source => exact h.add around source
  | remove id => exact h.remove around id
  | exec rounds => exact ⟨h.nextId, h.numbered, h.sources, h.removed_lt⟩

theorem Sound.performAll (h : r.Sound) (around : Surroundings σ) (calls : List (Call σ)) :
    (r.performAll around calls).Sound := by
  induction calls generalizing r with
  | nil => exact h
  | cons call rest ih => exact ih (h.perform around call)

theorem Sound.ids_nodup (h : r.Sound) : (r.mux.sources.map Prod.fst).Nodup := by
  have hsublist : List.Sublist (r.mux.sources.map Prod.fst) (List.range r.registered.length) := by
    rw [← h.numbered, h.sources]
    exact List.filter_sublist.map Prod.fst
  exact hsublist.nodup List.nodup_range

end Registry

/-- Taking out a registration takes out that one and no other, and says whether it was there. -/
structure TakesOut (mux : Multiplexer σ) (id : Nat) (answer : Bool × Multiplexer σ) : Prop where
  there : ∀ source before after, mux.sources = before ++ (id, source) :: after →
    answer.1 = true ∧ answer.2.sources = before ++ after
  notThere : id ∉ mux.sources.map Prod.fst → answer.1 = false ∧ answer.2.sources = mux.sources

theorem takesOut_remove (h : (mux.sources.map Prod.fst).Nodup) (id : Nat) :
    mux.TakesOut id (mux.remove id) := by
  constructor
  · intro source before after hsplit
    rw [hsplit, List.map_append, List.map_cons, List.nodup_middle, List.nodup_cons] at h
    have hothers : ∀ other ∈ before ++ after, other.1 ≠ id := by
      rintro other hother rfl
      apply h.1
      rw [← List.map_append]
      exact List.mem_map.mpr ⟨other, hother, rfl⟩
    have hkept : (before ++ after).filter (fun s => s.1 != id) = before ++ after :=
      List.filter_eq_self.mpr fun other hother => by simpa using hothers other hother
    constructor
    · simp [remove, hsplit]
    · rw [List.filter_append] at hkept
      simpa [remove, hsplit] using hkept
  · intro hnot
    have hnone : ∀ source ∈ mux.sources, source.1 ≠ id := by
      rintro source hsource rfl
      exact hnot (List.mem_map_of_mem hsource)
    constructor
    · simpa [remove] using hnone
    · exact List.filter_eq_self.mpr fun source hsource => by simpa using hnone source hsource

theorem Dispatches.ready_nodup {idle : List Polling} {final : Polling} {count : Nat}
    {notes : List Note} (h : mux.Dispatches idle final count notes)
    (hids : (mux.sources.map Prod.fst).Nodup) : final.ready.Nodup := by
  have hsublist : List.Sublist final.ready (mux.sources.map Prod.fst) := by
    rw [← h.final_all]
    exact List.filter_sublist.map Prod.fst
  exact hsublist.nodup hids

/-- Whatever was done with a multiplexer before: the numbers it has given out are `0`, `1`, `2` and so
on, so that none was given out twice; it holds the registrations that were not taken out, in the order
in which they were made; taking out a registration takes out that one alone and says whether it was
there. Every wait that ends polls all registrations round by round, as long as none is ready, and then
dispatches those that reported ready in the last round, each of them once, in order, before anything
is polled again; it answers how many, at least one. Waiting until a question is answered by true
answers how often it was answered by false, each time followed by one wait; it fails exactly if the
question is answered by false while nothing is registered. -/
theorem dispatches_exactly_ready (around : Surroundings σ) (s : σ) (calls : List (Call σ)) :
    let r := (Registry.start s).performAll around calls
    r.registered.map Prod.fst = List.range r.registered.length ∧
      r.mux.sources = r.registered.filter (fun source => source.1 ∉ r.removed) ∧
      (∀ id, r.mux.TakesOut id (r.mux.remove id)) ∧
      (∀ rounds t count last, exec around r.mux rounds t = .done count last →
        ∀ seen, ∃ idle final notes, Dispatches r.mux idle final count notes ∧ final.ready.Nodup ∧
          exec around.noting r.mux.noting rounds (t, seen) = .done count (last, seen ++ notes)) ∧
      (∀ ask t n last, (∃ rounds, runUntilAsked around r.mux ask rounds t = .done n last) ↔
        AskedTimes around r.mux ask n t last) ∧
      (∀ ask t last, (∃ rounds, runUntilAsked around r.mux ask rounds t = .noSources last) ↔
        r.mux.sources = [] ∧ ask t = (false, last)) := by
  intro r
  have hsound : r.Sound := (Registry.sound_start s).performAll around calls
  refine ⟨hsound.numbered, hsound.sources, takesOut_remove hsound.ids_nodup, ?_, ?_, ?_⟩
  · intro rounds t count last hexec seen
    obtain ⟨idle, final, notes, hnotes, hnoting⟩ := exec_noting hexec seen
    exact ⟨idle, final, notes, hnotes, hnotes.ready_nodup hsound.ids_nodup, hnoting⟩
  · intro ask t n last
    exact runUntilAsked_iff
  · intro ask t last
    exact runUntilAsked_noSources_iff

end Multiplexer

end Offload
