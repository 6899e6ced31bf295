import Offload.Proofs.Compile.Guard

/-!
# The watchdog bounds every wait

If time passes while an attempt waits (`TimePasses`), then the watchdog's timer goes off again and
again, and when the deadline of the stage is over the watchdog fires. So no wait of a guarded
attempt goes on forever (`settles_of_guarded`), whatever scheduler, worker and preprocessor do.
-/

namespace Offload

open Multiplexer

variable {ω κ : Type} [Channel κ] [Collaborators ω κ]

/-- Time passes while something is waited for: each round of polling adds to the age of the
surroundings, nothing that is asked meanwhile takes from it, and the clock follows it. -/
structure TimePasses (age : ω → Nat) : Prop where
  clock : ∀ s : ω, age s ≤ age (Collaborators.clock s).2
  pollPreprocessor : ∀ s : ω, age s ≤ age (Collaborators.pollPreprocessor s).2
  meanwhile : ∀ s : ω, age s < age (Collaborators.meanwhile s)
  idle : ∀ s : ω, ∃ later, Collaborators.idle s = some later ∧ age s ≤ age later
  unbounded : ∀ t : Nat, ∃ limit, ∀ s : ω, limit ≤ age s → t ≤ (Collaborators.clock s).1

/-- The age of the surroundings. -/
def Parts.age (age : ω → Nat) (p : Parts ω κ) : Nat := age p.surroundings

variable {age : ω → Nat} {w : Watchdog} {deadline since : Nat}

/-! ## Polling -/

theorem TimePasses.poll (h : TimePasses age) {source : EventSource (Parts ω κ)}
    (hsource : OfAttempt source) (p : Parts ω κ) : p.age age ≤ (source.poll p).2.age age := by
  cases hsource with
  | watchdog => exact h.clock p.surroundings
  | preprocessor =>
    change age p.surroundings ≤ age p.pollPreprocessor.2.surroundings
    have hpoll := h.pollPreprocessor p.surroundings
    unfold Parts.pollPreprocessor
    split
    · split
      · rename_i hresult
        rw [hresult] at hpoll
        exact hpoll
      · rename_i hresult
        rw [hresult] at hpoll
        exact hpoll
    · exact Nat.le_refl _
  | scheduler =>
    change age p.surroundings ≤ age p.pollScheduler.2.surroundings
    unfold Parts.pollScheduler
    split <;> exact Nat.le_refl _
  | worker =>
    change age p.surroundings ≤ age p.pollWorker.2.surroundings
    unfold Parts.pollWorker
    split <;> exact Nat.le_refl _

theorem TimePasses.dispatch (h : TimePasses age) {source : EventSource (Parts ω κ)}
    (hsource : OfAttempt source) (p : Parts ω κ) : p.age age ≤ (source.dispatch p).age age := by
  cases hsource with
  | watchdog => exact h.clock p.surroundings
  | _ => exact Nat.le_refl _

/-- Only the watchdog's own source polls the watchdog, and it changes it only when it is due. -/
theorem watchdog_poll {source : EventSource (Parts ω κ)} (hsource : OfAttempt source)
    (p : Parts ω κ) :
    (source.poll p).2.watchdog = p.watchdog ∨
      source = Parts.watchdogSource ∧ (source.poll p).1 = true := by
  cases hsource with
  | watchdog =>
    cases hdue : (p.watchdog.poll p.now.1).1 with
    | true => exact .inr ⟨rfl, hdue⟩
    | false => exact .inl (Watchdog.poll_snd_of_not_due hdue)
  | preprocessor =>
    refine .inl ?_
    change p.pollPreprocessor.2.watchdog = _
    unfold Parts.pollPreprocessor
    split
    · split <;> rfl
    · rfl
  | scheduler =>
    refine .inl ?_
    change p.pollScheduler.2.watchdog = _
    unfold Parts.pollScheduler
    split <;> rfl
  | worker =>
    refine .inl ?_
    change p.pollWorker.2.watchdog = _
    unfold Parts.pollWorker
    split <;> rfl

theorem watchdog_dispatch {source : EventSource (Parts ω κ)} (hsource : OfAttempt source)
    (hother : source ≠ Parts.watchdogSource) (p : Parts ω κ) :
    (source.dispatch p).watchdog = p.watchdog := by
  cases hsource with
  | watchdog => exact absurd rfl hother
  | _ => rfl

/-- The sources of an attempt, the watchdog's among them. -/
structure WatchedBy (sources : List (Nat × EventSource (Parts ω κ))) : Prop where
  sourced : ∀ source ∈ sources, OfAttempt source.2
  watchdog : ∃ id, (id, Parts.watchdogSource) ∈ sources

/-- Polling finds the watchdog due or leaves it alone. -/
theorem watchdog_pollAll (sources : List (Nat × EventSource (Parts ω κ)))
    (hsources : ∀ source ∈ sources, OfAttempt source.2) (p : Parts ω κ) :
    (pollAll sources p).2.watchdog = p.watchdog ∨
      ∃ id, (id, Parts.watchdogSource) ∈ (pollAll sources p).1 := by
  induction sources generalizing p with
  | nil => exact .inl rfl
  | cons source rest ih =>
    have hrest := ih (fun other h => hsources other (List.mem_cons_of_mem _ h)) (source.2.poll p).2
    rw [pollAll]
    dsimp only
    rcases watchdog_poll (hsources source List.mem_cons_self) p with hsame | ⟨hsource, hdue⟩
    · refine hrest.imp (fun h => h.trans hsame) ?_
      rintro ⟨id, hid⟩
      refine ⟨id, ?_⟩
      split
      · exact List.mem_cons_of_mem _ hid
      · exact hid
    · refine .inr ⟨source.1, ?_⟩
      rw [if_pos hdue, ← hsource]
      exact List.mem_cons_self

/-- When the time of the timer has come, polling finds the watchdog due. -/
theorem mem_pollAll_of_timer (h : TimePasses age) {timer : Timer} (htimer : w.timer = some timer)
    {limit : Nat} (hlimit : ∀ s : ω, limit ≤ age s → timer.next ≤ (Collaborators.clock s).1)
    (sources : List (Nat × EventSource (Parts ω κ))) (hsources : WatchedBy sources)
    (p : Parts ω κ) (hp : p.watchdog = w) (hage : limit ≤ p.age age) :
    ∃ id, (id, Parts.watchdogSource) ∈ (pollAll sources p).1 := by
  obtain ⟨hsourced, id, hid⟩ := hsources
  induction sources generalizing p with
  | nil => simp at hid
  | cons source rest ih =>
    rw [pollAll]
    dsimp only
    have hsource := hsourced source List.mem_cons_self
    -- either this is the watchdog and it is due, or the watchdog is among the others as it was
    by_cases hdue : (source.2.poll p).1 = true ∧ source.2 = Parts.watchdogSource
    · refine ⟨source.1, ?_⟩
      rw [if_pos hdue.1, ← hdue.2]
      exact List.mem_cons_self
    · have hsame : (source.2.poll p).2.watchdog = w := by
        rcases watchdog_poll hsource p with hsame | ⟨hself, hready⟩
        · exact hsame.trans hp
        · exact absurd ⟨hready, hself⟩ hdue
      have hmem : (id, Parts.watchdogSource) ∈ rest := by
        rcases List.mem_cons.mp hid with rfl | hmem
        · refine absurd ⟨?_, rfl⟩ hdue
          change (p.watchdog.poll p.now.1).1 = true
          rw [hp]
          exact Watchdog.poll_fst_of_le htimer (hlimit p.surroundings hage)
        · exact hmem
      obtain ⟨found, hfound⟩ := ih (source.2.poll p).2 hsame (Nat.le_trans hage (h.poll hsource p))
        (fun other h => hsourced other (List.mem_cons_of_mem _ h)) hmem
      refine ⟨found, ?_⟩
      split
      · exact List.mem_cons_of_mem _ hfound
      · exact hfound

theorem bounds_poll {source : EventSource (Parts ω κ)} (hsource : OfAttempt source)
    (p : Parts ω κ) (h : p.watchdog.Bounds deadline since) :
    (source.poll p).2.watchdog.Bounds deadline since := by
  rcases watchdog_poll hsource p with hsame | ⟨rfl, -⟩
  · rw [hsame]
    exact h
  · exact h.poll p.now.1

/-! ## Dispatching -/

theorem bounds_dispatch {source : EventSource (Parts ω κ)} (hsource : OfAttempt source)
    (p : Parts ω κ) (h : p.watchdog.Bounds deadline since) :
    (source.dispatch p).watchdog.Bounds deadline since := by
  by_cases hself : source = Parts.watchdogSource
  · rw [hself]
    exact h.check p.now.1
  · rw [watchdog_dispatch hsource hself]
    exact h

theorem fired_dispatch {source : EventSource (Parts ω κ)} (hsource : OfAttempt source)
    (p : Parts ω κ) (h : p.watchdog.fired = true) :
    (source.dispatch p).watchdog.fired = true := by
  by_cases hself : source = Parts.watchdogSource
  · rw [hself]
    exact Watchdog.fired_check h p.now.1
  · rw [watchdog_dispatch hsource hself]
    exact h

/-- Without the watchdog's source, the dispatch leaves the watchdog alone. -/
theorem watchdog_dispatchAll (ready : List (Nat × EventSource (Parts ω κ)))
    (hready : ∀ source ∈ ready, OfAttempt source.2)
    (hnone : ∀ id, (id, Parts.watchdogSource) ∉ ready) (p : Parts ω κ) :
    (dispatchAll ready p).watchdog = p.watchdog := by
  refine dispatchAll_kept (I := fun q => q.watchdog = p.watchdog) ready
    (fun source hsource q hq => ?_) p rfl
  rw [watchdog_dispatch (hready source hsource) ?_, hq]
  rintro hself
  exact hnone source.1 (hself ▸ hsource)

/-- A watchdog that is dispatched after the deadline fires. -/
theorem fired_dispatchAll (h : TimePasses age) {limit : Nat}
    (hlimit : ∀ s : ω, limit ≤ age s → since + deadline < (Collaborators.clock s).1)
    (ready : List (Nat × EventSource (Parts ω κ))) (hready : WatchedBy ready) (p : Parts ω κ)
    (hbounds : p.watchdog.Bounds deadline since) (hage : limit ≤ p.age age) :
    (dispatchAll ready p).watchdog.fired = true := by
  obtain ⟨hsourced, id, hid⟩ := hready
  induction ready generalizing p with
  | nil => simp at hid
  | cons source rest ih =>
    have hrest : ∀ other ∈ rest, OfAttempt other.2 := fun other h =>
      hsourced other (List.mem_cons_of_mem _ h)
    have hsource := hsourced source List.mem_cons_self
    change (dispatchAll rest (source.2.dispatch p)).watchdog.fired = true
    -- those dispatched before the watchdog keep its bounds, those after it keep it fired
    rcases List.mem_cons.mp hid with rfl | hmem
    · have hfired : (Parts.watchdogSource.dispatch p).watchdog.fired = true :=
        hbounds.check_fired (hlimit p.surroundings hage)
      exact dispatchAll_kept (I := fun q => q.watchdog.fired = true) rest
        (fun other hother q hq => fired_dispatch (hrest other hother) q hq) _ hfired
    · exact ih _ (bounds_dispatch hsource p hbounds) (Nat.le_trans hage (h.dispatch hsource p))
        hrest hmem

/-! ## Waiting -/

section Waiting

variable {mux : Multiplexer (Parts ω κ)}

theorem WatchedBy.sources_ne_nil (h : WatchedBy mux.sources) : mux.sources ≠ [] := by
  obtain ⟨-, id, hid⟩ := h
  exact List.ne_nil_of_mem hid

theorem TimePasses.round (h : TimePasses age) (hmux : WatchedBy mux.sources) (p : Parts ω κ) :
    p.age age < (round Parts.around mux p).2.age age := by
  have hmeanwhile : p.age age < p.meanwhile.age age := h.meanwhile p.surroundings
  exact pollAll_kept (I := fun q => p.age age < q.age age) mux.sources
    (fun source hsource q hq => Nat.lt_of_lt_of_le hq (h.poll (hmux.sourced source hsource) q))
    p.meanwhile hmeanwhile

theorem mem_round_of_timer (h : TimePasses age) (hmux : WatchedBy mux.sources) {timer : Timer}
    {limit : Nat} (hlimit : ∀ s : ω, limit ≤ age s → timer.next ≤ (Collaborators.clock s).1)
    (p : Parts ω κ) (htimer : p.watchdog.timer = some timer) (hage : limit ≤ p.age age) :
    ∃ id, (id, Parts.watchdogSource) ∈ (round Parts.around mux p).1 :=
  mem_pollAll_of_timer h htimer hlimit mux.sources hmux p.meanwhile rfl
    (Nat.le_trans hage (Nat.le_of_lt (h.meanwhile p.surroundings)))

/-- One round of polling and the dispatch of what it found. -/
def wake (mux : Multiplexer (Parts ω κ)) (p : Parts ω κ) : Parts ω κ :=
  dispatchAll (round Parts.around mux p).1 (round Parts.around mux p).2

theorem sourced_round (hmux : WatchedBy mux.sources) (p : Parts ω κ) :
    ∀ source ∈ (round Parts.around mux p).1, OfAttempt source.2 := fun source hsource =>
  hmux.sourced source (mem_of_mem_pollAll _ _ _ hsource)

theorem TimePasses.wake (h : TimePasses age) (hmux : WatchedBy mux.sources) (p : Parts ω κ) :
    p.age age < (wake mux p).age age :=
  dispatchAll_kept (I := fun q => p.age age < q.age age) _
    (fun source hsource q hq =>
      Nat.lt_of_lt_of_le hq (h.dispatch (sourced_round hmux p source hsource) q))
    _ (h.round hmux p)

/-- While the timer runs, a wait ends with something to do. -/
theorem exec_of_timer (h : TimePasses age) (hmux : WatchedBy mux.sources) {timer : Timer}
    (p : Parts ω κ) (htimer : p.watchdog.timer = some timer) :
    ∃ rounds n last, last.watchdog = p.watchdog ∧ p.age age ≤ last.age age ∧
      exec Parts.around mux rounds p = .done n (wake mux last) := by
  -- a round without work leaves the watchdog as it was, so its timer stays and is due in the end
  obtain ⟨limit, hlimit⟩ := h.unbounded timer.next
  obtain ⟨rounds, n, last, hlast, hage, -, hexec⟩ : ∃ rounds n last,
      last.watchdog = p.watchdog ∧ p.age age ≤ last.age age ∧
        (round Parts.around mux last).1 ≠ [] ∧
        exec Parts.around mux rounds p = .done n (wake mux last) := exec_reaches
    (I := fun q => q.watchdog = p.watchdog) (Parts.age age) limit hmux.sources_ne_nil
    (fun q hq hready => by
      obtain ⟨later, hlater, hle⟩ := h.idle (round Parts.around mux q).2.surroundings
      refine ⟨{ (round Parts.around mux q).2 with surroundings := later }, ?_, ?_, ?_⟩
      · change (Collaborators.idle _).map _ = _
        rw [hlater]
        rfl
      · rcases watchdog_pollAll mux.sources hmux.sourced q.meanwhile with hsame | ⟨id, hid⟩
        · exact hsame.trans hq
        · change (id, _) ∈ (round Parts.around mux q).1 at hid
          rw [hready] at hid
          simp at hid
      · exact Nat.lt_of_lt_of_le (h.round hmux q) hle)
    (fun q hq hold => by
      obtain ⟨id, hid⟩ := mem_round_of_timer h hmux hlimit q (hq ▸ htimer) hold
      exact List.ne_nil_of_mem hid)
    p rfl
  exact ⟨rounds, n, last, hlast, hage, hexec⟩

/-- After the deadline, the watchdog fires as soon as it is due; until then it is left alone. -/
theorem fired_or_same_wake (h : TimePasses age) (hmux : WatchedBy mux.sources) {limit : Nat}
    (hlimit : ∀ s : ω, limit ≤ age s → since + deadline < (Collaborators.clock s).1)
    (p : Parts ω κ) (hbounds : p.watchdog.Bounds deadline since) (hage : limit ≤ p.age age) :
    (wake mux p).watchdog.fired = true ∨
      (∀ id, (id, Parts.watchdogSource) ∉ (round Parts.around mux p).1) ∧
        (wake mux p).watchdog = p.watchdog := by
  have hsourced := sourced_round hmux p
  by_cases hdue : ∃ id, (id, Parts.watchdogSource) ∈ (round Parts.around mux p).1
  · refine .inl (fired_dispatchAll h hlimit _ ⟨hsourced, hdue⟩ _ ?_ ?_)
    · exact pollAll_kept (I := fun q => q.watchdog.Bounds deadline since) mux.sources
        (fun source hsource q => bounds_poll (hmux.sourced source hsource) q) p.meanwhile hbounds
    · exact Nat.le_trans hage (Nat.le_of_lt (h.round hmux p))
  · have hnone : ∀ id, (id, Parts.watchdogSource) ∉ (round Parts.around mux p).1 :=
      fun id hid => hdue ⟨id, hid⟩
    refine .inr ⟨hnone, (watchdog_dispatchAll _ hsourced hnone _).trans ?_⟩
    rcases watchdog_pollAll mux.sources hmux.sourced p.meanwhile with hsame | hfound
    · exact hsame
    · exact absurd hfound hdue

omit [Channel κ] in
theorem settles_of_fired (aim : Parts ω κ → Bool) {p : Parts ω κ}
    (h : p.watchdog.fired = true) :
    Settles Parts.around mux (fun q => q.watchdog.fired || aim q) p :=
  settles_of_done (by rw [h, Bool.true_or])

/-- After the deadline, a wait is over when the timer goes off next. -/
theorem settles_of_late (h : TimePasses age) (hmux : WatchedBy mux.sources)
    (aim : Parts ω κ → Bool) {limit : Nat}
    (hlimit : ∀ s : ω, limit ≤ age s → since + deadline < (Collaborators.clock s).1)
    {timer : Timer} (p : Parts ω κ) (htimer : p.watchdog.timer = some timer)
    (hbounds : p.watchdog.Bounds deadline since) (hage : limit ≤ p.age age) :
    Settles Parts.around mux (fun q => q.watchdog.fired || aim q) p := by
  obtain ⟨due, hdue⟩ := h.unbounded timer.next
  refine settles_of_progress
    (I := fun q => q.watchdog = p.watchdog ∧ limit ≤ q.age age) (Parts.age age) due
    (fun q hq _ => ?_) (fun q hq hold => ?_) p ⟨rfl, hage⟩
  · obtain ⟨rounds, n, last, hlast, hle, hexec⟩ := exec_of_timer h hmux q (hq.1 ▸ htimer)
    have hsame : last.watchdog = p.watchdog := hlast.trans hq.1
    have hlater := Nat.lt_of_le_of_lt hle (h.wake hmux last)
    refine ⟨rounds, n, _, hexec, ?_⟩
    rcases fired_or_same_wake h hmux hlimit last (hsame ▸ hbounds) (Nat.le_trans hq.2 hle)
      with hfired | ⟨-, hwake⟩
    · exact .inl (settles_of_fired aim hfired)
    · exact .inr ⟨⟨hwake.trans hsame, Nat.le_trans hq.2 (Nat.le_of_lt hlater)⟩, hlater⟩
  · -- the timer goes off in the next round
    obtain ⟨id, hid⟩ := mem_round_of_timer h hmux hdue q (hq.1 ▸ htimer) hold
    have hexec : exec Parts.around mux 1 q
        = .done (round Parts.around mux q).1.length (wake mux q) := by
      rw [exec_succ 0 q hmux.sources_ne_nil, if_neg (List.ne_nil_of_mem hid)]
      rfl
    rcases fired_or_same_wake h hmux hlimit q (hq.1 ▸ hbounds) hq.2 with hfired | ⟨hnone, -⟩
    · exact settles_of_exec hexec (settles_of_fired aim hfired)
    · exact absurd hid (hnone id)

/-- What a watchdog watches, it watches until the wait is over. -/
theorem kept_watching (hmux : WatchedBy mux.sources) :
    KeptByWaiting Parts.around mux fun p : Parts ω κ =>
      p.watchdog.Watches ∧ p.watchdog.Bounds deadline since where
  poll source hsource p hp :=
    ⟨watches_of_partsMoves (moves_poll (hmux.sourced source hsource) p) hp.1,
      bounds_poll (hmux.sourced source hsource) p hp.2⟩
  meanwhile p hp := hp
  idle p later hp hlater := by
    change (Collaborators.idle p.surroundings).map _ = some later at hlater
    obtain ⟨s, -, rfl⟩ := Option.map_eq_some_iff.mp hlater
    exact hp
  dispatch source hsource p hp :=
    ⟨watches_of_partsMoves (moves_dispatch (hmux.sourced source hsource) p) hp.1,
      bounds_dispatch (hmux.sourced source hsource) p hp.2⟩

/-- No wait of a guarded attempt goes on forever. -/
theorem settles_of_guarded (h : TimePasses age) (run : CompileRun ω κ) (hsourced : run.Sourced)
    (hguarded : run.Guarded) (aim : Parts ω κ → Bool) :
    Settles Parts.around run.mux (fun q => q.watchdog.fired || aim q) run.parts := by
  have hmux : WatchedBy run.mux.sources := ⟨hsourced, hguarded.registered⟩
  obtain ⟨deadline, since, hbounds⟩ := hguarded.watches.bounds
  obtain ⟨limit, hlimit⟩ := h.unbounded (since + deadline + 1)
  refine settles_of_progress
    (I := fun q => q.watchdog.Watches ∧ q.watchdog.Bounds deadline since) (Parts.age age) limit
    (fun q hq hdone => ?_) (fun q hq hold => ?_) run.parts ⟨hguarded.watches, hbounds⟩
  · rcases hq.1.ticks with hfired | ⟨timer, htimer⟩
    · simp [hfired] at hdone
    · obtain ⟨rounds, n, last, hlast, hle, hexec⟩ := exec_of_timer h hmux q htimer
      have hnext := state_exec (kept_watching hmux) rounds q hq
      rw [hexec] at hnext
      exact ⟨rounds, n, _, hexec, .inr ⟨hnext, Nat.lt_of_le_of_lt hle (h.wake hmux last)⟩⟩
  · rcases hq.1.ticks with hfired | ⟨timer, htimer⟩
    · exact settles_of_fired aim hfired
    · exact settles_of_late h hmux aim hlimit q htimer hq.2 hold

end Waiting

end Offload
