import Offload.Multiplexer

/-!
# What a wait keeps

A wait polls and dispatches the registered sources, and in between the world around them moves. A
property that each of these keeps holds however the wait ends (`state_runUntil`). A wait that ends
without its aim does so after a poll that found nothing: what polling alone keeps, and the missed aim
implies, still holds then (`runUntil_unfinished`).
-/

namespace Offload

namespace Waited

variable {σ α : Type}

/-- The state in which a wait ended. -/
def state : Waited σ α → σ
  | done _ s => s
  | noSources s => s
  | pending s => s

/-- Whether the wait ended with a value. -/
def isDone : Waited σ α → Bool
  | done _ _ => true
  | _ => false

theorem exists_of_isDone {w : Waited σ α} (h : w.isDone = true) : ∃ a s, w = done a s := by
  cases w with
  | done a s => exact ⟨a, s, rfl⟩
  | noSources s => simp [isDone] at h
  | pending s => simp [isDone] at h

/-- The same end after one more wait. -/
def afterOneMore : Waited σ Nat → Waited σ Nat
  | done n s => done (n + 1) s
  | other => other

@[simp] theorem state_afterOneMore (w : Waited σ Nat) : w.afterOneMore.state = w.state := by
  cases w <;> rfl

@[simp] theorem isDone_afterOneMore (w : Waited σ Nat) : w.afterOneMore.isDone = w.isDone := by
  cases w <;> rfl

end Waited

namespace Multiplexer

variable {σ : Type} {around : Surroundings σ} {mux : Multiplexer σ}

/-- Looking for something to do, without doing it, keeps a property. -/
structure KeptByPolling (around : Surroundings σ) (mux : Multiplexer σ) (I : σ → Prop) : Prop where
  poll : ∀ source ∈ mux.sources, ∀ s, I s → I (source.2.poll s).2
  meanwhile : ∀ s, I s → I (around.meanwhile s)
  idle : ∀ s later, I s → around.idle s = some later → I later

/-- All that happens in a wait keeps a property. -/
structure KeptByWaiting (around : Surroundings σ) (mux : Multiplexer σ) (I : σ → Prop) : Prop
    extends KeptByPolling around mux I where
  dispatch : ∀ source ∈ mux.sources, ∀ s, I s → I (source.2.dispatch s)

/-! ## One round -/

theorem pollAll_kept {I : σ → Prop} (sources : List (Nat × EventSource σ))
    (h : ∀ source ∈ sources, ∀ s, I s → I (source.2.poll s).2) (s : σ) (hs : I s) :
    I (pollAll sources s).2 := by
  induction sources generalizing s with
  | nil => exact hs
  | cons source rest ih =>
    have hrest : ∀ other ∈ rest, ∀ s, I s → I (other.2.poll s).2 := fun other hother =>
      h other (List.mem_cons_of_mem _ hother)
    exact ih hrest _ (h source List.mem_cons_self s hs)

theorem mem_of_mem_pollAll (sources : List (Nat × EventSource σ)) (s : σ)
    (source : Nat × EventSource σ) (h : source ∈ (pollAll sources s).1) : source ∈ sources := by
  induction sources generalizing s with
  | nil => exact h
  | cons first rest ih =>
    rw [pollAll] at h
    by_cases hready : (first.2.poll s).1
    · simp only [hready, ↓reduceIte, List.mem_cons] at h
      rcases h with rfl | h
      · exact List.mem_cons_self
      · exact List.mem_cons_of_mem _ (ih _ h)
    · simp only [hready, Bool.false_eq_true, ↓reduceIte] at h
      exact List.mem_cons_of_mem _ (ih _ h)

theorem dispatchAll_kept {I : σ → Prop} (sources : List (Nat × EventSource σ))
    (h : ∀ source ∈ sources, ∀ s, I s → I (source.2.dispatch s)) (s : σ) (hs : I s) :
    I (dispatchAll sources s) := by
  induction sources generalizing s with
  | nil => exact hs
  | cons source rest ih =>
    have hrest : ∀ other ∈ rest, ∀ s, I s → I (other.2.dispatch s) := fun other hother =>
      h other (List.mem_cons_of_mem _ hother)
    exact ih hrest _ (h source List.mem_cons_self s hs)

/-- A round of polling: the ready sources, and the state that was polled. -/
def round (around : Surroundings σ) (mux : Multiplexer σ) (s : σ) :
    List (Nat × EventSource σ) × σ := pollAll mux.sources (around.meanwhile s)

theorem round_kept {I : σ → Prop} (h : KeptByPolling around mux I) (s : σ) (hs : I s) :
    I (round around mux s).2 :=
  pollAll_kept mux.sources h.poll _ (h.meanwhile s hs)

/-- A wait goes by rounds: it ends with the first that finds something to do. -/
theorem exec_succ (rounds : Nat) (s : σ) (h : mux.sources ≠ []) :
    exec around mux (rounds + 1) s
      = if (round around mux s).1 = [] then
          (around.idle (round around mux s).2).elim (.pending (round around mux s).2)
            (exec around mux rounds)
        else
          .done (round around mux s).1.length
            (dispatchAll (round around mux s).1 (round around mux s).2) := by
  rw [exec, if_neg (by simpa using h), round]
  rcases pollAll mux.sources (around.meanwhile s) with ⟨_ | ⟨first, rest⟩, after⟩
  · rw [if_pos rfl]
    cases hidle : around.idle after <;> simp only [hidle, Option.elim]
  · rfl

/-! ## One wait -/

theorem state_exec {I : σ → Prop} (h : KeptByWaiting around mux I) (rounds : Nat) (s : σ)
    (hs : I s) : I (exec around mux rounds s).state := by
  by_cases hne : mux.sources = []
  -- without sources nothing is polled at all
  · cases rounds with
    | zero => exact hs
    | succ rounds => rw [exec, if_pos (by simp [hne])]; exact hs
  induction rounds generalizing s with
  | zero => exact hs
  | succ rounds ih =>
    have hround := round_kept h.toKeptByPolling s hs
    rw [exec_succ rounds s hne]
    split
    · cases hidle : around.idle (round around mux s).2 with
      | none => exact hround
      | some later => exact ih later (h.idle _ _ hround hidle)
    · refine dispatchAll_kept _ (fun source hsource => ?_) _ hround
      exact h.dispatch source (mem_of_mem_pollAll _ _ _ hsource)

/-- A wait in which nothing got ready has only polled. -/
theorem exec_unfinished {K : σ → Prop} (h : KeptByPolling around mux K) (rounds : Nat) (s : σ)
    (hs : K s) (hend : (exec around mux rounds s).isDone = false) :
    K (exec around mux rounds s).state := by
  by_cases hne : mux.sources = []
  · cases rounds with
    | zero => exact hs
    | succ rounds => rw [exec, if_pos (by simp [hne])]; exact hs
  induction rounds generalizing s with
  | zero => exact hs
  | succ rounds ih =>
    have hround := round_kept h s hs
    rw [exec_succ rounds s hne] at hend ⊢
    split at hend
    · rename_i hready
      rw [if_pos hready]
      cases hidle : around.idle (round around mux s).2 with
      | none => exact hround
      | some later =>
        rw [hidle] at hend
        exact ih later (h.idle _ _ hround hidle) hend
    · simp [Waited.isDone] at hend

/-- Where a source is registered, there is something to wait for. -/
theorem exec_ne_noSources (h : mux.sources ≠ []) (rounds : Nat) (s last : σ) :
    exec around mux rounds s ≠ .noSources last := by
  induction rounds generalizing s with
  | zero => exact nofun
  | succ rounds ih =>
    rw [exec_succ rounds s h]
    split
    · cases around.idle (round around mux s).2 with
      | none => exact nofun
      | some later => exact ih later
    · exact nofun

/-! ## Waiting for an aim -/

section Asking

variable {ask : σ → Bool × σ} {rounds : Nat} {s asked : σ}

theorem runUntilAsked_of_reached (h : ask s = (true, asked)) (rounds : Nat) :
    runUntilAsked around mux ask rounds s = .done 0 asked := by
  cases rounds <;> simp [runUntilAsked, h]

/-- A wait that found something to do is followed by the others. -/
theorem runUntilAsked_of_exec_done {n : Nat} {after : σ} (h : ask s = (false, asked))
    (hexec : exec around mux (rounds + 1) asked = .done n after) :
    runUntilAsked around mux ask (rounds + 1) s =
      (runUntilAsked around mux ask rounds after).afterOneMore := by
  rw [runUntilAsked, h, if_neg Bool.false_ne_true, hexec]
  change (match runUntilAsked around mux ask rounds after with
    | .done n s => Waited.done (n + 1) s
    | other => other) = _
  cases runUntilAsked around mux ask rounds after <;> rfl

/-- A wait that found nothing to do is the last. -/
theorem runUntilAsked_of_exec_unfinished (h : ask s = (false, asked))
    (hexec : (exec around mux (rounds + 1) asked).isDone = false) :
    runUntilAsked around mux ask (rounds + 1) s = exec around mux (rounds + 1) asked := by
  rw [runUntilAsked, h, if_neg Bool.false_ne_true]
  cases hresult : exec around mux (rounds + 1) asked with
  | done n after => rw [hresult] at hexec; simp [Waited.isDone] at hexec
  | noSources after => rfl
  | pending after => rfl

end Asking

theorem runUntil_zero (done : σ → Bool) (s : σ) :
    runUntil around mux done 0 s = if done s then .done 0 s else .pending s := rfl

theorem runUntil_succ (done : σ → Bool) (rounds : Nat) (s : σ) :
    runUntil around mux done (rounds + 1) s =
      if done s then .done 0 s
      else
        match exec around mux (rounds + 1) s with
        | .done _ after =>
          match runUntil around mux done rounds after with
          | .done n last => .done (n + 1) last
          | other => other
        | other => other := rfl

theorem runUntil_of_done (done : σ → Bool) (rounds : Nat) (s : σ) (h : done s = true) :
    runUntil around mux done rounds s = .done 0 s :=
  runUntilAsked_of_reached (by rw [h]) rounds

theorem runUntil_of_exec_done {done : σ → Bool} {rounds n : Nat} {s after : σ}
    (h : done s = false) (hexec : exec around mux (rounds + 1) s = .done n after) :
    runUntil around mux done (rounds + 1) s = (runUntil around mux done rounds after).afterOneMore :=
  runUntilAsked_of_exec_done (by rw [h]) hexec

theorem runUntil_of_exec_unfinished {done : σ → Bool} {rounds : Nat} {s : σ}
    (h : done s = false) (hexec : (exec around mux (rounds + 1) s).isDone = false) :
    runUntil around mux done (rounds + 1) s = exec around mux (rounds + 1) s :=
  runUntilAsked_of_exec_unfinished (by rw [h]) hexec

theorem state_runUntil {I : σ → Prop} (h : KeptByWaiting around mux I) (done : σ → Bool)
    (rounds : Nat) (s : σ) (hs : I s) : I (runUntil around mux done rounds s).state := by
  induction rounds generalizing s with
  | zero =>
    rw [runUntil_zero]
    split <;> exact hs
  | succ rounds ih =>
    cases hdone : done s with
    | true => rw [runUntil_of_done done _ s hdone]; exact hs
    | false =>
      have hexec := state_exec h (rounds + 1) s hs
      cases hresult : exec around mux (rounds + 1) s with
      | done n after =>
        rw [hresult] at hexec
        rw [runUntil_of_exec_done hdone hresult, Waited.state_afterOneMore]
        exact ih after hexec
      | noSources after =>
        rw [runUntil_of_exec_unfinished hdone (by rw [hresult]; rfl)]
        exact hexec
      | pending after =>
        rw [runUntil_of_exec_unfinished hdone (by rw [hresult]; rfl)]
        exact hexec

theorem runUntilAsked_ne_noSources (h : mux.sources ≠ []) (ask : σ → Bool × σ) (rounds : Nat)
    (s last : σ) : runUntilAsked around mux ask rounds s ≠ .noSources last := by
  induction rounds generalizing s with
  | zero =>
    rw [runUntilAsked]
    split <;> exact nofun
  | succ rounds ih =>
    rcases hask : ask s with ⟨_ | _, asked⟩
    · by_cases hexec : (exec around mux (rounds + 1) asked).isDone = false
      · rw [runUntilAsked_of_exec_unfinished hask hexec]
        exact exec_ne_noSources h _ asked last
      · obtain ⟨n, after, hresult⟩ := Waited.exists_of_isDone (by simpa using hexec)
        rw [runUntilAsked_of_exec_done hask hresult]
        intro hnone
        apply ih after
        cases hrest : runUntilAsked around mux ask rounds after with
        | noSources final =>
          rw [hrest] at hnone
          exact hnone
        | done m final =>
          rw [hrest] at hnone
          cases hnone
        | pending final =>
          rw [hrest] at hnone
          cases hnone
    · rw [runUntilAsked_of_reached hask]
      exact nofun

theorem runUntil_ne_noSources (h : mux.sources ≠ []) (done : σ → Bool) (rounds : Nat) (s last : σ) :
    runUntil around mux done rounds s ≠ .noSources last :=
  runUntilAsked_ne_noSources h _ rounds s last

/-- A wait that reaches its aim ends where the aim holds. -/
theorem runUntil_finished (done : σ → Bool) (rounds : Nat) (s : σ)
    (hend : (runUntil around mux done rounds s).isDone = true) :
    done (runUntil around mux done rounds s).state = true := by
  induction rounds generalizing s with
  | zero =>
    rw [runUntil_zero] at hend ⊢
    split at hend
    · rename_i hdone
      rw [if_pos hdone]
      exact hdone
    · simp [Waited.isDone] at hend
  | succ rounds ih =>
    cases hdone : done s with
    | true => rw [runUntil_of_done done _ s hdone]; exact hdone
    | false =>
      by_cases hexec : (exec around mux (rounds + 1) s).isDone = false
      · rw [runUntil_of_exec_unfinished hdone hexec, hexec] at hend
        exact absurd hend (by decide)
      · obtain ⟨n, after, hresult⟩ := Waited.exists_of_isDone (by simpa using hexec)
        rw [runUntil_of_exec_done hdone hresult] at hend ⊢
        rw [Waited.isDone_afterOneMore] at hend
        rw [Waited.state_afterOneMore]
        exact ih after hend

/-- A wait that does not reach its aim ends in a state that was polled after the last look at the
aim. -/
theorem runUntil_unfinished {I K : σ → Prop} (h : KeptByWaiting around mux I)
    (hK : KeptByPolling around mux K) (done : σ → Bool) (hmissed : ∀ s, I s → done s = false → K s)
    (rounds : Nat) (s : σ) (hs : I s) (hend : (runUntil around mux done rounds s).isDone = false) :
    K (runUntil around mux done rounds s).state := by
  induction rounds generalizing s with
  | zero =>
    rw [runUntil_zero] at hend ⊢
    split at hend
    · simp [Waited.isDone] at hend
    · rename_i hdone
      rw [if_neg hdone]
      exact hmissed s hs (by simpa using hdone)
  | succ rounds ih =>
    cases hdone : done s with
    | true => rw [runUntil_of_done done _ s hdone] at hend; simp [Waited.isDone] at hend
    | false =>
      by_cases hexec : (exec around mux (rounds + 1) s).isDone = false
      · rw [runUntil_of_exec_unfinished hdone hexec]
        exact exec_unfinished hK (rounds + 1) s (hmissed s hs hdone) hexec
      · obtain ⟨n, after, hresult⟩ := Waited.exists_of_isDone (by simpa using hexec)
        have hafter : I after := by
          have hkept := state_exec h (rounds + 1) s hs
          rw [hresult] at hkept
          exact hkept
        rw [runUntil_of_exec_done hdone hresult, Waited.isDone_afterOneMore] at hend
        rw [runUntil_of_exec_done hdone hresult, Waited.state_afterOneMore]
        exact ih after hafter hend

/-! ## Waits that come to an end -/

/-- More rounds do not change a wait that has ended. -/
theorem exec_of_le {rounds more n : Nat} {s last : σ} (hle : rounds ≤ more)
    (h : exec around mux rounds s = .done n last) : exec around mux more s = .done n last := by
  induction rounds generalizing s more with
  | zero => simp [exec] at h
  | succ rounds ih =>
    obtain ⟨more, rfl⟩ : ∃ m, more = m + 1 := ⟨more - 1, by omega⟩
    have hne : mux.sources ≠ [] := by
      intro hnil
      simp [exec, hnil] at h
    rw [exec_succ rounds s hne] at h
    rw [exec_succ more s hne]
    split at h
    · rename_i hready
      rw [if_pos hready]
      cases hidle : around.idle (round around mux s).2 with
      | none => rw [hidle] at h; simp at h
      | some later =>
        rw [hidle] at h
        exact ih (by omega) h
    · rename_i hready
      rw [if_neg hready]
      exact h

/-- A wait ends with a round that finds something to do, if every other one comes closer to it. -/
theorem exec_reaches {I : σ → Prop} (age : σ → Nat) (limit : Nat) (hne : mux.sources ≠ [])
    (hidle : ∀ s, I s → (round around mux s).1 = [] →
      ∃ later, around.idle (round around mux s).2 = some later ∧ I later ∧ age s < age later)
    (hlimit : ∀ s, I s → limit ≤ age s → (round around mux s).1 ≠ []) (s : σ) (hs : I s) :
    ∃ rounds n last, I last ∧ age s ≤ age last ∧ (round around mux last).1 ≠ [] ∧
      exec around mux rounds s
        = .done n (dispatchAll (round around mux last).1 (round around mux last).2) := by
  -- by what is left until the limit, which every idle round brings nearer
  generalize hleft : limit - age s = left
  induction left using Nat.strongRecOn generalizing s with
  | _ left ih =>
    by_cases hready : (round around mux s).1 = []
    · obtain ⟨later, hlater, hI, hage⟩ := hidle s hs hready
      have hbefore : age s < limit := Nat.lt_of_not_ge fun hle => hlimit s hs hle hready
      obtain ⟨rounds, n, last, hlast, hle, hround, hexec⟩ :=
        ih (limit - age later) (by omega) later hI rfl
      refine ⟨rounds + 1, n, last, hlast, by omega, hround, ?_⟩
      rw [exec_succ rounds s hne, if_pos hready, hlater]
      exact hexec
    · refine ⟨1, (round around mux s).1.length, s, hs, Nat.le_refl _, hready, ?_⟩
      rw [exec_succ 0 s hne, if_neg hready]

/-- From some bound on, a wait for an aim reaches it. -/
def Settles (around : Surroundings σ) (mux : Multiplexer σ) (done : σ → Bool) (s : σ) : Prop :=
  ∃ rounds n last, runUntil around mux done rounds s = .done n last

theorem settles_of_done {done : σ → Bool} {s : σ} (h : done s = true) :
    Settles around mux done s := ⟨0, 0, s, runUntil_of_done done 0 s h⟩

/-- More rounds do not change a wait that has reached its aim. -/
theorem runUntilAsked_of_le {ask : σ → Bool × σ} {rounds more n : Nat} {s last : σ}
    (hle : rounds ≤ more) (h : runUntilAsked around mux ask rounds s = .done n last) :
    runUntilAsked around mux ask more s = .done n last := by
  induction rounds generalizing s more n last with
  | zero =>
    rcases hask : ask s with ⟨_ | _, asked⟩
    · simp [runUntilAsked, hask] at h
    · rw [runUntilAsked_of_reached hask] at h ⊢
      exact h
  | succ rounds ih =>
    obtain ⟨more, rfl⟩ : ∃ m, more = m + 1 := ⟨more - 1, by omega⟩
    rcases hask : ask s with ⟨_ | _, asked⟩
    · by_cases hexec : (exec around mux (rounds + 1) asked).isDone = false
      · rw [runUntilAsked_of_exec_unfinished hask hexec] at h
        rw [h] at hexec
        simp [Waited.isDone] at hexec
      · obtain ⟨k, after, hresult⟩ := Waited.exists_of_isDone (by simpa using hexec)
        rw [runUntilAsked_of_exec_done hask hresult] at h
        rw [runUntilAsked_of_exec_done hask (exec_of_le (by omega) hresult)]
        cases hrest : runUntilAsked around mux ask rounds after with
        | done m final =>
          rw [hrest] at h
          rw [ih (by omega) hrest]
          exact h
        | noSources final => rw [hrest] at h; simp [Waited.afterOneMore] at h
        | pending final => rw [hrest] at h; simp [Waited.afterOneMore] at h
    · rw [runUntilAsked_of_reached hask] at h ⊢
      exact h

theorem runUntil_of_le {done : σ → Bool} {rounds more n : Nat} {s last : σ} (hle : rounds ≤ more)
    (h : runUntil around mux done rounds s = .done n last) :
    runUntil around mux done more s = .done n last :=
  runUntilAsked_of_le hle h

/-- Nor a wait that found no sources. -/
theorem runUntil_noSources_of_le {done : σ → Bool} {rounds more : Nat} {s last : σ}
    (hle : rounds ≤ more) (h : runUntil around mux done rounds s = .noSources last) :
    runUntil around mux done more s = .noSources last := by
  have hnone : mux.sources = [] := by
    apply Classical.byContradiction
    intro hsources
    exact runUntil_ne_noSources hsources done rounds s last h
  -- without sources the first round is the last
  have hexec (n : Nat) : exec around mux (n + 1) s = .noSources s := by
    rw [exec, if_pos (by simp [hnone])]
  cases rounds with
  | zero =>
    rw [runUntil_zero] at h
    split at h <;> cases h
  | succ rounds =>
    obtain ⟨more, rfl⟩ : ∃ m, more = m + 1 := ⟨more - 1, by omega⟩
    rw [runUntil_succ, hexec] at h ⊢
    exact h

theorem settles_of_exec {done : σ → Bool} {rounds n : Nat} {s next : σ}
    (hexec : exec around mux rounds s = .done n next) (h : Settles around mux done next) :
    Settles around mux done s := by
  cases hdone : done s with
  | true => exact settles_of_done hdone
  | false =>
    obtain ⟨bound, m, last, hrest⟩ := h
    -- one bound has to serve the first wait and those after it
    have hexec' := exec_of_le (show rounds ≤ max rounds bound + 1 by omega) hexec
    refine ⟨max rounds bound + 1, m + 1, last, ?_⟩
    rw [runUntil_of_exec_done hdone hexec', runUntil_of_le (by omega) hrest]
    rfl

/-- A wait for an aim reaches it, if each wait on the way comes closer to it. -/
theorem settles_of_progress {done : σ → Bool} {I : σ → Prop} (age : σ → Nat) (limit : Nat)
    (hstep : ∀ s, I s → done s = false → ∃ rounds n next, exec around mux rounds s = .done n next ∧
      (Settles around mux done next ∨ I next ∧ age s < age next))
    (hlimit : ∀ s, I s → limit ≤ age s → Settles around mux done s) (s : σ) (hs : I s) :
    Settles around mux done s := by
  -- a wait that does not settle the matter leaves an older state, and from the limit on all do
  generalize hleft : limit - age s = left
  induction left using Nat.strongRecOn generalizing s with
  | _ left ih =>
    cases hdone : done s with
    | true => exact settles_of_done hdone
    | false =>
      by_cases hage : limit ≤ age s
      · exact hlimit s hs hage
      · obtain ⟨rounds, n, next, hexec, hnext | ⟨hI, hlater⟩⟩ := hstep s hs hdone
        · exact settles_of_exec hexec hnext
        · exact settles_of_exec hexec (ih (limit - age next) (by omega) next hI rfl)

end Multiplexer

end Offload
