import Offload.Proofs.Connection.Books
import Offload.Proofs.Talk
import Offload.Scenario.Channel
import Offload.Scenario.Recorder

/-!
# What a connection sends

Every frame that is taken from a conversation is accepted by the channel, in order and once, but for
the one in hand (`Books.Accounts`), until the channel fails; then at most the frame in hand is lost
and nothing more is taken or sent. The conversation of a connection that is heard promptly is told of
a flush only when all that was taken from it has been flushed (`Books.AllFlushed`). Main statement:
`Connection.outbound_accounted`.
-/

namespace Offload

open Relation

/-! ## Accounts -/

namespace ChannelCall

/-- The frames that the channel accepted. -/
def sentIn (calls : List ChannelCall) : List Frame := calls.filterMap sent?

theorem sentIn_append (calls : List ChannelCall) (call : ChannelCall) :
    sentIn (calls ++ [call]) = sentIn calls ++ call.sent?.toList := by
  rw [sentIn, List.filterMap_append, sentIn]
  cases call <;> rfl

theorem sent?_of_writeFailure {call : ChannelCall} {error : TransportError}
    (h : call.writeFailure? = some error) : call.sent? = none := by
  cases call with
  | accepted frame => cases h
  | asked | refused | flushed | read | shut => rfl

theorem fails_of_writeFailure {call : ChannelCall} {error : TransportError}
    (h : call.writeFailure? = some error) : call.fails = true := by
  rw [fails, h]
  rfl

theorem fails_read (items : List Arrival) : (read items).fails = items.any Arrival.isError := rfl

theorem fails_read_of_goes_on {items : List Arrival} (h : ∀ item ∈ items, item.ends = false) :
    (read items).fails = false := by
  rw [fails_read, List.any_eq_false]
  intro item hitem herror
  have hends := Arrival.ends_of_isError herror
  rw [h item hitem] at hends
  cases hends

end ChannelCall

namespace Books

open ChannelCall

/-- Each frame that was taken was accepted or is in hand, unless the channel failed: then the last
one that was taken may be lost. -/
structure Accounts (b : Books) : Prop where
  sound : (∀ call ∈ b.calls, call.fails = false) → sentIn b.calls ++ b.held.toList = b.taken
  failed : (∃ call ∈ b.calls, call.fails = true) → b.closed = true ∧ b.held = none ∧
    ∃ lost : List Frame, lost.length ≤ 1 ∧ sentIn b.calls ++ lost = b.taken

namespace Accounts

variable {b : Books}

theorem of_sound (hcalls : ∀ call ∈ b.calls, call.fails = false)
    (hsent : sentIn b.calls ++ b.held.toList = b.taken) : b.Accounts where
  sound _ := hsent
  failed := fun ⟨call, hcall, hfails⟩ => by
    rw [hcalls call hcall] at hfails
    cases hfails

/-- A connection that is open has seen no failure. -/
theorem of_open (h : b.Accounts) (hopen : b.closed = false) :
    (∀ call ∈ b.calls, call.fails = false) ∧ sentIn b.calls ++ b.held.toList = b.taken := by
  have hcalls : ∀ call ∈ b.calls, call.fails = false := by
    intro call hcall
    cases hfails : call.fails with
    | false => rfl
    | true =>
      rw [(h.failed ⟨call, hcall, hfails⟩).1] at hopen
      cases hopen
  exact ⟨hcalls, h.sound hcalls⟩

/-- A call that does not fail moves a frame out of the hand at most. -/
theorem of_call {b' : Books} {call : ChannelCall} (h : b.Accounts) (hopen : b.closed = false)
    (hcall : call.fails = false) (hcalls : b'.calls = b.calls ++ [call])
    (hmoved : call.sent?.toList ++ b'.held.toList = b.held.toList) (htaken : b'.taken = b.taken) :
    b'.Accounts := by
  obtain ⟨hnone, hsent⟩ := h.of_open hopen
  refine of_sound ?_ ?_
  · rw [hcalls]
    exact List.forall_mem_append.2 ⟨hnone, List.forall_mem_singleton.2 hcall⟩
  · rw [hcalls, sentIn_append, List.append_assoc, hmoved, hsent, htaken]

/-- A call that fails loses the frame in hand. -/
theorem of_failure {b' : Books} {call : ChannelCall} (h : b.Accounts) (hopen : b.closed = false)
    (hcall : call.fails = true) (hunsent : call.sent? = none)
    (hcalls : b'.calls = b.calls ++ [call]) (hclosed : b'.closed = true) (hhand : b'.held = none)
    (htaken : b'.taken = b.taken) : b'.Accounts := by
  obtain ⟨-, hsent⟩ := h.of_open hopen
  have hlast : call ∈ b'.calls := by
    rw [hcalls]
    exact List.mem_append_right _ (List.mem_singleton_self call)
  refine ⟨fun hnone => ?_, fun _ => ⟨hclosed, hhand, b.held.toList, ?_, ?_⟩⟩
  · rw [hnone call hlast] at hcall
    cases hcall
  · cases b.held <;> simp
  · rw [hcalls, sentIn_append, hunsent, htaken, ← hsent, Option.toList_none, List.append_nil]

theorem entry {b' : Books} {prompt : Prop} (h : b.Accounts) (hentry : Entry prompt b b') :
    b'.Accounts := by
  cases hentry with
  | takes frame hopen hhand =>
    obtain ⟨hnone, hsent⟩ := h.of_open hopen
    refine of_sound hnone ?_
    rw [← hsent, hhand, Option.toList_none, List.append_nil]
    rfl
  | waits call hopen hcall =>
    rcases hcall with rfl | rfl | rfl <;> exact h.of_call hopen rfl rfl rfl rfl
  | sends frame hopen hhand => exact h.of_call hopen rfl rfl (by rw [hhand]; rfl) rfl
  | flushes hopen => exact h.of_call hopen rfl rfl rfl rfl
  | fails call error hopen hcall =>
    exact h.of_failure hopen (fails_of_writeFailure hcall) (sent?_of_writeFailure hcall) rfl rfl rfl
      rfl
  | reads items hopen hitems =>
    exact h.of_call hopen (fails_read_of_goes_on hitems) rfl rfl rfl
  | ends items last hopen hitems hlast =>
    have hfails : (read (items ++ [last])).fails = last.isError := by
      rw [fails_read, List.any_append, ← fails_read, fails_read_of_goes_on hitems]
      simp
    cases herror : last.isError with
    | true => exact h.of_failure hopen (hfails.trans herror) rfl rfl rfl rfl rfl
    | false => exact h.of_call hopen (hfails.trans herror) rfl rfl rfl
  | tells => exact ⟨h.sound, h.failed⟩

theorem fresh : (Books.mk [] [] [] [] none false).Accounts := of_sound (by simp) rfl

end Accounts

/-- All that was taken was accepted before a flush that succeeded. -/
structure AllFlushed (b : Books) : Prop where
  held : b.held = none
  flushed : ∃ before after, b.calls = before ++ .flushed .ready :: after ∧
    sentIn before = b.taken

namespace AllFlushed

variable {b b' : Books}

/-- Later calls make no difference as long as no frame is taken. -/
theorem of_calls (h : b.AllFlushed) {calls : List ChannelCall}
    (hcalls : b'.calls = b.calls ++ calls) (hhand : b'.held = none) (htaken : b'.taken = b.taken) :
    b'.AllFlushed := by
  obtain ⟨before, after, hbefore, hsent⟩ := h.flushed
  refine ⟨hhand, before, after ++ calls, ?_, htaken ▸ hsent⟩
  rw [hcalls, hbefore, List.append_assoc, List.cons_append]

theorem mem_of_flushed {events : List ConnectionEvent} {items : List Arrival}
    (h : .flushed ∈ events ++ items.map Arrival.event) : .flushed ∈ events := by
  refine (List.mem_append.1 h).resolve_right fun hitems => ?_
  obtain ⟨item, -, hevent⟩ := List.mem_map.1 hitems
  exact item.event_ne_flushed hevent

/-- A flush that is still to be told covers all that was taken. -/
theorem entry (haccounts : b.Accounts) (h : .flushed ∈ b.events → b.AllFlushed)
    (hentry : Entry True b b') (hflushed : .flushed ∈ b'.events) : b'.AllFlushed := by
  cases hentry with
  | takes frame hopen hhand hprompt => exact absurd hflushed (hprompt trivial)
  | waits call hopen hcall => exact (h hflushed).of_calls rfl (h hflushed).held rfl
  | sends frame hopen hhand =>
    -- there is no frame in hand while a flush is to be told
    rw [(h hflushed).held] at hhand
    cases hhand
  | flushes hopen =>
    cases hhand : b.held with
    | none =>
      refine ⟨rfl, b.calls, [], rfl, ?_⟩
      have hsent := (haccounts.of_open hopen).2
      rw [hhand] at hsent
      exact (List.append_nil _).symm.trans hsent
    | some frame =>
      simp only [hhand, Option.isNone_some] at hflushed
      rw [(h hflushed).held] at hhand
      cases hhand
  | fails call error hopen hcall =>
    have hearlier : .flushed ∈ b.events := by simpa using hflushed
    exact (h hearlier).of_calls rfl rfl rfl
  | reads items hopen hitems =>
    have hall := h (mem_of_flushed hflushed)
    exact hall.of_calls rfl hall.held rfl
  | ends items last hopen hitems hlast =>
    have hall := h (mem_of_flushed hflushed)
    refine hall.of_calls rfl ?_ rfl
    rw [hall.held]
    exact ite_self none
  | tells => cases hflushed

end AllFlushed

end Books

namespace Connection

variable {κ π : Type} [Channel κ] [Conversation π]

/-! ## Runs -/

theorem accounts_recorded (channel : κ) (conversation : π) (ops : List (ConnectionOp κ π)) :
    (recorded channel conversation ops).books.Accounts := by
  have hentries := entries_recorded channel conversation ops False.elim
  exact Entry.run (fun _ _ hentry h => h.entry hentry) hentries .fresh

/-- If every report is heard promptly, a flush that is still to be told covers all that was taken. -/
theorem allFlushed_recorded (channel : κ) (conversation : π) (ops : List (ConnectionOp κ π))
    (hprompt : (ofChannel channel conversation).Prompt false ops)
    (hflushed : .flushed ∈ (recorded channel conversation ops).events) :
    (recorded channel conversation ops).books.AllFlushed := by
  have hstep : ∀ b b' : Books, Entry True b b' →
      b.Accounts ∧ (.flushed ∈ b.events → b.AllFlushed) →
      b'.Accounts ∧ (.flushed ∈ b'.events → b'.AllFlushed) :=
    fun _ _ hentry h => ⟨h.1.entry hentry, .entry h.1 h.2 hentry⟩
  have hentries := entries_recorded channel conversation ops fun _ : True => hprompt
  exact (Entry.run hstep hentries ⟨.fresh, fun hnone => absurd hnone List.not_mem_nil⟩).2 hflushed

/-- Polling tells nothing. -/
theorem told_poll (c : Connection (Recorded κ) (Observed π)) :
    c.poll.2.conversation.told = c.conversation.told := by
  rcases conversation_poll c with h | ⟨frames, h⟩
  · rw [h]
  · rw [h]
    rfl

/-- An operation tells nothing that was not waiting to be told. -/
theorem told_perform (c : Connection (Recorded κ) (Observed π)) (op : ConnectionOp κ π) :
    ∃ new, (c.perform op.onRecords).conversation.told = c.conversation.told ++ new ∧
      ∀ event ∈ new, event ∈ c.events := by
  cases op with
  | polled => exact ⟨[], by rw [List.append_nil]; exact told_poll c, by simp⟩
  | dispatched =>
    refine ⟨c.events, ?_, fun _ h => h⟩
    exact congrArg Observed.told (Observed.foldl_tell c.events c.conversation)
  | changed channel conversation => exact ⟨[], (List.append_nil _).symm, by simp⟩

/-- In every run of a connection, the frames that the channel accepted and the one in hand are those
that were taken from the conversation, in order and once each, as long as the channel does not fail.
When it has failed, at most the last frame that was taken is lost, and nothing more is taken or done
on the channel. If every report is heard before the next poll, the conversation is told of a flush
only when no frame is in hand and all that was taken from it was accepted before a flush that
succeeded. -/
theorem outbound_accounted (channel : κ) (conversation : π) (ops : List (ConnectionOp κ π)) :
    let calls := callsOf channel conversation ops
    let taken := takenOf channel conversation ops
    let held := ((ofChannel channel conversation).performAll ops).held
    ((∀ call ∈ calls, call.fails = false) → ChannelCall.sentIn calls ++ held.toList = taken) ∧
    ((∃ call ∈ calls, call.fails = true) → held = none ∧
      (∃ lost : List Frame, lost.length ≤ 1 ∧ ChannelCall.sentIn calls ++ lost = taken) ∧
      ∀ more, callsOf channel conversation (ops ++ more) = calls ∧
        takenOf channel conversation (ops ++ more) = taken) ∧
    ((ofChannel channel conversation).Prompt false ops →
      ∀ before op after, ops = before ++ op :: after →
        ∃ new, toldOf channel conversation (before ++ [op])
            = toldOf channel conversation before ++ new ∧
          (.flushed ∈ new → ((ofChannel channel conversation).performAll before).held = none ∧
            ∃ earlier later,
              callsOf channel conversation before = earlier ++ .flushed .ready :: later ∧
              ChannelCall.sentIn earlier = takenOf channel conversation before)) := by
  have haccounts := accounts_recorded channel conversation ops
  intro calls taken held
  have hheld : held = (recorded channel conversation ops).held :=
    congrArg Connection.held (forget_recorded channel conversation ops).symm
  rw [hheld]
  refine ⟨haccounts.sound, fun hfailed => ?_, ?_⟩
  · obtain ⟨hclosed, hhand, hlost⟩ := haccounts.failed hfailed
    refine ⟨hhand, hlost, fun more => ?_⟩
    have hmore := entries_performAll (recorded channel conversation ops) false more False.elim
      False.elim
    rw [← recorded_append] at hmore
    obtain ⟨-, hcalls, htaken, -⟩ := Entry.run_of_closed hmore hclosed
    exact ⟨hcalls, htaken⟩
  · rintro hprompt before op after rfl
    obtain ⟨new, htold, hnew⟩ := told_perform (recorded channel conversation before) op
    refine ⟨new, ?_, fun hflushed => ?_⟩
    · rw [toldOf, recorded_append]
      exact htold
    · obtain ⟨hhand, hcovered⟩ := allFlushed_recorded channel conversation before
        hprompt.of_append (hnew _ hflushed)
      rw [← forget_recorded]
      exact ⟨hhand, hcovered⟩

/-- The first frame waits for the channel and is flushed with the second; the channel is gone when
the third is in hand. -/
theorem outbound_accounted_interrupted :
    let channel := Scenario.Script.ofReplies [] []
    let first : List (ConnectionOp Scenario.Script Scenario.Recorder) :=
      [.changed (fun s => { s with ready := .pending })
          fun r => (r.queue (.text "a")).queue (.text "b"),
        .polled]
    let second : List (ConnectionOp Scenario.Script Scenario.Recorder) :=
      first ++ [.changed (fun s => { s with ready := .ready }) id, .polled]
    let third : List (ConnectionOp Scenario.Script Scenario.Recorder) :=
      second ++ .dispatched :: [.changed (fun s => { s with ready := .pending })
          fun r => r.queue (.text "c"),
        .polled, .changed (fun s => { s with vanished := true }) id, .polled]
    ChannelCall.sentIn (callsOf channel .empty first) ++ [.text "a"] = [.text "a"] ∧
      (ofChannel channel Scenario.Recorder.empty).Prompt false third ∧
      (∃ earlier later, callsOf channel .empty second = earlier ++ .flushed .ready :: later ∧
        ChannelCall.sentIn earlier = [.text "a", .text "b"]) ∧
      (∃ call ∈ callsOf channel .empty third, call.fails = true) ∧
      ∃ lost : List Frame, lost.length ≤ 1 ∧
        ChannelCall.sentIn (callsOf channel .empty third) ++ lost
          = [.text "a", .text "b", .text "c"] := by
  intro channel first second third
  have hwaits := (outbound_accounted channel Scenario.Recorder.empty first).1 (by decide +kernel)
  have hprompt : (ofChannel channel Scenario.Recorder.empty).Prompt false third := by
    decide +kernel
  have hfails : ∃ call ∈ callsOf channel .empty third, call.fails = true := by decide +kernel
  obtain ⟨-, hlost, hflush⟩ := outbound_accounted channel Scenario.Recorder.empty third
  obtain ⟨new, htold, hcovered⟩ := hflush hprompt second .dispatched _ rfl
  have hnothing : toldOf channel Scenario.Recorder.empty second = [] := by decide +kernel
  have hflushed : toldOf channel Scenario.Recorder.empty (second ++ [.dispatched]) = [.flushed] := by
    decide +kernel
  rw [hnothing, hflushed, List.nil_append] at htold
  have hearlier := (hcovered (htold ▸ List.mem_singleton_self _)).2
  have hheld : ((ofChannel channel Scenario.Recorder.empty).performAll first).held
      = some (.text "a") := by decide +kernel
  have hfirst : takenOf channel Scenario.Recorder.empty first = [.text "a"] := by decide +kernel
  have hsecond : takenOf channel Scenario.Recorder.empty second = [.text "a", .text "b"] := by
    decide +kernel
  have hthird : takenOf channel Scenario.Recorder.empty third
      = [.text "a", .text "b", .text "c"] := by decide +kernel
  rw [hheld, hfirst] at hwaits
  rw [hsecond] at hearlier
  rw [hthird] at hlost
  exact ⟨hwaits, hprompt, hearlier, hfails, (hlost hfails).2.1⟩

end Connection

end Offload
