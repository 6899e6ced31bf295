import Offload.Proofs.Connection.Inbound
import Offload.Proofs.Connection.Outbound
import Mathlib.Data.List.TakeWhile

/-!
# What a peer answered before it was gone

A poll writes before it reads. If a frame cannot be written or flushed, the connection is closed at
once and nothing is read any more, so that answers which have arrived are never told of. A run keeps
all answers exactly if no poll in it fails to write while there is one (`Connection.keepsAnswers_iff`).
-/

namespace Offload

theorem Arrival.map_event_of_goes_on {items : List Arrival} (h : ∀ item ∈ items, item.ends = false) :
    items.map Arrival.event = (items.filterMap Arrival.message?).map .frame := by
  induction items with
  | nil => rfl
  | cons item rest ih =>
    obtain ⟨hitem, hrest⟩ := List.forall_mem_cons.1 h
    have hrest := ih hrest
    rcases item with ⟨text | data | reason⟩ | e | _
    · exact congrArg (List.cons (.frame (.text text))) hrest
    · exact congrArg (List.cons (.frame (.binary data))) hrest
    · cases hitem
    · cases hitem
    · cases hitem

namespace Connection

variable {κ π : Type} [Channel κ] [Conversation π] {c : Connection κ π}

/-! ## Answers -/

/-- The frames that have arrived when a poll has written, up to what ends the connection. -/
def answers (c : Connection κ π) : List Frame :=
  ((Channel.readable c.write.flush.channel).takeWhile fun item => !item.ends).filterMap
    Arrival.message?

/-- Reading tells of the frames up to what ends the connection, and then of that. -/
theorem fst_readEvents (items : List Arrival) : (readEvents items).1
    = ((items.takeWhile fun item => !item.ends).filterMap Arrival.message?).map .frame
      ++ (items.find? Arrival.ends).toList.map Arrival.event := by
  have hscript : (readEvents items).1 = scriptEvents items := by
    induction items with
    | nil => rfl
    | cons item rest ih =>
      cases hends : item.ends with
      | true =>
        rw [readEvents_of_ends hends, scriptEvents, List.takeWhile_cons_of_neg (by simp [hends]),
          List.find?_cons_of_pos hends]
        rfl
      | false =>
        rw [readEvents_of_goes_on hends, scriptEvents,
          List.takeWhile_cons_of_pos (by simp [hends]), List.find?_cons_of_neg (by simp [hends]),
          List.cons_append, List.map_cons, ih]
        rfl
  rw [hscript, scriptEvents, List.map_append, Arrival.map_event_of_goes_on]
  intro item hitem
  simpa using List.mem_takeWhile_imp hitem

/-! ## Polls -/

theorem write_cases (hopen : c.closed = false) :
    c.write.closed = false ∧ c.write.events = c.events ∨
      c.write.closed = true ∧ ∃ reason, c.write.events = c.events ++ [.closed reason] := by
  rw [write]
  generalize writeFrames c.channel c.unflushed (c.held.toList ++ Conversation.outbox c.conversation)
    = w
  obtain ⟨channel, held, rest, accepted, _ | e⟩ := w
  · exact .inl ⟨hopen, rfl⟩
  · exact .inr ⟨rfl, e.text, rfl⟩

omit [Conversation π] in
theorem flush_of_closed (hclosed : c.closed = true) : c.flush = c := by
  rw [flush, hclosed]
  rfl

omit [Conversation π] in
theorem flush_cases (hopen : c.closed = false) :
    (c.flush.closed = false ∧ ∃ flushes, c.flush.events = c.events ++ flushes ∧
        ∀ event ∈ flushes, event.isClosed = false) ∨
      c.flush.closed = true ∧ ∃ reason, c.flush.events = c.events ++ [.closed reason] := by
  have hnothing : c.events = c.events ++ [] := (List.append_nil _).symm
  rw [flush]
  split
  · exact .inl ⟨hopen, [], hnothing, by simp⟩
  · rcases Channel.pollFlush c.channel with ⟨_ | _ | e, channel⟩
    · cases hhand : c.held with
      | none => exact .inl ⟨hopen, [.flushed], rfl, by simp [ConnectionEvent.isClosed]⟩
      | some frame => exact .inl ⟨hopen, [], hnothing, by simp⟩
    · exact .inl ⟨hopen, [], hnothing, by simp⟩
    · exact .inr ⟨rfl, e.text, rfl⟩

/-- Writing and flushing leaves the connection open, or closes it and tells of nothing but that. -/
theorem write_flush_cases (hopen : c.closed = false) :
    (c.write.flush.closed = false ∧ ∃ flushes, c.write.flush.events = c.events ++ flushes ∧
        ∀ event ∈ flushes, event.isClosed = false) ∨
      c.write.flush.closed = true ∧
        ∃ reason, c.write.flush.events = c.events ++ [.closed reason] := by
  obtain ⟨hwritten, hevents⟩ | ⟨hclosed, hreason⟩ := write_cases hopen
  · rw [← hevents]
    exact flush_cases hwritten
  · rw [flush_of_closed hclosed]
    exact .inr ⟨hclosed, hreason⟩

theorem poll_of_open (hopen : c.closed = false) : c.poll.2 = c.write.flush.read := by
  show (if c.closed then c else c.write).flush.read = _
  rw [hopen]
  rfl

omit [Conversation π] in
theorem read_of_closed (hclosed : c.closed = true) : c.read = c := by
  rw [read, hclosed]
  rfl

/-- A poll that fails to write reads nothing. -/
theorem poll_of_failure (hopen : c.closed = false) (hfailed : c.write.flush.closed = true) :
    c.poll.2.closed = true ∧ ∃ reason, c.poll.2.events = c.events ++ [.closed reason] := by
  rw [poll_of_open hopen, read_of_closed hfailed]
  obtain ⟨hwritten, -⟩ | hcase := write_flush_cases hopen
  · rw [hwritten] at hfailed
    cases hfailed
  · exact hcase

/-- A poll that does not fail to write tells of all answers, before it tells of the end. -/
theorem poll_of_written (hopen : c.closed = false) (hwritten : c.write.flush.closed = false) :
    ∃ flushes ending, c.poll.2.events = c.events ++ flushes ++ c.answers.map .frame ++ ending ∧
      ∀ event ∈ flushes, event.isClosed = false := by
  obtain ⟨-, flushes, hevents, hflushes⟩ | ⟨hfailed, -⟩ := write_flush_cases hopen
  · let ending := ((Channel.readable c.write.flush.channel).find? Arrival.ends).toList
    refine ⟨flushes, ending.map Arrival.event, ?_, hflushes⟩
    have hread : c.write.flush.read.events
        = c.write.flush.events ++ (readEvents (Channel.readable c.write.flush.channel)).1 := by
      rw [read, hwritten]
      rfl
    rw [poll_of_open hopen, hread, hevents, fst_readEvents, ← List.append_assoc]
    rfl
  · rw [hwritten] at hfailed
    cases hfailed

/-! ## Until the conversation is told -/

/-- What is to be told waits for the next dispatch, and nothing is added once the connection is
closed. -/
theorem events_performAll {ops : List (ConnectionOp κ π)} (hops : ∀ op ∈ ops, op ≠ .dispatched) :
    ∃ later, (c.performAll ops).events = c.events ++ later ∧ (c.closed = true → later = []) := by
  induction ops generalizing c with
  | nil => exact ⟨[], (List.append_nil _).symm, fun _ => rfl⟩
  | cons op rest ih =>
    obtain ⟨hop, hrest⟩ := List.forall_mem_cons.1 hops
    have hstep : ∃ new, (c.perform op).events = c.events ++ new ∧
        (c.closed = true → new = [] ∧ (c.perform op).closed = true) := by
      cases op with
      | polled =>
        cases hclosed : c.closed with
        | true =>
          have hpoll : c.poll.2 = c := by
            show (if c.closed then c else c.write).flush.read = c
            rw [hclosed, if_pos rfl, flush_of_closed hclosed, read_of_closed hclosed]
          refine ⟨[], ?_, fun _ => ⟨rfl, ?_⟩⟩
          · rw [perform, hpoll, List.append_nil]
          · rw [perform, hpoll]
            exact hclosed
        | false =>
          cases hwritten : c.write.flush.closed with
          | true =>
            obtain ⟨-, reason, hevents⟩ := poll_of_failure hclosed hwritten
            exact ⟨_, hevents, Bool.noConfusion⟩
          | false =>
            obtain ⟨flushes, ending, hevents, -⟩ := poll_of_written hclosed hwritten
            rw [List.append_assoc, List.append_assoc] at hevents
            exact ⟨_, hevents, Bool.noConfusion⟩
      | dispatched => exact absurd rfl hop
      | changed channel conversation => exact ⟨[], (List.append_nil _).symm, fun h => ⟨rfl, h⟩⟩
    obtain ⟨new, hnew, hclosed⟩ := hstep
    obtain ⟨later, hlater, hdone⟩ := ih (c := c.perform op) hrest
    refine ⟨new ++ later, ?_, fun h => ?_⟩
    · rw [← List.append_assoc, ← hnew]
      exact hlater
    · obtain ⟨rfl, hstill⟩ := hclosed h
      exact hdone hstill

theorem toldOf_dispatched (channel : κ) (conversation : π) (ops : List (ConnectionOp κ π)) :
    toldOf channel conversation (ops ++ [.dispatched]) = toldOf channel conversation ops
      ++ ((ofChannel channel conversation).performAll ops).events := by
  rw [toldOf, recorded_append, ← forget_recorded]
  exact congrArg Observed.told (Observed.foldl_tell _ _)

theorem toldOf_append (channel : κ) (conversation : π) (ops : List (ConnectionOp κ π))
    {more : List (ConnectionOp κ π)} (hmore : ∀ op ∈ more, op ≠ .dispatched) :
    toldOf channel conversation (ops ++ more) = toldOf channel conversation ops := by
  have hrun : ∀ c : Connection (Recorded κ) (Observed π),
      (c.performAll (more.map .onRecords)).conversation.told = c.conversation.told := by
    induction more with
    | nil => exact fun c => rfl
    | cons op rest ih =>
      obtain ⟨hop, hrest⟩ := List.forall_mem_cons.1 hmore
      intro c
      refine (ih hrest (c.perform op.onRecords)).trans ?_
      cases op with
      | polled => exact told_poll c
      | dispatched => exact absurd rfl hop
      | changed channel conversation => rfl
  rw [toldOf, recorded_append]
  exact hrun _

/-- What the conversation has been told when it is dispatched for the first time after a poll. -/
theorem toldOf_poll (channel : κ) (conversation : π) (before : List (ConnectionOp κ π))
    {between : List (ConnectionOp κ π)} (hbetween : ∀ op ∈ between, op ≠ .dispatched) :
    ∃ later, toldOf channel conversation (before ++ .polled :: between ++ [.dispatched])
        = toldOf channel conversation before
          ++ (((ofChannel channel conversation).performAll before).poll.2.events ++ later) ∧
      (((ofChannel channel conversation).performAll before).poll.2.closed = true → later = []) := by
  have hmore : ∀ op ∈ ConnectionOp.polled :: between, op ≠ .dispatched :=
    List.forall_mem_cons.2 ⟨nofun, hbetween⟩
  obtain ⟨later, hevents, hdone⟩ := events_performAll
    (c := ((ofChannel channel conversation).performAll before).poll.2) hbetween
  refine ⟨later, ?_, hdone⟩
  rw [toldOf_dispatched, toldOf_append channel conversation before hmore, performAll_append,
    ← hevents]
  rfl

/-! ## The promise -/

/-- Whenever an open connection is polled, the conversation is told of all answers by the next
dispatch: first of what was waiting to be told, then of the answers, and of the end not before
these. -/
def KeepsAnswers (channel : κ) (conversation : π) (ops : List (ConnectionOp κ π)) : Prop :=
  ∀ before between after, ops = before ++ .polled :: between ++ .dispatched :: after →
    (∀ op ∈ between, op ≠ .dispatched) →
    let c := (ofChannel channel conversation).performAll before
    c.closed = false →
    ∃ earlier later, toldOf channel conversation (before ++ .polled :: between ++ [.dispatched])
        = toldOf channel conversation before ++ c.events ++ earlier ++ c.answers.map .frame
          ++ later ∧
      ∀ event ∈ c.events ++ earlier, event.isClosed = false

/-- While a connection is open, nothing that is to be told is the end. -/
theorem events_of_open (channel : κ) (conversation : π) (ops : List (ConnectionOp κ π))
    (hopen : ((ofChannel channel conversation).performAll ops).closed = false) :
    ∀ event ∈ ((ofChannel channel conversation).performAll ops).events,
      event.isClosed = false := by
  rw [← forget_recorded] at hopen ⊢
  intro event hevent
  exact (heard_recorded channel conversation ops).events_of_open hopen event
    (List.mem_append_right _ hevent)

/-- A run keeps all answers exactly if whenever it polls an open connection and something cannot be
written or flushed, there is no answer to be read. -/
theorem keepsAnswers_iff (channel : κ) (conversation : π) (ops : List (ConnectionOp κ π)) :
    KeepsAnswers channel conversation ops ↔
      ∀ before between after, ops = before ++ .polled :: between ++ .dispatched :: after →
        (∀ op ∈ between, op ≠ .dispatched) →
        let c := (ofChannel channel conversation).performAll before
        c.closed = false → c.write.flush.closed = true → c.answers = [] := by
  constructor
  · intro hkeeps before between after hops hbetween c hopen hfailed
    obtain ⟨earlier, answered, htold, hearlier⟩ := hkeeps before between after hops hbetween hopen
    obtain ⟨later, hpoll, hnone⟩ := toldOf_poll channel conversation before hbetween
    obtain ⟨hclosed, reason, hevents⟩ := poll_of_failure hopen hfailed
    obtain rfl := hnone hclosed
    -- the end is all that is told after what was waiting
    have hend : [.closed reason] = earlier ++ (c.answers.map .frame ++ answered) := by
      rw [hpoll, hevents] at htold
      simpa [c] using htold
    cases hanswers : c.answers with
    | nil => rfl
    | cons answer rest =>
      rw [hanswers] at hend
      cases earlier with
      | nil => cases hend
      | cons event others =>
        have hlast := (List.cons.inj hend).2
        cases others <;> cases hlast
  · intro hnone before between after hops hbetween c hopen
    obtain ⟨later, hpoll, -⟩ := toldOf_poll channel conversation before hbetween
    have hwaiting := events_of_open channel conversation before hopen
    cases hwritten : c.write.flush.closed with
    | true =>
      obtain ⟨-, reason, hevents⟩ := poll_of_failure hopen hwritten
      refine ⟨[], [.closed reason] ++ later, ?_, ?_⟩
      · rw [hpoll, hevents, hnone before between after hops hbetween hopen hwritten]
        simp only [List.map_nil, List.append_nil, List.append_assoc]
      · rw [List.append_nil]
        exact hwaiting
    | false =>
      obtain ⟨flushes, ending, hevents, hflushes⟩ := poll_of_written hopen hwritten
      refine ⟨flushes, ending ++ later, ?_, List.forall_mem_append.2 ⟨hwaiting, hflushes⟩⟩
      rw [hpoll, hevents]
      simp only [c, List.append_assoc]

/-- The peer answers and goes away. The answer is never told of, because a frame was still to be
sent. -/
theorem answer_lost : ¬ KeepsAnswers (Scenario.Script.ofReplies [] []) Scenario.Recorder.empty
    [.changed
        (fun s => { s.push [.frame (.text "answer")] with ready := .failed (.socket "scripted") })
        fun r => r.queue (.text "hello"),
      .polled, .dispatched] := by
  intro hkeeps
  obtain ⟨earlier, later, htold, -⟩ := hkeeps [_] [] [] rfl (by simp) (by decide +kernel)
  have hlost : toldOf (Scenario.Script.ofReplies [] []) Scenario.Recorder.empty
      [.changed
        (fun s => { s.push [.frame (.text "answer")] with ready := .failed (.socket "scripted") })
        fun r => r.queue (.text "hello"),
      .polled, .dispatched] = [.closed "socket error: scripted"] := by decide +kernel
  have hanswer : ConnectionEvent.frame (.text "answer") ∈
      [ConnectionEvent.closed "socket error: scripted"] := by
    rw [← hlost]
    refine htold ▸ List.mem_append_left _ (List.mem_append_right _ ?_)
    decide +kernel
  exact absurd hanswer (by decide)

end Connection

end Offload
