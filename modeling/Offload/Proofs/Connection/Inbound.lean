import Offload.Proofs.Connection.Books
import Offload.Scenario.Channel
import Offload.Scenario.Recorder
import Mathlib.Data.List.Basic

/-!
# What a connection receives

A conversation is told of each call on the channel what the call reports, in order and once
(`Books.Heard`). What ends the connection is told last, and no call follows it. So what a
conversation is told of the arrivals does not depend on when they are read. Main statement:
`Connection.inbound_in_order`.
-/

namespace Offload

/-! ## Reports -/

namespace ConnectionEvent

/-- The frame that is told of. -/
def frame? : ConnectionEvent → Option Frame
  | .frame message => some message
  | _ => none

/-- Whether the end is told. -/
def isClosed : ConnectionEvent → Bool
  | .closed _ => true
  | _ => false

/-- Whether it comes from the reading side, or from a failure. -/
def isInbound : ConnectionEvent → Bool
  | .flushed => false
  | _ => true

end ConnectionEvent

namespace Arrival

/-- The frame that is for the conversation. -/
def message? : Arrival → Option Frame
  | .frame (.close _) => none
  | .frame message => some message
  | _ => none

theorem frame?_event (item : Arrival) : item.event.frame? = item.message? := by
  rcases item with ⟨text | data | reason⟩ | e | _ <;> rfl

theorem isClosed_event (item : Arrival) : item.event.isClosed = item.ends := by
  rcases item with ⟨text | data | reason⟩ | e | _ <;> rfl

theorem isInbound_event (item : Arrival) : item.event.isInbound = true := by
  rcases item with ⟨text | data | reason⟩ | e | _ <;> rfl

theorem filter_isInbound_map_event (items : List Arrival) :
    (items.map event).filter ConnectionEvent.isInbound = items.map event := by
  refine List.filter_eq_self.2 fun told htold => ?_
  obtain ⟨item, -, rfl⟩ := List.mem_map.1 htold
  exact item.isInbound_event

theorem message?_ne_close (item : Arrival) (reason : Option String) :
    item.message? ≠ some (.close reason) := by
  rcases item with ⟨text | data | given⟩ | e | _ <;> exact fun h => nomatch h

end Arrival

namespace ChannelCall

/-- All that was read. -/
def readIn (calls : List ChannelCall) : List Arrival := calls.flatMap arrivals

/-- What the conversation is told of a call, other than that frames were flushed. -/
def reports (call : ChannelCall) : List ConnectionEvent :=
  (call.writeFailure?.map fun e => .closed e.text).toList ++ call.arrivals.map Arrival.event

theorem frames_reports (call : ChannelCall) :
    call.reports.filterMap ConnectionEvent.frame? = call.arrivals.filterMap Arrival.message? := by
  have hfailure : ((call.writeFailure?.map fun e => ConnectionEvent.closed e.text).toList).filterMap
      ConnectionEvent.frame? = [] := by
    cases call.writeFailure? <;> rfl
  rw [reports, List.filterMap_append, hfailure, List.nil_append, List.filterMap_map]
  exact congrArg (List.filterMap · call.arrivals) (funext Arrival.frame?_event)

theorem frames_flatMap_reports (calls : List ChannelCall) :
    (calls.flatMap reports).filterMap ConnectionEvent.frame?
      = (readIn calls).filterMap Arrival.message? := by
  rw [readIn, List.filterMap_flatMap, List.filterMap_flatMap]
  exact congrArg (List.flatMap · calls) (funext frames_reports)

theorem flatMap_reports_of_written {calls : List ChannelCall}
    (h : ∀ call ∈ calls, call.writeFailure? = none) :
    calls.flatMap reports = (readIn calls).map Arrival.event := by
  rw [readIn, List.map_flatMap]
  refine List.flatMap_congr fun call hcall => ?_
  rw [reports, h call hcall]
  rfl

theorem arrivals_of_writeFailure {call : ChannelCall} {error : TransportError}
    (h : call.writeFailure? = some error) : call.arrivals = [] := by
  cases call with
  | read items => cases h
  | asked | accepted | refused | flushed | shut => rfl

/-- The end is reported by a call that ends the connection. -/
theorem any_isClosed_reports (call : ChannelCall) :
    call.reports.any ConnectionEvent.isClosed = call.ends := by
  rw [reports, List.any_append, ends]
  congr 1
  · cases call.writeFailure? <;> rfl
  · rw [List.any_map]
    exact congrArg call.arrivals.any (funext Arrival.isClosed_event)

theorem ends_of_mem_arrivals {call : ChannelCall} (h : call.ends = false) {item : Arrival}
    (hitem : item ∈ call.arrivals) : item.ends = false := by
  rw [ends, Bool.or_eq_false_iff, List.any_eq_false] at h
  exact Bool.eq_false_iff.2 (h.2 item hitem)

end ChannelCall

/-! ## What is only last -/

/-- Nothing in a list has a property but perhaps the last. -/
def OnlyLast {α : Type} (p : α → Bool) (l : List α) : Prop := ∀ x ∈ l.dropLast, p x = false

namespace OnlyLast

variable {α : Type} {p : α → Bool} {l l' : List α}

theorem nil : OnlyLast p [] := fun _ hx => absurd hx List.not_mem_nil

theorem singleton (x : α) : OnlyLast p [x] := fun _ hx => absurd hx List.not_mem_nil

theorem of_none (h : ∀ x ∈ l, p x = false) : OnlyLast p l :=
  fun x hx => h x (List.dropLast_subset l hx)

theorem append (h : ∀ x ∈ l, p x = false) (h' : OnlyLast p l') : OnlyLast p (l ++ l') := by
  intro x hx
  rw [List.dropLast_append] at hx
  split at hx
  · exact h x (List.dropLast_subset l hx)
  · exact (List.mem_append.1 hx).elim (h x) (h' x)

theorem of_append (h : OnlyLast p (l ++ l')) : OnlyLast p l := by
  intro x hx
  apply h x
  rw [List.dropLast_append]
  split
  · exact hx
  · exact List.mem_append_left _ (List.dropLast_subset l hx)

theorem tail {x : α} (h : OnlyLast p (x :: l)) : OnlyLast p l := by
  cases l with
  | nil => exact .nil
  | cons y rest => exact fun z hz => h z (List.mem_cons_of_mem x hz)

theorem eq_nil_of_head {x : α} (h : OnlyLast p (x :: l)) (hx : p x = true) : l = [] := by
  cases l with
  | nil => rfl
  | cons y rest =>
    have hfalse : p x = false := h x List.mem_cons_self
    rw [hx] at hfalse
    cases hfalse

end OnlyLast

/-- What is told of arrivals ends with the end if they do. -/
theorem OnlyLast.map_event {items : List Arrival} (h : OnlyLast Arrival.ends items) :
    OnlyLast ConnectionEvent.isClosed (items.map Arrival.event) := by
  intro event hevent
  rw [← List.map_dropLast] at hevent
  obtain ⟨item, hitem, rfl⟩ := List.mem_map.1 hevent
  rw [Arrival.isClosed_event]
  exact h item hitem

theorem filterMap_filter_isInbound (events : List ConnectionEvent) :
    (events.filter ConnectionEvent.isInbound).filterMap ConnectionEvent.frame?
      = events.filterMap ConnectionEvent.frame? := by
  rw [List.filterMap_filter]
  refine congrArg (List.filterMap · events) (funext fun event => ?_)
  cases event <;> rfl

/-! ## What the conversation hears -/

namespace Books

open ChannelCall

/-- The conversation is or will be told what the calls report, and the end last of all. -/
structure Heard (b : Books) : Prop where
  complete : (b.told ++ b.events).filter ConnectionEvent.isInbound = b.calls.flatMap reports
  going : b.closed = false → ∀ call ∈ b.calls, call.ends = false
  calls : OnlyLast ChannelCall.ends b.calls
  items : OnlyLast Arrival.ends (readIn b.calls)
  events : OnlyLast ConnectionEvent.isClosed (b.told ++ b.events)

namespace Heard

variable {b b' : Books}

/-- While the connection is open, nothing has ended it. -/
theorem items_of_open (h : b.Heard) (hopen : b.closed = false) :
    ∀ item ∈ readIn b.calls, item.ends = false := by
  intro item hitem
  obtain ⟨call, hcall, hmem⟩ := List.mem_flatMap.1 hitem
  exact ends_of_mem_arrivals (h.going hopen call hcall) hmem

theorem events_of_open (h : b.Heard) (hopen : b.closed = false) :
    ∀ event ∈ b.told ++ b.events, event.isClosed = false := by
  intro event hevent
  cases hclosed : event.isClosed with
  | false => rfl
  | true =>
    have hinbound : event.isInbound = true := by cases event <;> trivial
    have hreported : event ∈ b.calls.flatMap reports := by
      rw [← h.complete]
      exact List.mem_filter.2 ⟨hevent, hinbound⟩
    obtain ⟨call, hcall, hmem⟩ := List.mem_flatMap.1 hreported
    have hends : call.ends = true := by
      rw [← any_isClosed_reports]
      exact List.any_eq_true.2 ⟨event, hmem, hclosed⟩
    exact absurd (h.going hopen call hcall) (by rw [hends]; exact Bool.noConfusion)

/-- One more call of a connection that is open, and what the conversation is to be told of it. -/
theorem of_call {call : ChannelCall} {new : List ConnectionEvent} (h : b.Heard)
    (hopen : b.closed = false) (hcalls : b'.calls = b.calls ++ [call]) (htold : b'.told = b.told)
    (hevents : b'.events = b.events ++ new)
    (hreports : new.filter ConnectionEvent.isInbound = call.reports)
    (hitems : OnlyLast Arrival.ends call.arrivals) (hnew : OnlyLast ConnectionEvent.isClosed new)
    (hgoing : b'.closed = false → call.ends = false) : b'.Heard where
  complete := by
    rw [htold, hevents, hcalls, ← List.append_assoc, List.filter_append, hreports, h.complete,
      List.flatMap_append, List.flatMap_singleton]
  going hopen' := by
    rw [hcalls]
    exact List.forall_mem_append.2 ⟨h.going hopen, List.forall_mem_singleton.2 (hgoing hopen')⟩
  calls := by
    rw [hcalls]
    exact .append (h.going hopen) (by simp [OnlyLast])
  items := by
    rw [hcalls, readIn, List.flatMap_append, List.flatMap_singleton]
    exact .append (h.items_of_open hopen) hitems
  events := by
    rw [htold, hevents, ← List.append_assoc]
    exact .append (h.events_of_open hopen) hnew

/-- One more reading. -/
theorem of_read {items : List Arrival} (h : b.Heard) (hopen : b.closed = false)
    (hcalls : b'.calls = b.calls ++ [.read items]) (htold : b'.told = b.told)
    (hevents : b'.events = b.events ++ items.map Arrival.event)
    (hitems : OnlyLast Arrival.ends items)
    (hgoing : b'.closed = false → items.any Arrival.ends = false) : b'.Heard :=
  h.of_call hopen hcalls htold hevents (Arrival.filter_isInbound_map_event items) hitems
    hitems.map_event hgoing

theorem entry {prompt : Prop} (h : b.Heard) (hentry : Entry prompt b b') : b'.Heard := by
  cases hentry with
  | takes frame hopen => exact ⟨h.complete, h.going, h.calls, h.items, h.events⟩
  | waits call hopen hcall =>
    rcases hcall with rfl | rfl | rfl
    all_goals
      exact h.of_call hopen rfl rfl (List.append_nil _).symm rfl .nil .nil fun _ => rfl
  | sends frame hopen hhand =>
    exact h.of_call hopen rfl rfl (List.append_nil _).symm rfl .nil .nil fun _ => rfl
  | flushes hopen =>
    cases hhand : b.held with
    | none => exact h.of_call hopen rfl rfl rfl rfl .nil (.singleton _) fun _ => rfl
    | some frame =>
      exact h.of_call hopen rfl rfl (List.append_nil _).symm rfl .nil .nil fun _ => rfl
  | fails call error hopen hcall =>
    refine h.of_call hopen rfl rfl rfl ?_ ?_ (.singleton _) fun hnever => nomatch hnever
    · rw [reports, hcall, arrivals_of_writeFailure hcall]
      rfl
    · rw [arrivals_of_writeFailure hcall]
      exact .nil
  | reads items hopen hitems =>
    refine h.of_read hopen rfl rfl rfl (.of_none hitems) fun _ => ?_
    exact List.any_eq_false.2 fun item hitem => Bool.eq_false_iff.1 (hitems item hitem)
  | ends items last hopen hitems hlast =>
    exact h.of_read hopen rfl rfl rfl (.append hitems (.singleton last)) fun hnever => nomatch hnever
  | tells =>
    refine ⟨?_, h.going, h.calls, h.items, ?_⟩
    · rw [List.append_nil]
      exact h.complete
    · rw [List.append_nil]
      exact h.events

theorem fresh : (Books.mk [] [] [] [] none false).Heard :=
  ⟨rfl, fun _ _ hcall => absurd hcall List.not_mem_nil, .nil, .nil, .nil⟩

end Heard

end Books

/-! ## Reading to the end -/

/-- What the conversation is to be told of a script: its arrivals up to the first that ends the
connection. -/
def scriptEvents (script : List Arrival) : List ConnectionEvent :=
  ((script.takeWhile fun item => !item.ends) ++ (script.find? Arrival.ends).toList).map Arrival.event

/-- A beginning of a script that is all of it, or reaches an arrival that ends the connection. -/
theorem eq_untilEnd {read script : List Arrival} (hread : read <+: script)
    (hlast : OnlyLast Arrival.ends read)
    (hthrough : read = script ∨ ∃ item ∈ read, item.ends = true) :
    read = (script.takeWhile fun item => !item.ends) ++ (script.find? Arrival.ends).toList := by
  induction read generalizing script with
  | nil =>
    obtain rfl | ⟨item, hitem, -⟩ := hthrough
    · rfl
    · cases hitem
  | cons item rest ih =>
    obtain ⟨after, rfl⟩ := hread
    rw [List.cons_append]
    cases hends : item.ends with
    | true =>
      rw [hlast.eq_nil_of_head hends, List.takeWhile_cons_of_neg (by simp [hends]),
        List.find?_cons_of_pos hends]
      rfl
    | false =>
      have hrest : rest = rest ++ after ∨ ∃ item ∈ rest, item.ends = true := by
        obtain hall | ⟨other, hother, hend⟩ := hthrough
        · exact .inl (List.cons.inj hall).2
        · refine .inr ⟨other, (List.mem_cons.1 hother).resolve_left ?_, hend⟩
          rintro rfl
          rw [hends] at hend
          cases hend
      rw [List.takeWhile_cons_of_pos (by simp [hends]), List.find?_cons_of_neg (by simp [hends]),
        List.cons_append, ← ih ⟨after, rfl⟩ hlast.tail hrest]

namespace Connection

variable {κ π : Type} [Channel κ] [Conversation π]

/-! ## Runs -/

theorem heard_recorded (channel : κ) (conversation : π) (ops : List (ConnectionOp κ π)) :
    (recorded channel conversation ops).books.Heard := by
  have hentries := entries_recorded channel conversation ops False.elim
  exact Entry.run (fun _ _ hentry h => h.entry hentry) hentries .fresh

/-- A run that reads a script to its end, without a failure in writing, and tells all of it. -/
structure ReadToEnd (channel : κ) (conversation : π) (ops : List (ConnectionOp κ π))
    (script : List Arrival) : Prop where
  read : ChannelCall.readIn (callsOf channel conversation ops) <+: script
  through : ChannelCall.readIn (callsOf channel conversation ops) = script ∨
    ∃ item ∈ ChannelCall.readIn (callsOf channel conversation ops), item.ends = true
  written : ∀ call ∈ callsOf channel conversation ops, call.writeFailure? = none
  told : ((ofChannel channel conversation).performAll ops).events = []

namespace ReadToEnd

variable {channel : κ} {conversation : π} {ops : List (ConnectionOp κ π)} {script : List Arrival}

/-- What the conversation has heard then is settled by the script alone. -/
theorem told_eq (h : ReadToEnd channel conversation ops script) :
    (toldOf channel conversation ops).filter ConnectionEvent.isInbound = scriptEvents script := by
  have hheard := heard_recorded channel conversation ops
  have hnothing : (recorded channel conversation ops).events = [] :=
    (congrArg Connection.events (forget_recorded channel conversation ops)).trans h.told
  calc (toldOf channel conversation ops).filter ConnectionEvent.isInbound
      = (toldOf channel conversation ops ++ (recorded channel conversation ops).events).filter
          ConnectionEvent.isInbound := by rw [hnothing, List.append_nil]
    _ = (callsOf channel conversation ops).flatMap ChannelCall.reports := hheard.complete
    _ = (ChannelCall.readIn (callsOf channel conversation ops)).map Arrival.event :=
        ChannelCall.flatMap_reports_of_written h.written
    _ = scriptEvents script := congrArg (List.map Arrival.event)
        (eq_untilEnd h.read hheard.items h.through)

end ReadToEnd

/-- In every run of a connection, the frames that the conversation was told of and those that are
still to be told are the frames other than close frames that the channel gave, in order and once
each. The end is told after everything else, and so at most once; a close frame is never told of as
a frame. No call follows one that failed or that read a close frame, an error or the end, and such a
reading takes nothing after it. If two runs read one script to its end without a failure in writing,
what their conversations are told, flushes apart, is the same: the frames up to the end of the
script, and then its end. -/
theorem inbound_in_order (channel : κ) (conversation : π) (ops : List (ConnectionOp κ π)) :
    let calls := callsOf channel conversation ops
    let told := toldOf channel conversation ops
    let queued := ((ofChannel channel conversation).performAll ops).events
    told.filterMap ConnectionEvent.frame? ++ queued.filterMap ConnectionEvent.frame?
        = (ChannelCall.readIn calls).filterMap Arrival.message? ∧
    OnlyLast ConnectionEvent.isClosed told ∧
    (∀ reason, .frame (.close reason) ∉ told) ∧
    OnlyLast ChannelCall.ends calls ∧
    OnlyLast Arrival.ends (ChannelCall.readIn calls) ∧
    ∀ {κ' π' : Type} [Channel κ'] [Conversation π'] (channel' : κ') (conversation' : π')
      (ops' : List (ConnectionOp κ' π')) (script : List Arrival),
      ReadToEnd channel conversation ops script → ReadToEnd channel' conversation' ops' script →
      told.filter ConnectionEvent.isInbound = scriptEvents script ∧
      (toldOf channel' conversation' ops').filter ConnectionEvent.isInbound
        = told.filter ConnectionEvent.isInbound := by
  have hheard := heard_recorded channel conversation ops
  intro calls told queued
  have hqueued : queued = (recorded channel conversation ops).events :=
    congrArg Connection.events (forget_recorded channel conversation ops).symm
  have hframes : told.filterMap ConnectionEvent.frame? ++ queued.filterMap ConnectionEvent.frame?
      = (ChannelCall.readIn calls).filterMap Arrival.message? := by
    rw [← ChannelCall.frames_flatMap_reports, ← List.filterMap_append, hqueued]
    exact (filterMap_filter_isInbound _).symm.trans
      (congrArg (List.filterMap ConnectionEvent.frame?) hheard.complete)
  refine ⟨hframes, hheard.events.of_append, ?_, hheard.calls, hheard.items, ?_⟩
  · intro reason hclose
    have hread : Frame.close reason ∈ (ChannelCall.readIn calls).filterMap Arrival.message? := by
      rw [← hframes]
      exact List.mem_append_left _ (List.mem_filterMap.2 ⟨_, hclose, rfl⟩)
    obtain ⟨item, -, hitem⟩ := List.mem_filterMap.1 hread
    exact item.message?_ne_close reason hitem
  · intro κ' π' _ _ channel' conversation' ops' script h h'
    exact ⟨h.told_eq, h'.told_eq.trans h.told_eq.symm⟩

/-- A script that is read at once, and in two parts with something to send in between. -/
theorem inbound_in_order_split :
    let script : List Arrival := [.frame (.text "a"), .frame (.binary [1]),
      .frame (.close (some "bye")), .frame (.text "late")]
    let whole := Scenario.Script.ofReplies script []
    let empty := Scenario.Script.ofReplies [] []
    let ops : List (ConnectionOp Scenario.Script Scenario.Recorder) := [.polled, .dispatched]
    let ops' : List (ConnectionOp Scenario.Script Scenario.Recorder) :=
      [.changed (·.push (script.take 1)) (·.queue (.text "hello")), .polled, .dispatched,
        .changed (·.push (script.drop 1)) id, .polled, .dispatched, .polled]
    ReadToEnd whole Scenario.Recorder.empty ops script ∧
      ReadToEnd empty Scenario.Recorder.empty ops' script ∧
      toldOf empty Scenario.Recorder.empty ops'
        = [.flushed, .frame (.text "a"), .frame (.binary [1]), .closed "bye"] ∧
      (toldOf empty Scenario.Recorder.empty ops').filter ConnectionEvent.isInbound
        = (toldOf whole Scenario.Recorder.empty ops).filter ConnectionEvent.isInbound := by
  intro script whole empty ops ops'
  have h : ReadToEnd whole Scenario.Recorder.empty ops script :=
    ⟨⟨[.frame (.text "late")], by decide +kernel⟩, .inr (by decide +kernel), by decide +kernel,
      by decide +kernel⟩
  have h' : ReadToEnd empty Scenario.Recorder.empty ops' script :=
    ⟨⟨[.frame (.text "late")], by decide +kernel⟩, .inr (by decide +kernel), by decide +kernel,
      by decide +kernel⟩
  obtain ⟨-, -, -, -, -, hsame⟩ := inbound_in_order whole Scenario.Recorder.empty ops
  exact ⟨h, h', by decide +kernel,
    (hsame empty Scenario.Recorder.empty ops' script h h').2⟩

end Connection

end Offload
