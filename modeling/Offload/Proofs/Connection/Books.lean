import Offload.Proofs.Connection.Record
import Mathlib.Logic.Relation

/-!
# The books of a connection

What a connection with records has done, and what it still has to do, are its books. Polling,
dispatching and all that happens to it changes them by entries of a few kinds only (`Entry`,
`entries_performAll`), so that what every entry keeps holds of every run. If each report is heard
before the next poll (`Prompt`), no frame is taken while a flush is still to be told.
-/

namespace Offload

open Relation

/-! ## What arrives and what is called -/

namespace Arrival

/-- Whether nothing is read after it. -/
def ends : Arrival → Bool
  | .frame (.close _) => true
  | .frame _ => false
  | .error _ => true
  | .ended => true

/-- Whether the channel failed. -/
def isError : Arrival → Bool
  | .error _ => true
  | _ => false

/-- What the conversation is told of it. -/
def event : Arrival → ConnectionEvent
  | .frame (.close reason) => .closed (Connection.closeReason reason)
  | .frame message => .frame message
  | .error e => .closed e.text
  | .ended => .closed TransportError.closed.text

theorem event_ne_flushed (item : Arrival) : item.event ≠ .flushed := by
  rcases item with ⟨text | data | reason⟩ | e | _ <;> exact ConnectionEvent.noConfusion

theorem ends_of_isError {item : Arrival} (h : item.isError = true) : item.ends = true := by
  cases item <;> simp_all [isError, ends]

end Arrival

namespace ChannelCall

/-- The frame that was accepted. -/
def sent? : ChannelCall → Option Frame
  | .accepted frame => some frame
  | _ => none

/-- What was read. -/
def arrivals : ChannelCall → List Arrival
  | .read items => items
  | _ => []

/-- The error of a call that should have written or flushed. -/
def writeFailure? : ChannelCall → Option TransportError
  | .asked (.failed e) => some e
  | .refused _ e => some e
  | .flushed (.failed e) => some e
  | .shut (.failed e) => some e
  | _ => none

/-- Whether the channel failed. -/
def fails (call : ChannelCall) : Bool :=
  call.writeFailure?.isSome || call.arrivals.any Arrival.isError

/-- Whether the connection ended with it. -/
def ends (call : ChannelCall) : Bool :=
  call.writeFailure?.isSome || call.arrivals.any Arrival.ends

end ChannelCall

/-! ## Books -/

/-- What a connection has done and has still to do. -/
structure Books where
  calls : List ChannelCall
  taken : List Frame
  told : List ConnectionEvent
  /-- what is still to be told -/
  events : List ConnectionEvent
  /-- the frame in hand -/
  held : Option Frame
  closed : Bool

/-- One change of the books. If the connection is `prompt`, it takes no frame before it has told of
an earlier flush. -/
inductive Entry (prompt : Prop) (b : Books) : Books → Prop
  | takes (frame : Frame) (hopen : b.closed = false) (hhand : b.held = none)
      (hprompt : prompt → .flushed ∉ b.events) :
      Entry prompt b { b with taken := b.taken ++ [frame], held := some frame }
  | waits (call : ChannelCall) (hopen : b.closed = false)
      (hcall : call = .asked .ready ∨ call = .asked .pending ∨ call = .flushed .pending) :
      Entry prompt b { b with calls := b.calls ++ [call] }
  | sends (frame : Frame) (hopen : b.closed = false) (hhand : b.held = some frame) :
      Entry prompt b { b with calls := b.calls ++ [.accepted frame], held := none }
  | flushes (hopen : b.closed = false) :
      Entry prompt b { b with
        calls := b.calls ++ [.flushed .ready]
        events := if b.held.isNone then b.events ++ [.flushed] else b.events }
  | fails (call : ChannelCall) (error : TransportError) (hopen : b.closed = false)
      (hcall : call.writeFailure? = some error) :
      Entry prompt b { b with
        calls := b.calls ++ [call]
        events := b.events ++ [.closed error.text]
        held := none
        closed := true }
  | reads (items : List Arrival) (hopen : b.closed = false)
      (hitems : ∀ item ∈ items, item.ends = false) :
      Entry prompt b { b with
        calls := b.calls ++ [.read items]
        events := b.events ++ items.map Arrival.event }
  | ends (items : List Arrival) (last : Arrival) (hopen : b.closed = false)
      (hitems : ∀ item ∈ items, item.ends = false) (hlast : last.ends = true) :
      Entry prompt b { b with
        calls := b.calls ++ [.read (items ++ [last])]
        events := b.events ++ (items ++ [last]).map Arrival.event
        held := if last.isError then none else b.held
        closed := true }
  | tells : Entry prompt b { b with told := b.told ++ b.events, events := [] }

namespace Entry

/-- A property of the books that no entry can change. -/
theorem run {prompt : Prop} {S : Books → Prop} (hstep : ∀ b b', Entry prompt b b' → S b → S b')
    {b b' : Books} (h : ReflTransGen (Entry prompt) b b') (hb : S b) : S b' := by
  induction h with
  | refl => exact hb
  | tail _ hlast ih => exact hstep _ _ hlast ih

/-- Once a connection is closed, nothing is left to do but to tell. -/
theorem run_of_closed {prompt : Prop} {b b' : Books} (h : ReflTransGen (Entry prompt) b b')
    (hclosed : b.closed = true) :
    b'.closed = true ∧ b'.calls = b.calls ∧ b'.taken = b.taken ∧ b'.held = b.held := by
  refine run (S := fun later => later.closed = true ∧ later.calls = b.calls ∧ later.taken = b.taken
    ∧ later.held = b.held) ?_ h ⟨hclosed, rfl, rfl, rfl⟩
  rintro later next hentry ⟨hlater, hsame⟩
  cases hentry with
  | tells => exact ⟨hlater, hsame⟩
  | takes _ hopen | waits _ hopen | sends _ hopen | flushes hopen | fails _ _ hopen | reads _ hopen
  | ends _ _ hopen => exact absurd hlater (by rw [hopen]; exact Bool.false_ne_true)

end Entry

namespace Connection

variable {κ π : Type} [Channel κ] [Conversation π] {prompt : Prop}

/-- The books of a connection with records. -/
def books (c : Connection (Recorded κ) (Observed π)) : Books :=
  ⟨c.channel.calls, c.conversation.taken, c.conversation.told, c.events, c.held, c.closed⟩

/-! ## Writing -/

/-- The books after frames were handed to a channel. -/
def Written.books (w : Written (Recorded κ)) (taken : List Frame)
    (told events : List ConnectionEvent) : Books :=
  match w.failure with
  | none => ⟨w.channel.calls, taken, told, events, w.held, false⟩
  | some e => ⟨w.channel.calls, taken, told, events ++ [.closed e.text], none, true⟩

/-- Frames are handed over one by one: the one in hand, if there is one, and then those that are
coming. Each of these is taken when the one before it was accepted. -/
theorem entries_writeFrames (frames coming : List Frame) (hand : Option Frame) (r : Recorded κ)
    (accepted : Bool) (before : List Frame) (told events : List ConnectionEvent)
    (hframes : frames = hand.toList ++ coming) (hprompt : prompt → .flushed ∉ events) :
    ∃ taken, coming = taken ++ (writeFrames r accepted frames).rest ∧
      ReflTransGen (Entry prompt) ⟨r.calls, before, told, events, hand, false⟩
        ((writeFrames r accepted frames).books (before ++ taken) told events) := by
  induction frames generalizing coming hand r accepted before with
  | nil =>
    obtain ⟨hhand, rfl⟩ := List.append_eq_nil_iff.1 hframes.symm
    obtain rfl := Option.toList_eq_nil_iff.1 hhand
    refine ⟨[], rfl, ?_⟩
    rw [List.append_nil]
    exact .refl
  | cons frame rest ih =>
    -- the frame is in hand already or is taken now
    obtain ⟨first, rfl, htake⟩ : ∃ first, coming = first ++ rest ∧
        ReflTransGen (Entry prompt) ⟨r.calls, before, told, events, hand, false⟩
          ⟨r.calls, before ++ first, told, events, some frame, false⟩ := by
      cases hand with
      | none => exact ⟨[frame], hframes.symm, .single (.takes frame rfl rfl hprompt)⟩
      | some inHand =>
        obtain ⟨rfl, rfl⟩ := List.cons.inj hframes
        refine ⟨[], rfl, ?_⟩
        rw [List.append_nil]
    -- from here on it is the same frame that waits, leaves or is lost
    have hask : Channel.pollReady r = r.note .asked (Channel.pollReady r.channel) := rfl
    rw [writeFrames, hask]
    rcases Channel.pollReady r.channel with ⟨_ | _ | e, channel⟩
    · have hready := htake.tail (.waits (.asked .ready) rfl (.inl rfl))
      have hsend : Channel.send (Recorded.mk channel (r.calls ++ [.asked .ready])) frame
          = Recorded.send ⟨channel, r.calls ++ [.asked .ready]⟩ frame := rfl
      simp only [Recorded.note, hsend, Recorded.send]
      rcases Channel.send channel frame with ⟨e | u, after⟩
      · exact ⟨first, rfl, hready.tail (.fails (.refused frame e) e rfl rfl)⟩
      · obtain ⟨taken, hrest, hlater⟩ := ih rest none ⟨after, _⟩ true (before ++ first) rfl
        refine ⟨first ++ taken, ?_, ?_⟩
        · rw [List.append_assoc, ← hrest]
        · rw [← List.append_assoc]
          exact (hready.tail (.sends frame rfl rfl)).trans hlater
    · exact ⟨first, rfl, htake.tail (.waits (.asked .pending) rfl (.inr (.inl rfl)))⟩
    · exact ⟨first, rfl, htake.tail (.fails (.asked (.failed e)) e rfl rfl)⟩

theorem entries_write (c : Connection (Recorded κ) (Observed π)) (hopen : c.closed = false)
    (hprompt : prompt → .flushed ∉ c.events) :
    ReflTransGen (Entry prompt) c.books c.write.books := by
  obtain ⟨channel, conversation, events, held, unflushed, _⟩ := c
  obtain rfl : _ = false := hopen
  obtain ⟨taken, houtbox, hentries⟩ := entries_writeFrames
    (held.toList ++ Conversation.outbox conversation) (Conversation.outbox conversation) held
    channel unflushed conversation.taken conversation.told events rfl hprompt
  rw [write]
  generalize writeFrames channel unflushed (held.toList ++ Conversation.outbox conversation) = w
    at houtbox hentries ⊢
  -- the record counts what is gone from the front of the outbox
  have htaken : (Conversation.outbox conversation).take
      ((Conversation.outbox conversation).length - w.rest.length) = taken := by
    rw [houtbox, List.length_append, Nat.add_sub_cancel, List.take_left]
  rw [← htaken] at hentries
  obtain ⟨channel', held', rest, accepted, _ | e⟩ := w
  · exact hentries
  · exact hentries

/-! ## Flushing -/

omit [Conversation π] in
theorem entries_flush (c : Connection (Recorded κ) (Observed π)) :
    ReflTransGen (Entry prompt) c.books c.flush.books := by
  have hask : Channel.pollFlush c.channel
      = c.channel.note .flushed (Channel.pollFlush c.channel.channel) := rfl
  rw [flush, hask]
  split
  · exact .refl
  · rename_i hopen
    have hopen : c.books.closed = false := by
      rw [Bool.or_eq_true, not_or, Bool.not_eq_true] at hopen
      exact hopen.1
    rcases Channel.pollFlush c.channel.channel with ⟨_ | _ | e, channel⟩
    · exact .single (.flushes hopen)
    · exact .single (.waits (.flushed .pending) hopen (.inr (.inr rfl)))
    · exact .single (.fails (.flushed (.failed e)) e hopen rfl)

/-! ## Reading -/

theorem readEvents_of_ends {item : Arrival} (h : item.ends = true) (rest : List Arrival) :
    readEvents (item :: rest) = ([item.event], 1, if item.isError then .failed else .closed) := by
  rcases item with ⟨text | data | reason⟩ | e | _
  · cases h
  · cases h
  · rfl
  · rfl
  · rfl

theorem readEvents_of_goes_on {item : Arrival} (h : item.ends = false) (rest : List Arrival) :
    readEvents (item :: rest)
      = (item.event :: (readEvents rest).1, (readEvents rest).2.1 + 1, (readEvents rest).2.2) := by
  rcases item with ⟨text | data | reason⟩ | e | _
  · rfl
  · rfl
  · cases h
  · cases h
  · cases h

/-- Reading takes all that has arrived, or all up to the first arrival that ends the connection. -/
theorem readEvents_cases (items : List Arrival) :
    ((∀ item ∈ items, item.ends = false) ∧
        readEvents items = (items.map Arrival.event, items.length, .stillOpen)) ∨
      ∃ before last after, items = before ++ last :: after ∧
        (∀ item ∈ before, item.ends = false) ∧ last.ends = true ∧
        readEvents items = ((before ++ [last]).map Arrival.event, before.length + 1,
          if last.isError then .failed else .closed) := by
  induction items with
  | nil => exact .inl ⟨by simp, rfl⟩
  | cons item rest ih =>
    cases hends : item.ends with
    | true => exact .inr ⟨[], item, rest, rfl, by simp, hends, readEvents_of_ends hends rest⟩
    | false =>
      rw [readEvents_of_goes_on hends]
      obtain ⟨hall, hrest⟩ | ⟨before, last, after, rfl, hbefore, hlast, hrest⟩ := ih
      · refine .inl ⟨List.forall_mem_cons.2 ⟨hends, hall⟩, ?_⟩
        rw [hrest]
        rfl
      · refine .inr ⟨item :: before, last, after, rfl, List.forall_mem_cons.2 ⟨hends, hbefore⟩,
          hlast, ?_⟩
        rw [hrest]
        rfl

omit [Conversation π] in
theorem entries_read (c : Connection (Recorded κ) (Observed π)) :
    ReflTransGen (Entry prompt) c.books c.read.books := by
  obtain ⟨channel, conversation, events, held, unflushed, _ | _⟩ := c
  · have hconsume : ∀ n, Channel.consume channel n = ⟨Channel.consume channel.channel n,
        channel.calls ++ [.read ((Channel.readable channel).take n)]⟩ := fun n => rfl
    obtain ⟨hall, hread⟩ | ⟨before, last, after, hitems, hbefore, hlast, hread⟩ :=
      readEvents_cases (Channel.readable channel)
    · rw [read, hread]
      simp only [hconsume, List.take_length]
      exact .single (.reads _ rfl hall)
    · have htook : (Channel.readable channel).take (before.length + 1) = before ++ [last] := by
        rw [hitems, List.take_length_add_append]
        rfl
      have hentry : Entry prompt (books ⟨channel, conversation, events, held, unflushed, false⟩) _ :=
        .ends before last rfl hbefore hlast
      rw [read, hread]
      simp only [hconsume, htook]
      -- a channel that fails takes the frame in hand with it
      cases herror : last.isError with
      | true =>
        rw [herror] at hentry
        exact .single hentry
      | false =>
        rw [herror] at hentry
        exact .single hentry
  · exact .refl

/-! ## Driving -/

theorem entries_poll (c : Connection (Recorded κ) (Observed π))
    (hprompt : prompt → .flushed ∉ c.events) :
    ReflTransGen (Entry prompt) c.books c.poll.2.books := by
  have hpoll : c.poll.2 = (if c.closed then c else c.write).flush.read := rfl
  rw [hpoll]
  refine ReflTransGen.trans ?_ ((entries_flush _).trans (entries_read _))
  split
  · exact .refl
  · rename_i hopen
    exact entries_write c (Bool.not_eq_true _ ▸ hopen) hprompt

omit [Channel κ] in
theorem entry_dispatch (c : Connection (Recorded κ) (Observed π)) :
    Entry prompt c.books c.dispatch.books := by
  have htold : c.dispatch.books = { c.books with told := c.books.told ++ c.events, events := [] } := by
    rw [dispatch, Observed.foldl_tell]
    rfl
  rw [htold]
  exact .tells

/-- Whoever drives the connection lets it tell what a poll reported before it is polled again. It
is `waiting` while such a report is not told. -/
def Prompt (c : Connection κ π) (waiting : Bool) : List (ConnectionOp κ π) → Prop
  | [] => True
  | .polled :: rest => waiting = false ∧ Prompt c.poll.2 c.poll.1 rest
  | .dispatched :: rest => Prompt c.dispatch false rest
  | .changed channel conversation :: rest =>
    Prompt (c.perform (.changed channel conversation)) waiting rest

instance decidablePrompt : ∀ (c : Connection κ π) (waiting : Bool)
    (ops : List (ConnectionOp κ π)), Decidable (c.Prompt waiting ops)
  | _, _, [] => .isTrue trivial
  | c, waiting, .polled :: rest =>
    have := decidablePrompt c.poll.2 c.poll.1 rest
    inferInstanceAs (Decidable (waiting = false ∧ c.poll.2.Prompt c.poll.1 rest))
  | c, _, .dispatched :: rest => decidablePrompt c.dispatch false rest
  | c, waiting, .changed channel conversation :: rest =>
    decidablePrompt (c.perform (.changed channel conversation)) waiting rest

theorem Prompt.of_append {c : Connection κ π} {waiting : Bool}
    {ops more : List (ConnectionOp κ π)} (h : c.Prompt waiting (ops ++ more)) :
    c.Prompt waiting ops := by
  induction ops generalizing c waiting with
  | nil => trivial
  | cons op rest ih =>
    cases op with
    | polled => exact ⟨h.1, ih h.2⟩
    | dispatched =>
      have hrest : c.dispatch.Prompt false (rest ++ more) := h
      exact ih hrest
    | changed channel conversation =>
      have hrest : (c.perform (.changed channel conversation)).Prompt waiting (rest ++ more) := h
      exact ih hrest

/-- All that happens to a connection is entered in its books. -/
theorem entries_performAll (c : Connection (Recorded κ) (Observed π)) (waiting : Bool)
    (ops : List (ConnectionOp κ π)) (hprompt : prompt → c.forget.Prompt waiting ops)
    (hwaiting : prompt → waiting = false → c.events = []) :
    ReflTransGen (Entry prompt) c.books (c.performAll (ops.map .onRecords)).books := by
  induction ops generalizing c waiting with
  | nil => exact .refl
  | cons op rest ih =>
    cases op with
    | polled =>
      have hforget : c.poll.2.forget = c.forget.poll.2 := forget_perform c .polled
      have hreport : c.forget.poll.1 = !c.poll.2.events.isEmpty :=
        congrArg (fun d : Connection κ π => !d.events.isEmpty) hforget.symm
      -- a prompt connection that is polled has nothing to tell
      have hquiet : prompt → .flushed ∉ c.events := by
        intro hp
        rw [hwaiting hp (hprompt hp).1]
        exact List.not_mem_nil
      refine (entries_poll c hquiet).trans (ih c.poll.2 c.forget.poll.1 ?_ ?_)
      · intro hp
        rw [hforget]
        exact (hprompt hp).2
      · intro _ hnone
        rw [hreport] at hnone
        simpa using hnone
    | dispatched =>
      have hforget : c.dispatch.forget = c.forget.dispatch := forget_perform c .dispatched
      refine .head (entry_dispatch c) (ih c.dispatch false ?_ ?_)
      · intro hp
        rw [hforget]
        exact hprompt hp
      · exact fun _ _ => rfl
    | changed channel conversation =>
      exact ih (c.perform (ConnectionOp.changed channel conversation).onRecords) waiting hprompt
        hwaiting

/-- The books of a run, on which nothing was entered at first. -/
theorem entries_recorded (channel : κ) (conversation : π) (ops : List (ConnectionOp κ π))
    (hprompt : prompt → (ofChannel channel conversation).Prompt false ops) :
    ReflTransGen (Entry prompt) ⟨[], [], [], [], none, false⟩
      (recorded channel conversation ops).books :=
  entries_performAll (ofChannel (Recorded.mk channel []) (Observed.mk conversation [] [])) false ops
    hprompt fun _ _ => rfl

end Connection

end Offload
