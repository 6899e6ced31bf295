import Offload.Proofs.Connection.Inbound
import Offload.Proofs.Connection.Outbound
import Offload.Proofs.Worker.Upload

/-!
# What goes over the wire to a worker

The channel of a connection to a worker may keep a record, which then says what was sent and what
has arrived. Polling sends of what is due, in order, and closes the connection where it loses a frame
(`Connection.Advances`). So before the upload nothing is sent (`Connection.Withholds`), and from it
on what is sent is a beginning of the frames of the job (`Connection.Carries`).
-/

namespace Offload

/-! ## Before the upload -/

/-- What telling a conversation with a worker something does to it. -/
def WorkerOp.ofEvent : ConnectionEvent → WorkerOp
  | .frame message => .frame message
  | .flushed => .flushed
  | .closed reason => .closed reason

namespace WorkerConversation

theorem tell_eq (c : WorkerConversation) (event : ConnectionEvent) :
    Connection.tell c event = c.perform (.ofEvent event) := by
  cases event <;> rfl

/-- A conversation that was opened and in which no upload has begun. If the worker asked to `wait`,
then it is clear to upload only once it was `resumed`. -/
structure Opened (wait : Bool) (resumed : Prop) (c : WorkerConversation) : Prop where
  sound : Sound c
  state : c.state = .awaitingWaitAck ∨ c.state = .connected ∨ c.state = .failed
  resumed : wait = true → c.state = .connected → resumed

theorem opened_onOpen (wait : Bool) (resumed : Prop) : Opened wait resumed (fresh.onOpen wait) where
  sound := sound_fresh.onOpen wait
  state := by cases wait <;> simp [fresh, onOpen]
  resumed := by
    rintro rfl hstate
    simp [fresh, onOpen] at hstate

namespace Opened

variable {wait : Bool} {resumed : Prop} {c : WorkerConversation}

theorem outbox (h : Opened wait resumed c) : c.outbox = [] := by
  refine h.sound.outbox_eq_nil fun hstate => ?_
  rcases h.state with hother | hother | hother <;> simp [hstate] at hother

theorem mono {resumed' : Prop} (h : Opened wait resumed c) (himp : resumed → resumed') :
    Opened wait resumed' c := ⟨h.sound, h.state, fun hwait hstate => himp (h.resumed hwait hstate)⟩

theorem idle (h : Opened wait resumed c) (hstate : c.state ≠ .failed) : Idle c := by
  rcases h.state with hopen | hopen | hfailed
  · exact ⟨h.sound, ⟨by simp [hopen], by simp [hopen], by simp [hopen]⟩, by simp [hopen]⟩
  · exact ⟨h.sound, ⟨by simp [hopen], by simp [hopen], by simp [hopen]⟩, by simp [hopen]⟩
  · exact absurd hfailed hstate

/-- An event may clear the conversation to upload or make it fail. -/
theorem tell (h : Opened wait resumed c) (event : ConnectionEvent)
    (hresumed : (WorkerOp.ofEvent event).Resumes → resumed) :
    Opened wait resumed (Connection.tell c event) := by
  have hsound := h.sound.perform (.ofEvent event)
  rw [tell_eq]
  by_cases hfailed : c.state = .failed
  · have hsame := perform_of_terminal h.sound (by simp [isTerminal, hfailed]) (.ofEvent event)
    rw [if_neg (by cases event <;> simp [WorkerOp.ofEvent])] at hsame
    rw [hsame]
    exact h
  · have hadvance := (h.idle hfailed).advance (.ofEvent event)
    generalize c.perform (.ofEvent event) = after at hsound hadvance
    generalize hop : WorkerOp.ofEvent event = op at hadvance hresumed
    cases hadvance with
    | stays => exact h
    | opens => cases event <;> cases hop
    | resumes op hresumes => exact ⟨hsound, .inr (.inl rfl), fun _ _ => hresumed hresumes⟩
    | uploads => cases event <;> cases hop
    | fails op after hnone hstate =>
      exact ⟨hsound, .inr (.inr hstate), fun _ hconnected => by simp [hstate] at hconnected⟩

theorem foldl_tell (h : Opened wait resumed c) (events : List ConnectionEvent)
    (hresumed : ∀ event ∈ events, (WorkerOp.ofEvent event).Resumes → resumed) :
    Opened wait resumed (events.foldl Connection.tell c) := by
  induction events generalizing c with
  | nil => exact h
  | cons event rest ih =>
    exact ih (h.tell event (hresumed event List.mem_cons_self))
      fun other hother => hresumed other (List.mem_cons_of_mem _ hother)

end Opened

/-! ## After the upload -/

/-- What is told after the upload at most clears the outbox. -/
theorem Committed.foldl_tell {c : WorkerConversation} (h : Committed c)
    (events : List ConnectionEvent) : Committed (events.foldl Connection.tell c) ∧
      (events.foldl Connection.tell c).outbox <+: c.outbox := by
  induction events generalizing c with
  | nil => exact ⟨h, List.prefix_rfl⟩
  | cons event rest ih =>
    obtain ⟨hafter, -, hframes⟩ := h.perform (.ofEvent event)
    have hnone : c.framesOf (.ofEvent event) = [] := by cases event <;> rfl
    rw [hnone, List.nil_append] at hframes
    rw [List.foldl_cons, tell_eq]
    exact ⟨(ih hafter).1, (ih hafter).2.trans hframes⟩

/-- A conversation from whose outbox frames were taken is as sound as before. -/
theorem Sound.withOutbox {c : WorkerConversation} (h : Sound c) {frames : List Frame}
    (hframes : frames <:+ c.outbox) : Sound { c with outbox := frames } :=
  { h with
    outbox := fun hne => h.outbox fun hnil => hne (List.suffix_nil.1 (hnil ▸ hframes)) }

theorem Committed.withOutbox {c : WorkerConversation} (h : Committed c) {frames : List Frame}
    (hframes : frames <:+ c.outbox) : Committed { c with outbox := frames } :=
  ⟨h.sound.withOutbox hframes, h.connecting, h.connected, h.waiting⟩

end WorkerConversation

namespace Connection

open ChannelCall

variable {κ : Type} [Channel κ]

/-! ## Frames on the wire -/

/-- The frames that were sent. -/
def sent {π : Type} (c : Connection (Recorded κ) π) : List Frame := sentIn c.channel.calls

/-- What has arrived, as far as it was read. -/
def arrived {π : Type} (c : Connection (Recorded κ) π) : List Arrival := readIn c.channel.calls

/-- The frames that are still to be sent. -/
def due (c : Connection (Recorded κ) WorkerConversation) : List Frame :=
  c.held.toList ++ c.conversation.outbox

/-- What driving a connection makes of it: some of what was due was sent, and if the connection is
still open the rest is due. -/
structure Advances (c after : Connection (Recorded κ) WorkerConversation) : Prop where
  conversation : after.conversation = { c.conversation with outbox := after.conversation.outbox }
  outbox : after.conversation.outbox <:+ c.conversation.outbox
  idle : c.due = [] → after.due = []
  sent : ∃ now, after.sent = c.sent ++ now ∧ now <+: c.due ∧ (c.closed = true → now = []) ∧
    (after.closed = false → now ++ after.due = c.due)
  closed : c.closed = true → after.closed = true
  arrived : c.arrived ⊆ after.arrived
  told : ∀ frame, .frame frame ∈ after.events →
    .frame frame ∈ c.events ∨ .frame frame ∈ after.arrived

namespace Advances

omit [Channel κ]

variable {c after last : Connection (Recorded κ) WorkerConversation}

theorem refl (c : Connection (Recorded κ) WorkerConversation) : c.Advances c where
  conversation := rfl
  outbox := List.suffix_rfl
  idle h := h
  sent := ⟨[], (List.append_nil _).symm, List.nil_prefix, fun _ => rfl, fun _ => rfl⟩
  closed h := h
  arrived := List.Subset.refl _
  told _ h := .inl h

theorem trans (h : c.Advances after) (h' : after.Advances last) : c.Advances last where
  conversation := by rw [h'.conversation, h.conversation]
  outbox := h'.outbox.trans h.outbox
  idle hdue := h'.idle (h.idle hdue)
  sent := by
    obtain ⟨now, hsent, hnow, hnone, hrest⟩ := h.sent
    obtain ⟨more, hsent', hmore, hnone', hrest'⟩ := h'.sent
    refine ⟨now ++ more, ?_, ?_, ?_, ?_⟩
    · rw [hsent', hsent, List.append_assoc]
    · cases hclosed : after.closed with
      | true => rwa [hnone' hclosed, List.append_nil]
      | false =>
        rw [← hrest hclosed]
        exact (List.prefix_append_right_inj now).2 hmore
    · intro hclosed
      rw [hnone hclosed, hnone' (h.closed hclosed)]
      rfl
    · intro hopen
      have hbetween : after.closed = false := by
        cases hclosed : after.closed with
        | true => exact (h'.closed hclosed).symm.trans hopen
        | false => rfl
      rw [List.append_assoc, hrest' hopen, hrest hbetween]
  closed hclosed := h'.closed (h.closed hclosed)
  arrived := List.Subset.trans h.arrived h'.arrived
  told frame hframe := by
    rcases h'.told frame hframe with hbefore | harrived
    · exact (h.told frame hbefore).imp_right fun harrived => h'.arrived harrived
    · exact .inr harrived

/-- What sends nothing and leaves the conversation alone. -/
theorem of_unsent {calls : List ChannelCall} (hcalls : after.channel.calls = c.channel.calls ++ calls)
    (hunsent : ∀ call ∈ calls, call.sent? = none) (hconversation : after.conversation = c.conversation)
    (hheld : after.held = c.held ∨ after.held = none ∧ after.closed = true)
    (hclosed : c.closed = true → after.closed = true)
    (htold : ∀ frame, .frame frame ∈ after.events →
      .frame frame ∈ c.events ∨ .frame frame ∈ readIn calls) : c.Advances after := by
  have hsent : after.sent = c.sent := by
    rw [Connection.sent, Connection.sent, hcalls, sentIn, List.filterMap_append,
      List.filterMap_eq_nil_iff.2 hunsent, List.append_nil]
    rfl
  have harrived : after.arrived = c.arrived ++ readIn calls := by
    rw [Connection.arrived, hcalls, readIn, List.flatMap_append]
    rfl
  refine ⟨?_, ?_, fun hdue => ?_, ⟨[], ?_, List.nil_prefix, fun _ => rfl, fun hopen => ?_⟩, hclosed,
    ?_, fun frame h => ?_⟩
  · rw [hconversation]
  · exact hconversation ▸ List.suffix_rfl
  · obtain ⟨hnone, houtbox⟩ := List.append_eq_nil_iff.1 hdue
    rw [due, hconversation, houtbox]
    rcases hheld with hsame | ⟨hlost, -⟩
    · rw [hsame, hnone]
      rfl
    · rw [hlost]
      rfl
  · rw [hsent, List.append_nil]
  · rcases hheld with hsame | ⟨-, hshut⟩
    · rw [due, due, hsame, hconversation]
      rfl
    · exact absurd (hshut.symm.trans hopen) (by decide)
  · rw [harrived]
    exact List.subset_append_left _ _
  · refine (htold frame h).imp_right fun hread => ?_
    rw [harrived]
    exact List.mem_append_right _ hread

end Advances

/-! ## Driving -/

/-- Frames are sent in order. Without a failure the first that is not sent is in hand, and the others
are left. -/
theorem sent_writeFrames (frames : List Frame) (r : Recorded κ) (accepted : Bool) :
    let w := writeFrames r accepted frames
    ∃ now, sentIn w.channel.calls = sentIn r.calls ++ now ∧ now <+: frames ∧
      readIn w.channel.calls = readIn r.calls ∧ w.rest <:+ frames.tail ∧
      (w.failure = none → now ++ (w.held.toList ++ w.rest) = frames) := by
  induction frames generalizing r accepted with
  | nil => exact ⟨[], (List.append_nil _).symm, List.prefix_rfl, rfl, List.suffix_rfl, fun _ => rfl⟩
  | cons frame rest ih =>
    have hask : Channel.pollReady r = r.note .asked (Channel.pollReady r.channel) := rfl
    have hunsent (call : ChannelCall) (h : call.sent? = none) :
        sentIn (r.calls ++ [call]) = sentIn r.calls := by
      rw [sentIn_append, h, Option.toList_none, List.append_nil]
    have hunread (calls : List ChannelCall) (call : ChannelCall) (h : call.arrivals = []) :
        readIn (calls ++ [call]) = readIn calls := by
      rw [readIn, List.flatMap_append, List.flatMap_singleton, h, List.append_nil]
      rfl
    rw [writeFrames, hask]
    rcases Channel.pollReady r.channel with ⟨_ | _ | e, channel⟩
    · have hsend : Channel.send (Recorded.mk channel (r.calls ++ [.asked .ready])) frame
          = Recorded.send ⟨channel, r.calls ++ [.asked .ready]⟩ frame := rfl
      simp only [Recorded.note, hsend, Recorded.send]
      rcases Channel.send channel frame with ⟨e | u, after⟩
      · refine ⟨[], ?_, List.nil_prefix, ?_, List.suffix_rfl, by simp⟩
        · rw [sentIn_append, hunsent _ rfl]
          rfl
        · rw [hunread _ _ rfl, hunread _ _ rfl]
      · -- the frame is sent, and the others follow it
        obtain ⟨now, hsent, hnow, hread, hrest, hwhole⟩ :=
          ih ⟨after, (r.calls ++ [.asked .ready]) ++ [.accepted frame]⟩ true
        refine ⟨frame :: now, ?_, ?_, ?_, hrest.trans (List.tail_suffix rest), ?_⟩
        · rw [hsent, sentIn_append, hunsent _ rfl, List.append_assoc]
          rfl
        · exact (List.prefix_cons_inj frame).2 hnow
        · rw [hread, hunread _ _ rfl, hunread _ _ rfl]
        · intro hnone
          rw [List.cons_append, hwhole hnone]
    · refine ⟨[], ?_, List.nil_prefix, hunread _ _ rfl, List.suffix_rfl, fun _ => rfl⟩
      exact (hunsent _ rfl).trans (List.append_nil _).symm
    · refine ⟨[], ?_, List.nil_prefix, hunread _ _ rfl, List.suffix_rfl, by simp [Recorded.note]⟩
      exact (hunsent _ rfl).trans (List.append_nil _).symm

variable (c : Connection (Recorded κ) WorkerConversation)

theorem advances_write (hopen : c.closed = false) : c.Advances c.write := by
  obtain ⟨channel, conversation, events, held, unflushed, _⟩ := c
  obtain rfl : _ = false := hopen
  obtain ⟨now, hsent, hnow, hread, hrest, hwhole⟩ :=
    sent_writeFrames (held.toList ++ Conversation.outbox conversation) channel unflushed
  -- the frame in hand is no longer in the outbox
  have hsuffix : (held.toList ++ conversation.outbox).tail <:+ conversation.outbox := by
    cases held with
    | none => exact List.tail_suffix _
    | some frame => exact List.suffix_rfl
  rw [write]
  dsimp only
  generalize writeFrames channel unflushed (held.toList ++ Conversation.outbox conversation) = w
    at hsent hread hrest hwhole ⊢
  have harrived : readIn channel.calls ⊆ readIn w.channel.calls := by
    rw [hread]
    exact List.Subset.refl _
  obtain ⟨after, hand, rest, accepted, _ | e⟩ := w
  · have hsplit : now ++ (hand.toList ++ rest) = held.toList ++ conversation.outbox := hwhole rfl
    refine ⟨rfl, hrest.trans hsuffix, fun hdue => ?_, ⟨now, hsent, hnow, by simp, fun _ => hsplit⟩,
      by simp, harrived, fun _ h => .inl h⟩
    exact (List.append_eq_nil_iff.1 (hsplit.trans hdue)).2
  · refine ⟨rfl, hrest.trans hsuffix, fun hdue => ?_, ⟨now, hsent, hnow, by simp, by simp [fail]⟩,
      by simp, harrived, fun frame h => ?_⟩
    · have houtbox : conversation.outbox = [] := (List.append_eq_nil_iff.1 hdue).2
      exact List.suffix_nil.1 (houtbox ▸ hrest.trans hsuffix)
    · change ConnectionEvent.frame frame ∈ events ++ [.closed e.text] at h
      exact .inl (by simpa using h)

theorem advances_flush : c.Advances c.flush := by
  obtain ⟨channel, conversation, events, held, unflushed, closed⟩ := c
  have hask : Channel.pollFlush channel
      = channel.note .flushed (Channel.pollFlush channel.channel) := rfl
  rw [flush, hask]
  split
  · exact .refl _
  · rename_i hopen
    have hquiet (answer : Readiness) : ∀ call ∈ [ChannelCall.flushed answer], call.sent? = none :=
      List.forall_mem_singleton.2 rfl
    rcases Channel.pollFlush channel.channel with ⟨_ | _ | e, after⟩
    · refine .of_unsent rfl (hquiet .ready) rfl (.inl rfl) id fun frame h => ?_
      change ConnectionEvent.frame frame ∈ if held.isNone then events ++ [.flushed] else events at h
      split at h
      · exact .inl (by simpa using h)
      · exact .inl h
    · exact .of_unsent rfl (hquiet .pending) rfl (.inl rfl) id fun frame h => .inl h
    · refine .of_unsent rfl (hquiet (.failed e)) rfl (.inr ⟨rfl, rfl⟩) (fun _ => rfl) fun frame h => ?_
      change ConnectionEvent.frame frame ∈ events ++ [.closed e.text] at h
      exact .inl (by simpa using h)

/-- A frame of which a conversation is told was read. -/
theorem mem_of_mem_map_event {items : List Arrival} {frame : Frame}
    (h : .frame frame ∈ items.map Arrival.event) : .frame frame ∈ items := by
  obtain ⟨item, hitem, hevent⟩ := List.mem_map.1 h
  rcases item with ⟨text | data | reason⟩ | e | _ <;> cases hevent <;> exact hitem

theorem advances_read : c.Advances c.read := by
  obtain ⟨channel, conversation, events, held, unflushed, _ | _⟩ := c
  · have hconsume : ∀ n, Channel.consume channel n = ⟨Channel.consume channel.channel n,
        channel.calls ++ [.read ((Channel.readable channel).take n)]⟩ := fun n => rfl
    have hquiet (items : List Arrival) : ∀ call ∈ [ChannelCall.read items], call.sent? = none :=
      List.forall_mem_singleton.2 rfl
    have htold (items : List Arrival) (frame : Frame)
        (h : .frame frame ∈ events ++ items.map Arrival.event) :
        .frame frame ∈ events ∨ .frame frame ∈ readIn [.read items] := by
      refine (List.mem_append.1 h).imp_right fun hmem => ?_
      simpa [readIn, arrivals] using mem_of_mem_map_event hmem
    obtain ⟨hall, hread⟩ | ⟨before, last, after, hitems, -, hlast, hread⟩ :=
      readEvents_cases (Channel.readable channel)
    · rw [read, hread]
      simp only [hconsume, List.take_length]
      exact .of_unsent rfl (hquiet _) rfl (.inl rfl) (by simp) (htold _)
    · have htook : (Channel.readable channel).take (before.length + 1) = before ++ [last] := by
        rw [hitems, List.take_length_add_append]
        rfl
      rw [read, hread]
      simp only [hconsume, htook]
      -- a channel that fails takes the frame in hand with it
      cases last.isError with
      | true => exact .of_unsent rfl (hquiet _) rfl (.inr ⟨rfl, rfl⟩) (by simp) (htold _)
      | false => exact .of_unsent rfl (hquiet _) rfl (.inl rfl) (by simp) (htold _)
  · exact .refl _

theorem advances_poll : c.Advances c.poll.2 := by
  have hpoll : c.poll.2 = (if c.closed then c else c.write).flush.read := rfl
  rw [hpoll]
  refine .trans ?_ ((advances_flush _).trans (advances_read _))
  split
  · exact .refl c
  · rename_i hopen
    exact advances_write c (by simpa using hopen)

/-! ## What driving keeps -/

/-- The worker has let the upload begin. -/
def Resumed {π : Type} (c : Connection (Recorded κ) π) : Prop :=
  ∃ text, .frame (.text text) ∈ c.arrived ∧ WorkerMessage.parse text = .ok .resume

/-- A connection over which nothing is sent yet. -/
structure Withholds (wait : Bool) (c : Connection (Recorded κ) WorkerConversation) : Prop where
  sent : c.sent = []
  hand : c.held = none
  opened : c.conversation.Opened wait c.Resumed
  told : ∀ frame, .frame frame ∈ c.events → .frame frame ∈ c.arrived

/-- A connection over which no more than some frames is sent, in their order. -/
structure Carries (frames : List Frame) (c : Connection (Recorded κ) WorkerConversation) : Prop where
  sent : c.sent <+: frames
  due : c.closed = false → c.sent ++ c.due <+: frames
  committed : c.conversation.Committed

/-- A connection that is clear to upload, over which nothing is sent yet. -/
structure Cleared (wait : Bool) (c : Connection (Recorded κ) WorkerConversation) : Prop where
  withholds : c.Withholds wait
  resumed : wait = true → c.Resumed

namespace Withholds

variable {wait : Bool} {c : Connection (Recorded κ) WorkerConversation}

theorem poll (h : c.Withholds wait) : c.poll.2.Withholds wait := by
  have hadvances := advances_poll c
  have hdue : c.due = [] := by
    rw [due, h.hand, h.opened.outbox]
    rfl
  obtain ⟨now, hsent, hnow, -⟩ := hadvances.sent
  obtain rfl : now = [] := List.prefix_nil.1 (hdue ▸ hnow)
  obtain ⟨hnone, houtbox⟩ := List.append_eq_nil_iff.1 (hadvances.idle hdue)
  have hsame : c.poll.2.conversation = c.conversation := by
    rw [hadvances.conversation, houtbox, ← h.opened.outbox]
  refine ⟨?_, Option.toList_eq_nil_iff.1 hnone, ?_, fun frame hframe => ?_⟩
  · rw [hsent, h.sent]
    rfl
  · rw [hsame]
    exact h.opened.mono fun ⟨text, htext, hparse⟩ => ⟨text, hadvances.arrived htext, hparse⟩
  · rcases hadvances.told frame hframe with hbefore | harrived
    · exact hadvances.arrived (h.told frame hbefore)
    · exact harrived

omit [Channel κ] in
theorem dispatch (h : c.Withholds wait) : c.dispatch.Withholds wait := by
  refine ⟨h.sent, h.hand, h.opened.foldl_tell c.events fun event hevent hresumes => ?_,
    by simp [Connection.dispatch]⟩
  obtain ⟨text, hop, hparse⟩ := hresumes
  obtain rfl : event = .frame (.text text) := by
    cases event <;> simp [WorkerOp.ofEvent] at hop ⊢
    exact hop
  exact ⟨text, h.told _ hevent, hparse⟩

omit [Channel κ] in
/-- A connection that has been cleared to upload by the worker, or need not wait for that. -/
theorem cleared (h : c.Withholds wait) (hstate : c.conversation.state = .connected) :
    c.Cleared wait := ⟨h, fun hwait => h.opened.resumed hwait hstate⟩

end Withholds

theorem Cleared.poll {wait : Bool} {c : Connection (Recorded κ) WorkerConversation}
    (h : c.Cleared wait) : c.poll.2.Cleared wait where
  withholds := h.withholds.poll
  resumed hwait := by
    obtain ⟨text, htext, hparse⟩ := h.resumed hwait
    exact ⟨text, (advances_poll c).arrived htext, hparse⟩

namespace Carries

variable {frames : List Frame} {c : Connection (Recorded κ) WorkerConversation}

theorem poll (h : c.Carries frames) : c.poll.2.Carries frames := by
  have hadvances := advances_poll c
  obtain ⟨now, hsent, hnow, hnone, hrest⟩ := hadvances.sent
  refine ⟨?_, fun hopen => ?_, ?_⟩
  · rw [hsent]
    cases hclosed : c.closed with
    | true =>
      rw [hnone hclosed, List.append_nil]
      exact h.sent
    | false => exact ((List.prefix_append_right_inj c.sent).2 hnow).trans (h.due hclosed)
  · have hbefore : c.closed = false := by
      cases hclosed : c.closed with
      | true => exact (hadvances.closed hclosed).symm.trans hopen
      | false => rfl
    rw [hsent, List.append_assoc, hrest hopen]
    exact h.due hbefore
  · rw [hadvances.conversation]
    exact h.committed.withOutbox hadvances.outbox

omit [Channel κ] in
theorem dispatch (h : c.Carries frames) : c.dispatch.Carries frames := by
  obtain ⟨hcommitted, houtbox⟩ := h.committed.foldl_tell c.events
  refine ⟨h.sent, fun hopen => List.IsPrefix.trans ?_ (h.due hopen), hcommitted⟩
  exact (List.prefix_append_right_inj c.sent).2 ((List.prefix_append_right_inj _).2 houtbox)

omit [Channel κ] in
/-- To take the result changes nothing of what is sent. -/
theorem taken (h : c.Carries frames) :
    Carries frames { c with conversation := c.conversation.takeResult.2 } :=
  ⟨h.sent, h.due, (h.committed.perform .taken).1⟩

end Carries

omit [Channel κ] in
/-- An upload that is accepted makes its frames due, and no others. -/
theorem carries_of_beginUpload {wait : Bool} {c : Connection (Recorded κ) WorkerConversation}
    (h : c.Withholds wait) {job : JobEnvelope} {payload : Bytes} {conversation : WorkerConversation}
    (hupload : c.conversation.beginUpload job payload = .ok conversation) :
    Carries (WorkerConversation.jobFrames job payload) { c with conversation } := by
  have hsound := h.opened.sound.beginUpload hupload
  obtain ⟨-, rfl⟩ := WorkerConversation.beginUpload_ok hupload
  refine ⟨?_, fun _ => ?_, hsound, by simp, by simp, by simp⟩
  · show c.sent <+: _
    rw [h.sent]
    exact List.nil_prefix
  · show c.sent ++ (c.held.toList ++ (c.conversation.outbox ++ _)) <+: _
    rw [h.sent, h.hand, h.opened.outbox]
    exact List.prefix_rfl

/-- What is kept while a connection is driven, if there is one. -/
structure KeptByDriving (K : Option (Connection (Recorded κ) WorkerConversation) → Prop) :
    Prop where
  poll : ∀ c, K (some c) → K (some c.poll.2)
  dispatch : ∀ c, K (some c) → K (some c.dispatch)
  /-- the world changes the channel -/
  refresh : ∀ c channel, K (some c) → K (some { c with channel := { c.channel with channel } })

/-- There is a connection, of which something holds. -/
def Meets (K : Connection (Recorded κ) WorkerConversation → Prop)
    (worker : Option (Connection (Recorded κ) WorkerConversation)) : Prop :=
  ∃ c, worker = some c ∧ K c

theorem keptByDriving_none : KeptByDriving (κ := κ) (· = none) :=
  ⟨by simp, by simp, by simp⟩

theorem KeptByDriving.of_meets {K : Connection (Recorded κ) WorkerConversation → Prop}
    (hpoll : ∀ c, K c → K c.poll.2) (hdispatch : ∀ c, K c → K c.dispatch)
    (hrefresh : ∀ c channel, K c → K { c with channel := { c.channel with channel } }) :
    KeptByDriving (Meets K) := by
  refine ⟨fun c hc => ?_, fun c hc => ?_, fun c channel hc => ?_⟩ <;>
    obtain ⟨_, hsome, h⟩ := hc <;> obtain rfl := Option.some.inj hsome
  · exact ⟨_, rfl, hpoll c h⟩
  · exact ⟨_, rfl, hdispatch c h⟩
  · exact ⟨_, rfl, hrefresh c channel h⟩

theorem keptByDriving_withholds (wait : Bool) : KeptByDriving (κ := κ) (Meets (Withholds wait)) :=
  .of_meets (fun _ h => h.poll) (fun _ h => h.dispatch)
    fun _ _ h => ⟨h.sent, h.hand, h.opened, h.told⟩

theorem keptByDriving_cleared (wait : Bool) : KeptByDriving (κ := κ) (Meets (Cleared wait)) :=
  .of_meets (fun _ h => h.poll) (fun _ h => ⟨h.withholds.dispatch, h.resumed⟩)
    fun _ _ h => ⟨⟨h.withholds.sent, h.withholds.hand, h.withholds.opened, h.withholds.told⟩,
      h.resumed⟩

theorem keptByDriving_carries (frames : List Frame) :
    KeptByDriving (κ := κ) (Meets (Carries frames)) :=
  .of_meets (fun _ h => h.poll) (fun _ h => h.dispatch) fun _ _ h => ⟨h.sent, h.due, h.committed⟩

end Connection

end Offload
