import Offload.Connection

/-!
# A channel that follows a script

The far end of the channel answers each frame that it is handed as a script says; whether it is
ready to take frames, to flush and to close is set from outside.
-/

namespace Offload.Scenario

/-- What the far end does with a frame. -/
inductive Reply where
  | nothing
  | arrivals (items : List Arrival)
  /-- the frame is taken, and then the peer is gone -/
  | vanish
  /-- the frame is not taken -/
  | refuse (what : String)
deriving DecidableEq, Repr

/-- A channel with a script. -/
structure Script where
  /-- what can be read -/
  arrivals : List Arrival
  /-- what is done with the frames to come; nothing when the list has ended -/
  replies : List Reply
  ready : Readiness
  flush : Readiness
  closing : Readiness
  vanished : Bool
  /-- the frames that were taken -/
  sent : List Frame
  /-- whether the near end has ended the channel -/
  shut : Bool
deriving DecidableEq, Repr

namespace Script

/-- A channel that is ready for everything. -/
def ofReplies (arrivals : List Arrival) (replies : List Reply) : Script :=
  ⟨arrivals, replies, .ready, .ready, .ready, false, [], false⟩

/-- Something becomes readable. -/
def push (s : Script) (items : List Arrival) : Script := { s with arrivals := s.arrivals ++ items }

/-- The far end does what the script says with a frame. -/
def take (s : Script) (frame : Frame) : Except TransportError Unit × Script :=
  let reply := s.replies.head?.getD .nothing
  let s := { s with replies := s.replies.tail }
  let taken := { s with sent := s.sent ++ [frame] }
  match reply with
  | .nothing => (.ok (), taken)
  | .arrivals items => (.ok (), taken.push items)
  | .vanish => (.ok (), { taken with vanished := true })
  | .refuse what => (.error (.socket what), s)

instance : Channel Script where
  pollReady s := (if s.vanished then .failed .closed else s.ready, s)
  send := take
  pollFlush s := (if s.vanished then .failed .closed else s.flush, s)
  pollClose s := (s.closing, { s with shut := true })
  readable s := s.arrivals ++ if s.vanished then [.ended] else []
  consume s n := { s with arrivals := s.arrivals.drop n }

end Script

end Offload.Scenario
