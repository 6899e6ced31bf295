import Offload.Proofs.Conversation.Ending
import Mathlib.Data.List.Basic

/-!
# What decides a conversation with the scheduler

However openings, polls, frames and closes follow each other, the first frame or close decides, and
nothing else does (`decided_once`). What it decides is read off that event alone and off whether the
connection had been opened (`SchedulerOp.Means`). The job is announced once at most.
-/

namespace Offload

/-! ## Runs -/

/-- Something that is done to a conversation with the scheduler. -/
inductive SchedulerOp where
  | opened
  | polled
  | flushed
  | frame (frame : Frame)
  | closed (reason : String)
  | taken
deriving DecidableEq, Repr

namespace SchedulerOp

/-- Frames and closes decide a conversation. -/
def Decides : SchedulerOp → Prop
  | frame _ | closed _ => True
  | _ => False

instance : DecidablePred Decides
  | frame _ | closed _ => .isTrue trivial
  | opened | polled | flushed | taken => .isFalse not_false

/-- The outcome that an event means, by whether the connection was opened before it. -/
inductive Means (opened : Prop) : SchedulerOp → SchedulerOutcome → Prop
  | assigned (text : String) (worker : Assignment) (hopened : opened)
    (hparse : SchedulerMessage.parse text = .ok (.assignment worker))
    (hport : worker.port ≠ 0) (hhost : worker.host ≠ "") :
    Means opened (.frame (.text text)) (.assigned worker)
  | noWorker (text : String) (worker : Assignment) (hopened : opened)
    (hparse : SchedulerMessage.parse text = .ok (.assignment worker))
    (hunusable : worker.port = 0 ∨ worker.host = "") :
    Means opened (.frame (.text text)) .noWorker
  | needsEnvironment (text : String) (hopened : opened)
    (hparse : SchedulerMessage.parse text = .ok .needsEnvironment) :
    Means opened (.frame (.text text)) .needsEnvironment
  | versionVerified (text version : String) (hopened : opened)
    (hparse : SchedulerMessage.parse text = .ok (.versionVerified version)) :
    Means opened (.frame (.text text)) (.versionVerified version)
  | versionMismatch (text version : String) (hopened : opened)
    (hparse : SchedulerMessage.parse text = .ok (.versionMismatch version)) :
    Means opened (.frame (.text text)) (.versionMismatch version)
  | reported (text report : String) (hopened : opened)
    (hparse : SchedulerMessage.parse text = .error (.remote report)) :
    Means opened (.frame (.text text)) (.failed ("scheduler error: " ++ report))
  | unreadable (text : String) (cause : MessageError) (hopened : opened)
    (hparse : SchedulerMessage.parse text = .error cause) (hcause : ∀ report, cause ≠ .remote report) :
    Means opened (.frame (.text text)) (.failed ("bad scheduler message: " ++ cause.text))
  | binary (data : Bytes) (hopened : opened) :
    Means opened (.frame (.binary data)) (.failed
      ("unexpected binary frame (" ++ toString data.length ++ " bytes) from scheduler"))
  | closeFrame (reason : Option String) (hopened : opened) :
    Means opened (.frame (.close reason))
      (.failed ("scheduler closed the connection: " ++ reason.getD ""))
  | early (frame : Frame) (hunopened : ¬ opened) :
    Means opened (.frame frame) (.failed "scheduler spoke before the announcement")
  | closed (reason : String) :
    Means opened (.closed reason) (.failed ("scheduler closed the connection: " ++ reason))

end SchedulerOp

namespace SchedulerConversation

/-- The conversation after an operation. -/
def perform (c : SchedulerConversation) : SchedulerOp → SchedulerConversation
  | .opened => c.onOpen
  | .polled => c.pollOutbound.2
  | .flushed => c.onFlushed
  | .frame frame => c.onFrame frame
  | .closed reason => c.onClosed reason
  | .taken => c.takeOutcome.2

/-- The conversation after a sequence of operations. -/
def performAll (c : SchedulerConversation) (ops : List SchedulerOp) : SchedulerConversation :=
  ops.foldl perform c

@[simp] theorem performAll_nil (c : SchedulerConversation) : c.performAll [] = c := rfl

@[simp] theorem performAll_cons (c : SchedulerConversation) (op : SchedulerOp)
    (ops : List SchedulerOp) : c.performAll (op :: ops) = (c.perform op).performAll ops := rfl

theorem performAll_append (c : SchedulerConversation) (ops ops' : List SchedulerOp) :
    c.performAll (ops ++ ops') = (c.performAll ops).performAll ops' :=
  List.foldl_append

/-- The frames that an operation hands out. -/
def framesOf (c : SchedulerConversation) : SchedulerOp → List Frame
  | .polled => c.pollOutbound.1.toList
  | _ => []

/-- The frames that are handed out in a run, in order. -/
def handedOut (c : SchedulerConversation) : List SchedulerOp → List Frame
  | [] => []
  | op :: rest => c.framesOf op ++ (c.perform op).handedOut rest

variable {c : SchedulerConversation} {opened : Prop}

/-! ## Before the decision -/

/-- A conversation that nothing has decided yet. -/
structure Undecided (opened : Prop) (c : SchedulerConversation) : Prop where
  goesOn : c.isTerminal = false
  outcome : c.outcome = none
  connecting : c.state = .connecting ↔ ¬ opened

theorem undecided_ofClient (client : String) : Undecided False (ofClient client) :=
  ⟨rfl, rfl, by simp [ofClient]⟩

/-- What does not decide leaves a conversation undecided; to open it is what is remembered. -/
theorem Undecided.perform (h : Undecided opened c) {op : SchedulerOp} (hop : ¬ op.Decides) :
    Undecided (opened ∨ op = .opened) (c.perform op) := by
  cases op with
  | opened =>
    show Undecided _ c.onOpen
    unfold onOpen
    split
    · exact ⟨rfl, h.outcome, by simp⟩
    · rename_i hstate
      exact ⟨h.goesOn, h.outcome, by simp [hstate]⟩
  | polled =>
    refine ⟨h.goesOn, h.outcome, ?_⟩
    show c.state = .connecting ↔ _
    simpa using h.connecting
  | flushed =>
    show Undecided _ c.onFlushed
    refine ⟨?_, ?_, ?_⟩
    · rw [isTerminal_onFlushed]
      exact h.goesOn
    · rw [outcome_onFlushed]
      exact h.outcome
    · unfold onFlushed
      split
      · rename_i hsent
        have hopened : opened := by simpa [hsent] using h.connecting
        simp [hopened]
      · simpa using h.connecting
  | frame frame => exact absurd trivial hop
  | closed reason => exact absurd trivial hop
  | taken =>
    refine ⟨h.goesOn, rfl, ?_⟩
    show c.state = .connecting ↔ _
    simpa using h.connecting

theorem Undecided.performAll (h : Undecided opened c) (ops : List SchedulerOp)
    (hops : ∀ op ∈ ops, ¬ op.Decides) :
    Undecided (opened ∨ .opened ∈ ops) (c.performAll ops) := by
  induction ops generalizing c opened with
  | nil => simpa using h
  | cons op rest ih =>
    have hfirst := h.perform (hops op List.mem_cons_self)
    have hrest := ih hfirst fun other hother => hops other (List.mem_cons_of_mem _ hother)
    have hmem : ((opened ∨ op = .opened) ∨ .opened ∈ rest) = (opened ∨ .opened ∈ op :: rest) := by
      rw [List.mem_cons, or_assoc, eq_comm (a := op)]
    rw [hmem] at hrest
    exact hrest

/-! ## The decision -/

theorem isUsable_iff (worker : Assignment) :
    worker.isUsable = true ↔ worker.port ≠ 0 ∧ worker.host ≠ "" := by
  simp [Assignment.isUsable]

theorem Undecided.onFrame_opened (h : Undecided opened c) (hopened : opened) (frame : Frame) :
    c.onFrame frame = c.finish (outcomeOfFrame frame) := by
  have hstate : c.state ≠ .connecting := fun hconnecting => h.connecting.mp hconnecting hopened
  rw [onFrame, if_neg (by simp [h.goesOn]), if_neg hstate]

theorem Undecided.onFrame_unopened (h : Undecided opened c) (hopened : ¬ opened) (frame : Frame) :
    c.onFrame frame = c.finish (.failed "scheduler spoke before the announcement") := by
  rw [onFrame, if_neg (by simp [h.goesOn]), if_pos (h.connecting.mpr hopened)]

theorem Undecided.onClosed (h : Undecided opened c) (reason : String) :
    c.onClosed reason = c.finish (outcomeOfClose reason) := by
  rw [SchedulerConversation.onClosed, if_neg (by simp [h.goesOn])]

/-- A message that can be read ends a conversation in what it means. -/
theorem Undecided.onFrame_of_parse (h : Undecided opened c) (hopened : opened) {text : String}
    {message : SchedulerMessage} (hparse : SchedulerMessage.parse text = .ok message) :
    c.onFrame (.text text) = c.finish (outcomeOfMessage message) := by
  rw [h.onFrame_opened hopened, outcomeOfFrame, outcomeOfText, hparse]

/-- What an event means is the outcome that it ends the conversation in. -/
theorem Undecided.perform_of_means (h : Undecided opened c) {op : SchedulerOp}
    {outcome : SchedulerOutcome} (hmeans : op.Means opened outcome) :
    c.perform op = c.finish outcome := by
  cases hmeans with
  | assigned text worker hopened hparse hport hhost =>
    have husable := (isUsable_iff worker).mpr ⟨hport, hhost⟩
    show c.onFrame _ = _
    rw [h.onFrame_of_parse hopened hparse, outcomeOfMessage, if_pos husable]
  | noWorker text worker hopened hparse hunusable =>
    have husable : ¬ worker.isUsable = true := by
      rw [isUsable_iff, not_and_or, not_ne_iff, not_ne_iff]
      exact hunusable
    show c.onFrame _ = _
    rw [h.onFrame_of_parse hopened hparse, outcomeOfMessage, if_neg husable]
  | needsEnvironment text hopened hparse => exact h.onFrame_of_parse hopened hparse
  | versionVerified text version hopened hparse => exact h.onFrame_of_parse hopened hparse
  | versionMismatch text version hopened hparse => exact h.onFrame_of_parse hopened hparse
  | reported text report hopened hparse =>
    show c.onFrame _ = _
    rw [h.onFrame_opened hopened, outcomeOfFrame, outcomeOfText, hparse]
  | unreadable text cause hopened hparse hcause =>
    show c.onFrame _ = _
    rw [h.onFrame_opened hopened, outcomeOfFrame, outcomeOfText, hparse]
    cases cause with
    | remote report => exact absurd rfl (hcause report)
    | _ => rfl
  | binary data hopened => exact h.onFrame_opened hopened _
  | closeFrame reason hopened => exact h.onFrame_opened hopened _
  | early frame hunopened => exact h.onFrame_unopened hunopened frame
  | closed reason => exact h.onClosed reason

/-- Every frame and every close means something. -/
theorem exists_means (opened : Prop) {op : SchedulerOp} (hop : op.Decides) :
    ∃ outcome, op.Means opened outcome := by
  cases op with
  | closed reason => exact ⟨_, .closed reason⟩
  | frame frame =>
    by_cases hopened : opened
    · cases frame with
      | binary data => exact ⟨_, .binary data hopened⟩
      | close reason => exact ⟨_, .closeFrame reason hopened⟩
      | text text =>
        cases hparse : SchedulerMessage.parse text with
        | error cause =>
          cases cause with
          | remote report => exact ⟨_, .reported text report hopened hparse⟩
          | _ => exact ⟨_, .unreadable text _ hopened hparse (by simp)⟩
        | ok message =>
          cases message with
          | needsEnvironment => exact ⟨_, .needsEnvironment text hopened hparse⟩
          | versionMismatch version => exact ⟨_, .versionMismatch text version hopened hparse⟩
          | versionVerified version => exact ⟨_, .versionVerified text version hopened hparse⟩
          | assignment worker =>
            by_cases husable : worker.port ≠ 0 ∧ worker.host ≠ ""
            · exact ⟨_, .assigned text worker hopened hparse husable.1 husable.2⟩
            · rw [not_and_or, not_ne_iff, not_ne_iff] at husable
              exact ⟨_, .noWorker text worker hopened hparse husable⟩
    · exact ⟨_, .early frame hopened⟩
  | _ => exact absurd hop not_false

/-- Only a usable worker is assigned. -/
theorem usable_of_means {op : SchedulerOp} {worker : Assignment}
    (h : op.Means opened (.assigned worker)) : worker.port ≠ 0 ∧ worker.host ≠ "" := by
  cases h with
  | assigned text worker hopened hparse hport hhost => exact ⟨hport, hhost⟩

theorem state_finish_eq_failed_iff (c : SchedulerConversation) (outcome : SchedulerOutcome) :
    (c.finish outcome).state = .failed ↔
      (∃ error, outcome = .failed error) ∨ ∃ version, outcome = .versionMismatch version := by
  cases outcome <;> simp [finish, finalState]

/-! ## After the decision -/

/-- Once it has ended and nothing is to be sent, a conversation changes only in that its outcome is
taken. -/
theorem perform_of_terminal (hend : c.isTerminal = true) (hnil : c.outbox = []) (op : SchedulerOp) :
    c.perform op = if op = .taken then { c with outcome := none } else c := by
  cases op with
  | opened =>
    have hstate : c.state ≠ .connecting := by
      intro hconnecting
      simp [isTerminal, hconnecting] at hend
    exact if_neg hstate
  | polled =>
    show { c with outbox := c.outbox.tail } = c
    rw [hnil, List.tail_nil, ← hnil]
  | flushed => exact tell_of_terminal hend .flushed
  | frame frame => exact tell_of_terminal hend (.frame frame)
  | closed reason => exact tell_of_terminal hend (.closed reason)
  | taken => rfl

theorem performAll_of_terminal (hend : c.isTerminal = true) (hnil : c.outbox = [])
    (ops : List SchedulerOp) :
    c.performAll ops = if .taken ∈ ops then { c with outcome := none } else c := by
  induction ops generalizing c with
  | nil => simp
  | cons op rest ih =>
    rw [performAll_cons, perform_of_terminal hend hnil op]
    by_cases htaken : op = .taken
    · have hmem : SchedulerOp.taken ∈ op :: rest := by simp [htaken]
      rw [if_pos htaken, ih (c := { c with outcome := none }) hend hnil, if_pos hmem]
      split <;> rfl
    · rw [if_neg htaken, ih hend hnil]
      simp [Ne.symm htaken]

/-! ## The announcement -/

/-- Once it was opened or has ended, a conversation queues nothing any more. -/
theorem outbox_perform (h : c.state ≠ .connecting) (op : SchedulerOp) :
    (c.perform op).state ≠ .connecting ∧ c.framesOf op ++ (c.perform op).outbox <+: c.outbox := by
  have hfinish : ∀ outcome, (c.finish outcome).state ≠ .connecting := by
    intro outcome
    cases outcome <;> simp [finish, finalState]
  cases op with
  | opened =>
    have hsame : c.perform .opened = c := if_neg h
    rw [hsame]
    exact ⟨h, List.prefix_rfl⟩
  | polled =>
    refine ⟨h, ?_⟩
    show c.outbox.head?.toList ++ c.outbox.tail <+: c.outbox
    cases c.outbox <;> simp
  | flushed =>
    show c.onFlushed.state ≠ _ ∧ c.onFlushed.outbox <+: c.outbox
    unfold onFlushed
    split
    · exact ⟨by simp, List.prefix_rfl⟩
    · exact ⟨h, List.prefix_rfl⟩
  | frame frame =>
    show (c.onFrame frame).state ≠ _ ∧ (c.onFrame frame).outbox <+: c.outbox
    unfold onFrame
    split
    · exact ⟨h, List.prefix_rfl⟩
    · exact ⟨hfinish _, List.nil_prefix⟩
  | closed reason =>
    show (c.onClosed reason).state ≠ _ ∧ (c.onClosed reason).outbox <+: c.outbox
    unfold SchedulerConversation.onClosed
    split
    · exact ⟨h, List.prefix_rfl⟩
    · exact ⟨hfinish _, List.nil_prefix⟩
  | taken => exact ⟨h, List.prefix_rfl⟩

/-- From then on, what is handed out is a beginning of what is to be sent now. -/
theorem handedOut_isPrefix (h : c.state ≠ .connecting) (ops : List SchedulerOp) :
    c.handedOut ops <+: c.outbox := by
  induction ops generalizing c with
  | nil => exact List.nil_prefix
  | cons op rest ih =>
    obtain ⟨hafter, hframes⟩ := outbox_perform h op
    rw [handedOut]
    exact ((List.prefix_append_right_inj _).mpr (ih hafter)).trans hframes

/-- A conversation that has not begun hands out one announcement at most. -/
theorem handedOut_of_connecting (hstate : c.state = .connecting) (hnil : c.outbox = [])
    (ops : List SchedulerOp) : c.handedOut ops <+: [announcement c.client] := by
  induction ops generalizing c with
  | nil => exact List.nil_prefix
  | cons op rest ih =>
    have hnone : c.framesOf op = [] := by
      cases op <;> simp [framesOf, pollOutbound, hnil]
    rw [handedOut, hnone, List.nil_append]
    -- an event that keeps the conversation waiting changes neither the outbox nor the client
    cases op with
    | opened =>
      have hopen : c.perform .opened
          = { c with outbox := [announcement c.client], state := .handshakeSent } := by
        show c.onOpen = _
        rw [onOpen, if_pos hstate, hnil, List.nil_append]
      rw [hopen]
      exact handedOut_isPrefix (by simp) rest
    | polled =>
      have hstays := ih (c := c.perform .polled) hstate (by simp [perform, pollOutbound, hnil])
      exact hstays
    | flushed =>
      have hsame : c.perform .flushed = c := if_neg (by simp [hstate])
      rw [hsame]
      exact ih hstate hnil
    | frame frame =>
      have hend : c.perform (.frame frame)
          = c.finish (.failed "scheduler spoke before the announcement") := by
        show c.onFrame frame = _
        rw [onFrame, if_neg (by simp [isTerminal, hstate]), if_pos hstate]
      rw [hend]
      exact (handedOut_isPrefix (by simp [finish, finalState]) rest).trans List.nil_prefix
    | closed reason =>
      have hend : c.perform (.closed reason) = c.finish (outcomeOfClose reason) := by
        show c.onClosed reason = _
        rw [SchedulerConversation.onClosed, if_neg (by simp [isTerminal, hstate])]
      rw [hend]
      exact (handedOut_isPrefix (by simp [finish, finalState, outcomeOfClose]) rest).trans
        List.nil_prefix
    | taken =>
      have hstays := ih (c := c.perform .taken) hstate hnil
      exact hstays

/-! ## Whole runs -/

/-- A run with an event that decides is cut at the first of them. -/
theorem exists_first_decides {ops : List SchedulerOp} (h : ∃ op ∈ ops, op.Decides) :
    ∃ before event rest, ops = before ++ event :: rest ∧ (∀ op ∈ before, ¬ op.Decides) ∧
      event.Decides := by
  obtain ⟨event, hfind⟩ : ∃ event, ops.find? (fun op => op.Decides) = some event := by
    rw [← Option.isSome_iff_exists, List.find?_isSome]
    simpa using h
  obtain ⟨hevent, before, rest, hops, hbefore⟩ := List.find?_eq_some_iff_append.mp hfind
  exact ⟨before, event, rest, hops, by simpa using hbefore, by simpa using hevent⟩

/-- A run that is decided, from its first frame or close on. -/
theorem decided_performAll (client : String) (rest : List SchedulerOp) {before : List SchedulerOp}
    {event : SchedulerOp} (hbefore : ∀ op ∈ before, ¬ op.Decides) {outcome : SchedulerOutcome}
    (hmeans : event.Means (.opened ∈ before) outcome) :
    let c := (ofClient client).performAll before
    (ofClient client).performAll (before ++ [event]) = c.finish outcome ∧
      (ofClient client).performAll (before ++ event :: rest)
        = if .taken ∈ rest then { c.finish outcome with outcome := none } else c.finish outcome := by
  intro c
  have hundecided := (undecided_ofClient client).performAll before hbefore
  rw [false_or] at hundecided
  have hevent : c.perform event = c.finish outcome := hundecided.perform_of_means hmeans
  refine ⟨?_, ?_⟩
  · rw [performAll_append, performAll_cons, performAll_nil]
    exact hevent
  · rw [performAll_append, performAll_cons]
    show (c.perform event).performAll rest = _
    rw [hevent]
    exact performAll_of_terminal (isTerminal_finish c outcome) rfl rest

/-- In every run of a conversation, what ends it is the first frame or close, and before that it has no
outcome. The outcome is what this event means, by whether the connection was opened before it: a worker
that is assigned has a port and a host, and the conversation fails with an error or a version mismatch
and with nothing else. What comes later changes nothing, except that the outcome can be taken. What is
handed out is one announcement or nothing. -/
theorem decided_once (client : String) (ops : List SchedulerOp) :
    (((ofClient client).performAll ops).isTerminal = true ↔ ∃ op ∈ ops, op.Decides) ∧
      ((∀ op ∈ ops, ¬ op.Decides) → ((ofClient client).performAll ops).outcome = none) ∧
      (∀ before event rest, ops = before ++ event :: rest → (∀ op ∈ before, ¬ op.Decides) →
        event.Decides →
        let decided := (ofClient client).performAll (before ++ [event])
        ∃ outcome, decided.outcome = some outcome ∧
          (∀ other, event.Means (.opened ∈ before) other ↔ other = outcome) ∧
          (decided.state = .failed ↔
            (∃ error, outcome = .failed error) ∨ ∃ version, outcome = .versionMismatch version) ∧
          (∀ worker, outcome = .assigned worker → worker.port ≠ 0 ∧ worker.host ≠ "") ∧
          (ofClient client).performAll ops
            = if .taken ∈ rest then { decided with outcome := none } else decided) ∧
      ((ofClient client).handedOut ops = [] ∨
        (ofClient client).handedOut ops = [announcement client]) := by
  have hundecided : (∀ op ∈ ops, ¬ op.Decides) →
      Undecided (.opened ∈ ops) ((ofClient client).performAll ops) := by
    intro hops
    simpa using (undecided_ofClient client).performAll ops hops
  refine ⟨⟨?_, ?_⟩, fun hops => (hundecided hops).outcome, ?_, ?_⟩
  · intro hend
    by_contra hnone
    have hopen := (hundecided fun op hop hdecides => hnone ⟨op, hop, hdecides⟩).goesOn
    rw [hend] at hopen
    exact absurd hopen (by decide)
  · intro hsome
    -- the first of the events that decide
    obtain ⟨before, event, rest, rfl, hbefore, hevent⟩ := exists_first_decides hsome
    obtain ⟨outcome, hmeans⟩ := exists_means (.opened ∈ before) hevent
    have hend := isTerminal_finish ((ofClient client).performAll before) outcome
    rw [(decided_performAll client rest hbefore hmeans).2]
    split <;> exact hend
  · rintro before event rest rfl hbefore hevent decided
    obtain ⟨outcome, hmeans⟩ := exists_means (.opened ∈ before) hevent
    obtain ⟨hdecided, hlast⟩ := decided_performAll client rest hbefore hmeans
    have hfinish : decided = ((ofClient client).performAll before).finish outcome := hdecided
    refine ⟨outcome, ?_, ?_, ?_, ?_, ?_⟩
    · rw [hfinish]
      exact outcome_finish _ outcome
    · intro other
      refine ⟨fun hother => ?_, fun hsame => hsame ▸ hmeans⟩
      have hagain := (decided_performAll client [] hbefore hother).1
      have hsame := congrArg SchedulerConversation.outcome (hagain.symm.trans hdecided)
      exact Option.some.inj hsame
    · rw [hfinish]
      exact state_finish_eq_failed_iff _ outcome
    · rintro worker rfl
      exact usable_of_means hmeans
    · rw [hfinish]
      exact hlast
  · have hout := handedOut_of_connecting (c := ofClient client) rfl rfl ops
    rcases List.prefix_cons_iff.mp hout with hnone | ⟨rest, hall, hrest⟩
    · exact .inl hnone
    · rw [List.prefix_nil.mp hrest] at hall
      exact .inr hall

/-- An assignment decides; that the scheduler then closes the connection does not count. -/
theorem decided_once_assigned :
    let worker : Assignment := ⟨"10.0.0.5", "", 4000, 7, "abc", ["-g0"]⟩
    let event : SchedulerOp := .frame (.text (SchedulerMessage.assignment worker).encode)
    let c := (ofClient "dev-box").performAll [.opened, .polled, event, .closed "bye"]
    c.outcome = some (.assigned worker) ∧ c.state ≠ .failed := by
  intro worker event c
  obtain ⟨-, -, hdecided, -⟩ :=
    decided_once "dev-box" [.opened, .polled, event, .closed "bye"]
  obtain ⟨outcome, houtcome, hmeans, hfailed, -, hlast⟩ :=
    hdecided [.opened, .polled] event [.closed "bye"] rfl (by decide) trivial
  have hparse : SchedulerMessage.parse (SchedulerMessage.assignment worker).encode
      = .ok (.assignment worker) := by decide +kernel
  have hworker : SchedulerOutcome.assigned worker = outcome :=
    (hmeans _).mp (.assigned _ worker (by decide) hparse (by decide) (by decide))
  rw [if_neg (by decide)] at hlast
  show ((ofClient "dev-box").performAll _).outcome = _ ∧
    ((ofClient "dev-box").performAll _).state ≠ _
  rw [hlast, houtcome, Ne, hfailed, ← hworker]
  simp

end SchedulerConversation

end Offload
