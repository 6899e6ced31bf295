import Offload.Proofs.Compile.Aside
import Offload.Proofs.Compile.Output
import Offload.Proofs.Compile.Witnessed
import Offload.Proofs.Worker.Wire

/-!
# What an attempt sends to a worker

An attempt has three phases. In the first the scheduler names a worker; in the second the worker is
asked, once, and until it is clear to upload and the source is there nothing is sent to it; in the
third the job is sent. What is on record of the worker (`Parts.wire`) is followed through the phases
by the few steps that act on it. Whether the compile ends does not matter here: a run that stalls has sent
what it has sent.
-/

namespace Offload

open Relation Multiplexer Connection

variable {ω κ α : Type}

/-! ## On record -/

/-- What is on record: the handshakes, and what holds of the connection to a worker. -/
structure Dealings (handshakes : List Handshake)
    (K : Option (Connection (Recorded κ) WorkerConversation) → Prop)
    (record : List Handshake × Option (Connection (Recorded κ) WorkerConversation)) : Prop where
  handshakes : record.1 = handshakes
  worker : K record.2

section Steps

variable [Channel κ] [Collaborators ω κ] {run : CompileRun (Witnessed ω) (Recorded κ)}
  {handshakes : List Handshake}
  {K K' : Option (Connection (Recorded κ) WorkerConversation) → Prop}

/-- What is on record at a point of an attempt. -/
abbrev CompileRun.Deals (handshakes : List Handshake)
    (K : Option (Connection (Recorded κ) WorkerConversation) → Prop)
    (run : CompileRun (Witnessed ω) (Recorded κ)) : Prop :=
  run.Seen Parts.wire (Dealings handshakes K)

theorem CompileRun.Deals.mono (h : run.Deals handshakes K)
    (himp : K run.parts.worker → K' run.parts.worker) : run.Deals handshakes K' :=
  ⟨h.sourced, h.holds.handshakes, himp h.holds.worker⟩

omit [Channel κ] in
theorem blind_wire : Blind (ω := Witnessed ω) (κ := Recorded κ) Parts.wire where
  launched p inv := rfl
  ended p := by
    unfold Parts.pollPreprocessor
    split
    · split <;> rename_i hanswer <;> obtain rfl := (Prod.mk.inj hanswer).2 <;> rfl
    · rfl
  hashed p files := rfl
  scheduler p c := rfl

/-- A step that leaves the record alone. -/
theorem Leaves.deals {step : Step (Witnessed ω) (Recorded κ) α} (h : Leaves Parts.wire run step)
    (hrun : run.Deals handshakes K) {Q : α → CompileRun (Witnessed ω) (Recorded κ) → Prop}
    (hok : ∀ a after, step.result run = (.ok a, after) → Q a after) :
    Leads False run (fun _ => step) (fun a after => after.Deals handshakes K ∧ Q a after)
      (fun _ after => after.Deals handshakes K) := by
  have hleads : Leads False run (fun _ => step) (fun _ after => after.Deals handshakes K)
      (fun _ after => after.Deals handshakes K) := h.leads hrun fun _ _ hafter _ => hafter
  exact ⟨fun rounds a after hresult => ⟨hleads.success rounds a after hresult, hok a after hresult⟩,
    hleads.failure, False.elim⟩

/-- Waiting asks for no connection, and drives the one to the worker. -/
theorem kept_dealings (mux : Multiplexer (Parts (Witnessed ω) (Recorded κ)))
    (hmux : ∀ source ∈ mux.sources, OfAttempt source.2) (hK : KeptByDriving K) :
    KeptByWaiting Parts.around mux fun p => Dealings handshakes K p.wire where
  poll source hsource p hp := by
    have hattempt := hmux source hsource
    generalize source.2 = polled at hattempt ⊢
    cases hattempt with
    | watchdog => exact hp
    | preprocessor =>
      change Dealings handshakes K p.pollPreprocessor.2.wire
      rw [blind_wire.ended]
      exact hp
    | scheduler =>
      change Dealings handshakes K p.pollScheduler.2.wire
      unfold Parts.pollScheduler
      split <;> exact hp
    | worker =>
      change Dealings handshakes K p.pollWorker.2.wire
      unfold Parts.pollWorker
      split
      · rename_i c hc
        have hworker : K p.worker := hp.worker
        rw [hc] at hworker
        exact ⟨hp.handshakes, hK.poll c hworker⟩
      · exact hp
  meanwhile p hp := by
    have hworker : K p.worker := hp.worker
    refine ⟨hp.handshakes, ?_⟩
    show K (p.worker.map _)
    cases hc : p.worker with
    | none => rwa [hc] at hworker
    | some c =>
      rw [hc] at hworker
      exact hK.refresh c _ hworker
  idle p later hp hlater := by
    obtain ⟨s, hs, rfl⟩ := Option.map_eq_some_iff.mp hlater
    obtain ⟨_, -, rfl⟩ := Option.map_eq_some_iff.mp hs
    exact hp
  dispatch source hsource p hp := by
    have hattempt := hmux source hsource
    generalize source.2 = told at hattempt ⊢
    cases hattempt with
    | worker =>
      have hworker : K p.worker := hp.worker
      refine ⟨hp.handshakes, ?_⟩
      show K (p.worker.map Connection.dispatch)
      cases hc : p.worker with
      | none => rwa [hc] at hworker
      | some c =>
        rw [hc] at hworker
        exact hK.dispatch c hworker
    | _ => exact hp

theorem deals_await (hK : KeptByDriving K) (hrun : run.Deals handshakes K)
    (aim : Parts (Witnessed ω) (Recorded κ) → Bool) :
    Leads False run (fun rounds => Attempt.await rounds aim)
      (fun _ after => after.Deals handshakes K ∧ ReflTransGen (Move False) run after ∧
        aim after.parts = true)
      (fun _ after => after.Deals handshakes K) := by
  have hkept (rounds : Nat) : CompileRun.Deals handshakes K
      { run with parts := (Attempt.waited run aim rounds).state } :=
    ⟨hrun.sourced, state_runUntil (kept_dealings run.mux hrun.sourced hK) _ rounds _ hrun.holds⟩
  refine ⟨fun rounds a after hresult => ?_, fun rounds why after hresult => ?_, False.elim⟩
  · obtain ⟨-, haim⟩ := Attempt.reached_of_await hresult
    obtain rfl := Attempt.eq_of_await hresult
    exact ⟨hkept rounds, Attempt.moves_waited hrun.sourced rounds, haim⟩
  · obtain rfl := Attempt.eq_of_await hresult
    exact hkept rounds

/-- The request is noted, with the answer. -/
theorem deals_connect (hrun : run.Deals handshakes K) (request : ConnectRequest)
    (refused : TransportError → Fallback) :
    Leads False run (fun _ => Attempt.connect request refused)
      (fun accepted after => accepted.channel.calls = [] ∧
        after.Deals (handshakes ++ [⟨request, .ok accepted.headers⟩]) K)
      (fun _ after => ∃ cause, after.Deals (handshakes ++ [⟨request, .error cause⟩]) K) := by
  have hresult := Attempt.result_connect run request refused
  have hnoted : run.parts.surroundings.handshakes = handshakes := hrun.holds.handshakes
  rw [Witnessed.connect_eq] at hresult
  generalize Collaborators.connect run.parts.surroundings.surroundings request = answer at hresult
  rcases answer with ⟨cause | accepted, later⟩
  · refine .of_error hresult ⟨cause, hrun.sourced, ?_, hrun.holds.worker⟩ (by simp)
    exact congrArg (· ++ [_]) hnoted
  · refine .of_ok hresult ⟨rfl, hrun.sourced, ?_, hrun.holds.worker⟩
    exact congrArg (· ++ [_]) hnoted

/-- A wait for the worker ends with its aim or with the end of the conversation, which has not
failed. -/
theorem deals_awaitWorker (hK : KeptByDriving K) (hrun : run.Deals handshakes K)
    (aim : Parts (Witnessed ω) (Recorded κ) → Bool) :
    Leads False run (fun rounds => Attempt.awaitWorker rounds aim)
      (fun _ after => after.Deals handshakes K ∧
        (aim after.parts || after.parts.workerIs WorkerConversation.isTerminal) = true ∧
        after.parts.workerIs (fun c => c.state = .failed) = false)
      (fun _ after => after.Deals handshakes K) := by
  refine .bind (deals_await hK hrun _) fun _ ended hended => ?_
  refine (Leaves.deals (Attempt.leaves_checkWorker ended) hended.1
    fun _ after hresult => Attempt.result_checkWorker_ok hresult).mono ?_ fun _ _ h => h
  rintro _ after ⟨hafter, rfl, hstate⟩
  exact ⟨hafter, hended.2.2, hstate⟩

end Steps

/-! ## Phases -/

namespace Attempt

variable [Channel κ] [Collaborators ω κ]

/-- The first phase: the scheduler names a worker. -/
def awaitAssignment (rounds : Nat) (request : CompileRequest) : Step ω κ Assignment := do
  match request.invocation.sourceFile? with
  | none => giveUp .noSingleSource
  | some source =>
    begin request
    acquireWorker rounds request source

/-- The second phase: the worker is asked, and the source is there. It comes to whether the worker
asked to wait, and to the source. -/
def awaitSource (rounds : Nat) (request : CompileRequest) (worker : Assignment) :
    Step ω κ (Bool × Bytes) := do
  checkPreprocessor
  act (Parts.enter .acquiredWorker)
  let accepted ← connect (workerRequest request.config worker)
    (.workerUnreachable (workerName worker))
  let wait := asksToWait accepted.headers
  greetWorker accepted.channel wait
  awaitWorker rounds (Parts.workerIs WorkerConversation.isClearToUpload)
  awaitWorker rounds Parts.preprocessorEnded
  checkPreprocessor
  let payload ← preprocessedSource
  return (wait, payload)

/-- The third phase: the job is sent, and its result is delivered. -/
def handOver (rounds : Nat) (request : CompileRequest) (worker : Assignment) (wait : Bool)
    (payload : Bytes) : Step ω κ CompileOutcome := do
  beginUpload (workerName worker) (envelope request worker wait payload) payload
  awaitWorker rounds (Parts.workerIs WorkerConversation.uploadFlushed)
  act (Parts.enter .uploadedJob)
  awaitWorker rounds fun _ => false
  let result ← takeResult (workerName worker)
  deliver rounds request.invocation result
  return ⟨result.exitCode.toInt, .onWorker (workerName worker)⟩

theorem remote_eq_phases (rounds : Nat) (request : CompileRequest) :
    remote (ω := ω) (κ := κ) rounds request = (do
      let worker ← awaitAssignment rounds request
      let (wait, payload) ← awaitSource rounds request worker
      handOver rounds request worker wait payload) := by
  unfold remote awaitAssignment awaitSource handOver upload
  cases request.invocation.sourceFile? with
  | none => rfl
  | some source => simp only [bind_assoc, pure_bind]

end Attempt

/-! ## The first phase -/

/-- Whoever is assigned is a worker that can be connected to. -/
theorem SchedulerConversation.keptByTalk_usable :
    KeptByTalk fun c : SchedulerConversation =>
      ∀ worker, c.outcome = some (.assigned worker) → worker.isUsable = true where
  took c hc frames := hc
  told c hc event := by
    have hfinish (outcome : SchedulerOutcome)
        (h : ∀ worker, outcome = .assigned worker → worker.isUsable = true) (worker : Assignment)
        (houtcome : (c.finish outcome).outcome = some (.assigned worker)) :
        worker.isUsable = true := h worker (Option.some.inj houtcome)
    cases event with
    | flushed =>
      show ∀ worker, c.onFlushed.outcome = _ → _
      rw [outcome_onFlushed]
      exact hc
    | closed reason =>
      show ∀ worker, (c.onClosed reason).outcome = _ → _
      unfold onClosed
      split
      · exact hc
      · exact hfinish _ (by simp [outcomeOfClose])
    | frame frame =>
      show ∀ worker, (c.onFrame frame).outcome = _ → _
      unfold onFrame
      split
      · exact hc
      · split
        · exact hfinish _ (by simp)
        · refine hfinish _ fun worker hworker => ?_
          cases frame with
          | text text =>
            change outcomeOfText text = _ at hworker
            unfold outcomeOfText outcomeOfMessage at hworker
            split at hworker
            · split at hworker
              · cases hworker
              · split at hworker
                · rename_i husable
                  cases hworker
                  exact husable
                · cases hworker
              · cases hworker
              · cases hworker
            · cases hworker
            · cases hworker
          | binary data => cases hworker
          | close reason => cases hworker

/-- No connection was asked for but, once at most, one to the scheduler. -/
def AsksScheduler (request : CompileRequest) (handshakes : List Handshake) : Prop :=
  handshakes = [] ∨ ∃ environment source answer,
    handshakes = [⟨Attempt.schedulerRequest request environment source, answer⟩]

/-- The scheduler has assigned a usable worker, which was not asked for a connection yet. -/
structure Assigned (request : CompileRequest) (worker : Assignment)
    (before : CompileRun (Witnessed ω) (Recorded κ)) : Prop where
  outcome : Attempt.schedulerOutcome? before.parts = some (.assigned worker)
  usable : worker.isUsable = true
  asked : ∃ environment source headers, before.parts.wire =
    ([⟨Attempt.schedulerRequest request environment source, .ok headers⟩], none)

section Phases

variable [Channel κ] [Collaborators ω κ] {run : CompileRun (Witnessed ω) (Recorded κ)}
  {handshakes : List Handshake} {request : CompileRequest}

theorem deals_acquireWorker (hrun : run.Deals [] (· = none)) (source : String) :
    Leads False run (fun rounds => Attempt.acquireWorker rounds request source)
      (fun worker before => before.Sourced ∧ Assigned request worker before)
      (fun _ after => ∃ handshakes, AsksScheduler request handshakes ∧
        after.Deals handshakes (· = none)) := by
  refine .bind (((Attempt.leaves_identify run blind_wire _).deals hrun fun _ _ _ => trivial).mono
    (fun _ _ h => h) fun _ after h => ⟨[], .inl rfl, h⟩) fun environment after hafter => ?_
  refine .bind ((deals_connect hafter.1 _ _).mono (fun _ _ h => h) fun _ after ⟨cause, h⟩ =>
    ⟨_, .inr ⟨environment, source, .error cause, rfl⟩, h⟩) fun accepted after hafter => ?_
  -- from here on nothing more is noted
  let asked : Handshake :=
    ⟨Attempt.schedulerRequest request environment source, .ok accepted.headers⟩
  refine Leads.mono (Q := fun worker before => before.Sourced ∧ Assigned request worker before)
    (E := fun _ after => after.Deals [asked] (· = none)) ?_ (fun _ _ h => h)
    fun _ after h => ⟨_, .inr ⟨environment, source, .ok accepted.headers, rfl⟩, h⟩
  refine .bind ((Leaves.act rfl).deals hafter.2 fun _ _ _ => trivial) fun _ after hafter => ?_
  refine .bind ((Attempt.leaves_greetScheduler after blind_wire _ _).deals hafter.1
    (Q := fun _ greeted => greeted.parts.SchedulerIs fun c =>
      ∀ worker, c.outcome = some (.assigned worker) → worker.isUsable = true)
    fun _ greeted hresult => ?_) fun _ greeted hgreeted => ?_
  · obtain rfl := (Prod.mk.inj hresult).2
    intro c hc
    obtain rfl := Option.some.inj hc
    exact fun worker h => by cases h
  refine .bind (deals_await keptByDriving_none hgreeted.1 _) fun _ last hlast => ?_
  refine ((Attempt.leaves_assignment last).deals hlast.1 fun worker before hresult =>
    Attempt.result_assignment_ok hresult).mono ?_ fun _ _ h => h
  rintro worker before ⟨hbefore, rfl, houtcome⟩
  have husable := (kept_schedulerIs SchedulerConversation.keptByTalk_usable).moves hlast.2.1
    hgreeted.2
  obtain ⟨c, hc, hworker⟩ := Option.bind_eq_some_iff.mp houtcome
  exact ⟨hbefore.sourced, houtcome, husable c hc worker hworker, environment, source,
    accepted.headers, Prod.ext hbefore.holds.handshakes hbefore.holds.worker⟩

theorem deals_awaitAssignment (request : CompileRequest) (hrun : run.Deals [] (· = none)) :
    Leads False run (fun rounds => Attempt.awaitAssignment rounds request)
      (fun worker before => before.Sourced ∧ Assigned request worker before)
      (fun _ after => ∃ handshakes, AsksScheduler request handshakes ∧
        after.Deals handshakes (· = none)) := by
  unfold Attempt.awaitAssignment
  cases request.invocation.sourceFile? with
  | none => exact .of_error rfl ⟨[], .inl rfl, hrun⟩ (by simp)
  | some source =>
    have hbegin : Leaves Parts.wire run (Attempt.begin request) :=
      .bind (.act rfl) fun _ after _ => Attempt.leaves_launch after blind_wire _
    refine .bind ((hbegin.deals hrun fun _ _ _ => trivial).mono (fun _ _ h => h)
      fun _ after h => ⟨[], .inl rfl, h⟩) fun _ after hafter => ?_
    exact deals_acquireWorker hafter.1 source

/-! ## The second phase -/

theorem deals_greetWorker (hrun : run.Deals handshakes (· = none)) {channel : Recorded κ}
    (hchannel : channel.calls = []) (wait : Bool) :
    Leads False run (fun _ => Attempt.greetWorker channel wait)
      (fun _ after => after.Deals handshakes (Meets (Withholds wait)))
      (fun _ after => after.Deals handshakes (Meets (Withholds wait))) := by
  refine .of_ok (a := ()) rfl
    ⟨?_, hrun.holds.handshakes, _, rfl, ?_, rfl, ?_, by simp [Connection.ofChannel]⟩
  · have hmove (met : CompileRun (Witnessed ω) (Recorded κ)) :
        Move False met (met.addSource Parts.workerSource) := .registered met _ .worker
    exact kept_sourced _ _ (hmove _) hrun.sourced
  · show ChannelCall.sentIn channel.calls = []
    rw [hchannel]
    rfl
  · exact WorkerConversation.opened_onOpen wait _

theorem deals_awaitSource (request : CompileRequest) (hrun : run.Deals handshakes (· = none))
    (worker : Assignment) :
    Leads False run (fun rounds => Attempt.awaitSource rounds request worker)
      (fun prepared ready => ∃ headers, prepared.1 = Attempt.asksToWait headers ∧
        ready.Deals (handshakes ++ [⟨Attempt.workerRequest request.config worker, .ok headers⟩])
          (Meets (Cleared prepared.1)) ∧
        ∃ result, ready.parts.PreprocessedTo result ∧ prepared.2 = result.stdout)
      (fun _ after => after.Deals handshakes (· = none) ∨ ∃ answer,
        after.Deals (handshakes ++ [⟨Attempt.workerRequest request.config worker, answer⟩])
          fun met => ∀ c, met = some c → c.sent = []) := by
  -- until the worker is asked, nothing changes
  refine .bind (((Attempt.leaves_checkPreprocessor run).deals hrun fun _ _ _ => trivial).mono
    (fun _ _ h => h) fun _ _ h => .inl h) fun _ after hafter => ?_
  refine .bind (((Leaves.act rfl).deals hafter.1 fun _ _ _ => trivial).mono
    (fun _ _ h => h) fun _ _ h => .inl h) fun _ after hafter => ?_
  refine .bind ((deals_connect hafter.1 _ _).mono (fun _ _ h => h) fun _ after ⟨cause, h⟩ =>
    .inr ⟨.error cause, h.mono fun hnone c hc => by simp [hnone] at hc⟩)
    fun accepted after hafter => ?_
  -- and until the source is there, nothing is sent
  have hunsent {K : Connection (Recorded κ) WorkerConversation → Prop}
      (hK : ∀ c, K c → c.sent = []) (why : Abandon) (after : CompileRun (Witnessed ω) (Recorded κ))
      (h : after.Deals (handshakes ++
        [⟨Attempt.workerRequest request.config worker, .ok accepted.headers⟩]) (Meets K)) :
      after.Deals handshakes (· = none) ∨ ∃ answer,
        after.Deals (handshakes ++ [⟨Attempt.workerRequest request.config worker, answer⟩])
          fun met => ∀ c, met = some c → c.sent = [] :=
    .inr ⟨_, h.mono fun ⟨d, hd, hholds⟩ c hc =>
      hK c (Option.some.inj (hd.symm.trans hc) ▸ hholds)⟩
  generalize hwait : Attempt.asksToWait accepted.headers = wait
  refine .bind ((deals_greetWorker hafter.2 hafter.1 wait).mono (fun _ _ h => h)
    (hunsent fun _ h => h.sent)) fun _ after hafter => ?_
  refine .bind ((deals_awaitWorker (keptByDriving_withholds wait) hafter _).mono (fun _ _ h => h)
    (hunsent fun _ h => h.sent)) fun _ after hafter => ?_
  have hcleared : after.Deals _ (Meets (Cleared wait)) := hafter.1.mono fun ⟨c, hc, hholds⟩ => by
    have hopen : c.conversation.state ≠ .failed := by simpa [Parts.workerIs, hc] using hafter.2.2
    have haim : c.conversation.state = .connected ∨ c.conversation.state = .done := by
      simpa [Parts.workerIs, hc, WorkerConversation.isClearToUpload,
        WorkerConversation.isTerminal, hopen] using hafter.2.1
    refine ⟨c, hc, hholds.cleared ?_⟩
    rcases hholds.opened.state with hstate | hstate | hstate
    · simp [hstate] at haim
    · exact hstate
    · exact absurd hstate hopen
  have hsilent (c : Connection (Recorded κ) WorkerConversation) (h : c.Cleared wait) : c.sent = [] :=
    h.withholds.sent
  refine .bind ((deals_awaitWorker (keptByDriving_cleared wait) hcleared _).mono (fun _ _ h => h)
    (hunsent hsilent)) fun _ after hafter => ?_
  refine .bind (((Attempt.leaves_checkPreprocessor after).deals hafter.1 fun _ _ hresult =>
    Attempt.result_checkPreprocessor_ok hresult).mono (fun _ _ h => h) (hunsent hsilent))
    fun _ after hafter => ?_
  refine .bind (((Attempt.leaves_preprocessedSource after).deals hafter.1 fun _ _ hresult =>
    Attempt.result_preprocessedSource_ok hresult).mono (fun _ _ h => h) (hunsent hsilent))
    fun payload ready hready => ?_
  obtain ⟨hdeals, rfl, result, hended, hpayload⟩ := hready
  exact .of_ok rfl ⟨accepted.headers, hwait.symm, hdeals, result,
    ⟨hended, hafter.2 result hended⟩, hpayload⟩

/-! ## The third phase -/

/-- Over a connection nothing was sent but a beginning of the frames of a job, of a source of the
size that it announces. -/
def SendsJob (job : JobEnvelope) (payload : Bytes)
    (c : Connection (Recorded κ) WorkerConversation) : Prop :=
  c.sent = [] ∨
    job.bytes.toNat = payload.length ∧ c.sent <+: WorkerConversation.jobFrames job payload

theorem deals_beginUpload {wait : Bool} (hrun : run.Deals handshakes (Meets (Withholds wait)))
    (name : String) (job : JobEnvelope) (payload : Bytes) :
    Leads False run (fun _ => Attempt.beginUpload name job payload)
      (fun _ after => job.bytes.toNat = payload.length ∧
        after.Deals handshakes (Meets (Carries (WorkerConversation.jobFrames job payload))))
      (fun _ after => after.Deals handshakes (Meets (SendsJob job payload))) := by
  refine .get_bind ?_
  obtain ⟨c, hc, hholds⟩ := hrun.holds.worker
  change run.parts.worker = some c at hc
  simp only [hc]
  cases hupload : c.conversation.beginUpload job payload with
  | error cause =>
    exact .of_error rfl (hrun.mono fun ⟨d, hd, h⟩ => ⟨d, hd, .inl h.sent⟩) (by simp)
  | ok conversation =>
    exact .of_ok (a := ()) rfl ⟨WorkerConversation.size_of_beginUpload hupload, hrun.sourced,
      hrun.holds.handshakes, _, rfl, carries_of_beginUpload hholds hupload⟩

theorem deals_takeResult {frames : List Frame} (hrun : run.Deals handshakes (Meets (Carries frames)))
    (name : String) :
    Leads False run (fun _ => Attempt.takeResult name)
      (fun _ after => after.Deals handshakes (Meets (Carries frames)))
      (fun _ after => after.Deals handshakes (Meets (Carries frames))) := by
  refine .get_bind ?_
  obtain ⟨c, hc, hholds⟩ := hrun.holds.worker
  change run.parts.worker = some c at hc
  split
  · exact .of_error rfl hrun (by simp)
  · refine .bind (Q := fun _ after => after.Deals handshakes (Meets (Carries frames)))
      (.of_ok (a := ()) rfl ⟨hrun.sourced, hrun.holds.handshakes, _,
        congrArg (Option.map fun c => _) hc, hholds.taken⟩)
      fun _ after hafter => ?_
    split
    · exact .of_error rfl hafter (by simp)
    · exact .of_ok rfl hafter

/-- To close the connection to the scheduler is to wait, as far as the worker is concerned. -/
theorem kept_dealings_closing {K : Option (Connection (Recorded κ) WorkerConversation) → Prop}
    (hK : KeptByDriving K) :
    KeptByClosing (ω := Witnessed ω) fun p => Dealings handshakes K p.wire := by
  have hkept : KeptByWaiting (Parts.around (ω := Witnessed ω)) .empty
      fun p => Dealings handshakes K p.wire := kept_dealings _ (by simp [Multiplexer.empty]) hK
  refine ⟨fun p c channel hc hp => hp, hkept.meanwhile, ?_⟩
  intro p later hlater hp
  exact hkept.idle p later hp hlater

theorem deals_present {K : Option (Connection (Recorded κ) WorkerConversation) → Prop}
    (hK : KeptByDriving K) (hrun : run.Deals handshakes K) (rounds : Nat) (result : JobResult) :
    ((Attempt.present rounds result).result run).2.Deals handshakes K := by
  have hbefore : Dealings handshakes K (Attempt.beforeClosing run).parts.wire := by
    have hshown := CompileRun.wire_showMessages { run with parts := run.parts.enter .finished }
    show Dealings handshakes K (CompileRun.showMessages _).parts.wire
    rw [hshown]
    exact hrun.holds
  have hclosing := (kept_dealings_closing hK).awaitClosing rounds
    (Attempt.beginClosing (Attempt.beforeClosing run).parts) (Attempt.beforeClosing run).parts hbefore
  refine ⟨kept_sourced.moves (moves_present run rounds result) hrun.sourced, ?_⟩
  rw [Attempt.result_present]
  split
  · rw [CompileRun.wire_showOutput]
    exact hclosing
  · exact hclosing

theorem deals_handOver (request : CompileRequest) {wait : Bool}
    (hrun : run.Deals handshakes (Meets (Withholds wait))) (worker : Assignment) (payload : Bytes) :
    let job := Attempt.envelope request worker wait payload
    Leads False run (fun rounds => Attempt.handOver rounds request worker wait payload)
      (fun _ after => after.Deals handshakes (Meets (SendsJob job payload)))
      (fun _ after => after.Deals handshakes (Meets (SendsJob job payload))) := by
  intro job
  refine .bind (deals_beginUpload hrun _ job payload) fun _ after ⟨hsize, hafter⟩ => ?_
  -- from here on the frames of the job are carried
  have hkept := keptByDriving_carries (κ := κ) (WorkerConversation.jobFrames job payload)
  have hsends (after : CompileRun (Witnessed ω) (Recorded κ))
      (h : after.Deals handshakes (Meets (Carries (WorkerConversation.jobFrames job payload)))) :
      after.Deals handshakes (Meets (SendsJob job payload)) :=
    h.mono fun ⟨c, hc, hcarries⟩ => ⟨c, hc, .inr ⟨hsize, hcarries.sent⟩⟩
  refine Leads.mono (Q := fun _ after =>
      after.Deals handshakes (Meets (Carries (WorkerConversation.jobFrames job payload))))
    (E := fun _ after =>
      after.Deals handshakes (Meets (Carries (WorkerConversation.jobFrames job payload))))
    ?_ (fun _ after h => hsends after h) fun _ after h => hsends after h
  refine .bind (deals_awaitWorker hkept hafter _) fun _ after hafter => ?_
  refine .bind ((Leaves.act rfl).deals hafter.1 fun _ _ _ => trivial) fun _ after hafter => ?_
  refine .bind (deals_awaitWorker hkept hafter.1 _) fun _ after hafter => ?_
  refine .bind (deals_takeResult hafter.1 _) fun result after hafter => ?_
  refine .bind (Q := fun _ after =>
      after.Deals handshakes (Meets (Carries (WorkerConversation.jobFrames job payload)))) ?_
    fun _ after hafter => .of_ok rfl hafter
  simp only [Attempt.deliver_eq]
  refine .bind ((Attempt.leaves_writeFiles after _ _).deals hafter fun _ _ _ => trivial)
    fun _ after hafter => ?_
  exact (leads_present result (deals_present hkept hafter.1 · result)).mono (fun _ _ h => h)
    fun _ _ h => h.2

end Phases

/-! ## A compile -/

section Compile

variable [Channel κ] [Collaborators ω κ] {request : CompileRequest}

/-- All that is asked of the scheduler and a worker over a compile. -/
def CompileRun.handshakes (run : CompileRun (Witnessed ω) (Recorded κ)) : List Handshake :=
  run.parts.surroundings.handshakes

/-- A compile comes to a worker that the scheduler assigned. -/
structure ReachesWorker (rounds : Nat) (request : CompileRequest) (worker : Assignment)
    (start before : CompileRun (Witnessed ω) (Recorded κ)) : Prop where
  reached : ∃ tried, start.trying? request = some tried ∧
    (Attempt.awaitAssignment rounds request).result tried = (.ok worker, before)
  assigned : Assigned request worker before

/-- A worker was asked and answered with `headers`; now it is clear to upload, and the preprocessor
has ended well with the source. So far nothing was sent to the worker. -/
structure ReadyToSend (rounds : Nat) (request : CompileRequest) (worker : Assignment)
    (headers : Headers) (payload : Bytes)
    (before ready : CompileRun (Witnessed ω) (Recorded κ)) : Prop where
  reached : (Attempt.awaitSource rounds request worker).result before
    = (.ok (Attempt.asksToWait headers, payload), ready)
  asked : ready.handshakes
    = before.handshakes ++ [⟨Attempt.workerRequest request.config worker, .ok headers⟩]
  preprocessed : ∃ result, ready.parts.preprocessor = .ended (.ok result) ∧
    result.exitCode = 0 ∧ payload = result.stdout
  unsent : ∃ c, ready.parts.worker = some c ∧ c.sent = [] ∧
    (Headers.last? headers Headers.wait = some "true" → c.Resumed)

/-- A job as it is to be sent to a worker. -/
structure IsJobFor (request : CompileRequest) (worker : Assignment) (headers : Headers)
    (payload : Bytes) (job : JobEnvelope) : Prop where
  commandLine : job.commandLine = request.invocation.args ++ worker.extraArgs
  bytes : job.bytes.toNat = payload.length
  wait : job.wait = true ↔ Headers.last? headers Headers.wait = some "true"

/-- How a compile dealt with a worker, by the state before it and the state after it. -/
inductive WorkerServed (rounds : Nat) (request : CompileRequest)
    (start after : CompileRun (Witnessed ω) (Recorded κ)) : Prop
  /-- no worker was asked for a connection -/
  | unasked (hasked : AsksScheduler request after.handshakes) (hworker : after.parts.worker = none)
  /-- the worker that the scheduler assigned was asked, and nothing was sent to it -/
  | unsent (worker : Assignment) (before : CompileRun (Witnessed ω) (Recorded κ))
    (answer : Except TransportError Headers)
    (hreaches : ReachesWorker rounds request worker start before)
    (hasked : after.handshakes
      = before.handshakes ++ [⟨Attempt.workerRequest request.config worker, answer⟩])
    (hunsent : ∀ c, after.parts.worker = some c → c.sent = [])
  /-- it was asked, and it was sent the job, or a beginning of it -/
  | sent (worker : Assignment) (headers : Headers) (payload : Bytes) (job : JobEnvelope)
    (before ready : CompileRun (Witnessed ω) (Recorded κ))
    (hreaches : ReachesWorker rounds request worker start before)
    (hready : ReadyToSend rounds request worker headers payload before ready)
    (hasked : after.handshakes = ready.handshakes)
    (hjob : IsJobFor request worker headers payload job)
    (hsent : ∃ c, after.parts.worker = some c ∧
      c.sent <+: .text job.encode :: if payload.isEmpty then [] else [.binary payload])

/-- What counts is what is on record. -/
theorem WorkerServed.of_wire {rounds : Nat}
    {start after later : CompileRun (Witnessed ω) (Recorded κ)}
    (h : WorkerServed rounds request start after) (hwire : later.parts.wire = after.parts.wire) :
    WorkerServed rounds request start later := by
  have hhandshakes : later.handshakes = after.handshakes := congrArg Prod.fst hwire
  have hworker : later.parts.worker = after.parts.worker := congrArg Prod.snd hwire
  cases h with
  | unasked hasked hnone => exact .unasked (hhandshakes ▸ hasked) (hworker.trans hnone)
  | unsent worker before answer hreaches hasked hunsent =>
    exact .unsent worker before answer hreaches (hhandshakes.trans hasked) (hworker ▸ hunsent)
  | sent worker headers payload job before ready hreaches hready hasked hjob hsent =>
    exact .sent worker headers payload job before ready hreaches hready
      (hhandshakes.trans hasked) hjob (hworker ▸ hsent)

variable {rounds : Nat} {worker : Assignment}
  {start tried before ready : CompileRun (Witnessed ω) (Recorded κ)}

/-- The third phase ends alike whether it succeeds or fails. -/
theorem served_handOver {headers : Headers} {payload : Bytes}
    (hreaches : ReachesWorker rounds request worker start before)
    (hready : ReadyToSend rounds request worker headers payload before ready)
    (hrun : ready.Deals ready.handshakes (Meets (Withholds (Attempt.asksToWait headers)))) :
    WorkerServed rounds request start ((Attempt.handOver rounds request worker
      (Attempt.asksToWait headers) payload).result ready).2 := by
  have hleads := deals_handOver request hrun worker payload
  rcases hlast : (Attempt.handOver rounds request worker (Attempt.asksToWait headers)
    payload).result ready with ⟨answer, last⟩
  have hdeals : last.Deals ready.handshakes (Meets (SendsJob (Attempt.envelope request worker
      (Attempt.asksToWait headers) payload) payload)) := by
    cases answer with
    | error why => exact hleads.failure rounds why last hlast
    | ok outcome => exact hleads.success rounds outcome last hlast
  obtain ⟨d, hd, hnone | ⟨hsize, hsent⟩⟩ := hdeals.holds.worker
  · refine .unsent worker before (.ok headers) hreaches
      (hdeals.holds.handshakes.trans hready.asked) fun e he => ?_
    obtain rfl := Option.some.inj (hd.symm.trans he)
    exact hnone
  · refine .sent worker headers payload _ before ready hreaches hready hdeals.holds.handshakes
      ⟨rfl, hsize, ?_⟩ ⟨d, hd, hsent⟩
    simp [Attempt.envelope, Attempt.asksToWait]

theorem served_awaitSource (hreaches : ReachesWorker rounds request worker start before)
    (hrun : before.Deals before.handshakes (· = none)) :
    WorkerServed rounds request start ((do
      let (wait, payload) ← Attempt.awaitSource rounds request worker
      Attempt.handOver rounds request worker wait payload).result before).2 := by
  have hleads := deals_awaitSource request hrun worker
  rcases hsecond : (Attempt.awaitSource rounds request worker).result before
    with ⟨why | ⟨wait, payload⟩, ready⟩
  · rw [Step.result_bind_of_error hsecond]
    rcases hleads.failure rounds why ready hsecond with hdeals | ⟨answer, hdeals⟩
    · obtain ⟨environment, source, headers, hwire⟩ := hreaches.assigned.asked
      refine .unasked (.inr ⟨environment, source, .ok headers, ?_⟩) hdeals.holds.worker
      exact hdeals.holds.handshakes.trans (congrArg Prod.fst hwire)
    · exact .unsent worker before answer hreaches hdeals.holds.handshakes hdeals.holds.worker
  · rw [Step.result_bind_of_ok hsecond]
    obtain ⟨headers, rfl, hdeals, result, hpreprocessed, rfl⟩ :=
      hleads.success rounds _ ready hsecond
    obtain ⟨c, hc, hcleared⟩ := hdeals.holds.worker
    refine served_handOver hreaches ⟨hsecond, hdeals.holds.handshakes,
      ⟨result, hpreprocessed.ended, ?_, rfl⟩, c, hc, hcleared.withholds.sent, fun htrue => ?_⟩
      ⟨hdeals.sourced, rfl, c, hc, hcleared.withholds⟩
    · simpa [Preprocessed.succeeded] using hpreprocessed.succeeded
    · exact hcleared.resumed (by simpa [Attempt.asksToWait] using htrue)

/-- What is on record when an attempt ends. -/
theorem served_remote (htry : start.trying? request = some tried)
    (hrun : tried.Deals [] (· = none)) :
    WorkerServed rounds request start ((Attempt.remote rounds request).result tried).2 := by
  have hleads := deals_awaitAssignment request hrun
  rw [Attempt.remote_eq_phases]
  rcases hfirst : (Attempt.awaitAssignment rounds request).result tried with ⟨why | worker, before⟩
  · obtain ⟨handshakes, hasked, hdeals⟩ := hleads.failure rounds why before hfirst
    obtain rfl : before.handshakes = handshakes := hdeals.holds.handshakes
    rw [Step.result_bind_of_error hfirst]
    exact .unasked hasked hdeals.holds.worker
  · obtain ⟨hsourced, hassigned⟩ := hleads.success rounds worker before hfirst
    obtain ⟨environment, source, headers, hwire⟩ := hassigned.asked
    rw [Step.result_bind_of_ok hfirst]
    exact served_awaitSource ⟨⟨tried, htry, hfirst⟩, hassigned⟩
      ⟨hsourced, rfl, congrArg Prod.snd hwire⟩

omit [Channel κ] in
theorem wire_conclude
    (answer : Except Abandon CompileOutcome × CompileRun (Witnessed ω) (Recorded κ)) :
    (CompileRun.conclude request answer).2.parts.wire = answer.2.parts.wire := by
  rcases answer with ⟨why | outcome, after⟩
  · cases why with
    | stalled => rfl
    | tooOld minVersion => exact CompileRun.wire_tearDown after
    | fallback reason =>
      refine (CompileRun.wire_compileHere _ _).trans ?_
      exact CompileRun.wire_tearDown after
  · exact CompileRun.wire_tearDown after

/-- Over every compile a worker is asked for a connection at most once, and only if the scheduler
assigned it and it is usable; and it is sent a beginning of its job and of the preprocessed source,
and nothing before the preprocessor has ended well and the worker has let the upload begin, if it
asked to wait. So say the records of a compile that is watched, and one that is not watched does
the same. -/
theorem worker_served (request : CompileRequest) (surroundings : ω) (slots : SlotController)
    (semaphores : Semaphores) (files : FileTree) (rounds : Nat) :
    let start : CompileRun (Witnessed ω) (Recorded κ) :=
      .fresh request ⟨surroundings, []⟩ slots semaphores files
    let unwatched : CompileRun ω κ := .fresh request surroundings slots semaphores files
    WorkerServed rounds request start (start.compile rounds request).2 ∧
      CompileRun.EndsMirror Witnessed.surroundings Recorded.channel (start.compile rounds request)
        (unwatched.compile rounds request) := by
  intro start unwatched
  have hmirrors : start.Mirrors Witnessed.surroundings Recorded.channel unwatched :=
    ⟨.empty, .nil, rfl⟩
  refine ⟨?_, hmirrors.compile Witnessed.surroundingsMap rounds request⟩
  cases htry : start.trying? request with
  | none =>
    have hnothing : WorkerServed rounds request start start := .unasked (.inl rfl) rfl
    rcases compile_of_not_trying htry rounds with ⟨reason, hhere⟩ | ⟨permit, left, units, hhere⟩
    · rw [hhere]
      exact hnothing.of_wire (CompileRun.wire_compileHere start (.forced reason))
    · rw [hhere]
      exact hnothing.of_wire (CompileRun.wire_compileIn
        ({ start with slots := left, semaphores := units } : CompileRun _ _) _ permit)
  | some tried =>
    obtain ⟨⟨left, units, rfl⟩, hcompile⟩ := compile_of_trying htry rounds
    rw [hcompile, compileAway_eq]
    exact (served_remote htry ⟨List.forall_mem_nil _, rfl, rfl⟩).of_wire (wire_conclude _)

end Compile

end Offload
