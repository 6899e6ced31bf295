import Offload.Proofs.Compile.Ending
import Offload.Proofs.Compile.Surroundings

/-!
# A compile in translated surroundings

A compile knows its surroundings by what they answer, and nothing more: a compile in translated
surroundings does the same (`CompileRun.Mirrors.compile`). A run and its image are taken through the
steps of the compile side by side, and no step tells them apart.
-/

namespace Offload

open Multiplexer

section Runs

variable {ω ω' κ κ' : Type} {f : ω → ω'} {g : κ → κ'}

/-! ## Steps -/

/-- The run in translated surroundings, with these sources. -/
def CompileRun.image (f : ω → ω') (g : κ → κ') (mux : Multiplexer (Parts ω' κ'))
    (run : CompileRun ω κ) : CompileRun ω' κ' where
  parts := run.parts.map f g
  mux := mux
  slots := run.slots
  semaphores := run.semaphores
  files := run.files
  deeds := run.deeds
  messagesShown := run.messagesShown

/-- A run and the same run in translated surroundings. -/
def CompileRun.Mirrors (f : ω → ω') (g : κ → κ') (run : CompileRun ω κ)
    (image : CompileRun ω' κ') : Prop :=
  ∃ mux, SourcesMirror (Parts.map f g) run.mux.sources mux.sources ∧ image = run.image f g mux

/-- A step and its image come to the same answer, up to a translation `r`. -/
structure Step.Mirrors {α β : Type} (r : α → β) (f : ω → ω') (g : κ → κ') (run : CompileRun ω κ)
    (image : CompileRun ω' κ') (step : Step ω κ α) (other : Step ω' κ' β) : Prop where
  answer : (other.result image).1 = (step.result run).1.map r
  state : (step.result run).2.Mirrors f g (other.result image).2

namespace Step.Mirrors

variable {α β γ δ : Type} {r : α → β} {t : γ → δ} {run : CompileRun ω κ}
  {image : CompileRun ω' κ'}

theorem pure (h : run.Mirrors f g image) (a : α) :
    Mirrors r f g run image (Pure.pure a) (Pure.pure (r a)) := ⟨rfl, h⟩

theorem throw (h : run.Mirrors f g image) (why : Abandon) :
    Mirrors r f g run image (MonadExcept.throw why) (MonadExcept.throw why) := ⟨rfl, h⟩

theorem modify {F : CompileRun ω κ → CompileRun ω κ} {F' : CompileRun ω' κ' → CompileRun ω' κ'}
    (h : (F run).Mirrors f g (F' image)) :
    Mirrors id f g run image (modify F) (modify F') := ⟨rfl, h⟩

theorem set {after : CompileRun ω κ} {after' : CompileRun ω' κ'} (h : after.Mirrors f g after') :
    Mirrors id f g run image (set after) (set after') := ⟨rfl, h⟩

/-- One step after another. -/
theorem bind {step : Step ω κ α} {other : Step ω' κ' β} {next : α → Step ω κ γ}
    {next' : β → Step ω' κ' δ} (h : Mirrors r f g run image step other)
    (hnext : ∀ a after after', after.Mirrors f g after' →
      Mirrors t f g after after' (next a) (next' (r a))) :
    Mirrors t f g run image (step >>= next) (other >>= next') := by
  obtain ⟨hanswer, hstate⟩ := h
  -- the first steps fail alike, or both go on from states that mirror each other
  rcases hresult : step.result run with ⟨why | a, after⟩ <;>
    rcases hresult' : other.result image with ⟨answer, after'⟩ <;>
    rw [hresult, hresult'] at hanswer hstate
  · obtain rfl : answer = .error why := hanswer
    constructor
    · rw [result_bind_of_error hresult, result_bind_of_error hresult']
      rfl
    · rw [result_bind_of_error hresult, result_bind_of_error hresult']
      exact hstate
  · obtain rfl : answer = .ok (r a) := hanswer
    have hrest := hnext a after after' hstate
    constructor
    · rw [result_bind_of_ok hresult, result_bind_of_ok hresult']
      exact hrest.answer
    · rw [result_bind_of_ok hresult, result_bind_of_ok hresult']
      exact hrest.state

/-- Looking at the state is no step of its own. -/
theorem get_bind {next : CompileRun ω κ → Step ω κ α} {next' : CompileRun ω' κ' → Step ω' κ' β}
    (h : Mirrors r f g run image (next run) (next' image)) :
    Mirrors r f g run image (get >>= next) (get >>= next') := by
  constructor
  · rw [result_bind_of_ok (result_get run), result_bind_of_ok (result_get image)]
    exact h.answer
  · rw [result_bind_of_ok (result_get run), result_bind_of_ok (result_get image)]
    exact h.state

end Step.Mirrors

variable {run : CompileRun ω κ} {image : CompileRun ω' κ'}

namespace CompileRun.Mirrors

theorem surroundings (h : run.Mirrors f g image) :
    image.parts.surroundings = f run.parts.surroundings := by
  obtain ⟨mux, -, rfl⟩ := h
  rfl

theorem preprocessor (h : run.Mirrors f g image) :
    image.parts.preprocessor = run.parts.preprocessor := by
  obtain ⟨mux, -, rfl⟩ := h
  rfl

theorem scheduler (h : run.Mirrors f g image) :
    image.parts.scheduler = run.parts.scheduler.map (Connection.map g id) := by
  obtain ⟨mux, -, rfl⟩ := h
  rfl

theorem worker (h : run.Mirrors f g image) :
    image.parts.worker = run.parts.worker.map (Connection.map g id) := by
  obtain ⟨mux, -, rfl⟩ := h
  rfl

theorem files (h : run.Mirrors f g image) : image.files = run.files := by
  obtain ⟨mux, -, rfl⟩ := h
  rfl

theorem addSource (h : run.Mirrors f g image) {source : EventSource (Parts ω κ)}
    {source' : EventSource (Parts ω' κ')} (hsource : source.Mirrors (Parts.map f g) source') :
    (run.addSource source).Mirrors f g (image.addSource source') := by
  obtain ⟨mux, hmux, rfl⟩ := h
  have hlast : SourcesMirror (Parts.map f g) [(run.mux.nextId, source)] [(mux.nextId, source')] :=
    .cons hsource .nil
  exact ⟨(mux.add source').2, List.rel_append hmux hlast, rfl⟩

end CompileRun.Mirrors

/-! ## Steps that ask nothing of the surroundings -/

theorem Parts.workerIs_map (condition : WorkerConversation → Bool) (p : Parts ω κ) :
    (p.map f g).workerIs condition = p.workerIs condition := by
  rw [workerIs, workerIs, map]
  cases p.worker <;> rfl

namespace Attempt

theorem mirrors_giveUp {α β : Type} {r : α → β} (h : run.Mirrors f g image) (reason : Fallback) :
    Step.Mirrors r f g run image (giveUp reason) (giveUp reason) := .throw h _

theorem mirrors_act (h : run.Mirrors f g image) {F : Parts ω κ → Parts ω κ}
    {F' : Parts ω' κ' → Parts ω' κ'} (hF : ∀ p, F' (p.map f g) = (F p).map f g) :
    Step.Mirrors id f g run image (act F) (act F') := by
  obtain ⟨mux, hmux, rfl⟩ := h
  refine .modify ⟨mux, hmux, ?_⟩
  simp only [CompileRun.image, hF]

theorem mirrors_register (h : run.Mirrors f g image) {source : EventSource (Parts ω κ)}
    {source' : EventSource (Parts ω' κ')} (hsource : source.Mirrors (Parts.map f g) source') :
    Step.Mirrors id f g run image (register source) (register source') :=
  .modify (h.addSource hsource)

theorem mirrors_checkPreprocessor (h : run.Mirrors f g image) :
    Step.Mirrors id f g run image checkPreprocessor checkPreprocessor := by
  refine .get_bind ?_
  rw [h.preprocessor]
  generalize run.parts.preprocessor = preprocessor
  rcases preprocessor with _ | _ | ⟨cause | result⟩ | _
  · exact .pure h ()
  · exact .pure h ()
  · exact mirrors_giveUp h _
  · dsimp only
    split
    · exact .pure h ()
    · exact mirrors_giveUp h _
  · exact .pure h ()

theorem mirrors_preprocessedSource (h : run.Mirrors f g image) :
    Step.Mirrors id f g run image preprocessedSource preprocessedSource := by
  refine .get_bind ?_
  rw [h.preprocessor]
  generalize run.parts.preprocessor = preprocessor
  rcases preprocessor with _ | _ | ⟨cause | result⟩ | _
  · exact mirrors_giveUp h _
  · exact mirrors_giveUp h _
  · exact mirrors_giveUp h _
  · exact .pure h result.stdout
  · exact mirrors_giveUp h _

theorem mirrors_assignment (h : run.Mirrors f g image) :
    Step.Mirrors id f g run image assignment assignment := by
  have hsame : schedulerOutcome? image.parts = schedulerOutcome? run.parts := by
    rw [schedulerOutcome?, schedulerOutcome?, h.scheduler]
    cases run.parts.scheduler <;> rfl
  refine .get_bind ?_
  rw [hsame]
  cases schedulerOutcome? run.parts with
  | none => exact mirrors_giveUp h _
  | some outcome =>
    cases outcome with
    | assigned worker => exact .pure h worker
    | versionMismatch minVersion => exact .throw h _
    | _ => exact mirrors_giveUp h _

theorem mirrors_checkWorker (h : run.Mirrors f g image) :
    Step.Mirrors id f g run image checkWorker checkWorker := by
  refine .get_bind ?_
  rw [h.worker]
  cases run.parts.worker with
  | none => exact .pure h ()
  | some c =>
    simp only [Option.map_some, Connection.map, id]
    split
    · exact mirrors_giveUp h _
    · exact .pure h ()

theorem mirrors_beginUpload (h : run.Mirrors f g image) (name : String) (job : JobEnvelope)
    (payload : Bytes) :
    Step.Mirrors id f g run image (beginUpload name job payload) (beginUpload name job payload) := by
  refine .get_bind ?_
  rw [h.worker]
  cases run.parts.worker with
  | none => exact .pure h ()
  | some c =>
    simp only [Option.map_some, Connection.map, id]
    cases c.conversation.beginUpload job payload with
    | error cause => exact mirrors_giveUp h _
    | ok conversation => exact mirrors_act h fun p => rfl

theorem mirrors_takeResult (h : run.Mirrors f g image) (name : String) :
    Step.Mirrors id f g run image (takeResult name) (takeResult name) := by
  have hsame : (image.parts.worker.bind fun c => c.conversation.result)
      = run.parts.worker.bind fun c => c.conversation.result := by
    rw [h.worker]
    cases run.parts.worker <;> rfl
  refine .get_bind ?_
  rw [hsame]
  cases run.parts.worker.bind fun c => c.conversation.result with
  | none => exact mirrors_giveUp h _
  | some result =>
    refine .bind (mirrors_act h fun p => ?_) fun _ run image h => ?_
    · simp only [Parts.map]
      cases p.worker <;> rfl
    · split
      · exact mirrors_giveUp h _
      · exact .pure h result

theorem mirrors_outputPath (h : run.Mirrors f g image) (inv : Invocation) (file : OutputFile) :
    Step.Mirrors id f g run image (outputPath inv file) (outputPath inv file) := by
  unfold outputPath
  split
  · exact .pure h _
  · exact .pure h _
  · exact mirrors_giveUp h _

theorem mirrors_writeFiles (h : run.Mirrors f g image) (inv : Invocation)
    (files : List OutputFile) :
    Step.Mirrors id f g run image (writeFiles inv files) (writeFiles inv files) := by
  induction files generalizing run image with
  | nil => exact .pure h ()
  | cons file rest ih =>
    refine .bind (mirrors_outputPath h inv file) fun path run image h => ?_
    refine .get_bind ?_
    rw [h.files, id_eq]
    cases run.files.write path file.data with
    | error cause => exact mirrors_giveUp h _
    | ok files =>
      obtain ⟨mux, hmux, rfl⟩ := h
      exact .bind (.set ⟨mux, hmux, rfl⟩) fun _ _ _ h => ih h

end Attempt

/-! ## Showing and stopping -/

variable [Channel κ] [Channel κ'] [Collaborators ω κ] [Collaborators ω' κ']

namespace CompileRun.Mirrors

omit [Channel κ] [Channel κ'] [Collaborators ω κ] [Collaborators ω' κ'] in
theorem shown (h : run.Mirrors f g image) (deed : Deed) (answer : Except SystemError Unit × ω) :
    (run.shown deed answer).Mirrors f g (image.shown deed (answer.map id f)) := by
  obtain ⟨mux, hmux, rfl⟩ := h
  rcases answer with ⟨_ | _, after⟩ <;> exact ⟨mux, hmux, rfl⟩

theorem showStdout (h : run.Mirrors f g image) (hsur : SurroundingsMap f g) (data : Bytes) :
    (run.showStdout data).Mirrors f g (image.showStdout data) := by
  rw [showStdout_eq, showStdout_eq, h.surroundings, hsur.showStdout]
  exact h.shown _ _

theorem showStderr (h : run.Mirrors f g image) (hsur : SurroundingsMap f g) (data : Bytes) :
    (run.showStderr data).Mirrors f g (image.showStderr data) := by
  rw [showStderr_eq, showStderr_eq, h.surroundings, hsur.showStderr]
  exact h.shown _ _

theorem showMessages (h : run.Mirrors f g image) (hsur : SurroundingsMap f g) :
    run.showMessages.Mirrors f g image.showMessages := by
  obtain ⟨mux, hmux, rfl⟩ := h
  have hshown : CompileRun.Mirrors f g { run with messagesShown := true }
      { run.image f g mux with messagesShown := true } := ⟨mux, hmux, rfl⟩
  unfold CompileRun.showMessages
  show CompileRun.Mirrors f g _ (if run.messagesShown then _ else _)
  split
  · exact ⟨mux, hmux, rfl⟩
  · dsimp only
    have hmessages : messages? { run.image f g mux with messagesShown := true }
        = messages? { run with messagesShown := true } := rfl
    rw [hmessages]
    split
    · exact hshown.showStderr hsur _
    · exact hshown

theorem stopPreprocessor (h : run.Mirrors f g image) (hsur : SurroundingsMap f g) :
    run.stopPreprocessor.Mirrors f g image.stopPreprocessor := by
  obtain ⟨mux, hmux, rfl⟩ := h
  obtain ⟨⟨surroundings, watchdog, preprocessor, scheduler, worker⟩, own, rest⟩ := run
  cases preprocessor with
  | running =>
    simp only [CompileRun.stopPreprocessor, CompileRun.image, Parts.map, hsur.stopPreprocessor]
    exact ⟨mux, hmux, rfl⟩
  | _ => exact ⟨mux, hmux, rfl⟩

theorem tearDown (h : run.Mirrors f g image) (hsur : SurroundingsMap f g) :
    run.tearDown.Mirrors f g image.tearDown := by
  obtain ⟨mux, hmux, rfl⟩ := h
  have hstopped : run.stopWatchdog.Mirrors f g (run.image f g mux).stopWatchdog :=
    ⟨mux, hmux, rfl⟩
  exact (hstopped.stopPreprocessor hsur).showMessages hsur

end CompileRun.Mirrors

/-! ## Steps in the surroundings -/

namespace Attempt

theorem mirrors_await (h : run.Mirrors f g image) (hsur : SurroundingsMap f g) (rounds : Nat)
    {aim : Parts ω κ → Bool} {aim' : Parts ω' κ' → Bool} (haim : ∀ p, aim' (p.map f g) = aim p) :
    Step.Mirrors id f g run image (await rounds aim) (await rounds aim') := by
  obtain ⟨mux, hmux, rfl⟩ := h
  -- the watchdog is no part of the surroundings, so both waits end with the same word of it
  have hwaited : waited (run.image f g mux) aim' rounds
      = (waited run aim rounds).map (Parts.map f g) :=
    map_runUntil (Parts.mirrors_around hsur) hmux
      (fun p => congrArg (p.watchdog.fired || ·) (haim p)) rounds run.parts
  constructor <;> rw [result_await, result_await, hwaited]
  · cases waited run aim rounds with
    | noSources parts => rfl
    | pending parts => rfl
    | done n parts =>
      simp only [Waited.map, verdict, Parts.map]
      cases parts.watchdog.timeout <;> rfl
  · rw [verdict_snd, verdict_snd]
    refine ⟨mux, hmux, ?_⟩
    cases waited run aim rounds <;> rfl

theorem mirrors_begin (h : run.Mirrors f g image) (hsur : SurroundingsMap f g)
    (request : CompileRequest) :
    Step.Mirrors id f g run image (begin request) (begin request) := by
  unfold begin
  refine .bind (mirrors_act h (Parts.map_startWatchdog hsur)) fun _ run image h => ?_
  refine .bind (mirrors_register h (Parts.mirrors_watchdogSource hsur)) fun _ run image h => ?_
  refine .bind (mirrors_act h fun p => ?_) fun _ run image h => ?_
  · simp only [Parts.map, hsur.startPreprocessor]
  refine .bind (mirrors_register h (Parts.mirrors_preprocessorSource hsur)) fun _ run image h => ?_
  refine .bind (mirrors_act h fun p => ?_) fun _ run image h => ?_
  · rw [Parts.map_pollPreprocessor hsur]
    rfl
  exact mirrors_checkPreprocessor h

theorem mirrors_identify (h : run.Mirrors f g image) (hsur : SurroundingsMap f g)
    (config : ClientConfig) :
    Step.Mirrors id f g run image (identify config) (identify config) := by
  refine .get_bind ?_
  obtain ⟨mux, hmux, rfl⟩ := h
  simp only [CompileRun.image, Parts.map, hsur.compilerHash]
  rcases Collaborators.compilerHash run.parts.surroundings run.files
    with ⟨cause | hash, files, after⟩
  · exact .bind (.set ⟨mux, hmux, rfl⟩) fun _ _ _ h => mirrors_giveUp h _
  · exact .bind (.set ⟨mux, hmux, rfl⟩) fun _ _ _ h => .pure h _

theorem mirrors_connect (h : run.Mirrors f g image) (hsur : SurroundingsMap f g)
    (request : ConnectRequest) (refused : TransportError → Fallback) :
    Step.Mirrors (Accepted.map g) f g run image (connect request refused)
      (connect request refused) := by
  refine .get_bind ?_
  obtain ⟨mux, hmux, rfl⟩ := h
  simp only [CompileRun.image, Parts.map, hsur.connect]
  rcases Collaborators.connect run.parts.surroundings request with ⟨cause | accepted, after⟩
  · exact .bind (.set ⟨mux, hmux, rfl⟩) fun _ _ _ h => mirrors_giveUp h _
  · exact .bind (.set ⟨mux, hmux, rfl⟩) fun _ _ _ h => .pure h accepted

theorem mirrors_greetScheduler (h : run.Mirrors f g image) (hsur : SurroundingsMap f g)
    (client : String) (channel : κ) :
    Step.Mirrors id f g run image (greetScheduler client channel)
      (greetScheduler client (g channel)) := by
  refine .bind (mirrors_act h fun p => rfl) fun _ run image h => ?_
  exact mirrors_register h (Parts.mirrors_schedulerSource hsur)

theorem mirrors_acquireWorker (h : run.Mirrors f g image) (hsur : SurroundingsMap f g)
    (rounds : Nat) (request : CompileRequest) (source : String) :
    Step.Mirrors id f g run image (acquireWorker rounds request source)
      (acquireWorker rounds request source) := by
  unfold acquireWorker
  refine .bind (mirrors_identify h hsur _) fun environment run image h => ?_
  refine .bind (mirrors_connect h hsur _ _) fun accepted run image h => ?_
  refine .bind (mirrors_act h (Parts.map_enter hsur _)) fun _ run image h => ?_
  refine .bind (mirrors_greetScheduler h hsur _ _) fun _ run image h => ?_
  refine .bind (mirrors_await h hsur rounds fun p => ?_) fun _ run image h => ?_
  · rw [Parts.schedulerEnded, Parts.schedulerEnded, Parts.map]
    cases p.scheduler <;> rfl
  exact mirrors_assignment h

theorem mirrors_greetWorker (h : run.Mirrors f g image) (hsur : SurroundingsMap f g) (channel : κ)
    (wait : Bool) :
    Step.Mirrors id f g run image (greetWorker channel wait) (greetWorker (g channel) wait) := by
  refine .bind (mirrors_act h fun p => rfl) fun _ run image h => ?_
  exact mirrors_register h (Parts.mirrors_workerSource hsur)

theorem mirrors_awaitWorker (h : run.Mirrors f g image) (hsur : SurroundingsMap f g) (rounds : Nat)
    {aim : Parts ω κ → Bool} {aim' : Parts ω' κ' → Bool} (haim : ∀ p, aim' (p.map f g) = aim p) :
    Step.Mirrors id f g run image (awaitWorker rounds aim) (awaitWorker rounds aim') := by
  refine .bind (mirrors_await h hsur rounds fun p => ?_) fun _ run image h => mirrors_checkWorker h
  rw [haim, Parts.workerIs_map]

theorem mirrors_upload (h : run.Mirrors f g image) (hsur : SurroundingsMap f g) (rounds : Nat)
    (request : CompileRequest) (worker : Assignment) (wait : Bool) :
    Step.Mirrors id f g run image (upload rounds request worker wait)
      (upload rounds request worker wait) := by
  unfold upload
  refine .bind (mirrors_awaitWorker h hsur rounds (Parts.workerIs_map _)) fun _ run image h => ?_
  refine .bind (mirrors_awaitWorker h hsur rounds fun p => rfl) fun _ run image h => ?_
  refine .bind (mirrors_checkPreprocessor h) fun _ run image h => ?_
  refine .bind (mirrors_preprocessedSource h) fun payload run image h => ?_
  refine .bind (mirrors_beginUpload h _ _ _) fun _ run image h => ?_
  exact mirrors_awaitWorker h hsur rounds (Parts.workerIs_map _)

theorem mirrors_showOutput (h : run.Mirrors f g image) (hsur : SurroundingsMap f g)
    (result : JobResult) : (showOutput result run).Mirrors f g (showOutput result image) := by
  unfold showOutput
  have hstdout : (if result.stdout.isEmpty then run else run.showStdout result.stdout).Mirrors f g
      (if result.stdout.isEmpty then image else image.showStdout result.stdout) := by
    split
    · exact h
    · exact h.showStdout hsur _
  dsimp only
  split
  · exact hstdout
  · exact hstdout.showStderr hsur _

omit [Collaborators ω κ] [Collaborators ω' κ'] in
theorem map_pollClosing (hchannel : ChannelMap g) (stage : Connection.ClosingStage) (p : Parts ω κ) :
    pollClosing stage (p.map f g) = (pollClosing stage p).map id (Parts.map f g) := by
  obtain ⟨surroundings, watchdog, preprocessor, scheduler, worker⟩ := p
  cases scheduler with
  | none => rfl
  | some c =>
    simp only [pollClosing, Parts.map, Option.map_some, Connection.map,
      Connection.map_goOnClosing hchannel]
    rfl

theorem map_awaitClosing (hsur : SurroundingsMap f g) (rounds : Nat)
    (stage : Connection.ClosingStage) (p : Parts ω κ) :
    awaitClosing rounds stage (p.map f g) = (awaitClosing rounds stage p).map id (Parts.map f g) := by
  have haround := Parts.mirrors_around hsur
  have hidle (p : Parts ω κ) : (p.map f g).idle = p.idle.map (Parts.map f g) := haround.idle p
  have hmeanwhile (p : Parts ω κ) : (p.map f g).meanwhile = p.meanwhile.map f g := haround.meanwhile p
  induction rounds generalizing stage p with
  | zero => rfl
  | succ rounds ih =>
    rw [awaitClosing, awaitClosing, map_pollClosing hsur.channel]
    obtain ⟨next, after⟩ := pollClosing stage p
    cases next with
    | ended failure => rfl
    | _ =>
      dsimp only [Prod.map, id]
      rw [hidle]
      cases after.idle with
      | none => rfl
      | some later =>
        dsimp only [Option.map_some]
        rw [hmeanwhile]
        exact ih _ later.meanwhile

theorem mirrors_closeScheduler (h : run.Mirrors f g image) (hsur : SurroundingsMap f g) (rounds : Nat) :
    Step.Mirrors id f g run image (closeScheduler rounds) (closeScheduler rounds) := by
  obtain ⟨mux, hmux, rfl⟩ := h
  have hbegin : beginClosing (run.image f g mux).parts = beginClosing run.parts := by
    show beginClosing (run.parts.map f g) = _
    unfold beginClosing Parts.map
    cases run.parts.scheduler <;> rfl
  have hwaited : awaitClosing rounds (beginClosing run.parts) (run.image f g mux).parts =
      (awaitClosing rounds (beginClosing run.parts) run.parts).map id (Parts.map f g) :=
    map_awaitClosing hsur rounds _ _
  constructor
  · rw [result_closeScheduler, result_closeScheduler, hbegin, hwaited]
    rcases awaitClosing rounds (beginClosing run.parts) run.parts with ⟨_ | _, after⟩ <;> rfl
  · rw [result_closeScheduler, result_closeScheduler, hbegin, hwaited]
    exact ⟨mux, hmux, rfl⟩

theorem mirrors_deliver (h : run.Mirrors f g image) (hsur : SurroundingsMap f g) (rounds : Nat)
    (inv : Invocation) (result : JobResult) :
    Step.Mirrors id f g run image (deliver rounds inv result) (deliver rounds inv result) := by
  unfold deliver
  refine .bind (mirrors_writeFiles h inv _) fun _ run image h => ?_
  refine .bind (mirrors_act h (Parts.map_enter hsur _)) fun _ run image h => ?_
  refine .bind (.modify ?_) fun _ run image h => ?_
  · obtain ⟨mux, hmux, hshown⟩ := h.showMessages hsur
    exact ⟨mux, hmux, congrArg CompileRun.stopWatchdog hshown⟩
  refine .bind (mirrors_closeScheduler h hsur rounds) fun _ run image h => ?_
  exact .modify (mirrors_showOutput h hsur result)

/-- An attempt does the same in translated surroundings. -/
theorem mirrors_remote (h : run.Mirrors f g image) (hsur : SurroundingsMap f g) (rounds : Nat)
    (request : CompileRequest) :
    Step.Mirrors id f g run image (remote rounds request) (remote rounds request) := by
  unfold remote
  cases request.invocation.sourceFile? with
  | none => exact mirrors_giveUp h _
  | some source =>
    refine .bind (mirrors_begin h hsur request) fun _ run image h => ?_
    refine .bind (mirrors_acquireWorker h hsur rounds request source) fun worker run image h => ?_
    refine .bind (mirrors_checkPreprocessor h) fun _ run image h => ?_
    refine .bind (mirrors_act h (Parts.map_enter hsur _)) fun _ run image h => ?_
    refine .bind (mirrors_connect h hsur _ _) fun accepted run image h => ?_
    refine .bind (mirrors_greetWorker h hsur _ _) fun _ run image h => ?_
    refine .bind (mirrors_upload h hsur rounds request worker _) fun _ run image h => ?_
    refine .bind (mirrors_act h (Parts.map_enter hsur _)) fun _ run image h => ?_
    refine .bind (mirrors_awaitWorker h hsur rounds fun p => rfl) fun _ run image h => ?_
    refine .bind (mirrors_takeResult h _) fun result run image h => ?_
    exact .bind (mirrors_deliver h hsur rounds _ result) fun _ _ _ h => .pure h _

end Attempt

/-! ## A compile -/

namespace CompileRun

/-- A compile and its image came to the same end. -/
structure EndsMirror (f : ω → ω') (g : κ → κ') (ended : CompileEnd × CompileRun ω κ)
    (image : CompileEnd × CompileRun ω' κ') : Prop where
  ending : image.1 = ended.1
  state : ended.2.Mirrors f g image.2

variable {request : CompileRequest}

theorem Mirrors.compileIn (h : run.Mirrors f g image) (hsur : SurroundingsMap f g)
    (cause : LocalCause) (permit : Permit) :
    EndsMirror f g (run.compileIn request cause permit) (image.compileIn request cause permit) := by
  obtain ⟨mux, hmux, rfl⟩ := h
  simp only [CompileRun.compileIn, CompileRun.image, Parts.map, hsur.runCompiler]
  rcases Collaborators.runCompiler run.parts.surroundings request.invocation.args run.files
    with ⟨_ | error | code, files, after⟩ <;>
    exact ⟨rfl, mux, hmux, rfl⟩

/-- Both wait for a slot in vain, or both are given one. -/
theorem Mirrors.awaitSlot (h : run.Mirrors f g image) (hsur : SurroundingsMap f g) :
    run.awaitSlot = none ∧ image.awaitSlot = none ∨ ∃ permit after after',
      run.awaitSlot = some (permit, after) ∧ image.awaitSlot = some (permit, after') ∧
        after.Mirrors f g after' := by
  obtain ⟨mux, hmux, rfl⟩ := h
  have hunit : Collaborators.awaitUnit (run.image f g mux).parts.surroundings .compile
      (run.image f g mux).semaphores
      = (Collaborators.awaitUnit run.parts.surroundings .compile run.semaphores).map id f :=
    hsur.awaitUnit _ _ _
  have hslots (host : Semaphores) : (run.image f g mux).slots.waitAcquire host .compile
      = run.slots.waitAcquire host .compile := rfl
  have hhost : (run.image f g mux).semaphores = run.semaphores := rfl
  rw [CompileRun.awaitSlot, CompileRun.awaitSlot, hunit, hslots, hhost]
  -- a slot is free at once, or after others have used the semaphores, or never
  cases run.slots.waitAcquire run.semaphores .compile with
  | some given => exact .inr ⟨given.1, _, _, rfl, rfl, mux, hmux, rfl⟩
  | none =>
    rcases Collaborators.awaitUnit run.parts.surroundings .compile run.semaphores
      with ⟨semaphores, after⟩
    simp only [Prod.map, id, hslots]
    cases run.slots.waitAcquire semaphores .compile with
    | some given => exact .inr ⟨given.1, _, _, rfl, rfl, mux, hmux, rfl⟩
    | none => exact .inl ⟨rfl, rfl⟩

theorem Mirrors.compileHere (h : run.Mirrors f g image) (hsur : SurroundingsMap f g)
    (cause : LocalCause) :
    EndsMirror f g (run.compileHere request cause) (image.compileHere request cause) := by
  rcases h.awaitSlot hsur with ⟨hnone, hnone'⟩ | ⟨permit, after, after', hslot, hslot', hafter⟩
  · rw [CompileRun.compileHere, CompileRun.compileHere, hnone, hnone']
    exact ⟨rfl, h⟩
  · rw [CompileRun.compileHere, CompileRun.compileHere, hslot, hslot']
    exact hafter.compileIn hsur cause permit

theorem Mirrors.compileAway (h : run.Mirrors f g image) (hsur : SurroundingsMap f g) (rounds : Nat) :
    EndsMirror f g (run.compileAway rounds request) (image.compileAway rounds request) := by
  obtain ⟨hanswer, hstate⟩ := Attempt.mirrors_remote h hsur rounds request
  rw [compileAway_eq, compileAway_eq]
  generalize (Attempt.remote rounds request).result run = ended at hanswer hstate ⊢
  generalize (Attempt.remote rounds request).result image = ended' at hanswer hstate ⊢
  obtain ⟨answer, after⟩ := ended
  obtain ⟨answer', after'⟩ := ended'
  obtain rfl : answer' = answer := by
    rw [Except.map_id] at hanswer
    exact hanswer
  have hdown := hstate.tearDown hsur
  rcases answer' with why | outcome
  · cases why with
    | stalled => exact ⟨rfl, hstate⟩
    | tooOld minVersion => exact ⟨rfl, hdown⟩
    | fallback reason =>
      refine Mirrors.compileHere ?_ hsur (.fallback reason)
      obtain ⟨mux, hmux, hsame⟩ := hdown
      exact ⟨mux, hmux, congrArg (fun down => down.note (.gaveUp reason)) hsame⟩
  · exact ⟨rfl, hdown⟩

/-- A compile does the same in translated surroundings: it comes to the same end, by the same
deeds. -/
theorem Mirrors.compile (h : run.Mirrors f g image) (hsur : SurroundingsMap f g) (rounds : Nat)
    (request : CompileRequest) :
    EndsMirror f g (run.compile rounds request) (image.compile rounds request) := by
  obtain ⟨mux, hmux, rfl⟩ := id h
  unfold CompileRun.compile
  split
  · exact h.compileHere hsur _
  · split
    · exact h.compileAway hsur rounds
    · have hslots : (run.image f g mux).slots.tryAcquire (run.image f g mux).semaphores .compile
          = run.slots.tryAcquire run.semaphores .compile := rfl
      rw [hslots]
      rcases run.slots.tryAcquire run.semaphores .compile with ⟨permit, slots, semaphores⟩
      have htaken : Mirrors f g { run with slots, semaphores }
          { run.image f g mux with slots, semaphores } := ⟨mux, hmux, rfl⟩
      cases permit with
      | none => exact htaken.compileAway hsur rounds
      | some permit => exact htaken.compileIn hsur .slotFree permit

end CompileRun

end Runs

end Offload
