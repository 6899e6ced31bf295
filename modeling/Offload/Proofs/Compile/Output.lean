import Mathlib.Logic.Function.Iterate
import Offload.Proofs.Compile.Ending
import Offload.Scenario.World

/-!
# A compile on a worker looks like one on this host

What a worker made is shown as the compiler would have shown it: its standard output, and on the
standard error the messages of the preprocessor, which ran here, before those of the compiler. An
attempt that is abandoned shows no more than the messages of a preprocessor that ended well, and
shows those once (`Transparent`). An attempt is silent until its result is delivered
(`CompileRun.Unseen`), so all that is shown is shown by the delivery or by the end of the attempt;
what each of these writes is one equation (`CompileRun.Shows`). All this is about compiles that end: one
whose connection to the scheduler is never closed shows nothing.
-/

namespace Offload

open Relation

variable {ω κ : Type}

/-! ## Output -/

/-- What a deed writes to the standard output. -/
def Deed.stdout : Deed → Bytes
  | .shownOnStdout data => data
  | _ => []

/-- What a deed writes to the standard error. -/
def Deed.stderr : Deed → Bytes
  | .shownOnStderr data => data
  | _ => []

namespace CompileRun

/-- All that was written to the standard output. -/
def stdout (run : CompileRun ω κ) : Bytes := run.deeds.flatMap Deed.stdout

/-- All that was written to the standard error. -/
def stderr (run : CompileRun ω κ) : Bytes := run.deeds.flatMap Deed.stderr

/-- The messages of the preprocessor, if it is seen to have ended with code 0. -/
def seenMessages (run : CompileRun ω κ) : Bytes :=
  match run.parts.preprocessor with
  | .ended (.ok result) => if result.exitCode = 0 then result.stderr else []
  | _ => []

@[simp] theorem stdout_note (run : CompileRun ω κ) (deed : Deed) :
    (run.note deed).stdout = run.stdout ++ deed.stdout := by
  simp [stdout, note]

@[simp] theorem stderr_note (run : CompileRun ω κ) (deed : Deed) :
    (run.note deed).stderr = run.stderr ++ deed.stderr := by
  simp [stderr, note]

theorem Silent.output {run : CompileRun ω κ} (h : run.Silent) :
    run.stdout = [] ∧ run.stderr = [] := by
  have hnothing (deed : Deed) (hdeed : deed ∈ run.deeds) : deed.stdout = [] ∧ deed.stderr = [] := by
    have hhidden := h.deeds deed hdeed
    cases deed <;> simp [Deed.isShown, Deed.stdout, Deed.stderr] at hhidden ⊢
  exact ⟨List.flatMap_eq_nil_iff.mpr fun deed hdeed => (hnothing deed hdeed).1,
    List.flatMap_eq_nil_iff.mpr fun deed hdeed => (hnothing deed hdeed).2⟩

theorem getD_messages? (run : CompileRun ω κ) : run.messages?.getD [] = run.seenMessages := by
  unfold messages? seenMessages
  cases run.parts.preprocessor with
  | ended answer =>
    rcases answer with cause | result
    · rfl
    · by_cases hcode : result.exitCode = 0 <;> by_cases hnone : result.stderr = [] <;>
        simp [Preprocessed.succeeded, hcode, hnone]
  | _ => rfl

theorem seenMessages_of_preprocessedTo {run : CompileRun ω κ} {result : Preprocessed}
    (h : run.parts.PreprocessedTo result) : run.seenMessages = result.stderr := by
  have hcode : result.exitCode = 0 := by simpa [Preprocessed.succeeded] using h.succeeded
  simp [seenMessages, h.ended, hcode]

end CompileRun

/-! ## Streams that take what is shown -/

section Shows

variable [Collaborators ω κ]

/-- The streams take whatever is written to them, now and after anything that is asked of the
surroundings. -/
structure AcceptsOutput (s : ω) : Prop where
  stdout : ∀ later, ReflTransGen Asked s later →
    ∀ data, (Collaborators.showStdout later data).1 = .ok ()
  stderr : ∀ later, ReflTransGen Asked s later →
    ∀ data, (Collaborators.showStderr later data).1 = .ok ()

theorem AcceptsOutput.asked {s later : ω} (h : AcceptsOutput s)
    (hasked : ReflTransGen Asked s later) : AcceptsOutput later where
  stdout last hlast := h.stdout last (hasked.trans hlast)
  stderr last hlast := h.stderr last (hasked.trans hlast)

/-- From one state to another, just this was written to the two streams. -/
structure CompileRun.Shows (run after : CompileRun ω κ) (out err : Bytes) : Prop where
  stdout : after.stdout = run.stdout ++ out
  stderr : after.stderr = run.stderr ++ err
  accepts : AcceptsOutput after.parts.surroundings

namespace CompileRun

variable {run after last : CompileRun ω κ} {out err more moreErr : Bytes}

theorem Shows.trans (h : run.Shows after out err) (h' : after.Shows last more moreErr) :
    run.Shows last (out ++ more) (err ++ moreErr) where
  stdout := by rw [h'.stdout, h.stdout, List.append_assoc]
  stderr := by rw [h'.stderr, h.stderr, List.append_assoc]
  accepts := h'.accepts

/-- What does not change the deeds shows nothing. -/
theorem Shows.nothing (hdeeds : after.deeds = run.deeds)
    (haccepts : AcceptsOutput after.parts.surroundings) : run.Shows after [] [] where
  stdout := by rw [List.append_nil, CompileRun.stdout, hdeeds]; rfl
  stderr := by rw [List.append_nil, CompileRun.stderr, hdeeds]; rfl
  accepts := haccepts

variable (run) (h : AcceptsOutput run.parts.surroundings)
include h

/-- What the surroundings agreed to show was shown. -/
theorem shows_shown (deed : Deed) {answer : Except SystemError Unit × ω}
    (hanswer : answer.1 = .ok ()) (hasked : Asked run.parts.surroundings answer.2) :
    run.Shows (run.shown deed answer) deed.stdout deed.stderr := by
  obtain ⟨_, later⟩ := answer
  obtain rfl := hanswer
  exact ⟨stdout_note _ deed, stderr_note _ deed, h.asked (.single hasked)⟩

theorem shows_showStdout (data : Bytes) : run.Shows (run.showStdout data) data [] := by
  rw [showStdout_eq]
  exact shows_shown run h (.shownOnStdout data) (h.stdout _ .refl data) (.showStdout _ data)

theorem shows_showStderr (data : Bytes) : run.Shows (run.showStderr data) [] data := by
  rw [showStderr_eq]
  exact shows_shown run h (.shownOnStderr data) (h.stderr _ .refl data) (.showStderr _ data)

theorem shows_showMessages (hfirst : run.messagesShown = false) :
    run.Shows run.showMessages [] run.seenMessages := by
  let marked : CompileRun ω κ := { run with messagesShown := true }
  have hmarked : run.Shows marked [] [] := .nothing rfl h
  have hshow : run.showMessages = (marked.messages?.map marked.showStderr).getD marked := by
    unfold showMessages
    rw [if_neg (by simp [hfirst])]
    dsimp only
    cases marked.messages? <;> rfl
  rw [hshow, ← getD_messages?]
  show run.Shows _ [] (marked.messages?.getD [])
  cases marked.messages? with
  | some messages => exact hmarked.trans (shows_showStderr marked h messages)
  | none => exact hmarked

theorem shows_showOutput (result : JobResult) :
    run.Shows (Attempt.showOutput result run) result.stdout result.stderr := by
  have hstdout : run.Shows (if result.stdout.isEmpty then run else run.showStdout result.stdout)
      result.stdout [] := by
    -- a stream for which there is nothing is not written to, which shows the same
    split
    · rename_i hnone
      rw [List.isEmpty_iff.mp hnone]
      exact .nothing rfl h
    · exact shows_showStdout run h _
  unfold Attempt.showOutput
  dsimp only
  split
  · rename_i hnone
    rw [List.isEmpty_iff.mp hnone]
    exact hstdout
  · have hboth := hstdout.trans (shows_showStderr _ hstdout.accepts result.stderr)
    rwa [List.append_nil, List.nil_append] at hboth

end CompileRun

end Shows

/-! ## The end of an attempt -/

namespace CompileRun

section TearDown

/-- To show something changes the surroundings and what was done, and nothing else. -/
theorem shown_eq (run : CompileRun ω κ) (deed : Deed) (answer : Except SystemError Unit × ω) :
    ∃ s deeds, run.shown deed answer = { run.withSurroundings s with deeds } := by
  rcases answer with ⟨_ | _, later⟩
  · exact ⟨later, run.deeds, rfl⟩
  · exact ⟨later, run.deeds ++ [deed], rfl⟩

variable [Collaborators ω κ] (run : CompileRun ω κ)

theorem showMessages_eq : ∃ s deeds,
    run.showMessages = { run.withSurroundings s with deeds, messagesShown := true } := by
  unfold showMessages
  split
  · rename_i hshown
    refine ⟨run.parts.surroundings, run.deeds, ?_⟩
    rw [← hshown]
    rfl
  · dsimp only
    split
    · exact shown_eq { run with messagesShown := true } _ _
    · exact ⟨run.parts.surroundings, run.deeds, rfl⟩

theorem showOutput_eq (result : JobResult) : ∃ s deeds,
    Attempt.showOutput result run = { run.withSurroundings s with deeds } := by
  have hstdout : ∃ s deeds, (if result.stdout.isEmpty then run else run.showStdout result.stdout) =
      { run.withSurroundings s with deeds } := by
    split
    · exact ⟨run.parts.surroundings, run.deeds, rfl⟩
    · exact shown_eq run _ _
  obtain ⟨s, deeds, hfirst⟩ := hstdout
  unfold Attempt.showOutput
  dsimp only
  rw [hfirst]
  split
  · exact ⟨s, deeds, rfl⟩
  · exact shown_eq { run.withSurroundings s with deeds } _ _

@[simp] theorem watchdog_stopPreprocessor :
    run.stopPreprocessor.parts.watchdog = run.parts.watchdog := by
  unfold stopPreprocessor
  split <;> rfl

@[simp] theorem messagesShown_stopPreprocessor :
    run.stopPreprocessor.messagesShown = run.messagesShown := by
  unfold stopPreprocessor
  split <;> rfl

theorem stopPreprocessor_not_running :
    run.stopPreprocessor.parts.preprocessor ≠ .running := by
  unfold stopPreprocessor
  split
  · simp
  · rename_i hnot
    exact hnot

theorem stopPreprocessor_of_not_running (h : run.parts.preprocessor ≠ .running) :
    run.stopPreprocessor = run := by
  unfold stopPreprocessor
  split
  · rename_i hrunning
    exact absurd hrunning h
  · rfl

/-- A preprocessor that still runs has not been seen to end. -/
@[simp] theorem seenMessages_stopPreprocessor :
    run.stopPreprocessor.seenMessages = run.seenMessages := by
  unfold stopPreprocessor
  split
  · rename_i hrunning
    rw [seenMessages, seenMessages, hrunning]
  · rfl

theorem shows_stopPreprocessor (h : AcceptsOutput run.parts.surroundings) :
    run.Shows run.stopPreprocessor [] [] := by
  unfold stopPreprocessor
  split
  · exact .nothing rfl (h.asked (.single (.stopPreprocessor _)))
  · exact .nothing rfl h

/-- Nothing of an attempt runs any more, and its messages have had their turn. -/
structure TornDown (run : CompileRun ω κ) : Prop where
  watchdog : run.parts.watchdog.timer = none
  preprocessor : run.parts.preprocessor ≠ .running
  messages : run.messagesShown = true

theorem tornDown_tearDown : run.tearDown.TornDown := by
  obtain ⟨s, deeds, hshown⟩ := showMessages_eq run.stopWatchdog.stopPreprocessor
  rw [tearDown, hshown]
  refine ⟨?_, stopPreprocessor_not_running run.stopWatchdog, rfl⟩
  show run.stopWatchdog.stopPreprocessor.parts.watchdog.timer = none
  rw [watchdog_stopPreprocessor]
  rfl

variable {run}

theorem TornDown.tearDown (h : run.TornDown) : run.tearDown = run := by
  have hwatchdog : run.stopWatchdog = run := by
    have hstop : run.parts.watchdog.stop = run.parts.watchdog := by
      rw [Watchdog.stop, ← h.watchdog]
    rw [stopWatchdog, hstop]
  rw [CompileRun.tearDown, hwatchdog, stopPreprocessor_of_not_running run h.preprocessor,
    showMessages, if_pos h.messages]

/-- However often an attempt is ended, it ends once. -/
theorem iterate_tearDown (run : CompileRun ω κ) (n : Nat) :
    CompileRun.tearDown^[n + 1] run = run.tearDown := by
  induction n with
  | zero => rfl
  | succ n ih => rw [Function.iterate_succ_apply', ih, (tornDown_tearDown run).tearDown]

/-- Ending an attempt shows the messages of the preprocessor, if they have not had their turn. -/
theorem shows_tearDown (h : AcceptsOutput run.parts.surroundings)
    (hfirst : run.messagesShown = false) : run.Shows run.tearDown [] run.seenMessages := by
  have hwatchdog : run.Shows run.stopWatchdog [] [] := .nothing rfl h
  have hstopped := hwatchdog.trans (shows_stopPreprocessor run.stopWatchdog h)
  have hshown := shows_showMessages _ hstopped.accepts
    ((messagesShown_stopPreprocessor run.stopWatchdog).trans hfirst)
  rw [seenMessages_stopPreprocessor] at hshown
  exact hstopped.trans hshown

theorem shows_tearDown_again (h : AcceptsOutput run.parts.surroundings)
    (hdone : run.messagesShown = true) : run.Shows run.tearDown [] [] := by
  have hturn : run.stopWatchdog.stopPreprocessor.messagesShown = true :=
    (messagesShown_stopPreprocessor run.stopWatchdog).trans hdone
  have hwatchdog : run.Shows run.stopWatchdog [] [] := .nothing rfl h
  rw [tearDown, showMessages, if_pos hturn]
  exact hwatchdog.trans (shows_stopPreprocessor run.stopWatchdog h)

end TearDown

end CompileRun

/-! ## The delivery of a result -/

section Deliver

variable [Channel κ] [Collaborators ω κ] {run : CompileRun ω κ}

/-- The state in which a result was presented. -/
def Attempt.presented (rounds : Nat) (result : JobResult) (run : CompileRun ω κ) : CompileRun ω κ :=
  showOutput result (afterClosing rounds run)

/-- A delivery shows the messages of the preprocessor and then the output of the compiler. -/
theorem shows_presented (h : AcceptsOutput run.parts.surroundings)
    (hfirst : run.messagesShown = false) (rounds : Nat) (result : JobResult) :
    run.Shows (Attempt.presented rounds result run) result.stdout
      (run.seenMessages ++ result.stderr) := by
  let finished : CompileRun ω κ := { run with parts := run.parts.enter .finished }
  have hfinished : run.Shows finished [] [] := .nothing rfl (h.asked (.single (.clock _)))
  have hmessages : finished.Shows finished.showMessages [] run.seenMessages :=
    CompileRun.shows_showMessages finished hfinished.accepts hfirst
  have hstopped : finished.showMessages.Shows (Attempt.beforeClosing run) [] [] :=
    .nothing rfl hmessages.accepts
  -- to close the connection to the scheduler shows nothing
  have hclosed : (Attempt.beforeClosing run).Shows (Attempt.afterClosing rounds run) [] [] := by
    have hmoves : ReflTransGen (Move True) (Attempt.beforeClosing run)
        (Attempt.afterClosing rounds run) := Move.of_parts _ (moves_awaitClosing rounds _ _)
    exact .nothing rfl (hstopped.accepts.asked ((kept_asked _).moves hmoves .refl))
  have houtput := CompileRun.shows_showOutput _ hclosed.accepts result
  have hall := hfinished.trans (hmessages.trans (hstopped.trans (hclosed.trans houtput)))
  simp only [List.nil_append] at hall
  exact hall

/-- After a delivery the messages of the preprocessor have had their turn. -/
theorem messagesShown_presented (rounds : Nat) (result : JobResult) (run : CompileRun ω κ) :
    (Attempt.presented rounds result run).messagesShown = true := by
  let finished : CompileRun ω κ := { run with parts := run.parts.enter .finished }
  have hturn : (Attempt.afterClosing rounds run).messagesShown = true := by
    obtain ⟨s, deeds, hshown⟩ := CompileRun.showMessages_eq finished
    show finished.showMessages.messagesShown = true
    rw [hshown]
  obtain ⟨s, deeds, houtput⟩ := CompileRun.showOutput_eq (Attempt.afterClosing rounds run) result
  rw [Attempt.presented, houtput]
  exact hturn

end Deliver

/-! ## A compile -/

/-- The state from which a compile tries a worker; `none` if it does not. -/
def CompileRun.trying? (run : CompileRun ω κ) (request : CompileRequest) :
    Option (CompileRun ω κ) :=
  match request.forcedReason? with
  | some _ => none
  | none =>
    if request.config.noLocal then some run
    else
      match run.slots.tryAcquire run.semaphores .compile with
      | (some _, _, _) => none
      | (none, slots, semaphores) => some { run with slots, semaphores }

section Compile

variable [Channel κ] [Collaborators ω κ] {request : CompileRequest}

/-- The state in which an attempt to compile on a worker ended, before it is torn down; `none` if
none was made. -/
def CompileRun.attempted? (rounds : Nat) (run : CompileRun ω κ) (request : CompileRequest) :
    Option (CompileRun ω κ) :=
  (run.trying? request).map fun tried => ((Attempt.remote rounds request).result tried).2

/-- An attempt waits for the result of a worker and gets it, and the preprocessor has ended well. -/
def CompileRun.Receives (rounds : Nat) (tried : CompileRun ω κ) (request : CompileRequest)
    (worker : String) (preprocessed : Preprocessed) (result : JobResult) : Prop :=
  ∃ before, (Attempt.awaitResult rounds request).result tried = (.ok worker, before) ∧
    before.parts.PreprocessedTo preprocessed ∧
    (before.parts.worker.bind fun c => c.conversation.result) = some result

/-- What a compile shows, by where it was done. -/
structure Transparent (rounds : Nat) (request : CompileRequest) (start : CompileRun ω κ)
    (ended : CompileEnd × CompileRun ω κ) : Prop where
  /-- done on a worker, it ends as there and shows what the compiler wrote there -/
  onWorker : ∀ code worker, ended.1 = some (.ok ⟨code, .onWorker worker⟩) →
    ∃ tried preprocessed result, start.trying? request = some tried ∧
      tried.Receives rounds request worker preprocessed result ∧
      code = result.exitCode.toInt ∧ ended.2.stdout = result.stdout ∧
      ended.2.stderr = preprocessed.stderr ++ result.stderr
  /-- otherwise it shows the messages of a preprocessor that was seen to end well, and no more -/
  elsewhere : ∀ ending, ended.1 = some ending →
    (∀ code worker, ending ≠ .ok ⟨code, .onWorker worker⟩) →
    ended.2.stdout = [] ∧
      ended.2.stderr = ((start.attempted? rounds request).map CompileRun.seenMessages).getD []

/-! ### On this host -/

/-- A compile that was done here, if at all, and showed nothing. -/
structure QuietHere (run : CompileRun ω κ) (ended : CompileEnd × CompileRun ω κ) : Prop where
  stdout : ended.2.stdout = run.stdout
  stderr : ended.2.stderr = run.stderr
  here : ∀ code worker, ended.1 ≠ some (.ok ⟨code, .onWorker worker⟩)

omit [Channel κ] in
/-- The compiler that is run here writes past the streams of the client. -/
theorem quietHere_compileIn (request : CompileRequest) (run : CompileRun ω κ)
    (cause : LocalCause) (permit : Permit) : QuietHere run (run.compileIn request cause permit) := by
  unfold CompileRun.compileIn
  rcases hanswer : Collaborators.runCompiler run.parts.surroundings request.invocation.args run.files
    with ⟨answer, files, surroundings⟩
  let noted := (run.withSurroundings surroundings).note (.compiled request.invocation.args .compile)
  have hstdout : noted.stdout = run.stdout :=
    (CompileRun.stdout_note _ _).trans (List.append_nil _)
  have hstderr : noted.stderr = run.stderr :=
    (CompileRun.stderr_note _ _).trans (List.append_nil _)
  dsimp only
  rw [hanswer]
  -- the compiler does not end, cannot be run, or ends with a code
  rcases answer with _ | _ | _
  all_goals exact ⟨hstdout, hstderr, by simp⟩

omit [Channel κ] in
theorem quietHere_compileHere (request : CompileRequest) (run : CompileRun ω κ)
    (cause : LocalCause) : QuietHere run (run.compileHere request cause) := by
  unfold CompileRun.compileHere
  cases hslot : run.awaitSlot with
  | none => exact ⟨rfl, rfl, by simp⟩
  | some given =>
    have hdeeds : given.2.deeds = run.deeds := by
      obtain ⟨_, _, _, -, hgiven⟩ := CompileRun.eq_of_awaitSlot hslot
      rw [hgiven]
      rfl
    have hdone := quietHere_compileIn request given.2 cause given.1
    exact ⟨hdone.stdout.trans (by rw [CompileRun.stdout, hdeeds]; rfl),
      hdone.stderr.trans (by rw [CompileRun.stderr, hdeeds]; rfl), hdone.here⟩

theorem compile_of_not_trying {run : CompileRun ω κ} (h : run.trying? request = none)
    (rounds : Nat) :
    (∃ reason, run.compile rounds request = run.compileHere request (.forced reason)) ∨
      ∃ permit slots semaphores, run.compile rounds request
        = { run with slots, semaphores }.compileIn request .slotFree permit := by
  unfold CompileRun.compile
  unfold CompileRun.trying? at h
  cases hforced : request.forcedReason? with
  | some reason => exact .inl ⟨reason, rfl⟩
  | none =>
    rw [hforced] at h
    dsimp only at h ⊢
    -- nothing forces the compile to be done here, so a slot was free
    split at h
    · simp at h
    · rename_i hlocal
      rw [if_neg hlocal]
      rcases htaken : run.slots.tryAcquire run.semaphores .compile
        with ⟨_ | permit, slots, semaphores⟩
      · simp [htaken] at h
      · exact .inr ⟨permit, slots, semaphores, rfl⟩

theorem quietHere_of_not_trying {run : CompileRun ω κ} (h : run.trying? request = none)
    (rounds : Nat) : QuietHere run (run.compile rounds request) := by
  rcases compile_of_not_trying h rounds with ⟨reason, hhere⟩ | ⟨permit, slots, semaphores, hhere⟩
  · rw [hhere]
    exact quietHere_compileHere request run (.forced reason)
  · rw [hhere]
    have hdone := quietHere_compileIn request { run with slots, semaphores } .slotFree permit
    exact ⟨hdone.stdout, hdone.stderr, hdone.here⟩

/-! ### On a worker -/

theorem compile_of_trying {run tried : CompileRun ω κ} (h : run.trying? request = some tried)
    (rounds : Nat) : (∃ slots semaphores, tried = { run with slots, semaphores }) ∧
      run.compile rounds request = tried.compileAway rounds request := by
  unfold CompileRun.compile
  unfold CompileRun.trying? at h
  cases hforced : request.forcedReason? with
  | some reason => simp [hforced] at h
  | none =>
    rw [hforced] at h
    dsimp only at h ⊢
    split at h
    · rename_i hlocal
      rw [if_pos hlocal]
      obtain rfl := Option.some.inj h
      exact ⟨⟨_, _, rfl⟩, rfl⟩
    · rename_i hlocal
      rw [if_neg hlocal]
      rcases htaken : run.slots.tryAcquire run.semaphores .compile
        with ⟨_ | permit, slots, semaphores⟩
      · rw [htaken] at h
        obtain rfl := Option.some.inj h
        exact ⟨⟨_, _, rfl⟩, rfl⟩
      · simp [htaken] at h

omit [Channel κ] [Collaborators ω κ] in
theorem Attempt.result_takeResult_ok {name : String} {run after : CompileRun ω κ}
    {result : JobResult} (h : (Attempt.takeResult name).result run = (.ok result, after)) :
    (run.parts.worker.bind fun c => c.conversation.result) = some result := by
  unfold Attempt.takeResult at h
  rw [Step.result_bind_of_ok (Step.result_get run)] at h
  split at h
  · simp [Attempt.giveUp] at h
  · rename_i taken htaken
    obtain ⟨_, _, -, h⟩ := Step.exists_of_result_bind h
    split at h
    · simp [Attempt.giveUp] at h
    · rw [htaken]
      exact congrArg some (Except.ok.inj (Prod.mk.inj h).1)

/-- An attempt that succeeds receives a result, writes its files unseen, and then presents it. -/
theorem result_remote_ok {tried after : CompileRun ω κ} {outcome : CompileOutcome} {rounds : Nat}
    (hrun : tried.Unstarted request.config)
    (h : (Attempt.remote rounds request).result tried = (.ok outcome, after)) :
    ∃ worker preprocessed result written, tried.Receives rounds request worker preprocessed result ∧
      outcome = ⟨result.exitCode.toInt, .onWorker worker⟩ ∧ tried.Unseen written ∧
      written.parts.PreprocessedTo preprocessed ∧ after = Attempt.presented rounds result written := by
  rw [Attempt.remote_eq] at h
  obtain ⟨worker, before, hawaited, h⟩ := Step.exists_of_result_bind h
  obtain ⟨result, taken, htaken, h⟩ := Step.exists_of_result_bind h
  obtain ⟨_, presented, hdelivered, h⟩ := Step.exists_of_result_bind h
  rw [Attempt.deliver_eq] at hdelivered
  obtain ⟨_, written, hwritten, hpresented⟩ := Step.exists_of_result_bind hdelivered
  have hawait := leads_awaitResult False (fun h => h.elim) hrun (fun h => h.elim)
  obtain ⟨_, preprocessed, -, hbefore⟩ := hawait.success rounds worker before hawaited
  -- taking the result and writing its files are moves, and moves are not seen
  have htook : ReflTransGen (Move False) before taken := by
    have hmoves : ReflTransGen (Move False) before _ :=
      (Attempt.proceeds_takeResult before worker).moves
    rwa [htaken] at hmoves
  have hwrote : ReflTransGen (Move False) taken written := by
    have hmoves : ReflTransGen (Move False) taken _ :=
      (Attempt.proceeds_writeFiles taken request.invocation result.files).moves
    rwa [hwritten] at hmoves
  have hlast := hbefore.moves (SchedulerConversation.keptByTalk_endedIn _) (htook.trans hwrote)
  refine ⟨worker, preprocessed, result, written, ?_, ?_, hlast.unseen, hlast.preprocessed _ rfl, ?_⟩
  · exact ⟨before, hawaited, hbefore.preprocessed _ rfl, Attempt.result_takeResult_ok htaken⟩
  · exact (Except.ok.inj (Prod.mk.inj h).1).symm
  · rw [Attempt.result_present] at hpresented
    split at hpresented
    · rw [← (Prod.mk.inj h).2]
      exact (Prod.mk.inj hpresented).2.symm
    · cases hpresented

omit [Channel κ] in
/-- What an abandoned attempt shows when it is torn down. -/
theorem output_abandoned {tried after : CompileRun ω κ} (hsilent : tried.Silent)
    (haccepts : AcceptsOutput tried.parts.surroundings) (h : tried.Unseen after) :
    after.tearDown.stdout = [] ∧ after.tearDown.stderr = after.seenMessages := by
  have hstill := h.silent hsilent
  have hshown := CompileRun.shows_tearDown (haccepts.asked h.asked) hstill.messages
  refine ⟨?_, ?_⟩
  · rw [hshown.stdout, hstill.output.1, List.append_nil]
  · rw [hshown.stderr, hstill.output.2, List.nil_append]

/-- What a result shows that was presented, once the attempt is torn down. -/
theorem output_presented {tried written : CompileRun ω κ} {preprocessed : Preprocessed}
    (hsilent : tried.Silent) (haccepts : AcceptsOutput tried.parts.surroundings)
    (h : tried.Unseen written) (hpreprocessed : written.parts.PreprocessedTo preprocessed)
    (rounds : Nat) (result : JobResult) :
    (Attempt.presented rounds result written).tearDown.stdout = result.stdout ∧
      (Attempt.presented rounds result written).tearDown.stderr =
        preprocessed.stderr ++ result.stderr := by
  have hstill := h.silent hsilent
  have hshown := shows_presented (haccepts.asked h.asked) hstill.messages rounds result
  have hagain := CompileRun.shows_tearDown_again hshown.accepts
    (messagesShown_presented rounds result written)
  refine ⟨?_, ?_⟩
  · rw [hagain.stdout, hshown.stdout, hstill.output.1, List.nil_append, List.append_nil]
  · rw [hagain.stderr, hshown.stderr, hstill.output.2, List.nil_append, List.append_nil,
      CompileRun.seenMessages_of_preprocessedTo hpreprocessed]

/-- A compile that tries a worker is transparent. -/
theorem transparent_compileAway {start tried : CompileRun ω κ}
    (htry : start.trying? request = some tried) (hrun : tried.Unstarted request.config)
    (hsilent : tried.Silent) (haccepts : AcceptsOutput tried.parts.surroundings) (rounds : Nat) :
    Transparent rounds request start (tried.compileAway rounds request) := by
  have hleads := leads_remote hrun
  have hattempted : start.attempted? rounds request
      = some ((Attempt.remote rounds request).result tried).2 := by
    rw [CompileRun.attempted?, htry]
    rfl
  rw [compileAway_eq]
  rcases hanswer : (Attempt.remote rounds request).result tried with ⟨why | outcome, after⟩
  -- what an abandoned attempt shows is shown by tearing it down
  · have hceased := hleads.failure rounds why after hanswer
    have hshown (hwhy : why ≠ .stalled) := output_abandoned hsilent haccepts (hceased.unseen hwhy)
    have hseen : ((start.attempted? rounds request).map CompileRun.seenMessages).getD []
        = after.seenMessages := by
      rw [hattempted, hanswer]
      rfl
    cases why with
    | stalled => exact ⟨by simp [CompileRun.conclude], by simp [CompileRun.conclude]⟩
    | tooOld minVersion =>
      obtain ⟨hstdout, hstderr⟩ := hshown (by simp)
      exact ⟨by simp [CompileRun.conclude], fun _ _ _ => ⟨hstdout, hstderr.trans hseen.symm⟩⟩
    | fallback reason =>
      obtain ⟨hstdout, hstderr⟩ := hshown (by simp)
      have hquiet := quietHere_compileHere request (after.tearDown.note (.gaveUp reason))
        (.fallback reason)
      refine ⟨fun code worker h => (hquiet.here code worker h).elim, fun _ _ _ => ⟨?_, ?_⟩⟩
      · exact (hquiet.stdout.trans (CompileRun.stdout_note _ _)).trans
          ((List.append_nil _).trans hstdout)
      · exact (hquiet.stderr.trans (CompileRun.stderr_note _ _)).trans
          ((List.append_nil _).trans (hstderr.trans hseen.symm))
  -- and after a delivery tearing down shows nothing more
  · obtain ⟨worker, preprocessed, result, written, hreceives, rfl, hunseen, hpreprocessed, rfl⟩ :=
      result_remote_ok hrun hanswer
    have houtput := output_presented hsilent haccepts hunseen hpreprocessed rounds result
    refine ⟨fun code name h => ?_, fun ending h hother => ?_⟩
    · obtain ⟨rfl, rfl⟩ : result.exitCode.toInt = code ∧ worker = name := by
        simpa [CompileRun.conclude] using h
      exact ⟨tried, preprocessed, result, htry, hreceives, rfl, houtput⟩
    · exact absurd (Option.some.inj h).symm (hother _ _)

/-- If the streams take what is written to them, then a compile on a worker shows the messages of
the preprocessor and the output of the compiler on the worker, each once; any other compile shows
nothing but the messages of a preprocessor that was seen to end well. However often an attempt is
ended, its messages are shown once. -/
theorem output_transparent (request : CompileRequest) (surroundings : ω) (slots : SlotController)
    (semaphores : Semaphores) (files : FileTree) (haccepts : AcceptsOutput surroundings) :
    let start : CompileRun ω κ := .fresh request surroundings slots semaphores files
    (∀ rounds, Transparent rounds request start (start.compile rounds request)) ∧
      ∀ (run : CompileRun ω κ) (n : Nat), CompileRun.tearDown^[n + 1] run = run.tearDown := by
  intro start
  refine ⟨fun rounds => ?_, CompileRun.iterate_tearDown⟩
  -- without an attempt the streams of the client are not used at all
  cases htry : start.trying? request with
  | none =>
    have hquiet := quietHere_of_not_trying htry rounds
    refine ⟨fun code worker h => (hquiet.here code worker h).elim,
      fun _ _ _ => ⟨hquiet.stdout, hquiet.stderr.trans ?_⟩⟩
    rw [CompileRun.attempted?, htry]
    rfl
  | some tried =>
    obtain ⟨⟨left, units, rfl⟩, hcompile⟩ := compile_of_trying htry rounds
    rw [hcompile]
    exact transparent_compileAway htry ⟨rfl, rfl, rfl⟩ ⟨by simp [start, CompileRun.fresh], rfl⟩
      haccepts rounds

end Compile

/-! ## A worker that helps -/

section Helped

open Scenario

/-- Nothing that is asked of a scripted world breaks its streams. -/
theorem streamsBroken_of_asked {w later : World} (h : Asked w later) :
    later.streamsBroken = w.streamsBroken := by
  cases h with
  | connect request =>
    show (w.connect request).2.streamsBroken = _
    unfold World.connect
    split <;> rfl
  | idle _ h =>
    obtain rfl := Option.some.inj h
    unfold World.idle
    split <;> rfl
  | _ => rfl

theorem acceptsOutput_world {w : World} (h : w.streamsBroken = false) : AcceptsOutput w := by
  have hkept (later : World) (hlater : ReflTransGen Asked w later) : later.stream = .ok () := by
    have hwhole : later.streamsBroken = false := by
      induction hlater with
      | refl => exact h
      | tail _ hlast ih => exact (streamsBroken_of_asked hlast).trans ih
    rw [World.stream, hwhole]
    rfl
  exact ⟨fun later hlater _ => hkept later hlater, fun later hlater _ => hkept later hlater⟩

/-- A world in which the preprocessor ends well with a message, the scheduler names a worker, and
the compiler on the worker writes to both streams. -/
def helpfulWorld : World where
  time := 0
  leap := 1
  hash := .ok ""
  preprocessor := some (.ok ⟨0, [35], [119]⟩)
  preprocessorEnded := false
  compiler := .ok 0
  peers :=
    let worker : Assignment := ⟨"10.0.0.1", "", 80, 7, "", []⟩
    let header : JobResponse := ⟨true, 0, [⟨.stdout, 1, none⟩, ⟨.stderr, 2, none⟩]⟩
    let scheduler : Script :=
      .ofReplies [.frame (.text (SchedulerMessage.assignment worker).encode)] []
    -- the envelope of the job is taken without a word, and its source is answered
    let compiler : Script := .ofReplies [] [.nothing, .arrivals
      [.frame (.text (WorkerMessage.response header).encode), .frame (.binary [111, 101, 102])]]
    [.accepts ⟨⟨scheduler, []⟩, []⟩, .accepts ⟨⟨compiler, []⟩, []⟩]
  busy := (unlimitedSlots.source, 0)
  streamsBroken := false

theorem eq_of_toOption {ending : CompileEnd} {outcome : CompileOutcome}
    (h : ending.bind Except.toOption = some outcome) : ending = some (.ok outcome) := by
  rcases ending with _ | _ | other
  · simp at h
  · simp [Except.toOption] at h
  · exact congrArg (some ∘ Except.ok) (Option.some.inj h)

/-- In such a world a compile is done on the worker, and looks as if it were done here. -/
theorem output_transparent_helpful :
    let start : CompileRun World PeerChannel :=
      .fresh plainRequest helpfulWorld unlimitedSlots .none emptyTree
    let ended := start.compile 20 plainRequest
    AcceptsOutput helpfulWorld ∧ ended.1 = some (.ok ⟨0, .onWorker "10.0.0.1:80"⟩) ∧
      ∃ tried preprocessed result, start.trying? plainRequest = some tried ∧
        tried.Receives 20 plainRequest "10.0.0.1:80" preprocessed result ∧
        0 = result.exitCode.toInt ∧ ended.2.stdout = result.stdout ∧
        ended.2.stderr = preprocessed.stderr ++ result.stderr := by
  intro start ended
  have haccepts : AcceptsOutput helpfulWorld := acceptsOutput_world rfl
  have hended : ended.1 = some (.ok ⟨0, .onWorker "10.0.0.1:80"⟩) :=
    eq_of_toOption (by decide +kernel)
  exact ⟨haccepts, hended, ((output_transparent plainRequest helpfulWorld unlimitedSlots .none
    emptyTree haccepts).1 20).onWorker 0 "10.0.0.1:80" hended⟩

end Helped

end Offload
