import Offload.Proofs.Compile.Aside
import Offload.Proofs.Compile.Output

/-!
# The files of a result

The files of a result are written one after another, and the attempt is abandoned at the first that
cannot be written. Those before it stay, although this host compiles then. So an attempt leaves all
files of a result or none (`AllOrNone`) unless it fails midway (`CompileRun.FailsMidway`), and then
it leaves some. Up to the delivery of a result an attempt changes no file; what the identification
of the compiler keeps in files is a matter of the toolchain. A compile that does not end may have all files of
a result written as well.
-/

namespace Offload

open Relation

variable {ω κ α β : Type}

/-! ## Writing files -/

/-- Where a file of a result goes. One without a path is the object file. -/
def OutputFile.destination? (inv : Invocation) (file : OutputFile) : Option String :=
  file.path.or inv.objectOutput?

/-- Writing files one after another makes one tree of another. -/
inductive Written (inv : Invocation) : FileTree → List OutputFile → FileTree → Prop
  | nil (tree : FileTree) : Written inv tree [] tree
  | cons {tree next last : FileTree} {file : OutputFile} {rest : List OutputFile} {path : String}
    (hpath : file.destination? inv = some path) (hwrite : tree.write path file.data = .ok next)
    (hrest : Written inv next rest last) : Written inv tree (file :: rest) last

/-- A file that cannot be written, and why. -/
inductive Refused (inv : Invocation) (tree : FileTree) (file : OutputFile) : Fallback → Prop
  | noObjectPath (hpath : file.destination? inv = none) : Refused inv tree file .noObjectPath
  | unwritable {path : String} {cause : SystemError} (hpath : file.destination? inv = some path)
    (hwrite : tree.write path file.data = .error cause) :
    Refused inv tree file (.unwritable path cause)

/-- All files can be written, or some up to one that cannot. -/
theorem written_or_refused (inv : Invocation) (tree : FileTree) (files : List OutputFile) :
    (∃ last, Written inv tree files last) ∨
      ∃ done file rest last reason, files = done ++ file :: rest ∧ Written inv tree done last ∧
        Refused inv last file reason := by
  induction files generalizing tree with
  | nil => exact .inl ⟨tree, .nil tree⟩
  | cons file rest ih =>
    cases hpath : file.destination? inv with
    | none => exact .inr ⟨[], file, rest, tree, _, rfl, .nil tree, .noObjectPath hpath⟩
    | some path =>
      cases hwrite : tree.write path file.data with
      | error cause =>
        exact .inr ⟨[], file, rest, tree, _, rfl, .nil tree, .unwritable hpath hwrite⟩
      | ok next =>
        rcases ih next with
          ⟨last, hlast⟩ | ⟨done, other, others, last, reason, rfl, hdone, hrefused⟩
        · exact .inl ⟨last, .cons hpath hwrite hlast⟩
        · exact .inr ⟨file :: done, other, others, last, reason, rfl, .cons hpath hwrite hdone,
            hrefused⟩

/-- Every change of a tree of files has its time. -/
theorem FileTree.seconds_write {tree next : FileTree} {path : String} {contents : Bytes}
    (h : tree.write path contents = .ok next) :
    next.clock.seconds = tree.clock.seconds + 1 := by
  unfold FileTree.write at h
  split at h
  · -- a path that says that it leads to a directory is never written
    cases hcheck : checkPath path with
    | error cause => simp [hcheck, bind, Except.bind] at h
    | ok _ =>
      cases hwalk : tree.walk (tree.origin path) ((Path.parts path.toList).map String.ofList) with
      | error cause => simp [hcheck, hwalk, bind, Except.bind] at h
      | ok target => cases target <;> simp [hcheck, hwalk, bind, Except.bind] at h
  · cases hresolve : tree.resolve path with
    | error cause => simp [hresolve, bind, Except.bind] at h
    | ok target =>
      cases target with
      | directory place => simp [hresolve, bind, Except.bind] at h
      | file place data =>
        simp only [hresolve] at h
        rw [← Except.ok.inj h]
        rfl
      | missing place =>
        simp only [hresolve] at h
        rw [← Except.ok.inj h]
        rfl

theorem Written.seconds {inv : Invocation} {tree last : FileTree} {files : List OutputFile}
    (h : Written inv tree files last) :
    last.clock.seconds = tree.clock.seconds + files.length := by
  induction h with
  | nil tree => simp
  | cons hpath hwrite hrest ih =>
    rw [ih, FileTree.seconds_write hwrite, List.length_cons]
    omega

/-- What is written changes the tree. -/
theorem Written.eq_nil {inv : Invocation} {tree : FileTree} {files : List OutputFile}
    (h : Written inv tree files tree) : files = [] := by
  have hseconds := h.seconds
  rw [← List.length_eq_zero_iff]
  omega

namespace Attempt

variable {inv : Invocation} {run : CompileRun ω κ}

theorem result_outputPath (inv : Invocation) (file : OutputFile) (run : CompileRun ω κ) :
    (outputPath inv file).result run = match file.destination? inv with
      | some path => (.ok path, run)
      | none => (.error (.fallback .noObjectPath), run) := by
  unfold outputPath OutputFile.destination?
  cases file.path <;> cases inv.objectOutput? <;> rfl

/-- A file that can be written is written, and then the others. -/
theorem result_writeFiles_cons {file : OutputFile} {path : String} {next : FileTree}
    (hpath : file.destination? inv = some path)
    (hwrite : run.files.write path file.data = .ok next) (rest : List OutputFile) :
    (writeFiles inv (file :: rest)).result run =
      (writeFiles inv rest).result { run with files := next } := by
  have hout : (outputPath inv file).result run = (.ok path, run) := by
    rw [result_outputPath, hpath]
  rw [writeFiles, Step.result_bind_of_ok hout, Step.result_bind_of_ok (Step.result_get run)]
  simp only [hwrite]
  exact Step.result_bind_of_ok (Step.result_set run _) _

theorem result_writeFiles {files : List OutputFile} {last : FileTree}
    (h : Written inv run.files files last) :
    (writeFiles inv files).result run = (.ok (), { run with files := last }) := by
  generalize htree : run.files = tree at h
  induction h generalizing run with
  | nil tree =>
    subst htree
    rfl
  | cons hpath hwrite hrest ih =>
    subst htree
    rw [result_writeFiles_cons hpath hwrite]
    exact ih rfl

/-- A file that cannot be written ends the attempt. Those before it are left. -/
theorem result_writeFiles_refused {done rest : List OutputFile} {file : OutputFile}
    {last : FileTree} {reason : Fallback} (h : Written inv run.files done last)
    (hrefused : Refused inv last file reason) :
    (writeFiles inv (done ++ file :: rest)).result run =
      (.error (.fallback reason), { run with files := last }) := by
  generalize htree : run.files = tree at h
  induction h generalizing run with
  | nil tree =>
    subst htree
    have hout := result_outputPath inv file run
    rw [List.nil_append, writeFiles]
    cases hrefused with
    | noObjectPath hpath =>
      rw [hpath] at hout
      exact Step.result_bind_of_error hout _
    | unwritable hpath hwrite =>
      rw [hpath] at hout
      rw [Step.result_bind_of_ok hout, Step.result_bind_of_ok (Step.result_get run)]
      simp only [hwrite]
      rfl
  | cons hpath hwrite hrest ih =>
    subst htree
    rw [List.cons_append, result_writeFiles_cons hpath hwrite]
    exact ih hrefused rfl

end Attempt

/-! ## Steps that change no file -/

/-- A step leaves the files as they are. -/
def KeepsFiles (run : CompileRun ω κ) (step : Step ω κ α) : Prop :=
  (step.result run).2.files = run.files

/-- What follows a step changes no file. -/
theorem files_bind {run : CompileRun ω κ} {step : Step ω κ α} {next : α → Step ω κ β}
    (hnext : ∀ a after, KeepsFiles after (next a)) :
    ((step >>= next).result run).2.files = (step.result run).2.files := by
  rcases hresult : step.result run with ⟨why | a, after⟩
  · rw [Step.result_bind_of_error hresult]
  · rw [Step.result_bind_of_ok hresult]
    exact hnext a after

namespace KeepsFiles

variable {run : CompileRun ω κ}

theorem bind {step : Step ω κ α} {next : α → Step ω κ β} (h : KeepsFiles run step)
    (hnext : ∀ a after, KeepsFiles after (next a)) : KeepsFiles run (step >>= next) :=
  (files_bind hnext).trans h

/-- Looking at the state is no step of its own. -/
theorem get_bind {next : CompileRun ω κ → Step ω κ β} (h : KeepsFiles run (next run)) :
    KeepsFiles run (get >>= next) := by
  rw [KeepsFiles, Step.result_bind_of_ok (Step.result_get run)]
  exact h

theorem throw (why : Abandon) :
    KeepsFiles (α := α) run (MonadExcept.throw why : Step ω κ α) := rfl

theorem giveUp (reason : Fallback) : KeepsFiles (α := α) run (Attempt.giveUp reason) := rfl

theorem pure (a : α) : KeepsFiles run (Pure.pure a : Step ω κ α) := rfl

theorem act (f : Parts ω κ → Parts ω κ) : KeepsFiles run (Attempt.act f) := rfl

theorem register (source : EventSource (Parts ω κ)) :
    KeepsFiles run (Attempt.register source) := rfl

end KeepsFiles

namespace Attempt

variable (run : CompileRun ω κ)

theorem keepsFiles_checkPreprocessor : KeepsFiles run checkPreprocessor := by
  refine .get_bind ?_
  split
  · exact .giveUp _
  · split
    · exact .pure ()
    · exact .giveUp _
  · exact .pure ()

theorem keepsFiles_preprocessedSource : KeepsFiles run preprocessedSource := by
  refine .get_bind ?_
  split
  · exact .giveUp _
  · exact .pure _
  · exact .giveUp _

theorem keepsFiles_assignment : KeepsFiles run assignment := by
  refine .get_bind ?_
  split
  · exact .pure _
  · exact .throw _
  all_goals exact .giveUp _

theorem keepsFiles_checkWorker : KeepsFiles run checkWorker := by
  refine .get_bind ?_
  split
  · split
    · exact .giveUp _
    · exact .pure ()
  · exact .pure ()

theorem keepsFiles_beginUpload (name : String) (job : JobEnvelope) (payload : Bytes) :
    KeepsFiles run (beginUpload name job payload) := by
  refine .get_bind ?_
  split
  · exact .pure ()
  · split
    · exact .act _
    · exact .giveUp _

theorem keepsFiles_takeResult (name : String) : KeepsFiles run (takeResult name) := by
  refine .get_bind ?_
  split
  · exact .giveUp _
  · refine .bind (.act _) fun _ after => ?_
    split
    · exact .giveUp _
    · exact .pure _

section

variable [Channel κ]

theorem keepsFiles_greetScheduler (client : String) (channel : κ) :
    KeepsFiles run (greetScheduler client channel) :=
  .bind (.act _) fun _ _ => .register _

theorem keepsFiles_greetWorker (channel : κ) (wait : Bool) :
    KeepsFiles run (greetWorker channel wait) :=
  .bind (.act _) fun _ _ => .register _

end

variable [Collaborators ω κ]

theorem keepsFiles_begin (request : CompileRequest) : KeepsFiles run (begin request) := by
  refine .bind (.act _) fun _ after => .bind (.register _) fun _ after => ?_
  refine .bind (.act _) fun _ after => .bind (.register _) fun _ after => ?_
  exact .bind (.act _) fun _ after => keepsFiles_checkPreprocessor after

theorem keepsFiles_connect (request : ConnectRequest) (refused : TransportError → Fallback) :
    KeepsFiles run (connect request refused) := by
  rw [KeepsFiles, result_connect]
  rfl

theorem keepsFiles_await (rounds : Nat) (aim : Parts ω κ → Bool) :
    KeepsFiles run (await rounds aim) := by
  rw [KeepsFiles, result_await, verdict_snd]

theorem keepsFiles_awaitWorker (rounds : Nat) (aim : Parts ω κ → Bool) :
    KeepsFiles run (awaitWorker rounds aim) :=
  .bind (keepsFiles_await run rounds _) fun _ after => keepsFiles_checkWorker after

theorem keepsFiles_upload (rounds : Nat) (request : CompileRequest) (worker : Assignment)
    (wait : Bool) : KeepsFiles run (upload rounds request worker wait) := by
  refine .bind (keepsFiles_awaitWorker run rounds _) fun _ after => ?_
  refine .bind (keepsFiles_awaitWorker after rounds _) fun _ after => ?_
  refine .bind (keepsFiles_checkPreprocessor after) fun _ after => ?_
  refine .bind (keepsFiles_preprocessedSource after) fun payload after => ?_
  refine .bind (keepsFiles_beginUpload after _ _ payload) fun _ after => ?_
  exact keepsFiles_awaitWorker after rounds _

variable [Channel κ]

/-- While a worker is acquired, files change by the identification of the compiler alone. -/
theorem files_acquireWorker (rounds : Nat) (request : CompileRequest) (source : String) :
    ((acquireWorker rounds request source).result run).2.files =
      (Collaborators.compilerHash run.parts.surroundings run.files).2.1 := by
  have hrest : ((acquireWorker rounds request source).result run).2.files =
      ((identify request.config).result run).2.files := by
    refine files_bind fun environment after => ?_
    refine .bind (keepsFiles_connect after _ _) fun accepted after => ?_
    refine .bind (.act _) fun _ after => ?_
    refine .bind (keepsFiles_greetScheduler after _ _) fun _ after => ?_
    refine .bind (keepsFiles_await after rounds _) fun _ after => ?_
    exact keepsFiles_assignment after
  rw [hrest]
  unfold identify
  rw [Step.result_bind_of_ok (Step.result_get run)]
  dsimp only
  rw [Step.result_bind_of_ok (Step.result_set run _)]
  split <;> rfl

end Attempt

/-- The files are as they were, or as the identification of the compiler left them. -/
def CompileRun.Identified [Collaborators ω κ] (run : CompileRun ω κ) (files : FileTree) : Prop :=
  files = run.files ∨ ∃ later, ReflTransGen Asked run.parts.surroundings later ∧
    files = (Collaborators.compilerHash later run.files).2.1

/-- Up to a result, files change by the identification of the compiler alone. -/
theorem identified_awaitResult [Channel κ] [Collaborators ω κ] {run : CompileRun ω κ}
    {request : CompileRequest} (hrun : run.Unstarted request.config) (rounds : Nat) :
    run.Identified ((Attempt.awaitResult rounds request).result run).2.files := by
  unfold Attempt.awaitResult
  cases request.invocation.sourceFile? with
  | none => exact .inl rfl
  | some source =>
    have hkept : KeepsFiles run (Attempt.begin request) := Attempt.keepsFiles_begin run request
    have hbegun := leads_begin hrun fun h : False => h.elim
    dsimp only
    rcases hbegin : (Attempt.begin request).result run with ⟨why | _, begun⟩
    · rw [KeepsFiles, hbegin] at hkept
      rw [Step.result_bind_of_error hbegin]
      exact .inl hkept
    · rw [KeepsFiles, hbegin] at hkept
      have hasked := (hbegun.success rounds () begun hbegin).unseen.asked
      refine .inr ⟨begun.parts.surroundings, hasked, ?_⟩
      rw [Step.result_bind_of_ok hbegin, ← hkept,
        ← Attempt.files_acquireWorker begun rounds request source]
      refine files_bind fun worker after => ?_
      refine .bind (Attempt.keepsFiles_checkPreprocessor after) fun _ after => ?_
      refine .bind (.act _) fun _ after => ?_
      refine .bind (Attempt.keepsFiles_connect after _ _) fun accepted after => ?_
      refine .bind (Attempt.keepsFiles_greetWorker after _ _) fun _ after => ?_
      refine .bind (Attempt.keepsFiles_upload after rounds _ _ _) fun _ after => ?_
      refine .bind (.act _) fun _ after => ?_
      refine .bind (Attempt.keepsFiles_awaitWorker after rounds _) fun _ after => ?_
      exact .pure _

/-! ## The end of an attempt -/

namespace CompileRun

variable [Collaborators ω κ] (run : CompileRun ω κ)

theorem files_showMessages : run.showMessages.files = run.files := by
  obtain ⟨s, deeds, hshown⟩ := showMessages_eq run
  rw [hshown]
  rfl

theorem files_tearDown : run.tearDown.files = run.files := by
  have hstopped : run.stopWatchdog.stopPreprocessor.files = run.files := by
    unfold stopPreprocessor
    split <;> rfl
  rw [tearDown, files_showMessages, hstopped]

theorem files_showOutput (result : JobResult) :
    (Attempt.showOutput result run).files = run.files := by
  obtain ⟨s, deeds, hshown⟩ := showOutput_eq run result
  rw [hshown]
  rfl

theorem files_afterClosing [Channel κ] (rounds : Nat) :
    (Attempt.afterClosing rounds run).files = run.files :=
  files_showMessages { run with parts := run.parts.enter .finished }

end CompileRun

/-- A failure without a reason from the compiler; such a result is not delivered. -/
def JobResult.isUnexplained (result : JobResult) : Bool := !result.success && result.exitCode = 0

section Attempt

variable {run : CompileRun ω κ}

theorem Attempt.fst_result_takeResult (name : String) {result : JobResult}
    (h : (run.parts.worker.bind fun c => c.conversation.result) = some result) :
    ((takeResult name).result run).1 =
      if result.isUnexplained then .error (.fallback (.failureReported name)) else .ok result := by
  unfold takeResult
  rw [Step.result_bind_of_ok (Step.result_get run), h]
  refine (congrArg Prod.fst (Step.result_bind_of_ok (Step.result_modify _ run) _)).trans ?_
  unfold JobResult.isUnexplained
  split <;> rfl

variable [Channel κ] [Collaborators ω κ]

/-- The state in which a result was taken and its files are written, when it is waited for no longer. -/
def Attempt.written (worker : String) (before : CompileRun ω κ) (files : FileTree) : CompileRun ω κ :=
  { ((takeResult worker).result before).2 with files }

/-- A result that is received and can be delivered is taken, and then its files are written. -/
theorem result_remote_received {tried : CompileRun ω κ} {request : CompileRequest} {rounds : Nat}
    {worker : String} {preprocessed : Preprocessed} {result : JobResult}
    (hreceives : tried.Receives rounds request worker preprocessed result)
    (hexplained : result.isUnexplained = false) :
    ∃ before, (Attempt.awaitResult rounds request).result tried = (.ok worker, before) ∧
      (Attempt.remote rounds request).result tried =
        ((do
          Attempt.writeFiles request.invocation result.files
          Attempt.present rounds result
          return ⟨result.exitCode.toInt, .onWorker worker⟩ : Step ω κ CompileOutcome)).result
          (Attempt.written worker before before.files) := by
  obtain ⟨before, hawaited, -, hresult⟩ := hreceives
  have hfst := Attempt.fst_result_takeResult worker hresult
  rw [if_neg (by simp [hexplained])] at hfst
  have hkept : ((Attempt.takeResult worker).result before).2.files = before.files :=
    Attempt.keepsFiles_takeResult before worker
  have htaken : Attempt.written worker before before.files =
      ((Attempt.takeResult worker).result before).2 := by
    rw [Attempt.written, ← hkept]
  refine ⟨before, hawaited, ?_⟩
  rw [Attempt.remote_eq, Step.result_bind_of_ok hawaited,
    Step.result_bind_of_ok (Prod.ext hfst htaken.symm), Attempt.deliver_eq, bind_assoc]
  rfl

variable {tried : CompileRun ω κ} {request : CompileRequest} {rounds : Nat} {worker : String}
  {preprocessed : Preprocessed} {result : JobResult} {last : FileTree}

/-- A result whose files can be written is delivered, unless the connection to the scheduler cannot be closed
in the end. -/
theorem result_remote_written
    (hreceives : tried.Receives rounds request worker preprocessed result)
    (hexplained : result.isUnexplained = false)
    (hwritten : Written request.invocation
      ((Attempt.awaitResult rounds request).result tried).2.files result.files last) :
    ∃ before, (Attempt.awaitResult rounds request).result tried = (.ok worker, before) ∧
      (Attempt.remote rounds request).result tried =
        if (Attempt.waitedClosing rounds (Attempt.written worker before last)).1 then
          (.ok ⟨result.exitCode.toInt, .onWorker worker⟩,
            Attempt.presented rounds result (Attempt.written worker before last))
        else (.error .stalled, Attempt.afterClosing rounds (Attempt.written worker before last)) := by
  obtain ⟨before, hawaited, hremote⟩ := result_remote_received hreceives hexplained
  rw [hawaited] at hwritten
  refine ⟨before, hawaited, ?_⟩
  have hpresent := Attempt.result_present (Attempt.written worker before last) rounds result
  have hwrote : (Attempt.writeFiles request.invocation result.files).result
      (Attempt.written worker before before.files) =
        (.ok (), Attempt.written worker before last) := Attempt.result_writeFiles hwritten
  rw [hremote, Step.result_bind_of_ok hwrote]
  split
  · rename_i hclosed
    rw [if_pos hclosed] at hpresent
    exact (Step.result_bind_of_ok hpresent _).trans (Step.result_pure _ _)
  · rename_i hpending
    rw [if_neg hpending] at hpresent
    exact Step.result_bind_of_error hpresent _

/-- A result of which a file cannot be written is given up, and the files before that one stay. -/
theorem result_remote_refused {done rest : List OutputFile} {file : OutputFile} {reason : Fallback}
    (hreceives : tried.Receives rounds request worker preprocessed result)
    (hexplained : result.isUnexplained = false) (hfiles : result.files = done ++ file :: rest)
    (hwritten : Written request.invocation
      ((Attempt.awaitResult rounds request).result tried).2.files done last)
    (hrefused : Refused request.invocation last file reason) :
    ∃ after, after.files = last ∧
      (Attempt.remote rounds request).result tried = (.error (.fallback reason), after) := by
  obtain ⟨before, hawaited, hremote⟩ := result_remote_received hreceives hexplained
  rw [hawaited] at hwritten
  have hfailed : (Attempt.writeFiles request.invocation (done ++ file :: rest)).result
      (Attempt.written worker before before.files) =
        (.error (.fallback reason), Attempt.written worker before last) :=
    Attempt.result_writeFiles_refused hwritten hrefused
  refine ⟨Attempt.written worker before last, rfl, ?_⟩
  rw [hremote, hfiles]
  exact Step.result_bind_of_error hfailed _

/-- An attempt fails before it writes a file, or it has received a result that can be delivered. If it fails
once it is not waiting for a result any more, then the compile is left to this host. -/
theorem receives_or_keeps (hrun : tried.Unstarted request.config) (rounds : Nat) :
    (∃ why after, after.files = ((Attempt.awaitResult rounds request).result tried).2.files ∧
        (Attempt.remote rounds request).result tried = (.error why, after) ∧
        ((Attempt.awaitResult rounds request).result tried = (.error why, after) ∨
          ∃ reason, why = .fallback reason)) ∨
      ∃ worker preprocessed result, tried.Receives rounds request worker preprocessed result ∧
        result.isUnexplained = false := by
  have hawait := leads_awaitResult False False.elim hrun False.elim
  rw [Attempt.remote_eq]
  rcases hawaited : (Attempt.awaitResult rounds request).result tried with ⟨why | worker, before⟩
  · exact .inl ⟨why, before, rfl, Step.result_bind_of_error hawaited _, .inl rfl⟩
  rw [Step.result_bind_of_ok hawaited]
  obtain ⟨_, preprocessed, -, hbefore⟩ := hawait.success rounds worker before hawaited
  have hkept : KeepsFiles before (Attempt.takeResult worker) :=
    Attempt.keepsFiles_takeResult before worker
  rcases htaken : (Attempt.takeResult worker).result before with ⟨why | result, taken⟩
  · have hproceeds : Proceeds False before (Attempt.takeResult worker) :=
      Attempt.proceeds_takeResult before worker
    rw [KeepsFiles, htaken] at hkept
    exact .inl ⟨why, taken, hkept, Step.result_bind_of_error htaken _,
      .inr (hproceeds.failure why (congrArg Prod.fst htaken))⟩
  have hresult := Attempt.result_takeResult_ok htaken
  refine .inr ⟨worker, preprocessed, result,
    ⟨before, hawaited, hbefore.preprocessed _ rfl, hresult⟩, ?_⟩
  have hfst := Attempt.fst_result_takeResult worker hresult
  rw [htaken] at hfst
  split at hfst
  · cases hfst
  · rename_i hnot
    exact Bool.eq_false_iff.mpr hnot

end Attempt

/-! ## All files or none -/

section Compile

variable [Channel κ] [Collaborators ω κ]

/-- The files in the state in which a result is waited for no longer, before it is written. -/
def CompileRun.prepared (rounds : Nat) (start : CompileRun ω κ) (request : CompileRequest) :
    FileTree :=
  match start.trying? request with
  | none => start.files
  | some tried => ((Attempt.awaitResult rounds request).result tried).2.files

/-- The files as an attempt leaves them, if one is made. -/
def CompileRun.left (rounds : Nat) (start : CompileRun ω κ) (request : CompileRequest) : FileTree :=
  ((start.attempted? rounds request).map CompileRun.files).getD start.files

/-- All files of the result that is received from a worker are written. -/
def CompileRun.WritesAll (rounds : Nat) (start : CompileRun ω κ) (request : CompileRequest)
    (worker : String) (files : FileTree) : Prop :=
  ∃ tried preprocessed result, start.trying? request = some tried ∧
    tried.Receives rounds request worker preprocessed result ∧
    Written request.invocation (start.prepared rounds request) result.files files

/-- A compile that is done on a worker writes all files of the result that is received, and an
attempt at any other compile writes none. Only if the compile does not end, all may be written as well: then
the connection to the scheduler is not closed yet. -/
structure AllOrNone (rounds : Nat) (request : CompileRequest) (start : CompileRun ω κ)
    (ended : CompileEnd × CompileRun ω κ) : Prop where
  onWorker : ∀ code worker, ended.1 = some (.ok ⟨code, .onWorker worker⟩) →
    start.WritesAll rounds request worker ended.2.files
  elsewhere : (∀ code worker, ended.1 ≠ some (.ok ⟨code, .onWorker worker⟩)) →
    start.left rounds request = start.prepared rounds request ∨
      ended.1 = none ∧ ∃ worker, start.WritesAll rounds request worker (start.left rounds request)

/-- A result is received that is to be delivered; some of its files can be written, but then one
cannot. -/
def CompileRun.FailsMidway (rounds : Nat) (start : CompileRun ω κ) (request : CompileRequest) :
    Prop :=
  ∃ tried worker preprocessed result, start.trying? request = some tried ∧
    tried.Receives rounds request worker preprocessed result ∧ result.isUnexplained = false ∧
    ∃ done file rest last reason, result.files = done ++ file :: rest ∧ done ≠ [] ∧
      Written request.invocation (start.prepared rounds request) done last ∧
      Refused request.invocation last file reason

variable {request : CompileRequest}

omit [Channel κ] in
/-- What is abandoned is not done on a worker. -/
theorem not_onWorker_conclude (why : Abandon) (run : CompileRun ω κ) (code : Int)
    (worker : String) :
    (CompileRun.conclude request (.error why, run)).1 ≠ some (.ok ⟨code, .onWorker worker⟩) := by
  cases why with
  | stalled => simp [CompileRun.conclude]
  | tooOld minVersion => simp [CompileRun.conclude]
  | fallback reason => exact (quietHere_compileHere request _ _).here code worker

section

variable {start tried : CompileRun ω κ} (htry : start.trying? request = some tried)
include htry

theorem CompileRun.prepared_of_trying (rounds : Nat) : start.prepared rounds request =
    ((Attempt.awaitResult rounds request).result tried).2.files := by
  rw [prepared, htry]

theorem CompileRun.left_of_trying (rounds : Nat) :
    start.left rounds request = ((Attempt.remote rounds request).result tried).2.files := by
  rw [left, attempted?, htry]
  rfl

theorem compile_eq_conclude (rounds : Nat) : start.compile rounds request =
    CompileRun.conclude request ((Attempt.remote rounds request).result tried) := by
  rw [(compile_of_trying htry rounds).2, compileAway_eq]

end

/-- Only one result is received. -/
theorem CompileRun.Receives.result_unique {tried : CompileRun ω κ} {rounds : Nat}
    {worker other : String} {preprocessed others : Preprocessed} {result second : JobResult}
    (h : tried.Receives rounds request worker preprocessed result)
    (h' : tried.Receives rounds request other others second) : result = second := by
  obtain ⟨before, hawaited, -, hresult⟩ := h
  obtain ⟨after, hagain, -, hsecond⟩ := h'
  obtain rfl : before = after := congrArg Prod.snd (hawaited.symm.trans hagain)
  exact Option.some.inj (hresult.symm.trans hsecond)

/-- An attempt that fails midway leaves what it has written. -/
theorem CompileRun.FailsMidway.not_allOrNone {rounds : Nat} {start : CompileRun ω κ}
    (h : start.FailsMidway rounds request) :
    ¬ AllOrNone rounds request start (start.compile rounds request) := by
  obtain ⟨tried, worker, preprocessed, result, htry, hreceives, hexplained, done, file, rest, last,
    reason, hfiles, hdone, hwritten, hrefused⟩ := h
  obtain ⟨after, hafter, hremote⟩ := result_remote_refused hreceives hexplained hfiles
    (prepared_of_trying htry rounds ▸ hwritten) hrefused
  have hleft : start.left rounds request = last := by
    rw [left_of_trying htry, hremote]
    exact hafter
  intro hall
  have hother := hall.elsewhere fun code name => by
    rw [compile_eq_conclude htry, hremote]
    exact not_onWorker_conclude _ after code name
  rw [hleft] at hother
  rcases hother with hsame | ⟨-, _, _, _, second, htry', hreceives', hwritten'⟩
  · rw [hsame] at hwritten
    exact hdone hwritten.eq_nil
  · -- each file that is written takes its time, and here one is missing
    obtain rfl : tried = _ := Option.some.inj (htry.symm.trans htry')
    obtain rfl : result = second := hreceives.result_unique hreceives'
    have hsome := hwritten.seconds
    have hevery := hwritten'.seconds
    rw [hfiles, List.length_append, List.length_cons] at hevery
    omega

/-- An attempt that does not fail midway writes all files or none. -/
theorem allOrNone_of_trying {start tried : CompileRun ω κ}
    (htry : start.trying? request = some tried) (hrun : tried.Unstarted request.config)
    (rounds : Nat) (h : ¬ start.FailsMidway rounds request) :
    AllOrNone rounds request start (start.compile rounds request) := by
  have hprepared := CompileRun.prepared_of_trying htry rounds
  have hleft := CompileRun.left_of_trying htry rounds
  have hnone {why : Abandon} {after : CompileRun ω κ}
      (hafter : after.files = start.prepared rounds request)
      (hremote : (Attempt.remote rounds request).result tried = (.error why, after)) :
      AllOrNone rounds request start (start.compile rounds request) := by
    rw [compile_eq_conclude htry, hremote]
    refine ⟨fun code worker hon => absurd hon (not_onWorker_conclude why after code worker),
      fun _ => .inl ?_⟩
    rw [hleft, hremote]
    exact hafter
  rcases receives_or_keeps hrun rounds with
    ⟨why, after, hafter, hremote, -⟩ | ⟨worker, preprocessed, result, hreceives, hexplained⟩
  · exact hnone (hafter.trans hprepared.symm) hremote
  rcases written_or_refused request.invocation (start.prepared rounds request) result.files with
    ⟨last, hwritten⟩ | ⟨done, file, rest, last, reason, hfiles, hwritten, hrefused⟩
  · obtain ⟨before, -, hremote⟩ :=
      result_remote_written hreceives hexplained (hprepared ▸ hwritten)
    let written := Attempt.written worker before last
    have hkept : (Attempt.afterClosing rounds written).files = last :=
      CompileRun.files_afterClosing written rounds
    rw [compile_eq_conclude htry]
    split at hremote
    · rw [hremote]
      refine ⟨fun code name hon => ?_, fun hother => absurd rfl (hother _ _)⟩
      obtain ⟨-, rfl⟩ : result.exitCode.toInt = code ∧ worker = name := by
        simpa [CompileRun.conclude] using hon
      refine ⟨tried, preprocessed, result, htry, hreceives, ?_⟩
      show Written _ _ _ (Attempt.presented rounds result written).tearDown.files
      rw [CompileRun.files_tearDown, Attempt.presented, CompileRun.files_showOutput, hkept]
      exact hwritten
    · -- everything is written, but the scheduler is still to be left
      rw [hremote] at hleft ⊢
      refine ⟨by simp [CompileRun.conclude], fun _ => .inr ⟨rfl, worker, tried, preprocessed, result, htry,
        hreceives, ?_⟩⟩
      rw [hleft, hkept]
      exact hwritten
  · cases done with
    | nil =>
      -- not even the first file can be written
      cases hwritten
      obtain ⟨after, hafter, hremote⟩ := result_remote_refused hreceives hexplained hfiles
        (hprepared ▸ .nil _) hrefused
      exact hnone hafter hremote
    | cons first others =>
      exact absurd ⟨tried, worker, preprocessed, result, htry, hreceives, hexplained,
        first :: others, file, rest, last, reason, hfiles, by simp, hwritten, hrefused⟩ h

/-- A compile leaves all files of a result, if it was done on a worker, or else none if it ends, exactly unless
a file cannot be written after others of the result were. Up to the result an attempt changes no
file, but for what the identification of the compiler keeps. -/
theorem allOrNone_iff (request : CompileRequest) (surroundings : ω) (slots : SlotController)
    (semaphores : Semaphores) (files : FileTree) :
    let start : CompileRun ω κ := .fresh request surroundings slots semaphores files
    ∀ rounds, start.Identified (start.prepared rounds request) ∧
      (AllOrNone rounds request start (start.compile rounds request) ↔
        ¬ start.FailsMidway rounds request) := by
  intro start rounds
  cases htry : start.trying? request with
  | none =>
    refine ⟨.inl ?_, iff_of_true ⟨?_, fun _ => .inl ?_⟩ ?_⟩
    · rw [CompileRun.prepared, htry]
    · intro code worker hon
      exact absurd hon ((quietHere_of_not_trying htry rounds).here code worker)
    · rw [CompileRun.prepared, CompileRun.left, CompileRun.attempted?, htry]
      rfl
    · rintro ⟨tried, _, _, _, htried, -⟩
      simp [htry] at htried
  | some tried =>
    obtain ⟨⟨left, units, rfl⟩, -⟩ := compile_of_trying htry 0
    have hrun : CompileRun.Unstarted request.config
        { start with slots := left, semaphores := units } := ⟨rfl, rfl, rfl⟩
    refine ⟨?_, fun hall hmidway => hmidway.not_allOrNone hall,
      allOrNone_of_trying htry hrun rounds⟩
    rw [CompileRun.prepared_of_trying htry]
    exact identified_awaitResult hrun rounds

end Compile

/-! ## A file that is left behind -/

section Midway

open Scenario

/-- A world in which the worker makes two files, and the directory of the second is missing. -/
def twoFilesWorld : World :=
  let worker : Assignment := ⟨"10.0.0.1", "", 80, 7, "", []⟩
  let header : JobResponse := ⟨true, 0, [⟨.file, 1, some "a.d"⟩, ⟨.file, 1, some "out/a.o"⟩]⟩
  let scheduler : Script :=
    .ofReplies [.frame (.text (SchedulerMessage.assignment worker).encode)] []
  let compiler : Script := .ofReplies [] [.nothing, .arrivals
    [.frame (.text (WorkerMessage.response header).encode), .frame (.binary [100, 111])]]
  { helpfulWorld with
    peers := [.accepts ⟨⟨scheduler, []⟩, []⟩, .accepts ⟨⟨compiler, []⟩, []⟩] }

/-- The second file cannot be written, so this host compiles; the first file stays. -/
theorem midway_leaves_file :
    let start : CompileRun World PeerChannel :=
      .fresh plainRequest twoFilesWorld unlimitedSlots .none emptyTree
    (start.compile 20 plainRequest).1 =
        some (.ok ⟨0, .onHost (.fallback (.unwritable "out/a.o" .notFound))⟩) ∧
      (start.prepared 20 plainRequest).node? ["a.d"] = none ∧
      (start.left 20 plainRequest).node? ["a.d"] = some (.file ⟨[100], false, ⟨0, 0⟩⟩) ∧
      ¬ AllOrNone 20 plainRequest start (start.compile 20 plainRequest) := by
  intro start
  have hended : (start.compile 20 plainRequest).1 =
      some (.ok ⟨0, .onHost (.fallback (.unwritable "out/a.o" .notFound))⟩) :=
    eq_of_toOption (by decide +kernel)
  have hbefore : (start.prepared 20 plainRequest).node? ["a.d"] = none := by decide +kernel
  have hafter : (start.left 20 plainRequest).node? ["a.d"] =
      some (.file ⟨[100], false, ⟨0, 0⟩⟩) := by decide +kernel
  refine ⟨hended, hbefore, hafter, fun hall => ?_⟩
  have hother := hall.elsewhere fun code worker => by simp [hended]
  rcases hother with hsame | ⟨hpending, -⟩
  · rw [hsame, hbefore] at hafter
    simp at hafter
  · rw [hended] at hpending
    cases hpending

end Midway

end Offload
