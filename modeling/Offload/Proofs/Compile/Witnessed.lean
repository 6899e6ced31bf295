import Offload.Proofs.Compile.Translation
import Offload.Proofs.Connection.Record

/-!
# A compile under observation

Any surroundings can be watched: then they keep a record of the connections that were asked for, with
the answers, and each connection keeps a record of the calls on its channel. Not to look at the
records is a translation of the surroundings (`Witnessed.surroundingsMap`): a compile does the same
whether it is watched or not, and the records say what it does.
-/

namespace Offload

variable {ω κ α : Type}

/-- A connection that was asked for, and the headers of the answer. -/
structure Handshake where
  request : ConnectRequest
  answer : Except TransportError Headers

/-- Surroundings with a record of the connections that were asked for. -/
structure Witnessed (ω : Type) where
  surroundings : ω
  handshakes : List Handshake

namespace Witnessed

/-- The record is as it was. -/
def pass (w : Witnessed ω) (answer : α × ω) : α × Witnessed ω :=
  (answer.1, { w with surroundings := answer.2 })

variable [Collaborators ω κ]

/-- Opens a connection, which is noted and on which the calls are noted. -/
def connect (w : Witnessed ω) (request : ConnectRequest) :
    Except TransportError (Accepted (Recorded κ)) × Witnessed ω :=
  let (answer, surroundings) := Collaborators.connect w.surroundings request
  (answer.map fun accepted => ⟨⟨accepted.channel, []⟩, accepted.headers⟩,
    ⟨surroundings, w.handshakes ++ [⟨request, answer.map Accepted.headers⟩]⟩)

instance : Collaborators (Witnessed ω) (Recorded κ) where
  clock w := w.pass (Collaborators.clock w.surroundings)
  connect
  compilerHash w files :=
    let (hash, files, surroundings) := Collaborators.compilerHash w.surroundings files
    (hash, files, { w with surroundings })
  startPreprocessor w inv :=
    { w with surroundings := Collaborators.startPreprocessor w.surroundings inv }
  pollPreprocessor w := w.pass (Collaborators.pollPreprocessor w.surroundings)
  stopPreprocessor w :=
    { w with surroundings := Collaborators.stopPreprocessor w.surroundings }
  runCompiler w args files :=
    let (answer, files, surroundings) := Collaborators.runCompiler w.surroundings args files
    (answer, files, { w with surroundings })
  showStdout w data := w.pass (Collaborators.showStdout w.surroundings data)
  showStderr w data := w.pass (Collaborators.showStderr w.surroundings data)
  awaitUnit w kind semaphores := w.pass (Collaborators.awaitUnit w.surroundings kind semaphores)
  meanwhile w := { w with surroundings := Collaborators.meanwhile w.surroundings }
  idle w := (Collaborators.idle w.surroundings).map fun surroundings => { w with surroundings }
  catchUp w r := { r with channel := Collaborators.catchUp w.surroundings r.channel }

theorem connect_eq (w : Witnessed ω) (request : ConnectRequest) :
    Collaborators.connect w request =
      ((Collaborators.connect w.surroundings request).1.map fun accepted =>
          (⟨⟨accepted.channel, []⟩, accepted.headers⟩ : Accepted (Recorded κ)),
        ⟨(Collaborators.connect w.surroundings request).2, w.handshakes ++
          [⟨request, (Collaborators.connect w.surroundings request).1.map Accepted.headers⟩]⟩) := rfl

/-- Surroundings answer alike whether they are watched or not. -/
theorem surroundingsMap [Channel κ] :
    SurroundingsMap (surroundings : Witnessed ω → ω) (Recorded.channel : Recorded κ → κ) where
  channel := Recorded.channelMap
  clock _ := rfl
  connect w request := by
    rw [connect_eq]
    rcases Collaborators.connect w.surroundings request with ⟨_ | accepted, after⟩ <;> rfl
  compilerHash _ _ := rfl
  startPreprocessor _ _ := rfl
  pollPreprocessor _ := rfl
  stopPreprocessor _ := rfl
  runCompiler _ _ _ := rfl
  showStdout _ _ := rfl
  showStderr _ _ := rfl
  awaitUnit _ _ _ := rfl
  meanwhile _ := rfl
  idle w := by
    show _ = ((Collaborators.idle w.surroundings).map _).map _
    rw [Option.map_map]
    exact Option.map_id'.symm
  catchUp _ _ := rfl

end Witnessed

/-! ## What is on record of a worker -/

/-- What is on record of the handshakes and the worker. -/
def Parts.wire (p : Parts (Witnessed ω) (Recorded κ)) :
    List Handshake × Option (Connection (Recorded κ) WorkerConversation) :=
  (p.surroundings.handshakes, p.worker)

namespace CompileRun

variable [Collaborators ω κ] (run : CompileRun (Witnessed ω) (Recorded κ))
  {request : CompileRequest}

theorem wire_showStdout (data : Bytes) : (run.showStdout data).parts.wire = run.parts.wire := by
  unfold showStdout
  split <;> rename_i hanswer <;> obtain rfl := (Prod.mk.inj hanswer).2 <;> rfl

theorem wire_showStderr (data : Bytes) : (run.showStderr data).parts.wire = run.parts.wire := by
  unfold showStderr
  split <;> rename_i hanswer <;> obtain rfl := (Prod.mk.inj hanswer).2 <;> rfl

theorem wire_showMessages : run.showMessages.parts.wire = run.parts.wire := by
  unfold showMessages
  split
  · rfl
  · dsimp only
    split
    · exact wire_showStderr _ _
    · rfl

theorem wire_tearDown : run.tearDown.parts.wire = run.parts.wire := by
  refine (wire_showMessages _).trans ?_
  unfold stopPreprocessor
  split <;> rfl

theorem wire_compileIn (cause : LocalCause) (permit : Permit) :
    (run.compileIn request cause permit).2.parts.wire = run.parts.wire := by
  unfold compileIn
  dsimp only
  split <;> rfl

theorem wire_compileHere (cause : LocalCause) :
    (run.compileHere request cause).2.parts.wire = run.parts.wire := by
  unfold compileHere
  split
  · rename_i permit after hslot
    refine (wire_compileIn after cause permit).trans ?_
    obtain ⟨_, _, _, rfl | rfl, rfl⟩ := eq_of_awaitSlot hslot <;> rfl
  · rfl

theorem wire_showOutput (result : JobResult) :
    (Attempt.showOutput result run).parts.wire = run.parts.wire := by
  unfold Attempt.showOutput
  dsimp only
  split <;> split <;> simp only [wire_showStdout, wire_showStderr]

end CompileRun

end Offload
