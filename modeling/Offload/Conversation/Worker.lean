import Offload.Connection
import Offload.Message.Client
import Offload.Message.Worker

/-!
# The conversation with a worker

The client uploads a job: an envelope that announces its size, then the preprocessed source in one
binary frame. The worker answers with a header whose index says what the bytes of the following
binary frames are. The result is complete when exactly the announced number of bytes has arrived.
-/

namespace Offload

/-- A file that a remote compiler wrote. -/
structure OutputFile where
  /-- `none` for the object file -/
  path : Option String
  data : Bytes
deriving DecidableEq, Repr

/-- The output of a remote compiler. -/
structure JobResult where
  success : Bool
  exitCode : Int32
  stdout : Bytes
  stderr : Bytes
  files : List OutputFile
deriving DecidableEq, Repr

namespace JobResult

/-- Puts the bytes of a chunk in their place. -/
def addChunk (r : JobResult) (chunk : OutputChunk) (data : Bytes) : JobResult :=
  match chunk.kind with
  | .stdout => { r with stdout := r.stdout ++ data }
  | .stderr => { r with stderr := r.stderr ++ data }
  | .file => { r with files := r.files ++ [⟨chunk.path, data⟩] }

/-- Distributes a payload over chunks; `none` if it is too short. -/
def addChunks (r : JobResult) : List OutputChunk → Bytes → Option JobResult
  | [], _ => some r
  | chunk :: rest, payload =>
    let n := chunk.bytes.toNat
    if payload.length < n then none
    else (r.addChunk chunk (payload.take n)).addChunks rest (payload.drop n)

/-- The result that a header and a payload stand for. -/
def assemble? (header : JobResponse) (payload : Bytes) : Option JobResult :=
  addChunks ⟨header.success, header.exitCode, [], [], []⟩ header.index payload

end JobResult

/-- Where the conversation with a worker stands. -/
inductive WorkerState where
  | connecting
  | connected
  /-- the worker asked to hold the upload back -/
  | awaitingWaitAck
  | uploading
  | awaitingResult
  | done
  | failed
deriving DecidableEq, Repr

/-- The name of a state in messages. -/
def WorkerState.name : WorkerState → String
  | connecting => "Connecting"
  | connected => "Connected"
  | awaitingWaitAck => "AwaitingWaitAck"
  | uploading => "Uploading"
  | awaitingResult => "AwaitingResult"
  | done => "Done"
  | failed => "Failed"

/-- Why an upload is refused. -/
inductive UploadError where
  | notReady (state : WorkerState)
  | sizeMismatch (announced actual : Nat)
deriving DecidableEq, Repr

/-- The wording of an error. -/
def UploadError.text : UploadError → String
  | notReady state => "cannot upload while " ++ state.name
  | sizeMismatch announced actual =>
    "envelope announces " ++ toString announced ++ " bytes but payload has " ++ toString actual

/-- The conversation with a worker. -/
structure WorkerConversation where
  state : WorkerState
  outbox : List Frame
  /-- envelope and payload have reached the socket -/
  uploadFlushed : Bool
  response : Option JobResponse
  /-- the number of bytes that the response announces -/
  expected : Nat
  received : Bytes
  result : Option JobResult
  error : Option String
deriving DecidableEq, Repr

namespace WorkerConversation

/-- The name as a source of events. -/
def name : String := "worker"

/-- The most bytes of output that a client takes. -/
def maxResultBytes : Nat := 1073741824

/-- A conversation that has not begun. -/
def fresh : WorkerConversation := ⟨.connecting, [], false, none, 0, [], none, none⟩

/-- Whether the conversation has ended. -/
def isTerminal (c : WorkerConversation) : Bool := c.state = .done || c.state = .failed

/-- Whether a job may be uploaded. -/
def isClearToUpload (c : WorkerConversation) : Bool := c.state = .connected

/-- Ends the conversation with an error. -/
def fail (c : WorkerConversation) (error : String) : WorkerConversation :=
  { c with state := .failed, outbox := [], error := some error }

/-! ## Upload -/

/-- The connection is open; the worker may have asked to hold the upload back. -/
def onOpen (c : WorkerConversation) (wait : Bool) : WorkerConversation :=
  if c.state = .connecting then
    { c with state := if wait then .awaitingWaitAck else .connected }
  else c

/-- The frames of a job. An empty payload is not sent. -/
def jobFrames (envelope : JobEnvelope) (payload : Bytes) : List Frame :=
  .text envelope.encode :: if payload.isEmpty then [] else [.binary payload]

/-- Queues a job. -/
def beginUpload (c : WorkerConversation) (envelope : JobEnvelope) (payload : Bytes) :
    Except UploadError WorkerConversation :=
  if c.state ≠ .connected then .error (.notReady c.state)
  else if envelope.bytes.toNat ≠ payload.length then
    .error (.sizeMismatch envelope.bytes.toNat payload.length)
  else .ok { c with outbox := c.outbox ++ jobFrames envelope payload, state := .uploading }

/-- What was handed out has left. -/
def onFlushed (c : WorkerConversation) : WorkerConversation :=
  if c.state = .uploading ∧ c.outbox = [] then
    { c with uploadFlushed := true, state := .awaitingResult }
  else c

/-! ## Result -/

/-- Ends the conversation if all announced bytes have arrived. -/
def completeIfWhole (c : WorkerConversation) : WorkerConversation :=
  match c.response with
  | none => c
  | some header =>
    if c.received.length ≠ c.expected then c
    else
      match JobResult.assemble? header c.received with
      -- never so, since the index adds up to what has arrived
      | none => c.fail "worker output does not match its index"
      | some result => { c with received := [], result := some result, state := .done }

/-- A header arrived in time. -/
def onResponse (c : WorkerConversation) (header : JobResponse) : WorkerConversation :=
  match header.totalBytes? with
  | none => c.fail "worker response index overflows"
  | some total =>
    if maxResultBytes < total then
      c.fail ("worker announced " ++ toString total ++ " bytes of output")
    else
      { c with
        state := .awaitingResult
        outbox := []
        response := some header
        expected := total }.completeIfWhole

/-- A message arrived. -/
def onMessage (c : WorkerConversation) : WorkerMessage → WorkerConversation
  | .resume =>
    if c.state = .awaitingWaitAck then { c with state := .connected }
    else c.fail ("unexpected resume while " ++ c.state.name)
  | .response header =>
    if (c.state = .uploading ∨ c.state = .awaitingResult) ∧ c.response = none
    then c.onResponse header
    else c.fail ("unexpected response while " ++ c.state.name)

/-- Bytes arrived. -/
def onBinary (c : WorkerConversation) (data : Bytes) : WorkerConversation :=
  if c.response = none then
    c.fail ("unexpected binary frame (" ++ toString data.length ++ " bytes) while " ++ c.state.name)
  else
    let total := c.received.length + data.length
    if c.expected < total then
      c.fail ("worker sent " ++ toString total ++ " bytes, expected " ++ toString c.expected)
    else { c with received := c.received ++ data }.completeIfWhole

/-- A text arrived. -/
def onText (c : WorkerConversation) (text : String) : WorkerConversation :=
  match WorkerMessage.parse text with
  | .ok message => c.onMessage message
  | .error (.remote report) => c.fail ("worker error: " ++ report)
  | .error e => c.fail ("bad worker message: " ++ e.text)

/-- No more frames arrive. -/
def onClosed (c : WorkerConversation) (reason : String) : WorkerConversation :=
  if c.isTerminal then c else c.fail ("worker closed the connection: " ++ reason)

/-- A frame arrived. -/
def onFrame (c : WorkerConversation) (frame : Frame) : WorkerConversation :=
  if c.isTerminal then c
  else if c.state = .connecting then c.fail "worker spoke before the handshake completed"
  else
    match frame with
    | .text text => c.onText text
    | .binary data => c.onBinary data
    | .close reason => c.onClosed (reason.getD "")

/-! ## Taking -/

/-- Takes the next frame to send. -/
def pollOutbound (c : WorkerConversation) : Option Frame × WorkerConversation :=
  (c.outbox.head?, { c with outbox := c.outbox.tail })

/-- Takes the result. -/
def takeResult (c : WorkerConversation) : Option JobResult × WorkerConversation :=
  (c.result, { c with result := none })

instance : Conversation WorkerConversation where
  outbox c := c.outbox
  withOutbox c outbox := { c with outbox }
  onFrame
  onFlushed
  onClosed
  isTerminal

end WorkerConversation

end Offload
