import Offload.Compile.Collaborators
import Offload.Scenario.Channel

/-!
# Scripted surroundings of a compile

The peers, the compiler and the terminal do what a script says. The preprocessor ends when nothing
else happens; if then still nothing happens, time leaps past every deadline.
-/

namespace Offload.Scenario

/-! ## Peers -/

/-- A channel whose far end also says something once the preprocessor has ended. -/
structure PeerChannel where
  script : Script
  later : List Arrival
deriving DecidableEq, Repr

namespace PeerChannel

/-- Lets the far end say what it has kept back. -/
def speakUp (c : PeerChannel) : PeerChannel := ⟨c.script.push c.later, []⟩

instance : Channel PeerChannel where
  pollReady c := let (answer, script) := Channel.pollReady c.script; (answer, { c with script })
  send c frame := let (answer, script) := Channel.send c.script frame; (answer, { c with script })
  pollFlush c := let (answer, script) := Channel.pollFlush c.script; (answer, { c with script })
  pollClose c := let (answer, script) := Channel.pollClose c.script; (answer, { c with script })
  readable c := Channel.readable c.script
  consume c n := { c with script := Channel.consume c.script n }

end PeerChannel

/-- What becomes of a request for a connection. -/
inductive Peer where
  | refuses (reason : String)
  | silent
  | invalid (what : String)
  | accepts (accepted : Accepted PeerChannel)

/-- The answer of a peer. -/
def Peer.answer (request : ConnectRequest) : Peer → Except TransportError (Accepted PeerChannel)
  | refuses reason => .error (.connect request.url reason)
  | silent => .error (.timeout request.url request.timeout)
  | invalid what => .error (.invalidRequest what)
  | accepts accepted => .ok accepted

/-! ## The world -/

/-- Scripted surroundings. -/
structure World where
  time : Micros
  /-- a span that exceeds every deadline -/
  leap : Micros
  hash : Except CompilerError String
  /-- what the preprocessor yields; `none` if it never ends -/
  preprocessor : Option (Except CompilerError Preprocessed)
  preprocessorEnded : Bool
  compiler : Except CompilerError Int
  /-- the peers to come -/
  peers : List Peer
  /-- the compile slots that others give back -/
  busy : SlotSource × Nat
  streamsBroken : Bool

namespace World

/-- The answer to the next request for a connection. -/
def connect (w : World) (request : ConnectRequest) :
    Except TransportError (Accepted PeerChannel) × World :=
  match w.peers with
  | [] => (.error (.connect request.url "no endpoint"), w)
  | peer :: rest => (peer.answer request, { w with peers := rest })

/-- What happens when nothing else does. -/
def idle (w : World) : World :=
  if w.preprocessor.isSome && !w.preprocessorEnded then { w with preprocessorEnded := true }
  else { w with time := w.time + w.leap }

/-- Whether a stream takes bytes. -/
def stream (w : World) : Except SystemError Unit :=
  if w.streamsBroken then .error (.other 32) else .ok ()

instance : Collaborators World PeerChannel where
  clock w := (w.time, w)
  connect
  compilerHash w files := (w.hash, files, w)
  startPreprocessor w _ := w
  pollPreprocessor w := (if w.preprocessorEnded then w.preprocessor else none, w)
  stopPreprocessor := id
  runCompiler w _ files := (some w.compiler, files, w)
  showStdout w _ := (w.stream, w)
  showStderr w _ := (w.stream, w)
  awaitUnit w kind host :=
    (w.busy.1.giveBackMany host kind w.busy.2, { w with busy := (w.busy.1, 0) })
  meanwhile := id
  idle w := some w.idle
  catchUp w c := if w.preprocessorEnded then c.speakUp else c

end World

end Offload.Scenario
