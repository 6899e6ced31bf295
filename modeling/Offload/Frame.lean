import Offload.Text.Hex

/-!
# Frames and connections

Client, scheduler and worker talk in frames over a connection that is opened by a request with
headers.
-/

namespace Offload

/-- A message on a connection. -/
inductive Frame where
  | text (text : String)
  | binary (data : Bytes)
  /-- the peer closes the connection, with a reason if it gives one -/
  | close (reason : Option String)
deriving DecidableEq, Repr

/-- Why a connection cannot be opened or used. -/
inductive TransportError where
  | connect (url reason : String)
  /-- opening took longer than so many milliseconds -/
  | timeout (url : String) (milliseconds : Nat)
  | invalidRequest (what : String)
  | socket (what : String)
  | closed
deriving DecidableEq, Repr

/-- The wording of an error. -/
def TransportError.text : TransportError → String
  | connect url reason => "failed to connect to " ++ url ++ ": " ++ reason
  | timeout url ms => "timed out connecting to " ++ url ++ " after " ++ toString ms ++ "ms"
  | invalidRequest what => "invalid request: " ++ what
  | socket what => "socket error: " ++ what
  | closed => "connection closed"

/-! ## Headers -/

/-- Names and values in order. -/
abbrev Headers := List (String × String)

namespace Headers

/-- A name in lower case; case is that of ASCII. -/
def lowerName (name : String) : String := String.ofList (name.toList.map Char.toLower)

/-- The first value of a name. Letter case does not count. -/
def first? (headers : Headers) (name : String) : Option String :=
  (headers.find? fun h => lowerName h.1 == lowerName name).map (·.2)

/-- The last value of a name, for headers whose names are in lower case. -/
def last? (headers : Headers) (name : String) : Option String :=
  (headers.reverse.find? fun h => h.1 == lowerName name).map (·.2)

end Headers

/-- A request for a connection. -/
structure ConnectRequest where
  url : String
  headers : Headers
  /-- the time, in milliseconds, in which the connection has to be open -/
  timeout : Nat
deriving DecidableEq, Repr

namespace ConnectRequest

/-- A request without headers. -/
def ofUrl (url : String) (timeout : Nat) : ConnectRequest := ⟨url, [], timeout⟩

/-- Adds a header. -/
def withHeader (r : ConnectRequest) (name value : String) : ConnectRequest :=
  { r with headers := r.headers ++ [(name, value)] }

end ConnectRequest

/-! ## Names of headers -/

namespace Headers

/-- The compiler's hash and those that can stand in for it. -/
def environments : String := "x-fisk-environments"

/-- The source file. -/
def sourceFile : String := "x-fisk-sourcefile"

/-- The name that the client goes by. -/
def clientName : String := "x-fisk-client-name"

/-- The version of the client. -/
def clientVersion : String := "x-fisk-npm-version"

/-- The worker that is asked for. -/
def worker : String := "x-fisk-slave"

/-- The host name of the client. -/
def clientHostname : String := "x-fisk-client-hostname"

/-- The job that a worker was assigned. -/
def jobId : String := "x-fisk-job-id"

/-- Whether a worker asks to hold the upload back. -/
def wait : String := "x-fisk-wait"

end Headers

/-- The version of the client. -/
def clientVersionText : String := "0.4.0"

end Offload
