import Offload.Frame
import Offload.SystemError
import Offload.Text.Search

/-!
# URLs of connections

A connection can be requested for a URL that has an authority, the part that names a host. The
characters of each part are checked; what they mean is left to the network.
-/

namespace Offload

/-- The parts of a URL that matter for a connection. -/
structure Url where
  scheme : Option (List Char)
  authority : List Char
deriving DecidableEq, Repr

/-- Why a text is not the URL of a connection. -/
inductive UrlError where
  | empty
  | tooLong
  | badCharacter
  | badAuthority
  | badFormat
  | schemeTooLong
  | noHost
deriving DecidableEq, Repr

/-- The wording of an error. -/
def UrlError.text : UrlError → String
  | empty => "HTTP format error: empty string"
  | tooLong => "HTTP format error: uri too long"
  | badCharacter => "HTTP format error: invalid uri character"
  | badAuthority => "HTTP format error: invalid authority"
  | badFormat => "HTTP format error: invalid format"
  | schemeTooLong => "HTTP format error: scheme too long"
  | noHost => "URL error: No host name in the URL"

namespace Url

/-! ## Scheme -/

/-- Whether a character may stand in a scheme. -/
def isSchemeChar (c : Char) : Bool := c.isAlphanum || c ∈ ['+', '-', '.', '~']

/-- The longest scheme. -/
def maxSchemeLength : Nat := 64

/-- The scheme, and what follows it and its colon and slashes. -/
def splitScheme (s : List Char) : Except UrlError (Option (List Char) × List Char) :=
  let scheme := s.takeWhile isSchemeChar
  match Text.after? [':', '/', '/'] (s.drop scheme.length) with
  | none => .ok (none, s)
  | some rest =>
    if maxSchemeLength < scheme.length then .error .schemeTooLong else .ok (some scheme, rest)

/-! ## Authority -/

/-- Whether a character may stand in a URL without an escape. -/
def isUrlChar (c : Char) : Bool :=
  c.isAlphanum || "!#$&'()*+,-./:;=?@[]_~".toList.contains c

/-- Whether a character ends the authority. -/
def endsAuthority (c : Char) : Bool := c = '/' || c = '?' || c = '#'

/-- What has been seen of an authority. -/
structure AuthorityScan where
  /-- colons since the last at sign or closing bracket -/
  colons : Nat
  opened : Bool
  closed : Bool
  /-- an escape has been seen since the last at sign or closing bracket -/
  escaped : Bool
deriving DecidableEq, Repr

/-- The most colons in a row of groups. -/
def maxColons : Nat := 8

/-- Looks at one character of an authority. -/
def AuthorityScan.step (a : AuthorityScan) (c : Char) : Except UrlError AuthorityScan :=
  if c = ':' then
    if maxColons ≤ a.colons then .error .badAuthority else .ok { a with colons := a.colons + 1 }
  else if c = '[' then
    if a.escaped || a.opened then .error .badAuthority else .ok { a with opened := true }
  else if c = ']' then
    if !a.opened || a.closed then .error .badAuthority
    else .ok { a with closed := true, colons := 0, escaped := false }
  else if c = '@' then .ok { a with colons := 0, escaped := false }
  else if c = '%' then .ok { a with escaped := true }
  else if isUrlChar c then .ok a
  else .error .badCharacter

/-- Checks an authority. -/
def checkAuthority (authority : List Char) : Except UrlError Unit := do
  let a ← authority.foldlM AuthorityScan.step ⟨0, false, false, false⟩
  if a.opened != a.closed || 1 < a.colons || authority.getLast? = some '@' || a.escaped
  then .error .badAuthority
  else .ok ()

/-! ## Path -/

/-- Whether a character may stand in a path. -/
def isPathChar (c : Char) : Bool :=
  '!' ≤ c && c ∉ ['#', '<', '>', '?', '\x60']

/-- Whether a character may stand in a query. -/
def isQueryChar (c : Char) : Bool := '!' ≤ c && c ∉ ['\x22', '#', '<', '>']

/-- Checks path and query; what follows a number sign does not count. -/
def checkPath (s : List Char) : Except UrlError Unit :=
  let s := s.takeWhile (· ≠ '#')
  let path := s.takeWhile (· ≠ '?')
  if path.all isPathChar && (s.drop (path.length + 1)).all isQueryChar then .ok ()
  else .error .badCharacter

/-! ## The whole -/

/-- The most bytes of a URL. -/
def maxBytes : Nat := 65534

/-- Reads a URL with an authority. -/
def parseFull (s : List Char) : Except UrlError Url := do
  let (scheme, rest) ← splitScheme s
  let authority := rest.takeWhile fun c => !endsAuthority c
  checkAuthority authority
  let path := rest.drop authority.length
  match scheme with
  | none => if path.isEmpty then .ok ⟨none, authority⟩ else .error .badFormat
  | some scheme =>
    if authority.isEmpty then .error .badFormat
    else
      checkPath path
      return ⟨some scheme, authority⟩

/-- Reads the URL of a connection. -/
def parse (url : String) : Except UrlError Url :=
  if maxBytes < url.utf8ByteSize then .error .tooLong
  else
    match url.toList with
    | [] => .error .empty
    | ['*'] => .error .noHost
    | '/' :: rest => do
      checkPath ('/' :: rest)
      .error .noHost
    | s => parseFull s

/-! ## Ports -/

/-- The schemes of which the port is known. -/
def knownSchemes : List String := ["ws", "wss"]

/-- Whether the text after the last colon of the authority is a port. -/
def hasPort (url : Url) : Bool :=
  match Text.cutAt? ':' url.authority.reverse with
  | none => false
  | some (port, _) =>
    let digits := port.reverse
    let digits := (Text.after? ['+'] digits).getD digits
    !digits.isEmpty && digits.all Char.isDigit && ((String.ofList digits).toNat?.getD 65536) < 65536

/-- Whether it is known which port is meant. -/
def portKnown (url : Url) : Bool :=
  url.hasPort || url.scheme.any fun s => String.ofList s ∈ knownSchemes

end Url

/-! ## Requests -/

namespace ConnectRequest

/-- Whether a character may stand in the name of a header. -/
def isNameChar (c : Char) : Bool :=
  c.isAlphanum || "!#$%&'*+-.^_\x60|~".toList.contains c

/-- Whether a text is the name of a header. -/
def isHeaderName (name : String) : Bool := !name.isEmpty && name.toList.all isNameChar

/-- Whether a text is the value of a header: it has no control characters but tabs. -/
def isHeaderValue (value : String) : Bool :=
  value.toList.all fun c => c = '\t' || (' ' ≤ c && c ≠ '\x7f')

/-- Checks a header. -/
def checkHeader (header : String × String) : Except TransportError Unit :=
  if !isHeaderName header.1 then
    .error (.invalidRequest (header.1 ++ ": invalid HTTP header name"))
  else if !isHeaderValue header.2 then
    .error (.invalidRequest (Headers.lowerName header.1 ++ ": failed to parse header value"))
  else .ok ()

/-- Checks whether a request can be made at all. Its URL, if it can. -/
def check (request : ConnectRequest) : Except TransportError Url :=
  match Url.parse request.url with
  | .error e => .error (.invalidRequest e.text)
  | .ok url => do
    request.headers.forM checkHeader
    return url

/-- What becomes of a request where no peer can be reached. -/
def unreachable (request : ConnectRequest) (cause : SystemError) : TransportError :=
  match request.check with
  | .error e => e
  | .ok url =>
    if url.portKnown then .connect request.url ("IO error: " ++ cause.text)
    else .connect request.url "URL error: URL scheme not supported"

end ConnectRequest

end Offload
