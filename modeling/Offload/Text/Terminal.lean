import Offload.Text.Hex

/-!
# Text for terminals

A terminal takes some characters as commands. Text that comes from outside is freed of them before it
is shown, or the commands are spelled out.
-/

namespace Offload.Text

/-! ## Leaving commands out -/

/-- Where a reader of text for a terminal is. -/
inductive TerminalState where
  | text
  /-- after an escape character -/
  | escape
  /-- in an escape sequence of several characters -/
  | sequence
  /-- in a control sequence, which a letter ends -/
  | control
  /-- in a command of the operating system, which a bell ends -/
  | command
  /-- in a string for a device, which only another escape character ends -/
  | device
deriving DecidableEq, Repr

/-- The control characters that move on in the text. -/
def isLayout (c : Char) : Bool := c ∈ ['\t', '\n', '\x0c', '\r']

namespace TerminalState

/-- Whether a character is shown. Beyond ASCII every one is. -/
def shows (state : TerminalState) (c : Char) : Bool :=
  if '\x7f' < c then true
  else
    match state with
    | text => (' ' ≤ c && c != '\x7f') || isLayout c
    | escape | sequence | control => isLayout c
    | command | device => false

/-- Where the reader is after an escape character and one more. -/
def afterEscape (c : Char) : TerminalState :=
  if c = '[' then control
  else if c = ']' then command
  else if c ∈ ['P', 'X', '^', '_'] then device
  else if ' ' ≤ c && c ≤ '/' then sequence
  else if '0' ≤ c && c ≤ '~' then text
  else escape

/-- Where the reader is after a character. What is shown ends a command. -/
def next (state : TerminalState) (c : Char) : TerminalState :=
  if c = '\x1b' then escape
  else if c = '\x18' || c = '\x1a' || state.shows c then text
  else
    match state with
    | text => text
    | escape => afterEscape c
    | sequence => if '0' ≤ c && c ≤ '~' then text else sequence
    | control => if '@' ≤ c && c ≤ '~' then text else control
    | command => if c = '\x07' then text else command
    | device => device

end TerminalState

/-- What a terminal shows of a text that begins in a state. -/
def shownFrom (state : TerminalState) : List Char → List Char
  | [] => []
  | c :: rest =>
    if state.shows c then c :: shownFrom (state.next c) rest else shownFrom (state.next c) rest

/-- A text without the commands in it. -/
def shown (s : String) : String := String.ofList (shownFrom .text s.toList)

/-! ## Spelling commands out -/

/-- A character, spelled out if a terminal could take it as a command. -/
def spellOut (c : Char) : List Char :=
  if c ∈ ['\x07', '\x08', '\x0c', '\x1b', '\x7f'] then
    ['\\', 'x', hexDigit (c.toNat / 16), hexDigit (c.toNat % 16)]
  else if '\u0080' ≤ c && c ≤ '\u009f' then
    ['\\', 'u', '{', hexDigit (c.toNat / 16), hexDigit (c.toNat % 16), '}']
  else [c]

/-- A text with the commands in it spelled out. -/
def spelledOut (s : String) : String := String.ofList (s.toList.flatMap spellOut)

end Offload.Text
