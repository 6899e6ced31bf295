import Offload.Text.Blank
import Offload.Text.Search

/-!
# What the log lets through

A filter is a list of directives with commas between them. A directive names a level, for all
records or for those whose target begins in a certain way. The most specific directive that applies
to a record decides whether it is logged. A directive can also be meant for a scope, in brackets; the
client opens none.
-/

namespace Offload

/-- How important a record is. -/
inductive Severity where
  | error
  | warn
  | info
  | debug
  | trace
deriving DecidableEq, Repr

/-- The position among the levels, from the most important one. -/
def Severity.rank : Severity → Nat
  | error => 1
  | warn => 2
  | info => 3
  | debug => 4
  | trace => 5

/-- The name of a level in the log. -/
def Severity.name : Severity → String
  | error => "ERROR"
  | warn => "WARN"
  | info => "INFO"
  | debug => "DEBUG"
  | trace => "TRACE"

/-- A directive: the records whose target begins with a text are logged up to a rank. -/
structure LogDirective where
  target : String
  rank : Nat
  /-- whether it is meant for a scope only -/
  forScope : Bool
deriving DecidableEq, Repr

/-- Directives, of which a later one replaces an earlier one for the same target. -/
structure LogFilter where
  directives : List LogDirective
deriving DecidableEq, Repr

namespace LogFilter

/-! ## Levels -/

/-- The names of levels. -/
def ranks : List (String × Nat) :=
  [("off", 0), ("error", 1), ("warn", 2), ("info", 3), ("debug", 4), ("trace", 5)]

/-- The number in decimal digits, of which there is at least one. A plus sign may precede them. -/
def number? (word : List Char) : Option Nat :=
  let digits := if word.head? = some '+' then word.tail else word
  if digits.isEmpty || !digits.all Char.isDigit then none
  else some (digits.foldl (fun n c => 10 * n + (c.toNat - 48)) 0)

/-- The rank that a word names, by a name or a number. -/
def rankOf? (word : List Char) : Option Nat :=
  match number? word with
  | some n => if n ≤ Severity.trace.rank then some n else none
  | none => (ranks.find? fun r => r.1.toList == word).map (·.2)

/-- The rank after an equals sign, where nothing stands for everything. -/
def rankAfterSign? (word : List Char) : Option Nat :=
  if word.isEmpty then some Severity.trace.rank else rankOf? word

/-! ## Directives -/

/-- Whether a directive may begin with a character; beyond ASCII every character may. -/
def startsDirective (c : Char) : Bool := c.isAlphanum || c ∈ ['_', ':', '-'] || '\x7f' < c

/-- What follows a scope: a name and a condition in braces, either of which may be missing, and the
closing bracket. -/
def afterScope? (text : List Char) : Option (List Char) :=
  match text.dropWhile fun c => c ≠ ']' && c ≠ '{' with
  | ']' :: rest => some rest
  | '{' :: rest =>
    match rest.takeWhile (· ≠ '}'), rest.dropWhile (· ≠ '}') with
    | _ :: _, '}' :: ']' :: rest => some rest
    | _, _ => none
  | _ => none

/-- The directive of a scope; `text` follows the opening bracket, and `level n` is the text from which
the level is read if `n` characters of the directive are left after the equals sign. -/
def scopedDirective? (target text : List Char) (level : Nat → List Char) : Option LogDirective := do
  match ← afterScope? text with
  | [] => return ⟨String.ofList target, Severity.trace.rank, true⟩
  | '=' :: rest => return ⟨String.ofList target, ← rankAfterSign? (level rest.length), true⟩
  | _ => none

/-- The directive in a text. A target alone lets everything through. The parts are found in the
trimmed text but cut out of the text as it stands, so that blanks around a directive spoil its
level. -/
def directive? (piece : List Char) : Option LogDirective :=
  let text := Text.trim piece
  let level := fun left => piece.drop (text.length - left)
  let head := text.takeWhile fun c => c ≠ '=' && c ≠ '['
  let target := piece.take head.length
  if !(text.head?.any fun c => startsDirective c || c = '[') then none
  else
    match text.drop head.length with
    | [] =>
      match rankOf? piece with
      | some rank => some ⟨"", rank, false⟩
      | none => some ⟨String.ofList piece, Severity.trace.rank, false⟩
    | '=' :: rest =>
      (rankAfterSign? (level rest.length)).map fun rank => ⟨String.ofList target, rank, false⟩
    | _ :: rest => scopedDirective? target rest level

/-! ## Filters -/

/-- The filter that lets errors through. -/
def errorsOnly : LogFilter := ⟨[⟨"", Severity.error.rank, false⟩]⟩

/-- The filter in a text; a text that holds none lets errors through. -/
def ofText (text : String) : LogFilter :=
  let pieces := (Text.splitAt ',' text.toList).filter fun p => !p.isEmpty
  match pieces.mapM directive? with
  | some [] | none => errorsOnly
  | some directives => ⟨directives⟩

/-- The more specific of two directives, the second if they are for the same target. -/
def moreSpecific (a b : LogDirective) : LogDirective :=
  if b.target.length < a.target.length then a else b

/-- The directive that decides for a target, if one applies. -/
def deciding? (filter : LogFilter) (target : String) : Option LogDirective :=
  match filter.directives.filter fun d => !d.forScope && Text.startsWith d.target target with
  | [] => none
  | d :: rest => some (rest.foldl moreSpecific d)

/-- Whether a record is logged. -/
def enables (filter : LogFilter) (target : String) (severity : Severity) : Bool :=
  (filter.deciding? target).any fun d => severity.rank ≤ d.rank

end LogFilter

end Offload
