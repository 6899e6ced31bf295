import Offload.Text.Blank
import Offload.Text.Search

/-!
# The command line as it is logged

A define whose name looks like a credential keeps its name and loses its value; an argument with
blanks is put between single quotes, so that the arguments can be told apart.
-/

namespace Offload.LoggedLine

/-- A name that contains one of these, in either case, is the name of a credential. -/
def sensitiveMarkers : List String :=
  ["TOKEN", "SECRET", "PASSWORD", "PASSWD", "API_KEY", "PRIVATE_KEY"]

/-- Whether the value of a define with this name is hidden. Case is that of ASCII. -/
def isSensitive (name : List Char) : Bool :=
  sensitiveMarkers.any fun m => Text.occursIn m.toList (name.map Char.toUpper)

/-- What stands for a hidden value. -/
def hidden : List Char := ['*', '*', '*']

/-- `NAME=VALUE` with the value hidden if the name is sensitive. -/
def maskDefine (define : List Char) : List Char :=
  match Text.cutAt? '=' define with
  | some (name, _) => if isSensitive name then name ++ '=' :: hidden else define
  | none => define

/-- The option before a define. -/
def defineOption : List Char := ['-', 'D']

/-- An argument that does not follow a separate `-D`. -/
def maskAttached (arg : List Char) : List Char :=
  match Text.after? defineOption arg with
  | some define => defineOption ++ maskDefine define
  | none => arg

/-- The arguments with hidden values. The first argument says whether a define is expected, because
`-D` came just before. -/
def maskFrom : Bool → List (List Char) → List (List Char)
  | _, [] => []
  | true, arg :: rest => maskDefine arg :: maskFrom false rest
  | false, arg :: rest =>
    if arg = defineOption then arg :: maskFrom true rest else maskAttached arg :: maskFrom false rest

/-- The arguments with hidden values. -/
def mask (args : List (List Char)) : List (List Char) := maskFrom false args

/-- A single quote inside single quotes: the quotes end, an escaped quote follows, they begin
again. -/
def quoteInside (c : Char) : List Char := if c = '\'' then ['\'', '\\', '\'', '\''] else [c]

/-- An argument as a word of the line. -/
def quote (arg : List Char) : List Char :=
  if arg.isEmpty then ['\'', '\'']
  else if arg.any Text.isBlank then '\'' :: arg.flatMap quoteInside ++ ['\'']
  else arg

/-- Words with a space between them. -/
def joinWords : List (List Char) → List Char
  | [] => []
  | [w] => w
  | w :: v :: rest => w ++ ' ' :: joinWords (v :: rest)

/-- The line for a list of arguments. -/
def ofArgs (args : List String) : String :=
  String.ofList (joinWords ((mask (args.map String.toList)).map quote))

end Offload.LoggedLine
