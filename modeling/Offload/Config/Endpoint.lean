import Offload.Text.Blank
import Offload.Text.Search

/-!
# The address of the scheduler

An address is configured in short forms: blanks around it and slashes at its end do not count, the
scheme and the path may be left out.
-/

namespace Offload.Endpoint

/-- What stands between the scheme and the host. -/
def schemeEnd : List Char := [':', '/', '/']

/-- What follows the first `needle` of a text; `none` if there is none. -/
def afterFirst? (needle : List Char) : List Char → Option (List Char)
  | [] => if needle.isEmpty then some [] else none
  | c :: rest =>
    if needle.isPrefixOf (c :: rest) then some ((c :: rest).drop needle.length)
    else afterFirst? needle rest

/-- The address without what does not count. -/
def trimmed (address : List Char) : List Char :=
  Text.dropEndWhile (· == '/') (Text.trim address)

/-- The address with a scheme, websocket unless it names one. -/
def withScheme (address : List Char) : List Char :=
  if (afterFirst? schemeEnd address).isSome then address
  else ['w', 's'] ++ schemeEnd ++ address

/-- The address with a path: `/compile` unless there is a slash after the scheme. -/
def withPath (address : List Char) : List Char :=
  if '/' ∈ (afterFirst? schemeEnd address).getD address then address
  else address ++ "/compile".toList

/-- The full address. -/
def normalize (address : List Char) : List Char := withPath (withScheme (trimmed address))

/-- The full address. -/
def ofAddress (address : String) : String := String.ofList (normalize address.toList)

end Offload.Endpoint
