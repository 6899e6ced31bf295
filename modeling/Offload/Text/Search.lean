/-!
# Finding and cutting
-/

namespace Offload.Text

/-- Whether `needle` stands somewhere in a text. -/
def occursIn (needle : List Char) : List Char → Bool
  | [] => needle.isEmpty
  | c :: rest => needle.isPrefixOf (c :: rest) || occursIn needle rest

/-- What stands before and after the first `sep`; `none` if there is none. -/
def cutAt? (sep : Char) : List Char → Option (List Char × List Char)
  | [] => none
  | c :: rest =>
    if c = sep then some ([], rest)
    else (cutAt? sep rest).map fun p => (c :: p.1, p.2)

/-- What follows `start`, if the text begins with it. -/
def after? (start : List Char) (s : List Char) : Option (List Char) :=
  if start.isPrefixOf s then some (s.drop start.length) else none

/-- The pieces between the separators, at least one. -/
def splitAt (sep : Char) : List Char → List (List Char)
  | [] => [[]]
  | c :: rest =>
    if c = sep then [] :: splitAt sep rest
    else
      match splitAt sep rest with
      | [] => [[c]]
      | piece :: pieces => (c :: piece) :: pieces

/-- What follows `start`, if the text begins with it. -/
def stringAfter? (start s : String) : Option String :=
  (after? start.toList s.toList).map String.ofList

/-- Whether a text begins with another. -/
def startsWith (start s : String) : Bool := start.toList.isPrefixOf s.toList

/-- Whether `s` ends in `ending`. -/
def endsWith (ending s : String) : Bool := ending.toList.isSuffixOf s.toList

/-- What stands before the first line end, which is a line feed with or without a carriage return. -/
def firstLine (s : String) : String :=
  match cutAt? '\n' s.toList with
  | none => s
  | some (line, _) => String.ofList (if line.getLast? = some '\r' then line.dropLast else line)

end Offload.Text
