import Offload.Text.Search

/-!
# Paths of files

A path is text. Its components are what stands between the slashes: repeated slashes count once, a
dot counts only at the front of a relative path.
-/

namespace Offload.Path

/-- The parts between the slashes that are not empty. -/
def parts (path : List Char) : List (List Char) :=
  (Text.splitAt '/' path).filter fun p => !p.isEmpty

/-- Whether the path starts at the root. -/
def isAbsolute (path : List Char) : Bool := path.head? == some '/'

/-- The components of a path, its root apart. -/
def components (path : List Char) : List (List Char) :=
  match parts path with
  | [] => []
  | first :: rest =>
    let rest := rest.filter (· ≠ ['.'])
    if first = ['.'] ∧ isAbsolute path then rest else first :: rest

/-- The last component, unless the path ends in the root, in a lone dot or in two dots. -/
def fileName? (path : List Char) : Option (List Char) :=
  (components path).getLast?.filter fun name => name ≠ ['.'] ∧ name ≠ ['.', '.']

/-- Whether the path has more than one component, the root being one. -/
def hasSeveralComponents (path : List Char) : Bool :=
  1 < (components path).length + (if isAbsolute path then 1 else 0)

/-- The place of the last dot: what stands before and after it. -/
def cutAtLastDot? (name : List Char) : Option (List Char × List Char) :=
  (Text.cutAt? '.' name.reverse).map fun p => (p.2.reverse, p.1.reverse)

/-- A file name without and with its extension. A dot at the front makes no extension. -/
def splitExtension (name : List Char) : List Char × Option (List Char) :=
  if name = ['.', '.'] then (name, none)
  else
    match cutAtLastDot? name with
    | some ([], _) => (name, none)
    | some (stem, extension) => (stem, some extension)
    | none => (name, none)

/-- A file name without its extension. -/
def stem (name : List Char) : List Char := (splitExtension name).1

/-- The extension of a path's file name. -/
def extension? (path : List Char) : Option (List Char) :=
  (fileName? path).bind fun name => (splitExtension name).2

/-- The path `path`, seen from the directory `base`. -/
def join (base path : List Char) : List Char :=
  if isAbsolute path then path
  else if base.isEmpty || base.getLast? == some '/' then base ++ path
  else base ++ '/' :: path

/-- The path `path`, seen from the directory `base`. -/
def joinText (base path : String) : String := String.ofList (join base.toList path.toList)

end Offload.Path
