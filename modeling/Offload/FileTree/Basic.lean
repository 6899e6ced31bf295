import Offload.Path
import Offload.SystemError
import Offload.Text.Hex

/-!
# Trees of files

A tree maps locations, lists of names from the root, to directories, files and links. A path is
resolved to a location, or to the reason why it leads nowhere. On the way links are followed, to
directories as well as to files, one after the other up to the bound that the system has.
-/

namespace Offload

/-- A point in time, as seconds from the epoch and nanoseconds after them. -/
structure Timestamp where
  seconds : Int
  nanoseconds : Nat
deriving DecidableEq, Repr

/-- What a file is. -/
structure FileData where
  contents : Bytes
  executable : Bool
  modified : Timestamp
deriving DecidableEq, Repr

/-- A list of names from the root. -/
abbrev Location := List String

/-- What a location holds. -/
inductive Node where
  | directory
  | file (data : FileData)
  /-- another name for what a path leads to, seen from the directory in which the link is -/
  | link (target : String)
deriving DecidableEq, Repr

/-- Directories, files and links by location, the root apart, which always is a directory. -/
structure FileTree where
  entries : List (Location × Node)
  workingDirectory : Location
  /-- the time of the next change -/
  clock : Timestamp
deriving Repr

namespace FileTree

/-! ## Locations -/

/-- What a location holds. -/
def node? (tree : FileTree) (place : Location) : Option Node :=
  if place = [] then some .directory
  else (tree.entries.find? fun e => e.1 == place).map (·.2)

/-- Puts a node at a location, in the place of what is there. -/
def put (tree : FileTree) (place : Location) (node : Node) : FileTree :=
  { tree with entries := (place, node) :: tree.entries.filter fun e => e.1 != place }

/-- Removes everything below a location. -/
def clear (tree : FileTree) (place : Location) : FileTree :=
  { tree with entries := tree.entries.filter fun e => !(place.isPrefixOf e.1 && e.1 != place) }

/-- Removes a location and everything below it. -/
def erase (tree : FileTree) (place : Location) : FileTree :=
  { tree with entries := tree.entries.filter fun e => !place.isPrefixOf e.1 }

/-- Whether nothing lies below a location. -/
def isBare (tree : FileTree) (place : Location) : Bool :=
  tree.entries.all fun e => !(place.isPrefixOf e.1 && e.1 != place)

/-! ## Paths -/

/-- Where a path leads. -/
inductive Target where
  | directory (place : Location)
  | file (place : Location) (data : FileData)
  /-- nothing is there, in a directory that exists -/
  | missing (place : Location)
deriving DecidableEq, Repr

/-- The most bytes that a name may have. -/
def maxNameBytes : Nat := 255

/-- The most bytes that a path may have. -/
def maxPathBytes : Nat := 4095

/-- The most links that are followed on the way of one path. -/
def maxLinks : Nat := 40

/-- Whether a path says that it leads to a directory. -/
def endsInSlash (path : String) : Bool := path.toList.getLast? == some '/'

/-- The names of a path. A slash at the end counts as a dot after it. -/
def names (path : String) : List String :=
  (Path.parts path.toList).map String.ofList ++ if endsInSlash path then ["."] else []

/-- The directory from which a path starts that is seen from `base`. -/
def startOf (base : Location) (path : String) : Location :=
  if Path.isAbsolute path.toList then [] else base

/-- Follows the names of a path from a directory on, up to the first link. From there on, `follow`
says where the names lead that are left, those of the link before the others. -/
def walkWith (tree : FileTree) (follow : Location → List String → Except SystemError Target)
    (place : Location) : List String → Except SystemError Target
  | [] => .ok (.directory place)
  | name :: rest =>
    if maxNameBytes < name.utf8ByteSize then .error .nameTooLong
    else if name = "." then tree.walkWith follow place rest
    else if name = ".." then tree.walkWith follow place.dropLast rest
    else
      let here := place ++ [name]
      match tree.node? here with
      | some .directory => tree.walkWith follow here rest
      | some (.file data) => if rest = [] then .ok (.file here data) else .error .notADirectory
      | some (.link target) => follow (startOf place target) (names target ++ rest)
      | none => if rest = [] then .ok (.missing here) else .error .notFound

/-- Follows the names of a path from a directory on, and at most so many links. -/
def walkThrough (tree : FileTree) : Nat → Location → List String → Except SystemError Target
  | 0 => tree.walkWith fun _ _ => .error .tooManyLinks
  | links + 1 => tree.walkWith (tree.walkThrough links)

/-- Follows the names of a path from a directory on. -/
def walk (tree : FileTree) (place : Location) (names : List String) : Except SystemError Target :=
  tree.walkThrough maxLinks place names

/-- The directory from which a path starts. -/
def origin (tree : FileTree) (path : String) : Location := startOf tree.workingDirectory path

/-- Refuses the paths that no tree can resolve. -/
def checkPath (path : String) : Except SystemError Unit :=
  if '\x00' ∈ path.toList then .error .nulInName
  else if path.isEmpty then .error .notFound
  else if maxPathBytes < path.utf8ByteSize then .error .nameTooLong
  else .ok ()

/-- Where a path leads. -/
def resolve (tree : FileTree) (path : String) : Except SystemError Target := do
  checkPath path
  tree.walk (tree.origin path) (names path)

/-- The last name of a path. -/
def lastName? (path : String) : Option String :=
  ((Path.parts path.toList).map String.ofList).getLast?

/-- The location of the last name of a path, which is not followed if it is a link. -/
def entryPlace (tree : FileTree) (path : String) : Except SystemError Location := do
  checkPath path
  let parts := (Path.parts path.toList).map String.ofList
  match parts.getLast? with
  | none => return []
  | some last =>
    match ← tree.walk (tree.origin path) (parts.dropLast ++ ["."]) with
    | .directory place =>
      if last = "." then return place
      else if last = ".." then return place.dropLast
      else if maxNameBytes < last.utf8ByteSize then .error .nameTooLong
      else return place ++ [last]
    | .file _ _ => .error .notADirectory
    | .missing _ => .error .notFound

end FileTree

end Offload
