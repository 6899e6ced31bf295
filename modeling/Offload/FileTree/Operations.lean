import Offload.FileTree.Basic

/-!
# Operations on trees of files

Reading, writing, creating and removing by path. An operation that fails half-way still says what it
left behind, by an updated tree beside its outcome.
-/

namespace Offload.FileTree

/-! ## Reading -/

/-- What is known of a file without reading it. -/
structure Metadata where
  size : Nat
  modified : Timestamp
deriving DecidableEq, Repr

/-- The size that directories have. -/
def directorySize : Nat := 4096

/-- Size and time of the file that a path leads to. -/
def metadata (tree : FileTree) (path : String) : Except SystemError Metadata := do
  match ← tree.resolve path with
  | .file _ data => return ⟨data.contents.length, data.modified⟩
  | .directory _ => return ⟨directorySize, ⟨0, 0⟩⟩
  | .missing _ => .error .notFound

/-- The contents of a file. -/
def read (tree : FileTree) (path : String) : Except SystemError Bytes := do
  match ← tree.resolve path with
  | .file _ data => return data.contents
  | .directory _ => .error .isADirectory
  | .missing _ => .error .notFound

/-- The text in a file. -/
def readText (tree : FileTree) (path : String) : Except SystemError String := do
  match (← tree.read path).toString? with
  | some s => return s
  | none => .error .notText

/-- The location of the file or directory that a path leads to. -/
def canonical (tree : FileTree) (path : String) : Except SystemError Location := do
  match ← tree.resolve path with
  | .file place _ => return place
  | .directory place => return place
  | .missing _ => .error .notFound

/-- Whether a path leads to a directory. -/
def isDirectory (tree : FileTree) (path : String) : Bool :=
  match tree.resolve path with
  | .ok (.directory _) => true
  | _ => false

/-- Whether a path leads to a file that can be run. -/
def isExecutable (tree : FileTree) (path : String) : Bool :=
  match tree.resolve path with
  | .ok (.file _ data) => data.executable
  | _ => false

/-! ## Writing -/

/-- The time of a change; later changes have later times. -/
def tick (tree : FileTree) : FileTree :=
  { tree with clock := { tree.clock with seconds := tree.clock.seconds + 1 } }

/-- Makes `contents` the contents of a file, which is created if it is missing, also where a link leads
that has nothing to lead to. -/
def write (tree : FileTree) (path : String) (contents : Bytes) : Except SystemError FileTree :=
  if endsInSlash path then do
    checkPath path
    match ← tree.walk (tree.origin path) ((Path.parts path.toList).map String.ofList) with
    | .file _ _ => .error .notADirectory
    | _ => .error .isADirectory
  else do
    match ← tree.resolve path with
    | .file place data => return (tree.put place (.file ⟨contents, data.executable, tree.clock⟩)).tick
    | .missing place => return (tree.put place (.file ⟨contents, false, tree.clock⟩)).tick
    | .directory _ => .error .isADirectory

/-- Sets the time of a file's last change. -/
def setModified (tree : FileTree) (path : String) (time : Timestamp) : Except SystemError FileTree := do
  match ← tree.resolve path with
  | .file place data => return tree.put place (.file { data with modified := time })
  | .directory _ => return tree
  | .missing _ => .error .notFound

/-- Creates one directory. -/
def createDir (tree : FileTree) (path : String) : Except SystemError FileTree := do
  let place ← tree.entryPlace path
  match tree.node? place with
  | some _ => .error .alreadyExists
  | none => return tree.put place .directory

/-- The path without its last component; `none` if it has none. -/
def parent? (path : String) : Option String :=
  let parts := Path.components path.toList
  if parts.isEmpty then none
  else
    let text := String.ofList (['/'].intercalate parts.dropLast)
    some (if Path.isAbsolute path.toList then "/" ++ text else text)

/-- Creates a directory and the directories above it. The first argument bounds their number. -/
def createDirsFrom : Nat → FileTree → String → FileTree × Except SystemError Unit
  | 0, tree, _ => (tree, .error .nameTooLong)
  | fuel + 1, tree, path =>
    if path.isEmpty then (tree, .ok ())
    else
      match tree.createDir path with
      | .ok tree => (tree, .ok ())
      | .error .notFound =>
        match parent? path with
        | none => (tree, .error .notFound)
        | some parent =>
          match createDirsFrom fuel tree parent with
          | (tree, .error e) => (tree, .error e)
          | (tree, .ok ()) =>
            match tree.createDir path with
            | .ok tree => (tree, .ok ())
            | .error e => if tree.isDirectory path then (tree, .ok ()) else (tree, .error e)
      | .error e => if tree.isDirectory path then (tree, .ok ()) else (tree, .error e)

/-- Creates a directory, if it is missing, and the directories above it. -/
def createDirs (tree : FileTree) (path : String) : FileTree × Except SystemError Unit :=
  createDirsFrom (path.length + 1) tree path

/-- Removes one directory that is empty. -/
def removeDir (tree : FileTree) (path : String) : Except SystemError FileTree := do
  let place ← tree.entryPlace path
  match lastName? path with
  | none => .error .busy
  | some "." => .error .invalidArgument
  | some ".." => .error .directoryNotEmpty
  | some _ =>
    match tree.node? place with
    | none => .error .notFound
    | some .directory =>
      if tree.isBare place then return tree.erase place else .error .directoryNotEmpty
    | some _ => .error .notADirectory

/-- The location that is looked at under a path: that of its last name, which is followed if a slash
stands after it. -/
def ownPlace (tree : FileTree) (path : String) : Except SystemError Location := do
  if endsInSlash path then
    match ← tree.resolve path with
    | .directory place => return place
    | .file _ _ => .error .notADirectory
    | .missing _ => .error .notFound
  else tree.entryPlace path

/-- Removes a directory with everything in it. A link is removed alone; if a slash stands after its
name, what it leads to is emptied before the link is refused. -/
def removeTree (tree : FileTree) (path : String) : FileTree × Except SystemError Unit :=
  match tree.ownPlace path with
  | .error e => (tree, .error e)
  | .ok place =>
    match tree.node? place with
    | none => (tree, .error .notFound)
    | some (.file _) => (tree, .error .notADirectory)
    | some (.link _) => (tree.erase place, .ok ())
    | some .directory =>
      let tree := tree.clear place
      match tree.removeDir path with
      | .ok tree => (tree, .ok ())
      | .error e => (tree, .error e)

/-- Removes a file, or a directory with everything in it. -/
def remove (tree : FileTree) (path : String) : FileTree × Except SystemError Unit :=
  match tree.entryPlace path with
  | .error e => (tree, .error e)
  | .ok place =>
    match tree.node? place with
    | some (.file _) => (tree.erase place, .ok ())
    | _ => tree.removeTree path

/-- Gives a file another name; a file of that name is replaced. -/
def rename (tree : FileTree) (path newPath : String) : Except SystemError FileTree := do
  let old ← tree.entryPlace path
  let new ← tree.entryPlace newPath
  match lastName? newPath with
  | none | some "." | some ".." => .error .busy
  | some _ =>
    match tree.node? old with
    | none => .error .notFound
    | some .directory => .error .invalidArgument
    | some node =>
      if endsInSlash newPath then .error .notADirectory
      else if tree.node? new = some .directory then .error .isADirectory
      else return (tree.erase old).put new node

/-! ## Building and listing -/

/-- Creates the directories above a path. -/
def createParents (tree : FileTree) (path : String) : FileTree :=
  match parent? path with
  | some parent => (tree.createDirs parent).1
  | none => tree

/-- A tree that holds one directory, the working directory. -/
def withWorkingDirectory (place : Location) : FileTree :=
  ⟨(List.range place.length).map fun n => (place.take (n + 1), .directory), place, ⟨1700000000, 0⟩⟩

/-- Creates a file, and the directories above it. -/
def addFile (tree : FileTree) (path : String) (contents : Bytes) (executable : Bool) : FileTree :=
  let tree := tree.createParents path
  match tree.entryPlace path with
  | .ok place => (tree.put place (.file ⟨contents, executable, tree.clock⟩)).tick
  | .error _ => tree

/-- Creates a link, and the directories above it. -/
def addLink (tree : FileTree) (path target : String) : FileTree :=
  let tree := tree.createParents path
  match tree.entryPlace path with
  | .ok place => tree.put place (.link target)
  | .error _ => tree

/-- An entry of a listing. -/
inductive Listed where
  | file (path : String) (contents : Bytes)
  /-- a directory without entries -/
  | bareDirectory (path : String)
deriving DecidableEq, Repr

/-- The path of an entry; that of a directory ends in a slash. -/
def Listed.path : Listed → String
  | file path _ => path
  | bareDirectory path => path ++ "/"

/-- What a location below `base` adds to the listing of `base`. -/
def listedAt (tree : FileTree) (base place : Location) (node : Node) : Option Listed :=
  let path := "/".intercalate (place.drop base.length)
  match node with
  | .directory => if tree.isBare place then some (.bareDirectory path) else none
  | .file data => some (.file path data.contents)
  | .link _ =>
    match tree.walk [] place with
    | .ok (.file _ data) => some (.file path data.contents)
    | _ => none

/-- The files and the empty directories below a directory, sorted by path. -/
def list (tree : FileTree) (base : Location) : List Listed :=
  let below := tree.entries.filter fun e => base.isPrefixOf e.1 && e.1 != base
  (below.filterMap fun e => tree.listedAt base e.1 e.2).mergeSort fun a b => a.path ≤ b.path

end Offload.FileTree
