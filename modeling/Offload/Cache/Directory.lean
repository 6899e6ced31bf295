import Offload.FileTree.Operations

/-!
# The cache directory

The directory for what is kept between runs carries a stamp with the version of its layout. One that
was left by another version is emptied.
-/

namespace Offload.CacheDirectory

/-- The version of the layout. -/
def currentVersion : UInt32 := 4

/-- The name of the stamp. -/
def stampName : String := "version"

/-- What became of the directory. -/
inductive State where
  /-- it was of this version and was left alone -/
  | current
  | recreated
deriving DecidableEq, Repr

/-- A version as four bytes, the most significant first. -/
def stampBytes (version : UInt32) : Bytes :=
  [(version >>> 24).toUInt8, (version >>> 16).toUInt8, (version >>> 8).toUInt8, version.toUInt8]

/-- The version in the first four bytes of a stamp. -/
def versionOfBytes? : Bytes → Option UInt32
  | a :: b :: c :: d :: _ =>
    some ((a.toUInt32 <<< 24) ||| (b.toUInt32 <<< 16) ||| (c.toUInt32 <<< 8) ||| d.toUInt32)
  | _ => none

/-- The version that a stamp says, if it can be read. -/
def readStamp? (tree : FileTree) (path : String) : Option UInt32 :=
  (tree.read path).toOption.bind versionOfBytes?

/-- Removes a directory, if it exists. -/
def removeIfThere (tree : FileTree) (dir : String) : FileTree × Except SystemError Unit :=
  match tree.removeTree dir with
  | (tree, .error .notFound) => (tree, .ok ())
  | other => other

/-- Creates the directory and its stamp. -/
def create (tree : FileTree) (dir : String) (version : UInt32) :
    FileTree × Except SystemError State :=
  match tree.createDirs dir with
  | (tree, .error e) => (tree, .error e)
  | (tree, .ok ()) =>
    match tree.write (Path.joinText dir stampName) (stampBytes version) with
    | .error e => (tree, .error e)
    | .ok tree => (tree, .ok .recreated)

/-- Makes sure that the directory exists and is of a version. -/
def prepareVersion (tree : FileTree) (dir : String) (version : UInt32) :
    FileTree × Except SystemError State :=
  if readStamp? tree (Path.joinText dir stampName) = some version then (tree, .ok .current)
  else
    match removeIfThere tree dir with
    | (tree, .error e) => (tree, .error e)
    | (tree, .ok ()) => create tree dir version

/-- Makes sure that the directory exists and is of the current version. -/
def prepare (tree : FileTree) (dir : String) : FileTree × Except SystemError State :=
  prepareVersion tree dir currentVersion

end Offload.CacheDirectory
