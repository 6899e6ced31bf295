import Offload.FileTree.Operations
import Offload.Json.Printer
import Offload.Json.Reader

/-!
# Remembered hashes of compilers

Hashing a compiler takes long, so that its hash is kept in a file, with size and time of the
compiler. An entry counts only as long as both are the same.
-/

namespace Offload

/-- A hash, and what the hashed file was like. -/
structure CachedHash where
  size : UInt64
  seconds : UInt64
  nanoseconds : UInt32
  hash : String
deriving DecidableEq, Repr

/-- Hashes by the paths of compilers, sorted by path. -/
structure EnvironmentCache where
  entries : List (String × CachedHash)
deriving DecidableEq, Repr

/-! ## Entries -/

namespace CachedHash

/-- The time of a file as it is kept. Times before the epoch are kept as zero. -/
def keptTime (time : Timestamp) : UInt64 × UInt32 :=
  if time.seconds < 0 then (0, 0)
  else (UInt64.ofNat time.seconds.toNat, UInt32.ofNat time.nanoseconds)

/-- The entry for a file. -/
def ofMetadata (metadata : FileTree.Metadata) (hash : String) : CachedHash :=
  let time := keptTime metadata.modified
  ⟨UInt64.ofNat metadata.size, time.1, time.2, hash⟩

/-- Whether the file is what it was. -/
def isFor (entry : CachedHash) (metadata : FileTree.Metadata) : Bool :=
  entry == ofMetadata metadata entry.hash

/-- The names of the fields in their order. -/
def fieldNames : List String := ["size", "mtime_secs", "mtime_nanos", "hash"]

/-- The JSON form of an entry. -/
def toJson (entry : CachedHash) : Json :=
  .object [("size", .nat entry.size.toNat), ("mtime_secs", .nat entry.seconds.toNat),
    ("mtime_nanos", .nat entry.nanoseconds.toNat), ("hash", .string entry.hash)]

end CachedHash

namespace EnvironmentCache

/-- Nothing remembered. -/
def empty : EnvironmentCache := ⟨[]⟩

/-- Puts an entry at its place in a list sorted by path; an entry of that path is replaced. -/
def insertEntry (path : String) (entry : CachedHash) :
    List (String × CachedHash) → List (String × CachedHash)
  | [] => [(path, entry)]
  | (p, e) :: rest =>
    if path < p then (path, entry) :: (p, e) :: rest
    else if path = p then (path, entry) :: rest
    else (p, e) :: insertEntry path entry rest

/-- Remembers the hash of a file. -/
def insert (cache : EnvironmentCache) (path : String) (metadata : FileTree.Metadata)
    (hash : String) : EnvironmentCache :=
  ⟨insertEntry path (.ofMetadata metadata hash) cache.entries⟩

/-- The hash of a file that is what it was. -/
def lookup? (cache : EnvironmentCache) (path : String) (metadata : FileTree.Metadata) :
    Option String :=
  ((cache.entries.find? fun e => e.1 == path).filter fun e => e.2.isFor metadata).map fun e => e.2.hash

/-! ## The file -/

/-- The JSON form of a cache. -/
def toJson (cache : EnvironmentCache) : Json :=
  .object [("entries", .object (cache.entries.map fun e => (e.1, e.2.toJson)))]

/-- The text of a cache. -/
def encode (cache : EnvironmentCache) : String := cache.toJson.render

/-- The text in a tree. -/
def text? : Json.Tree → Option String
  | .string pieces => (Json.textOfPieces? pieces).map String.ofList
  | _ => none

/-- The integer in a tree, if it has no sign and is below a bound. -/
def natBelow? (bound : Nat) : Json.Tree → Option Nat
  | .number n =>
    match n.value? with
    | some (.int i) => if 0 ≤ i ∧ i < bound then some i.toNat else none
    | _ => none
  | _ => none

/-- The trees of the named fields of a record, in order. A named field must not be given twice;
other fields do not count, whatever they hold. -/
def namedFields? (names : List String) (fields : List (List Json.Piece × Json.Tree)) :
    Option (List (Option Json.Tree)) := do
  let fields ← fields.mapM fun f => (Json.textOfPieces? f.1).map fun k => (String.ofList k, f.2)
  names.mapM fun name =>
    match fields.filter fun f => f.1 == name with
    | [] => some none
    | [f] => some (some f.2)
    | _ => none

/-- The entry that four trees hold. -/
def entryOfTrees? (size seconds nanoseconds hash : Json.Tree) : Option CachedHash := do
  let size ← natBelow? UInt64.size size
  let seconds ← natBelow? UInt64.size seconds
  let nanoseconds ← natBelow? UInt32.size nanoseconds
  let hash ← text? hash
  return ⟨UInt64.ofNat size, UInt64.ofNat seconds, UInt32.ofNat nanoseconds, hash⟩

/-- The entry that a tree holds, as an object or as an array of the fields in order. -/
def entryOfTree? : Json.Tree → Option CachedHash
  | .array [size, seconds, nanoseconds, hash] => entryOfTrees? size seconds nanoseconds hash
  | .object fields =>
    match namedFields? CachedHash.fieldNames fields with
    | some [some size, some seconds, some nanoseconds, some hash] =>
      entryOfTrees? size seconds nanoseconds hash
    | _ => none
  | _ => none

/-- The entries that a tree holds. Of several for one path the last counts. -/
def entriesOfTree? : Json.Tree → Option (List (String × CachedHash))
  | .object fields => do
    let entries ← fields.mapM fun f => do
      let path ← Json.textOfPieces? f.1
      let entry ← entryOfTree? f.2
      return (String.ofList path, entry)
    return entries.foldl (fun acc e => insertEntry e.1 e.2 acc) []
  | _ => none

/-- The cache that a tree holds, as an object or as an array of its one field. -/
def ofTree? : Json.Tree → Option EnvironmentCache
  | .array [] => some empty
  | .array [entries] => (entriesOfTree? entries).map fun e => ⟨e⟩
  | .object fields =>
    match namedFields? ["entries"] fields with
    | some [some entries] => (entriesOfTree? entries).map fun e => ⟨e⟩
    | some [none] => some empty
    | _ => none
  | _ => none

/-- The cache in a text. -/
def decode? (text : String) : Option EnvironmentCache :=
  (Json.Tree.ofChars? text.toList).bind ofTree?

/-- The cache in a file. What cannot be read counts as an empty one. -/
def load (tree : FileTree) (path : String) : EnvironmentCache :=
  ((tree.readText path).toOption.bind decode?).getD empty

/-- The file that a cache is written to before it takes its place. -/
def temporaryPath (path : String) (processId : Nat) : String :=
  path ++ "." ++ toString processId ++ ".tmp"

/-- Writes a cache to a file, by way of a temporary one in the same directory. -/
def save (cache : EnvironmentCache) (tree : FileTree) (path : String) (processId : Nat) :
    FileTree × Except SystemError Unit :=
  let temporary := temporaryPath path processId
  match tree.write temporary (Bytes.ofString cache.encode) with
  | .error e => (tree, .error e)
  | .ok tree =>
    match tree.rename temporary path with
    | .error e => (tree, .error e)
    | .ok tree => (tree, .ok ())

end EnvironmentCache

end Offload
