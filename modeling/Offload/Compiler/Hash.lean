import Offload.Cache.Environments
import Offload.Compiler.Error

/-!
# The hash of the compiler

What identifies a compiler is a digest of its program. The digest is an argument, so that nothing
here depends on which one it is.
-/

namespace Offload.CompilerHash

/-- The digest of a file. -/
def ofFile (digest : Bytes → String) (tree : FileTree) (path : String) :
    Except CompilerError String :=
  match tree.read path with
  | .ok contents => .ok (digest contents)
  | .error e => .error (.notHashed path e)

/-- What identifying a compiler comes to. -/
structure Identified where
  files : FileTree
  hash : Except CompilerError String
  /-- why the hash could not be remembered, if it could not -/
  unkept : Option SystemError

/-- Hashes a compiler and remembers the hash. That it cannot be remembered does no harm. -/
def remembering (digest : Bytes → String) (processId : Nat) (tree : FileTree)
    (compiler cachePath : String) (metadata : FileTree.Metadata) (cache : EnvironmentCache) :
    Identified :=
  match ofFile digest tree compiler with
  | .error e => ⟨tree, .error e, none⟩
  | .ok hash =>
    match (cache.insert compiler metadata hash).save tree cachePath processId with
    | (tree, .ok ()) => ⟨tree, .ok hash, none⟩
    | (tree, .error e) => ⟨tree, .ok hash, some e⟩

/-- The hash of a compiler, from the cache if there is one that has it. -/
def ofCompiler (digest : Bytes → String) (processId : Nat) (tree : FileTree) (compiler : String)
    (cachePath : Option String) : Identified :=
  match tree.metadata compiler with
  | .error e => ⟨tree, .error (.notHashed compiler e), none⟩
  | .ok metadata =>
    match cachePath with
    | none => ⟨tree, ofFile digest tree compiler, none⟩
    | some cachePath =>
      let cache := EnvironmentCache.load tree cachePath
      match cache.lookup? compiler metadata with
      | some hash => ⟨tree, .ok hash, none⟩
      | none => remembering digest processId tree compiler cachePath metadata cache

end Offload.CompilerHash
