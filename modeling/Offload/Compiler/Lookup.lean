import Offload.Compiler.Error
import Offload.FileTree.Operations

/-!
# Finding the compiler

The client stands in `PATH` under the name of a compiler, so that the compiler is the first program
of that name which is not the client itself.
-/

namespace Offload

/-- A compiler that was found, and what it was called. -/
structure ResolvedCompiler where
  path : String
  argv0 : String
deriving DecidableEq, Repr

/-- Where programs are looked for. -/
structure ProgramSearch where
  tree : FileTree
  /-- the directories of `PATH` -/
  directories : List String
  /-- the location of the client itself -/
  self : Location

namespace ProgramSearch

/-- The programs of a name, in the order of `PATH`. A name with several components is a path. -/
def programs (search : ProgramSearch) (name : String) : List String :=
  if Path.hasSeveralComponents name.toList then [name].filter search.tree.isExecutable
  else (search.directories.map fun dir => Path.joinText dir name).filter search.tree.isExecutable

/-- Whether a program is the client itself. -/
def isSelf (search : ProgramSearch) (path : String) : Bool :=
  match search.tree.canonical path, search.tree.node? search.self with
  | .ok place, some _ => place == search.self
  | _, _ => false

/-- The name of the client's own program. -/
def clientName : String := "fiskc"

/-- The name under which the client was called. -/
def calledAs (argv0 : String) : String :=
  match Path.fileName? argv0.toList with
  | some name => String.ofList name
  | none => argv0

/-- The compiler of an explicit path or name. -/
def explicit (search : ProgramSearch) (argv0 compiler : String) :
    Except CompilerError ResolvedCompiler :=
  if Path.hasSeveralComponents compiler.toList then .ok ⟨compiler, calledAs argv0⟩
  else
    match search.programs compiler with
    | path :: _ => .ok ⟨path, calledAs argv0⟩
    | [] => .error (.notFound compiler)

/-- The compiler of a name; a name with a slash is a path. -/
def named (search : ProgramSearch) (name : String) : Except CompilerError ResolvedCompiler :=
  if '/' ∈ name.toList then .ok ⟨name, name⟩
  else
    match (search.programs name).find? fun path => !search.isSelf path with
    | some path => .ok ⟨path, name⟩
    | none => .error (.notFound name)

/-- The compiler to run and the arguments that are left for it. A client that is called by its own
name takes the compiler from the first argument. -/
def find (search : ProgramSearch) (argv0 : String) (compiler : Option String) (args : List String) :
    Except CompilerError (ResolvedCompiler × List String) :=
  match compiler with
  | some compiler => (search.explicit argv0 compiler).map fun c => (c, args)
  | none =>
    if calledAs argv0 = clientName then
      match args with
      | [] => .error .notNamed
      | name :: rest => (search.named name).map fun c => (c, rest)
    else (search.named (calledAs argv0)).map fun c => (c, args)

end ProgramSearch

end Offload
