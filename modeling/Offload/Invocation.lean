import Offload.Path

/-!
# Compiler invocations

Of the options of C compilers just so much is understood as to tell whether a command line compiles
one source file to one object file. Anything else is left to the local compiler.
-/

namespace Offload

/-- How far a compiler goes. -/
inductive InvocationMode where
  /-- to an object file -/
  | compile
  | preprocess
  | assemble
  | link
  /-- a command line that cannot be judged -/
  | invalid
deriving DecidableEq, Repr

/-- The name of a mode. -/
def InvocationMode.name : InvocationMode → String
  | compile => "compile"
  | preprocess => "preprocess"
  | assemble => "assemble"
  | link => "link"
  | invalid => "invalid"

/-- The language of a source file. -/
inductive Language where
  | c
  | cxx
  | objC
  | objCxx
  | preprocessed
  | assembler
deriving DecidableEq, Repr

namespace Language

/-- The name of a language. -/
def name : Language → String
  | c => "C"
  | cxx => "Cxx"
  | objC => "ObjC"
  | objCxx => "ObjCxx"
  | preprocessed => "Preprocessed"
  | assembler => "Assembler"

/-- The language of the files with an extension. -/
def ofExtension? (extension : String) : Option Language :=
  if extension = "c" then some c
  else if extension ∈ ["cc", "cp", "cpp", "cxx", "c++", "C", "CPP"] then some cxx
  else if extension = "m" then some objC
  else if extension ∈ ["mm", "M"] then some objCxx
  else if extension ∈ ["i", "ii"] then some preprocessed
  else if extension ∈ ["s", "S", "sx"] then some assembler
  else none

/-- The language that the option `-x` calls so. -/
def ofOption? (value : String) : Option Language :=
  if value ∈ ["c", "c-header"] then some c
  else if value ∈ ["c++", "c++-header"] then some cxx
  else if value = "objective-c" then some objC
  else if value = "objective-c++" then some objCxx
  else if value ∈ ["cpp-output", "c++-cpp-output"] then some preprocessed
  else if value ∈ ["assembler", "assembler-with-cpp"] then some assembler
  else none

/-- Whether a worker can compile the language from preprocessed source. -/
def isRemotable : Language → Bool
  | c | cxx | objC | objCxx => true
  | preprocessed | assembler => false

/-- The language that a file's extension tells. -/
def ofPath? (path : String) : Option Language :=
  (Path.extension? path.toList).bind fun e => ofExtension? (String.ofList e)

end Language

/-- A source file on a command line. -/
structure SourceFile where
  path : String
  language : Language
deriving DecidableEq, Repr

/-! ## Tokens -/

/-- The options whose value is the next argument. -/
def valueOptions : List String :=
  ["-o", "-I", "-D", "-U", "-include", "-imacros", "-isystem", "-iquote", "-idirafter", "-iprefix",
   "-iwithprefix", "-isysroot", "--sysroot", "-x", "-MF", "-MT", "-MQ", "-arch", "-target", "-L",
   "-Xclang", "-Xpreprocessor", "-Xassembler", "-Xlinker", "-aux-info"]

/-- Whether an argument is an option whose value is the next argument. -/
def takesValue (arg : String) : Bool := valueOptions.contains arg

/-- A piece of a command line that is read as one. -/
inductive ArgToken where
  /-- an option and its value -/
  | pair (option value : String)
  | single (arg : String)
  /-- an option at the end of the line that lacks its value -/
  | dangling (option : String)
deriving DecidableEq, Repr

/-- The tokens of a command line. -/
def ArgToken.ofArgs : List String → List ArgToken
  | [] => []
  | [arg] => if takesValue arg then [.dangling arg] else [.single arg]
  | arg :: next :: rest =>
    if takesValue arg then .pair arg next :: ofArgs rest else .single arg :: ofArgs (next :: rest)

/-- An option that stops the compiler early: its rank among them, and its mode. The highest rank
on a command line decides. -/
def stopOption? (arg : String) : Option (Nat × InvocationMode) :=
  if arg = "-E" ∨ arg = "-M" ∨ arg = "-MM" then some (3, .preprocess)
  else if arg = "-S" then some (2, .assemble)
  else if arg = "-c" then some (1, .compile)
  else none

/-! ## Invocations -/

/-- What a command line asks of the compiler. -/
structure Invocation where
  /-- the compiler as it was called -/
  argv0 : String
  args : List String
  mode : InvocationMode
  sources : List SourceFile
  output : Option String
  /-- a source is read from the standard input -/
  stdin : Bool
deriving DecidableEq, Repr

namespace Invocation

/-- The reading of a command line. -/
structure Reading where
  rank : Nat
  mode : InvocationMode
  sources : List SourceFile
  output : Option String
  stdin : Bool
  /-- the last `-x`: no language, or a forced one, or that of the extension if there is none -/
  forced : Option (Option Language)
  invalid : Bool
deriving DecidableEq, Repr

/-- Before the first token. -/
def Reading.start : Reading := ⟨0, .link, [], none, false, none, false⟩

/-- What the value of `-x` means; `none` goes back to the extensions. -/
def forcedBy (value : String) : Option (Option Language) :=
  if value = "none" then none else some (Language.ofOption? value)

/-- Reads an operand. -/
def Reading.operand (r : Reading) (arg : String) : Reading :=
  match r.forced.getD (Language.ofPath? arg) with
  | some language => { r with sources := r.sources ++ [⟨arg, language⟩] }
  | none => r

/-- Reads a token of one argument. -/
def Reading.single (r : Reading) (arg : String) : Reading :=
  match stopOption? arg with
  | some (rank, mode) => if r.rank < rank then { r with rank, mode } else r
  | none =>
    if Text.startsWith "@" arg then { r with invalid := true }
    else if arg = "-" then { r with stdin := true }
    else
      match Text.stringAfter? "-o" arg, Text.stringAfter? "-x" arg with
      | some value, _ => { r with output := some value }
      | none, some value => { r with forced := forcedBy value }
      | none, none => if Text.startsWith "-" arg then r else r.operand arg

/-- Reads an option with its value. -/
def Reading.pair (r : Reading) (option value : String) : Reading :=
  if option = "-o" then { r with output := some value }
  else if option = "-x" then { r with forced := forcedBy value }
  else r

/-- Reads a token. -/
def Reading.token (r : Reading) : ArgToken → Reading
  | .pair option value => r.pair option value
  | .single arg => r.single arg
  | .dangling _ => { r with invalid := true }

/-- Reads a command line. -/
def parse (argv0 : String) (args : List String) : Invocation :=
  let r := (ArgToken.ofArgs args).foldl Reading.token .start
  ⟨argv0, args, if r.invalid then .invalid else r.mode, r.sources, r.output, r.stdin⟩

/-- Why an invocation has to stay on this host. -/
inductive LocalReason where
  | mode (mode : InvocationMode)
  | stdin
  | noSource
  | language (source : SourceFile)
  | sources (count : Nat)
deriving DecidableEq, Repr

/-- The wording of a reason. -/
def LocalReason.text : LocalReason → String
  | mode m => m.name ++ " mode"
  | stdin => "source read from stdin"
  | noSource => "no source file"
  | language source => source.language.name ++ " source " ++ source.path
  | sources count => toString count ++ " source files"

/-- Why this invocation has to stay on this host, if it has to. -/
def localReason? (inv : Invocation) : Option LocalReason :=
  if inv.mode ≠ .compile then some (.mode inv.mode)
  else if inv.stdin then some .stdin
  else
    match inv.sources with
    | [] => some .noSource
    | [source] => if source.language.isRemotable then none else some (.language source)
    | many => some (.sources many.length)

/-- The source file, if there is just one. -/
def sourceFile? (inv : Invocation) : Option String :=
  match inv.sources with
  | [source] => some source.path
  | _ => none

/-- The arguments without `-c` and without the output file. -/
def withoutOutput : List String → List String
  | [] => []
  | arg :: rest =>
    if arg = "-c" then withoutOutput rest
    else if arg = "-o" then
      match rest with
      | [] => []
      | _ :: rest => withoutOutput rest
    else if Text.startsWith "-o" arg then withoutOutput rest
    else arg :: withoutOutput rest

/-- The arguments that run the preprocessor alone. -/
def preprocessArgs (inv : Invocation) : List String := withoutOutput inv.args ++ ["-E"]

/-- The command line for a worker, with what the scheduler adds to it. -/
def remoteCommandLine (inv : Invocation) (extraArgs : List String) : List String :=
  inv.args ++ extraArgs

/-- A file name with the extension of object files, in the place of one it has. -/
def withObjectExtension (name : List Char) : List Char :=
  match Path.fileName? name with
  | some name => Path.stem name ++ ['.', 'o']
  | none => name

/-- Where the object file goes: to the output file, or else next to the working directory's other
files under the name of the source. -/
def objectOutput? (inv : Invocation) : Option String :=
  match inv.output with
  | some output => some output
  | none => do
    let source ← inv.sourceFile?
    let name ← Path.fileName? source.toList
    return String.ofList (withObjectExtension (Path.stem name))

end Invocation

end Offload
