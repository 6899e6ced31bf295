import Offload.Config.Variables
import Offload.Text.Search
import Offload.Text.Terminal

/-!
# Flags

The client shares its command line with the compiler. The arguments that begin with `--fisk-` are
flags of the client; all others belong to the compiler and keep their order.
-/

namespace Offload

/-- What the client is told on its command line. -/
structure Flags where
  log : Option String
  logFile : Option String
  /-- the compiler to run, instead of the one in `PATH` -/
  compiler : Option String
  /-- the worker that is asked for -/
  worker : Option String
  /-- compile on this host only -/
  disabled : Bool
  /-- remove the shared slots and do nothing else -/
  cleanSemaphores : Bool
  /-- show the shared slots and do nothing else -/
  dumpSemaphores : Bool
deriving DecidableEq, Repr

/-- A flag with a value. -/
inductive OptionFlag where
  | log
  | logFile
  | compiler
  | worker
deriving DecidableEq, Repr

/-- A flag without a value. -/
inductive SwitchFlag where
  | disabled
  | cleanSemaphores
  | dumpSemaphores
deriving DecidableEq, Repr

/-- A flag. -/
inductive Flag where
  | option (flag : OptionFlag)
  | switch (flag : SwitchFlag)
deriving DecidableEq, Repr

/-- What is wrong with the flags. -/
inductive FlagError where
  | unknown (name : String)
  | valueMissing (flag : OptionFlag)
  | valueUnexpected (flag : SwitchFlag) (value : String)
  | repeated (flag : Flag)
deriving DecidableEq, Repr

/-! ## Names and errors -/

/-- A flag with a value, as it is shown. -/
def OptionFlag.display : OptionFlag → String
  | log => "--fisk-log <LEVEL>"
  | logFile => "--fisk-log-file <PATH>"
  | compiler => "--fisk-compiler <PATH>"
  | worker => "--fisk-slave <WORKER>"

/-- Whether the value must not be empty. -/
def OptionFlag.needsText : OptionFlag → Bool
  | logFile | compiler => true
  | log | worker => false

/-- A flag without a value, as it is shown. -/
def SwitchFlag.display : SwitchFlag → String
  | disabled => "--fisk-disabled"
  | cleanSemaphores => "--fisk-clean-semaphores"
  | dumpSemaphores => "--fisk-dump-semaphores"

/-- A flag, as it is shown. -/
def Flag.display : Flag → String
  | option flag => flag.display
  | switch flag => flag.display

/-- The flag of a name. The level has two names. -/
def Flag.ofName? (name : String) : Option Flag :=
  if name = "--fisk-log" ∨ name = "--fisk-log-level" then some (.option .log)
  else if name = "--fisk-log-file" then some (.option .logFile)
  else if name = "--fisk-compiler" then some (.option .compiler)
  else if name = "--fisk-slave" then some (.option .worker)
  else if name = "--fisk-disabled" then some (.switch .disabled)
  else if name = "--fisk-clean-semaphores" then some (.switch .cleanSemaphores)
  else if name = "--fisk-dump-semaphores" then some (.switch .dumpSemaphores)
  else none

/-- The wording of an error. What it quotes is freed of commands for a terminal. -/
def FlagError.text : FlagError → String
  | unknown name => "error: unexpected argument '" ++ Text.shown name ++ "' found"
  | valueMissing flag => "error: a value is required for '" ++ flag.display ++ "' but none was supplied"
  | valueUnexpected flag value =>
    "error: unexpected value '" ++ Text.shown value ++ "' for '" ++ flag.display
      ++ "' found; no more were expected"
  | repeated flag => "error: the argument '" ++ flag.display ++ "' cannot be used multiple times"

/-- The first line of the wording. -/
def FlagError.headline (e : FlagError) : String := Text.firstLine e.text

namespace Flags

/-- Without any argument. -/
def none : Flags := ⟨.none, .none, .none, .none, false, false, false⟩

/-- Sets a flag with a value. -/
def setOption (flags : Flags) (value : String) : OptionFlag → Flags
  | .log => { flags with log := some value }
  | .logFile => { flags with logFile := some value }
  | .compiler => { flags with compiler := some value }
  | .worker => { flags with worker := some value }

/-- Sets a flag without a value. -/
def setSwitch (flags : Flags) : SwitchFlag → Flags
  | .disabled => { flags with disabled := true }
  | .cleanSemaphores => { flags with cleanSemaphores := true }
  | .dumpSemaphores => { flags with dumpSemaphores := true }

/-! ## Reading -/

/-- An argument taken apart at its first equals sign. -/
structure Spelling where
  name : String
  value : Option String
deriving DecidableEq, Repr

/-- Takes an argument apart. -/
def Spelling.ofArg (arg : String) : Spelling :=
  match Text.cutAt? '=' arg.toList with
  | some (name, value) => ⟨String.ofList name, some (String.ofList value)⟩
  | .none => ⟨arg, .none⟩

/-- The reading of flags: what is set, which flags have been seen, and an option that lacks its value,
which is reported when the next flag turns out to be known. -/
structure Reading where
  flags : Flags
  seen : List Flag
  unfinished : Option OptionFlag
deriving DecidableEq, Repr

/-- Refuses an option that lacks its value. -/
def Reading.settle (r : Reading) : Except FlagError Unit :=
  match r.unfinished with
  | some flag => .error (.valueMissing flag)
  | .none => .ok ()

/-- Notes a flag; none may be given twice. -/
def Reading.see (r : Reading) (flag : Flag) : Except FlagError Reading :=
  if flag ∈ r.seen then .error (.repeated flag) else .ok { r with seen := flag :: r.seen }

/-- Reads one argument. -/
def Reading.take (r : Reading) (arg : String) : Except FlagError Reading := do
  let spelling := Spelling.ofArg arg
  match Flag.ofName? spelling.name, spelling.value with
  | .none, _ => .error (.unknown spelling.name)
  | some (.switch flag), some value => .error (.valueUnexpected flag value)
  | some (.switch flag), .none =>
    r.settle
    let r ← r.see (.switch flag)
    return { r with flags := r.flags.setSwitch flag }
  | some (.option flag), some value =>
    r.settle
    let r ← r.see (.option flag)
    if flag.needsText && value.isEmpty then .error (.valueMissing flag)
    else return { r with flags := r.flags.setOption value flag }
  | some (.option flag), .none =>
    r.settle
    return { r with unfinished := some flag }

/-- Reads the arguments that are flags; the first fault ends the reading. -/
def read (args : List String) : Except FlagError Flags := do
  let r ← args.foldlM Reading.take ⟨none, [], .none⟩
  r.settle
  return r.flags

/-! ## Other sources -/

/-- Fills in from the environment what the command line leaves open. -/
def withVariables (flags : Flags) (reader : VariableReader) : Flags × VariableReader :=
  let compiler := flags.compiler <|> (reader.vars.string? "COMPILER").map (·.value)
  let worker := flags.worker <|> (reader.vars.string? "SLAVE").map (·.value)
  let flags := { flags with compiler, worker }
  if flags.disabled then (flags, reader)
  else
    let (disabled, reader) := reader.bool? "DISABLED"
    ({ flags with disabled := (disabled.map (·.value)).getD false }, reader)

/-- Whether the client is to look after the shared slots, and not to compile. -/
def isMaintenance (flags : Flags) : Bool := flags.cleanSemaphores || flags.dumpSemaphores

end Flags

/-! ## The command line -/

/-- What the arguments of the client that are flags begin with. -/
def flagStart : String := "--fisk-"

/-- Whether an argument is a flag. -/
def isFlag (arg : String) : Bool := Text.startsWith flagStart arg

/-- A command line after its first word. -/
structure CommandLine where
  flags : Flags
  compilerArgs : List String
  /-- why the flags were not used -/
  flagError : Option FlagError
deriving DecidableEq, Repr

namespace CommandLine

/-- The arguments that are flags, in order. -/
def flagArgs (args : List String) : List String := args.filter isFlag

/-- The arguments that are not, in order. -/
def compilerArgsOf (args : List String) : List String := args.filter fun a => !isFlag a

/-- Takes a command line apart. After an error no flag counts. -/
def parse (args : List String) : CommandLine :=
  match Flags.read (flagArgs args) with
  | .ok flags => ⟨flags, compilerArgsOf args, none⟩
  | .error e => ⟨.none, compilerArgsOf args, some e⟩

end CommandLine

end Offload
