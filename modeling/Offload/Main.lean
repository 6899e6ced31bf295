import Offload.Client.Session

/-!
# The command line

Shows what the client would do on this machine with a command line. The machine is pictured from its
environment and from the files that matter; no peer is reached, nothing is changed, and a compile is
shown as the command that would be run.
-/

namespace Offload.Preview

/-! ## The machine -/

/-- The settings that the environment can hold. -/
def settings : List String :=
  ["LOG", "VERBOSE", "DEBUG", "LOG_FILE", "LOG_APPEND", "COMPILER", "SLAVE", "DISABLED"]

/-- The contents of a file, if it can be read. -/
def contents? (path : String) : IO (Option Bytes) := do
  try
    return some (← IO.FS.readBinFile path).toList
  catch _ => return none

/-- Adds a file to a picture, if it can be read. -/
def picture (files : FileTree) (path : String) (executable : Bool) : IO FileTree := do
  match ← contents? path with
  | some contents => return files.addFile path contents executable
  | none => return files

/-- The variables that are set. -/
def setVariables (names : List String) : IO Variables := do
  let mut entries := []
  for name in names do
    if let some value ← IO.getEnv name then entries := entries ++ [(name, value)]
  return ⟨entries⟩

/-- The first line of a file, without the blanks at its ends. -/
def firstLine (path : String) (default : String) : IO String := do
  match (← contents? path).bind Bytes.toString? with
  | some text =>
    return String.ofList (Text.trim (text.toList.takeWhile (· ≠ '\n')))
  | none => return default

/-- The names under which a command line may look for its compiler. -/
def compilerNames (vars : Variables) (args : List String) : List String :=
  let line := CommandLine.parse args
  (line.flags.withVariables (.ofVariables vars)).1.compiler.toList ++ line.compilerArgs.take 1

/-- A program that shows how it was called. -/
def shown (place : Location) : Program := fun args =>
  let name := "/" ++ "/".intercalate place
  ⟨Bytes.ofString (LoggedLine.ofArgs (name :: args) ++ "\n"), [], .ended (.ofExit 0)⟩

/-- The picture of this machine. -/
def machine (args : List String) : IO Machine := do
  let vars ← setVariables (["HOME", "PATH"] ++ settings.map Variables.fullName)
  let host : Host := ⟨1, ← firstLine "/etc/hostname" "localhost", vars.lookup? "HOME"⟩
  let directories :=
    (Text.splitAt ':' ((vars.lookup? "PATH").getD "").toList).map String.ofList
  let here := FileTree.names (← IO.currentDir).toString
  let mut files := FileTree.withWorkingDirectory here
  for path in ClientConfig.defaultPaths host do
    files ← picture files path false
  for name in compilerNames vars args do
    if '/' ∈ name.toList then files ← picture files name true
    else
      for dir in directories do
        files ← picture files (Path.joinText dir name) true
  let self := FileTree.names (← IO.appPath).toString
  return ⟨host, vars, files, directories, self, .none, shown, 1, .networkUnreachable⟩

/-! ## Output -/

/-- What a client says on the standard error. -/
def bytesOf : Utterance → Bytes
  | .record r => Bytes.ofString r.line
  | .text text => Bytes.ofString text
  | .bytes data => data

/-- The exit code of a client. -/
def exitCode : ClientEnd → UInt32
  | .exited code => UInt32.ofNat (code % 256).toNat
  | .killed signal => UInt32.ofNat (128 + signal)
  | .stuck => 1

end Offload.Preview

open Offload in
/-- Runs a client on the picture of this machine. -/
def main (args : List String) : IO UInt32 := do
  let (ending, client) := Client.run (← Preview.machine args) ProgramSearch.clientName args
  (← IO.getStdout).write ⟨client.stdout.toArray⟩
  (← IO.getStderr).write ⟨(client.stderr.flatMap Preview.bytesOf).toArray⟩
  return Preview.exitCode ending
