/-!
# How a process ended
-/

namespace Offload

/-- The status word that waiting for a process yields: the signal in the seven low bits, the exit
code in the next byte. -/
structure WaitStatus where
  word : Int32
deriving DecidableEq, Repr

namespace WaitStatus

/-- The seven low bits: zero for an exit, 127 for a stop. -/
def low (s : WaitStatus) : Int := s.word.toInt % 128

/-- The exit code, if the process exited. -/
def exited? (s : WaitStatus) : Option Int :=
  if s.low = 0 then some (s.word.toInt / 256 % 256) else none

/-- The signal that ended the process, if one did. -/
def signaled? (s : WaitStatus) : Option Int :=
  if s.low ≠ 0 ∧ s.low ≠ 127 then some s.low else none

/-- The exit code that a shell shows: a signal counts from 128, and anything else is 1. -/
def exitCode (s : WaitStatus) : Int :=
  match s.exited?, s.signaled? with
  | some code, _ => code
  | none, some signal => 128 + signal
  | none, none => 1

/-- The status of a process that exited. -/
def ofExit (code : Nat) : WaitStatus := ⟨Int32.ofInt (code % 256 * 256 : Nat)⟩

/-- The status of a process that a signal ended. -/
def ofSignal (signal : Nat) : WaitStatus := ⟨Int32.ofInt (signal % 128 : Nat)⟩

end WaitStatus

end Offload
