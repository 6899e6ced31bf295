import Offload.SystemError
import Offload.Text.Search

/-!
# Counting semaphores of a host

A semaphore counts free units. Named ones are shared by whoever opens the name; a semaphore whose
name is removed lives on for those who have it open.
-/

namespace Offload

/-- A count of free units and the most it can reach. -/
structure Counter where
  free : Nat
  limit : Nat
deriving DecidableEq, Repr

/-- The semaphores of a host. A semaphore is known by its position; names lead to positions. -/
structure Semaphores where
  counters : List Counter
  names : List (String × Nat)
deriving DecidableEq, Repr

namespace Semaphores

/-- A host without semaphores. -/
def none : Semaphores := ⟨[], []⟩

/-! ## Names -/

/-- The most units that a named semaphore can have. -/
def maxUnits : Nat := 2147483647

/-- The number of bytes from which on a name is no longer valid, and which itself is too long. -/
def nameLimit : Nat := 252

/-- A name without the slashes at its front. -/
def bareName (name : String) : String :=
  String.ofList (name.toList.dropWhile (· == '/'))

/-- The bare form of a valid name. -/
def checkName (name : String) : Except SystemError String :=
  if '\x00' ∈ name.toList then .error .nulInName
  else
    let bare := bareName name
    if bare.isEmpty || '/' ∈ bare.toList || nameLimit < bare.utf8ByteSize
    then .error .invalidArgument
    else if bare.utf8ByteSize = nameLimit then .error .nameTooLong
    else .ok bare

/-- The wording of a failure to open. -/
def openErrorText (name : String) (e : SystemError) : String :=
  "failed to open semaphore " ++ name ++ ": " ++ e.text

/-- The wording of a failure to remove a name. -/
def unlinkErrorText (name : String) (e : SystemError) : String :=
  "failed to unlink semaphore " ++ name ++ ": " ++ e.text

/-- The position that a bare name leads to. -/
def named? (host : Semaphores) (bare : String) : Option Nat :=
  (host.names.find? fun n => n.1 == bare).map (·.2)

/-! ## Operations -/

/-- Adds a semaphore without a name. -/
def create (host : Semaphores) (units limit : Nat) : Nat × Semaphores :=
  (host.counters.length, { host with counters := host.counters ++ [⟨units, limit⟩] })

/-- Opens a named semaphore. One that does not exist is created with `units` free units. -/
def openNamed (host : Semaphores) (name : String) (units : Nat) :
    Except SystemError (Nat × Semaphores) := do
  let bare ← checkName name
  match host.named? bare with
  | some id => return (id, host)
  | .none =>
    if maxUnits < units then .error .invalidArgument
    else
      let (id, host) := host.create units maxUnits
      return (id, { host with names := (bare, id) :: host.names })

/-- Removes a name. False if there is no such name, which includes the invalid ones. -/
def unlink (host : Semaphores) (name : String) : Except SystemError (Bool × Semaphores) :=
  match checkName name with
  | .error .invalidArgument => .ok (false, host)
  | .error e => .error e
  | .ok bare =>
    .ok ((host.named? bare).isSome, { host with names := host.names.filter fun n => n.1 != bare })

/-- The number of free units. -/
def free (host : Semaphores) (id : Nat) : Nat := ((host.counters[id]?).map (·.free)).getD 0

/-- Takes a unit, if one is free. -/
def take? (host : Semaphores) (id : Nat) : Option Semaphores :=
  match host.counters[id]? with
  | some c =>
    if c.free = 0 then .none
    else some { host with counters := host.counters.set id { c with free := c.free - 1 } }
  | .none => .none

/-- Gives a unit back, unless the limit is reached. -/
def post (host : Semaphores) (id : Nat) : Except SystemError Semaphores :=
  match host.counters[id]? with
  | some c =>
    if c.limit ≤ c.free then .error .overflow
    else .ok { host with counters := host.counters.set id { c with free := c.free + 1 } }
  | .none => .error .invalidArgument

/-- Gives a unit back; at the limit nothing happens. -/
def giveBack (host : Semaphores) (id : Nat) : Semaphores := (host.post id).toOption.getD host

end Semaphores

end Offload
