/-!
# Errors of the operating system
-/

namespace Offload

/-- Why the system refuses an operation. -/
inductive SystemError where
  | notFound
  | permissionDenied
  | busy
  | alreadyExists
  | notADirectory
  | isADirectory
  | invalidArgument
  | nameTooLong
  | directoryNotEmpty
  /-- a path leads through more links than the system follows -/
  | tooManyLinks
  /-- a count has reached its limit -/
  | overflow
  | networkUnreachable
  | connectionRefused
  /-- a name holds a NUL character -/
  | nulInName
  /-- the contents of a file are not UTF-8 -/
  | notText
  /-- any other error, by its number -/
  | other (number : Nat)
deriving DecidableEq, Repr

namespace SystemError

/-- The errors that have names, by number. -/
def named : List (Nat × SystemError) :=
  [(2, notFound), (13, permissionDenied), (16, busy), (17, alreadyExists), (20, notADirectory),
   (21, isADirectory), (22, invalidArgument), (36, nameTooLong), (39, directoryNotEmpty),
   (40, tooManyLinks), (75, overflow), (101, networkUnreachable), (111, connectionRefused)]

/-- The error of a number. -/
def ofNumber (number : Nat) : SystemError :=
  ((named.find? fun e => e.1 == number).map (·.2)).getD (other number)

/-- The number of an error, if the system has one for it. -/
def number? : SystemError → Option Nat
  | other number => some number
  | e => (named.find? fun n => n.2 == e).map (·.1)

/-- An error is shown by its number, or by its kind if the system has no number for it. -/
def text (e : SystemError) : String :=
  match e.number?, e with
  | some number, _ => "<os:" ++ toString number ++ ">"
  | none, nulInName => "<io:InvalidInput>"
  | none, _ => "<io:InvalidData>"

end SystemError

end Offload
