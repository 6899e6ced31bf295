/-!
# The identity of a toolchain
-/

namespace Offload

/-- What the scheduler is told about the local compiler. -/
structure Environment where
  /-- the hash of the compiler -/
  hash : String
  /-- hashes of remote environments that can stand in for it -/
  compatible : List String
deriving DecidableEq, Repr

/-- The hashes that are not empty, the compiler's own first, with semicolons between them. -/
def Environment.headerValue (e : Environment) : String :=
  ";".intercalate ((e.hash :: e.compatible).filter fun h => !h.isEmpty)

end Offload
