import Offload.Json.Basic

/-!
# Kinds of local compute capacity
-/

namespace Offload

/-- What a unit of local capacity is spent on. -/
inductive SlotKind where
  /-- a full run of the compiler on this host -/
  | compile
  /-- a run of the preprocessor for a remote job -/
  | preprocess
deriving DecidableEq, Repr

namespace SlotKind

/-- Both kinds. -/
def all : List SlotKind := [compile, preprocess]

/-- The position in tables. -/
def index : SlotKind → Nat
  | compile => 0
  | preprocess => 1

/-- The name in messages and in JSON. -/
def name : SlotKind → String
  | compile => "compile"
  | preprocess => "preprocess"

/-- The name of the semaphore that all clients of a host share. -/
def semaphoreName : SlotKind → String
  | compile => "/fisk.compile"
  | preprocess => "/fisk.cpp"

/-- The kind with a name. -/
def ofName? (name : String) : Option SlotKind := all.find? fun k => k.name == name

/-- The kind that a JSON value names. -/
def ofJson? (value : Json) : Option SlotKind := value.asCase?.bind ofName?

end SlotKind

/-- A value for each kind of capacity. -/
structure PerKind (α : Type) where
  compile : α
  preprocess : α
deriving DecidableEq, Repr

namespace PerKind

variable {α : Type}

/-- The value of a kind. -/
def get (p : PerKind α) : SlotKind → α
  | .compile => p.compile
  | .preprocess => p.preprocess

/-- Replaces the value of a kind. -/
def set (p : PerKind α) (kind : SlotKind) (a : α) : PerKind α :=
  match kind with
  | .compile => { p with compile := a }
  | .preprocess => { p with preprocess := a }

/-- Changes the value of a kind. -/
def modify (p : PerKind α) (kind : SlotKind) (f : α → α) : PerKind α := p.set kind (f (p.get kind))

/-- The same value for each kind. -/
def const (a : α) : PerKind α := ⟨a, a⟩

/-- A value computed for each kind. -/
def ofFn (f : SlotKind → α) : PerKind α := ⟨f .compile, f .preprocess⟩

@[simp] theorem get_set (p : PerKind α) (k l : SlotKind) (a : α) :
    (p.set k a).get l = if k = l then a else p.get l := by
  cases k <;> cases l <;> rfl

@[simp] theorem get_const (a : α) (k : SlotKind) : (const a).get k = a := by cases k <;> rfl

@[simp] theorem get_ofFn (f : SlotKind → α) (k : SlotKind) : (ofFn f).get k = f k := by
  cases k <;> rfl

theorem get_modify (p : PerKind α) (k l : SlotKind) (f : α → α) :
    (p.modify k f).get l = if k = l then f (p.get l) else p.get l := by
  cases k <;> cases l <;> rfl

@[ext] theorem ext_get {p q : PerKind α} (h : ∀ k, p.get k = q.get k) : p = q := by
  cases p; cases q
  have hc := h .compile
  have hp := h .preprocess
  simp only [get] at hc hp
  rw [hc, hp]

end PerKind

end Offload
