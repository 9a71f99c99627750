import BoundedMemory.Fault

/-!
Operations that change a state and may stop. What an operation changed before
it stopped stays changed, so "nothing happened" is a property to be shown of
each operation and not a gift of the notation.

An operation stops in one of two ways. A fault is an answer to the caller. A
trap is a step without a defined outcome: a raw access outside of live memory,
arithmetic that leaves the machine word, a copy whose two lengths differ. The
checked layers raise faults; only the unchecked ones below them can trap.
-/

namespace BoundedMemory

inductive Stop (ε : Type) where
  | fault (cause : ε)
  | trap
  deriving DecidableEq, Repr

/-- An operation on `σ` that answers with `α` or stops. -/
abbrev Operation (ε σ α : Type) := EStateM (Stop ε) σ α

/-- An operation that reports the faults of memory access. -/
abbrev Action (σ α : Type) := Operation Fault σ α

namespace Operation

variable {ε ε' σ β α : Type}

def refuse (cause : ε) : Operation ε σ α := throw (.fault cause)

def trap : Operation ε σ α := throw .trap

/-- A value that has to exist; where it does not, the step is undefined. -/
def defined : Option α → Operation ε σ α
  | some a => pure a
  | none => trap

def ofExcept : Except ε α → Operation ε σ α
  | .ok a => pure a
  | .error cause => refuse cause

def onFirst (x : Operation ε σ α) : Operation ε (σ × β) α := fun (s, b) =>
  match x s with
  | .ok a s => .ok a (s, b)
  | .error e s => .error e (s, b)

/-- The same operation, with its faults told in other terms. -/
def mapFault (f : ε → ε') (x : Operation ε σ α) : Operation ε' σ α := fun s =>
  match x s with
  | .ok a s => .ok a s
  | .error (.fault cause) s => .error (.fault (f cause)) s
  | .error .trap s => .error .trap s

/-- An operation whose faults are let pass; what it did stays done. -/
def attempt (x : Operation ε σ α) : Operation ε' σ Unit := fun s =>
  match x s with
  | .ok _ s => .ok () s
  | .error (.fault _) s => .ok () s
  | .error .trap s => .error .trap s

instance : MonadLift (Except ε) (Operation ε σ) := ⟨ofExcept⟩
instance : MonadLift Option (Operation ε σ) := ⟨defined⟩
instance : MonadLift (Operation ε σ) (Operation ε (σ × β)) := ⟨onFirst⟩

end Operation

end BoundedMemory
