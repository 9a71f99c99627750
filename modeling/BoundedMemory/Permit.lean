import BoundedMemory.Fault

/-!
Permission masks: which directions of access a region allows.
-/

namespace BoundedMemory

structure Permit where
  read : Bool
  write : Bool
  deriving DecidableEq, Repr

namespace Permit

def none : Permit := ⟨false, false⟩
def readOnly : Permit := ⟨true, false⟩
def both : Permit := ⟨true, true⟩

/-- The mask of a new region. -/
def initial : Permit := both

def allows (p : Permit) : Access → Bool
  | .read => p.read
  | .write => p.write

def meet (p q : Permit) : Permit := ⟨p.read && q.read, p.write && q.write⟩

def join (p q : Permit) : Permit := ⟨p.read || q.read, p.write || q.write⟩

/-- Whether `p` allows all that `q` does. -/
def contains (p q : Permit) : Bool := p.meet q = q

/-- The mask as a number: 1 for reading and 2 for writing. -/
def bits (p : Permit) : Nat := p.read.toNat + 2 * p.write.toNat

def ofBits? : Nat → Option Permit
  | 0 => some ⟨false, false⟩
  | 1 => some ⟨true, false⟩
  | 2 => some ⟨false, true⟩
  | 3 => some ⟨true, true⟩
  | _ => Option.none

@[simp] theorem meet_none (p : Permit) : p.meet none = none := by
  simp [meet, none]

@[simp] theorem both_meet (p : Permit) : both.meet p = p := by
  simp [meet, both]

theorem meet_assoc (p q r : Permit) : (p.meet q).meet r = p.meet (q.meet r) := by
  simp [meet, Bool.and_assoc]

theorem allows_meet (p q : Permit) (access : Access) :
    (p.meet q).allows access = (p.allows access && q.allows access) := by
  cases access <;> rfl

@[simp] theorem ofBits?_bits (p : Permit) : ofBits? p.bits = some p := by
  rcases p with ⟨_ | _, _ | _⟩ <;> rfl

end Permit

end BoundedMemory
