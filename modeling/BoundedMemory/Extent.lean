import BoundedMemory.Fault
import BoundedMemory.Word

/-!
Checks on ranges and counts. Offsets and lengths may be any words, so nothing
here adds two of them: a range is held against what is left after its offset.
-/

namespace BoundedMemory.Extent

/-- Accepts `[offset, offset + length)` where it lies in `[0, total]`. -/
def check (total offset length : Nat) : Except Fault Unit :=
  if offset ≤ total ∧ length ≤ total - offset then .ok ()
  else .error (.outOfBounds offset length total)

def checkPosition (total position : Nat) : Except Fault Unit :=
  check total position 0

/-- The length in bytes of `count` elements of `width` bytes. -/
def byteLength (count width : Nat) : Except Fault Nat :=
  match Word.mul? count width with
  | some length => .ok length
  | none => .error (.invalidArgument "count" "element count overflows the address space")

/-- An offset as an index; every word is one. -/
def toIndex (offset : Nat) : Except Fault Nat :=
  if offset < Word.modulus then .ok offset
  else .error (.invalidArgument "offset" "value does not fit the address space")

/-- Demands a condition of the argument `name`. -/
def require (holds : Bool) (name condition : String) : Except Fault Unit :=
  if holds then .ok () else .error (.invalidArgument name condition)

/-- The length of `[first, last)`, refused where the ends are the wrong way round. -/
def between (first last : Nat) : Except Fault Nat :=
  if last < first then .error (.outOfBounds first 0 last) else .ok (last - first)

theorem check_eq_ok_iff {total offset length : Nat} :
    check total offset length = .ok () ↔ offset + length ≤ total := by
  unfold check
  split <;> simp <;> omega

theorem check_eq_error_iff {total offset length : Nat} {fault : Fault} :
    check total offset length = .error fault ↔
      total < offset + length ∧ fault = .outOfBounds offset length total := by
  unfold check
  split
  · simp
    omega
  · simp [eq_comm]
    omega

theorem byteLength_eq_ok_iff {count width length : Nat} :
    byteLength count width = .ok length ↔ count * width = length ∧ length < Word.modulus := by
  rw [← Word.mul?_eq_some_iff]
  unfold byteLength
  split <;> simp_all

end BoundedMemory.Extent
