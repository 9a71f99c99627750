/-!
Arithmetic on offsets and lengths as a 64-bit machine carries it out; words have
64 bits throughout. A step whose exact result is no word has no value here, so
that a computation which always has one never wrapped around.
-/

namespace BoundedMemory.Word

/-- The number of values of a word, which has 64 bits. -/
def modulus : Nat := 1 <<< 64

def add? (a b : Nat) : Option Nat :=
  if a + b < modulus then some (a + b) else none

def sub? (a b : Nat) : Option Nat :=
  if b ≤ a then some (a - b) else none

def mul? (a b : Nat) : Option Nat :=
  if a * b < modulus then some (a * b) else none

/-- A word moved by a signed amount. -/
def offset? (a : Nat) (delta : Int) : Option Nat :=
  let target := (a : Int) + delta
  if 0 ≤ target ∧ target < modulus then some target.toNat else none

theorem add?_eq_some_iff {a b c : Nat} : add? a b = some c ↔ a + b = c ∧ c < modulus := by
  unfold add?
  split <;> simp <;> omega

theorem sub?_eq_some_iff {a b c : Nat} : sub? a b = some c ↔ a = c + b := by
  unfold sub?
  split <;> simp <;> omega

theorem mul?_eq_some_iff {a b c : Nat} : mul? a b = some c ↔ a * b = c ∧ c < modulus := by
  unfold mul?
  split
  · simp only [Option.some.injEq]
    constructor
    · rintro rfl
      exact ⟨rfl, by assumption⟩
    · exact fun h => h.1
  · simp only [reduceCtorEq, false_iff]
    rintro ⟨rfl, h⟩
    contradiction

theorem offset?_eq_some_iff {a c : Nat} {delta : Int} :
    offset? a delta = some c ↔ (a : Int) + delta = c ∧ c < modulus := by
  simp only [offset?]
  split <;> simp <;> omega

end BoundedMemory.Word
