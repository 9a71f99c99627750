import BoundedMemory.Machine
import Mathlib.Algebra.Group.Nat.Defs
import Mathlib.Order.Bounds.Defs

/-!
The capacity of page buffers, which is worked out by masking words. It is the least number
of whole pages with room for the buffer, as long as the sum under the mask does not wrap
around; where it does, nothing is left under the mask, and that no machine grants.
-/

namespace BoundedMemory.Machine

variable {k size : Nat}

theorem toNat_mask (low : k < 64) : (BitVec.ofNat 64 (2 ^ k) - 1).toNat = 2 ^ k - 1 := by
  have power : 2 ^ k < 2 ^ 64 := Nat.pow_lt_pow_right (by decide) low
  have word : (BitVec.ofNat 64 (2 ^ k)).toNat = 2 ^ k := Nat.mod_eq_of_lt power
  rw [BitVec.toNat_sub_of_le, word]
  · rfl
  · rw [BitVec.le_def, word]
    exact Nat.two_pow_pos k

/-- Clearing the `k` low bits of a word rounds it down to a multiple of `2 ^ k`. -/
theorem toNat_and_not_mask (low : k < 64) (x : BitVec 64) :
    (x &&& ~~~(BitVec.ofNat 64 (2 ^ k) - 1)).toNat = 2 ^ k * (x.toNat / 2 ^ k) := by
  apply Nat.eq_of_testBit_eq
  intro i
  have mask : (BitVec.ofNat 64 (2 ^ k) - 1).getLsbD i = decide (i < k) := by
    rw [BitVec.getLsbD, toNat_mask low, Nat.testBit_two_pow_sub_one]
  rw [← BitVec.getLsbD, BitVec.getLsbD_and, BitVec.getLsbD_not, mask,
    Nat.testBit_two_pow_mul, Nat.testBit_div_two_pow]
  by_cases cleared : i < k
  · simp [cleared, Nat.not_le.mpr cleared]
  · have kept : i - k + k = i := Nat.sub_add_cancel (Nat.not_lt.mp cleared)
    rw [kept]
    by_cases inside : i < 64
    · simp [cleared, inside, Nat.not_lt.mp cleared, BitVec.getLsbD]
    · have beyond := BitVec.getLsbD_of_ge x i (Nat.not_lt.mp inside)
      simp only [BitVec.getLsbD] at beyond ⊢
      simp [beyond]

section Words

variable (room : max size 1 + 2 ^ k ≤ 2 ^ 64)

include room

/-- The sum does not wrap, so the capacity is worked out as among the whole numbers. -/
theorem pageCapacity_eq :
    pageCapacity (2 ^ k) size = 2 ^ k * ((max size 1 + (2 ^ k - 1)) / 2 ^ k) := by
  have positive := Nat.two_pow_pos k
  have power : 2 ^ k < 2 ^ 64 := by omega
  have low : k < 64 := (Nat.pow_lt_pow_iff_right Nat.one_lt_two).1 power
  have word : max size 1 % 2 ^ 64 = max size 1 := Nat.mod_eq_of_lt (by omega)
  have sum : (BitVec.ofNat 64 (max size 1) + (BitVec.ofNat 64 (2 ^ k) - 1)).toNat =
      max size 1 + (2 ^ k - 1) := by
    rw [BitVec.toNat_add, toNat_mask low, BitVec.toNat_ofNat, word, Nat.mod_eq_of_lt (by omega)]
  rw [pageCapacity, toNat_and_not_mask low, sum]

theorem isLeast_pageCapacity :
    IsLeast {n | 0 < n ∧ 2 ^ k ∣ n ∧ size ≤ n} (pageCapacity (2 ^ k) size) := by
  have positive := Nat.two_pow_pos k
  rw [pageCapacity_eq room]
  have covers : max size 1 ≤ 2 ^ k * ((max size 1 + (2 ^ k - 1)) / 2 ^ k) := by
    have rest := Nat.div_add_mod (max size 1 + (2 ^ k - 1)) (2 ^ k)
    have short := Nat.mod_lt (max size 1 + (2 ^ k - 1)) positive
    omega
  refine ⟨⟨by omega, Nat.dvd_mul_right _ _, by omega⟩, ?_⟩
  rintro n ⟨nonzero, ⟨pages, rfl⟩, fits⟩
  have fewer : (max size 1 + (2 ^ k - 1)) / 2 ^ k < pages + 1 := by
    rw [Nat.div_lt_iff_lt_mul positive, Nat.add_mul, Nat.mul_comm pages, Nat.one_mul]
    omega
  exact Nat.mul_le_mul_left (2 ^ k) (Nat.lt_succ_iff.1 fewer)

/-- There are machines with such pages that grant the capacity, whatever was taken before. -/
theorem exists_grants_pageCapacity :
    ∃ machine : Machine, machine.pageSize = 2 ^ k ∧
      ∀ taken, machine.grant .pages taken (pageCapacity (2 ^ k) size) = .ok () := by
  have positive := (isLeast_pageCapacity room).1.1
  refine ⟨below k Word.modulus (Nat.le_refl _), Nat.one_shiftLeft k, fun _ => ?_⟩
  exact grantBelow_pages (Nat.ne_of_gt positive) (BitVec.isLt _)

end Words

/-- Where the sum wraps, it comes to less than a page. -/
theorem pageCapacity_eq_zero (word : size < 2 ^ 64) (wraps : 2 ^ 64 < max size 1 + 2 ^ k) :
    pageCapacity (2 ^ k) size = 0 := by
  by_cases low : k < 64
  · have positive := Nat.two_pow_pos k
    have power : 2 ^ k < 2 ^ 64 := Nat.pow_lt_pow_right (by decide) low
    have fits : max size 1 % 2 ^ 64 = max size 1 := Nat.mod_eq_of_lt (by omega)
    have sum : (BitVec.ofNat 64 (max size 1) + (BitVec.ofNat 64 (2 ^ k) - 1)).toNat =
        max size 1 + (2 ^ k - 1) - 2 ^ 64 := by
      rw [BitVec.toNat_add, toNat_mask low, BitVec.toNat_ofNat, fits,
        Nat.mod_eq_sub_mod (by omega), Nat.mod_eq_of_lt (by omega)]
    rw [pageCapacity, toNat_and_not_mask low, sum, Nat.div_eq_of_lt (by omega), Nat.mul_zero]
  · -- The page itself is no word, and all bits are masked.
    have divides : 2 ^ 64 ∣ 2 ^ k := Nat.pow_dvd_pow 2 (Nat.not_lt.mp low)
    have page : BitVec.ofNat 64 (2 ^ k) = 0 := by
      apply BitVec.eq_of_toNat_eq
      rw [BitVec.toNat_ofNat, Nat.mod_eq_zero_of_dvd divides]
      rfl
    rw [pageCapacity, page]
    simp

/-- What a machine grants did not wrap around. -/
theorem isLeast_of_grant {machine : Machine} {taken : List BlockShape}
    (word : size < Word.modulus)
    (granted : machine.grant .pages taken (pageCapacity machine.pageSize size) = .ok ()) :
    IsLeast {n | 0 < n ∧ machine.pageSize ∣ n ∧ size ≤ n}
      (pageCapacity machine.pageSize size) := by
  obtain ⟨k, pages⟩ := machine.isPowerOfTwo_pageSize
  rw [pages] at granted ⊢
  rcases Nat.lt_or_ge (2 ^ 64) (max size 1 + 2 ^ k) with wraps | room
  · rw [pageCapacity_eq_zero word wraps] at granted
    exact absurd granted (machine.grant_no_pages taken)
  · exact isLeast_pageCapacity room

end BoundedMemory.Machine
