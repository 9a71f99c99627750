/-!
Byte strings, and the three ways in which memory is cut up: a range read out of
a string, a range written over in place, and a string split into elements of
one width. The main facts are that writing over a range keeps the length, reads
back what was written, and leaves every disjoint range as it was, and that
splitting into elements and putting them together undo each other.
-/

namespace BoundedMemory

/-- The contents of a stretch of memory, first byte first. -/
abbrev Bytes := List UInt8

variable {α : Type}

/-- The `n` entries of `xs` from `start` on, fewer where `xs` ends sooner. -/
def cut (xs : List α) (start n : Nat) : List α :=
  (xs.drop start).take n

/-- `xs` with the entries from `start` on replaced by `ys`. -/
def splice (xs : List α) (start : Nat) (ys : List α) : List α :=
  xs.take start ++ ys ++ xs.drop (start + ys.length)

/-- The `n` entries from `start` on, only where all of them exist. -/
def cut? (xs : List α) (start n : Nat) : Option (List α) :=
  if start + n ≤ xs.length then some (cut xs start n) else none

/-- `xs` with `ys` written at `start`, only where the whole range exists. -/
def splice? (xs : List α) (start : Nat) (ys : List α) : Option (List α) :=
  if start + ys.length ≤ xs.length then some (splice xs start ys) else none

/-- The first `count` elements of `width` entries each. -/
def chunks (width : Nat) : Nat → List α → List (List α)
  | 0, _ => []
  | count + 1, xs => xs.take width :: chunks width count (xs.drop width)

/-- The bytes 0, 1, 2 and so on, starting over after 255. -/
def Bytes.sequential (n : Nat) : Bytes := (List.range n).map UInt8.ofNat

theorem length_cut {xs : List α} {start n : Nat} (h : start + n ≤ xs.length) :
    (cut xs start n).length = n := by
  simp only [cut, List.length_take, List.length_drop]
  omega

@[simp] theorem cut_zero (xs : List α) (start : Nat) : cut xs start 0 = [] := by
  simp [cut]

@[simp] theorem cut_all (xs : List α) : cut xs 0 xs.length = xs := by
  simp [cut]

theorem getElem?_cut (xs : List α) (start n i : Nat) :
    (cut xs start n)[i]? = if i < n then xs[start + i]? else none := by
  simp [cut, List.getElem?_take, List.getElem?_drop]

theorem cut_add (xs : List α) (start m n : Nat) :
    cut xs start (m + n) = cut xs start m ++ cut xs (start + m) n := by
  simp [cut, List.take_add, List.drop_drop]

theorem cut_cut {xs : List α} {start n inner m : Nat} (h : inner + m ≤ n) :
    cut (cut xs start n) inner m = cut xs (start + inner) m := by
  simp only [cut, List.drop_take, List.take_take, List.drop_drop]
  congr 1
  omega

theorem length_splice {xs ys : List α} {start : Nat} (h : start + ys.length ≤ xs.length) :
    (splice xs start ys).length = xs.length := by
  simp only [splice, List.length_append, List.length_take, List.length_drop]
  omega

theorem getElem?_splice {xs ys : List α} {start : Nat} (h : start + ys.length ≤ xs.length)
    (i : Nat) :
    (splice xs start ys)[i]? =
      if start ≤ i ∧ i < start + ys.length then ys[i - start]? else xs[i]? := by
  have hs : min start xs.length = start := by omega
  by_cases below : i < start
  · have hn : ¬ (start ≤ i ∧ i < start + ys.length) := by omega
    simp only [splice, List.append_assoc, hn, if_false]
    rw [List.getElem?_append_left (by simp; omega), List.getElem?_take, if_pos below]
  · by_cases inside : i < start + ys.length
    · rw [if_pos ⟨by omega, inside⟩]
      simp only [splice, List.append_assoc]
      rw [List.getElem?_append_right (by simp; omega),
        List.getElem?_append_left (by simp; omega)]
      simp [hs]
    · rw [if_neg (by omega)]
      simp only [splice]
      rw [List.getElem?_append_right (by simp; omega), List.getElem?_drop]
      congr 1
      simp only [List.length_append, List.length_take]
      omega

/-- What was written is read back. -/
theorem cut_splice_same {xs ys : List α} {start : Nat} (h : start + ys.length ≤ xs.length) :
    cut (splice xs start ys) start ys.length = ys := by
  have hs : min start xs.length = start := by omega
  simp only [cut, splice, List.append_assoc]
  rw [List.drop_append_of_le_length (by simp; omega)]
  simp

/-- A range that the write does not meet keeps its contents. -/
theorem cut_splice_disjoint {xs ys : List α} {start first n : Nat}
    (h : start + ys.length ≤ xs.length)
    (apart : first + n ≤ start ∨ start + ys.length ≤ first) :
    cut (splice xs start ys) first n = cut xs first n := by
  apply List.ext_getElem?
  intro i
  rw [getElem?_cut, getElem?_cut]
  split
  · rw [getElem?_splice h, if_neg (by omega)]
  · rfl

/-- What is written right behind something else could have been written together with it. -/
theorem splice_splice_append {bytes xs ys : List α} {start : Nat}
    (fits : start + xs.length ≤ bytes.length) :
    splice (splice bytes start xs) (start + xs.length) ys = splice bytes start (xs ++ ys) := by
  have front : (bytes.take start ++ xs).length = start + xs.length := by
    simp only [List.length_append, List.length_take]
    omega
  unfold splice
  rw [← front, List.take_left, List.drop_append, List.drop_eq_nil_of_le (by omega), List.nil_append,
    front, Nat.add_sub_cancel_left, List.drop_drop, List.length_append]
  simp only [List.append_assoc, Nat.add_assoc]

/-- Writing what is there already changes nothing. -/
theorem splice_cut {bytes : List α} {start n : Nat} (fits : start + n ≤ bytes.length) :
    splice bytes start (cut bytes start n) = bytes := by
  unfold splice
  rw [length_cut fits]
  unfold cut
  rw [List.append_assoc, ← List.drop_drop, List.take_append_drop, List.take_append_drop]

/-- Behind what was written everything is as it was. -/
theorem drop_splice {bytes ys : List α} {start : Nat} (fits : start + ys.length ≤ bytes.length) :
    (splice bytes start ys).drop (start + ys.length) = bytes.drop (start + ys.length) := by
  have front : (bytes.take start ++ ys).length = start + ys.length := by
    simp only [List.length_append, List.length_take]
    omega
  unfold splice
  rw [← front, List.drop_left]

/-- Of two writes over the same range only the second is left. -/
theorem splice_splice_same {bytes xs ys : List α} {start : Nat}
    (fits : start + xs.length ≤ bytes.length) (alike : ys.length = xs.length) :
    splice (splice bytes start xs) start ys = splice bytes start ys := by
  have front : (bytes.take start).length = start := by
    rw [List.length_take]
    omega
  have kept : (splice bytes start xs).take start = bytes.take start := by
    unfold splice
    rw [List.append_assoc]
    exact List.take_left' front
  have behind := drop_splice fits
  rw [← alike] at behind
  rw [splice, kept, behind, splice]

@[simp] theorem splice_nil (xs : List α) (start : Nat) : splice xs start [] = xs := by
  simp [splice]

@[simp] theorem length_chunks (width count : Nat) (xs : List α) :
    (chunks width count xs).length = count := by
  induction count generalizing xs with
  | zero => rfl
  | succ count ih => simp [chunks, ih]

/-- Splitting loses nothing: the elements put together are the range they cover. -/
theorem flatten_chunks (width count : Nat) (xs : List α) :
    (chunks width count xs).flatten = xs.take (count * width) := by
  induction count generalizing xs with
  | zero => simp [chunks]
  | succ count ih =>
    rw [chunks, List.flatten_cons, ih, Nat.succ_mul, Nat.add_comm, List.take_add]

theorem chunks_one (xs : List α) : chunks 1 xs.length xs = xs.map ([·]) := by
  induction xs with
  | nil => rfl
  | cons x xs ih => exact congrArg ([x] :: ·) ih

theorem length_of_mem_chunks {width count : Nat} {xs part : List α}
    (h : count * width ≤ xs.length) (member : part ∈ chunks width count xs) :
    part.length = width := by
  induction count generalizing xs with
  | zero => simp [chunks] at member
  | succ count ih =>
    rw [Nat.succ_mul] at h
    rcases List.mem_cons.mp member with rfl | later
    · simp only [List.length_take]
      omega
    · exact ih (by simp only [List.length_drop]; omega) later

/-- Element `i` is the `i`-th stretch of `width` entries. -/
theorem getElem?_chunks (width count i : Nat) (xs : List α) :
    (chunks width count xs)[i]? = if i < count then some (cut xs (i * width) width) else none := by
  induction count generalizing i xs with
  | zero => simp [chunks]
  | succ count ih =>
    cases i with
    | zero => simp [chunks, cut]
    | succ i =>
      simp only [chunks, List.getElem?_cons_succ, ih, Nat.add_lt_add_iff_right]
      congr 2
      simp only [cut, List.drop_drop, Nat.succ_mul]
      congr 2
      omega

theorem chunks_take (width count : Nat) (xs : List α) :
    chunks width count (xs.take (count * width)) = chunks width count xs := by
  induction count generalizing xs with
  | zero => rfl
  | succ count ih =>
    have first : min width (count * width + width) = width := by omega
    have rest : count * width + width - width = count * width := by omega
    rw [chunks, chunks, List.take_take, List.drop_take, Nat.succ_mul, first, rest, ih]

/-- Elements that were put together are found again. -/
theorem chunks_flatten {width : Nat} {parts : List (List α)}
    (h : ∀ part ∈ parts, part.length = width) :
    chunks width parts.length parts.flatten = parts := by
  induction parts with
  | nil => rfl
  | cons part parts ih =>
    have hp : part.length = width := h part List.mem_cons_self
    rw [List.length_cons, chunks, List.flatten_cons, ← hp, List.take_left, List.drop_left, hp,
      ih fun other later => h other (List.mem_cons_of_mem _ later)]

end BoundedMemory
