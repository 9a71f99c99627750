import BoundedMemory.RawMemory

/-!
Elements copied inside one memory, where the source and the target may overlap. A copy that
moves the whole range at once takes what was there before. One that reverses the elements
takes them first to last, and does not come upon its own writes unless the target begins
inside of the source, behind its first byte: each element is otherwise read as it was at the
start. Nothing outside of the target changes in any case, however the two overlap.
-/

namespace BoundedMemory

variable {memory bytes : Bytes} {source target width count : Nat}
  {sourceOrder targetOrder : ByteOrder}

/-- Whether elements that are written first to last never fall on one still to be read. -/
def Unread (source target size : Nat) : Prop :=
  target ≤ source ∨ source + size ≤ target

/-- With the first element written, the others are found where they were. -/
theorem chunks_splice_unread {new : Bytes} (unread : Unread source target (width * count + width))
    (room : target + width ≤ memory.length) (wide : new.length = width) :
    chunks width count ((splice memory target new).drop (source + width)) =
      chunks width count (memory.drop (source + width)) := by
  have apart : source + width + count * width ≤ target ∨
      target + new.length ≤ source + width := by
    rw [wide]
    rcases unread with before | behind
    · exact .inr (by omega)
    · exact .inl (by rw [Nat.mul_comm count]; omega)
  have same := cut_splice_disjoint (wide ▸ room) apart
  rw [← chunks_take, ← chunks_take width count (memory.drop _)]
  exact congrArg (chunks width count) same

theorem length_reverse_cut (there : source + width ≤ memory.length) :
    (cut memory source width).reverse.length = width := by
  rw [List.length_reverse, length_cut there]

theorem reverseElements_eq (unread : Unread source target (width * count))
    (there : source + width * count ≤ memory.length)
    (room : target + width * count ≤ memory.length) :
    reverseElements width count source target memory =
      splice memory target ((chunks width count (memory.drop source)).flatMap List.reverse) := by
  -- The memory is general, since the step leaves one in which an element is written already.
  induction count generalizing source target memory with
  | zero => exact (splice_nil memory target).symm
  | succ count ih =>
    rw [Nat.mul_succ] at unread there room
    have wide := length_reverse_cut (show source + width ≤ memory.length by omega)
    have fits : target + (cut memory source width).reverse.length ≤ memory.length := by omega
    have next : Unread (source + width) (target + width) (width * count) :=
      unread.imp (by omega) (by omega)
    have long := length_splice fits
    have joined (later : Bytes) :
        splice (splice memory target (cut memory source width).reverse) (target + width) later =
          splice memory target ((cut memory source width).reverse ++ later) := by
      have both := @splice_splice_append _ _ _ later _ fits
      rwa [wide] at both
    rw [reverseElements, ih next (by omega) (by omega),
      chunks_splice_unread unread (by omega) wide, joined, chunks, List.flatMap_cons,
      List.drop_drop]
    rfl

/-- However the ranges overlap, the copy keeps to its target. -/
theorem reverseElements_outside (there : source + width * count ≤ memory.length)
    (room : target + width * count ≤ memory.length) :
    (reverseElements width count source target memory).length = memory.length ∧
      ∀ i, i < target ∨ target + width * count ≤ i →
        (reverseElements width count source target memory)[i]? = memory[i]? := by
  induction count generalizing source target memory with
  | zero => exact ⟨rfl, fun _ _ => rfl⟩
  | succ count ih =>
    rw [Nat.mul_succ] at there room
    have wide := length_reverse_cut (show source + width ≤ memory.length by omega)
    have fits : target + (cut memory source width).reverse.length ≤ memory.length := by omega
    have long := length_splice fits
    obtain ⟨kept, same⟩ := @ih (splice memory target (cut memory source width).reverse)
      (source + width) (target + width) (by omega) (by omega)
    refine ⟨kept.trans long, fun i outside => ?_⟩
    rw [Nat.mul_succ] at outside
    rw [reverseElements, same i (by omega), getElem?_splice fits, if_neg (by omega)]

section Convert

variable {first second : ByteOrder}

theorem keepsBytes_eq_true_iff :
    keepsBytes width sourceOrder targetOrder = true ↔ sourceOrder = targetOrder ∨ width ≤ 1 := by
  simp only [keepsBytes, Bool.or_eq_true, decide_eq_true_eq]

theorem keepsBytes_comm (width : Nat) (first second : ByteOrder) :
    keepsBytes width first second = keepsBytes width second first := by
  unfold keepsBytes
  rw [decide_eq_decide.2 eq_comm]

theorem length_convert (sourceOrder targetOrder : ByteOrder)
    (exact : bytes.length = count * width) :
    (convert width count sourceOrder targetOrder bytes).length = count * width := by
  have turned : ((chunks width count bytes).flatMap List.reverse).length =
      (chunks width count bytes).flatten.length := by
    simp only [List.length_flatMap, List.length_flatten, List.length_reverse]
  unfold convert
  split
  · rw [List.length_take, exact, Nat.min_self]
  · rw [turned, flatten_chunks, List.length_take, exact, Nat.min_self]

/-- Elements that are turned over twice, or not at all, are what they were. -/
theorem convert_convert (exact : bytes.length = count * width)
    (alike : keepsBytes width first second = keepsBytes width sourceOrder targetOrder) :
    convert width count first second (convert width count sourceOrder targetOrder bytes) =
      bytes := by
  have elements := chunks_convert sourceOrder targetOrder (Nat.le_of_eq exact.symm)
  have whole : bytes.take (count * width) = bytes := by rw [← exact, List.take_length]
  rw [convert, alike]
  split
  case isTrue keeps =>
    rw [convert, if_pos keeps, whole, whole]
  case isFalse turned =>
    rw [if_neg turned] at elements
    rw [elements, List.flatMap_map]
    simp only [List.reverse_reverse]
    rw [List.flatMap_id', flatten_chunks, whole]

theorem cut_convert (exact : bytes.length = count * width)
    (turned : ¬ keepsBytes width sourceOrder targetOrder = true) {i : Nat} (inside : i < count) :
    cut (convert width count sourceOrder targetOrder bytes) (i * width) width =
      (cut bytes (i * width) width).reverse := by
  have elements := congrArg (fun parts => parts[i]?)
    (chunks_convert sourceOrder targetOrder (Nat.le_of_eq exact.symm))
  simp only [if_neg turned, List.getElem?_map, getElem?_chunks, if_pos inside] at elements
  exact Option.some.inj elements

end Convert

/-- A copy that reads nothing it has written puts the converted source over the target. -/
theorem copyElements_eq
    (unread : keepsBytes width sourceOrder targetOrder = true ∨
      Unread source target (width * count))
    (there : source + width * count ≤ memory.length)
    (room : target + width * count ≤ memory.length) :
    copyElements memory source target width count sourceOrder targetOrder =
      splice memory target
        (convert width count sourceOrder targetOrder (cut memory source (width * count))) := by
  unfold copyElements convert
  split
  case isTrue =>
    rw [Nat.mul_comm count, List.take_of_length_le (Nat.le_of_eq (length_cut there))]
  case isFalse turned =>
    rw [reverseElements_eq (unread.resolve_left turned) there room]
    unfold cut
    rw [Nat.mul_comm width, chunks_take]

theorem copyElements_outside (there : source + width * count ≤ memory.length)
    (room : target + width * count ≤ memory.length) (sourceOrder targetOrder : ByteOrder) :
    (copyElements memory source target width count sourceOrder targetOrder).length =
        memory.length ∧
      ∀ i, i < target ∨ target + width * count ≤ i →
        (copyElements memory source target width count sourceOrder targetOrder)[i]? =
          memory[i]? := by
  unfold copyElements
  split
  · have long := length_cut there
    refine ⟨length_splice (by omega), fun i outside => ?_⟩
    rw [getElem?_splice (by omega), if_neg (by omega)]
  · exact reverseElements_outside there room

/-- What the target holds after a copy that reads nothing it has written. -/
theorem cut_copyElements
    (unread : keepsBytes width sourceOrder targetOrder = true ∨
      Unread source target (width * count))
    (there : source + width * count ≤ memory.length)
    (room : target + width * count ≤ memory.length) :
    cut (copyElements memory source target width count sourceOrder targetOrder) target
        (width * count) =
      convert width count sourceOrder targetOrder (cut memory source (width * count)) := by
  have exact := (length_cut there).trans (Nat.mul_comm width count)
  have long := (length_convert sourceOrder targetOrder exact).trans (Nat.mul_comm count width)
  rw [copyElements_eq unread there room]
  have same := cut_splice_same (long ▸ room)
  rwa [long] at same

theorem copyElements_twice (inside : source + width * count ≤ memory.length)
    (sourceOrder targetOrder : ByteOrder) :
    copyElements (copyElements memory source source width count sourceOrder targetOrder)
      source source width count sourceOrder targetOrder = memory := by
  have unread : keepsBytes width sourceOrder targetOrder = true ∨
      Unread source source (width * count) := .inr (.inl (Nat.le_refl source))
  have size := length_cut inside
  have exact := size.trans (Nat.mul_comm width count)
  have long := (copyElements_outside inside inside sourceOrder targetOrder).1
  have converted := (length_convert sourceOrder targetOrder exact).trans (Nat.mul_comm count width)
  rw [copyElements_eq unread (long ▸ inside) (long ▸ inside),
    cut_copyElements unread inside inside, convert_convert exact rfl,
    copyElements_eq unread inside inside,
    splice_splice_same (by omega) (by omega), splice_cut inside]

namespace RawMemory

/-- The memory after `count` elements were copied inside of it. -/
structure Copied (memory : Bytes) (source target width count : Nat)
    (sourceOrder targetOrder : ByteOrder) (after : Bytes) : Prop where
  length : after.length = memory.length
  /-- No byte outside of the target changes. -/
  outside : ∀ i, i < target ∨ target + width * count ≤ i → after[i]? = memory[i]?
  /-- With nothing to reverse, the target holds what the source held. -/
  moved : sourceOrder = targetOrder ∨ width ≤ 1 →
    cut after target (width * count) = cut memory source (width * count)
  /-- Otherwise it holds the elements of the source with their bytes reversed, each as it was
  before the first was written. -/
  reversed : sourceOrder ≠ targetOrder → 2 ≤ width → Unread source target (width * count) →
    ∀ i < count, cut after (target + i * width) width =
      (cut memory (source + i * width) width).reverse
  /-- In place, the same copy once more undoes the first. -/
  twice : source = target →
    copy? after source source width count sourceOrder targetOrder = some memory
  /-- Copied back from a target apart from it, whatever else has become of the memory, the
  source is what it was. -/
  restored : source + width * count ≤ target ∨ target + width * count ≤ source →
    ∀ between : Bytes, between.length = memory.length →
      cut between target (width * count) = cut after target (width * count) →
      ∃ back, copy? between target source width count targetOrder sourceOrder = some back ∧
        cut back source (width * count) = cut memory source (width * count)

/-- Copying elements inside one memory, for all ways in which the two ranges may overlap. -/
theorem copies_elements (narrow : width ≤ widestElement)
    (there : source + width * count ≤ memory.length)
    (room : target + width * count ≤ memory.length) (sourceOrder targetOrder : ByteOrder) :
    ∃ after, copy? memory source target width count sourceOrder targetOrder = some after ∧
      Copied memory source target width count sourceOrder targetOrder after := by
  obtain ⟨long, outside⟩ := copyElements_outside there room sourceOrder targetOrder
  have exact := (length_cut there).trans (Nat.mul_comm width count)
  refine ⟨_, if_pos ⟨narrow, there, room⟩, long, outside, ?moved, ?reversed, ?twice, ?restored⟩
  case moved =>
    intro keeps
    rw [← keepsBytes_eq_true_iff] at keeps
    rw [cut_copyElements (.inl keeps) there room, convert, if_pos keeps, ← exact, List.take_length]
  case reversed =>
    intro differ wide unread i inside
    have turned : ¬ keepsBytes width sourceOrder targetOrder = true := by
      rw [keepsBytes_eq_true_iff]
      exact fun keeps => keeps.elim differ (by omega)
    have within : i * width + width ≤ width * count := by
      rw [← Nat.succ_mul, Nat.mul_comm width]
      exact Nat.mul_le_mul_right width inside
    rw [← cut_cut within, cut_copyElements (.inr unread) there room,
      cut_convert exact turned inside, cut_cut within]
  case twice =>
    rintro rfl
    exact (if_pos ⟨narrow, long ▸ there, long ▸ there⟩).trans
      (congrArg some (copyElements_twice there sourceOrder targetOrder))
  case restored =>
    intro apart between size same
    have unread : Unread source target (width * count) := apart.symm.imp (by omega) id
    have unreadBack : Unread target source (width * count) := apart.imp (by omega) id
    refine ⟨_, if_pos ⟨narrow, size ▸ room, size ▸ there⟩, ?_⟩
    rw [cut_copyElements (.inr unreadBack) (size ▸ room) (size ▸ there), same,
      cut_copyElements (.inr unread) there room,
      convert_convert exact (keepsBytes_comm width targetOrder sourceOrder)]

/-- Three odd elements moved down by two bytes, over part of where they came from. -/
theorem copies_elements_overlapping :
    copy? (Bytes.sequential 12) 3 1 3 3 .bigEndian .littleEndian =
        some [0, 5, 4, 3, 8, 7, 6, 11, 10, 9, 10, 11] ∧
      Copied (Bytes.sequential 12) 3 1 3 3 .bigEndian .littleEndian
        [0, 5, 4, 3, 8, 7, 6, 11, 10, 9, 10, 11] := by
  obtain ⟨after, run, copied⟩ :=
    @copies_elements (Bytes.sequential 12) 3 1 3 3 (by decide) (by decide) (by decide) .bigEndian
      .littleEndian
  have told : copy? (Bytes.sequential 12) 3 1 3 3 .bigEndian .littleEndian =
      some [0, 5, 4, 3, 8, 7, 6, 11, 10, 9, 10, 11] := by decide
  cases told.symm.trans run
  exact ⟨told, copied⟩

/-- Upwards by less than the source is long, the second element is read when the first is
written over it already. -/
example : copy? (Bytes.sequential 6) 0 1 2 2 .bigEndian .littleEndian = some [0, 1, 0, 3, 0, 5] :=
  by decide

end RawMemory

end BoundedMemory
