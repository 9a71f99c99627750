import BoundedMemory.Bytes
import BoundedMemory.ByteOrder

/-!
Runs of equally wide elements whose byte order changes on the way. `convert`
says what becomes of the elements; `copyElements` is the copy inside one memory
whose source and target may overlap: with nothing to reverse it moves the whole
range at once, otherwise it takes the elements first to last and reads each one
from the memory as it then is. `copyElementsTo` is that same copy between two
memories that lie apart.
-/

namespace BoundedMemory

/-- Whether elements pass from one order to the other unchanged. -/
def keepsBytes (width : Nat) (source target : ByteOrder) : Bool :=
  source = target || width ≤ 1

/-- `count` elements taken from one order to the other. -/
def convert (width count : Nat) (source target : ByteOrder) (bytes : Bytes) : Bytes :=
  if keepsBytes width source target then bytes.take (count * width)
  else (chunks width count bytes).flatMap List.reverse

/-- Reverses `count` elements one at a time from `source` to `target`. -/
def reverseElements (width : Nat) : (count source target : Nat) → Bytes → Bytes
  | 0, _, _, memory => memory
  | count + 1, source, target, memory =>
      reverseElements width count (source + width) (target + width)
        (splice memory target (cut memory source width).reverse)

/-- Copies `count` elements from `source` to `target` inside `memory`. -/
def copyElements (memory : Bytes) (source target width count : Nat)
    (sourceOrder targetOrder : ByteOrder) : Bytes :=
  if keepsBytes width sourceOrder targetOrder then
    splice memory target (cut memory source (width * count))
  else reverseElements width count source target memory

/-- Reverses `count` elements one at a time from the start of `source` to that of `target`. -/
def reverseElementsTo (width : Nat) : (count : Nat) → (source target : Bytes) → Bytes
  | 0, _, target => target
  | count + 1, source, target =>
      (source.take width).reverse ++
        reverseElementsTo width count (source.drop width) (target.drop width)

/-- Copies `count` elements from the start of `source` to that of `target`. -/
def copyElementsTo (source target : Bytes) (width count : Nat)
    (sourceOrder targetOrder : ByteOrder) : Bytes :=
  if keepsBytes width sourceOrder targetOrder then splice target 0 (source.take (width * count))
  else reverseElementsTo width count source target

section Apart

variable {width count : Nat} {source target : Bytes}

/-- Only the elements that are copied are looked at. -/
theorem reverseElementsTo_append (there : width * count ≤ source.length) (rest : Bytes) :
    reverseElementsTo width count (source ++ rest) target =
      reverseElementsTo width count source target := by
  induction count generalizing source target with
  | zero => rfl
  | succ count ih =>
    rw [Nat.mul_succ] at there
    have next : width * count ≤ (source.drop width).length := by
      rw [List.length_drop]
      omega
    rw [reverseElementsTo, reverseElementsTo, List.take_append_of_le_length (by omega),
      List.drop_append_of_le_length (by omega), ih next]

/-- The loop over one memory, in which what was written so far lies behind the source. -/
theorem reverseElements_append {start : Nat} (there : start + width * count ≤ source.length)
    (room : width * count ≤ target.length) :
    reverseElements width count start source.length (source ++ target) =
      source ++ reverseElementsTo width count (source.drop start) target := by
  induction count generalizing start source target with
  | zero => rfl
  | succ count ih =>
    rw [Nat.mul_succ] at there room
    have element : cut (source ++ target) start width = (source.drop start).take width := by
      rw [cut, List.drop_append_of_le_length (by omega),
        List.take_append_of_le_length (by rw [List.length_drop]; omega)]
    generalize taken : ((source.drop start).take width).reverse = new
    have wide : new.length = width := by
      rw [← taken, List.length_reverse, List.length_take, List.length_drop]
      omega
    have written : splice (source ++ target) source.length new =
        (source ++ new) ++ target.drop width := by
      rw [splice, List.take_left, wide, List.drop_append]
      simp
    have left : (source ++ new).drop (start + width) = (source.drop start).drop width ++ new := by
      rw [List.drop_append_of_le_length (by omega), List.drop_drop]
    have later := @ih (source ++ new) (target.drop width) (start + width)
      (by rw [List.length_append]; omega) (by rw [List.length_drop]; omega)
    rw [List.length_append, wide, left, reverseElementsTo_append] at later
    · rw [reverseElements, element, taken, written, later, reverseElementsTo, taken,
        List.append_assoc]
    · rw [List.length_drop, List.length_drop]
      omega

/-- Two memories that lie apart may as well be one, with the target behind the source. -/
theorem copyElements_append (there : width * count ≤ source.length)
    (room : width * count ≤ target.length) (sourceOrder targetOrder : ByteOrder) :
    copyElements (source ++ target) 0 source.length width count sourceOrder targetOrder =
      source ++ copyElementsTo source target width count sourceOrder targetOrder := by
  unfold copyElements copyElementsTo
  split
  · rw [cut, List.drop_zero, List.take_append_of_le_length there, splice, splice, List.take_left,
      List.take_zero, List.nil_append, List.drop_append, List.append_assoc]
    simp
  · exact reverseElements_append (by omega) room

/-- The elements reversed come first, and what they do not reach is left. -/
theorem reverseElementsTo_eq (width count : Nat) (source target : Bytes) :
    reverseElementsTo width count source target =
      (chunks width count source).flatMap List.reverse ++ target.drop (width * count) := by
  induction count generalizing source target with
  | zero => rfl
  | succ count ih =>
    rw [reverseElementsTo, ih, chunks, List.flatMap_cons, List.drop_drop, List.append_assoc,
      Nat.mul_succ, Nat.add_comm width]

/-- A copy that fills its target leaves there what becomes of the elements. -/
theorem copyElementsTo_eq (exact : source.length = count * width)
    (filled : target.length = count * width) (sourceOrder targetOrder : ByteOrder) :
    copyElementsTo source target width count sourceOrder targetOrder =
      convert width count sourceOrder targetOrder source := by
  have behind : target.drop (width * count) = [] :=
    List.drop_eq_nil_of_le (Nat.le_of_eq (filled.trans (Nat.mul_comm count width)))
  unfold copyElementsTo convert
  split
  · have whole : (source.take (count * width)).length = target.length := by
      rw [← exact, List.take_length, exact, filled]
    rw [Nat.mul_comm width, splice, whole, Nat.zero_add, List.drop_length, List.take_zero,
      List.nil_append, List.append_nil]
  · rw [reverseElementsTo_eq, behind, List.append_nil]

end Apart

/-- What becomes of the single elements. -/
theorem chunks_convert {width count : Nat} (source target : ByteOrder) {bytes : Bytes}
    (h : count * width ≤ bytes.length) :
    chunks width count (convert width count source target bytes) =
      if keepsBytes width source target then chunks width count bytes
      else (chunks width count bytes).map List.reverse := by
  unfold convert
  split
  · exact chunks_take width count bytes
  · rw [List.flatMap_def]
    conv => lhs; arg 2; rw [← length_chunks width count bytes, ← List.length_map List.reverse]
    apply chunks_flatten
    intro part member
    obtain ⟨whole, inside, rfl⟩ := List.mem_map.mp member
    rw [List.length_reverse, length_of_mem_chunks h inside]

end BoundedMemory
