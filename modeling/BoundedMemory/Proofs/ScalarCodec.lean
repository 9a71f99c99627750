import BoundedMemory.Scalar.Native

/-!
The codec of scalars as a whole. In either order it is a one-to-one correspondence between
the values of a type and the byte strings of its width, and between lists of values and the
byte strings that they fill. The two orders differ by a reversal, of the bytes or of the
value, and byte `i` of the little-endian code is the bits from `8 * i` on; so no payload of
a NaN and no sign is lost on the way. What is said of the machine's own bytes, and of taking
values to an order and swapping them, is about a little-endian machine.
-/

namespace BoundedMemory

/-- Digit `i` is what remains when `i` digits are shifted out. -/
theorem getElem?_littleDigits (n x i : Nat) :
    (littleDigits n x)[i]? = if i < n then some (UInt8.ofNat (x >>> (8 * i))) else none := by
  induction n generalizing x i with
  | zero => rfl
  | succ n ih =>
    cases i with
    | zero => exact congrArg some (UInt8.toNat_inj.1 (by simp))
    | succ i =>
      have shifted : (x / 256) >>> (8 * i) = x >>> (8 * (i + 1)) := by
        rw [Nat.mul_succ, Nat.add_comm, Nat.shiftRight_add, Nat.shiftRight_eq_div_pow x 8]
      rw [littleDigits, List.getElem?_cons_succ, ih, shifted]
      simp only [Nat.add_lt_add_iff_right]

namespace Scalar

variable {t : ScalarType} {order : ByteOrder}

theorem getElem?_encode_littleEndian (v : Scalar t) (i : Nat) :
    (v.encode .littleEndian)[i]? =
      if i < t.width then some (UInt8.ofBitVec (v.extractLsb' (8 * i) 8)) else none := by
  rw [encode_eq]
  exact getElem?_littleDigits t.width v.toNat i

theorem encode_opposite (order : ByteOrder) (v : Scalar t) :
    v.encode order.opposite = (v.encode order).reverse := by
  cases order with
  | littleEndian => exact encode_bigEndian v
  | bigEndian => exact (List.reverse_eq_iff.2 (encode_bigEndian v)).symm

/-- A value takes the first bytes of where it is written, and no others. -/
theorem encodeInto?_eq (order : ByteOrder) (v : Scalar t) (target : Bytes) :
    v.encodeInto? order target =
      if t.width ≤ target.length then some (v.encode order ++ target.drop t.width) else none := by
  rw [encodeInto?_eq_splice?, splice?, splice, length_encode, Nat.zero_add, List.take_zero,
    List.nil_append]

section Lists

variable {n : Nat} {vs : List (Scalar t)} {bytes : Bytes}

/-- Values laid out one behind the other are found again, each with all of its bits. -/
theorem decode_encodeAll (order : ByteOrder) (vs : List (Scalar t)) :
    (chunks t.width vs.length (encodeAll order vs)).map (decode t order) = vs := by
  have wide : ∀ part ∈ vs.map (encode order), part.length = t.width := by
    intro part member
    obtain ⟨v, -, rfl⟩ := List.mem_map.mp member
    exact length_encode order v
  have split := chunks_flatten wide
  rw [List.length_map, ← List.flatMap_def] at split
  unfold encodeAll
  rw [split, List.map_map]
  calc vs.map (decode t order ∘ encode order) = vs.map id :=
        List.map_congr_left fun v _ => decode_encode order v
    _ = vs := List.map_id vs

/-- The elements of a string that the type's width divides, written again, are the string. -/
theorem encodeAll_decode (exact : bytes.length = n * t.width) :
    encodeAll order ((chunks t.width n bytes).map (decode t order)) = bytes := by
  have back : ∀ part ∈ chunks t.width n bytes, (decode t order part).encode order = part :=
    fun part member =>
      encode_decode order (length_of_mem_chunks (Nat.le_of_eq exact.symm) member)
  unfold encodeAll
  rw [List.flatMap_map, List.flatMap_def, List.map_congr_left back, List.map_id',
    flatten_chunks, ← exact, List.take_length]

theorem decodeAll?_eq_some_iff :
    decodeAll? t order n bytes = some vs ↔ vs.length = n ∧ encodeAll order vs = bytes := by
  rw [decodeAll?_eq]
  constructor
  · intro decoded
    split at decoded
    case isTrue exact =>
      cases decoded
      exact ⟨by rw [List.length_map, length_chunks], encodeAll_decode exact⟩
    case isFalse => cases decoded
  · rintro ⟨rfl, rfl⟩
    rw [if_pos (length_encodeAll order vs), decode_encodeAll]

/-- Element by element, the values of a string are those of its stretches. -/
theorem decodeAll?_each (exact : bytes.length = n * t.width) :
    ∃ vs, decodeAll? t order n bytes = some vs ∧ vs.length = n ∧
      ∀ i < n, vs[i]? = some (decode t order (cut bytes (i * t.width) t.width)) := by
  refine ⟨_, (decodeAll?_eq order n bytes).trans (if_pos exact),
    by rw [List.length_map, length_chunks], fun i inside => ?_⟩
  rw [List.getElem?_map, getElem?_chunks, if_pos inside, Option.map_some]

end Lists

section Bytes

/-- A single byte is its own code, in either order. -/
theorem encode_ofByte (b : UInt8) (order : ByteOrder) : (ofByte b).encode order = [b] := rfl

theorem decode_byte (b : UInt8) (order : ByteOrder) : decode .u8 order [b] = ofByte b := by
  rw [← encode_ofByte b order, decode_encode]

theorem encodeAll_map_ofByte (order : ByteOrder) (bytes : Bytes) :
    encodeAll order (bytes.map ofByte) = bytes := by
  simp only [encodeAll, List.flatMap_map, encode_ofByte, List.flatMap_singleton']

theorem map_toByte_chunks (order : ByteOrder) (bytes : Bytes) :
    ((chunks 1 bytes.length bytes).map (decode .u8 order)).map toByte = bytes := by
  have back := decode_encodeAll order (bytes.map ofByte)
  rw [encodeAll_map_ofByte, List.length_map] at back
  rw [show (1 : Nat) = ScalarType.u8.width from rfl, back, List.map_map]
  exact List.map_id bytes

end Bytes

/-- What is known of the codec of one type in one order. -/
structure CodecLaws (t : ScalarType) (order : ByteOrder) : Prop where
  /-- Every bit pattern is read back as it was written, -/
  decoded : ∀ v : Scalar t, decode t order (v.encode order) = v
  /-- and every string of the type's width is the code of what it is read as. -/
  encoded : ∀ bytes : Bytes, bytes.length = t.width → (decode t order bytes).encode order = bytes
  length : ∀ v : Scalar t, (v.encode order).length = t.width
  /-- In the little-endian code the low bits come first. -/
  bits : ∀ (v : Scalar t) (i : Nat), (v.encode .littleEndian)[i]? =
    if i < t.width then some (UInt8.ofBitVec (v.extractLsb' (8 * i) 8)) else none
  reversed : ∀ v : Scalar t, v.encode order.opposite = (v.encode order).reverse
  /-- Reading in the wrong order is swapping. -/
  swapped : ∀ v : Scalar t, decode t order.opposite (v.encode order) = v.swapBytes
  swappedTwice : ∀ v : Scalar t, v.swapBytes.swapBytes = v
  orderedTwice : ∀ v : Scalar t, (v.toOrder order).toOrder order = v
  /-- The bytes that a little-endian machine has of the value taken to an order are its code in
  that order. -/
  native : ∀ v : Scalar t, v.encode order = (v.toOrder order).toNative
  /-- The code replaces the first bytes of a longer string and leaves the rest. -/
  into : ∀ (v : Scalar t) (target : Bytes), v.encodeInto? order target =
    if t.width ≤ target.length then some (v.encode order ++ target.drop t.width) else none
  /-- A list is written as its codes one behind the other, over a string of just this length. -/
  list : ∀ (vs : List (Scalar t)) (target : Bytes), encodeOver? order vs target =
    if target.length = vs.length * t.width then some (vs.map (encode order)).flatten else none
  /-- Reading a string as `n` values undoes writing `n` values, -/
  inverse : ∀ (n : Nat) (bytes : Bytes) (vs : List (Scalar t)),
    decodeAll? t order n bytes = some vs ↔
      vs.length = n ∧ encodeOver? order vs bytes = some bytes
  /-- and a string of the right length is read stretch by stretch. -/
  each : ∀ (n : Nat) (bytes : Bytes), bytes.length = n * t.width →
    ∃ vs, decodeAll? t order n bytes = some vs ∧ vs.length = n ∧
      ∀ i < n, vs[i]? = some (decode t order (cut bytes (i * t.width) t.width))

theorem codec_laws (t : ScalarType) (order : ByteOrder) : CodecLaws t order where
  decoded := decode_encode order
  encoded _ wide := encode_decode order wide
  length := length_encode order
  bits := getElem?_encode_littleEndian
  reversed := encode_opposite order
  swapped v := (swapBytes_eq order v).symm
  swappedTwice := swapBytes_swapBytes
  orderedTwice := toOrder_toOrder order
  native v := (toNative_toOrder order v).symm
  into := encodeInto?_eq order
  list vs target := by rw [encodeOver?_eq, encodeAll, List.flatMap_def]
  inverse n bytes vs := by
    rw [decodeAll?_eq_some_iff, encodeOver?_eq]
    constructor
    · rintro ⟨rfl, rfl⟩
      exact ⟨rfl, if_pos (length_encodeAll order vs)⟩
    · rintro ⟨counted, written⟩
      split at written
      case isTrue => exact ⟨counted, Option.some.inj written⟩
      case isFalse => cases written
  each _ _ exact := decodeAll?_each exact

/-- The payload and the sign of a NaN are kept, and shown by the bytes. -/
example : encode (t := .f32) .bigEndian 0xffa1b2c3#32 = [0xff, 0xa1, 0xb2, 0xc3] := by decide

end Scalar

end BoundedMemory
