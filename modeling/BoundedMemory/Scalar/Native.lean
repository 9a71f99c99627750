import BoundedMemory.Scalar.Codec

/-!
Scalars moved at the width of the machine, which is little-endian. A value is read
and written in the order of the machine, and its bytes are reversed as a number
where another order is asked for. The main facts are that both moves agree with the
codec, byte for byte, in either order.
-/

namespace BoundedMemory

/-- A number of `n` digits with its digits the other way round. -/
def reverseDigits : Nat → Nat → Nat
  | 0, _ => 0
  | n + 1, x => (x % 256) <<< (8 * n) + reverseDigits n (x / 256)

namespace Scalar

variable {t : ScalarType}

/-- A number with its digits the other way round. -/
def swapDigits (v : Scalar t) : Scalar t :=
  BitVec.ofNat _ (reverseDigits t.width v.toNat)

/-- The value whose bytes are those of `v` reversed. A single byte is left alone. -/
def swapBytes (v : Scalar t) : Scalar t :=
  match t, v with
  | .u8, v | .i8, v => v
  | _, v => v.swapDigits

/-- A value of the machine's order taken to `order`, or back. -/
def toOrder (order : ByteOrder) (v : Scalar t) : Scalar t :=
  if order.isNative then v else v.swapBytes

/-- The value that the machine finds in the bytes of one scalar. -/
def ofNative (t : ScalarType) (bytes : Bytes) : Scalar t := decode t .native bytes

/-- The bytes that the machine keeps for a value. -/
def toNative (v : Scalar t) : Bytes := v.encode .native

end Scalar

/-- Reversing the digits of a number is reading them from the wrong end. -/
theorem reverseDigits_eq (n x : Nat) : reverseDigits n x = ofBigDigits (littleDigits n x) := by
  induction n generalizing x with
  | zero => rfl
  | succ n ih =>
    have h : x % 256 % 2 ^ 8 = x % 256 := Nat.mod_eq_of_lt (Nat.mod_lt _ (by decide))
    have digit : ofLittleDigits [UInt8.ofNat (x % 256)] = x % 256 := by
      simp [ofLittleDigits]
    rw [reverseDigits, ih, ofBigDigits_eq, ofBigDigits_eq, littleDigits, List.reverse_cons,
      ofLittleDigits_append, digit, List.length_reverse, length_littleDigits, Nat.add_comm]

namespace Scalar

variable {t : ScalarType}

/-- A single byte has one digit, which stays where it is. -/
theorem swapBytes_eq_swapDigits (v : Scalar t) : v.swapBytes = v.swapDigits := by
  have byte (v : BitVec 8) : v = BitVec.ofNat 8 (reverseDigits 1 v.toNat) := by
    have whole : v.toNat % 256 = v.toNat := Nat.mod_eq_of_lt v.isLt
    simp [reverseDigits, whole]
  cases t with
  | u8 | i8 => exact byte v
  | _ => rfl

/-- Swapping is writing in one order and reading in the other. -/
theorem swapBytes_eq (order : ByteOrder) (v : Scalar t) :
    v.swapBytes = decode t order.opposite (v.encode order) := by
  have little : v.swapBytes = decode t .bigEndian (v.encode .littleEndian) := by
    rw [swapBytes_eq_swapDigits, swapDigits, reverseDigits_eq, decode_eq _ (length_encode _ v),
      encode_eq]
    rfl
  cases order with
  | littleEndian => exact little
  | bigEndian =>
    rw [little, decode_bigEndian (length_encode _ v), encode_bigEndian]
    rfl

theorem encode_swapBytes (order : ByteOrder) (v : Scalar t) :
    v.swapBytes.encode order = v.encode order.opposite := by
  rw [swapBytes_eq order.opposite, ByteOrder.opposite_opposite,
    encode_decode order (length_encode _ _)]

@[simp] theorem swapBytes_swapBytes (v : Scalar t) : v.swapBytes.swapBytes = v := by
  rw [swapBytes_eq .native, encode_swapBytes, decode_encode]

theorem toOrder_toOrder (order : ByteOrder) (v : Scalar t) :
    (v.toOrder order).toOrder order = v := by
  unfold toOrder
  split
  · rfl
  · exact swapBytes_swapBytes v

/-- The bytes of a value in any order are what the machine keeps for that value
taken to the order. -/
theorem toNative_toOrder (order : ByteOrder) (v : Scalar t) :
    (v.toOrder order).toNative = v.encode order := by
  cases order with
  | littleEndian => rfl
  | bigEndian => exact encode_swapBytes .native v

/-- A value of any order is what the machine finds, taken from that order. -/
theorem toOrder_ofNative (order : ByteOrder) {bytes : Bytes} (h : bytes.length = t.width) :
    (ofNative t bytes).toOrder order = decode t order bytes := by
  cases order with
  | littleEndian => rfl
  | bigEndian =>
    show (decode t .native bytes).swapBytes = _
    rw [swapBytes_eq .native, encode_decode .native h]
    rfl

end Scalar

end BoundedMemory
