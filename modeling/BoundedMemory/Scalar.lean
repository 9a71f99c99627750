/-!
The ten scalar types. A value is its bit pattern: two floating-point values are
the same here exactly when all their bits are, payloads of NaNs included.
-/

namespace BoundedMemory

inductive ScalarType where
  | u8 | i8 | u16 | i16 | u32 | i32 | u64 | i64 | f32 | f64
  deriving DecidableEq, Repr

/-- The number of bytes of a value. -/
def ScalarType.width : ScalarType → Nat
  | .u8 | .i8 => 1
  | .u16 | .i16 => 2
  | .u32 | .i32 | .f32 => 4
  | .u64 | .i64 | .f64 => 8

theorem ScalarType.width_pos (t : ScalarType) : 0 < t.width := by
  cases t <;> decide

/-- A value of type `t`, as its bit pattern. -/
abbrev Scalar (t : ScalarType) := BitVec (8 * t.width)

namespace Scalar

/-- A byte as a scalar. -/
def ofByte (b : UInt8) : Scalar .u8 := b.toBitVec

def toByte (v : Scalar .u8) : UInt8 := UInt8.ofBitVec v

@[simp] theorem toByte_ofByte (b : UInt8) : (ofByte b).toByte = b := rfl

@[simp] theorem ofByte_toByte (v : Scalar .u8) : ofByte v.toByte = v := rfl

end Scalar

end BoundedMemory
