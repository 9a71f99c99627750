/-!
The two orders in which the bytes of a scalar are laid out.
-/

namespace BoundedMemory

inductive ByteOrder where
  | bigEndian
  | littleEndian
  deriving DecidableEq, Repr

namespace ByteOrder

/-- The order of the machine, which is little-endian throughout. -/
def native : ByteOrder := .littleEndian

def network : ByteOrder := .bigEndian

def opposite : ByteOrder → ByteOrder
  | .bigEndian => .littleEndian
  | .littleEndian => .bigEndian

def isNative (order : ByteOrder) : Bool := order = native

def text : ByteOrder → String
  | .bigEndian => "big-endian"
  | .littleEndian => "little-endian"

@[simp] theorem opposite_opposite (order : ByteOrder) : order.opposite.opposite = order := by
  cases order <;> rfl

end ByteOrder

end BoundedMemory
