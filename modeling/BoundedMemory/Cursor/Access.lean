import BoundedMemory.Cursor
import BoundedMemory.Region.Access

/-!
Reading and writing under a cursor. Absolute access is access to the region
held against the limit; relative access is absolute access at the position, and
moves on by the bytes transferred once it has succeeded. An order that is not
given is the cursor's own.
-/

namespace BoundedMemory.Cursor

variable {t : ScalarType}

/-- The bytes to skip up to the next multiple of `width`, which have to be left. -/
def padding (c : Cursor) (width : Nat) : Except Fault Nat := do
  Extent.require (0 < width) "width" "width > 0"
  if c.position % width = 0 then pure 0
  else
    let skip := width - c.position % width
    Extent.check c.limit c.position skip
    pure skip

/-- Moves to the next multiple of `width`, setting the bytes it skips. -/
def padTo (width : Nat) (byte : UInt8) : Act Nat := do
  let c ← current
  let skip ← c.padding width
  if skip ≠ 0 then
    Operation.onFirst (c.region.clear byte c.position skip)
    moveOn skip
  pure skip

def alignTo (width : Nat) : Act Nat := do
  let c ← current
  let skip ← c.padding width
  moveOn skip
  pure skip

def padToWord (byte : UInt8) : Act Nat := padTo Host.wordSize byte

def alignToWord : Act Nat := alignTo Host.wordSize

/-- Stops where `[offset, offset + length)` passes the limit. -/
def checkLimit (c : Cursor) (offset length : Nat) : Except Fault Unit :=
  Extent.check c.limit offset length

def readAt (c : Cursor) (t : ScalarType) (offset : Nat) (order : Option ByteOrder) :
    Action Store (Scalar t) := do
  c.checkLimit offset t.width
  c.region.read t offset (order.getD c.order)

def writeAt (c : Cursor) (offset : Nat) (v : Scalar t) (order : Option ByteOrder) :
    Action Store Unit := do
  c.checkLimit offset t.width
  c.region.write offset v (order.getD c.order)

def readSliceAt (c : Cursor) (t : ScalarType) (offset count : Nat) (order : Option ByteOrder) :
    Action Store (List (Scalar t)) := do
  let length ← Extent.byteLength count t.width
  c.checkLimit offset length
  c.region.readSlice t offset count (order.getD c.order)

def writeSliceAt (c : Cursor) (offset : Nat) (vs : List (Scalar t)) (order : Option ByteOrder) :
    Action Store Unit := do
  let length ← Extent.byteLength vs.length t.width
  c.checkLimit offset length
  c.region.writeSlice offset vs (order.getD c.order)

def read (t : ScalarType) (order : Option ByteOrder) : Act (Scalar t) := do
  let c ← current
  let v ← Operation.onFirst (c.readAt t c.position order)
  moveOn t.width
  pure v

def write (v : Scalar t) (order : Option ByteOrder) : Act Unit := do
  let c ← current
  Operation.onFirst (c.writeAt c.position v order)
  moveOn t.width

def readSlice (t : ScalarType) (count : Nat) (order : Option ByteOrder) :
    Act (List (Scalar t)) := do
  let c ← current
  let vs ← Operation.onFirst (c.readSliceAt t c.position count order)
  moveOn (← Extent.byteLength count t.width)
  pure vs

def writeSlice (vs : List (Scalar t)) (order : Option ByteOrder) : Act Unit := do
  let c ← current
  Operation.onFirst (c.writeSliceAt c.position vs order)
  moveOn (← Extent.byteLength vs.length t.width)

end BoundedMemory.Cursor
