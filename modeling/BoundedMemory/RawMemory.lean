import BoundedMemory.Host
import BoundedMemory.Route

/-!
Memory taken by itself: one stretch of bytes, accessed natively at any offset,
aligned or not. Nothing is checked; an access outside of the stretch has no
outcome.
-/

namespace BoundedMemory.RawMemory

variable {t : ScalarType}

inductive Filling where
  /-- With nothing in particular; its user then sets every byte. -/
  | plain
  | zeroed
  | filled

def Filling.request : Filling → Request
  | .plain | .filled => .heap
  | .zeroed => .zeroedHeap

/-- The first block of the process heap, once it has been filled. -/
def allocate (filling : Filling) (size : Nat) (byte : UInt8)
    (machine : Machine := Host.machine) : Except OsError Bytes := do
  machine.grant filling.request [] (max size 1)
  match filling with
  | .plain | .filled => pure (List.replicate size byte)
  | .zeroed => pure (List.replicate size 0)

def load? (t : ScalarType) (memory : Bytes) (offset : Nat) (order : ByteOrder) :
    Option (Scalar t) := do
  let bytes ← cut? memory offset t.width
  pure (Route.native.load t order bytes)

def store? (memory : Bytes) (offset : Nat) (v : Scalar t) (order : ByteOrder) :
    Option Bytes := do
  let bytes ← cut? memory offset t.width
  splice? memory offset (← Route.native.store order v bytes)

def loadSlice? (t : ScalarType) (memory : Bytes) (offset count : Nat) (order : ByteOrder) :
    Option (List (Scalar t)) := do
  let bytes ← cut? memory offset (count * t.width)
  Route.native.loadAll t order count bytes

def storeSlice? (memory : Bytes) (offset : Nat) (vs : List (Scalar t)) (order : ByteOrder) :
    Option Bytes := do
  let bytes ← cut? memory offset (vs.length * t.width)
  splice? memory offset (← Route.native.storeAll order vs bytes)

/-- The widest element that a copy can reverse. -/
def widestElement : Nat := 16

def copy? (memory : Bytes) (source target width count : Nat)
    (sourceOrder targetOrder : ByteOrder) : Option Bytes :=
  if width ≤ widestElement ∧ source + width * count ≤ memory.length ∧
      target + width * count ≤ memory.length then
    some (copyElements memory source target width count sourceOrder targetOrder)
  else none

def fill? (memory : Bytes) (offset length : Nat) (byte : UInt8) : Option Bytes :=
  if offset + length ≤ memory.length then
    some (splice memory offset (List.replicate length byte))
  else none

end BoundedMemory.RawMemory
