import BoundedMemory.Action
import BoundedMemory.Store

/-!
Buffers: memory that regions may wrap but never own. A page buffer is zeroed
memory in whole pages; a null buffer has a length but no address.
-/

namespace BoundedMemory

namespace Buffer

def allocate (size : Nat) : Operation OsError Store BufferId := do
  let s ← get
  let capacity := Machine.pageCapacity s.machine.pageSize size
  s.grants .pages capacity
  modifyGet fun s =>
    (s.buffers.length,
      { s with
        blocks := s.blocks ++ [{ bytes := List.replicate size 0 }]
        buffers := s.buffers ++ [{
          block := some s.blocks.length
          length := size
          capacity }] })

/-- A buffer that reports a length and no address. -/
def null {ε : Type} (length : Nat) : Operation ε Store BufferId :=
  Store.newBuffer { block := none, length, capacity := 0 }

def isEmpty (b : Buffer) : Bool := b.length = 0

def bytes? (b : Buffer) (s : Store) : Option Bytes := do
  let block ← b.block
  s.read? block 0 b.length

/-- Takes a page buffer with `bytes` at its start, for which it has to have room. -/
def allocateWith (size : Nat) (bytes : Bytes) : Operation OsError Store BufferId := do
  let id ← allocate size
  let buffer ← (← get).buffers[id]?
  let block ← buffer.block
  let after ← (← get).write? block 0 bytes
  set after
  pure id

/-- A whole buffer seen as scalars of the machine, where it divides evenly. -/
def scalars? (t : ScalarType) (bytes : Bytes) : Option (List (Scalar t)) :=
  if bytes.length % t.width = 0 then
    some ((chunks t.width (bytes.length / t.width) bytes).map (Scalar.ofNative t))
  else none

/-- What a page buffer shows of itself. -/
structure Contents (t : ScalarType) where
  length : Nat
  capacity : Nat
  isEmpty : Bool
  bytes : Bytes
  /-- The buffer as scalars, where its length is a multiple of their width. -/
  scalars : Option (List (Scalar t))

def contents? (b : Buffer) (t : ScalarType) (s : Store) : Option (Contents t) := do
  let bytes ← b.bytes? s
  pure {
    length := b.length
    capacity := b.capacity
    isEmpty := b.isEmpty
    bytes
    scalars := scalars? t bytes }

/-- What a new page buffer with the given bytes at its start shows. -/
def allocateContents (t : ScalarType) (size : Nat) (bytes : Bytes) :
    Operation OsError Store (Contents t) := do
  let id ← allocateWith size bytes
  let buffer ← (← get).buffers[id]?
  let contents ← buffer.contents? t (← get)
  pure contents

end Buffer

end BoundedMemory
