import BoundedMemory.Region
import BoundedMemory.Stream.Fault

/-!
The window of a stream: a fixed range of a region and an offset that moves
through it. Offsets are those of the region; positions count from the start of
the window.
-/

namespace BoundedMemory

structure Window where
  region : Region
  start : Nat
  stop : Nat
  offset : Nat
  deriving DecidableEq, Repr

/-- Where a seek is measured from. -/
inductive SeekFrom where
  | start (position : Nat)
  | finish (delta : Int)
  | current (delta : Int)
  deriving DecidableEq, Repr

namespace Window

/-- An operation that may move a window and change memory. -/
abbrev Act (ε α : Type) := Operation ε (Store × Window) α

def ofRegion (region : Region) : Window :=
  { region, start := 0, stop := region.length, offset := 0 }

/-- The `length` bytes of a region from `start` on, which have to be there. -/
def within (region : Region) (start length : Nat) : Action Store Window := do
  Extent.check region.length start length
  let stop ← Word.add? start length
  pure { region, start, stop, offset := start }

def length (w : Window) : Nat := w.stop - w.start

def available (w : Window) : Nat := w.stop - w.offset

def position (w : Window) : Nat := w.offset - w.start

variable {ε : Type}

def current : Act ε Window := do
  let (_, w) ← get
  pure w

def moveTo (offset : Nat) : Act ε Unit :=
  modify fun (s, w) => (s, { w with offset })

def moveOn (n : Nat) : Act ε Unit := do
  let offset ← Word.add? (← current).offset n
  moveTo offset

/-- Moves to an offset of the region, which has to lie in the window. -/
def seekTo (offset : Nat) : Act Fault Unit := do
  let w ← current
  if offset < w.start ∨ w.stop < offset then
    Operation.refuse (.outOfBounds offset 0 w.stop)
  moveTo offset

/-- Moves on by at most `n` bytes and tells by how many. -/
def skip (n : Nat) : Act ε Nat := do
  let skipped := min n (← current).available
  moveOn skipped
  pure skipped

/-- The offset a seek leads to, if it is a word at all. A distance from the
start has to be a signed word, as the others are. -/
def target? (w : Window) : SeekFrom → Option Nat
  | .start position =>
      if position < 1 <<< 63 then Word.offset? w.start position else none
  | .finish delta => Word.offset? w.stop delta
  | .current delta => Word.offset? w.offset delta

/-- Seeks within the window and tells the new position. -/
def seek (wanted : SeekFrom) : Act StreamFault Nat := do
  let w ← current
  match w.target? wanted with
  | none => Operation.refuse .seekOutside
  | some target =>
      Operation.mapFault .access (seekTo target)
      let position ← Word.sub? target w.start
      pure position

def rewind : Act StreamFault Unit := do
  let _ ← seek (.start 0)

/-- Tells the position, by a seek that goes nowhere. -/
def tell : Act StreamFault Nat := seek (.current 0)

end Window

end BoundedMemory
