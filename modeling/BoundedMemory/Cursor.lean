import BoundedMemory.Host
import BoundedMemory.Region

/-!
Cursors: a region with a position, a limit and a byte order, and a stack of
such triples that were saved. Position never passes limit, and limit never
passes the end of the region; every function that sets either one checks it.
-/

namespace BoundedMemory

/-- The part of a cursor that can be saved and restored. -/
structure Cursor.Mark where
  position : Nat
  limit : Nat
  order : ByteOrder
  deriving DecidableEq, Repr

structure Cursor where
  region : Region
  mark : Cursor.Mark
  /-- The saved marks, latest first. -/
  saved : List Cursor.Mark := []
  deriving DecidableEq, Repr

/-- The initial state asked of a cursor. -/
structure CursorOptions where
  position : Nat := 0
  /-- The end of the region where none is given. -/
  limit : Option Nat := none
  order : ByteOrder := .native

namespace Cursor

/-- An operation that may move the cursor and change memory. -/
abbrev Act (α : Type) := Action (Store × Cursor) α

def position (c : Cursor) : Nat := c.mark.position
def limit (c : Cursor) : Nat := c.mark.limit
def order (c : Cursor) : ByteOrder := c.mark.order

def length (c : Cursor) : Nat := c.region.length

def remaining (c : Cursor) : Nat := c.limit - c.position

def hasRemaining (c : Cursor) : Bool := 0 < c.remaining

def ofRegion (region : Region) (order : ByteOrder) : Cursor :=
  { region, mark := { position := 0, limit := region.length, order } }

/-- A cursor between given bounds, which have to fit. -/
def within (region : Region) (position limit : Nat) (order : ByteOrder) :
    Except Fault Cursor := do
  Extent.checkPosition region.length limit
  Extent.checkPosition limit position
  pure { region, mark := { position, limit, order } }

def openWith (options : CursorOptions) (region : Region) : Except Fault Cursor :=
  within region options.position (options.limit.getD region.length) options.order

def current : Act Cursor := do
  let (_, c) ← get
  pure c

def place (mark : Mark) : Act Unit :=
  modify fun (s, c) => (s, { c with mark })

def setPosition (position : Nat) : Act Unit := do
  let c ← current
  Extent.checkPosition c.limit position
  place { c.mark with position }

def moveOn (n : Nat) : Act Unit := do
  let c ← current
  let position ← Word.add? c.position n
  place { c.mark with position }

/-- Moves on by `n` bytes, which have to be left, and tells the new position. -/
def advance (n : Nat) : Act Nat := do
  let c ← current
  Extent.check c.limit c.position n
  moveOn n
  pure (← current).position

/-- Moves the limit; a position beyond it is pulled back to it. -/
def setLimit (limit : Nat) : Act Unit := do
  let c ← current
  Extent.checkPosition c.length limit
  place { c.mark with limit, position := min c.position limit }

def setOrder (order : ByteOrder) : Act Unit := do
  let c ← current
  place { c.mark with order }

def save : Act Mark := do
  modify fun (s, c) => (s, { c with saved := c.mark :: c.saved })
  pure (← current).mark

/-- Goes back to what was saved last, if anything was. -/
def restore : Act (Option Mark) := do
  match (← current).saved with
  | [] => pure none
  | mark :: saved =>
      modify fun (s, c) => (s, { c with mark, saved })
      pure (some mark)

/-- A cursor over the `length` bytes from `offset` on, in this cursor's order. -/
def slice (c : Cursor) (offset length : Nat) : Action Store Cursor := do
  let region ← c.region.slice offset length
  pure (ofRegion region c.order)

def sliceFrom (c : Cursor) (offset : Nat) : Action Store Cursor := do
  Extent.checkPosition c.length offset
  let length ← Word.sub? c.length offset
  c.slice offset length

def sliceHere (c : Cursor) : Action Store Cursor := c.sliceFrom c.position

def sliceBetween (c : Cursor) (first last : Nat) : Action Store Cursor := do
  let length ← Extent.between first last
  c.slice first length

end Cursor

end BoundedMemory
