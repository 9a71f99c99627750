import BoundedMemory.Action
import BoundedMemory.Extent
import BoundedMemory.Permit
import BoundedMemory.Store

/-!
Regions: checked handles onto memory. A region is a root itself or a view into
one. Views never lead to views, so a chain of derivations is one range, one
mask and one kind, each no wider than what it was derived from.

`Region.refusal?` is the whole of what a region objects to, in order: that it
was released, that it is read-only, that its mask forbids the access, that the
range is not inside.
-/

namespace BoundedMemory

inductive Region.Kind where
  /-- All of a root. -/
  | root
  /-- A part of a root under a mask. -/
  | slice
  /-- A part of a root that nothing may change. -/
  | readOnly
  deriving DecidableEq, Repr

/-- A handle onto `length` bytes of a root from `base` on. Copies are the same region. -/
structure Region where
  root : RootId
  base : Nat
  length : Nat
  permit : Permit
  kind : Region.Kind
  deriving DecidableEq, Repr

namespace Region

def ofRoot (root : RootId) (length : Nat) : Region :=
  { root, base := 0, length, permit := .initial, kind := .root }

def isEmpty (r : Region) : Bool := r.length = 0

def isView (r : Region) : Bool := r.kind ≠ .root

def isReadOnly (r : Region) : Bool := r.kind = .readOnly

def isReadable (r : Region) : Bool := r.permit.allows .read

def isWritable (r : Region) : Bool := !r.isReadOnly && r.permit.allows .write

/-- Whether the root is still in use; a view has no life of its own. -/
def isValid (r : Region) (s : Store) : Bool := s.isValid r.root

/-- What speaks against an access of `length` bytes at `offset`, if anything does. -/
def refusal? (r : Region) (s : Store) (access : Access) (operation : String)
    (offset length : Nat) : Option Fault :=
  if !r.isValid s then some .released
  else if access = .write && r.isReadOnly then some (.readOnly operation)
  else if !r.permit.allows access then some (.forbidden access)
  else
    match Extent.check r.length offset length with
    | .ok () => none
    | .error fault => some fault

def validate (r : Region) (access : Access) (operation : String) (offset length : Nat) :
    Action Store Unit := do
  match r.refusal? (← get) access operation offset length with
  | some fault => Operation.refuse fault
  | none => pure ()

def ensureValid (r : Region) : Action Store Unit := do
  if !r.isValid (← get) then Operation.refuse .released

/-- Narrows a region to `[offset, offset + length)`, a mask and a kind. Base and
offset add up, masks meet, and what was read-only stays so. -/
def derive (r : Region) (offset length : Nat) (mask : Permit) (kind : Kind) :
    Action Store Region := do
  let base ← Word.add? r.base offset
  pure {
    root := r.root
    base
    length
    permit := r.permit.meet mask
    kind := if r.kind = .readOnly ∨ kind = .readOnly then .readOnly else .slice }

/-- A view of `length` bytes from `offset` on. -/
def slice (r : Region) (offset length : Nat) : Action Store Region := do
  r.ensureValid
  Extent.check r.length offset length
  r.derive offset length .both .slice

def sliceFrom (r : Region) (offset : Nat) : Action Store Region :=
  r.slice offset (r.length - offset)

def sliceBetween (r : Region) (first last : Nat) : Action Store Region := do
  let length ← Extent.between first last
  r.slice first length

/-- A view of everything under a further mask. -/
def restrict (r : Region) (mask : Permit) : Action Store Region := do
  r.ensureValid
  r.derive 0 r.length mask .slice

/-- A view of everything through which nothing changes. -/
def readOnly (r : Region) : Action Store Region := do
  r.ensureValid
  r.derive 0 r.length .readOnly .readOnly

def parent? (r : Region) (s : Store) : Option Region :=
  if r.isView then (s.roots[r.root]?).map fun root => ofRoot r.root root.length else none

end Region

end BoundedMemory
