import BoundedMemory.Action

/-!
What byte streams report. Streams speak the general language of input and
output, so a fault of memory access becomes one of its kinds and keeps its
message; three faults belong to streams alone.
-/

namespace BoundedMemory

inductive StreamFault where
  /-- A fault of the memory underneath. -/
  | access (fault : Fault)
  | os (error : OsError)
  /-- A seek to what is no position at all. -/
  | seekOutside
  /-- The window ended before the buffer was full. -/
  | unexpectedEnd
  /-- The bytes are no text. -/
  | notText
  deriving DecidableEq, Repr

inductive StreamFault.Kind where
  | notFound
  | permissionDenied
  | alreadyExists
  | notDirectory
  | invalidInput
  | invalidData
  | writeZero
  | unexpectedEnd
  | outOfMemory
  | other
  deriving DecidableEq, Repr

namespace StreamFault

def kindOfAccess : Fault → Kind
  | .outOfBounds .. | .invalidArgument .. => .invalidInput
  | .capacityExceeded .. => .writeZero
  | .forbidden _ | .unsupported _ => .permissionDenied
  | .invalidState _ | .system .. => .other

def kindOfOs (e : OsError) : Kind :=
  if e = .notFound then .notFound
  else if e = .notPermitted ∨ e = .accessDenied then .permissionDenied
  else if e = .alreadyExists then .alreadyExists
  else if e = .notDirectory then .notDirectory
  else if e = .invalid then .invalidInput
  else if e = .outOfMemory then .outOfMemory
  else .other

def kind : StreamFault → Kind
  | .access fault => kindOfAccess fault
  | .os error => kindOfOs error
  | .seekOutside => .invalidInput
  | .unexpectedEnd => .unexpectedEnd
  | .notText => .invalidData

def message : StreamFault → String
  | .access fault => fault.message
  | .os error => error.message
  | .seekOutside => "seek outside of the stream window"
  | .unexpectedEnd => "failed to fill whole buffer"
  | .notText => "stream did not contain valid UTF-8"

end StreamFault

end BoundedMemory
