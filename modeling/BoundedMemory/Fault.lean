import BoundedMemory.OsError

/-!
The faults that checked memory access reports to its caller. A fault is a cause
with the numbers that explain it; `Fault.message` is its one wording.
-/

namespace BoundedMemory

/-- The direction of an access, as a permission mask sees it. -/
inductive Access where
  | read
  | write
  deriving DecidableEq, Repr

/-- What went wrong below this library. -/
inductive SystemCause where
  | os (error : OsError)
  | other (reason : String)
  deriving DecidableEq, Repr

inductive Fault where
  /-- `[offset, offset + length)` does not lie in `[0, bound]`. -/
  | outOfBounds (offset length bound : Nat)
  | invalidState (detail : String)
  | forbidden (access : Access)
  | unsupported (operation : String)
  | system (operation : String) (cause : SystemCause)
  | capacityExceeded (requested available : Nat)
  | invalidArgument (name detail : String)
  deriving DecidableEq, Repr

def Access.word : Access → String
  | .read => "read"
  | .write => "write"

/-- The number of the error, or -1 where the operating system gave none. -/
def SystemCause.code : SystemCause → Int
  | .os error => error.code
  | .other _ => -1

def SystemCause.message : SystemCause → String
  | .os error => error.message
  | .other reason => reason

namespace Fault

/-- Every use of a region after its release ends in this fault. -/
def released : Fault := .invalidState "source has been released"

/-- A change attempted through a read-only view. -/
def readOnly (operation : String) : Fault :=
  .unsupported s!"{operation} on a read-only source"

def os (operation : String) (error : OsError) : Fault := .system operation (.os error)

def message : Fault → String
  | .outOfBounds offset length bound =>
      s!"range [{offset}, {offset} + {length}) is outside of [0, {bound}]"
  | .invalidState detail => s!"invalid state: {detail}"
  | .forbidden access => s!"{access.word} access is not permitted"
  | .unsupported operation => s!"unsupported operation: {operation}"
  | .system operation cause =>
      s!"native operation '{operation}' failed (code {cause.code}): {cause.message}"
  | .capacityExceeded requested available =>
      s!"requested {requested} bytes, only {available} available"
  | .invalidArgument name detail => s!"invalid argument {name}: {detail}"

def isOutOfBounds : Fault → Bool
  | .outOfBounds .. => true
  | _ => false

def isInvalidState : Fault → Bool
  | .invalidState _ => true
  | _ => false

def isForbidden : Fault → Bool
  | .forbidden _ => true
  | _ => false

def isUnsupported : Fault → Bool
  | .unsupported _ => true
  | _ => false

def isSystem : Fault → Bool
  | .system .. => true
  | _ => false

def isCapacityExceeded : Fault → Bool
  | .capacityExceeded .. => true
  | _ => false

/-- The number that a system fault carries. -/
def code? : Fault → Option Int
  | .system _ cause => some cause.code
  | _ => none

end Fault

end BoundedMemory
