import BoundedMemory.Region.Create
import BoundedMemory.Region.Release
import BoundedMemory.Cursor
import BoundedMemory.Stream.Window

/-!
What a session answers: the results of its steps, the reports on regions, and
the states in which a step leaves the handles it names.
-/

namespace BoundedMemory

/-- A thing that a name can stand for. -/
inductive Handle where
  | region (region : Region)
  | cursor (cursor : Cursor)
  | reader (window : Window)
  | writer (window : Window)
  | buffer (buffer : BufferId)
  deriving DecidableEq, Repr

inductive Handle.Kind where
  | region
  | cursor
  | reader
  | writer
  | buffer
  deriving DecidableEq, Repr

def Handle.kind : Handle → Handle.Kind
  | .region _ => .region
  | .cursor _ => .cursor
  | .reader _ => .reader
  | .writer _ => .writer
  | .buffer _ => .buffer

/-- The root that a handle leads to. -/
def Handle.root? : Handle → Option RootId
  | .region r => some r.root
  | .cursor c => some c.region.root
  | .reader w | .writer w => some w.region.root
  | .buffer _ => none

/-- What kind of region it is, by what stands behind it. -/
inductive Variant where
  | array
  | heap
  | buffer
  | segment
  | view
  deriving DecidableEq, Repr

def Backing.variant : Backing → Variant
  | .array _ => .array
  | .heap _ => .heap
  | .buffer _ _ => .buffer
  | .segment _ => .segment

/-- What is to be told of a view. -/
structure ViewReport where
  base : Nat
  length : Nat
  permit : Permit
  readOnly : Bool
  valid : Bool
  parent : Variant
  parentLength : Nat

/-- What is to be told of a root. -/
structure RootReport where
  backing : Backing
  base : Nat
  length : Nat
  valid : Bool
  /-- For a segment, the name of its key. -/
  key : String

/-- What is to be told of a region. -/
structure RegionReport where
  variant : Variant
  length : Nat
  valid : Bool
  permit : Permit
  readable : Bool
  writable : Bool
  readOnly : Bool
  view : Option ViewReport
  root : Option RootReport

/-- The memory behind a handle. -/
inductive MemoryState where
  | bytes (contents : Bytes)
  /-- Released or detached. -/
  | gone
  /-- Taken out of the address space behind the back of its root. -/
  | unmapped
  deriving DecidableEq, Repr

inductive HandleState where
  | region (region : Region) (valid : Bool) (memory : MemoryState)
  | cursor (cursor : Cursor) (memory : MemoryState)
  | reader (window : Window) (memory : MemoryState)
  | writer (window : Window) (memory : MemoryState)
  | buffer (buffer : Buffer) (contents : Bytes)
  | nullBuffer (length : Nat)

inductive Reply where
  /-- A handle was bound to its name. -/
  | bound
  /-- There is nothing to tell. -/
  | done
  | flag (value : Bool)
  | number (value : Nat)
  | byte (value : Option UInt8)
  | text (value : String)
  | bytes (value : Bytes)
  | scalar (t : ScalarType) (value : Scalar t)
  | scalars (t : ScalarType) (values : List (Scalar t))
  /-- A list of scalars after a transfer into it, and what went wrong if anything did. -/
  | filled (t : ScalarType) (fault : Option Fault) (values : List (Scalar t))
  | mark (value : Option Cursor.Mark)
  | report (value : RegionReport)
  /-- How many bytes were read, and the whole buffer after it. -/
  | read (count : Nat) (buffer : Bytes)
  /-- The project number in a derived key. -/
  | project (value : UInt8)
  | fault (cause : Fault)
  | streamFault (cause : StreamFault)
  /-- A name stands for nothing, or for a thing of the wrong kind. -/
  | noHandle
  /-- The step cannot be carried out as it is put. -/
  | unusable
  /-- The step had no defined outcome. -/
  | trap

namespace Operation

variable {ε σ α : Type}

/-- Runs an operation to a reply. -/
def settle (x : Operation ε σ α) (fault : ε → Reply) (reply : α → Reply) (s : σ) : Reply × σ :=
  match x s with
  | .ok a s => (reply a, s)
  | .error (.fault cause) s => (fault cause, s)
  | .error .trap s => (.trap, s)

end Operation

end BoundedMemory
