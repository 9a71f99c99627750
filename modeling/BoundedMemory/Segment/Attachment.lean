import BoundedMemory.Action
import BoundedMemory.Segment.Key

/-!
The life of one attachment to a shared segment. Nothing is assumed here of the
operating system: its four calls are parameters that may answer, or fail, in
any way at any time. A failed call leaves the attachment as it was, so that it
can be tried again; a release is tried once and reports nothing.
-/

namespace BoundedMemory

/-- Numbers by which the system knows segments and their mappings. -/
abbrev SegmentId := Nat
abbrev MappingId := Nat

/-- Flags of a look-up: nine bits of access permissions and those below. -/
abbrev SegmentFlags := BitVec 32

namespace SegmentFlags

/-- Makes the segment where there is none. -/
def create : SegmentFlags := 0o1000

/-- Refuses a segment that is already there. -/
def exclusive : SegmentFlags := 0o2000

/-- Asks for huge pages; the top six bits hold the logarithm of their size. -/
def hugePages : SegmentFlags := 0o4000

/-- Looks for the memory of a new segment only when it is mapped. -/
def noReserve : SegmentFlags := 0o10000

/-- Reading and writing for the owner. -/
def ownerAccess : SegmentFlags := 0o600

def has (flags wanted : SegmentFlags) : Bool := flags &&& wanted = wanted

/-- Whether the owner of a segment with permissions `mode` gets the access that
`flags` ask for, in whichever of the three groups of bits they ask. -/
def permits (mode flags : SegmentFlags) : Bool :=
  (flags >>> 6 ||| flags >>> 3 ||| flags) &&& ~~~(mode >>> 6) &&& 0o7 = 0

end SegmentFlags

/-- The system's calls on segments, for a system whose state is `σ`. -/
structure SegmentCalls (σ : Type) where
  find : SegmentKey → (size : Nat) → SegmentFlags → EStateM OsError σ SegmentId
  map : SegmentId → EStateM OsError σ MappingId
  unmap : MappingId → EStateM OsError σ Unit
  remove : SegmentId → EStateM OsError σ Unit

/-- A system call whose failure is reported under the name of the call. -/
def Operation.system {σ α : Type} (operation : String) (call : EStateM OsError σ α) :
    Action σ α := fun s =>
  match call s with
  | .ok a s => .ok a s
  | .error e s => .error (.fault (.os operation e)) s

structure Attachment where
  key : SegmentKey
  segment : SegmentId
  mapping : MappingId
  /-- Whether the release removes the segment as well. -/
  destroyOnRelease : Bool
  attached : Bool := true
  removed : Bool := false
  released : Bool := false
  deriving DecidableEq, Repr

namespace Attachment

variable {σ : Type}

def map (calls : SegmentCalls σ) (key : SegmentKey) (segment : SegmentId)
    (destroyOnRelease : Bool) : Action σ Attachment := do
  let mapping ← Operation.system "shmat" (calls.map segment)
  pure { key, segment, mapping, destroyOnRelease }

/-- Attaches to the segment of `key`; its release only detaches. -/
def attach (calls : SegmentCalls σ) (key : SegmentKey) (size : Nat) (flags : SegmentFlags) :
    Action σ Attachment := do
  let segment ← Operation.system "shmget" (calls.find key size flags)
  map calls key segment false

/-- Attaches to the segment of `key`, making it where there is none. Unless
`persistent`, the release removes it. -/
def create (calls : SegmentCalls σ) (key : SegmentKey) (size : Nat) (flags : SegmentFlags)
    (persistent : Bool) : Action σ Attachment := do
  let segment ← Operation.system "shmget" (calls.find key size (flags ||| SegmentFlags.create))
  map calls key segment (!persistent)

/-- Unmaps the segment, once. -/
def detach (calls : SegmentCalls σ) : Action (σ × Attachment) Unit := do
  let (_, a) ← get
  if a.attached then
    Operation.onFirst (Operation.system "shmdt" (calls.unmap a.mapping))
    modify fun (s, a) => (s, { a with attached := false })

/-- Unmaps the segment if need be, then removes it, once. -/
def destroy (calls : SegmentCalls σ) : Action (σ × Attachment) Unit := do
  detach calls
  let (_, a) ← get
  if !a.removed then
    Operation.onFirst (Operation.system "shmctl" (calls.remove a.segment))
    modify fun (s, a) => (s, { a with removed := true })

/-- Detaches or destroys, the first time only, and lets failures pass. -/
def release (calls : SegmentCalls σ) : Action (σ × Attachment) Unit := do
  let (_, a) ← get
  if !a.released then
    modify fun (s, a) => (s, { a with released := true })
    Operation.attempt (if a.destroyOnRelease then destroy calls else detach calls)

end Attachment

/-- What a segment is looked up with. -/
structure SegmentOptions where
  size : Nat
  flags : SegmentFlags := SegmentFlags.ownerAccess
  /-- Whether a segment made this way outlives the release. -/
  persistent : Bool := false

namespace SegmentOptions

variable {σ : Type}

def attach (options : SegmentOptions) (calls : SegmentCalls σ) (key : SegmentKey) :
    Action σ Attachment :=
  Attachment.attach calls key options.size options.flags

def create (options : SegmentOptions) (calls : SegmentCalls σ) (key : SegmentKey) :
    Action σ Attachment :=
  Attachment.create calls key options.size options.flags options.persistent

end SegmentOptions

end BoundedMemory
