import BoundedMemory.PageBuffer
import BoundedMemory.Region
import BoundedMemory.Segment.System

/-!
New roots: over an array that the root owns, over memory of the process heap,
over a buffer of somebody else, and over a shared segment. Whatever can be
refused is refused before anything is taken.
-/

namespace BoundedMemory.Region

/-- Adds a root and gives the region that is all of it. -/
def newRoot (backing : Backing) (block : BlockId) (base length : Nat) : Action Store Region := do
  let root ← Store.newRoot { backing, block, base, length }
  pure (ofRoot root length)

/-- All of a new array with the given contents. -/
def ofBytes (bytes : Bytes) : Action Store Region := do
  let block ← Store.newBlock bytes
  newRoot (.array true) block 0 bytes.length

def newArray (size : Nat) : Action Store Region := ofBytes (List.replicate size 0)

/-- A part of a new array; the rest of the array is kept but out of reach. -/
def ofBytesWithin (bytes : Bytes) (offset length : Nat) : Action Store Region := do
  Extent.check bytes.length offset length
  let block ← Store.newBlock bytes
  newRoot (.array true) block offset length

/-- A block of the process heap, in which every byte is `byte`. It is never asked for
without any bytes. -/
def newHeap (what : Request) (operation : String) (size : Nat) (byte : UInt8) :
    Action Store Region := do
  let s ← get
  match s.grants what (max size 1) with
  | .error e => Operation.refuse (.os operation e)
  | .ok () =>
      let block ← Store.newBlock (List.replicate size byte)
      newRoot (.heap true) block 0 size

/-- Heap memory of which nothing is promised; it happens to be zero here. -/
def allocate (size : Nat) : Action Store Region := newHeap .heap "allocate" size 0

def allocateZeroed (size : Nat) : Action Store Region :=
  newHeap .zeroedHeap "allocate_zeroed" size 0

def allocateFilled (size : Nat) (byte : UInt8) : Action Store Region :=
  newHeap .heap "allocate_filled" size byte

def noAddress : Fault :=
  .system "resolve_address" (.other "external buffer has no backing address")

/-- The block of a buffer. One without an address is refused unless it is empty,
and an empty one needs no memory. -/
def resolveAddress (buffer : Buffer) : Action Store BlockId := do
  match buffer.block with
  | some block => pure block
  | none =>
      if buffer.length = 0 then Store.newBlock [] else Operation.refuse noAddress

def wrap (id : BufferId) : Action Store Region := do
  let buffer ← (← get).buffers[id]?
  let block ← resolveAddress buffer
  newRoot (.buffer id true) block 0 buffer.length

def wrapWithin (id : BufferId) (offset length : Nat) : Action Store Region := do
  let buffer ← (← get).buffers[id]?
  let block ← resolveAddress buffer
  Extent.check buffer.length offset length
  newRoot (.buffer id true) block offset length

/-- A segment that was attached to, as far as `size` reaches. -/
def ofAttachment (size : Nat) (attach : Action Store Attachment) : Action Store Region := do
  let attachment ← attach
  let segment ← (← get).segments[attachment.segment]?
  newRoot (.segment attachment) segment.block 0 size

/-- The segment of `key`, which has to be at least `size` bytes. -/
def attachSegment (key : SegmentKey) (options : SegmentOptions) : Action Store Region :=
  ofAttachment options.size (options.attach Store.segmentCalls key)

/-- The segment of `key`, made where there is none. -/
def createSegment (key : SegmentKey) (options : SegmentOptions) : Action Store Region :=
  ofAttachment options.size (options.create Store.segmentCalls key)

end BoundedMemory.Region
