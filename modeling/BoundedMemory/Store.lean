import BoundedMemory.Bytes
import BoundedMemory.Machine
import BoundedMemory.Route
import BoundedMemory.Segment.Attachment
import BoundedMemory.Word

/-!
The state that all regions share: blocks of memory, the buffers, segments and
roots that lie in them, and who may still use them. Things are known by their
place in these lists and are never forgotten, so an identifier means one thing
for good.

Raw access comes last. It is unchecked in the sense that it reports no fault:
reading or writing outside of a root, of its block, or of memory that is no
longer there has no outcome at all.
-/

namespace BoundedMemory

abbrev BlockId := Nat
abbrev BufferId := Nat
abbrev RootId := Nat

/-- A stretch of memory obtained from the system in one piece. -/
structure Block where
  bytes : Bytes
  /-- How often it was given back. -/
  frees : Nat := 0
  deriving DecidableEq, Repr

def Block.live (b : Block) : Bool := b.frees = 0

/-- What is known of a block besides its contents. -/
def Block.shape (b : Block) : BlockShape := (b.bytes.length, b.frees)

/-- Memory that belongs to somebody else. A buffer without a block has no address. -/
structure Buffer where
  block : Option BlockId
  length : Nat
  capacity : Nat
  /-- Whether anybody still holds it. -/
  alive : Bool := true
  deriving DecidableEq, Repr

/-- How far a segment is from its end. -/
inductive Segment.Phase where
  /-- Found under its key. -/
  | present
  /-- Removed, but still mapped somewhere. -/
  | removed
  | gone
  deriving DecidableEq, Repr

structure Segment where
  key : SegmentKey
  size : Nat
  mode : SegmentFlags
  block : BlockId
  phase : Segment.Phase := .present
  deriving DecidableEq, Repr

/-- A segment in the address space of the process. -/
structure Mapping where
  segment : SegmentId
  live : Bool := true
  deriving DecidableEq, Repr

/-- What stands behind a root, and whether it still stands. -/
inductive Backing where
  | array (valid : Bool)
  | heap (valid : Bool)
  | buffer (buffer : BufferId) (valid : Bool)
  | segment (attachment : Attachment)
  deriving DecidableEq, Repr

/-- The region that a backing gives rise to: `length` bytes of a block from
`base` on. All views lead to a root. -/
structure Root where
  backing : Backing
  block : BlockId
  base : Nat
  length : Nat
  /-- Whether any handle still leads here. -/
  held : Bool := true
  deriving DecidableEq, Repr

structure Store where
  /-- What memory is asked of, from the first step to the last. -/
  machine : Machine
  blocks : List Block := []
  buffers : List Buffer := []
  roots : List Root := []
  segments : List Segment := []
  mappings : List Mapping := []

/-- Arrays go through the codec, everything else is accessed natively. -/
def Backing.route : Backing → Route
  | .array _ => .codec
  | .heap _ | .buffer _ _ | .segment _ => .native

/-- A root is valid until its release; one over a segment while attached. -/
def Root.isValid (root : Root) : Bool :=
  match root.backing with
  | .array valid | .heap valid | .buffer _ valid => valid
  | .segment attachment => attachment.attached

namespace Store

variable {ε : Type}

/-- The machine's answer to a request for memory. -/
def grants (s : Store) (what : Request) (size : Nat) : Except OsError Unit :=
  s.machine.grant what (s.blocks.map Block.shape) size

def newBlock (bytes : Bytes) : Operation ε Store BlockId :=
  modifyGet fun s => (s.blocks.length, { s with blocks := s.blocks ++ [{ bytes }] })

def freeBlock (id : BlockId) (s : Store) : Store :=
  { s with blocks := s.blocks.modify id fun b => { b with frees := b.frees + 1 } }

def newBuffer (buffer : Buffer) : Operation ε Store BufferId :=
  modifyGet fun s => (s.buffers.length, { s with buffers := s.buffers ++ [buffer] })

def newRoot (root : Root) : Operation ε Store RootId :=
  modifyGet fun s => (s.roots.length, { s with roots := s.roots ++ [root] })

def setBacking (id : RootId) (backing : Backing) (s : Store) : Store :=
  { s with roots := s.roots.modify id fun root => { root with backing } }

/-- Whether uses of the root are allowed. -/
def isValid (s : Store) (id : RootId) : Bool :=
  match s.roots[id]? with
  | some root => root.isValid
  | none => false

/-- Whether the memory of a root is in the address space. -/
def isMapped (s : Store) (root : Root) : Bool :=
  match root.backing with
  | .segment attachment =>
      match s.mappings[attachment.mapping]? with
      | some mapping => mapping.live
      | none => false
  | _ => true

/-- The contents of `[start, start + n)` of a live block. -/
def read? (s : Store) (id : BlockId) (start n : Nat) : Option Bytes := do
  let b ← s.blocks[id]?
  if b.live then cut? b.bytes start n else none

/-- The store after `bytes` were written into a live block. -/
def write? (s : Store) (id : BlockId) (start : Nat) (bytes : Bytes) : Option Store := do
  let b ← s.blocks[id]?
  if b.live then
    let after ← splice? b.bytes start bytes
    pure { s with blocks := s.blocks.set id { b with bytes := after } }
  else none

/-- The place in its block of `[offset, offset + n)` of a root, where the root
is valid, mapped, and has such a range. -/
def place? (s : Store) (id : RootId) (offset n : Nat) : Option (Root × Nat) := do
  let root ← s.roots[id]?
  let stop ← Word.add? offset n
  let start ← Word.add? root.base offset
  if root.isValid && s.isMapped root && stop ≤ root.length then some (root, start) else none

/-- The whole contents of a root whose memory is there. -/
def contents? (s : Store) (id : RootId) : Option Bytes := do
  let root ← s.roots[id]?
  let (_, start) ← s.place? id 0 root.length
  s.read? root.block start root.length

end Store

end BoundedMemory
