import BoundedMemory.Store

/-!
The system's calls on shared segments. A segment is found under its key until
it is removed, which frees the key at once; its memory lasts until nobody has it
mapped. New segments hold zeros.
-/

namespace BoundedMemory

namespace Store

/-- The segment that a key names. The anonymous key names none. -/
def segmentOf? (s : Store) (key : SegmentKey) : Option SegmentId :=
  if key = .anonymous then none
  else s.segments.findIdx? fun g => g.key = key && g.phase = .present

/-- Whether any live mapping of the segment is left. -/
def isMappedSomewhere (s : Store) (id : SegmentId) : Bool :=
  s.mappings.any fun m => m.live && m.segment = id

/-- Sizes that no segment can have. -/
def segmentLimit : Nat := 1 <<< 63

/-- Why there is no segment of huge pages: none are set aside of the usual
sizes, and pages of other sizes do not exist. -/
def hugePageFault (flags : SegmentFlags) : OsError :=
  if [0, 21, 30].contains (flags >>> 26).toNat then .outOfMemory else .invalid

/-- Makes a segment. One too large for the memory there is comes into being only
without a reserve; it has no contents and cannot be mapped. -/
def newSegment (key : SegmentKey) (size : Nat) (flags : SegmentFlags) :
    EStateM OsError Store SegmentId := do
  if size = 0 ∨ segmentLimit ≤ size then throw .invalid
  if flags.has SegmentFlags.hugePages then throw (hugePageFault flags)
  let s ← get
  if !flags.has SegmentFlags.noReserve && !s.machine.hasRoom size then throw .outOfMemory
  let bytes := if s.machine.hasRoom size then List.replicate size 0 else []
  modifyGet fun s =>
    (s.segments.length,
      { s with
        blocks := s.blocks ++ [{ bytes }]
        segments := s.segments ++
          [{ key, size, mode := flags &&& 0o777, block := s.blocks.length }] })

/-- Looks a segment up and, where the flags say so, makes it. A segment that is
there has to have the size and allow the access that are asked for. -/
def findSegment (key : SegmentKey) (size : Nat) (flags : SegmentFlags) :
    EStateM OsError Store SegmentId := do
  let s ← get
  match s.segmentOf? key with
  | some id =>
      if flags.has SegmentFlags.create && flags.has SegmentFlags.exclusive then
        throw .alreadyExists
      match s.segments[id]? with
      | none => throw .invalid
      | some g =>
          if g.size < size then throw .invalid
          if !g.mode.permits flags then throw .accessDenied
          pure id
  | none =>
      if key = .anonymous ∨ flags.has SegmentFlags.create then newSegment key size flags
      else throw .notFound

/-- Maps a segment for reading and writing. -/
def mapSegment (id : SegmentId) : EStateM OsError Store MappingId := do
  let s ← get
  match s.segments[id]? with
  | none => throw .invalid
  | some g =>
      if g.phase = .gone then throw .invalid
      if !g.mode.permits SegmentFlags.ownerAccess then throw .accessDenied
      if !s.machine.hasRoom g.size then throw .outOfMemory
      set ({ s with mappings := s.mappings ++ [{ segment := id }] } : Store)
      pure s.mappings.length

def setPhase (id : SegmentId) (phase : Segment.Phase) (s : Store) : Store :=
  { s with segments := s.segments.modify id fun g => { g with phase } }

/-- Gives the memory of a removed segment back once nobody has it mapped. -/
def reclaim (id : SegmentId) (s : Store) : Store :=
  match s.segments[id]? with
  | some g =>
      if g.phase = .removed && !s.isMappedSomewhere id then
        (s.setPhase id .gone).freeBlock g.block
      else s
  | none => s

def unmapSegment (id : MappingId) : EStateM OsError Store Unit := do
  let s ← get
  match s.mappings[id]? with
  | some ⟨segment, true⟩ =>
      let unmapped := { s with mappings := s.mappings.set id ⟨segment, false⟩ }
      set (unmapped.reclaim segment)
  | _ => throw .invalid

def removeSegment (id : SegmentId) : EStateM OsError Store Unit := do
  let s ← get
  match s.segments[id]? with
  | none => throw .invalid
  | some g =>
      if g.phase = .gone then throw .invalid
      set ((s.setPhase id .removed).reclaim id)

def segmentCalls : SegmentCalls Store where
  find := findSegment
  map := mapSegment
  unmap := unmapSegment
  remove := removeSegment

end Store

end BoundedMemory
