import BoundedMemory.Region
import BoundedMemory.Segment.System

/-!
The end of regions. A release makes a root invalid for every handle on it and
gives back what the root owns; it cannot fail and happens once. A root that no
handle leads to any more is dropped: that is a release, and an array goes with
it. Buffers belong to others, so only the last of all their holders ends them.
-/

namespace BoundedMemory

namespace Store

/-- An action on the attachment behind a root, if it has one. -/
def onAttachment {α : Type} (id : RootId) (action : Action (Store × Attachment) α) :
    Action Store α := fun s =>
  match s.roots[id]? with
  | some { backing := .segment attachment, .. } =>
      match action (s, attachment) with
      | .ok a (s, attachment) => .ok a (s.setBacking id (.segment attachment))
      | .error e (s, attachment) => .error e (s.setBacking id (.segment attachment))
  | _ => .error .trap s

/-- Ends the use of a root, whatever is behind it. -/
def releaseRoot (id : RootId) : Action Store Unit := do
  let root ← (← get).roots[id]?
  match root.backing with
  | .array _ => modify (setBacking id (.array false))
  | .heap valid =>
      if valid then modify fun s => (s.setBacking id (.heap false)).freeBlock root.block
  | .buffer buffer _ => modify (setBacking id (.buffer buffer false))
  | .segment _ => onAttachment id (Attachment.release segmentCalls)

/-- What happens to a root when its last handle goes. -/
def dropRoot (id : RootId) : Action Store Unit := do
  let root ← (← get).roots[id]?
  if root.held then
    releaseRoot id
    modify fun s => { s with roots := s.roots.modify id fun r => { r with held := false } }
    match root.backing with
    | .array _ => modify (freeBlock root.block)
    | _ => pure ()

/-- Whether a root that is still held lies over the buffer. -/
def buffersRoot (s : Store) (id : BufferId) : Bool :=
  s.roots.any fun root =>
    root.held && match root.backing with
      | .buffer buffer _ => buffer = id
      | _ => false

/-- What happens to a buffer when its last holder goes. -/
def dropBuffer (id : BufferId) : Action Store Unit := do
  let buffer ← (← get).buffers[id]?
  if buffer.alive then
    modify fun s => { s with buffers := s.buffers.modify id fun b => { b with alive := false } }
    match buffer.block with
    | some block => modify (freeBlock block)
    | none => pure ()

end Store

namespace Region

/-- Ends the use of the root; a view is not its owner and does nothing. -/
def release (r : Region) : Action Store Unit :=
  if r.isView then pure () else Store.releaseRoot r.root

/-- The attachment of a root over a segment. -/
def attachment? (r : Region) (s : Store) : Option Attachment :=
  if r.isView then none
  else
    match s.roots[r.root]? with
    | some { backing := .segment attachment, .. } => some attachment
    | _ => none

def detach (r : Region) : Action Store Unit :=
  Store.onAttachment r.root (Attachment.detach Store.segmentCalls)

def destroy (r : Region) : Action Store Unit :=
  Store.onAttachment r.root (Attachment.destroy Store.segmentCalls)

end Region

end BoundedMemory
