import BoundedMemory.Inspect
import BoundedMemory.Session.Names
import BoundedMemory.Session.Use
import BoundedMemory.Stream.Copy

/-!
Sessions: a store, handles on it bound to names, and the steps that make, use
and drop them. After each step whatever no handle leads to any more is dropped,
so the last handle on a root or buffer is the one that ends it. A step that
binds a bound name makes the new handle while the old one is still there; a
step that fails binds nothing.
-/

namespace BoundedMemory

structure Session where
  store : Store
  handles : Names Handle := {}
  /-- The page buffer last made under each name. -/
  buffers : Names BufferId := {}
  /-- The names of keys used so far. -/
  keys : Names SegmentKey := {}
  files : FileTree

namespace Session

/-- A session in which nothing has been done yet. -/
def initial (machine : Machine) (files : FileTree) : Session := { store := { machine }, files }

def anonymousKey : String := "PRIVATE"

/-- The key that a name stands for; a new name stands for a key of its own. -/
def key (name : String) (s : Session) : SegmentKey × Session :=
  if name = anonymousKey then (.anonymous, s)
  else
    match s.keys.find? name with
    | some key => (key, s)
    | none => (.named name, { s with keys := s.keys.bind name (.named name) })

/-- The name by which a key is reported, the least if it has several. -/
def keyName (s : Session) (key : SegmentKey) : String :=
  if key = .anonymous then anonymousKey else (s.keys.least? (· = key)).getD "?"

def derivedKey (s : Session) (place : FilePlace) (project : UInt8) : Except Fault SegmentKey :=
  match place with
  | .temporary label => .ok (.ofFile (.temporary label) project)
  | .path path => SegmentKey.derive s.files path project

def placeKey (place : SegmentPlace) (s : Session) : Except Fault SegmentKey × Session :=
  match place with
  | .key name =>
      let (key, s) := s.key name
      (.ok key, s)
  | .file place project => (s.derivedKey place project, s)

/-- Whether any handle leads to the root. -/
def reaches (s : Session) (root : RootId) : Bool :=
  s.handles.values.any fun h => h.root? = some root

/-- Whether the buffer itself is bound to a name, or a root over it is still held. -/
def holds (s : Session) (buffer : BufferId) : Bool :=
  s.handles.values.contains (.buffer buffer) || s.store.buffersRoot buffer

/-- Drops a root unless a handle leads to it. -/
def sweepRoot (s : Session) (root : RootId) : Session :=
  if s.reaches root then s
  else { s with store := ((Store.dropRoot root).settle .fault (fun _ => .done) s.store).2 }

/-- Drops a buffer unless somebody holds it. -/
def sweepBuffer (s : Session) (buffer : BufferId) : Session :=
  if s.holds buffer then s
  else { s with store := ((Store.dropBuffer buffer).settle .fault (fun _ => .done) s.store).2 }

/-- Drops everything that nobody holds, buffers after the roots over them. -/
def sweep (s : Session) : Session :=
  let s := (List.range s.store.roots.length).foldl sweepRoot s
  (List.range s.store.buffers.length).foldl sweepBuffer s

def bind (name : String) (h : Handle) (s : Session) : Session :=
  { s with handles := s.handles.bind name h }

/-- Binds what an action makes, if it makes it. -/
def bindMade (name : String) (make : Action Store Handle) (s : Session) : Reply × Session :=
  match make s.store with
  | .ok h store => (.bound, { s with store }.bind name h)
  | .error (.fault cause) store => (.fault cause, { s with store })
  | .error .trap store => (.trap, { s with store })

def bindRegion (name : String) (make : Action Store Region) (s : Session) : Reply × Session :=
  s.bindMade name (do return .region (← make))

/-- Binds a page buffer and remembers it under its name. -/
def bindBuffer (name : String) (id : BufferId) (s : Session) : Session :=
  { s with buffers := s.buffers.bind name id }.bind name (.buffer id)

/-- A size has to be a word that leaves room for the bytes. -/
def makeBuffer (name : String) (size : Nat) (bytes : Bytes) (s : Session) : Reply × Session :=
  if bytes.length ≤ size ∧ size < Word.modulus then
    match Buffer.allocateWith size bytes s.store with
    | .ok id store => (.bound, { s with store }.bindBuffer name id)
    | .error (.fault e) store => (.streamFault (.os e), { s with store })
    | .error .trap store => (.trap, { s with store })
  else (.unusable, s)

/-- Binds a segment that is looked up under the key of a place. -/
def bindSegment (name : String) (place : SegmentPlace) (look : SegmentKey → Action Store Region)
    (s : Session) : Reply × Session :=
  match s.placeKey place with
  | (.ok key, s) => s.bindRegion name (look key)
  | (.error cause, s) => (.fault cause, s)

def buffer? (s : Session) (name : String) : Option BufferId :=
  match s.handles.find? name with
  | some (.buffer id) => some id
  | _ => none

def make (name : String) (what : Making) (s : Session) : Reply × Session :=
  match what with
  | .newArray size => s.bindRegion name (Region.newArray size)
  | .ofBytes bytes => s.bindRegion name (Region.ofBytes bytes)
  | .ofBytesWithin bytes offset length =>
      s.bindRegion name (Region.ofBytesWithin bytes offset length)
  | .allocate size byte =>
      s.bindRegion name do
        let r ← Region.allocate size
        r.clearAll byte
        pure r
  | .allocateZeroed size => s.bindRegion name (Region.allocateZeroed size)
  | .allocateFilled size byte => s.bindRegion name (Region.allocateFilled size byte)
  | .newBuffer size bytes => s.makeBuffer name size bytes
  | .nullBuffer length =>
      match (Buffer.null length : Action Store BufferId) s.store with
      | .ok id store => (.bound, { s with store }.bind name (.buffer id))
      | .error _ store => (.trap, { s with store })
  | .bufferAgain buffer =>
      match s.buffers.find? buffer with
      | some id =>
          if (s.store.buffers[id]?).any (·.alive) then (.bound, s.bind name (.buffer id))
          else (.noHandle, s)
      | none => (.noHandle, s)
  | .wrap buffer =>
      match s.buffer? buffer with
      | some id => s.bindRegion name (Region.wrap id)
      | none => (.noHandle, s)
  | .wrapWithin buffer offset length =>
      match s.buffer? buffer with
      | some id => s.bindRegion name (Region.wrapWithin id offset length)
      | none => (.noHandle, s)
  | .attachSegment place options =>
      s.bindSegment name place fun key => Region.attachSegment key options
  | .createSegment place options =>
      s.bindSegment name place fun key => Region.createSegment key options

def ofRegion? (how : Deriving) (r : Region) (s : Store) : Option (Action Store Handle) :=
  match how with
  | .copy => some (pure (.region r))
  | .parent => (r.parent? s).map fun root => pure (.region root)
  | .slice offset length => some do return .region (← r.slice offset length)
  | .sliceFrom offset => some do return .region (← r.sliceFrom offset)
  | .sliceBetween first last => some do return .region (← r.sliceBetween first last)
  | .restrict mask => some do return .region (← r.restrict mask)
  | .readOnly => some do return .region (← r.readOnly)
  | .cursor order => some (pure (.cursor (Cursor.ofRegion r order)))
  | .cursorWithin position limit order =>
      some do return .cursor (← Cursor.within r position limit order)
  | .cursorOpen options => some do return .cursor (← Cursor.openWith options r)
  | .reader none => some (pure (.reader (Window.ofRegion r)))
  | .reader (some (start, length)) => some do return .reader (← Window.within r start length)
  | .writer none => some (pure (.writer (Window.ofRegion r)))
  | .writer (some (start, length)) => some do return .writer (← Window.within r start length)
  | _ => none

def ofCursor? (how : Deriving) (c : Cursor) : Option (Action Store Handle) :=
  match how with
  | .copy => some (pure (.cursor c))
  | .region | .intoRegion => some (pure (.region c.region))
  | .cursorSlice offset length => some do return .cursor (← c.slice offset length)
  | .cursorSliceFrom offset => some do return .cursor (← c.sliceFrom offset)
  | .cursorSliceHere => some do return .cursor (← c.sliceHere)
  | .cursorSliceBetween first last => some do return .cursor (← c.sliceBetween first last)
  | _ => none

/-- The action that derives a handle from another, if such a handle has it. -/
def derivation? (how : Deriving) (h : Handle) (s : Store) : Option (Action Store Handle) :=
  match h with
  | .region r => ofRegion? how r s
  | .cursor c => ofCursor? how c
  | .reader w | .writer w =>
      match how with
      | .copy => some (pure h)
      | .region => some (pure (.region w.region))
      | _ => none
  | .buffer _ => none

def derive (source name : String) (how : Deriving) (s : Session) : Reply × Session :=
  match (s.handles.find? source).bind fun h => derivation? how h s.store with
  | none => (.noHandle, s)
  | some make =>
      match how with
      | .intoRegion => { s with handles := s.handles.erase source }.bindMade name make
      | _ => s.bindMade name make

def attachment? (s : Session) (name : String) : Option (Region × Attachment) :=
  match s.handles.find? name with
  | some (.region r) => (r.attachment? s.store).map fun a => (r, a)
  | _ => none

def inspect (s : Session) (h : Handle) : Reply :=
  match h with
  | .region r => .text (Inspect.region s.store r)
  | .cursor c => .text (Inspect.cursor s.store c)
  | .reader w => .text (Inspect.reader s.store w)
  | .writer w => .text (Inspect.writer s.store w)
  | .buffer id =>
      match s.store.buffers[id]? with
      | some b => if b.block.isSome then .text (Inspect.buffer b) else .noHandle
      | none => .noHandle

def use (target : String) (how : Use) (s : Session) : Reply × Session :=
  match how, s.handles.find? target with
  | .drop, some _ => (.done, { s with handles := s.handles.erase target })
  | .inspect, some h => (s.inspect h, s)
  | .region how, some (.region r) =>
      let (reply, store) := how.run r s.keyName s.store
      (reply, { s with store })
  | .segment how, some (.region r) =>
      match r.attachment? s.store with
      | some attachment =>
          let other? name := (s.attachment? name).map Prod.snd
          let (reply, store) := how.run r attachment other? s.store
          (reply, { s with store })
      | none => (.noHandle, s)
  | .cursor how, some (.cursor c) =>
      let (reply, store, c) := how.run (s.store, c)
      (reply, { s with store }.bind target (.cursor c))
  | .reader how, some (.reader w) =>
      let (reply, store, w) := how.run (s.store, w)
      (reply, { s with store }.bind target (.reader w))
  | .writer how, some (.writer w) =>
      let (reply, store, w) := how.run (s.store, w)
      (reply, { s with store }.bind target (.writer w))
  | _, _ => (.noHandle, s)

/-- Copies what is left of a reader to a writer. -/
def copy (source target : String) (s : Session) : Reply × Session :=
  match s.handles.find? source, s.handles.find? target with
  | some (.reader r), some (.writer w) =>
      let (reply, after) := Stream.copy.settle .streamFault .number ⟨s.store, r, w⟩
      let s := { s with store := after.store }
      (reply, (s.bind source (.reader after.source)).bind target (.writer after.target))
  | _, _ => (.noHandle, s)

/-- Removes the segment of a key below all regions. -/
def removeSegment (key : SegmentKey) : EStateM OsError Store Unit := do
  let id ← Store.findSegment key 0 0
  Store.removeSegment id

def ask (query : Query) (s : Session) : Reply × Session :=
  match query with
  | .bufferAlive buffer =>
      match (s.buffers.find? buffer).bind fun id => s.store.buffers[id]? with
      | some b => (.flag b.alive, s)
      | none => (.noHandle, s)
  | .segmentSize options => (.number options.size, s)
  | .deriveKey place project name =>
      match s.derivedKey place project with
      | .error cause => (.fault cause, s)
      | .ok key =>
          match name with
          | some name => (.project project, { s with keys := s.keys.bind name key })
          | none => (.project project, s)
  | .sameKey a b =>
      let (first, s) := s.key a
      let (second, s) := s.key b
      (.flag (first = second), s)
  | .segmentExists name =>
      let (key, s) := s.key name
      (.flag (s.store.segmentOf? key).isSome, s)
  | .removeSegment name =>
      let (key, s) := s.key name
      match removeSegment key s.store with
      | .ok () store => (.done, { s with store })
      | .error e store => (.streamFault (.os e), { s with store })

/-- Refuses a step, for want of its handle if that is missing or of another kind. -/
def refuse (target : String) (kind : Option Handle.Kind) (s : Session) : Reply :=
  match s.handles.find? target with
  | some h => if kind.all (· = h.kind) then .unusable else .noHandle
  | none => .noHandle

/-- What a command does, before anything is swept. -/
def perform (command : Command) (s : Session) : Reply × Session :=
  match command with
  | .make name what => s.make name what
  | .derive source name how => s.derive source name how
  | .use target how => s.use target how
  | .copy source target => s.copy source target
  | .ask query => s.ask query
  | .unusable target kind => (s.refuse target kind, s)

def step (command : Command) (s : Session) : Reply × Session :=
  let (reply, s) := s.perform command
  (reply, s.sweep)

/-- Steps one after another, with the reply to each. -/
def run (commands : List Command) (s : Session) : List Reply × Session :=
  match commands with
  | [] => ([], s)
  | command :: rest =>
      let (reply, s) := s.step command
      let (replies, s) := run rest s
      (reply :: replies, s)

theorem run_append (first second : List Command) (s : Session) :
    run (first ++ second) s =
      ((run first s).1 ++ (run second (run first s).2).1, (run second (run first s).2).2) := by
  induction first generalizing s with
  | nil => rfl
  | cons command rest ih => simp only [List.cons_append, run, ih]

def memory (s : Session) (root : RootId) : MemoryState :=
  if !s.store.isValid root then .gone
  else
    match s.store.contents? root with
    | some contents => .bytes contents
    | none => .unmapped

def state? (s : Session) (name : String) : Option HandleState :=
  (s.handles.find? name).bind fun
    | .region r => some (.region r (r.isValid s.store) (s.memory r.root))
    | .cursor c => some (.cursor c (s.memory c.region.root))
    | .reader w => some (.reader w (s.memory w.region.root))
    | .writer w => some (.writer w (s.memory w.region.root))
    | .buffer id =>
        (s.store.buffers[id]?).map fun b =>
          match b.bytes? s.store with
          | some contents => .buffer b contents
          | none => .nullBuffer b.length

end Session

end BoundedMemory
