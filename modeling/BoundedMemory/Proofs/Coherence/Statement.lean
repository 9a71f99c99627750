import BoundedMemory.Proofs.Copying
import BoundedMemory.Proofs.Making

/-!
What a session does to flat memory. `Coherent` says of every command what it may
answer and what it leaves behind, by one array of bytes for each root, buffer and
segment: makings add arrays and ranges of them, derivations add up bases, transfers
read and change the range that all bases and offsets lead to, copies carry chunks,
and nothing else touches a byte.
-/

namespace BoundedMemory

/-- What a name leads to, apart from where a cursor or stream stands. -/
inductive Seat where
  | region (region : Region)
  | buffer (id : BufferId)
  deriving DecidableEq, Repr

def Handle.seat : Handle → Seat
  | .region r => .region r
  | .cursor c => .region c.region
  | .reader w | .writer w => .region w.region
  | .buffer id => .buffer id

abbrev Seats := String → Option Seat

/-- Lets a name lead somewhere else, or nowhere. -/
def Seats.set (seats : Seats) (name : String) (seat : Option Seat) : Seats :=
  fun other => if other = name then seat else seats other

def Session.seats (s : Session) : Seats := fun name => (s.handles.find? name).map Handle.seat

/-- What a use of a handle does to the memory behind it, if anything. -/
def Handle.touch? (h : Handle) (how : Use) : Option Touch :=
  match how, h with
  | .region how, .region r => r.touch? how
  | .cursor how, .cursor c => c.touch? how
  | .reader how, .reader w => w.readerTouch? how
  | .writer how, .writer w => w.writerTouch? how
  | _, _ => none

/-- The step from region to view that a derivation takes, if it leads to a view. -/
def Deriving.narrowing? (how : Deriving) (h : Handle) : Option Narrowing :=
  match how, h with
  | .slice offset length, _ | .cursorSlice offset length, _ => some (.slice offset length)
  | .sliceFrom offset, _ | .cursorSliceFrom offset, _ => some (.sliceFrom offset)
  | .cursorSliceHere, .cursor c => some (.sliceFrom c.position)
  | .sliceBetween first last, _ | .cursorSliceBetween first last, _ =>
      some (.sliceBetween first last)
  | .restrict mask, _ => some (.restrict mask)
  | .readOnly, _ => some .readOnly
  | _, _ => none

/-- The region that a derived handle leads to: all of the root, the view that the
step leads to, or what the handle led to. -/
def Handle.derived? (h : Handle) (how : Deriving) (M : FlatMemory) : Option Region :=
  match h.seat with
  | .buffer _ => none
  | .region r =>
      match how with
      | .parent => (M.grounds r.root).map fun ground => .ofRoot r.root ground.length
      | _ =>
          match how.narrowing? h with
          | some n => some (n.narrowed r)
          | none => some r

/-- Where names lead once a derivation has begun: one way of it gives its source up. -/
def Deriving.begun (how : Deriving) (source : String) (seats : Seats) : Seats :=
  match how with
  | .intoRegion => seats.set source none
  | _ => seats

/-- Where something that is made lies, and what is in it. A range of an array or of
a buffer is a root over the range; the rest of the array or buffer stays in memory. -/
def Making.Lays (what : Making) (s : Session) (M M' : FlatMemory) : Seat → Prop
  | .buffer id =>
      match what with
      | .newBuffer size bytes =>
          M.arrays (.buffer id) = none ∧
            M' = M.put (.buffer id) (splice (List.replicate size 0) 0 bytes)
      | .nullBuffer _ => M.arrays (.buffer id) = none ∧ M' = M
      | .bufferAgain buffer => s.buffers.find? buffer = some id ∧ M' = M
      | _ => False
  | .region r =>
      M.grounds r.root = none ∧
        match what with
        | .newArray size | .allocateZeroed size => M.Founds M' r (List.replicate size 0) 0 size
        | .ofBytes bytes => M.Founds M' r bytes 0 bytes.length
        | .ofBytesWithin bytes offset length => M.Founds M' r bytes offset length
        | .allocate size byte | .allocateFilled size byte =>
            M.Founds M' r (List.replicate size byte) 0 size
        | .wrap buffer =>
            ∃ id b, s.seats buffer = some (.buffer id) ∧ s.store.buffers[id]? = some b ∧
              M.Shares M' r (.buffer id) 0 b.length
        | .wrapWithin buffer offset length =>
            ∃ id, s.seats buffer = some (.buffer id) ∧ M.Shares M' r (.buffer id) offset length
        | .attachSegment _ options | .createSegment _ options => M.Attaches M' r options.size
        | _ => False

/-- What a command in a session may answer, and what it may make of memory and of
where names lead. -/
def Coherent (command : Command) (s : Session) (reply : Reply) (seats : Seats)
    (M M' : FlatMemory) : Prop :=
  match command with
  | .make name what =>
      M.Extends M' ∧
        match reply with
        | .bound => ∃ seat, seats = s.seats.set name (some seat) ∧ what.Lays s M M' seat
        | _ => seats = s.seats
  | .derive source name how =>
      M' = M ∧
        match reply with
        | .bound =>
            ∃ h r, s.handles.find? source = some h ∧ h.derived? how M = some r ∧
              seats = (how.begun source s.seats).set name (some (.region r))
        | _ => seats = s.seats
  | .use target .drop => M' = M ∧ seats = s.seats.set target none
  | .use target how =>
      Touches ((s.handles.find? target).bind fun h => h.touch? how) reply M M' ∧ seats = s.seats
  | .copy source target =>
      seats = s.seats ∧
        match s.handles.find? source, s.handles.find? target with
        | some (.reader r), some (.writer w) =>
            ∃ n, M.Carried r w n M' ∧
              (reply.isFailure = false → reply = .number n ∧ n = r.available)
        | _, _ => M' = M
  | .ask _ | .unusable _ _ => M' = M ∧ seats = s.seats

/-- A run of a session, step by step beside flat memory that starts as `M`: it is
what the store holds all along, and every step is coherent with it. -/
def Follows : List Command → Session → FlatMemory → Prop
  | [], s, M => s.store.flat = M
  | command :: rest, s, M =>
      s.store.flat = M ∧
        ∃ M', Coherent command s (s.step command).1 (s.step command).2.seats M M' ∧
          Follows rest (s.step command).2 M'

theorem Names.find?_erase_same {α : Type} (names : Names α) (name : String) :
    (names.erase name).find? name = none := by
  simp only [find?, erase, List.lookup_eq_none_iff, List.mem_filter]
  rintro ⟨key, a⟩ ⟨-, kept⟩
  exact bne_iff_ne.mpr fun same => of_decide_eq_true kept same.symm

/-- A name leads where it was last set to lead, or where it led. -/
theorem Seats.of_set {seats : Seats} {name other : String} {seat? : Option Seat} {seat : Seat}
    (leads : seats.set name seat? other = some seat) :
    other = name ∧ seat? = some seat ∨ seats other = some seat := by
  unfold Seats.set at leads
  split at leads
  · exact .inl ⟨‹_›, leads⟩
  · exact .inr leads

/-- Beginning a derivation takes at most its source away. -/
theorem Deriving.begun_cases (how : Deriving) (source : String) (seats : Seats) (other : String) :
    how.begun source seats other = seats other ∨
      other = source ∧ how.begun source seats other = none := by
  cases how with
  | intoRegion =>
      by_cases first : other = source
      · exact .inr ⟨first, if_pos first⟩
      · exact .inl (if_neg first)
  | _ => exact .inl rfl

/-- What a derived handle leads to is on the root that its source leads to, and but for
the root itself it is what its source leads to or a narrower view. -/
theorem Handle.derived?_cases {h : Handle} {how : Deriving} {M : FlatMemory} {r' : Region}
    (derived : h.derived? how M = some r') :
    ∃ r, h.seat = .region r ∧ r'.root = r.root ∧
      (how = .parent ∨ r' = r ∨ ∃ n : Narrowing, r' = n.narrowed r) := by
  unfold Handle.derived? at derived
  cases seat : h.seat with
  | buffer id => simp [seat] at derived
  | region r =>
      refine ⟨r, rfl, ?_⟩
      simp only [seat] at derived
      cases how with
      | parent =>
          obtain ⟨_, -, rfl⟩ := Option.map_eq_some_iff.mp derived
          exact ⟨rfl, .inl rfl⟩
      | _ =>
          simp only at derived
          split at derived
          · cases derived
            exact ⟨rfl, .inr (.inr ⟨_, rfl⟩)⟩
          · cases derived
            exact ⟨rfl, .inr (.inl rfl)⟩

namespace Session

section Seats

variable {s : Session} {name : String}

theorem seats_bind (h : Handle) : (s.bind name h).seats = s.seats.set name (some h.seat) := by
  funext other
  simp only [seats, Seats.set, bind]
  by_cases same : other = name
  · simp only [same, Names.find?_bind_same, Option.map_some, if_true]
  · simp only [Names.find?_bind_other _ h same, same, if_false]

theorem seats_erase :
    ({ s with handles := s.handles.erase name } : Session).seats = s.seats.set name none := by
  funext other
  simp only [seats, Seats.set]
  by_cases same : other = name
  · simp only [same, Names.find?_erase_same, Option.map_none, if_true]
  · simp only [Names.find?_erase_other _ same, same, if_false]

/-- A handle that moved on leads where it led. -/
theorem seats_rebind {h h' : Handle} (found : s.handles.find? name = some h)
    (steady : h'.seat = h.seat) : (s.bind name h').seats = s.seats := by
  rw [seats_bind]
  funext other
  unfold Seats.set
  by_cases same : other = name
  · simp only [same, if_true, seats, found, Option.map_some, steady]
  · simp only [same, if_false]

end Seats

section Keys

variable (s : Session)

/-- Keys are looked up and named without anything else being changed. -/
structure Alongside (s s' : Session) : Prop where
  store : s'.store = s.store
  handles : s'.handles = s.handles

theorem Alongside.seats {s s' : Session} (h : Alongside s s') : s'.seats = s.seats := by
  funext name
  simp only [Session.seats, h.handles]

theorem key_alongside (name : String) : Alongside s (s.key name).2 := by
  unfold key
  by_cases anonymous : name = anonymousKey
  · simp only [anonymous, if_true]
    exact ⟨rfl, rfl⟩
  · simp only [anonymous, if_false]
    cases s.keys.find? name <;> exact ⟨rfl, rfl⟩

theorem placeKey_alongside (place : SegmentPlace) : Alongside s (s.placeKey place).2 := by
  cases place with
  | key name => exact s.key_alongside name
  | file place project => exact ⟨rfl, rfl⟩

end Keys

/-- A command that keeps memory in order and is coherent with it. -/
def Performs (command : Command) (s : Session) (result : Reply × Session) : Prop :=
  result.2.store.Apart ∧
    Coherent command s result.1 result.2.seats s.store.flat result.2.store.flat

end Session

end BoundedMemory
