import BoundedMemory.Proofs.FlatRanges
import BoundedMemory.Proofs.Outcomes
import BoundedMemory.Proofs.PageCapacity
import BoundedMemory.Proofs.SegmentHandles

/-!
Page buffers, from both sides. They are there as soon as the machine grants their capacity,
whatever its pages are. What a buffer shows of its memory, as bytes or as scalars, is what
is read through any region that wraps it or a part of it, each at its own place in the
buffer, whatever has been written there before. Scalars are seen in the order of a
little-endian machine from both sides.
-/

namespace BoundedMemory

namespace Store

variable {orderly sweeping : Prop} {s s' : Store} {id : BufferId} {b : Buffer}

/-- Nothing becomes of a buffer but that it comes to its end. -/
theorem Change.buffer_stays (change : Change orderly sweeping s s')
    (found : s.buffers[id]? = some b) : ∃ alive, s'.buffers[id]? = some { b with alive } := by
  have ended {other : BufferId} {s' : Store}
      (ends : s'.buffers = s.buffers.modify other fun b => { b with alive := false }) :
      ∃ alive, s'.buffers[id]? = some { b with alive } := by
    rw [ends, List.getElem?_modify, found]
    by_cases here : other = id
    · exact ⟨false, by simp only [here, if_true]; rfl⟩
    · exact ⟨b.alive, by simp only [here, if_false]; rfl⟩
  have added {new : Buffer} : (s.buffers ++ [new])[id]? = some b := by
    rw [List.getElem?_append_left (List.getElem?_eq_some_iff.mp found).1]
    exact found
  cases change with
  | rewrite alike => exact ⟨b.alive, alike.buffers ▸ found⟩
  | endNullBuffer _ _ _ => exact ended rfl
  | endBuffer _ _ _ _ => exact ended rfl
  | addBuffer _ _ _ _ => exact ⟨b.alive, added⟩
  | addNullBuffer _ _ => exact ⟨b.alive, added⟩
  | addRoot _ founded => cases founded <;> exact ⟨b.alive, found⟩
  | _ => exact ⟨b.alive, found⟩

theorem Changes.buffer_stays (changes : Changes orderly sweeping s s')
    (found : s.buffers[id]? = some b) : ∃ alive, s'.buffers[id]? = some { b with alive } := by
  induction changes with
  | refl => exact ⟨b.alive, found⟩
  | tail _ change ih =>
      obtain ⟨_, found⟩ := ih
      obtain ⟨alive, found⟩ := change.buffer_stays found
      exact ⟨alive, found⟩

/-- The bytes that a buffer shows, if it is there. -/
def bytesOf? (s : Store) (id : BufferId) : Option Bytes :=
  (s.buffers[id]?).bind (·.bytes? s)

/-- A buffer that is alive has its array, and shows all of it. -/
theorem Sound.buffer (sound : s.Sound) {block : BlockId} (found : s.buffers[id]? = some b)
    (alive : b.alive = true) (has : b.block = some block) :
    ∃ bytes, s.flat.arrays (.buffer id) = some bytes ∧ bytes.length = b.length ∧
      s.bytesOf? id = some bytes := by
  have place : s.blockOf? (.buffer id) = some block := by
    simp only [blockOf?, found, Option.bind_some, has]
  obtain ⟨stored, at_block, length⟩ := Option.map_eq_some_iff.mp (sound.placed.buffers found has)
  have unspent : ¬ s.Spent block := by
    rintro ⟨home, there, spent⟩
    rw [sound.apart.distinct home _ block there place] at spent
    simp only [Store.spent, found, Option.any_some, Buffer.spent, alive, Bool.not_true,
      Bool.false_eq_true] at spent
  have live := sound.accounted.live at_block unspent
  refine ⟨stored.bytes, ?_, length, ?_⟩
  · simp only [flat, place, Option.bind_some, at_block, Option.map_some]
  · simp only [bytesOf?, found, Buffer.bytes?, has, Option.bind_eq_bind, Option.bind_some, read?,
      at_block, live, if_true, cut?]
    rw [← length, if_pos (by omega), cut_all]

/-- A region over a buffer, and the place in the buffer where it begins. -/
def Wraps (s : Store) (r : Region) (id : BufferId) (start : Nat) : Prop :=
  ∃ root valid, s.roots[r.root]? = some root ∧ root.backing = .buffer id valid ∧
    root.base + r.base = start

end Store

namespace FlatMemory

variable {M M' : FlatMemory} {r : Region} {ground : Ground} {array bytes : Bytes} {offset n : Nat}

/-- What is read under a region is a range of the array that the region is over, -/
theorem read?_array (grounded : M.grounds r.root = some ground)
    (held : M.arrays ground.home = some array) (read : M.read? r offset n = some bytes) :
    bytes = cut array (ground.base + r.base + offset) n := by
  unfold read? at read
  split at read
  case isTrue nothing =>
    cases read
    rw [nothing, cut_zero]
  case isFalse =>
    obtain ⟨⟨home, other, address⟩, there, rfl⟩ := Option.map_eq_some_iff.mp read
    obtain ⟨_, again, rfl, held', rfl, -, -⟩ := locate?_eq_some_iff.mp there
    cases grounded.symm.trans again
    cases held.symm.trans held'
    rfl

/-- and what is written goes over that range. -/
theorem write?_array (grounded : M.grounds r.root = some ground)
    (held : M.arrays ground.home = some array) (written : M.write? r offset bytes = some M') :
    M'.arrays ground.home = some (splice array (ground.base + r.base + offset) bytes) := by
  unfold write? at written
  split at written
  case isTrue nothing =>
    cases written
    rw [nothing, splice_nil, held]
  case isFalse =>
    obtain ⟨⟨home, other, address⟩, there, rfl⟩ := Option.map_eq_some_iff.mp written
    obtain ⟨_, again, rfl, held', rfl, -, -⟩ := locate?_eq_some_iff.mp there
    cases grounded.symm.trans again
    cases held.symm.trans held'
    exact if_pos rfl

end FlatMemory

namespace Store.Wraps

variable {s : Store} {M : FlatMemory} {r : Region} {id : BufferId} {start offset : Nat}
  {array bytes : Bytes} {x : Transfer}

theorem ground (wraps : s.Wraps r id start) :
    ∃ ground, s.flat.grounds r.root = some ground ∧ ground.home = .buffer id ∧
      ground.base + r.base = start := by
  obtain ⟨root, valid, found, behind, rfl⟩ := wraps
  exact ⟨_, flat_grounds found, by rw [Root.ground, behind, Backing.home], rfl⟩

/-- A read through a region over a buffer gets the bytes of the buffer, -/
theorem read (wraps : s.Wraps r id start) (held : s.flat.arrays (.buffer id) = some array)
    (reads : x.direction = .read) (moved : x.onFlat? r offset s.flat = some (bytes, M)) :
    bytes = cut array (start + offset) x.size := by
  obtain ⟨ground, grounded, homed, rfl⟩ := wraps.ground
  simp only [Transfer.onFlat?, reads, Option.map_eq_some_iff, Prod.mk.injEq] at moved
  obtain ⟨_, read, rfl, -⟩ := moved
  exact FlatMemory.read?_array grounded (homed ▸ held) read

/-- and a write goes over them. -/
theorem written (wraps : s.Wraps r id start) (held : s.flat.arrays (.buffer id) = some array)
    (writes : x.direction = .write) (moved : x.onFlat? r offset s.flat = some (bytes, M)) :
    M.arrays (.buffer id) = some (splice array (start + offset) x.payload) := by
  obtain ⟨ground, grounded, homed, rfl⟩ := wraps.ground
  simp only [Transfer.onFlat?, writes, Option.map_eq_some_iff, Prod.mk.injEq] at moved
  obtain ⟨_, written, -, rfl⟩ := moved
  rw [← homed]
  exact FlatMemory.write?_array grounded (homed ▸ held) written

end Store.Wraps

namespace Session

/-- What a buffer of `size` bytes shows when it holds `bytes`, and what is found there
through regions that wrap it or a part of it. -/
structure Shows (s : Session) (id : BufferId) (size : Nat) (bytes : Bytes) : Prop where
  length : bytes.length = size
  shown : s.store.bytesOf? id = some bytes
  /-- All that the buffer tells of itself. It has the fewest whole pages. -/
  contents (t : ScalarType) : ∃ capacity,
    IsLeast {n | 0 < n ∧ s.store.machine.pageSize ∣ n ∧ size ≤ n} capacity ∧
      (s.store.buffers[id]?).bind (·.contents? t s.store) = some {
        length := size
        capacity
        isEmpty := size = 0
        bytes
        scalars := Buffer.scalars? t bytes }
  /-- What any region over it reads is what it shows, from where the region begins on. -/
  read {name : String} {r : Region} {start : Nat} {how : RegionUse} {x : Transfer} {offset : Nat} :
    s.handles.find? name = some (.region r) → s.store.Wraps r id start →
      r.transfer? how = some (x, offset) → x.direction = .read →
        x.refusal? r s.store offset = none →
          s.use name (.region how) = (x.answer (cut bytes (start + offset) x.size), s)
  /-- What any region over it writes is shown there from then on. -/
  written {name : String} {r : Region} {start : Nat} {how : RegionUse} {x : Transfer}
      {offset : Nat} :
    s.handles.find? name = some (.region r) → s.store.Wraps r id start →
      r.transfer? how = some (x, offset) → x.direction = .write →
        x.refusal? r s.store offset = none →
          ∃ store, s.use name (.region how) = (.done, { s with store }) ∧
            store.bytesOf? id = some (splice bytes (start + offset) x.payload)
  /-- There are scalars to be seen only if they fill the buffer, -/
  undivided (t : ScalarType) : ¬ t.width ∣ size → Buffer.scalars? t bytes = none
  /-- and then they are those that are read through a region over all of it. -/
  scalars {name : String} {r : Region} (t : ScalarType) : t.width ∣ size →
    ∃ vs, Buffer.scalars? t bytes = some vs ∧ vs.length = size / t.width ∧
      (s.handles.find? name = some (.region r) → s.store.Wraps r id 0 → r.length = size →
        r.isValid s.store = true → r.isReadable = true →
          s.use name (.region (.readSlice t 0 (size / t.width) .native)) = (.scalars t vs, s))
  /-- Any range of the buffer can be wrapped, and the region begins where the range does. -/
  wrapped {name buffer : String} {offset length : Nat} :
    s.handles.find? buffer = some (.buffer id) → offset + length ≤ size →
      ∃ after r, s.step (.make name (.wrapWithin buffer offset length)) = (.bound, after) ∧
        after.handles.find? name = some (.region r) ∧ after.store.Wraps r id offset ∧
          r.length = length ∧ r.isValid after.store = true ∧ r.isReadable = true ∧
            r.isWritable = true

variable {s : Session} {id : BufferId} {b : Buffer} {block : BlockId} {bytes : Bytes}
  {name : String} {r : Region} {start : Nat}

section Access

variable {how : RegionUse} {x : Transfer} {offset : Nat}

theorem Ready.read_wraps (ready : s.Ready) (held : s.store.flat.arrays (.buffer id) = some bytes)
    (found : s.handles.find? name = some (.region r)) (wraps : s.store.Wraps r id start)
    (moves : r.transfer? how = some (x, offset)) (reads : x.direction = .read)
    (free : x.refusal? r s.store offset = none) :
    s.use name (.region how) = (x.answer (cut bytes (start + offset) x.size), s) := by
  obtain ⟨moved, after, run, flat⟩ :=
    Transfer.run_of_free (ready.served found rfl) ready.sound.apart free
  have same := Transfer.unchanged run (.inl reads)
  simp only [use_transfer found moves, Operation.settle, run, id_eq, same,
    wraps.read held reads flat]

theorem Ready.write_wraps (ready : s.Ready) (held : s.store.flat.arrays (.buffer id) = some bytes)
    (found : s.handles.find? name = some (.region r)) (wraps : s.store.Wraps r id start)
    (moves : r.transfer? how = some (x, offset)) (writes : x.direction = .write)
    (free : x.refusal? r s.store offset = none) :
    ∃ store, s.use name (.region how) = (.done, { s with store }) ∧ s.store.Resembles store ∧
      store.flat.arrays (.buffer id) = some (splice bytes (start + offset) x.payload) := by
  obtain ⟨moved, after, run, flat⟩ :=
    Transfer.run_of_free (ready.served found rfl) ready.sound.apart free
  have told : x.answer moved = .done := by
    cases x <;> first | rfl | cases writes
  refine ⟨after, ?_, Transfer.resembles run, wraps.written held writes flat⟩
  simp only [use_transfer found moves, Operation.settle, run, id_eq, told]

end Access

/-- The scalars that a buffer shows are those read through a region over all of it. -/
theorem Ready.scalars_wraps (ready : s.Ready)
    (held : s.store.flat.arrays (.buffer id) = some bytes) (t : ScalarType)
    (divides : t.width ∣ bytes.length) :
    ∃ vs, Buffer.scalars? t bytes = some vs ∧ vs.length = bytes.length / t.width ∧
      (s.handles.find? name = some (.region r) → s.store.Wraps r id 0 → r.length = bytes.length →
        r.isValid s.store = true → r.isReadable = true →
          s.use name (.region (.readSlice t 0 (bytes.length / t.width) .native)) =
            (.scalars t vs, s)) := by
  have exact := Nat.div_mul_cancel divides
  refine ⟨_, if_pos (Nat.mod_eq_zero_of_dvd divides), ?_, ?_⟩
  · rw [List.length_map, length_chunks]
  · intro found wraps whole valid readable
    have free : (Transfer.readSlice t (bytes.length / t.width) .native).refusal? r s.store 0 =
        none := by
      refine (Transfer.read_free_iff (ready.served found rfl) rfl rfl ?_).mpr ⟨valid, readable⟩
      rw [Transfer.size, exact, whole, Nat.zero_add]
    have moves : r.transfer? (.readSlice t 0 (bytes.length / t.width) .native) =
        some (.readSlice t (bytes.length / t.width) .native, 0) := rfl
    have read := ready.read_wraps held found wraps moves rfl free
    rw [Transfer.size, exact, cut_all] at read
    exact read

section Wrapping

variable {buffer : String} {offset length : Nat}

/-- A session with one more root, and a name for all of it. -/
private def withRoot (s : Session) (name : String) (root : Root) : Session :=
  let store := { s.store with roots := s.store.roots ++ [root] }
  { s with store }.bind name (.region (.ofRoot s.store.roots.length root.length))

private theorem make_wraps (found : s.store.buffers[id]? = some b) (has : b.block = some block)
    (bound : s.handles.find? buffer = some (.buffer id)) (fits : offset + length ≤ b.length) :
    s.make name (.wrapWithin buffer offset length) =
      (.bound, s.withRoot name { backing := .buffer id true, block, base := offset, length }) := by
  have known : s.buffer? buffer = some id := by
    rw [buffer?, bound]
  simp only [make, known, bindRegion, bindMade, Operation.bind_run,
    Region.wrapWithin_run found has fits]
  rfl

/-- A root that was just bound is still there once all is swept that nobody holds. -/
private theorem withRoot_swept (faithful : s.handles.Faithful) (name : String) (root : Root) :
    (s.withRoot name root).sweep.handles.find? name =
        some (.region (.ofRoot s.store.roots.length root.length)) ∧
      (s.withRoot name root).sweep.store.roots[s.store.roots.length]? = some root := by
  have found : (s.withRoot name root).handles.find? name =
      some (.region (.ofRoot s.store.roots.length root.length)) :=
    Names.find?_bind_same s.handles name _
  have reached := reaches_of_find? (s := s.withRoot name root) (faithful.bind name _) found
  exact ⟨by rw [sweep_handles, found], (sweep_root reached).trans List.getElem?_concat_length⟩

/-- A wrapped range is still there once all is swept that nobody holds. -/
theorem Ready.wraps (ready : s.Ready) (found : s.store.buffers[id]? = some b)
    (has : b.block = some block) (bound : s.handles.find? buffer = some (.buffer id))
    (fits : offset + length ≤ b.length) :
    ∃ after r, s.step (.make name (.wrapWithin buffer offset length)) = (.bound, after) ∧
      after.handles.find? name = some (.region r) ∧ after.store.Wraps r id offset ∧
        r.length = length ∧ r.isValid after.store = true ∧ r.isReadable = true ∧
          r.isWritable = true := by
  obtain ⟨region, root⟩ := withRoot_swept ready.faithful name
    { backing := .buffer id true, block, base := offset, length }
  refine ⟨_, _, ?_, region, ⟨_, true, root, rfl, rfl⟩, rfl, ?_, rfl, rfl⟩
  · rw [Session.step, Session.perform, make_wraps found has bound fits]
  · simp only [Region.isValid, Store.isValid, Region.ofRoot, root, Root.isValid]

end Wrapping

theorem Ready.shows (ready : s.Ready) (found : s.store.buffers[id]? = some b)
    (alive : b.alive = true) (has : b.block = some block)
    (capacity : IsLeast {n | 0 < n ∧ s.store.machine.pageSize ∣ n ∧ b.length ≤ n} b.capacity) :
    ∃ bytes, s.Shows id b.length bytes := by
  obtain ⟨bytes, held, length, shown⟩ := ready.sound.buffer found alive has
  refine ⟨bytes, length, shown, ?contents, ready.read_wraps held, ?written, ?undivided, ?scalars,
    ready.wraps found has⟩
  case contents =>
    intro t
    refine ⟨b.capacity, capacity, ?_⟩
    rw [Store.bytesOf?, found, Option.bind_some] at shown
    simp only [found, Option.bind_some, Buffer.contents?, shown, Option.bind_eq_bind]
    rfl
  case written =>
    intro name r start how x offset bound wraps moves writes free
    obtain ⟨store, run, alike, array⟩ := ready.write_wraps held bound wraps moves writes free
    have found' : store.buffers[id]? = some b := alike.buffers ▸ found
    have changes : Store.Changes True False s.store store := .single (.rewrite alike)
    obtain ⟨bytes', held', -, shown'⟩ := (changes.sound ready.sound).buffer found' alive has
    cases array.symm.trans held'
    exact ⟨store, run, shown'⟩
  case undivided =>
    intro t uneven
    exact if_neg fun even => uneven (Nat.dvd_of_mod_eq_zero (length ▸ even))
  case scalars =>
    intro name r t
    rw [← length]
    exact ready.scalars_wraps held t

/-- A buffer is made if it has room for its bytes, its size is a word, and the machine grants
it whole pages. -/
theorem make_buffer_bound_iff {size : Nat} :
    (s.make name (.newBuffer size bytes)).1 = .bound ↔
      bytes.length ≤ size ∧ size < Word.modulus ∧ s.store.grantsBuffer size = .ok () := by
  simp only [make, makeBuffer]
  split
  case isTrue usable =>
    cases granted : s.store.grantsBuffer size with
    | ok _ =>
        obtain ⟨after, run⟩ := Buffer.allocateWith_granted usable.1 granted
        simp only [run, usable.1, usable.2, and_self]
    | error e =>
        simp only [Buffer.allocateWith_run, granted, reduceCtorEq, and_false]
  case isFalse unusable =>
    simp only [reduceCtorEq, false_iff]
    exact fun made => unusable ⟨made.1, made.2.1⟩

/-- The buffer that a making bound comes last. -/
theorem make_buffer {size : Nat} (bound : (s.make name (.newBuffer size bytes)).1 = .bound) :
    (s.make name (.newBuffer size bytes)).2.store.buffers[s.store.buffers.length]? = some {
      block := some s.store.blocks.length
      length := size
      capacity := Machine.pageCapacity s.store.machine.pageSize size } := by
  obtain ⟨fits, word, granted⟩ := make_buffer_bound_iff.mp bound
  obtain ⟨after, run⟩ := Buffer.allocateWith_granted fits granted
  simp only [make, makeBuffer, fits, word, and_self, if_true, run]
  exact (Buffer.allocateWith_made run).2.2

/-- A buffer that was made shows what is in it after any run, as long as it is held. -/
theorem Ready.shows_made (ready : s.Ready) (tidy : s.Tidy) {after : List Command} {made : Session}
    {size : Nat} (makes : s.step (.make name (.newBuffer size bytes)) = (.bound, made))
    (orderly : ∀ command ∈ after, command.Orderly)
    (alive : (Session.run after made).2.store.bufferAlive s.store.buffers.length = true) :
    (Session.run after made).2.store.machine = s.store.machine ∧
      ∃ contents, (Session.run after made).2.Shows s.store.buffers.length size contents := by
  have bound : (s.make name (.newBuffer size bytes)).1 = .bound := congrArg Prod.fst makes
  have swept : (s.make name (.newBuffer size bytes)).2.sweep = made := congrArg Prod.snd makes
  have usual : (Command.make name (.newBuffer size bytes)).Orderly := trivial
  have ready' : made.Ready := swept ▸ (ready.performed usual).swept
  have tidy' : made.Tidy := swept ▸ tidy.step (.make name (.newBuffer size bytes))
  have making : Store.Changes False True s.store (s.make name (.newBuffer size bytes)).2.store :=
    ready.anchored.perform_changes (.make name (.newBuffer size bytes))
  have since : Store.Changes False True (s.make name (.newBuffer size bytes)).2.store
      (Session.run after made).2.store :=
    (swept ▸ sweep_changes _).trans (ready'.anchored.run_changes tidy' after)
  obtain ⟨still, found⟩ := since.buffer_stays (make_buffer bound)
  rw [Store.bufferAlive, found, Option.any_some] at alive
  have machine := Store.Changes.machine (making.trans since)
  refine ⟨machine, (ready'.run orderly).2.shows found alive rfl ?_⟩
  obtain ⟨-, word, granted⟩ := make_buffer_bound_iff.mp bound
  rw [machine]
  exact Machine.isLeast_of_grant word granted

/-- Page buffers of any size, on machines with pages of any size. The capacity that the mask
leaves is the least, and there are machines that grant it. On every machine, whatever has
been done before, a buffer is made as soon as it has room for its bytes and is granted; and
whatever becomes of memory after that, it shows what is in it for as long as it is held. -/
theorem run_page_buffers :
    (∀ k size, max size 1 + 2 ^ k < 2 ^ 64 →
      IsLeast {n | 0 < n ∧ 2 ^ k ∣ n ∧ size ≤ n} (Machine.pageCapacity (2 ^ k) size) ∧
        ∃ machine : Machine, machine.pageSize = 2 ^ k ∧
          ∀ taken, machine.grant .pages taken (Machine.pageCapacity (2 ^ k) size) = .ok ()) ∧
    ∀ (machine : Machine) (files : FileTree) (before after : List Command) (name : String)
      (size : Nat) (bytes : Bytes) (start : Session),
      (∀ command ∈ before ++ after, command.Orderly) →
        (Session.run before (.initial machine files)).2 = start →
          ((start.step (.make name (.newBuffer size bytes))).1 = .bound ↔
            bytes.length ≤ size ∧ size < Word.modulus ∧
              machine.grant .pages (start.store.blocks.map Block.shape)
                (Machine.pageCapacity machine.pageSize size) = .ok ()) ∧
          ∀ made s, start.step (.make name (.newBuffer size bytes)) = (.bound, made) →
            (Session.run after made).2 = s →
              s.store.bufferAlive start.store.buffers.length = true →
                s.store.machine = machine ∧
                  ∃ contents, s.Shows start.store.buffers.length size contents := by
  refine ⟨fun k size room => ?_, ?_⟩
  · exact ⟨Machine.isLeast_pageCapacity (Nat.le_of_lt room),
      Machine.exists_grants_pageCapacity (Nat.le_of_lt room)⟩
  intro machine files before after name size bytes start orderly begins
  have ready : start.Ready := begins ▸ ((Ready.empty machine files).run fun command member =>
    orderly command (List.mem_append_left after member)).2
  have tidy : start.Tidy := begins ▸ run_tidy machine files before
  have same : start.store.machine = machine := begins ▸ run_machine machine files before
  subst same
  refine ⟨make_buffer_bound_iff, ?_⟩
  rintro made s makes rfl alive
  exact ready.shows_made tidy makes
    (fun command member => orderly command (List.mem_append_right before member)) alive

/-- On a machine with pages of 64 KiB: a scalar written through a region over a part of a
buffer, which is shown where the part lies in it; and a buffer of 1 TiB, which is granted as
well. -/
theorem run_page_buffers_part :
    let machine : Machine := .below 16 Word.modulus (Nat.le_refl _)
    let before : List Command := [.make "first" (.newBuffer 1 []), .make "array" (.newArray 4)]
    let after : List Command := [.make "whole" (.wrap "buffer"),
      .make "part" (.wrapWithin "buffer" 3 6),
      .use "part" (.region (.write .u16 1 0xabcd .bigEndian))]
    let start := (Session.run before (.initial machine .bare)).2
    let made := (start.step (.make "buffer" (.newBuffer 10 [1, 2, 3]))).2
    let s := (Session.run after made).2
    IsLeast {n | 0 < n ∧ 2 ^ 16 ∣ n ∧ 65537 ≤ n} (Machine.pageCapacity (2 ^ 16) 65537) ∧
      (∀ command ∈ before ++ after, command.Orderly) ∧
        start.step (.make "buffer" (.newBuffer 10 [1, 2, 3])) = (.bound, made) ∧
          s.store.bufferAlive start.store.buffers.length = true ∧
            s.Shows start.store.buffers.length 10 [1, 2, 3, 0, 0xab, 0xcd, 0, 0, 0, 0] ∧
              (start.step (.make "large" (.newBuffer (2 ^ 40) []))).1 = .bound := by
  intro machine before after start made s
  have orderly : ∀ command ∈ before ++ after, command.Orderly := by
    simp [before, after, Command.Orderly, Making.Fits, Word.modulus]
  have alive : s.store.bufferAlive start.store.buffers.length = true := by decide +kernel
  have shown : s.store.bytesOf? start.store.buffers.length =
      some [1, 2, 3, 0, 0xab, 0xcd, 0, 0, 0, 0] := by decide +kernel
  have granted (size : Nat) (nonzero : Machine.pageCapacity machine.pageSize size ≠ 0) :
      machine.grant .pages (start.store.blocks.map Block.shape)
        (Machine.pageCapacity machine.pageSize size) = .ok () :=
    Machine.grantBelow_pages nonzero (BitVec.isLt _)
  obtain ⟨capacity, runs⟩ := run_page_buffers
  obtain ⟨made_iff, shows⟩ :=
    runs machine .bare before after "buffer" 10 [1, 2, 3] start orderly rfl
  have bound : (start.step (.make "buffer" (.newBuffer 10 [1, 2, 3]))).1 = .bound :=
    made_iff.mpr ⟨by decide, by decide, granted 10 (by decide +kernel)⟩
  have makes : start.step (.make "buffer" (.newBuffer 10 [1, 2, 3])) = (.bound, made) := by
    rw [← bound]
  obtain ⟨-, contents, shows⟩ := shows made s makes rfl alive
  cases shown.symm.trans shows.shown
  have large := (runs machine .bare before after "large" (2 ^ 40) [] start orderly rfl).1
  exact ⟨(capacity 16 65537 (by decide)).1, orderly, makes, alive, shows,
    large.mpr ⟨by decide, by decide, granted (2 ^ 40) (by decide +kernel)⟩⟩

end Session

end BoundedMemory
