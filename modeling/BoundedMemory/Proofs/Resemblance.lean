import BoundedMemory.Proofs.Denial
import BoundedMemory.Proofs.Oblivious

/-!
Stores that differ in nothing but what is in their memory. Where a region lets nothing
be read, no use of it can tell two such stores apart, and both are left alike again:
writes go through in both or in neither, and the life of roots does not depend on
what they hold.
-/

namespace BoundedMemory

/-- Stores that differ in nothing but the contents of their blocks. -/
structure Store.Resembles (s t : Store) : Prop where
  machine : s.machine = t.machine
  blocks : s.blocks.map Block.shape = t.blocks.map Block.shape
  buffers : s.buffers = t.buffers
  roots : s.roots = t.roots
  segments : s.segments = t.segments
  mappings : s.mappings = t.mappings

namespace Store.Resembles

variable {s t : Store}

theorem refl (s : Store) : s.Resembles s where
  machine := rfl
  blocks := rfl
  buffers := rfl
  roots := rfl
  segments := rfl
  mappings := rfl

theorem symm (h : s.Resembles t) : t.Resembles s where
  machine := h.machine.symm
  blocks := h.blocks.symm
  buffers := h.buffers.symm
  roots := h.roots.symm
  segments := h.segments.symm
  mappings := h.mappings.symm

theorem trans {u : Store} (h : s.Resembles t) (h' : t.Resembles u) : s.Resembles u where
  machine := h.machine.trans h'.machine
  blocks := h.blocks.trans h'.blocks
  buffers := h.buffers.trans h'.buffers
  roots := h.roots.trans h'.roots
  segments := h.segments.trans h'.segments
  mappings := h.mappings.trans h'.mappings

theorem isValid (h : s.Resembles t) : s.isValid = t.isValid := by
  funext id
  unfold Store.isValid
  rw [h.roots]

theorem isMapped (h : s.Resembles t) : s.isMapped = t.isMapped := by
  funext root
  unfold Store.isMapped
  rw [h.mappings]

/-- A block that is in one store has a counterpart in the other. -/
theorem block (h : s.Resembles t) {id : BlockId} {b : Block} (stored : s.blocks[id]? = some b) :
    ∃ c, t.blocks[id]? = some c ∧ c.bytes.length = b.bytes.length ∧ c.frees = b.frees := by
  have same := congrArg (·[id]?) h.blocks
  simp only [List.getElem?_map, stored, Option.map_some] at same
  obtain ⟨c, there, shape⟩ := Option.map_eq_some_iff.mp same.symm
  simp only [Block.shape, Prod.mk.injEq] at shape
  exact ⟨c, there, shape.1, shape.2⟩

/-- Homes are apart in one store if they are in the other. -/
theorem apart (h : s.Resembles t) (apart : s.Apart) : t.Apart := by
  have same : t.blockOf? = s.blockOf? := by
    funext home
    cases home <;> simp only [Store.blockOf?, h.roots, h.buffers, h.segments]
  have count : t.blocks.length = s.blocks.length := by
    simpa only [List.length_map] using congrArg List.length h.blocks.symm
  exact {
    homed := fun id root found => by
      rw [same]
      exact apart.homed id root (h.roots ▸ found)
    inside := fun home block found => by
      rw [same] at found
      rw [count]
      exact apart.inside home block found
    distinct := fun home other block found found' => by
      rw [same] at found found'
      exact apart.distinct home other block found found' }

section Changes

variable (h : s.Resembles t)

include h

theorem setBacking (id : RootId) (backing : Backing) :
    (s.setBacking id backing).Resembles (t.setBacking id backing) where
  machine := h.machine
  blocks := h.blocks
  buffers := h.buffers
  roots := congrArg (List.modify · id _) h.roots
  segments := h.segments
  mappings := h.mappings

theorem letGo (id : RootId) :
    ({ s with roots := s.roots.modify id fun r => { r with held := false } } : Store).Resembles
      { t with roots := t.roots.modify id fun r => { r with held := false } } where
  machine := h.machine
  blocks := h.blocks
  buffers := h.buffers
  roots := congrArg (List.modify · id _) h.roots
  segments := h.segments
  mappings := h.mappings

theorem endBuffer (id : BufferId) :
    ({ s with buffers := s.buffers.modify id fun b => { b with alive := false } } :
      Store).Resembles
      { t with buffers := t.buffers.modify id fun b => { b with alive := false } } where
  machine := h.machine
  blocks := h.blocks
  buffers := congrArg (List.modify · id _) h.buffers
  roots := h.roots
  segments := h.segments
  mappings := h.mappings

theorem freeBlock (id : BlockId) : (s.freeBlock id).Resembles (t.freeBlock id) where
  machine := h.machine
  blocks := by
    have freed (bs : List Block) :
        (bs.modify id fun b => { b with frees := b.frees + 1 }).map Block.shape =
          (bs.map Block.shape).modify id fun shape => (shape.1, shape.2 + 1) := by
      apply List.ext_getElem?
      intro j
      simp only [List.getElem?_map, List.getElem?_modify]
      cases bs[j]? with
      | none => rfl
      | some b =>
          simp only [Option.map_eq_map, Option.map_some]
          split <;> rfl
    exact (freed s.blocks).trans (h.blocks ▸ (freed t.blocks).symm)
  buffers := h.buffers
  roots := h.roots
  segments := h.segments
  mappings := h.mappings

theorem setPhase (id : SegmentId) (phase : Segment.Phase) :
    (s.setPhase id phase).Resembles (t.setPhase id phase) where
  machine := h.machine
  blocks := h.blocks
  buffers := h.buffers
  roots := h.roots
  segments := congrArg (List.modify · id _) h.segments
  mappings := h.mappings

theorem unmapped (id : MappingId) (segment : SegmentId) :
    ({ s with mappings := s.mappings.set id ⟨segment, false⟩ } : Store).Resembles
      { t with mappings := t.mappings.set id ⟨segment, false⟩ } where
  machine := h.machine
  blocks := h.blocks
  buffers := h.buffers
  roots := h.roots
  segments := h.segments
  mappings := congrArg (List.set · id _) h.mappings

theorem reclaim (id : SegmentId) : (s.reclaim id).Resembles (t.reclaim id) := by
  have mapped : s.isMappedSomewhere id = t.isMappedSomewhere id := by
    unfold Store.isMappedSomewhere
    rw [h.mappings]
  unfold Store.reclaim
  rw [← h.segments, ← mapped]
  cases s.segments[id]? with
  | none => exact h
  | some g =>
      simp only
      split
      · exact (h.setPhase id .gone).freeBlock g.block
      · exact h

/-- Blocks that are as long and as often freed as before. -/
theorem setBytes {id : BlockId} {b c : Block} {bytes bytes' : Bytes}
    (length : bytes.length = bytes'.length) (frees : b.frees = c.frees) :
    (s.setBytes id b bytes).Resembles (t.setBytes id c bytes') where
  machine := h.machine
  blocks := by
    simp only [Store.setBytes, List.map_set, h.blocks, Block.shape, length, frees]
  buffers := h.buffers
  roots := h.roots
  segments := h.segments
  mappings := h.mappings

/-- Memory that is there in one store is there in the other. -/
theorem reaches {r : Region} {offset n : Nat} {root : Root} {b : Block}
    (reach : r.Reaches s offset n root b) :
    ∃ c, r.Reaches t offset n root c ∧ c.bytes.length = b.bytes.length ∧ c.frees = b.frees := by
  obtain ⟨c, stored, length, frees⟩ := h.block reach.stored
  refine ⟨c, ?_, length, frees⟩
  exact {
    found := h.roots ▸ reach.found
    stored
    valid := reach.valid
    mapped := h.isMapped ▸ reach.mapped
    live := by
      unfold Block.live
      rw [frees]
      exact reach.live
    inRoot := reach.inRoot
    inBlock := length ▸ reach.inBlock
    stopFits := reach.stopFits
    startFits := reach.startFits }

/-- The same bytes are written in both stores, or in neither. -/
theorem poke? (r : Region) (offset : Nat) (bytes : Bytes) :
    (r.poke? s offset bytes = none ∧ r.poke? t offset bytes = none) ∨
      ∃ s' t', r.poke? s offset bytes = some s' ∧ r.poke? t offset bytes = some t' ∧
        s'.Resembles t' ∧ s'.isValid = s.isValid := by
  cases written : r.poke? s offset bytes with
  | some s' =>
      obtain ⟨root, b, reach, rfl⟩ := Region.poke?_eq_some_iff.mp written
      obtain ⟨c, there, length, frees⟩ := h.reaches reach
      have written' := Region.poke?_eq_some_iff.mpr ⟨root, c, there, rfl⟩
      refine .inr ⟨_, _, rfl, written', h.setBytes ?_ frees.symm, rfl⟩
      rw [length_splice reach.inBlock, length_splice there.inBlock, length]
  | none =>
      refine .inl ⟨rfl, ?_⟩
      rw [Option.eq_none_iff_forall_ne_some]
      intro t' written'
      obtain ⟨root, c, reach, -⟩ := Region.poke?_eq_some_iff.mp written'
      obtain ⟨b, there, -⟩ := h.symm.reaches reach
      have found := Region.poke?_eq_some_iff.mpr ⟨root, b, there, rfl⟩
      rw [written] at found
      cases found

end Changes

end Store.Resembles

/-- Stores alike, in which a region lets nothing be read. -/
structure Region.Blind (r : Region) (s t : Store) : Prop where
  alike : s.Resembles t
  denies : r.Denies s .read

section Accesses

variable {r : Region} {s t : Store}

open Operation (Oblivious Beside Alike)

theorem Transfer.oblivious (x : Transfer) (r : Region) (offset : Nat) :
    Oblivious r.Blind (x.run r offset) := by
  intro s t h
  have refusal : x.refusal? r t offset = x.refusal? r s offset := by
    rw [refusal?_congr (congrFun h.alike.isValid r.root)]
  rw [run_eq, run_eq, refusal]
  cases free : x.refusal? r s offset with
  | some fault => exact ⟨rfl, h⟩
  | none =>
      have allowed := (refusal?_eq_none_iff.mp free).2.1
      cases direction : x.direction with
      | read =>
          rw [direction] at allowed
          exact absurd allowed (h.denies _ _ _)
      | write =>
          simp only [outcome?, direction]
          by_cases nothing : x.size = 0
          · simp only [nothing, if_true]
            exact ⟨rfl, h⟩
          · simp only [nothing, if_false]
            obtain ⟨none, none'⟩ | ⟨s', t', some, some', alike, same⟩ :=
              h.alike.poke? r offset x.payload
            · rw [none, none']
              exact ⟨rfl, h⟩
            · rw [some, some']
              exact ⟨rfl, alike, h.denies.congr (congrFun same.symm r.root)⟩

theorem Region.readBytes_oblivious (r : Region) (offset count : Nat) :
    Oblivious r.Blind (r.readBytes offset count) :=
  .of_map (f := Reply.bytes) (fun _ _ same => Reply.bytes.inj same)
    ((Transfer.readBytes count).oblivious r offset)

theorem Region.writeBytes_oblivious (r : Region) (offset : Nat) (bytes : Bytes) :
    Oblivious r.Blind (r.writeBytes offset bytes) :=
  .of_map (f := fun _ => Reply.done) (fun _ _ _ => rfl)
    ((Transfer.writeBytes bytes).oblivious r offset)

/-- Cursors on a region. -/
abbrev Cursor.On (r : Region) (c : Cursor) : Prop := c.region = r

namespace Cursor

variable {α : Type}

private theorem current_oblivious {f : Cursor → Act α}
    (h : ∀ c, On r c → Oblivious (Beside (On r) r.Blind) (f c)) :
    Oblivious (Beside (On r) r.Blind) (current >>= f) :=
  .second h

private theorem place_oblivious (mark : Mark) :
    Oblivious (Beside (On r) r.Blind) (place mark) :=
  .changeSecond (f := fun c : Cursor => { c with mark }) fun _ here => here

private theorem moveOn_oblivious (n : Nat) : Oblivious (Beside (On r) r.Blind) (moveOn n) :=
  current_oblivious fun _ _ => .defined fun _ => place_oblivious _

theorem transferAt_oblivious (c : Cursor) (x : Transfer) (offset : Nat) :
    Oblivious c.region.Blind (c.transferAt x offset) := by
  unfold transferAt
  cases x.lengthFault? with
  | some fault => exact .refuse fault
  | none => exact .check fun _ => x.oblivious c.region offset

theorem transfer_oblivious (x : Transfer) : Oblivious (Beside (On r) r.Blind) (transfer x) := by
  refine current_oblivious fun c here => ?_
  subst here
  refine (c.transferAt_oblivious x c.position).onFirst.bind fun reply => ?_
  exact (moveOn_oblivious x.size).map fun _ => reply

private theorem padTo_oblivious (width : Nat) (byte : UInt8) :
    Oblivious (Beside (On r) r.Blind) (padTo width byte) := by
  refine current_oblivious fun c here => ?_
  subst here
  refine .check fun skip => ?_
  have cleared : Oblivious c.region.Blind (c.region.clear byte c.position skip) :=
    .of_map (f := fun _ => Reply.done) (fun _ _ _ => rfl)
      ((Transfer.clear byte skip).oblivious c.region c.position)
  by_cases nothing : skip = 0
  · simp only [nothing, ne_eq, not_true_eq_false, if_false]
    exact .pure 0
  · simp only [ne_eq, nothing, not_false_eq_true, if_true]
    exact cleared.onFirst.bind fun _ => (moveOn_oblivious skip).map fun _ => skip

private theorem setPosition_oblivious (position : Nat) :
    Oblivious (Beside (On r) r.Blind) (setPosition position) :=
  current_oblivious fun _ _ => .check fun _ => place_oblivious _

private theorem advance_oblivious (n : Nat) : Oblivious (Beside (On r) r.Blind) (advance n) :=
  current_oblivious fun _ _ => .check fun _ => (moveOn_oblivious n).bind fun _ =>
    current_oblivious fun c _ => .pure c.position

private theorem setLimit_oblivious (limit : Nat) :
    Oblivious (Beside (On r) r.Blind) (setLimit limit) :=
  current_oblivious fun _ _ => .check fun _ => place_oblivious _

private theorem setOrder_oblivious (order : ByteOrder) :
    Oblivious (Beside (On r) r.Blind) (setOrder order) :=
  current_oblivious fun _ _ => place_oblivious _

private theorem save_oblivious : Oblivious (Beside (On r) r.Blind) save :=
  .bind (.changeSecond (f := fun c : Cursor => { c with saved := c.mark :: c.saved })
    fun _ here => here) fun _ => current_oblivious fun c _ => .pure c.mark

private theorem restore_oblivious : Oblivious (Beside (On r) r.Blind) restore := by
  refine current_oblivious fun c _ => ?_
  cases c.saved with
  | nil => exact .pure none
  | cons mark saved =>
      refine .bind (.changeSecond (f := fun c : Cursor => { c with mark, saved }) ?_) fun _ =>
        .pure (some mark)
      exact fun _ here => here

private theorem alignTo_oblivious (width : Nat) :
    Oblivious (Beside (On r) r.Blind) (alignTo width) :=
  current_oblivious fun _ _ => .check fun skip => (moveOn_oblivious skip).map fun _ => skip

end Cursor

theorem CursorUse.alike (how : CursorUse) {c : Cursor} (h : c.region.Blind s t) :
    Alike (Beside (Cursor.On c.region) c.region.Blind) (how.run (s, c)) (how.run (t, c)) := by
  have start : Beside (Cursor.On c.region) c.region.Blind (s, c) (t, c) := ⟨h, rfl, rfl⟩
  cases transfer : c.transfer? how with
  | some found =>
      obtain ⟨x, place⟩ := found
      rw [Cursor.run_use transfer, Cursor.run_use transfer]
      cases place with
      | none => exact (Cursor.transfer_oblivious x).settle start _ _
      | some offset => exact (c.transferAt_oblivious x offset).onFirst.settle start _ _
  | none =>
      cases how with
      | setPosition position => exact (Cursor.setPosition_oblivious position).settle start _ _
      | advance n => exact (Cursor.advance_oblivious n).settle start _ _
      | setLimit limit => exact (Cursor.setLimit_oblivious limit).settle start _ _
      | setOrder order => exact (Cursor.setOrder_oblivious order).settle start .fault fun _ => .done
      | mark => exact ⟨rfl, start⟩
      | save => exact Cursor.save_oblivious.settle start _ _
      | restore => exact Cursor.restore_oblivious.settle start _ _
      | pad width byte => exact (Cursor.padTo_oblivious width byte).settle start _ _
      | align width => exact (Cursor.alignTo_oblivious width).settle start _ _
      | padToWord byte => exact (Cursor.padTo_oblivious Host.wordSize byte).settle start _ _
      | alignToWord => exact (Cursor.alignTo_oblivious Host.wordSize).settle start _ _
      | _ => cases transfer

/-- Windows on a region. -/
abbrev Window.On (r : Region) (w : Window) : Prop := w.region = r

namespace Window

variable {ε α : Type}

private theorem current_oblivious {f : Window → Act ε α}
    (h : ∀ w, On r w → Oblivious (Beside (On r) r.Blind) (f w)) :
    Oblivious (Beside (On r) r.Blind) (current >>= f) :=
  .second h

private theorem moveTo_oblivious (offset : Nat) :
    Oblivious (Beside (On r) r.Blind) (moveTo offset : Act ε Unit) :=
  .changeSecond (f := fun w : Window => { w with offset }) fun _ here => here

private theorem moveOn_oblivious (n : Nat) :
    Oblivious (Beside (On r) r.Blind) (moveOn n : Act ε Unit) :=
  current_oblivious fun _ _ => .defined fun _ => moveTo_oblivious _

theorem seekTo_oblivious (offset : Nat) : Oblivious (Beside (On r) r.Blind) (seekTo offset) := by
  refine current_oblivious fun w _ => ?_
  by_cases outside : offset < w.start ∨ w.stop < offset
  · simp only [outside, if_true]
    exact .bind (.refuse _) fun _ => moveTo_oblivious offset
  · simp only [outside, if_false]
    exact moveTo_oblivious offset

theorem skip_oblivious (n : Nat) :
    Oblivious (Beside (On r) r.Blind) (skip n : Act ε Nat) :=
  current_oblivious fun _ _ => (moveOn_oblivious _).map _

theorem seek_oblivious (wanted : SeekFrom) : Oblivious (Beside (On r) r.Blind) (seek wanted) := by
  refine current_oblivious fun w _ => ?_
  cases w.target? wanted with
  | none => exact .refuse _
  | some target =>
      refine ((seekTo_oblivious target).mapFault _).bind fun _ => ?_
      cases Word.sub? target w.start with
      | none => exact fun _ _ related => ⟨rfl, related⟩
      | some position => exact .pure position

end Window

theorem WindowUse.alike (how : WindowUse) {w : Window} (h : w.region.Blind s t) :
    Alike (Beside (Window.On w.region) w.region.Blind) (how.run (s, w)) (how.run (t, w)) := by
  have start : Beside (Window.On w.region) w.region.Blind (s, w) (t, w) := ⟨h, rfl, rfl⟩
  cases how with
  | seekTo offset => exact (Window.seekTo_oblivious offset).settle start _ _
  | skip n => exact (Window.skip_oblivious n).settle start _ _
  | seek wanted => exact (Window.seek_oblivious wanted).settle start _ _
  | rewind =>
      have rewind : Oblivious (Beside (Window.On w.region) w.region.Blind) Window.rewind :=
        (Window.seek_oblivious _).map _
      unfold WindowUse.run
      exact rewind.settle start _ _
  | tell =>
      have tell : Oblivious (Beside (Window.On w.region) w.region.Blind) Window.tell :=
        Window.seek_oblivious _
      unfold WindowUse.run
      exact tell.settle start _ _

theorem Reader.read_oblivious (n : Nat) :
    Oblivious (Beside (Window.On r) r.Blind) (Reader.read n) := by
  refine Window.current_oblivious fun w here => ?_
  subst here
  by_cases nothing : min n w.available = 0
  · simp only [nothing, if_true]
    exact .pure []
  · simp only [nothing, if_false]
    refine (w.region.readBytes_oblivious _ _).onFirst.bind fun bytes => ?_
    exact (Window.moveOn_oblivious _).map fun _ => bytes

theorem ReaderUse.alike (how : ReaderUse) {w : Window} (h : w.region.Blind s t) :
    Alike (Beside (Window.On w.region) w.region.Blind) (how.run (s, w)) (how.run (t, w)) := by
  have start : Beside (Window.On w.region) w.region.Blind (s, w) (t, w) := ⟨h, rfl, rfl⟩
  cases reads : w.readerTouch? how with
  | none =>
      cases how with
      | move how => exact how.alike h
      | _ => cases reads
  | some τ =>
      obtain ⟨read, -⟩ := ReaderUse.run_reads reads
      rw [read.same, read.same]
      exact (Reader.read_oblivious read.size).settle start _ _

theorem Writer.write_oblivious (bytes : Bytes) :
    Oblivious (Beside (Window.On r) r.Blind) (Writer.write bytes) := by
  refine Window.current_oblivious fun w here => ?_
  subst here
  have written : Oblivious (Beside (Window.On w.region) w.region.Blind) (do
      Operation.onFirst (w.region.writeBytes w.offset bytes)
      Window.moveOn bytes.length) :=
    (w.region.writeBytes_oblivious w.offset bytes).onFirst.bind fun _ =>
      Window.moveOn_oblivious bytes.length
  by_cases full : w.available < bytes.length
  · simp only [full, if_true]
    exact .bind (.refuse _) fun _ => written
  · simp only [full, if_false]
    exact written

theorem WriterUse.alike (how : WriterUse) {w : Window} (h : w.region.Blind s t) :
    Alike (Beside (Window.On w.region) w.region.Blind) (how.run (s, w)) (how.run (t, w)) := by
  have start : Beside (Window.On w.region) w.region.Blind (s, w) (t, w) := ⟨h, rfl, rfl⟩
  cases writes : how.writes? with
  | none =>
      cases how with
      | move how => exact how.alike h
      | flush => exact ⟨rfl, start⟩
      | _ => cases writes
  | some found =>
      rcases WriterUse.run_writes writes with rfl | ⟨told, -, same⟩
      · exact ⟨rfl, start⟩
      · rw [same, same]
        exact (Writer.write_oblivious found.1).settle start _ _

end Accesses

end BoundedMemory
