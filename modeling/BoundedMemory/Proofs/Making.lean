import BoundedMemory.Proofs.Growth
import BoundedMemory.Proofs.RegionUses
import BoundedMemory.Proofs.RootContents

/-!
Where new regions lie. Each way of making a root is described by its effect on
flat memory: an array of its own with given contents, or a range of an array that
a buffer or segment has already. Whatever is taken before a making fails is out of
everybody's reach.
-/

namespace BoundedMemory

namespace FlatMemory

/-- A new root with an array of its own, of which the region is all but what lies
around `[base, base + length)`. -/
def Founds (M M' : FlatMemory) (r : Region) (bytes : Bytes) (base length : Nat) : Prop :=
  r = .ofRoot r.root length ∧
    M' = (M.put (.own r.root) bytes).add r.root { home := .own r.root, base, length }

/-- A new root over a range of an array that is there. -/
def Shares (M M' : FlatMemory) (r : Region) (home : Home) (base length : Nat) : Prop :=
  r = .ofRoot r.root length ∧ M' = M.add r.root { home, base, length }

/-- A new root over a segment, which may be as new as the root and then is all zero. -/
def Attaches (M M' : FlatMemory) (r : Region) (size : Nat) : Prop :=
  ∃ (segment : SegmentId) (M₁ : FlatMemory),
    (M₁ = M ∨ M.arrays (.segment segment) = none ∧
      M₁ = M.put (.segment segment) (List.replicate size 0)) ∧
    M₁.Shares M' r (.segment segment) 0 size

theorem extends_founded {M : FlatMemory} {id : RootId} {home : Home}
    (empty : M.arrays home = none) (new : M.grounds id = none) (bytes : Bytes) (ground : Ground) :
    M.Extends ((M.put home bytes).add id ground) := by
  have still : (M.put home bytes).grounds id = none := new
  exact (extends_put empty bytes).trans (extends_add still ground)

end FlatMemory

/-- Making a region only adds to memory, and if it succeeds it lays a root that
was not there as `lays` says. -/
structure Region.Makes (make : Action Store Region) (s : Store)
    (lays : Region → FlatMemory → Prop) : Prop where
  grows : s.Grows (Operation.after make s)
  made (r : Region) (s' : Store) : make s = .ok r s' →
    s.flat.grounds r.root = none ∧ lays r s'.flat

namespace Store

variable {s : Store}

theorem flat_grounds_new (s : Store) : s.flat.grounds s.roots.length = none := by
  simp only [flat, List.getElem?_eq_none (Nat.le_refl _), Option.map_none]

theorem flat_arrays_own {id : RootId} (new : s.flat.grounds id = none) :
    s.flat.arrays (.own id) = none := by
  have nothing : s.roots[id]? = none := by
    simpa only [flat, Option.map_eq_none_iff] using new
  simp only [flat, blockOf?, nothing, Option.bind_none]

end Store

/-- A segment is mapped once it was found; nothing takes the look-up back if that fails. -/
theorem Attachment.lookUp_run (calls : SegmentCalls Store) (key : SegmentKey) (size : Nat)
    (flags : SegmentFlags) (destroys : Bool) (s : Store) :
    (do
      let segment ← Operation.system "shmget" (calls.find key size flags)
      Attachment.map calls key segment destroys : Action Store Attachment) s =
      match calls.find key size flags s with
      | .error e s₁ => .error (.fault (.os "shmget" e)) s₁
      | .ok segment s₁ =>
          match calls.map segment s₁ with
          | .error e s₂ => .error (.fault (.os "shmat" e)) s₂
          | .ok mapping s₂ =>
              .ok { key, segment, mapping, destroyOnRelease := destroys } s₂ := by
  simp only [Attachment.map, Operation.bind_run, Operation.system]
  cases calls.find key size flags s with
  | error e s₁ => rfl
  | ok segment s₁ =>
      simp only
      cases calls.map segment s₁ <;> rfl

namespace Region

variable {s : Store} {lays : Region → FlatMemory → Prop}

private theorem Makes.of_ok {make : Action Store Region} {r : Region} {s' : Store}
    (run : make s = .ok r s') (grows : s.Grows s') (new : s.flat.grounds r.root = none)
    (laid : lays r s'.flat) : Makes make s lays where
  grows := by
    unfold Operation.after
    rw [run]
    exact grows
  made r' t made := by
    rw [run] at made
    cases made
    exact ⟨new, laid⟩

private theorem Makes.of_error {make : Action Store Region} {e : Stop Fault} {s' : Store}
    (run : make s = .error e s') (grows : s.Grows s') : Makes make s lays where
  grows := by
    unfold Operation.after
    rw [run]
    exact grows
  made r t made := by
    rw [run] at made
    cases made

private theorem founds {make : Action Store Region} (h : s.Apart) (backing : Backing)
    (own : backing.home s.roots.length = .own s.roots.length) (bytes : Bytes) (base length : Nat)
    (run : make s = (do
      let block ← Store.newBlock bytes
      newRoot backing block base length) s) :
    Makes make s fun r M' => s.flat.Founds M' r bytes base length := by
  obtain ⟨apart, flat⟩ := h.addOwn bytes
    { backing, block := s.blocks.length, base, length } own rfl
  have ground : ({ backing, block := s.blocks.length, base, length } : Root).ground
      s.roots.length = { home := .own s.roots.length, base, length } := by
    simp only [Root.ground, own]
  rw [ground] at flat
  have new := s.flat_grounds_new
  have wider := FlatMemory.extends_founded (Store.flat_arrays_own new) new bytes
    { home := .own s.roots.length, base, length }
  rw [← flat] at wider
  exact .of_ok (run.trans rfl) ⟨apart, wider⟩ new ⟨rfl, flat⟩

theorem ofBytes_makes (h : s.Apart) (bytes : Bytes) :
    Makes (ofBytes bytes) s fun r M' => s.flat.Founds M' r bytes 0 bytes.length :=
  founds h (.array true) rfl bytes 0 bytes.length rfl

theorem ofBytesWithin_makes (h : s.Apart) (bytes : Bytes) (offset length : Nat) :
    Makes (ofBytesWithin bytes offset length) s fun r M' =>
      s.flat.Founds M' r bytes offset length := by
  by_cases fits : offset + length ≤ bytes.length
  · apply founds h (.array true) rfl
    simp only [ofBytesWithin, Extent.check_eq, fits, if_true, Operation.bind_run,
      Operation.accepted_run]
  · refine .of_error (e := .fault (.outOfBounds offset length bytes.length)) ?_ h.grows
    simp only [ofBytesWithin, Extent.check_eq, fits, if_false, Operation.bind_run,
      Operation.refused_run]

theorem newHeap_makes (h : s.Apart) (what : Request) (operation : String) (size : Nat)
    (byte : UInt8) : Makes (newHeap what operation size byte) s fun r M' =>
      s.flat.Founds M' r (List.replicate size byte) 0 size := by
  have run := newHeap_run what operation size byte s
  cases granted : s.grants what (max size 1) with
  | error e =>
      rw [granted] at run
      exact .of_error run h.grows
  | ok _ =>
      rw [granted] at run
      exact founds h (.heap true) rfl _ 0 size run

theorem resolveAddress_run (b : Buffer) (s : Store) :
    resolveAddress b s =
      match b.block with
      | some block => .ok block s
      | none =>
          if b.length = 0 then
            .ok s.blocks.length { s with blocks := s.blocks ++ [{ bytes := [] }] }
          else .error (.fault noAddress) s := by
  unfold resolveAddress
  cases b.block with
  | some block => rfl
  | none =>
      by_cases empty : b.length = 0
      · simp only [empty, if_true]
        rfl
      · simp only [empty, if_false, Operation.refuse_run]

private theorem shares {s' : Store} {make : Action Store Region} (h : s'.Apart)
    (flat : s'.flat = s.flat) {backing : Backing} {block : BlockId} {base length : Nat}
    (shared : backing.home s'.roots.length ≠ .own s'.roots.length)
    (there : length = 0 ∨ s'.blockOf? (backing.home s'.roots.length) = some block)
    (run : make s = newRoot backing block base length s') :
    Makes make s fun r M' =>
      s.flat.Shares M' r (backing.home s'.roots.length) base length := by
  obtain ⟨apart, after⟩ := h.addShared { backing, block, base, length } shared there
  have new := s'.flat_grounds_new
  rw [flat] at after new
  have wider := FlatMemory.extends_add new
    (({ backing, block, base, length } : Root).ground s'.roots.length)
  rw [← after] at wider
  exact .of_ok (run.trans rfl) ⟨apart, wider⟩ new ⟨rfl, after⟩

theorem wrap_makes (h : s.Apart) {id : BufferId} {b : Buffer} (found : s.buffers[id]? = some b) :
    Makes (wrap id) s fun r M' => s.flat.Shares M' r (.buffer id) 0 b.length := by
  have run : wrap id s = (do
      let block ← resolveAddress b
      newRoot (.buffer id true) block 0 b.length) s := by
    simp only [wrap, Operation.bind_run, Operation.get_run, found, Operation.some_run]
  simp only [Operation.bind_run, resolveAddress_run] at run
  cases placed : b.block with
  | some block =>
      simp only [placed] at run
      refine shares h rfl (fun same => by cases same) (.inr ?_) run
      simp only [Backing.home, Store.blockOf?, found, Option.bind_some, placed]
  | none =>
      by_cases empty : b.length = 0
      · simp only [placed, empty, if_true] at run
        obtain ⟨apart, flat⟩ := h.addBlock { bytes := [] }
        rw [empty]
        exact shares apart flat (fun same => by cases same) (.inl rfl) run
      · simp only [placed, empty, if_false] at run
        exact .of_error run h.grows

theorem wrapWithin_makes (h : s.Apart) {id : BufferId} {b : Buffer}
    (found : s.buffers[id]? = some b) (offset length : Nat) :
    Makes (wrapWithin id offset length) s fun r M' =>
      s.flat.Shares M' r (.buffer id) offset length := by
  have run : wrapWithin id offset length s = (do
      let block ← resolveAddress b
      Extent.check b.length offset length
      newRoot (.buffer id true) block offset length) s := by
    simp only [wrapWithin, Operation.bind_run, Operation.get_run, found, Operation.some_run]
  simp only [Operation.bind_run, resolveAddress_run, Extent.check_eq] at run
  cases placed : b.block with
  | some block =>
      simp only [placed] at run
      by_cases fits : offset + length ≤ b.length
      · simp only [fits, if_true, Operation.accepted_run] at run
        refine shares h rfl (fun same => by cases same) (.inr ?_) run
        simp only [Backing.home, Store.blockOf?, found, Option.bind_some, placed]
      · simp only [fits, if_false, Operation.refused_run] at run
        exact .of_error run h.grows
  | none =>
      by_cases empty : b.length = 0
      · simp only [placed, empty, if_true] at run
        obtain ⟨apart, flat⟩ := h.addBlock { bytes := [] }
        by_cases fits : offset + length ≤ 0
        · simp only [fits, if_true, Operation.accepted_run] at run
          exact shares apart flat (fun same => by cases same) (.inl (by omega)) run
        · simp only [fits, if_false, Operation.refused_run] at run
          exact .of_error run ⟨apart, flat ▸ .refl _⟩
      · simp only [placed, empty, if_false] at run
        exact .of_error run h.grows

/-- Writing over all of what was just made is as good as making it so. -/
private theorem founds_write {M M₁ M₂ : FlatMemory} {r : Region} {bytes payload : Bytes}
    (made : M.Founds M₁ r bytes 0 bytes.length) (length : payload.length = bytes.length)
    (written : M₁.write? r 0 payload = some M₂) : M.Founds M₂ r payload 0 bytes.length := by
  obtain ⟨whole, rfl⟩ := made
  refine ⟨whole, ?_⟩
  unfold FlatMemory.write? at written
  by_cases empty : payload = []
  · have bare : bytes = [] := by
      apply List.eq_nil_of_length_eq_zero
      rw [← length, empty]
      rfl
    simp only [empty, if_true, Option.some.injEq] at written
    rw [← written, empty, bare]
  · have base : r.base = 0 := by
      rw [whole]
      rfl
    have rewritten : splice bytes 0 payload = payload := by
      simp [splice, length]
    have located : ((M.put (.own r.root) bytes).add r.root
        { home := .own r.root, base := 0, length := bytes.length }).locate? r 0 payload.length =
        some (.own r.root, bytes, 0) := by
      simp [FlatMemory.locate?, FlatMemory.add, FlatMemory.put, base, length]
    simp only [empty, if_false, located, Option.map_some, rewritten, Option.some.injEq] at written
    rw [← written]
    show ((M.put _ bytes).put _ payload).add _ _ = _
    rw [FlatMemory.put_put]

/-- Heap memory of which nothing is promised is filled before anybody sees it. -/
theorem allocate_clear_makes (h : s.Apart) (size : Nat) (byte : UInt8) :
    Makes (do
      let r ← allocate size
      r.clearAll byte
      pure r) s fun r M' => s.flat.Founds M' r (List.replicate size byte) 0 size := by
  have fresh := newHeap_makes h .heap "allocate" size 0
  have grows := fresh.grows
  unfold Operation.after at grows
  cases run : allocate size s with
  | error e s₁ =>
      have run' : newHeap .heap "allocate" size 0 s = .error e s₁ := run
      simp only [run'] at grows
      refine .of_error (e := e) ?_ grows
      simp only [Operation.bind_run, run]
  | ok r s₁ =>
      have run' : newHeap .heap "allocate" size 0 s = .ok r s₁ := run
      simp only [run'] at grows
      obtain ⟨new, made⟩ := fresh.made r s₁ run'
      have length : r.length = size := by
        rw [made.1]
        rfl
      have cleared := r.clear_run byte 0 r.length s₁
      cases clear : (Transfer.clear byte r.length).run r 0 s₁ with
      | error e s₂ =>
          simp only [clear] at cleared
          have same := Transfer.run_error clear
          subst same
          refine .of_error (e := e) ?_ grows
          simp only [Operation.bind_run, run, clearAll, cleared]
      | ok reply s₂ =>
          simp only [clear] at cleared
          obtain ⟨apart, bytes, moved, -⟩ := Transfer.run_flat grows.apart clear
          simp only [Transfer.onFlat?, Transfer.direction, Transfer.payload, length,
            Option.map_eq_some_iff, Prod.mk.injEq] at moved
          obtain ⟨M₂, written, -, rfl⟩ := moved
          have zeros : (List.replicate size (0 : UInt8)).length = size := List.length_replicate
          have whole : s.flat.Founds s₁.flat r (List.replicate size 0) 0
              (List.replicate size (0 : UInt8)).length := by
            rw [zeros]
            exact made
          have filled := founds_write whole (by simp) written
          rw [zeros] at filled
          have wider : s.flat.Extends s₂.flat := by
            rw [filled.2]
            exact FlatMemory.extends_founded (Store.flat_arrays_own new) new _ _
          refine .of_ok ?_ (Store.Grows.mk apart wider) new filled
          simp only [Operation.bind_run, run, clearAll, cleared, Operation.pure_run]

/-- Looking a segment up and mapping it, for which the segment may have to be made. -/
def look (key : SegmentKey) (size : Nat) (flags : SegmentFlags) (destroys : Bool) :
    Action Store Attachment := do
  let segment ← Operation.system "shmget" (Store.segmentCalls.find key size flags)
  Attachment.map Store.segmentCalls key segment destroys

theorem look_run (key : SegmentKey) (size : Nat) (flags : SegmentFlags) (destroys : Bool)
    (s : Store) :
    look key size flags destroys s =
      match Store.findSegment key size flags s with
      | .error e s₁ => .error (.fault (.os "shmget" e)) s₁
      | .ok segment s₁ =>
          match Store.mapSegment segment s₁ with
          | .error e s₂ => .error (.fault (.os "shmat" e)) s₂
          | .ok mapping s₂ =>
              .ok { key, segment, mapping, destroyOnRelease := destroys } s₂ :=
  Attachment.lookUp_run Store.segmentCalls key size flags destroys s

/-- A segment that is mapped was there, or is new and all zero. -/
private theorem look_cases (h : s.Apart) (key : SegmentKey) (size : Nat) (flags : SegmentFlags)
    (destroys : Bool) :
    (∃ e s', look key size flags destroys s = .error e s' ∧ s.Grows s') ∨
      ∃ a s', look key size flags destroys s = .ok a s' ∧ s.Grows s' ∧
        (s'.flat = s.flat ∨ s.flat.arrays (.segment a.segment) = none ∧
          s'.flat = s.flat.put (.segment a.segment) (List.replicate size 0)) := by
  rw [look_run]
  rcases Store.findSegment_cases key size flags s with
    ⟨e, find⟩ | ⟨id, -, -, -, -, find⟩ | ⟨-, -, find⟩
  · rw [find]
    exact .inl ⟨_, s, rfl, h.grows⟩
  · rw [find]
    rcases Store.mapSegment_cases id s with ⟨e, map⟩ | ⟨g, -, -, -, map⟩
    · simp only [map]
      exact .inl ⟨_, s, rfl, h.grows⟩
    · simp only [map]
      have keeps := s.remap_keeps (s.mappings ++ [{ segment := id }])
      exact .inr ⟨_, _, rfl, keeps.grows h, .inl keeps.flat⟩
  · rw [find]
    rcases Store.newSegment_cases key size flags s with ⟨e, make⟩ | ⟨-, -, make⟩
    · rw [make]
      exact .inl ⟨_, s, rfl, h.grows⟩
    · rw [make]
      obtain ⟨apart, flat⟩ := h.withSegment key size flags
      have empty := s.array_of_new
      have wider := FlatMemory.extends_put empty
        (if s.machine.hasRoom size then List.replicate size 0 else [])
      rw [← flat] at wider
      have new := s.withSegment_new key size flags
      have machine : (s.withSegment key size flags).machine = s.machine := rfl
      generalize s.withSegment key size flags = s₁ at *
      rcases Store.mapSegment_cases s.segments.length s₁ with ⟨e, map⟩ | ⟨g, found, -, room, map⟩
      · simp only [map]
        exact .inl ⟨_, s₁, rfl, apart, wider⟩
      · rw [new] at found
        cases found
        rw [machine] at room
        rw [if_pos room] at flat
        have keeps := s₁.remap_keeps (s₁.mappings ++ [{ segment := s.segments.length }])
        simp only [map]
        refine .inr ⟨_, _, rfl, ⟨keeps.apart apart, keeps.flat ▸ wider⟩, .inr ⟨empty, ?_⟩⟩
        rw [keeps.flat, flat]

private theorem ofAttachment_makes (h : s.Apart) (key : SegmentKey) (size : Nat)
    (flags : SegmentFlags) (destroys : Bool) :
    Makes (ofAttachment size (look key size flags destroys)) s fun r M' =>
      s.flat.Attaches M' r size := by
  rcases look_cases h key size flags destroys with
    ⟨e, s', tried, grows⟩ | ⟨a, s', tried, grows, there⟩
  · have run : ofAttachment size (look key size flags destroys) s = .error e s' := by
      simp only [ofAttachment, Operation.bind_run, tried]
    exact .of_error run grows
  · cases found : s'.segments[a.segment]? with
    | none =>
        have run : ofAttachment size (look key size flags destroys) s = .error .trap s' := by
          simp only [ofAttachment, Operation.bind_run, tried, Operation.get_run, found,
            Operation.none_run]
        exact .of_error run grows
    | some g =>
        have placed : s'.blockOf? (.segment a.segment) = some g.block := by
          simp only [Store.blockOf?, found, Option.map_some]
        obtain ⟨apart, flat⟩ := grows.apart.addShared
          { backing := .segment a, block := g.block, base := 0, length := size }
          (fun same => by cases same) (.inr placed)
        have new : s.flat.grounds s'.roots.length = none := by
          have old := s'.flat_grounds_new
          rcases there with same | ⟨-, same⟩
          · rwa [same] at old
          · rw [same] at old
            exact old
        have wider := grows.wider.trans (FlatMemory.extends_add s'.flat_grounds_new
          { home := .segment a.segment, base := 0, length := size })
        exact .of_ok ((ofAttachment_run tried found).trans rfl) ⟨apart, flat ▸ wider⟩ new
          ⟨a.segment, s'.flat, there, rfl, flat⟩

theorem attachSegment_makes (h : s.Apart) (key : SegmentKey) (options : SegmentOptions) :
    Makes (attachSegment key options) s fun r M' => s.flat.Attaches M' r options.size :=
  ofAttachment_makes h key options.size options.flags false

theorem createSegment_makes (h : s.Apart) (key : SegmentKey) (options : SegmentOptions) :
    Makes (createSegment key options) s fun r M' => s.flat.Attaches M' r options.size :=
  ofAttachment_makes h key options.size (options.flags ||| SegmentFlags.create)
    (!options.persistent)

end Region

namespace Buffer

variable {s : Store}

/-- A page buffer is as new as its array, and begins with what it was given. -/
theorem allocateWith_cases (h : s.Apart) (size : Nat) (bytes : Bytes) :
    (∃ e s', allocateWith size bytes s = .error e s' ∧ s.Grows s') ∨
      ∃ id s', allocateWith size bytes s = .ok id s' ∧ s'.Apart ∧
        s.flat.arrays (.buffer id) = none ∧
        s'.flat = s.flat.put (.buffer id) (splice (List.replicate size 0) 0 bytes) := by
  have empty : s.flat.arrays (.buffer s.buffers.length) = none := by
    simp only [Store.flat, Store.blockOf?, List.getElem?_eq_none (Nat.le_refl _), Option.bind_none]
  rw [allocateWith_run]
  cases s.grantsBuffer size with
  | error e => exact .inl ⟨_, s, rfl, h.grows⟩
  | ok _ =>
      obtain ⟨apart, flat⟩ : (s.withBuffer size).Apart ∧ (s.withBuffer size).flat =
          s.flat.put (.buffer s.buffers.length) (List.replicate size 0) :=
        h.addBuffer (List.replicate size 0) rfl
      have grows : s.Grows (s.withBuffer size) :=
        ⟨apart, flat ▸ FlatMemory.extends_put empty (List.replicate size 0)⟩
      have placed : (s.withBuffer size).blockOf? (.buffer s.buffers.length) =
          some s.blocks.length := by
        rw [Store.blockOf?, s.withBuffer_buffer size, Option.bind_some]
      simp only
      cases written : (s.withBuffer size).write? s.blocks.length 0 bytes with
      | none => exact .inl ⟨.trap, _, rfl, grows⟩
      | some after =>
          obtain ⟨found, stored, -, -, rfl⟩ := Store.write?_eq_some_iff.mp written
          refine .inr ⟨s.buffers.length, _, rfl, apart.setBytes _ _, empty, ?_⟩
          rw [apart.flat_setBytes placed stored, flat, FlatMemory.put_put]
          rw [s.withBuffer_block size] at stored
          cases stored
          rfl

end Buffer

end BoundedMemory
