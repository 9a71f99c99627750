import BoundedMemory.Proofs.Changes.Rewriting
import BoundedMemory.Proofs.Making
import BoundedMemory.Proofs.Sweeping

/-!
Makings as elementary changes. What is refused has changed nothing, but for segments
that were made and cannot be mapped, and for the memory of an empty buffer of which no
range fits.
-/

namespace BoundedMemory

open Store (Change Changes)

variable {orderly sweeping : Prop} {s : Store}

namespace Region

variable {bytes : Bytes} {backing : Backing} {base length : Nat}

/-- A root and its block come at once. -/
private theorem own_changes (own : backing = .array true ∨ backing = .heap true)
    (fits : base + length ≤ bytes.length) (short : orderly → bytes.length < Word.modulus) :
    Changes orderly sweeping s (Operation.after (do
      let block ← Store.newBlock bytes
      newRoot backing block base length) s) :=
  .single (.addRoot rfl (.own own rfl fits short))

theorem ofBytes_changes (short : orderly → bytes.length < Word.modulus) :
    Changes orderly sweeping s (Operation.after (ofBytes bytes) s) :=
  own_changes (.inl rfl) (Nat.le_of_eq (Nat.zero_add _)) short

theorem newArray_changes {size : Nat} (short : orderly → size < Word.modulus) :
    Changes orderly sweeping s (Operation.after (newArray size) s) := by
  apply ofBytes_changes
  rw [List.length_replicate]
  exact short

theorem ofBytesWithin_changes (offset length : Nat)
    (short : orderly → bytes.length < Word.modulus) :
    Changes orderly sweeping s (Operation.after (ofBytesWithin bytes offset length) s) := by
  unfold ofBytesWithin
  rw [Extent.check_eq]
  by_cases fits : offset + length ≤ bytes.length
  · rw [if_pos fits]
    exact own_changes (.inl rfl) fits short
  · rw [if_neg fits]
    exact .refl

theorem newHeap_changes (what : Request) (operation : String) (size : Nat) (byte : UInt8) :
    Changes orderly sweeping s (Operation.after (newHeap what operation size byte) s) := by
  unfold Operation.after
  rw [newHeap_run]
  cases granted : s.grants what (max size 1) with
  | error e => exact .refl
  | ok _ =>
      apply own_changes (.inr rfl)
      · simp
      · intro _
        rw [List.length_replicate]
        exact Store.lt_of_grants_max granted

theorem allocate_clear_changes (size : Nat) (byte : UInt8) :
    Changes orderly sweeping s (Operation.after (do
      let r ← allocate size
      r.clearAll byte
      pure r) s) := by
  have taken : Changes orderly sweeping s _ := newHeap_changes .heap "allocate" size 0
  unfold Operation.after at taken ⊢
  simp only [Operation.bind_run]
  cases run : allocate size s with
  | error e s₁ =>
      have run' : newHeap .heap "allocate" size 0 s = .error e s₁ := run
      simpa only [run'] using taken
  | ok r s₁ =>
      have run' : newHeap .heap "allocate" size 0 s = .ok r s₁ := run
      simp only [run'] at taken
      have cleared := r.clear_run byte 0 r.length s₁
      cases clear : (Transfer.clear byte r.length).run r 0 s₁ with
      | error e s₂ =>
          simp only [clear] at cleared
          have same := Transfer.run_error clear
          subst same
          simpa only [clearAll, cleared] using taken
      | ok answer s₂ =>
          simp only [clear] at cleared
          simpa only [clearAll, cleared, Operation.pure_run] using
            taken.tail (.rewrite (Transfer.resembles clear))

/-- The block of a buffer that can be wrapped, and the store in which it is there. -/
theorem resolveAddress_cases {id : BufferId} {b : Buffer} (found : s.buffers[id]? = some b) :
    (∃ cause, resolveAddress b s = .error (.fault cause) s) ∨
      ∃ block s', resolveAddress b s = .ok block s' ∧ Changes orderly sweeping s s' ∧
        s'.buffers[id]? = some b ∧
        (b.block = some block ∨ b.length = 0 ∧ block < s'.blocks.length) := by
  rw [resolveAddress_run]
  cases has : b.block with
  | some block => exact .inr ⟨block, s, rfl, .refl, found, .inl rfl⟩
  | none =>
      by_cases empty : b.length = 0
      · simp only [empty, if_true]
        have inside : s.blocks.length < (s.blocks ++ [({ bytes := [] } : Block)]).length := by simp
        exact .inr ⟨_, _, rfl, .single .addNothing, found, .inr ⟨trivial, inside⟩⟩
      · simp only [empty, if_false]
        exact .inl ⟨_, rfl⟩

theorem wrap_changes {id : BufferId} (alive : s.bufferAlive id = true) :
    Changes orderly sweeping s (Operation.after (wrap id) s) := by
  unfold Store.bufferAlive at alive
  unfold Operation.after
  simp only [wrap, Operation.bind_run, Operation.get_run]
  cases found : s.buffers[id]? with
  | none => exact .refl
  | some b =>
      simp only [found, Option.any_some] at alive
      simp only [Operation.some_run]
      obtain ⟨cause, refused⟩ | ⟨block, s', resolved, changes, found', there⟩ :=
        resolveAddress_cases found
      · rw [refused]
      · rw [resolved]
        exact changes.tail
          (.addRoot rfl (.wraps found' alive rfl (Nat.le_of_eq (Nat.zero_add _)) there))

theorem wrapWithin_changes {id : BufferId} (alive : s.bufferAlive id = true) (offset length : Nat) :
    Changes orderly sweeping s (Operation.after (wrapWithin id offset length) s) := by
  unfold Store.bufferAlive at alive
  unfold Operation.after
  simp only [wrapWithin, Operation.bind_run, Operation.get_run]
  cases found : s.buffers[id]? with
  | none => exact .refl
  | some b =>
      simp only [found, Option.any_some] at alive
      simp only [Operation.some_run]
      obtain ⟨cause, refused⟩ | ⟨block, s', resolved, changes, found', there⟩ :=
        resolveAddress_cases found
      · rw [refused]
      · rw [resolved, Extent.check_eq]
        by_cases fits : offset + length ≤ b.length
        · simp only [fits, if_true, Operation.accepted_run]
          exact changes.tail (.addRoot rfl (.wraps found' alive rfl fits there))
        · simp only [fits, if_false, Operation.refused_run]
          exact changes

/-- A segment that is attached to becomes a root at once. -/
private theorem look_changes (key : SegmentKey) (size : Nat) (flags : SegmentFlags)
    (destroys : Bool) :
    Changes orderly sweeping s
      (Operation.after (ofAttachment size (look key size flags destroys)) s) := by
  have tried := look_run key size flags destroys s
  have mapped {id : SegmentId} {g : Segment} {s₁ : Store}
      (found : s₁.segments[id]? = some g) (large : size ≤ g.size)
      (find : Store.findSegment key size flags s = .ok id s₁)
      (before : Changes orderly sweeping s s₁) :
      Changes orderly sweeping s
        (Operation.after (ofAttachment size (look key size flags destroys)) s) := by
    unfold Operation.after
    rw [find] at tried
    rcases Store.mapSegment_cases id s₁ with ⟨e, map⟩ | ⟨g', found', there, room, map⟩
    · simp only [map] at tried
      simpa only [ofAttachment, Operation.bind_run, tried] using before
    · simp only [map] at tried
      rw [found, Option.some.injEq] at found'
      subst found'
      rw [ofAttachment_run tried found]
      have fits : 0 + size ≤ g.size := by omega
      generalize made : ({
        key, segment := id, mapping := s₁.mappings.length, destroyOnRelease := destroys } :
        Attachment) = a
      have segment : a.segment = id := by rw [← made]
      have fresh : a.mapping = s₁.mappings.length := by rw [← made]
      have attached : Root.Founded orderly
          { backing := .segment a, block := g.block, base := 0, length := size } s₁ _ :=
        .attached (segment.symm ▸ found) there room fits rfl fresh rfl
      rw [segment] at attached
      exact before.tail (.addRoot rfl attached)
  rcases Store.findSegment_cases key size flags s with
    ⟨e, find⟩ | ⟨id, g, -, found, large, find⟩ | ⟨-, -, find⟩
  · rw [find] at tried
    unfold Operation.after
    simp only [ofAttachment, Operation.bind_run, tried]
    exact .refl
  · exact mapped found large find .refl
  · rcases Store.newSegment_cases key size flags s with ⟨e, make⟩ | ⟨-, short, make⟩
    · rw [find, make] at tried
      unfold Operation.after
      simp only [ofAttachment, Operation.bind_run, tried]
      exact .refl
    · rw [make] at find
      refine mapped (s.withSegment_new key size flags) (Nat.le_refl _) find ?_
      refine .single (.addSegment rfl rfl ?_ ?_)
      · intro room
        rw [if_pos room, List.length_replicate]
      · split
        · rw [List.length_replicate]
          exact Nat.lt_trans short (by decide)
        · decide

theorem attachSegment_changes (key : SegmentKey) (options : SegmentOptions) :
    Changes orderly sweeping s (Operation.after (attachSegment key options) s) :=
  look_changes key options.size options.flags false

theorem createSegment_changes (key : SegmentKey) (options : SegmentOptions) :
    Changes orderly sweeping s (Operation.after (createSegment key options) s) :=
  look_changes key options.size (options.flags ||| SegmentFlags.create) (!options.persistent)

end Region

theorem Buffer.allocateWith_changes {size : Nat} (word : size < Word.modulus) (bytes : Bytes) :
    Changes orderly sweeping s (Operation.after (allocateWith size bytes) s) := by
  unfold Operation.after
  rw [allocateWith_run]
  cases s.grantsBuffer size with
  | error e => exact .refl
  | ok _ =>
      have short : (List.replicate size (0 : UInt8)).length < Word.modulus := by
        rwa [List.length_replicate]
      have added : Change orderly sweeping s (s.withBuffer size) :=
        .addBuffer rfl rfl List.length_replicate.symm short
      simp only
      cases written : (s.withBuffer size).write? s.blocks.length 0 bytes with
      | none => exact .single added
      | some after => exact .head added (.single (.rewrite (Store.write?_resembles written)))

theorem Buffer.null_changes {ε : Type} (length : Nat) :
    Changes orderly sweeping s (Operation.after (null length : Operation ε Store BufferId) s) :=
  .single (.addNullBuffer rfl rfl)

end BoundedMemory
