import BoundedMemory.Proofs.Changes.Ending
import BoundedMemory.Proofs.Changes.Making
import BoundedMemory.Proofs.Confinement

/-!
Every command as elementary changes, and so every run. In orderly runs nobody takes a
segment away from below its root, and no array is made that is longer than the words
of the machine can count.
-/

namespace BoundedMemory

open Store (Changes)

/-- No array that is asked for is too long to have addresses. -/
def Making.Fits : Making → Prop
  | .newArray size => size < Word.modulus
  | .ofBytes bytes | .ofBytesWithin bytes _ _ => bytes.length < Word.modulus
  | _ => True

def Command.Orderly : Command → Prop
  | .make _ what => what.Fits
  | .use _ (.segment .unmap) => False
  | _ => True

namespace Session

variable {orderly sweeping : Prop} {s : Session}

theorem bindMade_store (name : String) (make : Action Store Handle) (s : Session) :
    (s.bindMade name make).2.store = Operation.after make s.store := by
  unfold bindMade Operation.after
  cases make s.store with
  | ok h store => rfl
  | error e store => cases e <;> rfl

theorem bindRegion_store (name : String) (make : Action Store Region) (s : Session) :
    (s.bindRegion name make).2.store = Operation.after make s.store := by
  refine (bindMade_store name _ s).trans ?_
  unfold Operation.after
  rw [Operation.bind_run]
  cases make s.store <;> rfl

/-- Where the place has no key, nothing is looked up. -/
theorem bindSegment_store (name : String) (place : SegmentPlace)
    (look : SegmentKey → Action Store Region) (s : Session) :
    (s.bindSegment name place look).2.store =
      match (s.placeKey place).1 with
      | .ok key => Operation.after (look key) s.store
      | .error _ => s.store := by
  have beside := (s.placeKey_alongside place).store
  unfold bindSegment
  rcases placed : s.placeKey place with ⟨found, after⟩
  rw [placed] at beside
  cases found with
  | ok key =>
      simp only
      rw [bindRegion_store, beside]
  | error cause => exact beside

private theorem bindRegion_changes {make : Action Store Region} (name : String)
    (changes : Changes orderly sweeping s.store (Operation.after make s.store)) :
    Changes orderly sweeping s.store (s.bindRegion name make).2.store := by
  rwa [bindRegion_store]

private theorem bindSegment_changes (name : String) (place : SegmentPlace)
    {look : SegmentKey → Action Store Region}
    (changes : ∀ key, Changes orderly sweeping s.store (Operation.after (look key) s.store)) :
    Changes orderly sweeping s.store (s.bindSegment name place look).2.store := by
  rw [bindSegment_store]
  cases (s.placeKey place).1 with
  | ok key => exact changes key
  | error cause => exact .refl

/-- A buffer that is made is bound, and the store is as its making left it. -/
theorem makeBuffer_store (name : String) (size : Nat) (bytes : Bytes) (s : Session) :
    (s.makeBuffer name size bytes).2.store =
      if bytes.length ≤ size ∧ size < Word.modulus then
        Operation.after (Buffer.allocateWith size bytes) s.store
      else s.store := by
  unfold makeBuffer Operation.after
  split
  · cases Buffer.allocateWith size bytes s.store with
    | ok id store => rfl
    | error e store => cases e <;> rfl
  · rfl

theorem make_changes (name : String) (what : Making) (fits : orderly → what.Fits)
    (alive : ∀ name id, s.buffer? name = some id → s.store.bufferAlive id = true) :
    Changes orderly sweeping s.store (s.make name what).2.store := by
  cases what with
  | newArray size => exact bindRegion_changes name (Region.newArray_changes fits)
  | ofBytes bytes => exact bindRegion_changes name (Region.ofBytes_changes fits)
  | ofBytesWithin bytes offset length =>
      exact bindRegion_changes name (Region.ofBytesWithin_changes offset length fits)
  | allocate size byte => exact bindRegion_changes name (Region.allocate_clear_changes size byte)
  | allocateZeroed size => exact bindRegion_changes name (Region.newHeap_changes _ _ size 0)
  | allocateFilled size byte => exact bindRegion_changes name (Region.newHeap_changes _ _ size byte)
  | newBuffer size bytes =>
      simp only [make]
      rw [makeBuffer_store]
      split
      · rename_i usable
        exact Buffer.allocateWith_changes usable.2 bytes
      · exact .refl
  | nullBuffer length =>
      exact (Buffer.null_changes length : Changes orderly sweeping s.store
        (Operation.after (Buffer.null length : Action Store BufferId) s.store))
  | bufferAgain buffer =>
      simp only [make]
      cases s.buffers.find? buffer with
      | none => exact .refl
      | some id =>
          simp only
          split <;> exact .refl
  | wrap buffer =>
      simp only [make]
      cases found : s.buffer? buffer with
      | none => exact .refl
      | some id => exact bindRegion_changes name (Region.wrap_changes (alive buffer id found))
  | wrapWithin buffer offset length =>
      simp only [make]
      cases found : s.buffer? buffer with
      | none => exact .refl
      | some id =>
          exact bindRegion_changes name
            (Region.wrapWithin_changes (alive buffer id found) offset length)
  | attachSegment place options =>
      exact bindSegment_changes name place fun key => Region.attachSegment_changes key options
  | createSegment place options =>
      exact bindSegment_changes name place fun key => Region.createSegment_changes key options

/-- A copy only writes over memory. -/
theorem copy_resembles (source target : String) :
    s.store.Resembles (s.copy source target).2.store := by
  unfold copy
  split
  · rename_i r w _ _
    have rewrites := Stream.copy_resembles ⟨s.store, r, w⟩
    rwa [← Operation.settle_snd Stream.copy .streamFault .number] at rewrites
  · exact .refl _

theorem copy_changes (source target : String) :
    Changes orderly sweeping s.store (s.copy source target).2.store :=
  .single (.rewrite (copy_resembles source target))

/-- Uses that end nothing only write over memory. -/
theorem use_resembles {target : String} {how : Use} (harmless : ¬ how.Ends) :
    s.store.Resembles (s.use target how).2.store := by
  cases found : s.handles.find? target with
  | none =>
      rw [use_missing how found]
      exact .refl _
  | some h =>
      have alters := use_alters found fun _ _ ends => absurd ends harmless
      cases touches : h.touch? how with
      | none =>
          simp only [touches] at alters
          rw [alters]
          exact .refl _
      | some τ =>
          simp only [touches] at alters
          exact alters.resembles

private theorem release_changes (r : Region) (keyName : SegmentKey → String) (s : Store) :
    Changes orderly sweeping s (RegionUse.release.run r keyName s).2 := by
  simp only [RegionUse.run, Operation.settle_snd, Region.release]
  split
  · exact .refl
  · exact Store.releaseRoot_changes r.root s

private theorem segmentUse_changes (how : SegmentUse) (r : Region) (a : Attachment)
    (other? : String → Option Attachment) (s : Store) {target : String}
    (h : orderly → (Command.use target (.segment how)).Orderly) :
    Changes orderly sweeping s (how.run r a other? s).2 := by
  cases how with
  | detach =>
      rw [SegmentUse.run, Operation.settle_snd]
      exact Store.onAttachment_changes (fun _ => Attachment.detach_steps) r.root
  | destroy =>
      rw [SegmentUse.run, Operation.settle_snd]
      exact Store.onAttachment_changes (fun _ => Attachment.destroy_steps) r.root
  | unmap =>
      have unmapped : Changes orderly sweeping s _ := Store.unmapSegment_changes h a.mapping s
      unfold Operation.after at unmapped
      simp only [SegmentUse.run]
      cases run : Store.unmapSegment a.mapping s with
      | ok _ after =>
          simp only [run] at unmapped
          exact unmapped
      | error e after =>
          simp only [run] at unmapped
          exact unmapped
  | same name =>
      simp only [SegmentUse.run]
      split <;> exact .refl

theorem use_changes (target : String) (how : Use) (h : orderly → (Command.use target how).Orderly) :
    Changes orderly sweeping s.store (s.use target how).2.store := by
  rcases Classical.em how.Ends with ends | spares
  · have used := s.use_used target how
    generalize s.use target how = result at used ⊢
    cases used with
    | unfit => exact .refl
    | region how =>
        cases how with
        | release => exact release_changes _ s.keyName s.store
        | _ => exact ends.elim
    | segment how => exact segmentUse_changes how _ _ _ s.store h
    | _ => exact ends.elim
  · exact .single (.rewrite (use_resembles spares))

theorem removeSegment_changes (key : SegmentKey) (s : Store) :
    Changes orderly sweeping s (Operation.after (Session.removeSegment key) s) := by
  unfold Operation.after
  obtain ⟨e, fails⟩ | ⟨id, -, removes⟩ := removeSegment_cases key s
  · rw [fails]
  · rw [removes]
    exact Store.removeSegment_changes id s

/-- Of all queries only a removal changes the store. -/
theorem ask_store (query : Query) (s : Session) :
    (s.ask query).2.store =
      match query with
      | .removeSegment name => Operation.after (Session.removeSegment (s.key name).1) s.store
      | _ => s.store := by
  cases query with
  | bufferAlive buffer =>
      simp only [ask]
      split <;> rfl
  | segmentSize options => rfl
  | deriveKey place project name =>
      simp only [ask]
      split
      · rfl
      · cases name <;> rfl
  | sameKey a b => exact ((s.key a).2.key_alongside b).store.trans (s.key_alongside a).store
  | segmentExists name => exact (s.key_alongside name).store
  | removeSegment name =>
      simp only [ask, (s.key_alongside name).store]
      unfold Operation.after
      cases Session.removeSegment (s.key name).1 s.store <;> rfl

theorem ask_changes (query : Query) :
    Changes orderly sweeping s.store (s.ask query).2.store := by
  rw [ask_store]
  cases query with
  | removeSegment name => exact removeSegment_changes (s.key name).1 s.store
  | _ => exact .refl

/-- What commands do, they can do at any time. -/
theorem perform_changes (command : Command) (h : orderly → command.Orderly)
    (alive : ∀ name id, s.buffer? name = some id → s.store.bufferAlive id = true) :
    Changes orderly sweeping s.store (s.perform command).2.store := by
  cases command with
  | make name what => exact make_changes name what h alive
  | derive source name how =>
      rw [show (s.perform (.derive source name how)).2.store = s.store from
        s.derive_store source name how]
  | use target how => exact use_changes target how h
  | copy source target => exact copy_changes source target
  | ask query => exact ask_changes query
  | unusable target kind => exact .refl

theorem sweepRoot_changes (s : Session) (id : RootId) :
    Changes orderly True s.store (s.sweepRoot id).store := by
  unfold sweepRoot
  split
  · exact .refl
  · rw [Operation.settle_snd]
    exact Store.dropRoot_changes trivial id s.store

theorem sweepBuffer_changes (s : Session) (id : BufferId) :
    Changes orderly True s.store (s.sweepBuffer id).store := by
  unfold sweepBuffer
  split
  · exact .refl
  · rw [Operation.settle_snd]
    exact Store.dropBuffer_changes trivial id s.store

theorem sweep_changes (s : Session) : Changes orderly True s.store s.sweep.store :=
  s.sweep_induct (motive := fun t => Changes orderly True s.store t.store) .refl
    (fun t id changes => changes.trans (t.sweepRoot_changes id))
    fun t id changes => changes.trans (t.sweepBuffer_changes id)

end Session

end BoundedMemory
