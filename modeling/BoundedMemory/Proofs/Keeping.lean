import BoundedMemory.Proofs.Attachments
import BoundedMemory.Proofs.FlatMemory
import BoundedMemory.Proofs.Sweeping

/-!
What the life of regions leaves alone. Releasing, dropping, detaching and
removing change who may use memory, and never what is in it or where anything
lies: `Store.Keeps` says so of a change, and it holds of all of these.
-/

namespace BoundedMemory

namespace Store

/-- A change that leaves all bytes and all places as they are. -/
structure Keeps (s s' : Store) : Prop where
  memory : s'.blocks.map Block.bytes = s.blocks.map Block.bytes
  buffers : s'.buffers.map Buffer.block = s.buffers.map Buffer.block
  segments : s'.segments.map Segment.block = s.segments.map Segment.block
  roots (id : RootId) : (s'.roots[id]?).map (fun root => (root.ground id, root.block)) =
    (s.roots[id]?).map fun root => (root.ground id, root.block)

theorem Keeps.refl (s : Store) : s.Keeps s where
  memory := rfl
  buffers := rfl
  segments := rfl
  roots _ := rfl

theorem Keeps.trans {s s' s'' : Store} (h : s.Keeps s') (h' : s'.Keeps s'') : s.Keeps s'' where
  memory := h'.memory.trans h.memory
  buffers := h'.buffers.trans h.buffers
  segments := h'.segments.trans h.segments
  roots id := (h'.roots id).trans (h.roots id)

section Consequences

variable {s s' : Store}

theorem Keeps.blockOf? (h : s.Keeps s') : s'.blockOf? = s.blockOf? := by
  have own (t : Store) (id : RootId) : t.blockOf? (.own id) =
      ((t.roots[id]?).map fun root => (root.ground id, root.block)).bind fun place =>
        if place.1.home = .own id then some place.2 else none := by
    simp only [Store.blockOf?, Option.bind_map]
    rfl
  have buffer (t : Store) (id : BufferId) : t.blockOf? (.buffer id) =
      ((t.buffers.map Buffer.block)[id]?).join := by
    simp only [Store.blockOf?, List.getElem?_map]
    cases t.buffers[id]? <;> rfl
  have segment (t : Store) (id : SegmentId) : t.blockOf? (.segment id) =
      (t.segments.map Segment.block)[id]? := by
    simp only [Store.blockOf?, List.getElem?_map]
  funext home
  cases home with
  | own id => rw [own, own, h.roots]
  | buffer id => rw [buffer, buffer, h.buffers]
  | segment id => rw [segment, segment, h.segments]

theorem Keeps.flat (h : s.Keeps s') : s'.flat = s.flat := by
  have arrays : s'.flat.arrays = s.flat.arrays := by
    funext home
    simp only [Store.flat, h.blockOf?, ← List.getElem?_map, h.memory]
  have grounds : s'.flat.grounds = s.flat.grounds := by
    funext id
    have same := congrArg (Option.map Prod.fst) (h.roots id)
    simpa only [Store.flat, Option.map_map, Function.comp_def] using same
  show FlatMemory.mk _ _ = FlatMemory.mk _ _
  congr

theorem Keeps.apart (h : s.Keeps s') (apart : s.Apart) : s'.Apart where
  homed id root' found := by
    have same := h.roots id
    rw [found, Option.map_some] at same
    obtain ⟨root, before, place⟩ := Option.map_eq_some_iff.mp same.symm
    simp only [Prod.mk.injEq, Root.ground, Ground.mk.injEq] at place
    obtain ⟨⟨home, -, length⟩, block⟩ := place
    rw [h.blockOf?, ← home, ← length, ← block]
    exact apart.homed id root before
  inside home block found := by
    rw [h.blockOf?] at found
    have count := congrArg List.length h.memory
    simp only [List.length_map] at count
    rw [count]
    exact apart.inside home block found
  distinct home other block found found' := by
    rw [h.blockOf?] at found found'
    exact apart.distinct home other block found found'

end Consequences

section Changes

variable (s : Store)

private theorem map_modify {α β : Type} (f : α → β) (g : α → α) (same : ∀ x, f (g x) = f x)
    (xs : List α) (i : Nat) : (xs.modify i g).map f = xs.map f := by
  apply List.ext_getElem?
  intro j
  simp only [List.getElem?_map, List.getElem?_modify]
  cases xs[j]? with
  | none => rfl
  | some x =>
      simp only [Option.map_eq_map, Option.map_some]
      split
      · rw [same]
      · rfl

/-- Changing a root, and nothing of its place, keeps everything. -/
private theorem keeps_modifyRoot (id : RootId) (change : Root → Root)
    (same : ∀ root, s.roots[id]? = some root →
      ((change root).ground id, (change root).block) = (root.ground id, root.block)) :
    s.Keeps { s with roots := s.roots.modify id change } where
  memory := rfl
  buffers := rfl
  segments := rfl
  roots other := by
    simp only [List.getElem?_modify]
    cases found : s.roots[other]? with
    | none => rfl
    | some root =>
        by_cases here : id = other
        · subst here
          simp only [if_true, Option.map_eq_map, Option.map_some, same root found]
        · simp only [here, if_false, Option.map_eq_map, Option.map_some]

theorem setBacking_keeps {id : RootId} {backing : Backing}
    (same : ∀ root, s.roots[id]? = some root → backing.home id = root.backing.home id) :
    s.Keeps (s.setBacking id backing) := by
  apply keeps_modifyRoot
  intro root found
  simp only [Root.ground, same root found]

theorem letGo_keeps (id : RootId) :
    s.Keeps { s with roots := s.roots.modify id fun root => { root with held := false } } :=
  keeps_modifyRoot s id _ fun _ _ => rfl

theorem freeBlock_keeps (id : BlockId) : s.Keeps (s.freeBlock id) where
  memory := by
    apply map_modify
    intro
    rfl
  buffers := rfl
  segments := rfl
  roots _ := rfl

theorem setPhase_keeps (id : SegmentId) (phase : Segment.Phase) :
    s.Keeps (s.setPhase id phase) where
  memory := rfl
  buffers := rfl
  segments := by
    apply map_modify
    intro
    rfl
  roots _ := rfl

theorem endBuffer_keeps (id : BufferId) :
    s.Keeps { s with buffers := s.buffers.modify id fun b => { b with alive := false } } where
  memory := rfl
  buffers := by
    apply map_modify
    intro
    rfl
  segments := rfl
  roots _ := rfl

theorem remap_keeps (mappings : List Mapping) : s.Keeps { s with mappings } where
  memory := rfl
  buffers := rfl
  segments := rfl
  roots _ := rfl

theorem reclaim_keeps (id : SegmentId) : s.Keeps (s.reclaim id) := by
  obtain same | ⟨g, -, -, -, reclaimed⟩ := s.reclaim_cases id
  · rw [same]
    exact .refl s
  · rw [reclaimed]
    exact (s.setPhase_keeps id .gone).trans (freeBlock_keeps _ g.block)

theorem unmapSegment_keeps (id : MappingId) : s.Keeps (Operation.after (unmapSegment id) s) := by
  unfold Operation.after
  rw [unmapSegment_run]
  cases s.mappings[id]? with
  | none => exact .refl s
  | some mapping =>
      obtain ⟨segment, live⟩ := mapping
      cases live with
      | false => exact .refl s
      | true => exact (s.remap_keeps _).trans (reclaim_keeps _ segment)

theorem removeSegment_keeps (id : SegmentId) : s.Keeps (Operation.after (removeSegment id) s) := by
  unfold Operation.after
  rw [removeSegment_run]
  cases s.segments[id]? with
  | none => exact .refl s
  | some g =>
      by_cases gone : g.phase = .gone
      · simp only [gone, if_true]
        exact .refl s
      · simp only [gone, if_false]
        exact (s.setPhase_keeps id .removed).trans (reclaim_keeps _ id)

end Changes

end Store

/-- The store keeps everything and the attachment its segment. -/
def Attachment.Kept (before after : Store × Attachment) : Prop :=
  before.1.Keeps after.1 ∧ after.2.segment = before.2.segment

/-- Whatever an attachment goes through to its end. -/
theorem Attachment.Steps.keeps {before after : Store × Attachment} (steps : Steps before after) :
    Kept before after := by
  refine ⟨?_, steps.kept.2.2⟩
  induction steps with
  | refl => exact .refl _
  | tail _ step ih =>
      cases step with
      | release => exact ih
      | unmap _ _ => exact ih.trans ((Store.remap_keeps _ _).trans (Store.reclaim_keeps _ _))
      | remove _ _ => exact ih.trans ((Store.setPhase_keeps _ _ _).trans (Store.reclaim_keeps _ _))

namespace Store

variable (s : Store)

theorem Keeps.home {s s' : Store} (h : s.Keeps s') {id : RootId} {root root' : Root}
    (before : s.roots[id]? = some root) (after : s'.roots[id]? = some root') :
    root'.backing.home id = root.backing.home id := by
  have same := h.roots id
  simp only [before, after, Option.map_some, Option.some.injEq, Prod.mk.injEq, Root.ground,
    Ground.mk.injEq] at same
  exact same.1.1

/-- An attachment that was kept goes back to the place it was taken from. -/
private theorem putBack_keeps {s s' : Store} {a a' : Attachment} {id : RootId} {root : Root}
    (found : s.roots[id]? = some root) (behind : root.backing = .segment a)
    (kept : Attachment.Kept (s, a) (s', a')) : s.Keeps (s'.setBacking id (.segment a')) := by
  apply kept.1.trans
  apply setBacking_keeps
  intro root' found'
  rw [kept.1.home found found', behind]
  exact congrArg Home.segment kept.2

theorem onAttachment_keeps {α : Type} {action : Action (Store × Attachment) α}
    (kept : ∀ a, Attachment.Kept (s, a) (Operation.after action (s, a))) (id : RootId) :
    s.Keeps (Operation.after (onAttachment id action) s) := by
  unfold Operation.after onAttachment
  cases found : s.roots[id]? with
  | none => exact .refl s
  | some root =>
      obtain ⟨backing, block, base, length, held⟩ := root
      cases backing with
      | segment a =>
          have there := kept a
          unfold Operation.after at there
          simp only
          cases run : action (s, a) with
          | ok b after =>
              simp only [run] at there
              exact putBack_keeps found rfl there
          | error e after =>
              simp only [run] at there
              exact putBack_keeps found rfl there
      | _ => exact .refl s

theorem releaseRoot_keeps (id : RootId) : s.Keeps (Operation.after (releaseRoot id) s) := by
  unfold Operation.after
  rw [releaseRoot_run]
  cases found : s.roots[id]? with
  | none => exact .refl s
  | some root =>
      have ending (backing : Backing) (same : backing.home id = root.backing.home id) :
          s.Keeps (s.setBacking id backing) := by
        apply setBacking_keeps
        intro root' found'
        rw [found] at found'
        cases found'
        exact same
      simp only
      cases behind : root.backing with
      | array valid => exact ending _ (by rw [behind]; rfl)
      | heap valid =>
          cases valid with
          | false => exact .refl s
          | true => exact (ending _ (by rw [behind]; rfl)).trans (freeBlock_keeps _ root.block)
      | buffer wrapped valid => exact ending _ (by rw [behind]; rfl)
      | segment a =>
          have kept := (Attachment.release_steps (s := s) (a := a)).keeps
          unfold Operation.after at kept
          simp only
          cases run : Attachment.release segmentCalls (s, a) with
          | ok _ after =>
              simp only [run] at kept
              exact putBack_keeps found behind kept
          | error e after =>
              simp only [run] at kept
              exact putBack_keeps found behind kept

theorem dropRoot_keeps (id : RootId) : s.Keeps (Operation.after (dropRoot id) s) := by
  obtain ⟨-, same⟩ | ⟨root, released, -, -, rfl, dropped⟩ := s.dropRoot_cases id
  · rw [same]
    exact .refl s
  · have gone := (s.releaseRoot_keeps id).trans (letGo_keeps _ id)
    rw [dropped]
    cases root.backing with
    | array valid => exact gone.trans (freeBlock_keeps _ root.block)
    | _ => exact gone

theorem dropBuffer_keeps (id : BufferId) : s.Keeps (Operation.after (dropBuffer id) s) := by
  unfold Operation.after
  simp only [dropBuffer, Operation.bind_run, Operation.get_run]
  cases s.buffers[id]? with
  | none => exact .refl s
  | some b =>
      simp only [Operation.some_run]
      by_cases alive : b.alive = true
      · simp only [alive, if_true, Operation.bind_run, Operation.modify_run]
        cases b.block with
        | none => exact s.endBuffer_keeps id
        | some block => exact (s.endBuffer_keeps id).trans (freeBlock_keeps _ block)
      · simp only [alive, Bool.false_eq_true, if_false]
        exact .refl s

end Store

theorem Region.release_keeps (r : Region) (s : Store) : s.Keeps (Operation.after r.release s) := by
  unfold release
  split
  · exact .refl s
  · exact s.releaseRoot_keeps r.root

namespace Session

/-- A change of a session that leaves its handles alone, and all bytes and places. -/
structure Leaves (s s' : Session) : Prop where
  store : s.store.Keeps s'.store
  handles : s'.handles = s.handles

theorem Leaves.trans {s s' s'' : Session} (h : s.Leaves s') (h' : s'.Leaves s'') :
    s.Leaves s'' where
  store := h.store.trans h'.store
  handles := h'.handles.trans h.handles

theorem sweepRoot_leaves (s : Session) (id : RootId) : s.Leaves (s.sweepRoot id) := by
  unfold sweepRoot
  split
  · exact ⟨.refl _, rfl⟩
  · rw [Operation.settle_snd]
    exact ⟨s.store.dropRoot_keeps id, rfl⟩

theorem sweepBuffer_leaves (s : Session) (id : BufferId) : s.Leaves (s.sweepBuffer id) := by
  unfold sweepBuffer
  split
  · exact ⟨.refl _, rfl⟩
  · rw [Operation.settle_snd]
    exact ⟨s.store.dropBuffer_keeps id, rfl⟩

theorem sweep_leaves (s : Session) : s.Leaves s.sweep :=
  s.sweep_induct ⟨.refl _, rfl⟩ (fun t id leaves => leaves.trans (t.sweepRoot_leaves id))
    fun t id leaves => leaves.trans (t.sweepBuffer_leaves id)

end Session

end BoundedMemory
