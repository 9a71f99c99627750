import BoundedMemory.Proofs.Changes
import BoundedMemory.Proofs.Sweeping

/-!
The end of things as elementary changes: releases, detaching and destroying, and what
is swept. An attachment that is taken out of its root, worked on and put back changes
with its root all along.
-/

namespace BoundedMemory

namespace Store

variable {orderly sweeping : Prop} {s s' : Store} {id : RootId} {root : Root}

section Backings

theorem setBacking_setBacking (s : Store) (id : RootId) (before after : Backing) :
    (s.setBacking id before).setBacking id after = s.setBacking id after := by
  unfold setBacking
  simp only [List.modify_modify_eq]
  rfl

theorem setBacking_same (found : s.roots[id]? = some root) :
    s.setBacking id root.backing = s := by
  have same :
      s.roots.modify id (fun other => { other with backing := root.backing }) = s.roots := by
    apply List.ext_getElem?
    intro other
    rw [List.getElem?_modify]
    by_cases here : id = other
    · subst here
      simp [found]
    · simp [here]
  unfold setBacking
  rw [same]

theorem getElem?_setBacking (found : s.roots[id]? = some root) (backing : Backing) :
    (s.setBacking id backing).roots[id]? = some { root with backing } := by
  simp [setBacking, found]

/-- Reclaiming has nothing to do with roots. -/
theorem reclaim_setBacking (s : Store) (id : RootId) (backing : Backing) (segment : SegmentId) :
    (s.reclaim segment).setBacking id backing = (s.setBacking id backing).reclaim segment := by
  have segments : (s.setBacking id backing).segments = s.segments := rfl
  have mapped : (s.setBacking id backing).isMappedSomewhere = s.isMappedSomewhere := rfl
  unfold reclaim
  rw [segments, mapped]
  cases s.segments[segment]? with
  | none => rfl
  | some g =>
      simp only
      split <;> rfl

end Backings

theorem reclaim_changes (s : Store) (segment : SegmentId) :
    Changes orderly sweeping s (s.reclaim segment) := by
  obtain same | ⟨g, found, removed, unmapped, reclaimed⟩ := s.reclaim_cases segment
  · rw [same]
  · rw [reclaimed]
    exact .single (.reclaim found removed unmapped)

theorem unmapSegment_changes (foreign : ¬ orderly) (id : MappingId) (s : Store) :
    Changes orderly sweeping s (Operation.after (unmapSegment id) s) := by
  unfold Operation.after
  rw [unmapSegment_run]
  cases found : s.mappings[id]? with
  | none => exact .refl
  | some mapping =>
      obtain ⟨segment, live⟩ := mapping
      cases live with
      | false => exact .refl
      | true => exact .head (.unmap foreign found) (reclaim_changes _ segment)

theorem removeSegment_changes (id : SegmentId) (s : Store) :
    Changes orderly sweeping s (Operation.after (removeSegment id) s) := by
  unfold Operation.after
  rw [removeSegment_run]
  cases found : s.segments[id]? with
  | none => exact .refl
  | some g =>
      by_cases gone : g.phase = .gone
      · simp only [gone, if_true]
        exact .refl
      · simp only [gone, if_false]
        exact .head (.remove found gone) (reclaim_changes _ id)

end Store

namespace Attachment

open Store (Change Changes)

variable {orderly sweeping : Prop} {s s' : Store} {a a' : Attachment} {id : RootId} {root : Root}

private theorem Step.changes (step : Step (s, a) (s', a')) (found : s.roots[id]? = some root) :
    Changes orderly sweeping (s.setBacking id (.segment a)) (s'.setBacking id (.segment a')) := by
  have there := Store.getElem?_setBacking found (.segment a)
  cases step with
  | release =>
      have noted : Change orderly sweeping _ _ :=
        .weaken there (@Backing.Weakens.segment a true a.removed)
      rw [Store.setBacking_setBacking] at noted
      exact .single noted
  | @unmap _ _ segment attached live =>
      have detached : Change orderly sweeping _ _ := .detach there rfl attached live
      have same := Store.setBacking_setBacking (s.unmapped a.mapping segment) id (.segment a)
        (.segment { a with attached := false })
      rw [Store.reclaim_setBacking, ← same]
      exact .head detached (Store.reclaim_changes _ segment)
  | @remove _ _ g present phase =>
      have noted : Change orderly sweeping _ _ :=
        .weaken there (@Backing.Weakens.segment a a.released true)
      rw [Store.setBacking_setBacking] at noted
      rw [Store.reclaim_setBacking]
      exact .head noted (.head (.remove present phase) (Store.reclaim_changes _ a.segment))

/-- An attachment that is worked on goes back to its root. -/
theorem Steps.changes (steps : Steps (s, a) (s', a')) (found : s.roots[id]? = some root)
    (behind : root.backing = .segment a) :
    Changes orderly sweeping s (s'.setBacking id (.segment a')) := by
  have start : s.setBacking id (.segment a) = s := by
    rw [← behind, Store.setBacking_same found]
  generalize before_eq : (s, a) = before at steps
  generalize after_eq : (s', a') = after at steps
  induction steps generalizing s' a' with
  | refl =>
      cases before_eq
      cases after_eq
      rw [start]
  | @tail between after earlier step ih =>
      subst before_eq after_eq
      obtain ⟨s₁, a₁⟩ := between
      have kept : s₁.roots = s.roots := (Steps.kept earlier).1
      exact (ih rfl).trans (Step.changes step (kept ▸ found))

end Attachment

namespace Store

variable {orderly sweeping : Prop} {s : Store} {id : RootId}

theorem onAttachment_changes {α : Type} {action : Action (Store × Attachment) α}
    (steps : ∀ a, Attachment.Steps (s, a) (Operation.after action (s, a))) (id : RootId) :
    Changes orderly sweeping s (Operation.after (onAttachment id action) s) := by
  unfold Operation.after onAttachment
  cases found : s.roots[id]? with
  | none => exact .refl
  | some root =>
      obtain ⟨backing, block, base, length, held⟩ := root
      cases backing with
      | segment a =>
          have worked := steps a
          unfold Operation.after at worked
          simp only
          cases run : action (s, a) with
          | ok b after =>
              simp only [run] at worked
              exact Attachment.Steps.changes worked found rfl
          | error e after =>
              simp only [run] at worked
              exact Attachment.Steps.changes worked found rfl
      | _ => exact .refl

theorem releaseRoot_changes (id : RootId) (s : Store) :
    Changes orderly sweeping s (Operation.after (releaseRoot id) s) := by
  unfold Operation.after
  rw [releaseRoot_run]
  cases found : s.roots[id]? with
  | none => exact .refl
  | some root =>
      simp only
      cases behind : root.backing with
      | array valid => exact .single (.weaken found (behind ▸ .array))
      | heap valid =>
          cases valid with
          | false => exact .refl
          | true => exact .single (.endHeap found behind)
      | buffer wrapped valid => exact .single (.weaken found (behind ▸ .buffer))
      | segment a =>
          have worked := Attachment.release_steps (s := s) (a := a)
          obtain ⟨after, run⟩ := Attachment.release_ok segmentCalls s a
          unfold Operation.after at worked
          simp only [run] at worked ⊢
          exact Attachment.Steps.changes worked found behind

theorem dropRoot_changes (sweeps : sweeping) (id : RootId) (s : Store) :
    Changes orderly sweeping s (Operation.after (dropRoot id) s) := by
  have released : Changes orderly sweeping s _ := releaseRoot_changes id s
  have calm : Changes orderly False s _ := releaseRoot_changes id s
  obtain ⟨-, same⟩ | ⟨root, after, found, held, rfl, dropped⟩ := s.dropRoot_cases id
  · rw [same]
  · obtain ⟨root', found', later⟩ := calm.later found
    have still : root'.held = true := (later.held not_false).trans held
    have variant := later.variant
    rw [dropped]
    cases behind : root.backing with
    | array valid =>
        obtain ⟨valid', behind'⟩ : ∃ valid', root'.backing = .array valid' := by
          rw [behind] at variant
          cases behind' : root'.backing <;> rw [behind'] at variant <;> cases variant
          exact ⟨_, rfl⟩
        have gone : Change orderly sweeping (Operation.after (releaseRoot id) s) _ :=
          .letGoArray sweeps found' behind' still
        rw [later.block] at gone
        exact released.tail gone
    | _ =>
        refine released.tail (.letGo sweeps found' ?_)
        intro valid' behind'
        rw [behind, behind'] at variant
        cases variant

theorem dropBuffer_changes (sweeps : sweeping) (id : BufferId) (s : Store) :
    Changes orderly sweeping s (Operation.after (dropBuffer id) s) := by
  unfold Operation.after
  simp only [dropBuffer, Operation.bind_run, Operation.get_run]
  cases found : s.buffers[id]? with
  | none => exact .refl
  | some b =>
      simp only [Operation.some_run]
      cases alive : b.alive with
      | false => exact .refl
      | true =>
          simp only [if_true, Operation.bind_run, Operation.modify_run]
          cases has : b.block with
          | none => exact .single (.endNullBuffer sweeps found has)
          | some block => exact .single (.endBuffer sweeps found alive has)

end Store

end BoundedMemory
