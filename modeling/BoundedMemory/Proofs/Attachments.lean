import BoundedMemory.Proofs.Release
import Mathlib.Logic.Relation

/-!
All that the end of an attachment can do. Detaching, destroying and releasing come
down to a few steps, each of which succeeds: to note something about the attachment,
to unmap its segment and to remove its segment. What holds of a step holds of them all.
-/

namespace BoundedMemory

namespace Store

/-- The store once a live mapping has been taken away. -/
def unmapped (s : Store) (id : MappingId) (segment : SegmentId) : Store :=
  { s with mappings := s.mappings.set id ⟨segment, false⟩ }

end Store

namespace Attachment

/-- One step on the way to the end of an attachment. -/
inductive Step : Store × Attachment → Store × Attachment → Prop where
  | release {s : Store} {a : Attachment} : Step (s, a) (s, { a with released := true })
  | unmap {s : Store} {a : Attachment} {segment : SegmentId} (attached : a.attached = true)
      (live : s.mappings[a.mapping]? = some ⟨segment, true⟩) :
      Step (s, a) ((s.unmapped a.mapping segment).reclaim segment, { a with attached := false })
  | remove {s : Store} {a : Attachment} {g : Segment} (found : s.segments[a.segment]? = some g)
      (there : g.phase ≠ .gone) :
      Step (s, a) ((s.setPhase a.segment .removed).reclaim a.segment, { a with removed := true })

abbrev Steps := Relation.ReflTransGen Step

variable {s : Store} {a : Attachment}

/-- Only where the mapping is there is anything done. -/
theorem detach_cases :
    (detach Store.segmentCalls (s, a) = .ok () (s, a) ∧ a.attached = false) ∨
      (∃ cause, detach Store.segmentCalls (s, a) = .error (.fault cause) (s, a)) ∨
      ∃ segment, a.attached = true ∧ s.mappings[a.mapping]? = some ⟨segment, true⟩ ∧
        detach Store.segmentCalls (s, a) =
          .ok ()
            ((s.unmapped a.mapping segment).reclaim segment, { a with attached := false }) := by
  rw [detach_run]
  cases attached : a.attached with
  | false => exact .inl ⟨rfl, rfl⟩
  | true =>
      have unmap : Store.segmentCalls.unmap a.mapping s = Store.unmapSegment a.mapping s := rfl
      rw [unmap, Store.unmapSegment_run]
      cases found : s.mappings[a.mapping]? with
      | none => exact .inr (.inl ⟨_, rfl⟩)
      | some m =>
          obtain ⟨segment, live⟩ := m
          cases live with
          | false => exact .inr (.inl ⟨_, rfl⟩)
          | true => exact .inr (.inr ⟨segment, rfl, rfl, rfl⟩)

theorem detach_steps : Steps (s, a) (Operation.after (detach Store.segmentCalls) (s, a)) := by
  unfold Operation.after
  rcases detach_cases (s := s) (a := a) with
    ⟨run, -⟩ | ⟨cause, run⟩ | ⟨segment, attached, live, run⟩
  · rw [run]
  · rw [run]
  · rw [run]
    exact .single (.unmap attached live)

theorem destroy_steps : Steps (s, a) (Operation.after (destroy Store.segmentCalls) (s, a)) := by
  have detached := detach_steps (s := s) (a := a)
  unfold Operation.after at detached ⊢
  rw [destroy_run]
  cases run : detach Store.segmentCalls (s, a) with
  | error e after =>
      simp only [run] at detached
      exact detached
  | ok _ after =>
      obtain ⟨s', a'⟩ := after
      simp only [run] at detached
      by_cases done : a'.removed = true
      · simp only [done, if_true]
        exact detached
      · have remove : Store.segmentCalls.remove a'.segment s' =
          Store.removeSegment a'.segment s' := rfl
        simp only [done, Bool.false_eq_true, if_false, remove, Store.removeSegment_run]
        cases found : s'.segments[a'.segment]? with
        | none => exact detached
        | some g =>
            by_cases gone : g.phase = .gone
            · simp only [gone, if_true]
              exact detached
            · simp only [gone, if_false]
              exact detached.tail (.remove found gone)

theorem release_steps : Steps (s, a) (Operation.after (release Store.segmentCalls) (s, a)) := by
  have ended : Steps (s, { a with released := true })
      (Operation.after (a.ending Store.segmentCalls) (s, { a with released := true })) := by
    unfold ending
    split
    · exact destroy_steps
    · exact detach_steps
  unfold Operation.after at ended ⊢
  rw [release_run]
  by_cases released : a.released = true
  · simp only [released, if_true]
    exact .refl
  · simp only [released, Bool.false_eq_true, if_false]
    refine .head .release ?_
    cases run : a.ending Store.segmentCalls (s, { a with released := true }) with
    | ok _ after =>
        simp only [run] at ended
        exact ended
    | error e after =>
        simp only [run] at ended
        cases e <;> exact ended

/-- Roots and buffers have no part in it, and an attachment stays on its segment. -/
theorem Steps.kept {before after : Store × Attachment} (steps : Steps before after) :
    after.1.roots = before.1.roots ∧ after.1.buffers = before.1.buffers ∧
      after.2.segment = before.2.segment := by
  induction steps with
  | refl => exact ⟨rfl, rfl, rfl⟩
  | tail _ step ih =>
      obtain ⟨roots, buffers, segment⟩ := ih
      cases step with
      | release => exact ⟨roots, buffers, segment⟩
      | unmap _ _ =>
          exact ⟨(Store.reclaim_roots _ _).trans roots, (Store.reclaim_buffers _ _).trans buffers,
            segment⟩
      | remove _ _ =>
          exact ⟨(Store.reclaim_roots _ _).trans roots, (Store.reclaim_buffers _ _).trans buffers,
            segment⟩

end Attachment

end BoundedMemory
