import BoundedMemory.Proofs.Operation
import BoundedMemory.Region.Release

/-!
The end of roots, step by step. What the system answers to the calls of a
release does not matter to whether the release comes to an end: it always does.
-/

namespace BoundedMemory

namespace Attachment

variable {σ : Type} (calls : SegmentCalls σ) (s : σ) (a : Attachment)

theorem detach_run :
    detach calls (s, a) =
      if a.attached then
        match calls.unmap a.mapping s with
        | .ok _ s' => .ok () (s', { a with attached := false })
        | .error e s' => .error (.fault (.os "shmdt" e)) (s', a)
      else .ok () (s, a) := by
  unfold detach
  simp only [Operation.bind_run, Operation.get_run]
  by_cases attached : a.attached = true
  · simp only [attached, if_true, Operation.bind_run, Operation.onFirst_run, Operation.system]
    cases calls.unmap a.mapping s <;> rfl
  · simp only [attached, Bool.false_eq_true, if_false, Operation.pure_run]

theorem destroy_run :
    destroy calls (s, a) =
      match detach calls (s, a) with
      | .error e after => .error e after
      | .ok _ (s', a') =>
          if a'.removed then .ok () (s', a')
          else
            match calls.remove a'.segment s' with
            | .ok _ s'' => .ok () (s'', { a' with removed := true })
            | .error e s'' => .error (.fault (.os "shmctl" e)) (s'', a') := by
  unfold destroy
  simp only [Operation.bind_run]
  cases detach calls (s, a) with
  | error e after => rfl
  | ok _ after =>
      obtain ⟨s', a'⟩ := after
      simp only [Operation.get_run]
      by_cases removed : a'.removed = true
      · simp only [removed, Bool.not_true, Bool.false_eq_true, if_false, if_true,
          Operation.pure_run]
      · simp only [removed, Bool.not_false, Bool.false_eq_true, if_false, if_true,
          Operation.bind_run, Operation.onFirst_run, Operation.system]
        cases calls.remove a'.segment s' <;> rfl

/-- What a release tries, with nobody told whether it succeeds. -/
def ending (a : Attachment) : Action (σ × Attachment) Unit :=
  if a.destroyOnRelease then destroy calls else detach calls

theorem release_run :
    release calls (s, a) =
      if a.released then .ok () (s, a)
      else
        match a.ending calls (s, { a with released := true }) with
        | .ok _ after => .ok () after
        | .error (.fault _) after => .ok () after
        | .error .trap after => .error .trap after := by
  unfold release ending
  simp only [Operation.bind_run, Operation.get_run]
  by_cases released : a.released = true
  · simp only [released, Bool.not_true, Bool.false_eq_true, if_false, if_true,
      Operation.pure_run]
  · simp only [released, Bool.not_false, Bool.false_eq_true, if_false, if_true,
      Operation.bind_run, Operation.modify_run, Operation.attempt_run]
    generalize (if a.destroyOnRelease then destroy calls else detach calls) _ = tried
    cases tried with
    | ok _ after => rfl
    | error e after => cases e <;> rfl

/-- A system call may fail but has an outcome. -/
theorem detach_ne_trap (after : σ × Attachment) : detach calls (s, a) ≠ .error .trap after := by
  intro h
  rw [detach_run] at h
  by_cases attached : a.attached = true
  · simp only [attached, if_true] at h
    cases unmap : calls.unmap a.mapping s <;> simp [unmap] at h
  · simp [attached] at h

theorem destroy_ne_trap (after : σ × Attachment) : destroy calls (s, a) ≠ .error .trap after := by
  intro h
  rw [destroy_run] at h
  cases detached : detach calls (s, a) with
  | error e t =>
      simp only [detached] at h
      cases h
      exact detach_ne_trap calls s a after detached
  | ok _ t =>
      obtain ⟨s', a'⟩ := t
      simp only [detached] at h
      by_cases removed : a'.removed = true
      · simp [removed] at h
      · simp only [removed, Bool.false_eq_true, if_false] at h
        cases remove : calls.remove a'.segment s' <;> simp [remove] at h

/-- A release comes to an end, whatever the system answers. -/
theorem release_ok : ∃ after, release calls (s, a) = .ok () after := by
  rw [release_run]
  by_cases released : a.released = true
  · simp only [released, if_true]
    exact ⟨_, rfl⟩
  · simp only [released, Bool.false_eq_true, if_false]
    cases tried : a.ending calls (s, { a with released := true }) with
    | ok _ after => exact ⟨after, rfl⟩
    | error e after =>
        cases e with
        | fault cause => exact ⟨after, rfl⟩
        | trap =>
            unfold ending at tried
            by_cases destroys : a.destroyOnRelease = true
            · simp only [destroys, if_true] at tried
              exact absurd tried (destroy_ne_trap calls s _ after)
            · simp only [destroys, Bool.false_eq_true, if_false] at tried
              exact absurd tried (detach_ne_trap calls s _ after)

end Attachment

namespace Store

theorem unmapSegment_run (id : MappingId) (s : Store) :
    unmapSegment id s =
      match s.mappings[id]? with
      | some ⟨segment, true⟩ =>
          .ok () ({ s with mappings := s.mappings.set id ⟨segment, false⟩ }.reclaim segment)
      | _ => .error .invalid s := by
  show (match s.mappings[id]? with
    | some ⟨segment, true⟩ => _
    | _ => _ : EStateM OsError Store Unit) s = _
  cases s.mappings[id]? with
  | none => rfl
  | some mapping =>
      obtain ⟨segment, live⟩ := mapping
      cases live <;> rfl

theorem removeSegment_run (id : SegmentId) (s : Store) :
    removeSegment id s =
      match s.segments[id]? with
      | none => .error .invalid s
      | some g =>
          if g.phase = .gone then .error .invalid s
          else .ok () ((s.setPhase id .removed).reclaim id) := by
  show (match s.segments[id]? with
    | none => _
    | some g => _ : EStateM OsError Store Unit) s = _
  cases s.segments[id]? with
  | none => rfl
  | some g =>
      by_cases gone : g.phase = .gone
      · simp only [gone, if_true]
        rfl
      · simp only [gone, if_false]
        rfl

/-- A segment is reclaimed once it was removed and nobody has it mapped, or not at all. -/
theorem reclaim_cases (id : SegmentId) (s : Store) :
    s.reclaim id = s ∨ ∃ g, s.segments[id]? = some g ∧ g.phase = .removed ∧
      s.isMappedSomewhere id = false ∧ s.reclaim id = (s.setPhase id .gone).freeBlock g.block := by
  unfold reclaim
  cases s.segments[id]? with
  | none => exact .inl rfl
  | some g =>
      by_cases due : (g.phase = .removed && !s.isMappedSomewhere id) = true
      · simp only [due, if_true]
        simp only [Bool.and_eq_true, decide_eq_true_eq, Bool.not_eq_true'] at due
        exact .inr ⟨g, rfl, due.1, due.2, rfl⟩
      · exact .inl (if_neg due)

@[simp] theorem reclaim_roots (id : SegmentId) (s : Store) : (s.reclaim id).roots = s.roots := by
  obtain same | ⟨g, -, -, -, same⟩ := s.reclaim_cases id
  · rw [same]
  · rw [same]
    rfl

@[simp] theorem reclaim_buffers (id : SegmentId) (s : Store) :
    (s.reclaim id).buffers = s.buffers := by
  obtain same | ⟨g, -, -, -, same⟩ := s.reclaim_cases id
  · rw [same]
  · rw [same]
    rfl

@[simp] theorem reclaim_mappings (id : SegmentId) (s : Store) :
    (s.reclaim id).mappings = s.mappings := by
  obtain same | ⟨g, -, -, -, same⟩ := s.reclaim_cases id
  · rw [same]
  · rw [same]
    rfl

theorem removeSegment_roots (id : SegmentId) (s : Store) :
    (Operation.after (removeSegment id) s).roots = s.roots := by
  unfold Operation.after
  rw [removeSegment_run]
  cases s.segments[id]? with
  | none => rfl
  | some g =>
      by_cases gone : g.phase = .gone
      · simp only [gone, if_true]
      · simp only [gone, if_false, reclaim_roots]
        rfl

/-- An attachment whose mapping is there can be detached, and one without stays so. -/
def Detachable (s : Store) (a : Attachment) : Prop :=
  a.attached = false ∨ ∃ segment, s.mappings[a.mapping]? = some ⟨segment, true⟩

theorem detach_ends {s : Store} {a : Attachment} (h : s.Detachable a) :
    ∃ s', Attachment.detach segmentCalls (s, a) = .ok () (s', { a with attached := false }) ∧
      s'.roots = s.roots := by
  rw [Attachment.detach_run]
  by_cases attached : a.attached = true
  · rcases h with detached | ⟨segment, mapped⟩
    · rw [detached] at attached
      cases attached
    · have unmap : segmentCalls.unmap a.mapping s =
          .ok () ({ s with mappings := s.mappings.set a.mapping ⟨segment, false⟩ }.reclaim
            segment) := by
        show unmapSegment a.mapping s = _
        rw [unmapSegment_run, mapped]
      simp only [attached, if_true, unmap]
      exact ⟨_, rfl, reclaim_roots _ _⟩
  · have gone : a = { a with attached := false } := by
      rw [← Bool.eq_false_iff.mpr attached]
    simp only [attached, Bool.false_eq_true, if_false]
    exact ⟨s, by rw [← gone], rfl⟩

/-- Whether or not the segment can be removed as well, it is detached. -/
theorem destroy_ends {s : Store} {a : Attachment} (h : s.Detachable a) :
    ∃ s' removed, (Attachment.destroy segmentCalls (s, a) =
          .ok () (s', { a with attached := false, removed }) ∨
        ∃ cause, Attachment.destroy segmentCalls (s, a) =
          .error (.fault cause) (s', { a with attached := false, removed })) ∧
      s'.roots = s.roots := by
  obtain ⟨s₁, detached, kept⟩ := detach_ends h
  rw [Attachment.destroy_run, detached]
  by_cases removed : a.removed = true
  · simp only [removed, if_true]
    exact ⟨s₁, true, .inl (by rw [← removed]), kept⟩
  · have roots := removeSegment_roots a.segment s₁
    unfold Operation.after at roots
    simp only [removed, Bool.false_eq_true, if_false]
    cases removal : segmentCalls.remove a.segment s₁ with
    | ok _ s₂ =>
        have removal : removeSegment a.segment s₁ = .ok () s₂ := removal
        simp only [removal] at roots
        exact ⟨s₂, true, .inl rfl, roots.trans kept⟩
    | error e s₂ =>
        have removal : removeSegment a.segment s₁ = .error e s₂ := removal
        simp only [removal] at roots
        exact ⟨s₂, false, .inr ⟨_, rfl⟩, roots.trans kept⟩

/-- A release detaches, and removes the segment at most if it is to destroy it. -/
theorem release_ends {s : Store} {a : Attachment}
    (h : a.attached = false ∨ a.released = false ∧ s.Detachable a) :
    ∃ s' removed, Attachment.release segmentCalls (s, a) =
        .ok () (s', { a with attached := false, removed, released := true }) ∧
      s'.roots = s.roots ∧ (removed = true → a.removed = true ∨ a.destroyOnRelease = true) := by
  rw [Attachment.release_run]
  by_cases released : a.released = true
  · have gone : a.attached = false := by
      rcases h with gone | ⟨unreleased, -⟩
      · exact gone
      · rw [unreleased] at released
        cases released
    simp only [released, if_true]
    exact ⟨s, a.removed, by rw [← gone, ← released], rfl, .inl⟩
  · have detachable : s.Detachable { a with released := true } := by
      rcases h with gone | ⟨-, detachable⟩
      · exact .inl gone
      · exact detachable
    simp only [released, Bool.false_eq_true, if_false]
    by_cases destroys : a.destroyOnRelease = true
    · have ending : a.ending segmentCalls = Attachment.destroy segmentCalls := if_pos destroys
      obtain ⟨s', removed, run, kept⟩ := destroy_ends detachable
      refine ⟨s', removed, ?_, kept, fun _ => .inr destroys⟩
      rcases run with run | ⟨cause, run⟩ <;> rw [ending, run]
    · have ending : a.ending segmentCalls = Attachment.detach segmentCalls := if_neg destroys
      obtain ⟨s', run, kept⟩ := detach_ends detachable
      refine ⟨s', a.removed, ?_, kept, .inl⟩
      rw [ending, run]

/-- A root that is there is released whatever is behind it; all others are not looked for. -/
theorem releaseRoot_run (id : RootId) (s : Store) :
    releaseRoot id s =
      match s.roots[id]? with
      | none => .error .trap s
      | some root =>
          match root.backing with
          | .array _ => .ok () (s.setBacking id (.array false))
          | .heap valid =>
              .ok () (if valid then (s.setBacking id (.heap false)).freeBlock root.block else s)
          | .buffer buffer _ => .ok () (s.setBacking id (.buffer buffer false))
          | .segment attachment =>
              match Attachment.release segmentCalls (s, attachment) with
              | .ok _ after => .ok () (after.1.setBacking id (.segment after.2))
              | .error e after => .error e (after.1.setBacking id (.segment after.2)) := by
  unfold releaseRoot
  simp only [Operation.bind_run, Operation.get_run]
  cases found : s.roots[id]? with
  | none => rfl
  | some root =>
      obtain ⟨backing, block, base, length, held⟩ := root
      simp only [Operation.some_run]
      cases backing with
      | array valid => rfl
      | heap valid => cases valid <;> rfl
      | buffer buffer valid => rfl
      | segment attachment =>
          simp only [onAttachment, found]
          cases Attachment.release segmentCalls (s, attachment) <;> rfl

/-- The only release that does not end is that of a root which was never there. -/
theorem releaseRoot_error {id : RootId} {s after : Store} {e : Stop Fault}
    (h : releaseRoot id s = .error e after) : after = s ∧ s.roots[id]? = none := by
  rw [releaseRoot_run] at h
  cases found : s.roots[id]? with
  | none =>
      simp only [found] at h
      cases h
      exact ⟨rfl, rfl⟩
  | some root =>
      simp only [found] at h
      cases backing : root.backing with
      | array valid => simp [backing] at h
      | heap valid => simp [backing] at h
      | buffer buffer valid => simp [backing] at h
      | segment attachment =>
          obtain ⟨ended, run⟩ := Attachment.release_ok segmentCalls s attachment
          simp [backing, run] at h

/-- To drop a root that is held is to release it and to let go of it; memory that only
handles hold goes with the last of them. -/
theorem dropRoot_cases (id : RootId) (s : Store) :
    (s.roots[id]?).any Root.held = false ∧ Operation.after (dropRoot id) s = s ∨
      ∃ root released, s.roots[id]? = some root ∧ root.held = true ∧
        Operation.after (releaseRoot id) s = released ∧
        Operation.after (dropRoot id) s =
          match root.backing with
          | .array _ =>
              freeBlock root.block { released with
                roots := released.roots.modify id fun r => { r with held := false } }
          | _ => { released with
              roots := released.roots.modify id fun r => { r with held := false } } := by
  unfold Operation.after
  simp only [dropRoot, Operation.bind_run, Operation.get_run]
  cases found : s.roots[id]? with
  | none => exact .inl ⟨rfl, rfl⟩
  | some root =>
      simp only [Operation.some_run, Option.any_some]
      cases held : root.held with
      | false => exact .inl ⟨rfl, rfl⟩
      | true =>
          simp only [if_true, Operation.bind_run]
          cases run : releaseRoot id s with
          | error e after =>
              rw [(releaseRoot_error run).2] at found
              cases found
          | ok _ released =>
              refine .inr ⟨root, released, rfl, held, rfl, ?_⟩
              simp only [Operation.modify_run]
              cases root.backing <;> rfl

end Store

/-- A region has the attachment of its root, unless it is a view. -/
theorem Region.attachment?_eq_some_iff {r : Region} {s : Store} {root : Root}
    (found : s.roots[r.root]? = some root) {a : Attachment} :
    r.attachment? s = some a ↔ r.isView = false ∧ root.backing = .segment a := by
  unfold attachment?
  rw [found]
  cases r.isView with
  | true => simp
  | false =>
      cases behind : root.backing with
      | segment b =>
          obtain ⟨backing, block, base, length, held⟩ := root
          cases behind
          simp
      | _ =>
          obtain ⟨backing, block, base, length, held⟩ := root
          cases behind
          simp

end BoundedMemory
