import BoundedMemory.Proofs.AttachmentCalls

/-!
The life of an attachment. Its mapping ends before its segment, each of them at most once,
and what has ended is not asked to end again. What failed is as it was and can be tried
again, except by a release, which tries once and keeps what comes of it to itself.
-/

namespace BoundedMemory

/-- A log of calls that ended a mapping and a segment as they should be. -/
structure EndsInOrder (mapping : MappingId) (segment : SegmentId) (log : List EndCall) :
    Prop where
  /-- Nothing of anybody else's was asked to end. -/
  own : ∀ call ∈ log, call.target = .mapping mapping ∨ call.target = .segment segment
  /-- What was asked to end again had not ended before. -/
  once : log.Pairwise fun earlier later =>
    earlier.target = later.target → earlier.failure ≠ none
  /-- The mapping had ended whenever the segment was asked to end. -/
  unmappedFirst : ∀ before call, before ++ [call] <+: log → call.target = .segment segment →
    ⟨.mapping mapping, none⟩ ∈ before

namespace EndsInOrder

variable {mapping : MappingId} {segment : SegmentId} {log : List EndCall}

theorem nil : EndsInOrder mapping segment [] where
  own := by simp
  once := .nil
  unmappedFirst before call isPrefix := by simp at isPrefix

/-- The mapping may be asked to end as long as it has not, and the segment after it. -/
theorem concat (ends : EndsInOrder mapping segment log) {target : EndTarget}
    (failure : Option OsError) (there : ⟨target, none⟩ ∉ log)
    (due : target = .mapping mapping ∨
      target = .segment segment ∧ ⟨.mapping mapping, none⟩ ∈ log) :
    EndsInOrder mapping segment (log ++ [⟨target, failure⟩]) where
  own := by
    intro call found
    rcases List.mem_append.mp found with old | new
    · exact ends.own call old
    · rw [List.mem_singleton.mp new]
      exact due.imp_right And.left
  once := by
    refine List.pairwise_append.mpr ⟨ends.once, List.pairwise_singleton _ _, ?_⟩
    intro earlier found later new same
    rw [List.mem_singleton.mp new] at same
    exact EndCall.failed there earlier found same
  unmappedFirst := by
    intro before call isPrefix removal
    rcases List.prefix_concat_iff.mp isPrefix with whole | old
    · obtain ⟨rfl, new⟩ := List.append_inj' whole rfl
      rw [List.singleton_inj.mp new] at removal
      have removal : target = .segment segment := removal
      rcases due with unmapping | ⟨-, unmapped⟩
      · rw [removal] at unmapping
        cases unmapping
      · exact unmapped
    · exact ends.unmappedFirst before call old removal

/-- Where the segment has ended, the mapping has. -/
theorem unmapped (ends : EndsInOrder mapping segment log)
    (removed : ⟨.segment segment, none⟩ ∈ log) : ⟨.mapping mapping, none⟩ ∈ log := by
  obtain ⟨before, after, split⟩ := List.append_of_mem removed
  have upToThere : before ++ [⟨.segment segment, none⟩] <+: log := by
    rw [split]
    exact ⟨after, by simp⟩
  have first := ends.unmappedFirst _ _ upToThere rfl
  rw [split]
  exact List.mem_append_left _ first

end EndsInOrder

namespace Attachment

variable {log log' : List EndCall} {a b : Attachment}

/-- An attachment and the log of its calls tell the same story. -/
structure Logged (log : List EndCall) (a : Attachment) : Prop extends
    EndsInOrder a.mapping a.segment log where
  /-- The mapping is there until it has ended. -/
  attached : a.attached = true ↔ ⟨.mapping a.mapping, none⟩ ∉ log
  removed : a.removed = true ↔ ⟨.segment a.segment, none⟩ ∈ log

theorem Fresh.logged (fresh : a.Fresh) : Logged [] a where
  toEndsInOrder := .nil
  attached := by simp [fresh.attached]
  removed := by simp [fresh.removed]

theorem Logged.released (logged : Logged log a) (noted : Bool) :
    Logged log { a with released := noted } :=
  ⟨logged.toEndsInOrder, logged.attached, logged.removed⟩

/-- A segment that has been removed is mapped no more. -/
theorem Logged.detached (logged : Logged log a) (removed : a.removed = true) :
    a.attached = false := by
  have unmapped := logged.unmapped (logged.removed.mp removed)
  cases attached : a.attached with
  | false => rfl
  | true => exact absurd unmapped (logged.attached.mp attached)

/-- What an attachment keeps through its life, whether or not it is `noted` as released
meanwhile; its log is only added to. -/
structure Continues (noted : Bool) (before after : List EndCall × Attachment) : Prop where
  mapping : after.2.mapping = before.2.mapping
  segment : after.2.segment = before.2.segment
  destroyOnRelease : after.2.destroyOnRelease = before.2.destroyOnRelease
  released : after.2.released = (before.2.released || noted)
  log : before.1 <+: after.1

theorem Continues.refl (state : List EndCall × Attachment) : Continues false state state :=
  ⟨rfl, rfl, rfl, (Bool.or_false _).symm, List.prefix_refl _⟩

theorem Continues.trans {noted noted' : Bool} {before between after : List EndCall × Attachment}
    (first : Continues noted before between) (second : Continues noted' between after) :
    Continues (noted || noted') before after where
  mapping := second.mapping.trans first.mapping
  segment := second.segment.trans first.segment
  destroyOnRelease := second.destroyOnRelease.trans first.destroyOnRelease
  released := by rw [second.released, first.released, Bool.or_assoc]
  log := first.log.trans second.log

theorem EndStep.continues {before after : List EndCall × Attachment}
    (endStep : EndStep before after) :
    Continues false before after := by
  cases endStep with
  | unmap => exact ⟨rfl, rfl, rfl, (Bool.or_false _).symm, List.prefix_append _ _⟩
  | unmapFails => exact ⟨rfl, rfl, rfl, (Bool.or_false _).symm, List.prefix_append _ _⟩
  | remove => exact ⟨rfl, rfl, rfl, (Bool.or_false _).symm, List.prefix_append _ _⟩
  | removeFails => exact ⟨rfl, rfl, rfl, (Bool.or_false _).symm, List.prefix_append _ _⟩

/-- One call leaves the attachment and its log in agreement. -/
theorem EndStep.logged (endStep : EndStep (log, a) (log', b)) (logged : Logged log a) :
    Logged log' b := by
  cases endStep with
  | unmap attached =>
      have there := logged.attached.mp attached
      refine ⟨logged.concat none there (.inl rfl), ?_, ?_⟩
      · simp
      · simpa using logged.removed
  | unmapFails e attached =>
      have there := logged.attached.mp attached
      refine ⟨logged.concat (some e) there (.inl rfl), ?_, ?_⟩
      · simpa using logged.attached
      · simpa using logged.removed
  | remove gone remains =>
      have unmapped : ⟨.mapping a.mapping, none⟩ ∈ log := by
        simpa [gone] using logged.attached
      have there : ⟨.segment a.segment, none⟩ ∉ log := by
        simpa [remains] using logged.removed
      refine ⟨logged.concat none there (.inr ⟨rfl, unmapped⟩), ?_, ?_⟩
      · simpa using logged.attached
      · simp
  | removeFails e gone remains =>
      have unmapped : ⟨.mapping a.mapping, none⟩ ∈ log := by
        simpa [gone] using logged.attached
      have there : ⟨.segment a.segment, none⟩ ∉ log := by
        simpa [remains] using logged.removed
      refine ⟨logged.concat (some e) there (.inr ⟨rfl, unmapped⟩), ?_, ?_⟩
      · simpa using logged.attached
      · simpa using logged.removed

theorem EndSteps.logged {before after : List EndCall × Attachment}
    (endSteps : EndSteps before after)
    (logged : Logged before.1 before.2) : Logged after.1 after.2 := by
  induction endSteps with
  | refl => exact logged
  | tail _ endStep ih => exact endStep.logged ih

theorem EndSteps.continues {before after : List EndCall × Attachment}
    (endSteps : EndSteps before after) :
    Continues false before after := by
  induction endSteps with
  | refl => exact .refl _
  | tail _ endStep ih => exact ih.trans endStep.continues

end Attachment

namespace AttachmentUse

open Attachment

variable {σ : Type} {calls : SegmentCalls σ} {s : σ} {log : List EndCall} {a : Attachment}

theorem logged (use : AttachmentUse) (logged : Logged log a) :
    Logged (Operation.after (use.run calls.traced) ((s, log), a)).1.2
      (Operation.after (use.run calls.traced) ((s, log), a)).2 :=
  EndSteps.logged use.endSteps (logged.released _)

theorem continues (use : AttachmentUse) :
    Continues use.releases (log, a)
      (traceOf (Operation.after (use.run calls.traced) ((s, log), a))) := by
  have noted : Continues use.releases (log, a)
      (log, { a with released := a.released || use.releases }) :=
    ⟨rfl, rfl, rfl, rfl, List.prefix_refl _⟩
  simpa using noted.trans (EndSteps.continues use.endSteps)

theorem runAll_logged (uses : List AttachmentUse) (state : (σ × List EndCall) × Attachment)
    (logged : Logged state.1.2 state.2) :
    Logged (runAll calls.traced uses state).1.2 (runAll calls.traced uses state).2 := by
  induction uses generalizing state with
  | nil => exact logged
  | cons use rest ih => exact ih _ (use.logged logged)

theorem runAll_continues (uses : List AttachmentUse) (state : (σ × List EndCall) × Attachment) :
    Continues (uses.any releases) (traceOf state) (traceOf (runAll calls.traced uses state)) := by
  induction uses generalizing state with
  | nil => exact .refl _
  | cons use rest ih => exact use.continues.trans (ih _)

end AttachmentUse

namespace Attachment

variable {σ : Type} {calls : SegmentCalls σ} {s s₀ s₁ : σ} {log log' : List EndCall}
  {a a₀ b : Attachment}

/-- What failed is reported, leaves the attachment as it was, and is tried again by the next
use; what succeeded is not. -/
structure Retries (calls : SegmentCalls σ) (s : σ) (log : List EndCall) (a : Attachment) :
    Prop where
  unmapFails : a.attached = true → ∀ use, use = .detach ∨ use = .destroy →
    ∀ e t, calls.unmap a.mapping s = .error e t → AttachmentUse.run calls.traced use ((s, log), a) =
      .error (.fault (.os "shmdt" e)) ((t, log ++ [⟨.mapping a.mapping, some e⟩]), a)
  unmaps : a.attached = true → ∀ t, calls.unmap a.mapping s = .ok () t →
    detach calls.traced ((s, log), a) =
        .ok () ((t, log ++ [⟨.mapping a.mapping, none⟩]), { a with attached := false }) ∧
      destroy calls.traced ((s, log), a) = destroy calls.traced
        ((t, log ++ [⟨.mapping a.mapping, none⟩]), { a with attached := false })
  detached : a.attached = false → detach calls.traced ((s, log), a) = .ok () ((s, log), a)
  removalFails : a.attached = false → a.removed = false →
    ∀ e t, calls.remove a.segment s = .error e t → destroy calls.traced ((s, log), a) =
      .error (.fault (.os "shmctl" e)) ((t, log ++ [⟨.segment a.segment, some e⟩]), a)
  removes : a.attached = false → a.removed = false →
    ∀ t, calls.remove a.segment s = .ok () t → destroy calls.traced ((s, log), a) =
      .ok () ((t, log ++ [⟨.segment a.segment, none⟩]), { a with removed := true })
  removed : a.removed = true →
    a.attached = false ∧ destroy calls.traced ((s, log), a) = .ok () ((s, log), a)

/-- A release, or the drop that stands for one, has no failure to report. The first one
detaches, and removes the segment unless it `lasts`; all others do nothing. -/
structure ReleasesOnce (calls : SegmentCalls σ) (lasts : Bool) (s : σ) (log : List EndCall)
    (a : Attachment) : Prop where
  ends : ∃ after, release calls.traced ((s, log), a) = .ok () after
  first : a.released = false → Operation.after (release calls.traced) ((s, log), a) =
    Operation.after (if lasts then detach calls.traced else destroy calls.traced)
      ((s, log), { a with released := true })
  again : a.released = true → release calls.traced ((s, log), a) = .ok () ((s, log), a)
  lasting : lasts = true →
    ∀ call ∈ (Operation.after (release calls.traced) ((s, log), a)).1.2,
      call ∈ log ∨ call.target = .mapping a.mapping

theorem Logged.retries (logged : Logged log a) : Retries calls s log a where
  unmapFails attached use which e t fails := by
    rcases which with rfl | rfl
    · exact detach_of_failure attached fails
    · exact destroy_of_failure attached fails
  unmaps attached t unmapped :=
    ⟨detach_of_unmapped attached unmapped, destroy_of_unmapped attached unmapped⟩
  detached gone := detach_of_detached gone
  removalFails gone there e t fails := destroy_of_removal_failure gone there fails
  removes gone there t removal := destroy_of_removal gone there removal
  removed removed := by
    have gone := logged.detached removed
    exact ⟨gone, destroy_of_removed gone removed⟩

/-- A detaching logs no removal. -/
private theorem detach_calls :
    ∀ call ∈ (Operation.after (detach calls.traced) ((s, log), a)).1.2,
      call ∈ log ∨ call.target = .mapping a.mapping := by
  intro call found
  unfold Operation.after at found
  cases attached : a.attached with
  | false =>
      rw [detach_of_detached attached] at found
      exact .inl found
  | true =>
      cases answer : calls.unmap a.mapping s with
      | ok _ t =>
          rw [detach_of_unmapped attached answer] at found
          rcases List.mem_append.mp found with old | new
          · exact .inl old
          · exact .inr (congrArg EndCall.target (List.mem_singleton.mp new))
      | error e t =>
          rw [detach_of_failure attached answer] at found
          rcases List.mem_append.mp found with old | new
          · exact .inl old
          · exact .inr (congrArg EndCall.target (List.mem_singleton.mp new))

theorem releasesOnce {lasts : Bool} (destroys : a.destroyOnRelease = !lasts) :
    ReleasesOnce calls lasts s log a := by
  have first (unreleased : a.released = false) :
      Operation.after (release calls.traced) ((s, log), a) =
        Operation.after (if lasts then detach calls.traced else destroy calls.traced)
          ((s, log), { a with released := true }) := by
    rw [after_release unreleased, ending, destroys]
    cases lasts <;> rfl
  refine ⟨release_ok _ _ _, first, release_of_released, ?_⟩
  intro lasting
  cases released : a.released with
  | true =>
      intro call found
      unfold Operation.after at found
      rw [release_of_released released] at found
      exact .inl found
  | false =>
      rw [first released, if_pos lasting]
      exact detach_calls

/-- How an attachment stands after `uses`, where `log` has all the calls they made. -/
structure Stands (calls : SegmentCalls σ) (origin : AttachmentOrigin) (uses : List AttachmentUse)
    (start : σ × Attachment) (s : σ) (log : List EndCall) (a : Attachment) : Prop where
  /-- The log itself changes nothing. -/
  reached : AttachmentUse.runAll calls uses start = (s, a)
  logged : Logged log a
  released : a.released = uses.any AttachmentUse.releases
  grows : ∀ more, log <+: (AttachmentUse.runAll calls.traced more ((s, log), a)).1.2
  /-- What has been detached stays detached. -/
  stays : a.attached = false →
    ∀ more, (AttachmentUse.runAll calls.traced more ((s, log), a)).2.attached = false
  retries : Retries calls s log a
  releasesOnce : ReleasesOnce calls origin.lasts s log a

/-- Mappings do not come back. -/
private theorem Logged.stays {noted : Bool} (logged : Logged log a) (later : Logged log' b)
    (continues : Continues noted (log, a) (log', b)) (gone : a.attached = false) :
    b.attached = false := by
  -- The log tells: it has the call that ended the mapping, and keeps it.
  have unmapped : ⟨.mapping a.mapping, none⟩ ∈ log := by
    simpa [gone] using logged.attached
  have unmapped : ⟨.mapping b.mapping, none⟩ ∈ log' := by
    rw [continues.mapping]
    exact continues.log.subset unmapped
  cases attached : b.attached with
  | false => rfl
  | true => exact absurd unmapped (later.attached.mp attached)

/-- However a program comes by an attachment, whatever it does with it and whatever the
system answers to that, the attachment ends as it should. -/
theorem ends_once (calls : SegmentCalls σ) (origin : AttachmentOrigin)
    (made : origin.make calls s₀ = .ok a₀ s₁) (uses : List AttachmentUse) :
    let state := AttachmentUse.runAll calls.traced uses ((s₁, []), a₀)
    Stands calls origin uses (s₁, a₀) state.1.1 state.1.2 state.2 := by
  intro state
  obtain ⟨fresh, destroys⟩ := make_fresh made
  have logged : Logged state.1.2 state.2 :=
    AttachmentUse.runAll_logged uses ((s₁, []), a₀) fresh.logged
  have life : Continues (uses.any AttachmentUse.releases) ([], a₀) (traceOf state) :=
    AttachmentUse.runAll_continues uses ((s₁, []), a₀)
  have goesOn (more : List AttachmentUse) : Continues (more.any AttachmentUse.releases)
      (traceOf state) (traceOf (AttachmentUse.runAll calls.traced more state)) :=
    AttachmentUse.runAll_continues more state
  have released : state.2.released = uses.any AttachmentUse.releases := by
    rw [← Bool.false_or (uses.any _), ← fresh.released]
    exact life.released
  refine ⟨AttachmentUse.runAll_traced uses ((s₁, []), a₀), logged, released,
    fun more => (goesOn more).log, ?_, logged.retries,
    Attachment.releasesOnce (life.destroyOnRelease.trans destroys)⟩
  intro gone more
  exact logged.stays (AttachmentUse.runAll_logged more state logged) (goesOn more) gone

/-- A system that answers what it is asked to end from a script, and then always agrees. -/
private def scripted : SegmentCalls (List (Option OsError)) where
  find _ _ _ := pure 0
  map _ := pure 0
  unmap _ := answer
  remove _ := answer
where
  answer : EStateM OsError (List (Option OsError)) Unit
    | [] => .ok () []
    | none :: rest => .ok () rest
    | some e :: rest => .error e rest

private def scriptedAttachment : Attachment where
  key := .named "log"
  segment := 0
  mapping := 0
  destroyOnRelease := true

private def scriptedUses : List AttachmentUse :=
  [.release, .release, .detach, .drop, .destroy, .detach, .destroy, .destroy]

/-- The release fails to unmap and does not try again; the uses after it do, until the
mapping and the segment have ended. -/
theorem ends_once_after_failures :
    let origin : AttachmentOrigin := .create (.named "log") 64 0 false
    let script := [some .invalid, some .invalid, none, some .notPermitted, none]
    let start := scriptedAttachment
    let state := AttachmentUse.runAll scripted.traced scriptedUses ((script, []), start)
    origin.make scripted script = .ok start script ∧
      state.1.2 = [⟨.mapping 0, some .invalid⟩, ⟨.mapping 0, some .invalid⟩, ⟨.mapping 0, none⟩,
        ⟨.segment 0, some .notPermitted⟩, ⟨.segment 0, none⟩] ∧
      Stands scripted origin scriptedUses (script, start) state.1.1 state.1.2 state.2 :=
  ⟨rfl, rfl, ends_once scripted _ rfl scriptedUses⟩

end Attachment

end BoundedMemory
