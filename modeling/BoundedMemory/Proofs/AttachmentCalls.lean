import BoundedMemory.Proofs.Refusing
import Mathlib.Data.List.Infix

/-!
The uses of an attachment under a system that may answer its calls in any way. The calls
that end something are written down with their outcomes, which changes nothing else, and
every use of the attachment, by whichever handle, comes to a few calls: the mapping or the
segment is asked to end, and does so or does not.
-/

namespace BoundedMemory

/-- What the system can be asked to end. -/
inductive EndTarget where
  | mapping (id : MappingId)
  | segment (id : SegmentId)
  deriving DecidableEq, Repr

/-- A call that was to end something, and why it did not. -/
structure EndCall where
  target : EndTarget
  failure : Option OsError := none
  deriving DecidableEq, Repr

/-- What has not ended yet was only tried in vain. -/
theorem EndCall.failed {log : List EndCall} {target : EndTarget} (there : ⟨target, none⟩ ∉ log) :
    ∀ call ∈ log, call.target = target → call.failure ≠ none := by
  rintro ⟨_, failure⟩ found rfl rfl
  exact there found

namespace SegmentCalls

variable {σ α : Type}

/-- A call to the system that leaves the log alone. -/
def unlogged (call : EStateM OsError σ α) : EStateM OsError (σ × List EndCall) α :=
  fun (s, log) =>
    match call s with
    | .ok answer s => .ok answer (s, log)
    | .error e s => .error e (s, log)

/-- A call to the system that is written down with its outcome. -/
def logged (target : EndTarget) (call : EStateM OsError σ α) :
    EStateM OsError (σ × List EndCall) α := fun (s, log) =>
  match call s with
  | .ok answer s => .ok answer (s, log ++ [⟨target, none⟩])
  | .error e s => .error e (s, log ++ [⟨target, some e⟩])

/-- The same system, with a log of the calls that were to end something. -/
def traced (calls : SegmentCalls σ) : SegmentCalls (σ × List EndCall) where
  find key size flags := unlogged (calls.find key size flags)
  map id := unlogged (calls.map id)
  unmap id := logged (.mapping id) (calls.unmap id)
  remove id := logged (.segment id) (calls.remove id)

end SegmentCalls

/-- What can be done with an attachment. Handles share it, so it does not matter which of
them asks; the last to go drops it. -/
inductive AttachmentUse where
  | detach
  | destroy
  | release
  | drop
  deriving DecidableEq, Repr

namespace AttachmentUse

variable {σ : Type}

def run (calls : SegmentCalls σ) : AttachmentUse → Action (σ × Attachment) Unit
  | .detach => Attachment.detach calls
  | .destroy => Attachment.destroy calls
  | .release | .drop => Attachment.release calls

/-- What a sequence of uses leaves, whichever of them fail. -/
def runAll (calls : SegmentCalls σ) (uses : List AttachmentUse) (state : σ × Attachment) :
    σ × Attachment :=
  uses.foldl (fun state use => Operation.after (use.run calls) state) state

/-- Whether the use is a release. -/
def releases : AttachmentUse → Bool
  | .detach | .destroy => false
  | .release | .drop => true

end AttachmentUse

/-- How a program comes by an attachment. -/
inductive AttachmentOrigin where
  | attach (key : SegmentKey) (size : Nat) (flags : SegmentFlags)
  | create (key : SegmentKey) (size : Nat) (flags : SegmentFlags) (persistent : Bool)
  deriving DecidableEq, Repr

namespace AttachmentOrigin

variable {σ : Type}

def make (calls : SegmentCalls σ) : AttachmentOrigin → Action σ Attachment
  | .attach key size flags => Attachment.attach calls key size flags
  | .create key size flags persistent => Attachment.create calls key size flags persistent

/-- Whether the segment outlives the release. -/
def lasts : AttachmentOrigin → Bool
  | .attach .. => true
  | .create _ _ _ persistent => persistent

end AttachmentOrigin

namespace Attachment

variable {σ : Type} {calls : SegmentCalls σ} {s t : σ} {log : List EndCall} {a b : Attachment}

/-- An attachment starts out mapped, with nothing done to it. -/
structure Fresh (a : Attachment) : Prop where
  attached : a.attached = true
  removed : a.removed = false
  released : a.released = false

private theorem map_fresh {key : SegmentKey} {segment : SegmentId} {destroys : Bool}
    (made : map calls key segment destroys s = .ok a t) :
    a.Fresh ∧ a.destroyOnRelease = destroys := by
  obtain ⟨mapping, _, _, rest⟩ := Operation.bind_eq_ok_iff.mp made
  cases rest
  exact ⟨⟨rfl, rfl, rfl⟩, rfl⟩

theorem make_fresh {origin : AttachmentOrigin} (made : origin.make calls s = .ok a t) :
    a.Fresh ∧ a.destroyOnRelease = !origin.lasts := by
  cases origin with
  | attach key size flags =>
      obtain ⟨segment, _, _, mapped⟩ := Operation.bind_eq_ok_iff.mp made
      exact map_fresh mapped
  | create key size flags persistent =>
      obtain ⟨segment, _, _, mapped⟩ := Operation.bind_eq_ok_iff.mp made
      exact map_fresh mapped

/-! ### What each use does -/

theorem detach_of_unmapped (attached : a.attached = true)
    (unmapped : calls.unmap a.mapping s = .ok () t) :
    detach calls.traced ((s, log), a) =
      .ok () ((t, log ++ [⟨.mapping a.mapping, none⟩]), { a with attached := false }) := by
  have answer : calls.traced.unmap a.mapping (s, log) =
      .ok () (t, log ++ [⟨.mapping a.mapping, none⟩]) := by
    simp only [SegmentCalls.traced, SegmentCalls.logged, unmapped]
  rw [detach_run, if_pos attached, answer]

theorem detach_of_failure {e : OsError} (attached : a.attached = true)
    (fails : calls.unmap a.mapping s = .error e t) :
    detach calls.traced ((s, log), a) =
      .error (.fault (.os "shmdt" e)) ((t, log ++ [⟨.mapping a.mapping, some e⟩]), a) := by
  have answer : calls.traced.unmap a.mapping (s, log) =
      .error e (t, log ++ [⟨.mapping a.mapping, some e⟩]) := by
    simp only [SegmentCalls.traced, SegmentCalls.logged, fails]
  rw [detach_run, if_pos attached, answer]

/-- Once the mapping is gone, a removal goes on as if it had been gone before. -/
theorem destroy_of_unmapped (attached : a.attached = true)
    (unmapped : calls.unmap a.mapping s = .ok () t) :
    destroy calls.traced ((s, log), a) = destroy calls.traced
      ((t, log ++ [⟨.mapping a.mapping, none⟩]), { a with attached := false }) :=
  destroy_of_detach (detach_of_unmapped attached unmapped) rfl

theorem destroy_of_failure {e : OsError} (attached : a.attached = true)
    (fails : calls.unmap a.mapping s = .error e t) :
    destroy calls.traced ((s, log), a) =
      .error (.fault (.os "shmdt" e)) ((t, log ++ [⟨.mapping a.mapping, some e⟩]), a) := by
  rw [destroy_run, detach_of_failure attached fails]

theorem destroy_of_removed (gone : a.attached = false) (removed : a.removed = true) :
    destroy calls (s, a) = .ok () (s, a) := by
  rw [destroy_run, detach_of_detached gone]
  simp only [removed, if_true]

theorem destroy_of_removal (gone : a.attached = false) (there : a.removed = false)
    (removal : calls.remove a.segment s = .ok () t) :
    destroy calls.traced ((s, log), a) =
      .ok () ((t, log ++ [⟨.segment a.segment, none⟩]), { a with removed := true }) := by
  have answer : calls.traced.remove a.segment (s, log) =
      .ok () (t, log ++ [⟨.segment a.segment, none⟩]) := by
    simp only [SegmentCalls.traced, SegmentCalls.logged, removal]
  rw [destroy_run, detach_of_detached gone]
  simp only [there, Bool.false_eq_true, if_false, answer]

theorem destroy_of_removal_failure {e : OsError} (gone : a.attached = false)
    (there : a.removed = false) (fails : calls.remove a.segment s = .error e t) :
    destroy calls.traced ((s, log), a) =
      .error (.fault (.os "shmctl" e)) ((t, log ++ [⟨.segment a.segment, some e⟩]), a) := by
  have answer : calls.traced.remove a.segment (s, log) =
      .error e (t, log ++ [⟨.segment a.segment, some e⟩]) := by
    simp only [SegmentCalls.traced, SegmentCalls.logged, fails]
  rw [destroy_run, detach_of_detached gone]
  simp only [there, Bool.false_eq_true, if_false, answer]

theorem release_of_released (released : a.released = true) :
    release calls (s, a) = .ok () (s, a) := by
  rw [release_run, if_pos released]

/-- The first release leaves what it tries leaves, whether or not that succeeds. -/
theorem after_release (unreleased : a.released = false) :
    Operation.after (release calls) (s, a) =
      Operation.after (a.ending calls) (s, { a with released := true }) := by
  unfold Operation.after
  rw [release_run, unreleased]
  simp only [Bool.false_eq_true, if_false]
  cases a.ending calls (s, { a with released := true }) with
  | ok _ after => rfl
  | error e after => cases e <;> rfl

/-! ### The log takes no part -/

/-- The state of the system and the attachment, without the log. -/
def untraced (state : (σ × List EndCall) × Attachment) : σ × Attachment := (state.1.1, state.2)

/-- An action that does the same with its calls written down. -/
def Traceable (x : Action (σ × Attachment) Unit)
    (y : Action ((σ × List EndCall) × Attachment) Unit) : Prop :=
  ∀ state, x (untraced state) = match y state with
    | .ok answer after => .ok answer (untraced after)
    | .error e after => .error e (untraced after)

theorem detach_traceable : Traceable (detach calls) (detach calls.traced) := by
  rintro ⟨⟨s, log⟩, a⟩
  show detach calls (s, a) = _
  cases attached : a.attached with
  | false =>
      rw [detach_of_detached attached, detach_of_detached attached]
      rfl
  | true =>
      rw [detach_run, if_pos attached]
      cases answer : calls.unmap a.mapping s with
      | ok _ t =>
          rw [detach_of_unmapped attached answer]
          rfl
      | error e t =>
          rw [detach_of_failure attached answer]
          rfl

theorem destroy_traceable : Traceable (destroy calls) (destroy calls.traced) := by
  rintro ⟨⟨s, log⟩, a⟩
  have detached : detach calls (s, a) = _ := detach_traceable ((s, log), a)
  show destroy calls (s, a) = _
  rw [destroy_run, destroy_run, detached]
  cases detach calls.traced ((s, log), a) with
  | error e after => rfl
  | ok _ after =>
      obtain ⟨⟨t, log'⟩, key, segment, mapping, destroys, attached, removed, released⟩ := after
      cases removed with
      | true => rfl
      | false =>
          simp only [untraced, Bool.false_eq_true, if_false, SegmentCalls.traced,
            SegmentCalls.logged]
          cases calls.remove segment t <;> rfl

theorem release_traceable : Traceable (release calls) (release calls.traced) := by
  rintro ⟨⟨s, log⟩, a⟩
  show release calls (s, a) = _
  cases released : a.released with
  | true =>
      rw [release_of_released released, release_of_released released]
      rfl
  | false =>
      have ended : Traceable (a.ending calls) (a.ending calls.traced) := by
        unfold ending
        cases a.destroyOnRelease with
        | true => exact destroy_traceable
        | false => exact detach_traceable
      have ended := ended ((s, log), { a with released := true })
      simp only [untraced] at ended
      simp only [release_run, released, Bool.false_eq_true, if_false, ended]
      cases a.ending calls.traced ((s, log), { a with released := true }) with
      | ok _ after => rfl
      | error e after => cases e <;> rfl

/-! ### Calls one after another -/

/-- One call that was to end something, as the log and the attachment show it. -/
inductive EndStep : List EndCall × Attachment → List EndCall × Attachment → Prop where
  | unmap {log : List EndCall} {a : Attachment} (attached : a.attached = true) :
      EndStep (log, a) (log ++ [⟨.mapping a.mapping, none⟩], { a with attached := false })
  | unmapFails {log : List EndCall} {a : Attachment} (e : OsError) (attached : a.attached = true) :
      EndStep (log, a) (log ++ [⟨.mapping a.mapping, some e⟩], a)
  | remove {log : List EndCall} {a : Attachment} (gone : a.attached = false)
      (there : a.removed = false) :
      EndStep (log, a) (log ++ [⟨.segment a.segment, none⟩], { a with removed := true })
  | removeFails {log : List EndCall} {a : Attachment} (e : OsError) (gone : a.attached = false)
      (there : a.removed = false) :
      EndStep (log, a) (log ++ [⟨.segment a.segment, some e⟩], a)

abbrev EndSteps := Relation.ReflTransGen EndStep

/-- The log and the attachment, without the state of the system. -/
def traceOf (state : (σ × List EndCall) × Attachment) : List EndCall × Attachment :=
  (state.1.2, state.2)

theorem detach_endSteps :
    EndSteps (log, a) (traceOf (Operation.after (detach calls.traced) ((s, log), a))) := by
  unfold Operation.after
  cases attached : a.attached with
  | false =>
      rw [detach_of_detached attached]
      exact .refl
  | true =>
      cases answer : calls.unmap a.mapping s with
      | ok _ t =>
          rw [detach_of_unmapped attached answer]
          exact .single (.unmap attached)
      | error e t =>
          rw [detach_of_failure attached answer]
          exact .single (.unmapFails e attached)

private theorem removal_endSteps (gone : a.attached = false) :
    EndSteps (log, a) (traceOf (Operation.after (destroy calls.traced) ((s, log), a))) := by
  unfold Operation.after
  cases removed : a.removed with
  | true =>
      rw [destroy_of_removed gone removed]
      exact .refl
  | false =>
      cases answer : calls.remove a.segment s with
      | ok _ t =>
          rw [destroy_of_removal gone removed answer]
          exact .single (.remove gone removed)
      | error e t =>
          rw [destroy_of_removal_failure gone removed answer]
          exact .single (.removeFails e gone removed)

theorem destroy_endSteps :
    EndSteps (log, a) (traceOf (Operation.after (destroy calls.traced) ((s, log), a))) := by
  cases attached : a.attached with
  | false => exact removal_endSteps attached
  | true =>
      cases answer : calls.unmap a.mapping s with
      | ok _ t =>
          -- From where it is unmapped on it is the case above, one call later.
          have goesOn : Operation.after (destroy calls.traced) ((s, log), a) =
              Operation.after (destroy calls.traced)
                ((t, log ++ [⟨.mapping a.mapping, none⟩]), { a with attached := false }) := by
            unfold Operation.after
            rw [destroy_of_unmapped attached answer]
          rw [goesOn]
          exact .head (.unmap attached) (removal_endSteps rfl)
      | error e t =>
          unfold Operation.after
          rw [destroy_of_failure attached answer]
          exact .single (.unmapFails e attached)

end Attachment

namespace AttachmentUse

variable {σ : Type} {calls : SegmentCalls σ} {s : σ} {log : List EndCall} {a : Attachment}

/-- A use notes a release as one, and all the rest of it is calls. -/
theorem endSteps (use : AttachmentUse) :
    Attachment.EndSteps (log, { a with released := a.released || use.releases })
      (Attachment.traceOf (Operation.after (use.run calls.traced) ((s, log), a))) := by
  have released : Attachment.EndSteps (log, { a with released := true })
      (Attachment.traceOf
        (Operation.after (Attachment.release calls.traced) ((s, log), a))) := by
    cases noted : a.released with
    | true =>
        unfold Operation.after
        rw [Attachment.release_of_released noted]
        obtain ⟨key, segment, mapping, destroys, attached, removed, released⟩ := a
        cases noted
        exact .refl
    | false =>
        rw [Attachment.after_release noted]
        unfold Attachment.ending
        cases a.destroyOnRelease with
        | true => exact Attachment.destroy_endSteps
        | false => exact Attachment.detach_endSteps
  cases use with
  | detach =>
      rw [releases, Bool.or_false]
      exact Attachment.detach_endSteps
  | destroy =>
      rw [releases, Bool.or_false]
      exact Attachment.destroy_endSteps
  | release =>
      rw [releases, Bool.or_true]
      exact released
  | drop =>
      rw [releases, Bool.or_true]
      exact released

theorem traceable (use : AttachmentUse) :
    Attachment.Traceable (use.run calls) (use.run calls.traced) := by
  cases use with
  | detach => exact Attachment.detach_traceable
  | destroy => exact Attachment.destroy_traceable
  | release => exact Attachment.release_traceable
  | drop => exact Attachment.release_traceable

/-- What a sequence of uses does is the same with its calls written down. -/
theorem runAll_traced (uses : List AttachmentUse) (state : (σ × List EndCall) × Attachment) :
    runAll calls uses (Attachment.untraced state) =
      Attachment.untraced (runAll calls.traced uses state) := by
  induction uses generalizing state with
  | nil => rfl
  | cons use rest ih =>
      have first : Operation.after (use.run calls) (Attachment.untraced state) =
          Attachment.untraced (Operation.after (use.run calls.traced) state) := by
        unfold Operation.after
        rw [traceable use state]
        cases use.run calls.traced state <;> rfl
      show runAll calls rest (Operation.after (use.run calls) (Attachment.untraced state)) = _
      rw [first]
      exact ih _

end AttachmentUse

end BoundedMemory
