import BoundedMemory.Proofs.Coherence.Statement

/-!
What using a handle comes to. A use is turned away unless its name leads to a handle of the
kind that it is for; otherwise it is run, and of all names only its own may be dropped or stand
for another handle afterwards.
-/

namespace BoundedMemory

/-- A handle of the kind that a use is for. -/
def Use.Fits (s : Store) : Use → Handle → Prop
  | .drop, _ | .inspect, _ => True
  | .region _, .region _ => True
  | .segment _, .region r => (r.attachment? s).isSome
  | .cursor _, .cursor _ => True
  | .reader _, .reader _ => True
  | .writer _, .writer _ => True
  | _, _ => False

/-- What does not fit touches nothing. -/
theorem Handle.touch?_of_misfit {s : Store} {how : Use} {h : Handle} (misfit : ¬ how.Fits s h) :
    h.touch? how = none := by
  cases how with
  | drop | inspect => exact absurd trivial misfit
  | segment how => rfl
  | _ => cases h <;> first | rfl | exact absurd trivial misfit

namespace Session

variable {s : Session} {target : String} {how : Use} {h : Handle}

/-- All that a use of what is behind a name can reply and leave. -/
inductive Used (s : Session) (target : String) : Use → Reply × Session → Prop where
  | unfit {how : Use}
      (misfit : ∀ h, s.handles.find? target = some h → ¬ how.Fits s.store h) :
      s.Used target how (.noHandle, s)
  | drop {h : Handle} (found : s.handles.find? target = some h) :
      s.Used target .drop (.done, { s with handles := s.handles.erase target })
  | inspect {h : Handle} (found : s.handles.find? target = some h) :
      s.Used target .inspect (s.inspect h, s)
  | region {r : Region} (how : RegionUse) (found : s.handles.find? target = some (.region r)) :
      s.Used target (.region how) ((how.run r s.keyName s.store).1,
        { s with store := (how.run r s.keyName s.store).2 })
  | segment {r : Region} {a : Attachment} (how : SegmentUse)
      (found : s.handles.find? target = some (.region r))
      (attached : r.attachment? s.store = some a) :
      s.Used target (.segment how)
        ((how.run r a (fun name => (s.attachment? name).map Prod.snd) s.store).1,
          { s with
            store := (how.run r a (fun name => (s.attachment? name).map Prod.snd) s.store).2 })
  | cursor {c : Cursor} (how : CursorUse) (found : s.handles.find? target = some (.cursor c)) :
      s.Used target (.cursor how) ((how.run (s.store, c)).1,
        { s with store := (how.run (s.store, c)).2.1 }.bind target
          (.cursor (how.run (s.store, c)).2.2))
  | reader {w : Window} (how : ReaderUse) (found : s.handles.find? target = some (.reader w)) :
      s.Used target (.reader how) ((how.run (s.store, w)).1,
        { s with store := (how.run (s.store, w)).2.1 }.bind target
          (.reader (how.run (s.store, w)).2.2))
  | writer {w : Window} (how : WriterUse) (found : s.handles.find? target = some (.writer w)) :
      s.Used target (.writer how) ((how.run (s.store, w)).1,
        { s with store := (how.run (s.store, w)).2.1 }.bind target
          (.writer (how.run (s.store, w)).2.2))

theorem use_missing (how : Use) (missing : s.handles.find? target = none) :
    s.use target how = (.noHandle, s) := by
  unfold use
  rw [missing]
  cases how <;> rfl

theorem use_used (target : String) (how : Use) (s : Session) :
    s.Used target how (s.use target how) := by
  cases found : s.handles.find? target with
  | none =>
      rw [use_missing how found]
      exact .unfit fun h there => by rw [found] at there; cases there
  | some h =>
      have unfit (turned : s.use target how = (.noHandle, s)) (misfit : ¬ how.Fits s.store h) :
          s.Used target how (s.use target how) := by
        rw [turned]
        refine .unfit fun other there => ?_
        rw [found] at there
        cases there
        exact misfit
      unfold use at unfit ⊢
      simp only [found] at unfit ⊢
      cases how with
      | drop => exact .drop found
      | inspect => exact .inspect found
      | region how =>
          cases h with
          | region r => exact .region how found
          | _ => exact unfit rfl id
      | segment how =>
          cases h with
          | region r =>
              cases attached : r.attachment? s.store with
              | none =>
                  refine unfit (by simp only [attached]) ?_
                  simp only [Use.Fits, attached, Option.isSome_none, Bool.false_eq_true,
                    not_false_eq_true]
              | some a =>
                  simp only [attached]
                  exact .segment how found attached
          | _ => exact unfit rfl id
      | cursor how =>
          cases h with
          | cursor c => exact .cursor how found
          | _ => exact unfit rfl id
      | reader how =>
          cases h with
          | reader w => exact .reader how found
          | _ => exact unfit rfl id
      | writer how =>
          cases h with
          | writer w => exact .writer how found
          | _ => exact unfit rfl id

/-- A use of a handle drops its name, or binds it to what has become of the handle, or leaves
all names alone. -/
theorem use_handles (target : String) (how : Use) (s : Session) :
    (s.use target how).2.handles = s.handles ∨
      (s.use target how).2.handles = s.handles.erase target ∨
        ∃ h, (s.use target how).2.handles = s.handles.bind target h := by
  have used := s.use_used target how
  generalize s.use target how = result at used ⊢
  cases used with
  | unfit | inspect | region | segment => exact .inl rfl
  | drop => exact .inr (.inl rfl)
  | cursor | reader | writer => exact .inr (.inr ⟨_, rfl⟩)

end Session

end BoundedMemory
