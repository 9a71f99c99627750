import BoundedMemory.Proofs.Safety
import BoundedMemory.Proofs.SegmentNaming

/-!
What commands do to the keys of segments. A key is given only by a command that is to make
a segment where the key names none, and taken away only by the destruction of a source, by
the end of a source that destroys on release, or by a removal below all sources; these
have taken it away once they are done.
-/

namespace BoundedMemory

/-- How a segment is looked up: where, how much of it is attached to, with which flags, and
whether a release removes it. -/
structure Looking where
  place : SegmentPlace
  size : Nat
  flags : SegmentFlags
  destroys : Bool

def Making.looking? : Making → Option Looking
  | .attachSegment place options => some ⟨place, options.size, options.flags, false⟩
  | .createSegment place options =>
      some ⟨place, options.size, options.flags ||| SegmentFlags.create, !options.persistent⟩
  | _ => none

namespace Looking

def attach (l : Looking) (key : SegmentKey) : Action Store Region :=
  Region.ofAttachment l.size (Region.look key l.size l.flags l.destroys)

/-- Whether a segment is made where the key names none. -/
def Makes (l : Looking) (key : SegmentKey) : Prop :=
  key = .anonymous ∨ l.flags.has SegmentFlags.create = true

theorem attach_cases (l : Looking) (key : SegmentKey) (s : Store) :
    (∃ e, l.attach key s = .error e s) ∨
      ∃ g t, Store.Finds key (l.Makes key) s g t ∧
        ((∃ e, l.attach key s = .error e t) ∨
          ∃ u, Store.Attached g l.size l.destroys t u ∧
            l.attach key s = .ok (.ofRoot s.roots.length l.size) u) :=
  Region.ofAttachment_cases key l.size l.flags l.destroys s

/-- What it comes to that a segment is looked up. -/
theorem attach_renames {gone : SegmentId → Prop} {created : SegmentKey → Prop} {s : Store}
    {l : Looking} {key : SegmentKey}
    (creates : s.segmentOf? key = none → l.Makes key → created key) :
    Store.Renames gone created s (Operation.after (l.attach key) s) := by
  unfold Operation.after
  obtain ⟨e, fails⟩ | ⟨g, t, finds, ⟨e, fails⟩ | ⟨u, attached, attaches⟩⟩ :=
    l.attach_cases key s
  · rw [fails]
    exact (Store.Ends.refl s).renames
  · rw [fails]
    exact finds.renames creates
  · rw [attaches]
    exact (finds.renames creates).trans attached.renames

end Looking

namespace Session

open Store (Ends Renames)

variable {s : Session} {name : String} {what : Making} {l : Looking} {key : SegmentKey}
  {g : SegmentId} {command : Command}

theorem make_looks (looks : what.looking? = some l) (name : String) (s : Session) :
    s.make name what = s.bindSegment name l.place l.attach := by
  cases what <;> cases looks <;> rfl

/-- All else that is made comes about by additions. -/
theorem make_admits {ρ : Store → Store → Prop} (admits : Store.Admits ρ)
    (plain : what.looking? = none) (name : String) (s : Session) :
    ρ s.store (s.make name what).2.store := by
  cases what with
  | newArray size =>
      simp only [make, bindRegion_store]
      exact Region.ofBytes_admits admits s.store _
  | ofBytes bytes =>
      simp only [make, bindRegion_store]
      exact Region.ofBytes_admits admits s.store bytes
  | ofBytesWithin bytes offset length =>
      simp only [make, bindRegion_store]
      exact Region.ofBytesWithin_admits admits s.store bytes offset length
  | allocate size byte =>
      simp only [make, bindRegion_store]
      exact Region.allocate_clear_admits admits s.store size byte
  | allocateZeroed size =>
      simp only [make, bindRegion_store]
      exact Region.newHeap_admits admits s.store _ _ size 0
  | allocateFilled size byte =>
      simp only [make, bindRegion_store]
      exact Region.newHeap_admits admits s.store _ _ size byte
  | newBuffer size bytes =>
      simp only [make, makeBuffer_store]
      split
      · exact Buffer.allocateWith_admits admits s.store size bytes
      · exact admits.refl _
  | nullBuffer length => exact admits.buffer s.store _
  | bufferAgain buffer =>
      simp only [make]
      cases s.buffers.find? buffer with
      | none => exact admits.refl _
      | some id =>
          simp only
          split <;> exact admits.refl _
  | wrap buffer =>
      simp only [make]
      cases s.buffer? buffer with
      | none => exact admits.refl _
      | some id =>
          simp only [bindRegion_store]
          exact Region.wrap_admits admits s.store id
  | wrapWithin buffer offset length =>
      simp only [make]
      cases s.buffer? buffer with
      | none => exact admits.refl _
      | some id =>
          simp only [bindRegion_store]
          exact Region.wrapWithin_admits admits s.store id offset length
  | attachSegment place options => cases plain
  | createSegment place options => cases plain

/-- Whether a command makes a segment under a key, or tries to, which it does only where
the key names none. -/
def Creates (s : Session) (command : Command) (key : SegmentKey) : Prop :=
  ∃ name what l, command = .make name what ∧ what.looking? = some l ∧
    (s.placeKey l.place).1 = .ok key ∧ l.Makes key ∧ s.store.segmentOf? key = none

/-- Whether a command is to remove a segment: by a source on it that is destroyed, or that
is released and destroys on release, or below all sources. -/
def Unlinks (s : Session) (command : Command) (g : SegmentId) : Prop :=
  match command with
  | .use name (.segment .destroy) =>
      ∃ r, s.handles.find? name = some (.region r) ∧ r.isView = false ∧ s.store.LiesOver r g
  | .use name (.region .release) =>
      ∃ r, s.handles.find? name = some (.region r) ∧ r.isView = false ∧ s.store.Removes r.root g
  | .ask (.removeSegment name) => s.store.segmentOf? (s.key name).1 = some g
  | _ => False

/-- Whether a command removes a segment, or lets go of the last handle on a source that
destroys it on release. -/
def FreesKey (s : Session) (command : Command) (g : SegmentId) : Prop :=
  s.Unlinks command g ∨ (s.perform command).2.Abandons g

private theorem make_renames {gone : SegmentId → Prop} (name : String) (what : Making) :
    Renames gone (s.Creates (.make name what)) s.store (s.make name what).2.store := by
  cases looks : what.looking? with
  | none => exact (make_admits Ends.admits looks name s).renames
  | some l =>
      rw [make_looks looks, bindSegment_store]
      cases placed : (s.placeKey l.place).1 with
      | error cause => exact (Ends.refl _).renames
      | ok key =>
          exact Looking.attach_renames fun free want =>
            ⟨name, what, l, rfl, looks, placed, want, free⟩

private theorem release_renames {created : SegmentKey → Prop} {r : Region}
    (mapped : s.store.Mapped) (found : s.handles.find? name = some (.region r)) :
    Renames (s.Unlinks (.use name (.region .release))) created s.store
      (s.use name (.region .release)).2.store := by
  simp only [use, found, RegionUse.run, Operation.settle_snd, Region.release]
  cases view : r.isView with
  | true => exact (Ends.refl _).renames
  | false =>
      simp only [Bool.false_eq_true, if_false]
      obtain ⟨ends, -⟩ := Store.releaseRoot_later mapped r.root
      exact (ends.mono fun g removes => ⟨r, found, view, removes⟩).renames

private theorem segmentUse_renames {created : SegmentKey → Prop} {r : Region} {a : Attachment}
    {how : SegmentUse} (orderly : (Command.use name (.segment how)).Orderly)
    (found : s.handles.find? name = some (.region r)) (attached : r.attachment? s.store = some a)
    (other? : String → Option Attachment) :
    Renames (s.Unlinks (.use name (.segment how))) created s.store
      (how.run r a other? s.store).2 := by
  cases how with
  | detach =>
      rw [SegmentUse.run, Operation.settle_snd]
      have worked (a : Attachment) : Attachment.Worked False (s.store, a) _ :=
        Attachment.detach_worked s.store a
      have ends := Store.onAttachment_later (fun _ => Attachment.detach_steps) worked r.root
      exact (ends.mono fun _ there => there.1.elim).renames
  | destroy =>
      rw [SegmentUse.run, Operation.settle_snd]
      have ends := Store.onAttachment_later (fun _ => Attachment.destroy_steps)
        (fun a => Attachment.destroy_worked s.store a) r.root
      refine (ends.mono ?_).renames
      rintro g ⟨-, root, b, source, lies⟩
      obtain ⟨there, -⟩ := Store.source?_eq_some_iff.mp source
      obtain ⟨proper, -⟩ := (Region.attachment?_eq_some_iff there).mp attached
      exact ⟨r, found, proper, root, b, source, lies⟩
  | unmap => exact orderly.elim
  | same name =>
      simp only [SegmentUse.run]
      split <;> exact (Ends.refl _).renames

private theorem use_renames {created : SegmentKey → Prop} {how : Use} (mapped : s.store.Mapped)
    (orderly : (Command.use name how).Orderly) :
    Renames (s.Unlinks (.use name how)) created s.store (s.use name how).2.store := by
  -- Only a release and what is done to an attachment can end anything.
  rcases Classical.em how.Ends with ends | spares
  · have used := s.use_used name how
    generalize same : s.use name how = result at used ⊢
    cases used with
    | unfit => exact (Ends.refl _).renames
    | region how found =>
        cases how with
        | release =>
            rw [← same]
            exact release_renames mapped found
        | _ => exact ends.elim
    | segment how found attached => exact segmentUse_renames orderly found attached _
    | _ => exact ends.elim
  · exact (Ends.of_resembles (use_resembles spares)).renames

private theorem ask_renames {created : SegmentKey → Prop} (query : Query) :
    Renames (s.Unlinks (.ask query)) created s.store (s.ask query).2.store := by
  rw [ask_store]
  cases query with
  | removeSegment name =>
      simp only
      obtain ⟨e, fails⟩ | ⟨g, names, removes⟩ := removeSegment_cases (s.key name).1 s.store
      · unfold Operation.after
        rw [fails]
        exact (Ends.refl _).renames
      · obtain ⟨unnames, -⟩ := s.store.removeSegment_unnames g
        have ends := Ends.of_unnames unnames (s.store.removeSegment_roots g)
        unfold Operation.after at ends ⊢
        rw [removes]
        exact (ends.mono fun _ same => (show _ = some _ from same ▸ names)).renames
  | _ => exact (Ends.refl _).renames

/-- Commands take keys only of what they are to remove, and give them only to what they
are to make. -/
theorem perform_renames (mapped : s.store.Mapped) (orderly : command.Orderly) :
    Renames (s.Unlinks command) (s.Creates command) s.store (s.perform command).2.store := by
  cases command with
  | make name what => exact make_renames name what
  | derive source name how =>
      rw [show (s.perform (.derive source name how)).2.store = s.store from
        s.derive_store source name how]
      exact (Ends.refl _).renames
  | use target how => exact use_renames mapped orderly
  | copy source target => exact (Ends.of_resembles (copy_resembles source target)).renames
  | ask query => exact ask_renames query
  | unusable target kind => exact (Ends.refl _).renames

end Session

end BoundedMemory
