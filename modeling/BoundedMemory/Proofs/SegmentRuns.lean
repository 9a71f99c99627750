import BoundedMemory.Proofs.SegmentEffects

/-!
Keys of segments in runs. A key names a segment for as long as nothing removes the segment,
whatever else is done; once something removed it, the segment has no key for good, and the
key names nothing until a segment is made under it.
-/

namespace BoundedMemory

namespace Store

variable {s : Store}

/-- Destroying an attachment of a root leaves the segment without a key. -/
private theorem destroy_nameless {id : RootId} {root : Root} {a : Attachment} (mapped : s.Mapped)
    (source : s.source? id = some (root, a)) : a.removed = true ∨
      (Operation.after (onAttachment id (Attachment.destroy segmentCalls)) s).keyOf? a.segment =
        none := by
  obtain ⟨there, behind⟩ := source?_eq_some_iff.mp source
  obtain removed | nameless := Attachment.destroy_removes (mapped.detachable source)
  · exact .inl removed
  · right
    obtain ⟨backing, block, base, length, held⟩ := root
    cases behind
    unfold Operation.after onAttachment at *
    rw [there]
    simp only
    rcases run : Attachment.destroy segmentCalls (s, a) with ⟨answer, t, b⟩ | ⟨e, t, b⟩
    · simp only [run] at nameless
      exact nameless
    · simp only [run] at nameless
      exact nameless

end Store

namespace Session

open Store (Ends Renames)

variable {s : Session} {name : String} {what : Making} {l : Looking} {key : SegmentKey}
  {g : SegmentId} {command : Command} {commands : List Command}

/-- A session in which memory, handles and the keys of segments are in order. -/
structure Tracked (s : Session) : Prop where
  ready : s.Ready
  keyed : s.store.Keyed

theorem Tracked.empty (machine : Machine) (files : FileTree) :
    (Session.initial machine files).Tracked where
  ready := .empty machine files
  keyed := .empty

theorem Tracked.performed (tracked : s.Tracked) (orderly : command.Orderly) :
    (s.perform command).2.Tracked where
  ready := tracked.ready.performed orderly
  keyed := (perform_renames tracked.ready.sound.mapped orderly).keyed tracked.keyed

theorem Tracked.swept (tracked : s.Tracked) : s.sweep.Tracked where
  ready := tracked.ready.swept
  keyed := (s.sweep_ends tracked.ready.sound.mapped).keyed tracked.keyed

theorem Tracked.step (tracked : s.Tracked) (orderly : command.Orderly) :
    (s.step command).2.Tracked :=
  (tracked.performed orderly).swept

theorem Tracked.run (tracked : s.Tracked) (orderly : ∀ command ∈ commands, command.Orderly) :
    (Session.run commands s).2.Tracked := by
  induction commands generalizing s with
  | nil => exact tracked
  | cons command rest ih =>
      exact ih (tracked.step (orderly command List.mem_cons_self)) fun other member =>
        orderly other (List.mem_cons_of_mem command member)

section Losing

private theorem destroy_unlinks (tracked : s.Tracked)
    (unlinks : s.Unlinks (.use name (.segment .destroy)) g) :
    (s.perform (.use name (.segment .destroy))).2.store.keyOf? g = none := by
  have mapped := tracked.ready.sound.mapped
  have orderly : (Command.use name (.segment .destroy)).Orderly := trivial
  have renames := perform_renames mapped orderly
  obtain ⟨r, found, proper, root, a, source, rfl⟩ := unlinks
  obtain removed | nameless := Store.destroy_nameless mapped source
  -- What this source removed before was nameless already, and gets no key.
  · exact renames.nameless (tracked.keyed.there source) (tracked.keyed.due source (.inl removed))
  · obtain ⟨there, behind⟩ := Store.source?_eq_some_iff.mp source
    have attached := (Region.attachment?_eq_some_iff there).mpr ⟨proper, behind⟩
    simp only [perform, use, found, attached, SegmentUse.run, Operation.settle_snd]
    exact nameless

private theorem release_unlinks (tracked : s.Tracked)
    (unlinks : s.Unlinks (.use name (.region .release)) g) :
    (s.perform (.use name (.region .release))).2.store.keyOf? g = none := by
  obtain ⟨r, found, proper, root, a, source, rfl, destroys⟩ := unlinks
  obtain ⟨ends, released⟩ := Store.releaseRoot_later tracked.ready.sound.mapped r.root
  obtain ⟨⟨root', a'⟩, source', later⟩ := ends.after source
  have keyed := ends.keyed tracked.keyed
  have nameless := keyed.due source'
    (.inr ⟨released root' a' source', later.destroyOnRelease.trans destroys⟩)
  rw [show a'.segment = a.segment from later.segment] at nameless
  simp only [perform, use, found, RegionUse.run, Operation.settle_snd, Region.release, proper,
    Bool.false_eq_true, if_false]
  exact nameless

private theorem removeSegment_unlinks (unlinks : s.Unlinks (.ask (.removeSegment name)) g) :
    (s.perform (.ask (.removeSegment name))).2.store.keyOf? g = none := by
  have removes :
      Session.removeSegment (s.key name).1 s.store = Store.removeSegment g s.store := by
    unfold Session.removeSegment
    rw [Operation.bind_run, Store.findSegment_plain unlinks]
  simp only [perform, ask_store]
  have nameless := (s.store.removeSegment_unnames g).2
  unfold Operation.after at nameless ⊢
  rwa [removes]

/-- What is removed, by whatever command, has no key after it. -/
private theorem perform_nameless (tracked : s.Tracked) (unlinks : s.Unlinks command g) :
    (s.perform command).2.store.keyOf? g = none := by
  have removal := unlinks
  unfold Unlinks at removal
  split at removal
  · exact destroy_unlinks tracked unlinks
  · exact release_unlinks tracked unlinks
  · exact removeSegment_unlinks unlinks
  · exact removal.elim

/-- Nor has what goes with the last handle on a source that destroys it. -/
private theorem sweep_nameless (tracked : s.Tracked) (abandons : s.Abandons g) :
    s.sweep.store.keyOf? g = none := by
  obtain ⟨id, held, unreached, root, a, source, rfl, destroys⟩ := abandons
  have ends := s.sweep_ends tracked.ready.sound.mapped
  obtain ⟨⟨root', a'⟩, source', later⟩ := ends.after source
  have keyed := ends.keyed tracked.keyed
  have dropped : root'.held = false := by
    have swept := s.rootHeld_sweep id
    have there := (Store.source?_eq_some_iff.mp source').1
    rw [unreached, Bool.and_false, Store.rootHeld, there] at swept
    exact swept
  have nameless := keyed.due source'
    (.inr ⟨keyed.dropped source' dropped, later.destroyOnRelease.trans destroys⟩)
  rwa [show a'.segment = a.segment from later.segment] at nameless

/-- A removal, whatever it is of, leaves the segment without a key. -/
theorem Tracked.nameless (tracked : s.Tracked) (orderly : command.Orderly)
    (frees : s.FreesKey command g) : (s.step command).2.store.keyOf? g = none := by
  have performed := tracked.performed orderly
  rcases frees with unlinks | abandons
  · have ends := (s.perform command).2.sweep_ends performed.ready.sound.mapped
    exact ends.unnames.nameless (perform_nameless tracked unlinks)
  · exact sweep_nameless performed abandons

end Losing

section Runs

theorem Tracked.step_renames (tracked : s.Tracked) (orderly : command.Orderly) :
    Renames (s.FreesKey command) (s.Creates command) s.store (s.step command).2.store := by
  have performed := perform_renames tracked.ready.sound.mapped orderly
  have swept := (s.perform command).2.sweep_ends (tracked.performed orderly).ready.sound.mapped
  exact (performed.mono (fun _ => .inl) fun _ created => created).trans
    (swept.mono fun _ => .inr).renames

/-- Something that is so at every command of a run, in the session that the command finds. -/
def Throughout (P : Session → Command → Prop) : List Command → Session → Prop
  | [], _ => True
  | command :: rest, s => P s command ∧ Throughout P rest (s.step command).2

variable {gone : SegmentId → Prop} {created : SegmentKey → Prop}

theorem Tracked.run_renames (tracked : s.Tracked) (orderly : ∀ command ∈ commands, command.Orderly)
    (within : Throughout (fun s command => (∀ g, s.FreesKey command g → gone g) ∧
      ∀ key, s.Creates command key → created key) commands s) :
    Renames gone created s.store (Session.run commands s).2.store := by
  induction commands generalizing s with
  | nil => exact (Ends.refl _).renames
  | cons command rest ih =>
      obtain ⟨⟨frees, creates⟩, later⟩ := within
      have first := orderly command List.mem_cons_self
      have rest := ih (tracked.step first)
        (fun other member => orderly other (List.mem_cons_of_mem command member)) later
      exact ((tracked.step_renames first).mono frees creates).trans rest

theorem Throughout.of_all {P : Session → Command → Prop} (all : ∀ s command, P s command) :
    Throughout P commands s := by
  induction commands generalizing s with
  | nil => trivial
  | cons command rest ih => exact ⟨all s command, ih⟩

theorem Throughout.mono {P Q : Session → Command → Prop} (within : Throughout P commands s)
    (weaker : ∀ s command, P s command → Q s command) : Throughout Q commands s := by
  induction commands generalizing s with
  | nil => trivial
  | cons command rest ih => exact ⟨weaker s command within.1, ih within.2⟩

/-- A segment that nothing removes keeps its key. -/
theorem Tracked.named_run (tracked : s.Tracked) (orderly : ∀ command ∈ commands, command.Orderly)
    (spared : Throughout (fun s command => ¬ s.FreesKey command g) commands s)
    (named : s.store.keyOf? g = some key) :
    (Session.run commands s).2.store.keyOf? g = some key := by
  have renames : Renames (· ≠ g) (fun _ => True) s.store _ := tracked.run_renames orderly
    (spared.mono fun _ _ spared => ⟨fun _ frees same => spared (same ▸ frees), fun _ _ => trivial⟩)
  exact renames.kept (fun other => other rfl) named

/-- A key that names nothing names nothing until a segment is made under it. -/
theorem Tracked.unnamed_run (tracked : s.Tracked) (orderly : ∀ command ∈ commands, command.Orderly)
    (uncreated : Throughout (fun s command => ¬ s.Creates command key) commands s)
    (other : key ≠ .anonymous) (free : s.store.segmentOf? key = none) :
    (Session.run commands s).2.store.segmentOf? key = none := by
  have renames : Renames (fun _ => True) (· ≠ key) s.store _ := tracked.run_renames orderly
    (uncreated.mono fun _ _ uncreated =>
      ⟨fun _ _ => trivial, fun _ creates same => uncreated (same ▸ creates)⟩)
  rw [Store.segmentOf?_eq_none_iff other] at free ⊢
  intro g named
  rcases renames.named named with before | ⟨-, created⟩
  · exact free g before
  · exact created rfl

/-- Once something removed a segment, its key names nothing. -/
theorem Tracked.freed (tracked : s.Tracked) (orderly : command.Orderly)
    (names : s.store.segmentOf? key = some g) (frees : s.FreesKey command g) :
    (s.step command).2.store.segmentOf? key = none := by
  obtain ⟨other, named⟩ := Store.keyOf?_of_segmentOf? names
  have nameless := tracked.nameless orderly frees
  rw [Store.segmentOf?_eq_none_iff other]
  intro g' named'
  -- Whatever has the key now had it before, or was made where the key named nothing.
  rcases (tracked.step_renames orderly).named named' with before | ⟨-, -, -, -, -, -, -, -, free⟩
  · rw [tracked.keyed.distinct other before named, nameless] at named'
    cases named'
  · rw [names] at free
    cases free

end Runs

end Session

end BoundedMemory
