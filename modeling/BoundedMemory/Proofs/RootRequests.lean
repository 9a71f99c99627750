import BoundedMemory.Proofs.RootEffects

/-!
What becomes of roots in the course of a run. A root is released by the first release
through a handle on it, or else when it is let go of, and nothing else releases it. The
segment behind a root is attached until the root is released or let go of, unless it is
detached or destroyed before.
-/

namespace BoundedMemory

/-- Whether a root was released, by hand or with its last handle. -/
def Root.released (root : Root) : Bool :=
  match root.backing with
  | .array valid | .heap valid | .buffer _ valid => !valid
  | .segment a => a.released

/-- What a release makes of what stands behind a root. -/
inductive Backing.Released : Backing → Backing → Prop where
  | array {valid : Bool} : Released (.array valid) (.array false)
  | heap {valid : Bool} : Released (.heap valid) (.heap false)
  | buffer {id : BufferId} {valid : Bool} : Released (.buffer id valid) (.buffer id false)
  | segment {a : Attachment} {removed : Bool}
      (only : removed = true → a.removed = true ∨ a.destroyOnRelease = true) :
      Released (.segment a) (.segment { a with attached := false, removed, released := true })

namespace Root

variable {released parted destroyed : Prop} {root : Root} {backing : Backing} {a : Attachment}

/-- How a root stands by what was asked for through handles on it: that it be released, that
it be parted from what it stands on, that its segment be destroyed. -/
structure AsRequested (released parted destroyed : Prop) (root : Root) : Prop where
  parts : released → parted
  released_iff : root.released = true ↔ released ∨ root.held = false
  attached_iff {a : Attachment} : root.backing = .segment a →
    (a.attached = false ↔ parted ∨ root.held = false)
  removed {a : Attachment} : root.backing = .segment a → a.removed = true →
    destroyed ∨ a.destroyOnRelease = true ∧ a.released = true

theorem Fresh.asRequested (fresh : root.Fresh) (unparted : ¬ parted) (unreleased : ¬ released) :
    root.AsRequested released parted destroyed where
  parts asked := absurd asked unreleased
  released_iff := by
    have valid := fresh.valid
    simp only [fresh.held, unreleased, Bool.true_eq_false, or_self, iff_false, Root.released]
    unfold Root.isValid at valid
    cases behind : root.backing with
    | segment a => simp [(fresh.unreleased behind).1]
    | _ =>
        rw [behind] at valid
        simpa using valid
  attached_iff behind := by
    have valid := fresh.valid
    simp only [Root.isValid, behind] at valid
    simp [fresh.held, unparted, valid]
  removed behind removed := by
    rw [(fresh.unreleased behind).2] at removed
    cases removed

namespace AsRequested

theorem congr {released' parted' destroyed' : Prop}
    (stands : root.AsRequested released parted destroyed)
    (same : released' ↔ released) (same' : parted' ↔ parted) (same'' : destroyed' ↔ destroyed) :
    root.AsRequested released' parted' destroyed' := by
  rwa [propext same, propext same', propext same'']

/-- Once it was released, a segment is no longer attached. -/
theorem detached (stands : root.AsRequested released parted destroyed)
    (behind : root.backing = .segment a) (ended : a.released = true) : a.attached = false := by
  have known : root.released = true := by simpa only [Root.released, behind] using ended
  exact (stands.attached_iff behind).mpr ((stands.released_iff.mp known).imp_left stands.parts)

private theorem removed_of_released (stands : root.AsRequested released parted destroyed)
    (release : root.backing.Released backing) (behind : backing = .segment a)
    (removed : a.removed = true) : destroyed ∨ a.destroyOnRelease = true ∧ a.released = true := by
  generalize before : root.backing = old at release
  cases release with
  | segment only =>
      cases behind
      rcases only removed with already | destroys
      · exact (stands.removed before already).imp_right fun due => ⟨due.1, rfl⟩
      · exact .inr ⟨destroys, rfl⟩
  | _ => cases behind

private theorem released_of_released (release : root.backing.Released backing) (held : Bool) :
    ({ root with backing, held } : Root).released = true ∧
      ∀ a, backing = .segment a → a.attached = false := by
  generalize root.backing = old at release
  cases release <;> exact ⟨rfl, fun _ behind => by cases behind <;> rfl⟩

theorem release (stands : root.AsRequested released parted destroyed)
    (release : root.backing.Released backing) :
    ({ root with backing } : Root).AsRequested True True destroyed where
  parts := id
  released_iff := by simpa using (released_of_released release root.held).1
  attached_iff behind := by simpa using (released_of_released release root.held).2 _ behind
  removed behind removed := stands.removed_of_released release behind removed

theorem letGo (stands : root.AsRequested released parted destroyed)
    (release : root.backing.Released backing) :
    ({ root with backing, held := false } : Root).AsRequested released parted destroyed where
  parts := stands.parts
  released_iff := by simpa using (released_of_released release false).1
  attached_iff behind := by simpa using (released_of_released release false).2 _ behind
  removed behind removed := stands.removed_of_released release behind removed

/-- An attachment that is detached is not released by that, nor is its segment removed. -/
theorem detach (stands : root.AsRequested released parted destroyed)
    (behind : root.backing = .segment a) :
    ({ root with backing := .segment { a with attached := false } } : Root).AsRequested
      released True
      destroyed where
  parts _ := trivial
  released_iff := by simpa only [Root.released, behind] using stands.released_iff
  attached_iff same := by cases same; simp
  removed same removed := by
    cases same
    have due := stands.removed behind
    exact due removed

theorem destroy (stands : root.AsRequested released parted destroyed)
    (behind : root.backing = .segment a)
    (removed : Bool) :
    ({ root with backing := .segment { a with attached := false, removed } } : Root).AsRequested
      released
      True True where
  parts _ := trivial
  released_iff := by simpa only [Root.released, behind] using stands.released_iff
  attached_iff same := by cases same; simp
  removed _ _ := .inl trivial

end AsRequested

end Root

namespace Store

variable {s s' : Store} {released parted destroyed : RootId → Prop} {id : RootId} {root : Root}
  {a : Attachment}

/-- A release changes what stands behind its root, and nothing else of any. -/
theorem releaseRoot_released (mapped : s.Mapped) (found : s.roots[id]? = some root)
    (detached : ∀ a, root.backing = .segment a → a.released = true → a.attached = false) :
    ∃ backing, root.backing.Released backing ∧
      (Operation.after (releaseRoot id) s).roots = (s.setBacking id backing).roots := by
  unfold Operation.after
  rw [releaseRoot_run, found]
  simp only
  cases behind : root.backing with
  | array valid => exact ⟨_, .array, rfl⟩
  | heap valid =>
      refine ⟨_, .heap, ?_⟩
      cases valid with
      | true => rfl
      | false =>
          have still := setBacking_same found
          rw [behind] at still
          simp only [Bool.false_eq_true, if_false, still]
  | buffer buffer valid => exact ⟨_, .buffer, rfl⟩
  | segment a =>
      have due : a.attached = false ∨ a.released = false ∧ s.Detachable a := by
        by_cases ended : a.released = true
        · exact .inl (detached a behind ended)
        · exact .inr ⟨by simpa using ended,
            mapped.detachable (source?_eq_some_iff.mpr ⟨found, behind⟩)⟩
      obtain ⟨t, removed, run, roots, only⟩ := release_ends due
      refine ⟨_, .segment only, ?_⟩
      simp only [run, setBacking, roots]

/-- A root that is let go of is released as well. -/
theorem dropRoot_released (mapped : s.Mapped) (found : s.roots[id]? = some root)
    (held : root.held = true)
    (detached : ∀ a, root.backing = .segment a → a.released = true → a.attached = false) :
    ∃ backing, root.backing.Released backing ∧
      (Operation.after (dropRoot id) s).roots =
        s.roots.modify id fun root => { root with backing, held := false } := by
  obtain ⟨backing, release, roots⟩ := releaseRoot_released mapped found detached
  refine ⟨backing, release, ?_⟩
  obtain ⟨unheld, -⟩ | ⟨root', _, found', -, rfl, dropped⟩ := s.dropRoot_cases id
  · rw [found, Option.any_some, held] at unheld
    cases unheld
  · have gone : (Operation.after (releaseRoot id) s).roots.modify id
        (fun r => { r with held := false }) =
          s.roots.modify id fun root => { root with backing, held := false } := by
      rw [roots, setBacking, List.modify_modify_eq]
      rfl
    rw [dropped]
    cases root'.backing <;> exact gone

theorem onAttachment_roots {action : Action (Store × Attachment) Unit} {t : Store} {b : Attachment}
    (found : s.roots[id]? = some root) (behind : root.backing = .segment a)
    (run : Operation.after action (s, a) = (t, b)) (roots : t.roots = s.roots) :
    (Operation.after (onAttachment id action) s).roots = (s.setBacking id (.segment b)).roots := by
  obtain ⟨backing, block, base, length, held⟩ := root
  cases behind
  unfold Operation.after onAttachment at *
  simp only [found]
  cases acted : action (s, a) with
  | ok _ after =>
      simp only [acted] at run
      simp only [run, setBacking, roots]
  | error e after =>
      simp only [acted] at run
      simp only [run, setBacking, roots]

/-- All roots stand as what was asked for through handles on them has it. -/
structure AsRequested (released parted destroyed : RootId → Prop) (s : Store) : Prop where
  there {id : RootId} {root : Root} : s.roots[id]? = some root →
    root.AsRequested (released id) (parted id) (destroyed id)
  absent {id : RootId} : s.roots[id]? = none → ¬ released id ∧ ¬ parted id

namespace AsRequested

theorem of_roots (requested : s.AsRequested released parted destroyed) (same : s'.roots = s.roots) :
    s'.AsRequested released parted destroyed where
  there found := requested.there (same ▸ found)
  absent missing := requested.absent (same ▸ missing)

theorem congr {released' parted' destroyed' : RootId → Prop}
    (requested : s.AsRequested released parted destroyed)
    (same : ∀ id, (released' id ↔ released id) ∧ (parted' id ↔ parted id) ∧
      (destroyed' id ↔ destroyed id)) : s.AsRequested released' parted' destroyed' where
  there {id _} found :=
    (requested.there found).congr (same id).1 (same id).2.1 (same id).2.2
  absent {id} missing :=
    (requested.absent missing).imp (mt (same id).1.mp) (mt (same id).2.1.mp)

theorem adds (requested : s.AsRequested released parted destroyed) (adds : s.Adds s') :
    s'.AsRequested released parted destroyed where
  there found := by
    obtain before | ⟨missing, fresh⟩ := adds.old_or_fresh found
    · exact requested.there before
    · obtain ⟨unreleased, unparted⟩ := requested.absent missing
      exact fresh.asRequested unparted unreleased
  absent missing := requested.absent (adds.absent missing)

/-- Something was asked of one root, and nothing of any other. -/
theorem modify {released' parted' destroyed' : RootId → Prop} {f : Root → Root}
    (requested : s.AsRequested released parted destroyed) (found : s.roots[id]? = some root)
    (roots : s'.roots = s.roots.modify id f)
    (stands : (f root).AsRequested (released' id) (parted' id) (destroyed' id))
    (others : ∀ other, other ≠ id → (released' other ↔ released other) ∧
      (parted' other ↔ parted other) ∧ (destroyed' other ↔ destroyed other)) :
    s'.AsRequested released' parted' destroyed' where
  there {other root'} found' := by
    rw [roots, List.getElem?_modify] at found'
    by_cases here : id = other
    · subst here
      simp only [found, if_true, Option.map_eq_map, Option.map_some, Option.some.injEq] at found'
      exact found' ▸ stands
    · simp only [here, if_false, Option.map_eq_map, Option.map_id_fun', id_eq] at found'
      obtain ⟨same, same', same''⟩ := others other (Ne.symm here)
      exact (requested.there found').congr same same' same''
  absent {other} missing := by
    rw [roots, List.getElem?_modify, Option.map_eq_map, Option.map_eq_none_iff] at missing
    have unlike : other ≠ id := by
      rintro rfl
      rw [found] at missing
      cases missing
    obtain ⟨same, same', -⟩ := others other unlike
    exact ⟨fun asked => (requested.absent missing).1 (same.mp asked),
      fun asked => (requested.absent missing).2 (same'.mp asked)⟩

end AsRequested

end Store

namespace Session

variable {s : Session} {released parted destroyed : RootId → Prop} {command : Command}
  {id : RootId}

theorem Parts.root (ready : s.Ready) (parts : s.Parts id command) :
    ∃ root, s.store.roots[id]? = some root := by
  obtain ⟨name, _, r, -, -, found, rfl⟩ := parts.use
  obtain ⟨root, there, -⟩ := ready.inBounds found
  exact ⟨root, there⟩

/-- A root stands by what was asked of it before, and by what the command asks. -/
theorem perform_asRequested (ready : s.Ready) (orderly : command.Orderly)
    (requested : s.store.AsRequested released parted destroyed) :
    (s.perform command).2.store.AsRequested (fun id => released id ∨ s.Releases id command)
      (fun id => parted id ∨ s.Parts id command)
      (fun id => destroyed id ∨ s.Works .destroy id command) := by
  have spared {other : RootId} (unasked : ¬ s.Parts other command) :
      (released other ∨ s.Releases other command ↔ released other) ∧
        (parted other ∨ s.Parts other command ↔ parted other) ∧
          (destroyed other ∨ s.Works .destroy other command ↔ destroyed other) :=
    ⟨or_iff_left fun asked => unasked (.inl asked), or_iff_left unasked,
      or_iff_left fun asked => unasked (.inr (.inr asked))⟩
  have others {id : RootId} (parts : s.Parts id command) (other : RootId) (unlike : other ≠ id) :=
    spared fun asked : s.Parts other command => unlike (parts.unique asked)
  cases s.perform_rootEffect orderly with
  | spares unasked adds => exact (requested.adds adds).congr fun id => spared (unasked id)
  | @releases id releases store =>
      have parts : s.Parts id command := .inl releases
      obtain ⟨root, found⟩ := parts.root ready
      have stands := requested.there found
      obtain ⟨backing, release, roots⟩ := Store.releaseRoot_released ready.sound.mapped found
        fun a behind => stands.detached behind
      rw [store]
      refine requested.modify found roots ((stands.release release).congr ?_ ?_ ?_) (others parts)
      · exact iff_true_intro (.inr releases)
      · exact iff_true_intro (.inr parts)
      · obtain ⟨_, _, rfl, -⟩ := releases
        exact or_iff_left fun ⟨_, _, _, is, _⟩ => by cases is
  | @detaches id detaches store =>
      have parts : s.Parts id command := .inr (.inl detaches)
      obtain ⟨root, found⟩ := parts.root ready
      obtain ⟨_, r, a, rfl, -, attached, rfl⟩ := detaches
      obtain ⟨-, behind⟩ := (Region.attachment?_eq_some_iff found).mp attached
      obtain ⟨t, run, kept⟩ := Store.detach_ends
        (ready.sound.mapped.detachable (Store.source?_eq_some_iff.mpr ⟨found, behind⟩))
      rw [store]
      refine requested.modify found (Store.onAttachment_roots found behind ?_ kept)
        (((requested.there found).detach behind).congr ?_ ?_ ?_) (others parts)
      · unfold Operation.after
        rw [run]
      · exact or_iff_left fun ⟨_, _, is, _⟩ => by cases is
      · exact iff_true_intro (.inr parts)
      · exact or_iff_left fun ⟨_, _, _, is, _⟩ => by cases is
  | @destroys id destroys store =>
      have parts : s.Parts id command := .inr (.inr destroys)
      obtain ⟨root, found⟩ := parts.root ready
      have asked := destroys
      obtain ⟨_, r, a, rfl, -, attached, rfl⟩ := destroys
      obtain ⟨-, behind⟩ := (Region.attachment?_eq_some_iff found).mp attached
      obtain ⟨t, removed, run, kept⟩ := Store.destroy_ends
        (ready.sound.mapped.detachable (Store.source?_eq_some_iff.mpr ⟨found, behind⟩))
      rw [store]
      refine requested.modify found (Store.onAttachment_roots found behind ?_ kept)
        (((requested.there found).destroy behind removed).congr ?_ ?_ ?_) (others parts)
      · unfold Operation.after
        rcases run with run | ⟨cause, run⟩ <;> rw [run]
      · exact or_iff_left fun ⟨_, _, is, _⟩ => by cases is
      · exact iff_true_intro (.inr parts)
      · exact iff_true_intro (.inr asked)

private theorem sweepRoot_asRequested (mapped : s.store.Mapped)
    (requested : s.store.AsRequested released parted destroyed) (id : RootId) :
    (s.sweepRoot id).store.AsRequested released parted destroyed := by
  unfold sweepRoot
  split
  · exact requested
  · rw [Operation.settle_snd]
    obtain ⟨-, same⟩ | ⟨root, -, found, held, -⟩ := s.store.dropRoot_cases id
    · rwa [same]
    · have stands := requested.there found
      obtain ⟨backing, release, roots⟩ := Store.dropRoot_released mapped found held
        fun a behind => stands.detached behind
      exact requested.modify found roots (stands.letGo release) fun _ _ => ⟨.rfl, .rfl, .rfl⟩

/-- What a sweep lets go of is released by that. -/
theorem sweep_asRequested (mapped : s.store.Mapped)
    (requested : s.store.AsRequested released parted destroyed) :
    s.sweep.store.AsRequested released parted destroyed := by
  have swept : s.sweep.store.Mapped ∧ s.sweep.store.AsRequested released parted destroyed :=
    s.sweep_induct
      (motive := fun t => t.store.Mapped ∧ t.store.AsRequested released parted destroyed)
      ⟨mapped, requested⟩
      (fun t id h => ⟨(t.sweepRoot_changes id).mapped h.1, sweepRoot_asRequested h.1 h.2 id⟩)
      (fun t id h => ⟨(t.sweepBuffer_changes id).mapped h.1, h.2.of_roots (t.sweepBuffer_roots id)⟩)
  exact swept.2

theorem step_asRequested (ready : s.Ready) (orderly : command.Orderly)
    (requested : s.store.AsRequested released parted destroyed) :
    (s.step command).2.store.AsRequested (fun id => released id ∨ s.Releases id command)
      (fun id => parted id ∨ s.Parts id command)
      (fun id => destroyed id ∨ s.Works .destroy id command) :=
  sweep_asRequested (ready.performed orderly).sound.mapped
    (s.perform_asRequested ready orderly requested)

/-- Something that is so at some command of a run, in the session that the command finds. -/
def Sometime (P : Session → Command → Prop) : List Command → Session → Prop
  | [], _ => False
  | command :: rest, s => P s command ∨ Sometime P rest (s.step command).2

/-- After a run, a root stands by what was asked of it before and in the course of the run. -/
theorem run_asRequested {commands : List Command} (ready : s.Ready)
    (orderly : ∀ command ∈ commands, command.Orderly)
    (requested : s.store.AsRequested released parted destroyed) :
    (Session.run commands s).2.store.AsRequested
      (fun id => released id ∨ Sometime (fun s => s.Releases id) commands s)
      (fun id => parted id ∨ Sometime (fun s => s.Parts id) commands s)
      (fun id => destroyed id ∨ Sometime (fun s => s.Works .destroy id) commands s) := by
  induction commands generalizing s released parted destroyed with
  | nil => exact requested.congr fun id => by simp only [Sometime, or_false, and_self]
  | cons command rest ih =>
      have first : command.Orderly := orderly command List.mem_cons_self
      have later := ih (ready.step first)
        (fun other member => orderly other (List.mem_cons_of_mem command member))
        (s.step_asRequested ready first requested)
      exact later.congr fun id => by simp only [Sometime, or_assoc, and_self]

end Session

end BoundedMemory
