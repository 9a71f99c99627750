import BoundedMemory.Proofs.AttachmentCalls
import BoundedMemory.Proofs.Changes.Running
import BoundedMemory.Proofs.Mappings
import BoundedMemory.Proofs.SegmentKeys

/-!
Roots over segments. While nobody takes a segment away from below its root, a segment
lacks its key once a root over it was destroyed, or was released and destroys on release;
and roots over segments that are let go of have been released. Ending a root takes the
key of no other segment.
-/

namespace BoundedMemory

namespace Store

/-- The root, if it is over a segment, and what it is attached by. -/
def source? (s : Store) (id : RootId) : Option (Root × Attachment) :=
  (s.roots[id]?).bind fun root =>
    match root.backing with
    | .segment a => some (root, a)
    | _ => none

variable {s s' s'' t : Store} {gone gone' : SegmentId → Prop} {id other : RootId} {root : Root}
  {a b : Attachment}

theorem source?_eq_some_iff :
    s.source? id = some (root, a) ↔ s.roots[id]? = some root ∧ root.backing = .segment a := by
  unfold source?
  rw [Option.bind_eq_some_iff]
  constructor
  · rintro ⟨found, there, source⟩
    split at source
    · rename_i behind
      cases source
      exact ⟨there, behind⟩
    · cases source
  · rintro ⟨there, behind⟩
    exact ⟨root, there, by rw [behind]⟩

theorem source?_of_roots (roots : s'.roots = s.roots) : s'.source? = s.source? := by
  funext id
  unfold source?
  rw [roots]

/-- What may become of a root over a segment, once the segment has no key if `nameless`. -/
structure LaterSource (nameless : SegmentId → Prop) (before after : Root × Attachment) : Prop where
  base : after.1.base = before.1.base
  length : after.1.length = before.1.length
  segment : after.2.segment = before.2.segment
  destroyOnRelease : after.2.destroyOnRelease = before.2.destroyOnRelease
  held : after.1.held = true → before.1.held = true
  dropped : after.1.held = false → before.1.held = false ∨ after.2.released = true
  released : before.2.released = true → after.2.released = true
  due : after.2.Due → before.2.Due ∨ nameless before.2.segment

theorem LaterSource.refl {nameless : SegmentId → Prop} (source : Root × Attachment) :
    LaterSource nameless source source :=
  ⟨rfl, rfl, rfl, rfl, fun held => held, .inl, fun done => done, .inl⟩

theorem LaterSource.trans {nameless nameless' : SegmentId → Prop}
    {before between after : Root × Attachment} (first : LaterSource nameless before between)
    (second : LaterSource nameless' between after) (still : ∀ g, nameless g → nameless' g) :
    LaterSource nameless' before after where
  base := second.base.trans first.base
  length := second.length.trans first.length
  segment := second.segment.trans first.segment
  destroyOnRelease := second.destroyOnRelease.trans first.destroyOnRelease
  held held := first.held (second.held held)
  dropped dropped := by
    rcases second.dropped dropped with dropped | released
    · exact (first.dropped dropped).imp_right second.released
    · exact .inr released
  released released := second.released (first.released released)
  due due := by
    rcases second.due due with due | nameless
    · exact (first.due due).imp_right (still _)
    · exact .inr (first.segment ▸ nameless)

/-- No root over a segment is new, and what ended took keys of no segments but those that
are `gone`. -/
structure Ends (gone : SegmentId → Prop) (s s' : Store) : Prop where
  unnames : Unnames gone s s'
  sources (id : RootId) :
    Option.Rel (LaterSource fun g => s'.keyOf? g = none) (s.source? id) (s'.source? id)

namespace Ends

theorem of_sources (unnames : Unnames gone s s') (same : s'.source? = s.source?) :
    Ends gone s s' where
  unnames := unnames
  sources id := by
    rw [same]
    cases s.source? id with
    | none => exact .none
    | some source => exact .some (.refl source)

theorem of_same (segments : s'.segments = s.segments) (same : s'.source? = s.source?) :
    Ends gone s s' :=
  .of_sources (.of_segments segments) same

theorem of_unnames (unnames : Unnames gone s s') (roots : s'.roots = s.roots) : Ends gone s s' :=
  .of_sources unnames (source?_of_roots roots)

theorem of_roots (segments : s'.segments = s.segments) (roots : s'.roots = s.roots) :
    Ends gone s s' :=
  .of_unnames (.of_segments segments) roots

theorem refl (s : Store) : Ends gone s s := .of_same rfl rfl

/-- A root over a segment and what became of it. -/
theorem after (ends : Ends gone s s') {source : Root × Attachment}
    (found : s.source? id = some source) : ∃ source', s'.source? id = some source' ∧
      LaterSource (fun g => s'.keyOf? g = none) source source' := by
  have later := ends.sources id
  rw [found] at later
  generalize there : s'.source? id = found' at later
  cases later with
  | some later => exact ⟨_, rfl, later⟩

theorem before (ends : Ends gone s s') {source' : Root × Attachment}
    (found : s'.source? id = some source') : ∃ source, s.source? id = some source ∧
      LaterSource (fun g => s'.keyOf? g = none) source source' := by
  have later := ends.sources id
  rw [found] at later
  generalize there : s.source? id = found' at later
  cases later with
  | some later => exact ⟨_, rfl, later⟩

theorem trans (first : Ends gone s s') (second : Ends gone s' s'') : Ends gone s s'' where
  unnames := first.unnames.trans second.unnames
  sources id := by
    have later := first.sources id
    have ages' := second.sources id
    generalize s.source? id = before at later ⊢
    generalize s'.source? id = between at later ages'
    generalize s''.source? id = after at ages' ⊢
    cases later with
    | none =>
        cases ages'
        exact .none
    | some later =>
        cases ages' with
        | some ages' =>
            -- A segment that lacks its key between lacks it to the end.
            exact .some (later.trans ages' fun _ => second.unnames.nameless)

theorem mono (ends : Ends gone s s') (wider : ∀ g, gone g → gone' g) : Ends gone' s s' where
  unnames := ends.unnames.mono wider
  sources := ends.sources

end Ends

/-- One root over a segment is exchanged for another. -/
private theorem source?_modify {f : Root → Root} (found : s.source? id = some (root, a))
    (roots : t.roots = s.roots.modify id f) (behind : (f root).backing = .segment b) :
    t.source? other = if other = id then some (f root, b) else s.source? other := by
  obtain ⟨there, -⟩ := source?_eq_some_iff.mp found
  split
  · rename_i here
    rw [here]
    refine source?_eq_some_iff.mpr ⟨?_, behind⟩
    rw [roots, List.getElem?_modify, there]
    simp
  · rename_i elsewhere
    unfold source?
    rw [roots, List.getElem?_modify]
    simp [Ne.symm elsewhere]

/-- Only one root changes, and it may. -/
private theorem Ends.of_modify {f : Root → Root} (found : s.source? id = some (root, a))
    (roots : t.roots = s.roots.modify id f) (behind : (f root).backing = .segment b)
    (unnames : Unnames gone s t)
    (later : LaterSource (fun g => t.keyOf? g = none) (root, a) (f root, b)) :
    Ends gone s t where
  unnames := unnames
  sources other := by
    rw [source?_modify found roots behind]
    split
    · rename_i here
      rw [here, found]
      exact .some later
    · cases s.source? other with
      | none => exact .none
      | some source => exact .some (.refl source)

/-- Roots over anything else have no part in it. -/
private theorem Ends.of_other {f : Root → Root} (found : s.roots[id]? = some root)
    (loose : ∀ a, root.backing ≠ .segment a) (still : ∀ a, (f root).backing ≠ .segment a)
    (roots : t.roots = s.roots.modify id f) (segments : t.segments = s.segments) :
    Ends gone s t := by
  refine of_same segments (funext fun other => ?_)
  unfold source?
  rw [roots, List.getElem?_modify]
  rcases Decidable.em (id = other) with rfl | elsewhere
  · simp only [found, if_true, Option.map_eq_map, Option.map_some, Option.bind_some]
  · simp [elsewhere]

/-- An attachment that was worked on goes back to its root. -/
private theorem Ends.of_attachment (found : s.source? id = some (root, a))
    (roots : t.roots = s.roots) (unnames : Unnames gone s t) (segment : b.segment = a.segment)
    (destroyOnRelease : b.destroyOnRelease = a.destroyOnRelease)
    (released : a.released = true → b.released = true)
    (due : b.Due → a.Due ∨ t.keyOf? a.segment = none) :
    Ends gone s (t.setBacking id (.segment b)) := by
  have same : Unnames gone t (t.setBacking id (.segment b)) := .of_segments rfl
  refine of_modify found (congrArg (List.modify · id _) roots) rfl (unnames.trans same)
    ⟨rfl, rfl, segment, destroyOnRelease, fun held => held, .inl, released, ?_⟩
  exact fun isDue => (due isDue).imp_right same.nameless

/-- To work on the attachment of a root takes at most the key of its segment away. -/
theorem onAttachment_later {α : Type} {ends : Prop} {action : Action (Store × Attachment) α}
    (steps : ∀ a, Attachment.Steps (s, a) (Operation.after action (s, a)))
    (worked : ∀ a, Attachment.Worked ends (s, a) (Operation.after action (s, a))) (id : RootId) :
    Ends (fun g => ends ∧ ∃ root a, s.source? id = some (root, a) ∧ a.segment = g) s
      (Operation.after (onAttachment id action) s) := by
  unfold Operation.after onAttachment
  cases found : s.roots[id]? with
  | none => exact .refl s
  | some root =>
      obtain ⟨backing, block, base, length, held⟩ := root
      cases backing with
      | segment a =>
          have source := source?_eq_some_iff.mpr ⟨found, rfl⟩
          obtain ⟨roots, -, -⟩ := (steps a).kept
          have worked := worked a
          unfold Operation.after at roots worked
          have ended {t : Store} {b : Attachment} (roots : t.roots = s.roots)
              (worked : Attachment.Worked ends (s, a) (t, b)) :
              Ends (fun g => ends ∧ ∃ root a, s.source? id = some (root, a) ∧ a.segment = g) s
                (t.setBacking id (.segment b)) :=
            .of_attachment source roots
              (worked.unnames.mono fun g here => ⟨here.2, _, _, source, here.1.symm⟩) worked.segment
              worked.destroyOnRelease (fun done => worked.released.trans done) worked.due
          rcases run : action (s, a) with ⟨answer, t, b⟩ | ⟨e, t, b⟩
          · simp only [run] at roots worked ⊢
            exact ended roots worked
          · simp only [run] at roots worked ⊢
            exact ended roots worked
      | _ => exact .refl s

/-- What a root over a segment is attached by can be detached. -/
theorem Mapped.detachable (mapped : s.Mapped) (found : s.source? id = some (root, a)) :
    s.Detachable a := by
  obtain ⟨there, behind⟩ := source?_eq_some_iff.mp found
  cases attached : a.attached with
  | false => exact .inl attached
  | true =>
      have through : s.through? id = some (a.mapping, a.segment) := by
        simp only [through?, there, Option.bind_some, Root.through?, behind, attached, if_true]
      exact .inr ⟨a.segment, mapped.live through⟩

end Store

namespace Attachment

variable {s : Store} {a : Attachment}

/-- A release notes that it was one, and takes the key of the segment away if it destroys. -/
theorem release_worked (detachable : s.Detachable a) :
    let after := Operation.after (release Store.segmentCalls) (s, a)
    Store.Unnames (fun g => g = a.segment ∧ a.destroyOnRelease = true) s after.1 ∧
      after.2.segment = a.segment ∧ after.2.destroyOnRelease = a.destroyOnRelease ∧
      after.2.released = true ∧ (after.2.Due → a.Due ∨ after.1.keyOf? a.segment = none) := by
  intro after
  cases released : a.released with
  | true =>
      have same : after = (s, a) := by
        unfold after Operation.after
        rw [release_of_released released]
      rw [same]
      exact ⟨.refl s, rfl, rfl, released, .inl⟩
  | false =>
      have worked : Worked (a.destroyOnRelease = true) (s, { a with released := true }) after := by
        unfold after
        rw [after_release released]
        exact ending_worked s _ a
      refine ⟨worked.unnames, worked.segment, worked.destroyOnRelease, worked.released, ?_⟩
      intro due
      rcases Decidable.em (a.destroyOnRelease = true) with destroys | spares
      · have removed := destroy_removes (a := { a with released := true }) detachable
        have destroyed : after =
            Operation.after (destroy Store.segmentCalls) (s, { a with released := true }) := by
          unfold after
          rw [after_release released, ending, if_pos destroys]
        rw [destroyed]
        exact removed.imp_left .inl
      · rcases worked.due due with (removed | ⟨-, destroys⟩) | nameless
        · exact .inl (.inl removed)
        · exact absurd destroys spares
        · exact .inr nameless

end Attachment

namespace Store

variable {s t : Store} {gone : SegmentId → Prop} {id : RootId} {root : Root} {a : Attachment}

/-- A root that is over no segment has something else behind it. -/
private theorem loose_of_source? (loose : s.source? id = none) (found : s.roots[id]? = some root)
    (a : Attachment) : root.backing ≠ .segment a := by
  intro behind
  rw [source?_eq_some_iff.mpr ⟨found, behind⟩] at loose
  cases loose

/-- Whether a region lies over a segment, as its root or as a view into that. -/
def LiesOver (s : Store) (r : Region) (g : SegmentId) : Prop :=
  ∃ root a, s.source? r.root = some (root, a) ∧ a.segment = g

/-- Whether a root is over a segment which it removes when it is released. -/
def Removes (s : Store) (id : RootId) (g : SegmentId) : Prop :=
  ∃ root a, s.source? id = some (root, a) ∧ a.segment = g ∧ a.destroyOnRelease = true

/-- To release what is over no segment takes no key away. -/
private theorem releaseRoot_loose (loose : s.source? id = none) :
    Ends gone s (Operation.after (releaseRoot id) s) := by
  unfold Operation.after
  rw [releaseRoot_run]
  cases found : s.roots[id]? with
  | none => exact .refl s
  | some root =>
      have other := loose_of_source? loose found
      simp only
      cases behind : root.backing with
      | segment a => exact absurd behind (other a)
      | array valid => exact .of_other found other (fun _ same => by cases same) rfl rfl
      | heap valid =>
          cases valid with
          | false => exact .refl s
          | true => exact .of_other found other (fun _ same => by cases same) rfl rfl
      | buffer wrapped valid => exact .of_other found other (fun _ same => by cases same) rfl rfl

private theorem releaseRoot_source (mapped : s.Mapped) (source : s.source? id = some (root, a)) :
    Ends (s.Removes id) s (Operation.after (releaseRoot id) s) ∧
      ∀ root' a', (Operation.after (releaseRoot id) s).source? id = some (root', a') →
        a'.released = true := by
  obtain ⟨found, behind⟩ := source?_eq_some_iff.mp source
  obtain ⟨roots, -, -⟩ := (Attachment.release_steps (s := s) (a := a)).kept
  obtain ⟨unnames, segment, destroys, released, due⟩ :=
    Attachment.release_worked (mapped.detachable source)
  obtain ⟨after, run⟩ := Attachment.release_ok segmentCalls s a
  unfold Operation.after at *
  rw [releaseRoot_run]
  simp only [found, behind]
  simp only [run] at roots unnames segment destroys released due ⊢
  have unnames : Unnames (s.Removes id) s _ :=
    unnames.mono fun g here => ⟨root, a, source, here.1.symm, here.2⟩
  refine ⟨.of_attachment source roots unnames segment destroys (fun _ => released) due, ?_⟩
  intro root' a' source'
  rw [source?_modify source (congrArg (List.modify · id _) roots) rfl, if_pos rfl] at source'
  cases source'
  exact released

/-- To release a root takes at most the key of its segment away. -/
theorem releaseRoot_later (mapped : s.Mapped) (id : RootId) :
    Ends (s.Removes id) s (Operation.after (releaseRoot id) s) ∧
      ∀ root a, (Operation.after (releaseRoot id) s).source? id = some (root, a) →
        a.released = true := by
  cases source : s.source? id with
  | some found => exact releaseRoot_source mapped source
  | none =>
      have ends : Ends (s.Removes id) s _ := releaseRoot_loose source
      refine ⟨ends, fun root a after => ?_⟩
      -- No root comes to be over a segment by ending something.
      obtain ⟨_, before, -⟩ := ends.before after
      rw [source] at before
      cases before

/-- A root that was released may be let go of. -/
private theorem letGo_ends (released : ∀ root a, s.source? id = some (root, a) → a.released = true)
    (roots : t.roots = s.roots.modify id fun root => { root with held := false })
    (segments : t.segments = s.segments) : Ends gone s t := by
  cases source : s.source? id with
  | some found =>
      obtain ⟨root, a⟩ := found
      obtain ⟨-, behind⟩ := source?_eq_some_iff.mp source
      exact .of_modify source roots behind (.of_segments segments)
        ⟨rfl, rfl, rfl, rfl, fun held => (by cases held), fun _ => .inr (released root a source),
          fun done => done, .inl⟩
  | none =>
      cases found : s.roots[id]? with
      | some root =>
          have loose := loose_of_source? source found
          exact .of_other found loose loose roots segments
      | none =>
          refine .of_roots segments (roots.trans ?_)
          exact List.modify_eq_self (List.getElem?_eq_none_iff.mp found)

/-- To drop a root is to release it, if it is held. -/
theorem dropRoot_later (mapped : s.Mapped) (id : RootId) :
    Ends (fun g => s.rootHeld id = true ∧ s.Removes id g) s (Operation.after (dropRoot id) s) := by
  obtain ⟨-, same⟩ | ⟨root, after, found, held, rfl, dropped⟩ := s.dropRoot_cases id
  · rw [same]
    exact .refl s
  · obtain ⟨ends, released⟩ := releaseRoot_later mapped id
    have held : s.rootHeld id = true := by
      rw [rootHeld, found, Option.any_some, held]
    have ends : Ends (fun g => s.rootHeld id = true ∧ s.Removes id g) s
        (Operation.after (releaseRoot id) s) := ends.mono fun g removes => ⟨held, removes⟩
    refine ends.trans ?_
    rw [dropped]
    cases root.backing with
    | array valid => exact letGo_ends released rfl rfl
    | _ => exact letGo_ends released rfl rfl

/-- Keys and roots over segments in order. -/
structure Keyed (s : Store) : Prop where
  distinct : s.Distinct
  /-- Roots over a segment begin where it begins. -/
  base {id : RootId} {root : Root} {a : Attachment} : s.source? id = some (root, a) → root.base = 0
  there {id : RootId} {root : Root} {a : Attachment} :
    s.source? id = some (root, a) → a.segment < s.segments.length
  /-- What was to lose its key has lost it. -/
  due {id : RootId} {root : Root} {a : Attachment} :
    s.source? id = some (root, a) → a.Due → s.keyOf? a.segment = none
  dropped {id : RootId} {root : Root} {a : Attachment} :
    s.source? id = some (root, a) → root.held = false → a.released = true

theorem Keyed.empty {machine : Machine} : ({ machine } : Store).Keyed where
  distinct _ named := by cases named
  base source := by cases source
  there source := by cases source
  due source := by cases source
  dropped source := by cases source

theorem Ends.keyed (ends : Ends gone s t) (keyed : s.Keyed) : t.Keyed where
  distinct := ends.unnames.distinct keyed.distinct
  base source := by
    obtain ⟨_, before, later⟩ := ends.before source
    exact later.base.trans (keyed.base before)
  there source := by
    obtain ⟨⟨root, a⟩, before, later⟩ := ends.before source
    rw [ends.unnames.length, later.segment]
    exact keyed.there before
  due source isDue := by
    obtain ⟨⟨root, a⟩, before, later⟩ := ends.before source
    rw [later.segment]
    rcases later.due isDue with due | nameless
    · exact ends.unnames.nameless (keyed.due before due)
    · exact nameless
  dropped source dropped := by
    obtain ⟨⟨root, a⟩, before, later⟩ := ends.before source
    rcases later.dropped dropped with dropped | released
    · exact later.released (keyed.dropped before dropped)
    · exact released

/-- Where roots over segments are as they were, they remove what they removed. -/
theorem Ends.removes (ends : Ends gone s t) {g : SegmentId} (removes : t.Removes id g) :
    s.Removes id g := by
  obtain ⟨_, a, source, rfl, destroys⟩ := removes
  obtain ⟨⟨root, before⟩, source, later⟩ := ends.before source
  exact ⟨root, before, source, later.segment.symm, later.destroyOnRelease.symm.trans destroys⟩

theorem Ends.rootHeld (ends : Ends gone s t) {g : SegmentId} (removes : t.Removes id g)
    (held : t.rootHeld id = true) : s.rootHeld id = true := by
  obtain ⟨root', a, source', -⟩ := removes
  obtain ⟨⟨root, before⟩, source, later⟩ := ends.before source'
  have there := (source?_eq_some_iff.mp source).1
  have there' := (source?_eq_some_iff.mp source').1
  rw [Store.rootHeld, there', Option.any_some] at held
  rw [Store.rootHeld, there, Option.any_some]
  exact later.held held

end Store

namespace Session

open Store (Ends)

variable {s t : Session} {gone : SegmentId → Prop}

theorem sweepBuffer_ends (s : Session) (id : BufferId) :
    Ends gone s.store (s.sweepBuffer id).store := by
  unfold sweepBuffer
  split
  · exact .refl _
  · rw [Operation.settle_snd]
    obtain ⟨roots, -, -⟩ := s.store.dropBuffer_run id
    refine .of_roots ?_ roots
    unfold Operation.after
    simp only [Store.dropBuffer, Operation.bind_run, Operation.get_run]
    cases s.store.buffers[id]? with
    | none => rfl
    | some b =>
        simp only [Operation.some_run]
        cases b.alive with
        | false => rfl
        | true => cases b.block <;> rfl

theorem sweepRoot_ends (s : Session) (mapped : s.store.Mapped) (id : RootId) :
    Ends (fun g => s.store.rootHeld id = true ∧ s.reaches id = false ∧ s.store.Removes id g)
      s.store (s.sweepRoot id).store := by
  unfold sweepRoot
  split
  · exact .refl _
  · rename_i unreached
    rw [Operation.settle_snd]
    exact (Store.dropRoot_later mapped id).mono fun g here =>
      ⟨here.1, by simpa using unreached, here.2⟩

/-- Whether a root is held, with no handle on it left, that removes the segment. -/
def Abandons (s : Session) (g : SegmentId) : Prop :=
  ∃ id, s.store.rootHeld id = true ∧ s.reaches id = false ∧ s.store.Removes id g

/-- A sweep takes the keys of segments which roots remove that no handle leads to any more. -/
theorem sweep_ends (s : Session) (mapped : s.store.Mapped) :
    Ends s.Abandons s.store s.sweep.store := by
  -- What is abandoned halfway was so from the start, since no handle comes or goes.
  have swept : s.sweep.store.Mapped ∧ s.sweep.handles = s.handles ∧
      Ends s.Abandons s.store s.sweep.store := by
    refine s.sweep_induct (motive := fun t => t.store.Mapped ∧ t.handles = s.handles ∧
      Ends s.Abandons s.store t.store) ⟨mapped, rfl, .refl _⟩ ?_ ?_
    · rintro t id ⟨mapped, handles, ends⟩
      have changes : Store.Changes True True t.store (t.sweepRoot id).store :=
        t.sweepRoot_changes id
      refine ⟨changes.mapped mapped, (t.sweepRoot_handles id).trans handles, ?_⟩
      refine ends.trans ((t.sweepRoot_ends mapped id).mono ?_)
      rintro g ⟨held, unreached, removes⟩
      rw [reaches_eq_of_handles handles] at unreached
      exact ⟨id, ends.rootHeld removes held, unreached, ends.removes removes⟩
    · rintro t id ⟨mapped, handles, ends⟩
      have changes : Store.Changes True True t.store (t.sweepBuffer id).store :=
        t.sweepBuffer_changes id
      exact ⟨changes.mapped mapped, (t.sweepBuffer_handles id).trans handles,
        ends.trans (t.sweepBuffer_ends id)⟩
  exact swept.2.2

end Session

end BoundedMemory
