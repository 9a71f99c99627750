import BoundedMemory.Proofs.Additions
import BoundedMemory.Proofs.SegmentSources

/-!
How segments come by their keys. A segment is made only under a key that names none, and
comes after all others; what attaches to a key is a root over the segment that the key
names then. All other things that are made leave segments and their keys alone.
-/

namespace BoundedMemory

namespace Store

variable {s s' t : Store} {gone : SegmentId → Prop} {key : SegmentKey} {g : SegmentId}

/-- A segment more, under a key that named none. -/
structure Opened (key : SegmentKey) (s s' : Store) : Prop where
  free : s.segmentOf? key = none
  roots : s'.roots = s.roots
  length : s'.segments.length = s.segments.length + 1
  keyOf? (g : SegmentId) : s'.keyOf? g = if g = s.segments.length then some key else s.keyOf? g

/-- A new segment has its key, and all others keep theirs. -/
theorem keyOf?_withSegment (key : SegmentKey) (size : Nat) (flags : SegmentFlags) (s : Store)
    (g : SegmentId) : (s.withSegment key size flags).keyOf? g =
      if g = s.segments.length then some key else s.keyOf? g := by
  unfold keyOf?
  split
  · rename_i last
    rw [last, s.withSegment_new key size flags]
    rfl
  · rename_i other
    rw [withSegment, getElem?_concat_other other]

theorem Opened.withSegment (free : s.segmentOf? key = none) (size : Nat) (flags : SegmentFlags) :
    Opened key s (s.withSegment key size flags) where
  free := free
  roots := rfl
  length := List.length_append
  keyOf? := keyOf?_withSegment key size flags s

theorem Opened.kept (opened : Opened key s s') {other : SegmentKey}
    (named : s.keyOf? g = some other) : s'.keyOf? g = some other := by
  rw [opened.keyOf?, if_neg (Nat.ne_of_lt (lt_of_keyOf? named)), named]

theorem Opened.keyed (opened : Opened key s s') (keyed : s.Keyed) : s'.Keyed := by
  have same : s'.source? = s.source? := source?_of_roots opened.roots
  have new {g : SegmentId} {other : SegmentKey} (named : other ≠ .anonymous)
      (here : s.keyOf? g = some other) : other ≠ key := by
    rintro rfl
    exact (segmentOf?_eq_none_iff named).mp opened.free g here
  constructor
  · intro other g g' named first second
    rw [opened.keyOf?] at first second
    split at first <;> split at second
    · rename_i here here'
      rw [here, here']
    · cases first
      exact absurd rfl (new named second)
    · cases second
      exact absurd rfl (new named first)
    · exact keyed.distinct named first second
  · exact fun source => keyed.base (same ▸ source)
  · intro id root a source
    rw [opened.length]
    exact Nat.lt_succ_of_lt (keyed.there (same ▸ source))
  · intro id root a source due
    rw [same] at source
    rw [opened.keyOf?, if_neg (Nat.ne_of_lt (keyed.there source))]
    exact keyed.due source due
  · exact fun source => keyed.dropped (same ▸ source)

section Concat

variable {id : RootId} {root found : Root} {a : Attachment}

theorem source?_concat (roots : s'.roots = s.roots ++ [root])
    (there : s'.source? id = some (found, a)) :
    s.source? id = some (found, a) ∨
      id = s.roots.length ∧ found = root ∧ root.backing = .segment a := by
  obtain ⟨at_id, behind⟩ := source?_eq_some_iff.mp there
  rw [roots] at at_id
  rcases concat_cases at_id with old | ⟨last, rfl⟩
  · exact .inl (source?_eq_some_iff.mpr ⟨old, behind⟩)
  · exact .inr ⟨last, rfl, behind⟩

theorem source?_of_concat (roots : s'.roots = s.roots ++ [root])
    (there : s.source? id = some (found, a)) : s'.source? id = some (found, a) := by
  obtain ⟨at_id, behind⟩ := source?_eq_some_iff.mp there
  refine source?_eq_some_iff.mpr ⟨?_, behind⟩
  rw [roots, List.getElem?_append_left (List.getElem?_eq_some_iff.mp at_id).1, at_id]

/-- A root more that is over something else. -/
theorem Ends.of_added (roots : t.roots = s.roots ++ [root])
    (loose : ∀ a, root.backing ≠ .segment a) (segments : t.segments = s.segments) :
    Ends gone s t := by
  refine of_same segments (funext fun id => ?_)
  cases there : t.source? id with
  | some source =>
      rcases source?_concat roots there with old | ⟨-, -, behind⟩
      · exact old.symm
      · exact absurd behind (loose _)
  | none =>
      cases old : s.source? id with
      | none => rfl
      | some source =>
          rw [source?_of_concat roots old] at there
          cases there

end Concat

/-- A root more, over all or the first bytes of a segment. -/
structure Attached (g : SegmentId) (size : Nat) (destroys : Bool) (s s' : Store) : Prop where
  segments : s'.segments = s.segments
  there : g < s.segments.length
  root : ∃ root a, s'.roots = s.roots ++ [root] ∧ root.backing = .segment a ∧ root.base = 0 ∧
    root.length = size ∧ root.held = true ∧ a.segment = g ∧ a.destroyOnRelease = destroys ∧
      a.attached = true ∧ a.removed = false ∧ a.released = false

theorem Attached.keyed {size : Nat} {destroys : Bool} (attached : Attached g size destroys s s')
    (keyed : s.Keyed) : s'.Keyed := by
  obtain ⟨root, a, roots, behind, base, -, held, lies, -, -, removed, released⟩ := attached.root
  have keys := keyOf?_of_segments attached.segments
  have same {b : Attachment} (also : root.backing = .segment b) : b = a := by
    rw [behind] at also
    cases also
    rfl
  constructor
  · intro key g g' named first second
    rw [keys] at first second
    exact keyed.distinct named first second
  · intro id found b there
    rcases source?_concat roots there with old | ⟨-, rfl, -⟩
    · exact keyed.base old
    · exact base
  · intro id found b there
    rw [attached.segments]
    rcases source?_concat roots there with old | ⟨-, rfl, also⟩
    · exact keyed.there old
    · rw [same also, lies]
      exact attached.there
  · intro id found b there due
    rw [keys]
    rcases source?_concat roots there with old | ⟨-, rfl, also⟩
    · exact keyed.due old due
    · rw [same also, Attachment.Due, removed, released] at due
      simp at due
  · intro id found b there dropped
    rcases source?_concat roots there with old | ⟨-, rfl, -⟩
    · exact keyed.dropped old dropped
    · rw [held] at dropped
      cases dropped

/-- A root over a segment stays over it, and removes it on release if it did. -/
structure Stays (before after : Root × Attachment) : Prop where
  segment : after.2.segment = before.2.segment
  destroyOnRelease : after.2.destroyOnRelease = before.2.destroyOnRelease

/-- What may have become of segments and their keys: some that are `gone` may have lost
theirs, and new ones may have keys that were `created`. -/
structure Renames (gone : SegmentId → Prop) (created : SegmentKey → Prop) (s s' : Store) :
    Prop where
  length : s.segments.length ≤ s'.segments.length
  kept {g : SegmentId} {key : SegmentKey} : ¬ gone g → s.keyOf? g = some key →
    s'.keyOf? g = some key
  named {g : SegmentId} {key : SegmentKey} : s'.keyOf? g = some key →
    s.keyOf? g = some key ∨ s.segments.length ≤ g ∧ created key
  stays {id : RootId} {source : Root × Attachment} : s.source? id = some source →
    ∃ source', s'.source? id = some source' ∧ Stays source source'
  keyed : s.Keyed → s'.Keyed

section Renames

variable {created created' : SegmentKey → Prop} {gone' : SegmentId → Prop}

theorem Renames.trans (first : Renames gone created s s') (second : Renames gone created s' t) :
    Renames gone created s t where
  length := first.length.trans second.length
  kept spared named := second.kept spared (first.kept spared named)
  named named := by
    rcases second.named named with old | ⟨new, made⟩
    · exact first.named old
    · exact .inr ⟨first.length.trans new, made⟩
  stays source := by
    obtain ⟨between, source, stays⟩ := first.stays source
    obtain ⟨after, source, stays'⟩ := second.stays source
    exact ⟨after, source, stays'.segment.trans stays.segment,
      stays'.destroyOnRelease.trans stays.destroyOnRelease⟩
  keyed keyed := second.keyed (first.keyed keyed)

theorem Renames.mono (renames : Renames gone created s t) (ends : ∀ g, gone g → gone' g)
    (makes : ∀ key, created key → created' key) : Renames gone' created' s t where
  length := renames.length
  kept spared := renames.kept fun there => spared (ends _ there)
  named named := (renames.named named).imp_right fun new => ⟨new.1, makes _ new.2⟩
  stays := renames.stays
  keyed := renames.keyed

/-- What has no key gets none. -/
theorem Renames.nameless (renames : Renames gone created s t) (inside : g < s.segments.length)
    (before : s.keyOf? g = none) : t.keyOf? g = none := by
  cases named : t.keyOf? g with
  | none => rfl
  | some key =>
      rcases renames.named named with old | ⟨new, -⟩
      · rw [before] at old
        cases old
      · exact absurd inside (Nat.not_lt.mpr new)

theorem Renames.liesOver (renames : Renames gone created s t) {r : Region}
    (lies : s.LiesOver r g) : t.LiesOver r g := by
  obtain ⟨root, a, source, rfl⟩ := lies
  obtain ⟨⟨root', a'⟩, source', stays⟩ := renames.stays source
  exact ⟨root', a', source', stays.segment⟩

/-- Whether a root removes its segment never changes. -/
theorem Renames.removes_iff (renames : Renames gone created s t) {r : Region}
    (lies : s.LiesOver r g) : t.Removes r.root g ↔ s.Removes r.root g := by
  obtain ⟨root, a, source, rfl⟩ := lies
  obtain ⟨⟨root', a'⟩, source', stays⟩ := renames.stays source
  constructor
  · rintro ⟨_, _, found, -, destroys⟩
    rw [source'] at found
    cases found
    exact ⟨root, a, source, rfl, stays.destroyOnRelease.symm.trans destroys⟩
  · rintro ⟨_, _, found, -, destroys⟩
    rw [source] at found
    cases found
    exact ⟨root', a', source', stays.segment, stays.destroyOnRelease.trans destroys⟩

theorem Ends.renames (ends : Ends gone s t) : Renames gone created s t where
  length := Nat.le_of_eq ends.unnames.length.symm
  kept spared named := (ends.unnames.kept spared).trans named
  named named := .inl (ends.unnames.keyOf? named)
  stays source := by
    obtain ⟨after, source, later⟩ := ends.after source
    exact ⟨after, source, later.segment, later.destroyOnRelease⟩
  keyed := ends.keyed

theorem Opened.renames (opened : Opened key s t) (made : created key) :
    Renames gone created s t where
  length := opened.length ▸ Nat.le_succ _
  kept _ named := opened.kept named
  named named := by
    rw [opened.keyOf?] at named
    split at named
    · rename_i last
      cases named
      exact .inr ⟨Nat.le_of_eq last.symm, made⟩
    · exact .inl named
  stays source := ⟨_, (source?_of_roots opened.roots).symm ▸ source, rfl, rfl⟩
  keyed := opened.keyed

theorem Attached.renames {size : Nat} {destroys : Bool} (attached : Attached g size destroys s t) :
    Renames gone created s t where
  length := Nat.le_of_eq (congrArg List.length attached.segments.symm)
  kept _ named := by rwa [keyOf?_of_segments attached.segments]
  named named := by
    rw [keyOf?_of_segments attached.segments] at named
    exact .inl named
  stays source := by
    obtain ⟨_, _, roots, -⟩ := attached.root
    exact ⟨_, source?_of_concat roots source, rfl, rfl⟩
  keyed := attached.keyed

end Renames

theorem Ends.of_resembles (alike : s.Resembles t) : Ends gone s t :=
  .of_roots alike.segments.symm alike.roots.symm

/-- Nothing that is made, if not over a segment, ends any. -/
theorem Ends.admits : Admits (Ends gone) where
  refl := .refl
  trans := .trans
  rewrite := .of_resembles
  block _ _ := .of_roots rfl rfl
  buffer _ _ := .of_roots rfl rfl
  root _ _ _ loose := .of_added rfl loose rfl

/-- How a look-up came by a segment: the key named it, or it was made where that was
`wanted`. -/
inductive Finds (key : SegmentKey) (wanted : Prop) (s : Store) : SegmentId → Store → Prop where
  | named {g : SegmentId} (names : s.segmentOf? key = some g) : Finds key wanted s g s
  | made {t : Store} (want : wanted) (opened : Opened key s t) :
      Finds key wanted s s.segments.length t

theorem Finds.roots {wanted : Prop} (finds : Finds key wanted s g t) : t.roots = s.roots := by
  cases finds with
  | named => rfl
  | made _ opened => exact opened.roots

theorem Finds.renames {wanted : Prop} {created : SegmentKey → Prop} (finds : Finds key wanted s g t)
    (creates : s.segmentOf? key = none → wanted → created key) : Renames gone created s t := by
  cases finds with
  | named => exact (Ends.refl s).renames
  | made want opened => exact opened.renames (creates opened.free want)

theorem findSegment_finds (key : SegmentKey) (size : Nat) (flags : SegmentFlags) (s : Store) :
    (∃ e, findSegment key size flags s = .error e s) ∨
      ∃ g t, findSegment key size flags s = .ok g t ∧
        Finds key (key = .anonymous ∨ flags.has SegmentFlags.create = true) s g t := by
  rcases findSegment_cases key size flags s with
    ⟨e, find⟩ | ⟨g, -, names, -, -, find⟩ | ⟨free, want, find⟩
  · exact .inl ⟨e, find⟩
  · exact .inr ⟨g, s, find, .named names⟩
  · rw [find]
    rcases newSegment_cases key size flags s with ⟨e, make⟩ | ⟨-, -, make⟩
    · exact .inl ⟨e, make⟩
    · exact .inr ⟨_, _, make, .made want (.withSegment free size flags)⟩

/-- What a key names is found, whatever its size and its permissions are. -/
theorem findSegment_plain (names : s.segmentOf? key = some g) :
    findSegment key 0 0 s = .ok g s := by
  obtain ⟨-, named⟩ := keyOf?_of_segmentOf? names
  obtain ⟨seg, found, -, -⟩ := keyOf?_eq_some_iff.mp named
  have plain : SegmentFlags.has 0 SegmentFlags.create = false := by decide
  have permitted : SegmentFlags.permits seg.mode 0 = true := by simp [SegmentFlags.permits]
  unfold findSegment
  simp only [Operation.bind_run, Operation.get_run, names, found, plain, permitted,
    Bool.false_and, Bool.false_eq_true, Bool.not_true, if_false, Nat.not_lt_zero]
  rfl

/-- A key that names nothing is not found unless it is to be made. -/
theorem findSegment_missing {size : Nat} {flags : SegmentFlags} (named : key ≠ .anonymous)
    (free : s.segmentOf? key = none) (plain : flags.has SegmentFlags.create = false) :
    findSegment key size flags s = .error .notFound s := by
  unfold findSegment
  simp only [Operation.bind_run, Operation.get_run, free]
  rw [if_neg (by simp [named, plain])]
  rfl

end Store

namespace Region

variable {s : Store}

/-- What attaches to a key adds a root over the segment that it found, or none. -/
theorem ofAttachment_cases (key : SegmentKey) (size : Nat) (flags : SegmentFlags)
    (destroys : Bool) (s : Store) :
    (∃ e, ofAttachment size (look key size flags destroys) s = .error e s) ∨
      ∃ g t, Store.Finds key (key = .anonymous ∨ flags.has SegmentFlags.create = true) s g t ∧
        ((∃ e, ofAttachment size (look key size flags destroys) s = .error e t) ∨
          ∃ u, Store.Attached g size destroys t u ∧
            ofAttachment size (look key size flags destroys) s =
              .ok (.ofRoot s.roots.length size) u) := by
  have tried := look_run key size flags destroys s
  rcases Store.findSegment_finds key size flags s with ⟨e, find⟩ | ⟨g, t, find, finds⟩
  · rw [find] at tried
    refine .inl ⟨.fault (.os "shmget" e), ?_⟩
    simp only [ofAttachment, Operation.bind_run, tried]
  · refine .inr ⟨g, t, finds, ?_⟩
    rw [find] at tried
    rcases Store.mapSegment_cases g t with ⟨e, map⟩ | ⟨seg, found, -, -, map⟩
    · simp only [map] at tried
      refine .inl ⟨.fault (.os "shmat" e), ?_⟩
      simp only [ofAttachment, Operation.bind_run, tried]
    · simp only [map] at tried
      right
      rw [ofAttachment_run tried found, ← finds.roots]
      refine ⟨_, ?_, rfl⟩
      exact ⟨rfl, (List.getElem?_eq_some_iff.mp found).1,
        _, _, rfl, rfl, rfl, rfl, rfl, rfl, rfl, rfl, rfl, rfl⟩

theorem attach_missing {key : SegmentKey} (named : key ≠ .anonymous)
    (free : s.segmentOf? key = none) {options : SegmentOptions}
    (plain : options.flags.has SegmentFlags.create = false) :
    attachSegment key options s = .error (.fault (.os "shmget" .notFound)) s := by
  have tried := look_run key options.size options.flags false s
  rw [Store.findSegment_missing named free plain] at tried
  show ofAttachment options.size (look key options.size options.flags false) s = _
  simp only [ofAttachment, Operation.bind_run, tried]

end Region

end BoundedMemory
