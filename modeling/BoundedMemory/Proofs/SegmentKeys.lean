import BoundedMemory.Proofs.Growth
import BoundedMemory.Proofs.Refusing

/-!
Which key names which segment. A segment has its key from when it is made until it is
removed, and is not found under it any more from then on, even while it is mapped.
Detaching takes no key away; destroying takes that of one segment away.
-/

namespace BoundedMemory

namespace Store

variable {s s' s'' : Store} {id g g' : SegmentId} {key : SegmentKey}

/-- The key under which a segment is found. -/
def keyOf? (s : Store) (id : SegmentId) : Option SegmentKey :=
  (s.segments[id]?).bind fun g => if g.phase = .present then some g.key else none

/-- No key but the anonymous one belongs to two segments. -/
def Distinct (s : Store) : Prop :=
  ∀ {key : SegmentKey} {g g' : SegmentId}, key ≠ .anonymous →
    s.keyOf? g = some key → s.keyOf? g' = some key → g = g'

theorem keyOf?_eq_some_iff : s.keyOf? id = some key ↔
    ∃ g, s.segments[id]? = some g ∧ g.phase = .present ∧ g.key = key := by
  unfold keyOf?
  rw [Option.bind_eq_some_iff]
  constructor
  · rintro ⟨g, found, named⟩
    split at named
    · rename_i present
      exact ⟨g, found, present, Option.some.inj named⟩
    · cases named
  · rintro ⟨g, found, present, rfl⟩
    exact ⟨g, found, if_pos present⟩

theorem lt_of_keyOf? (named : s.keyOf? id = some key) : id < s.segments.length := by
  obtain ⟨g, found, -, -⟩ := keyOf?_eq_some_iff.mp named
  exact (List.getElem?_eq_some_iff.mp found).1

/-- What a key names has the key. -/
theorem keyOf?_of_segmentOf? (names : s.segmentOf? key = some id) :
    key ≠ .anonymous ∧ s.keyOf? id = some key := by
  unfold segmentOf? at names
  split at names
  · cases names
  · rename_i other
    obtain ⟨inside, found, -⟩ := List.findIdx?_eq_some_iff_getElem.mp names
    rw [Bool.and_eq_true, decide_eq_true_eq, decide_eq_true_eq] at found
    exact ⟨other, keyOf?_eq_some_iff.mpr
      ⟨_, List.getElem?_eq_getElem inside, found.2, found.1⟩⟩

theorem segmentOf?_eq_none_iff (other : key ≠ .anonymous) :
    s.segmentOf? key = none ↔ ∀ id, s.keyOf? id ≠ some key := by
  unfold segmentOf?
  rw [if_neg other, List.findIdx?_eq_none_iff]
  constructor
  · intro missing id named
    obtain ⟨g, found, present, rfl⟩ := keyOf?_eq_some_iff.mp named
    have missed := missing g (List.mem_of_getElem? found)
    simp [present] at missed
  · intro missing g member
    obtain ⟨id, found⟩ := List.getElem?_of_mem member
    rw [Bool.and_eq_false_imp]
    intro same
    rw [decide_eq_true_eq] at same
    apply decide_eq_false
    intro present
    exact missing id (keyOf?_eq_some_iff.mpr ⟨g, found, present, same⟩)

/-- A key that one segment has names that segment. -/
theorem Distinct.segmentOf? (distinct : s.Distinct) (other : key ≠ .anonymous)
    (named : s.keyOf? id = some key) : s.segmentOf? key = some id := by
  cases names : s.segmentOf? key with
  | none => exact absurd named ((segmentOf?_eq_none_iff other).mp names id)
  | some first => rw [distinct other (keyOf?_of_segmentOf? names).2 named]

section Phases

theorem keyOf?_of_segments (same : s'.segments = s.segments) : s'.keyOf? = s.keyOf? := by
  funext id
  unfold keyOf?
  rw [same]

/-- A segment that comes closer to its end loses its key. -/
theorem keyOf?_setPhase {phase : Segment.Phase} (ended : phase ≠ .present) :
    (s.setPhase id phase).keyOf? g = if g = id then none else s.keyOf? g := by
  unfold keyOf? setPhase
  rw [List.getElem?_modify]
  rcases Decidable.em (id = g) with rfl | other
  · cases s.segments[id]? <;> simp [ended]
  · simp [other, Ne.symm other]

theorem keyOf?_reclaim (s : Store) (id : SegmentId) : (s.reclaim id).keyOf? = s.keyOf? := by
  obtain same | ⟨seg, found, removed, -, same⟩ := s.reclaim_cases id
  · rw [same]
  · funext g
    rw [same]
    show (s.setPhase id .gone).keyOf? g = _
    rw [keyOf?_setPhase (by decide)]
    split
    · rename_i here
      simp [keyOf?, here, found, removed]
    · rfl

theorem length_segments_reclaim (s : Store) (id : SegmentId) :
    (s.reclaim id).segments.length = s.segments.length := by
  obtain same | ⟨seg, -, -, -, same⟩ := s.reclaim_cases id
  · rw [same]
  · rw [same]
    exact List.length_modify ..

end Phases

/-- The same segments, of which those that are `gone` may have lost their keys. -/
structure Unnames (gone : SegmentId → Prop) (s s' : Store) : Prop where
  length : s'.segments.length = s.segments.length
  kept {g : SegmentId} : ¬ gone g → s'.keyOf? g = s.keyOf? g
  lost (g : SegmentId) : s'.keyOf? g = s.keyOf? g ∨ s'.keyOf? g = none

namespace Unnames

variable {gone gone' : SegmentId → Prop}

theorem of_same (length : s'.segments.length = s.segments.length) (same : s'.keyOf? = s.keyOf?) :
    Unnames gone s s' where
  length := length
  kept _ := congrFun same _
  lost g := .inl (congrFun same g)

theorem of_segments (same : s'.segments = s.segments) : Unnames gone s s' :=
  .of_same (congrArg List.length same) (keyOf?_of_segments same)

theorem refl (s : Store) : Unnames gone s s := .of_segments rfl

theorem trans (first : Unnames gone s s') (second : Unnames gone s' s'') : Unnames gone s s'' where
  length := second.length.trans first.length
  kept spared := (second.kept spared).trans (first.kept spared)
  lost g := by
    rcases second.lost g with same | nameless
    · rw [same]
      exact first.lost g
    · exact .inr nameless

theorem mono (unnames : Unnames gone s s') (wider : ∀ g, gone g → gone' g) :
    Unnames gone' s s' where
  length := unnames.length
  kept spared := unnames.kept fun there => spared (wider _ there)
  lost := unnames.lost

theorem keyOf? (unnames : Unnames gone s s') (named : s'.keyOf? g = some key) :
    s.keyOf? g = some key := by
  rcases unnames.lost g with same | nameless
  · rw [← same, named]
  · rw [nameless] at named
    cases named

/-- What has no key gets none. -/
theorem nameless (unnames : Unnames gone s s') (before : s.keyOf? g = none) :
    s'.keyOf? g = none := by
  rcases unnames.lost g with same | after
  · rw [same, before]
  · exact after

theorem distinct (unnames : Unnames gone s s') (distinct : s.Distinct) : s'.Distinct :=
  fun other first second => distinct other (unnames.keyOf? first) (unnames.keyOf? second)

end Unnames

/-- Whatever the system answers to a removal, the segment has no key after it. -/
theorem removeSegment_unnames (s : Store) (id : SegmentId) :
    Unnames (· = id) s (Operation.after (removeSegment id) s) ∧
      (Operation.after (removeSegment id) s).keyOf? id = none := by
  unfold Operation.after
  rw [removeSegment_run]
  cases found : s.segments[id]? with
  | none => exact ⟨.refl s, by simp [keyOf?, found]⟩
  | some seg =>
      rcases Decidable.em (seg.phase = .gone) with gone | there
      · simp only [gone, if_true]
        exact ⟨.refl s, by simp [keyOf?, found, gone]⟩
      · -- The key goes with the phase; to give the memory back later changes no key.
        have ended (g : SegmentId) : ((s.setPhase id .removed).reclaim id).keyOf? g =
            if g = id then none else s.keyOf? g := by
          rw [keyOf?_reclaim, keyOf?_setPhase (by decide)]
        simp only [there, if_false]
        refine ⟨⟨?_, ?_, ?_⟩, by rw [ended, if_pos rfl]⟩
        · rw [length_segments_reclaim]
          exact List.length_modify ..
        · intro g other
          rw [ended, if_neg other]
        · intro g
          rw [ended]
          split
          · exact .inr rfl
          · exact .inl rfl

end Store

namespace Attachment

variable {s t : Store} {a b : Attachment}

/-- Whether something was done after which the segment should have no key. -/
def Due (a : Attachment) : Prop :=
  a.removed = true ∨ a.released = true ∧ a.destroyOnRelease = true

/-- What becomes of a store and an attachment that is worked on, where the segment may
lose its key if the work `ends` it. -/
structure Worked (ends : Prop) (before after : Store × Attachment) : Prop where
  unnames : Store.Unnames (fun g => g = before.2.segment ∧ ends) before.1 after.1
  segment : after.2.segment = before.2.segment
  destroyOnRelease : after.2.destroyOnRelease = before.2.destroyOnRelease
  released : after.2.released = before.2.released
  due : after.2.Due → before.2.Due ∨ after.1.keyOf? before.2.segment = none

namespace Worked

variable {ends : Prop} {before between after : Store × Attachment}

theorem refl (state : Store × Attachment) : Worked ends state state :=
  ⟨.refl _, rfl, rfl, rfl, .inl⟩

theorem trans (first : Worked ends before between) (second : Worked ends between after) :
    Worked ends before after where
  unnames := first.unnames.trans (first.segment ▸ second.unnames)
  segment := second.segment.trans first.segment
  destroyOnRelease := second.destroyOnRelease.trans first.destroyOnRelease
  released := second.released.trans first.released
  due due := by
    rcases second.due due with due | nameless
    · rcases first.due due with due | nameless
      · exact .inl due
      · exact .inr (second.unnames.nameless nameless)
    · rw [first.segment] at nameless
      exact .inr nameless

end Worked

theorem detach_worked {ends : Prop} (s : Store) (a : Attachment) :
    Worked ends (s, a) (Operation.after (detach Store.segmentCalls) (s, a)) := by
  unfold Operation.after
  rcases detach_cases (s := s) (a := a) with
    ⟨run, -⟩ | ⟨cause, run⟩ | ⟨segment, -, -, run⟩
  · rw [run]
    exact .refl _
  · rw [run]
    exact .refl _
  · rw [run]
    refine ⟨.of_same (Store.length_segments_reclaim _ _) ?_, rfl, rfl, rfl, .inl⟩
    rw [Store.keyOf?_reclaim]
    exact Store.keyOf?_of_segments rfl

/-- Once it is detached, to destroy it is no more than a removal. -/
private theorem destroy_detached (gone : a.attached = false) :
    Worked True (s, a) (Operation.after (destroy Store.segmentCalls) (s, a)) ∧
      (a.removed = true ∨
        (Operation.after (destroy Store.segmentCalls) (s, a)).1.keyOf? a.segment = none) := by
  obtain ⟨unnames, nameless⟩ := s.removeSegment_unnames a.segment
  have unnames : Store.Unnames (fun g => g = a.segment ∧ True) s _ :=
    unnames.mono fun g here => ⟨here, trivial⟩
  have call : Store.segmentCalls.remove a.segment s = Store.removeSegment a.segment s := rfl
  unfold Operation.after at unnames nameless ⊢
  rw [destroy_run, detach_of_detached gone]
  rcases Decidable.em (a.removed = true) with removed | there
  · simp only [removed, if_true]
    exact ⟨.refl _, .inl trivial⟩
  · simp only [there, call]
    cases run : Store.removeSegment a.segment s with
    | ok _ t =>
        simp only [run] at unnames nameless
        exact ⟨⟨unnames, rfl, rfl, rfl, fun _ => .inr nameless⟩, .inr nameless⟩
    | error e t =>
        simp only [run] at unnames nameless
        exact ⟨⟨unnames, rfl, rfl, rfl, .inl⟩, .inr nameless⟩

/-- A segment is removed after it was detached, if it could be. -/
private theorem destroy_cases (s : Store) (a : Attachment) :
    (∃ cause, detach Store.segmentCalls (s, a) = .error (.fault cause) (s, a) ∧
        Operation.after (destroy Store.segmentCalls) (s, a) = (s, a)) ∨
      Worked True (s, a) (Operation.after (destroy Store.segmentCalls) (s, a)) ∧
        (a.removed = true ∨
          (Operation.after (destroy Store.segmentCalls) (s, a)).1.keyOf? a.segment = none) := by
  have detached : Worked True (s, a) _ := detach_worked s a
  unfold Operation.after at detached
  rcases detach_cases (s := s) (a := a) with ⟨-, gone⟩ | ⟨cause, run⟩ | ⟨segment, -, -, run⟩
  · exact .inr (destroy_detached gone)
  · left
    refine ⟨cause, run, ?_⟩
    unfold Operation.after
    rw [destroy_run, run]
  · right
    have goesOn := destroy_of_detach run rfl
    simp only [run] at detached
    unfold Operation.after
    rw [goesOn]
    obtain ⟨worked, removed⟩ :=
      destroy_detached (s := (s.unmapped a.mapping segment).reclaim segment)
      (a := { a with attached := false }) rfl
    exact ⟨detached.trans worked, removed⟩

theorem destroy_worked (s : Store) (a : Attachment) :
    Worked True (s, a) (Operation.after (destroy Store.segmentCalls) (s, a)) := by
  obtain ⟨_, -, same⟩ | ⟨worked, -⟩ := destroy_cases s a
  · rw [same]
    exact .refl _
  · exact worked

/-- What a release tries ends the segment just if it destroys. -/
theorem ending_worked (s : Store) (a b : Attachment) :
    Worked (b.destroyOnRelease = true) (s, a)
      (Operation.after (b.ending Store.segmentCalls) (s, a)) := by
  unfold ending
  split
  · rename_i destroys
    have worked := destroy_worked s a
    exact { worked with
      unnames := worked.unnames.mono fun g here => ⟨here.1, destroys⟩ }
  · exact detach_worked s a

/-- Unless its mapping is lost, a segment that is destroyed has no key any more. -/
theorem destroy_removes (detachable : s.Detachable a) : a.removed = true ∨
    (Operation.after (destroy Store.segmentCalls) (s, a)).1.keyOf? a.segment = none := by
  obtain ⟨cause, fails, -⟩ | ⟨-, removed⟩ := destroy_cases s a
  · obtain ⟨_, detached, -⟩ := Store.detach_ends detachable
    rw [fails] at detached
    cases detached
  · exact removed

end Attachment

end BoundedMemory
