import BoundedMemory.Proofs.Placement

/-!
Which mappings are live. While nobody takes a segment away from below its root, a root
that is attached has a mapping to itself, and the mapping is live; a segment with a live
mapping is not given back.
-/

namespace BoundedMemory

/-- The mapping that a root is attached through, with the segment it maps. -/
def Root.through? (root : Root) : Option (MappingId × SegmentId) :=
  match root.backing with
  | .segment a => if a.attached then some (a.mapping, a.segment) else none
  | _ => none

theorem Backing.Weakens.through? {root : Root} {backing : Backing}
    (h : root.backing.Weakens backing) :
    ({ root with backing } : Root).through? = root.through? := by
  unfold Root.through?
  generalize root.backing = before at h
  cases h <;> rfl

namespace Store

def through? (s : Store) (id : RootId) : Option (MappingId × SegmentId) :=
  (s.roots[id]?).bind Root.through?

/-- A segment whose memory was not given back. -/
def Standing (s : Store) (id : SegmentId) : Prop :=
  ∃ g, s.segments[id]? = some g ∧ g.phase ≠ .gone

structure Mapped (s : Store) : Prop where
  standing {m : MappingId} {g : SegmentId} : s.mappings[m]? = some ⟨g, true⟩ → s.Standing g
  live {id : RootId} {m : MappingId} {g : SegmentId} :
    s.through? id = some (m, g) → s.mappings[m]? = some ⟨g, true⟩
  unshared {id id' : RootId} {m : MappingId} {g g' : SegmentId} :
    s.through? id = some (m, g) → s.through? id' = some (m, g') → id = id'

theorem Mapped.empty {machine : Machine} : ({ machine } : Store).Mapped where
  standing mapped := by cases mapped
  live through := by cases through
  unshared through := by cases through

variable {s s' : Store}

/-- Changes that touch no mapping, and no root in what it is attached through. -/
private theorem Mapped.same (h : s.Mapped) (mappings : s'.mappings = s.mappings)
    (through : s'.through? = s.through?)
    (standing : ∀ {m : MappingId} {g : SegmentId},
      s.mappings[m]? = some ⟨g, true⟩ → s.Standing g → s'.Standing g) : s'.Mapped where
  standing mapped := by
    rw [mappings] at mapped
    exact standing mapped (h.standing mapped)
  live attached := by
    rw [through] at attached
    rw [mappings]
    exact h.live attached
  unshared first second := by
    rw [through] at first second
    exact h.unshared first second

private theorem Standing.of_segments {id : SegmentId} (segments : s'.segments = s.segments)
    (h : s.Standing id) : s'.Standing id := by
  unfold Standing
  rwa [segments]

private theorem through?_modify {id : RootId} {root : Root} {f : Root → Root}
    (found : s.roots[id]? = some root) (same : (f root).through? = root.through?)
    (roots : s'.roots = s.roots.modify id f) : s'.through? = s.through? := by
  funext other
  unfold through?
  rw [roots, List.getElem?_modify]
  by_cases here : id = other
  · subst here
    simp only [found, Option.map_eq_map, Option.map_some, if_true, Option.bind_some, same]
  · simp only [here, if_false, Option.map_eq_map, Option.map_id_fun', id_eq]

/-- A root that is new, and what it is attached through, if anything. -/
private theorem through?_concat {root : Root} (roots : s'.roots = s.roots ++ [root]) (id : RootId) :
    s'.through? id = if id = s.roots.length then root.through? else s.through? id := by
  unfold through?
  rw [roots]
  rcases Nat.lt_trichotomy id s.roots.length with inside | last | beyond
  · rw [List.getElem?_append_left inside, if_neg (Nat.ne_of_lt inside)]
  · rw [last, List.getElem?_concat_length, if_pos rfl, Option.bind_some]
  · rw [if_neg (Nat.ne_of_gt beyond), List.getElem?_eq_none (by simp; omega),
      List.getElem?_eq_none (Nat.le_of_lt beyond)]

/-- A root that is new and attached through nothing. -/
private theorem through?_loose {root : Root} (roots : s'.roots = s.roots ++ [root])
    (loose : root.through? = none) : s'.through? = s.through? := by
  funext id
  rw [through?_concat roots]
  split
  · rename_i last
    rw [loose, last]
    unfold through?
    rw [List.getElem?_eq_none (Nat.le_refl _)]
    rfl
  · rfl

/-- A root that is unmapped first and then told. -/
private theorem Mapped.detach (h : s.Mapped) {id : RootId} {root : Root} {a : Attachment}
    {segment : SegmentId} (found : s.roots[id]? = some root) (behind : root.backing = .segment a)
    (attached : a.attached = true) :
    ((s.unmapped a.mapping segment).setBacking id
      (.segment { a with attached := false })).Mapped := by
  have here : s.through? id = some (a.mapping, a.segment) := by
    simp only [through?, found, Option.bind_some, Root.through?, behind, attached, if_true]
  -- The one root that went through the mapping goes through none now.
  have through (other : RootId) :
      ((s.unmapped a.mapping segment).setBacking id
        (.segment { a with attached := false })).through? other =
          if other = id then none else s.through? other := by
    unfold through?
    simp only [setBacking, unmapped, List.getElem?_modify]
    split
    · rename_i same
      subst same
      simp [found, Root.through?]
    · rename_i apart
      simp [Ne.symm apart]
  have spared {m : MappingId} (other : m ≠ a.mapping) :
      ((s.unmapped a.mapping segment).setBacking id
        (.segment { a with attached := false })).mappings[m]? = s.mappings[m]? :=
    List.getElem?_set_ne (Ne.symm other)
  constructor
  · intro m g mapped
    by_cases other : m = a.mapping
    · subst other
      simp only [setBacking, unmapped, List.getElem?_set_self'] at mapped
      obtain ⟨_, -, dead⟩ := Option.map_eq_some_iff.mp mapped
      cases dead
    · rw [spared other] at mapped
      exact h.standing mapped
  · intro other m g attached
    rw [through] at attached
    split at attached
    · cases attached
    · rename_i apart
      have unlike : m ≠ a.mapping := by
        rintro rfl
        exact apart (h.unshared attached here)
      rw [spared unlike]
      exact h.live attached
  · intro first second m g g' one two
    rw [through] at one two
    split at one
    · cases one
    · split at two
      · cases two
      · exact h.unshared one two

/-- A root that is new, with a mapping that is as new. -/
private theorem Mapped.attach (h : s.Mapped) {root : Root} {a : Attachment}
    (behind : root.backing = .segment a) (fresh : a.mapping = s.mappings.length)
    (there : s.Standing a.segment) :
    ({ s with
      mappings := s.mappings ++ [{ segment := a.segment }]
      roots := s.roots ++ [root] } : Store).Mapped := by
  have old {m : MappingId} {g : SegmentId} (mapped : s.mappings[m]? = some ⟨g, true⟩) :
      m ≠ s.mappings.length :=
    Nat.ne_of_lt (List.getElem?_eq_some_iff.mp mapped).1
  have own {m : MappingId} {g : SegmentId} (through : root.through? = some (m, g)) :
      m = s.mappings.length ∧ g = a.segment := by
    unfold Root.through? at through
    rw [behind] at through
    simp only at through
    split at through
    · cases through
      exact ⟨fresh, rfl⟩
    · cases through
  constructor
  · intro m g mapped
    rcases concat_cases mapped with before | ⟨-, new⟩
    · exact h.standing before
    · cases new
      exact there
  · intro id m g attached
    rw [@through?_concat s _ root rfl] at attached
    split at attached
    · obtain ⟨rfl, rfl⟩ := own attached
      exact List.getElem?_concat_length
    · have before := h.live attached
      rw [List.getElem?_append_left (List.getElem?_eq_some_iff.mp before).1]
      exact before
  · intro id id' m g g' first second
    rw [@through?_concat s _ root rfl] at first second
    split at first <;> split at second
    · rename_i last last'
      exact last.trans last'.symm
    · exact absurd (own first).1 (old (h.live second))
    · exact absurd (own second).1 (old (h.live first))
    · exact h.unshared first second

theorem Change.mapped {sweeping : Prop} (change : Change True sweeping s s') (h : s.Mapped) :
    s'.Mapped := by
  have kept (mappings : s'.mappings = s.mappings) (through : s'.through? = s.through?)
      (segments : s'.segments = s.segments) : s'.Mapped :=
    h.same mappings through fun _ => .of_segments segments
  have phase {id : SegmentId} {phase : Segment.Phase} {g : SegmentId} {blocks : List Block}
      (alive : g ≠ id ∨ phase ≠ .gone) (standing : s.Standing g) :
      ({ s.setPhase id phase with blocks } : Store).Standing g := by
    obtain ⟨seg, found, there⟩ := standing
    by_cases here : id = g
    · subst here
      refine ⟨{ seg with phase }, ?_, alive.resolve_left fun other => other rfl⟩
      simp [setPhase, found]
    · exact ⟨seg, by simp [setPhase, here, found], there⟩
  cases change with
  | rewrite alike =>
      exact kept alike.mappings.symm (by unfold Store.through?; rw [alike.roots])
        alike.segments.symm
  | weaken found weakens => exact kept rfl (through?_modify found weakens.through? rfl) rfl
  | endHeap found behind =>
      refine kept rfl (through?_modify found ?_ rfl) rfl
      simp only [Root.through?, behind]
  | detach found behind attached _ => exact h.detach found behind attached
  -- Nobody takes a segment away from below its root in an orderly run.
  | unmap foreign _ => exact absurd trivial foreign
  | remove _ _ => exact h.same rfl rfl fun _ => phase (.inr fun gone => by cases gone)
  | @reclaim id g found removed unmapped =>
      refine h.same rfl rfl fun {m other} live => phase (.inl ?_)
      rintro rfl
      simp only [isMappedSomewhere, List.any_eq_false, Bool.and_eq_true, decide_eq_true_eq,
        not_and] at unmapped
      exact unmapped _ (List.mem_of_getElem? live) rfl rfl
  | letGo _ found _ => exact kept rfl (through?_modify found rfl rfl) rfl
  | letGoArray _ found _ _ => exact kept rfl (through?_modify found rfl rfl) rfl
  | addRoot _ founded =>
      cases founded with
      | own own _ _ _ =>
          refine kept rfl (through?_loose rfl ?_) rfl
          rcases own with array | heap
          · simp only [Root.through?, array]
          · simp only [Root.through?, heap]
      | wraps _ _ behind _ _ =>
          refine kept rfl (through?_loose rfl ?_) rfl
          simp only [Root.through?, behind]
      | attached found there _ _ behind fresh _ => exact h.attach behind fresh ⟨_, found, there⟩
  | addSegment _ _ _ _ =>
      refine h.same rfl rfl fun _ standing => ?_
      obtain ⟨g, found, there⟩ := standing
      refine ⟨g, ?_, there⟩
      exact (List.getElem?_append_left (List.getElem?_eq_some_iff.mp found).1).trans found
  | _ => exact kept rfl rfl rfl

theorem Changes.mapped {sweeping : Prop} (changes : Changes True sweeping s s') (h : s.Mapped) :
    s'.Mapped := by
  induction changes with
  | refl => exact h
  | tail _ change ih => exact change.mapped ih

end Store

end BoundedMemory
