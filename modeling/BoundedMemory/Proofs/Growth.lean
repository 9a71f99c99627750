import BoundedMemory.Proofs.Keeping

/-!
How memory comes to be. A new block becomes the array of exactly one home, that
of the root, buffer or segment that is made with it; a root over a buffer or
segment lies in an array that is there. Either way nothing that was there before
changes, also where what was begun cannot be finished.
-/

namespace BoundedMemory

namespace FlatMemory

variable {M : FlatMemory}

def add (M : FlatMemory) (id : RootId) (ground : Ground) : FlatMemory :=
  { M with grounds := fun other => if other = id then some ground else M.grounds other }

@[simp] theorem put_put (M : FlatMemory) (home : Home) (before after : Bytes) :
    (M.put home before).put home after = M.put home after := by
  unfold put
  congr
  funext other
  by_cases here : other = home
  · simp only [here, if_true]
  · simp only [here, if_false]

theorem extends_put {home : Home} (new : M.arrays home = none) (bytes : Bytes) :
    M.Extends (M.put home bytes) where
  arrays other found there := by
    have old : other ≠ home := by
      rintro rfl
      rw [new] at there
      cases there
    simp only [put, old, if_false, there]
  grounds _ _ there := there

theorem extends_add {id : RootId} (new : M.grounds id = none) (ground : Ground) :
    M.Extends (M.add id ground) where
  arrays _ _ there := there
  grounds other found there := by
    have old : other ≠ id := by
      rintro rfl
      rw [new] at there
      cases there
    simp only [add, old, if_false, there]

end FlatMemory

section Lists

variable {α : Type} {xs : List α} {x : α} {i : Nat}

theorem getElem?_concat_other (h : i ≠ xs.length) : (xs ++ [x])[i]? = xs[i]? := by
  rcases Nat.lt_or_ge i xs.length with inside | outside
  · exact List.getElem?_append_left inside
  · rw [List.getElem?_eq_none outside, List.getElem?_eq_none (by simp; omega)]

private theorem getElem?_concat (xs : List α) (x : α) (i : Nat) :
    (xs ++ [x])[i]? = if i = xs.length then some x else xs[i]? := by
  by_cases last : i = xs.length
  · simp only [last, if_true, List.getElem?_concat_length]
  · simp only [last, if_false, getElem?_concat_other last]

end Lists

namespace Store

/-- A change under which all homes stay apart and what is there stays as it is. -/
structure Grows (s s' : Store) : Prop where
  apart : s'.Apart
  wider : s.flat.Extends s'.flat

variable {s s' : Store}

theorem Apart.grows (h : s.Apart) : s.Grows s := ⟨h, .refl _⟩

theorem Keeps.grows (h : s.Keeps s') (apart : s.Apart) : s.Grows s' where
  apart := h.apart apart
  wider := by
    rw [h.flat]
    exact .refl _

/-- A block that is new and was given to one home, of which there was nothing before. -/
private theorem Apart.opens {bytes : Bytes} {home : Home} (h : s.Apart)
    (blocks : s'.blocks = s.blocks ++ [{ bytes := bytes }]) (new : s.blockOf? home = none)
    (here : s'.blockOf? home = some s.blocks.length)
    (elsewhere : ∀ other, other ≠ home → s'.blockOf? other = s.blockOf? other)
    (roots : ∀ (id : RootId) (root : Root), s'.roots[id]? = some root → s.roots[id]? = some root ∨
      root.backing.home id = home ∧ root.block = s.blocks.length) :
    s'.Apart ∧ s'.flat.arrays = (s.flat.put home bytes).arrays := by
  have old (other : Home) (block : BlockId) (found : s'.blockOf? other = some block)
      (ne : other ≠ home) : s.blockOf? other = some block ∧ block < s.blocks.length := by
    rw [elsewhere other ne] at found
    exact ⟨found, h.inside other block found⟩
  -- An old home keeps its block, which is not the new one: that comes after all others.
  refine ⟨⟨?_, ?_, ?_⟩, ?_⟩
  · intro id root found
    rcases roots id root found with before | ⟨made, block⟩
    · rcases h.homed id root before with bare | there
      · exact .inl bare
      · right
        rw [elsewhere _ ?_, there]
        rintro same
        rw [same, new] at there
        cases there
    · right
      rw [made, block, here]
  · intro other block found
    simp only [blocks, List.length_append, List.length_singleton]
    by_cases same : other = home
    · rw [same, here, Option.some.injEq] at found
      rw [← found]
      exact Nat.lt_succ_self _
    · exact Nat.lt_succ_of_lt (old other block found same).2
  · intro other another block found found'
    by_cases same : other = home <;> by_cases same' : another = home
    · rw [same, same']
    · rw [same, here, Option.some.injEq] at found
      exact absurd found.symm (Nat.ne_of_lt (old another block found' same').2)
    · rw [same', here, Option.some.injEq] at found'
      exact absurd found'.symm (Nat.ne_of_lt (old other block found same).2)
    · exact h.distinct other another block (old other block found same).1
        (old another block found' same').1
  · funext other
    simp only [flat, FlatMemory.put, blocks]
    by_cases same : other = home
    · subst same
      simp only [here, Option.bind_some, List.getElem?_concat_length, Option.map_some, if_true]
    · simp only [elsewhere other same, same, if_false]
      cases found : s.blockOf? other with
      | none => rfl
      | some block =>
          have inside := h.inside other block found
          simp only [Option.bind_some, getElem?_concat_other (Nat.ne_of_lt inside)]

theorem Apart.addBlock (h : s.Apart) (b : Block) :
    ({ s with blocks := s.blocks ++ [b] } : Store).Apart ∧
      ({ s with blocks := s.blocks ++ [b] } : Store).flat = s.flat := by
  have same : ({ s with blocks := s.blocks ++ [b] } : Store).blockOf? = s.blockOf? := by
    funext home
    cases home <;> rfl
  refine ⟨⟨?_, ?_, ?_⟩, ?_⟩
  · rw [same]
    exact h.homed
  · intro home block found
    rw [same] at found
    simp only [List.length_append, List.length_singleton]
    exact Nat.lt_succ_of_lt (h.inside home block found)
  · rw [same]
    exact h.distinct
  · have arrays : ({ s with blocks := s.blocks ++ [b] } : Store).flat.arrays = s.flat.arrays := by
      funext home
      simp only [flat, same]
      cases found : s.blockOf? home with
      | none => rfl
      | some block =>
          have inside := h.inside home block found
          simp only [Option.bind_some, getElem?_concat_other (Nat.ne_of_lt inside)]
    show FlatMemory.mk _ _ = FlatMemory.mk _ _
    congr

private theorem flat_grounds_concat (root : Root) :
    (fun id => ((s.roots ++ [root])[id]?).map fun root => root.ground id) =
      (s.flat.add s.roots.length (root.ground s.roots.length)).grounds := by
  funext id
  simp only [flat, FlatMemory.add, getElem?_concat]
  by_cases last : id = s.roots.length
  · simp only [last, if_true, Option.map_some]
  · simp only [last, if_false]

/-- A root of its own, with its block. -/
theorem Apart.addOwn (h : s.Apart) (bytes : Bytes) (root : Root)
    (own : root.backing.home s.roots.length = .own s.roots.length)
    (block : root.block = s.blocks.length) :
    let s' : Store :=
      { s with blocks := s.blocks ++ [{ bytes := bytes }], roots := s.roots ++ [root] }
    s'.Apart ∧ s'.flat = (s.flat.put (.own s.roots.length) bytes).add s.roots.length
      (root.ground s.roots.length) := by
  intro s'
  have new : s.blockOf? (.own s.roots.length) = none := by
    simp only [blockOf?, List.getElem?_eq_none (Nat.le_refl _), Option.bind_none]
  have here : s'.blockOf? (.own s.roots.length) = some s.blocks.length := by
    simp only [s', blockOf?, List.getElem?_concat_length, Option.bind_some, own, if_true, block]
  have elsewhere (other : Home) (ne : other ≠ .own s.roots.length) :
      s'.blockOf? other = s.blockOf? other := by
    cases other with
    | own id =>
        have old : id ≠ s.roots.length := fun same => ne (congrArg Home.own same)
        simp only [s', blockOf?, getElem?_concat_other old]
    | _ => rfl
  have roots (id : RootId) (found : Root) (there : s'.roots[id]? = some found) :
      s.roots[id]? = some found ∨
        found.backing.home id = .own s.roots.length ∧ found.block = s.blocks.length := by
    simp only [s', getElem?_concat] at there
    by_cases last : id = s.roots.length
    · simp only [last, if_true, Option.some.injEq] at there
      subst there last
      exact .inr ⟨own, block⟩
    · simp only [last, if_false] at there
      exact .inl there
  obtain ⟨apart, arrays⟩ := h.opens rfl new here elsewhere roots
  refine ⟨apart, ?_⟩
  have grounds := flat_grounds_concat (s := s) root
  show FlatMemory.mk _ _ = FlatMemory.mk _ _
  congr

/-- A root over what has a home, which it shares from now on. -/
theorem Apart.addShared (h : s.Apart) (root : Root)
    (shared : root.backing.home s.roots.length ≠ .own s.roots.length)
    (there : root.length = 0 ∨
      s.blockOf? (root.backing.home s.roots.length) = some root.block) :
    let s' : Store := { s with roots := s.roots ++ [root] }
    s'.Apart ∧ s'.flat = s.flat.add s.roots.length (root.ground s.roots.length) := by
  intro s'
  have same : s'.blockOf? = s.blockOf? := by
    funext home
    cases home with
    | own id =>
        simp only [s', blockOf?, getElem?_concat]
        by_cases last : id = s.roots.length
        · subst last
          simp only [if_true, Option.bind_some, shared, if_false,
            List.getElem?_eq_none (Nat.le_refl _), Option.bind_none]
        · simp only [last, if_false]
    | _ => rfl
  have apart : s'.Apart := by
    refine ⟨?_, ?_, ?_⟩
    · intro id found at_id
      rw [same]
      simp only [s', getElem?_concat] at at_id
      by_cases last : id = s.roots.length
      · simp only [last, if_true, Option.some.injEq] at at_id
        subst at_id last
        exact there
      · simp only [last, if_false] at at_id
        exact h.homed id found at_id
    · rw [same]
      exact h.inside
    · rw [same]
      exact h.distinct
  refine ⟨apart, ?_⟩
  have arrays : s'.flat.arrays = s.flat.arrays := by
    funext home
    simp only [flat, same]
    rfl
  have grounds := flat_grounds_concat (s := s) root
  show FlatMemory.mk _ _ = FlatMemory.mk _ _
  congr

theorem Apart.addBuffer (h : s.Apart) (bytes : Bytes) {b : Buffer}
    (block : b.block = some s.blocks.length) :
    let s' : Store := { s with
      blocks := s.blocks ++ [{ bytes := bytes }]
      buffers := s.buffers ++ [b] }
    s'.Apart ∧ s'.flat = s.flat.put (.buffer s.buffers.length) bytes := by
  intro s'
  have new : s.blockOf? (.buffer s.buffers.length) = none := by
    simp only [blockOf?, List.getElem?_eq_none (Nat.le_refl _), Option.bind_none]
  have here : s'.blockOf? (.buffer s.buffers.length) = some s.blocks.length := by
    simp only [s', blockOf?, List.getElem?_concat_length, Option.bind_some, block]
  have elsewhere (other : Home) (ne : other ≠ .buffer s.buffers.length) :
      s'.blockOf? other = s.blockOf? other := by
    cases other with
    | buffer id =>
        have old : id ≠ s.buffers.length := fun same => ne (congrArg Home.buffer same)
        simp only [s', blockOf?, getElem?_concat_other old]
    | _ => rfl
  obtain ⟨apart, arrays⟩ := h.opens rfl new here elsewhere fun _ _ found => .inl found
  refine ⟨apart, ?_⟩
  show FlatMemory.mk _ _ = FlatMemory.mk _ _
  congr

theorem Apart.addNullBuffer (h : s.Apart) {b : Buffer} (block : b.block = none) :
    let s' : Store := { s with buffers := s.buffers ++ [b] }
    s'.Apart ∧ s'.flat = s.flat := by
  intro s'
  have same : s'.blockOf? = s.blockOf? := by
    funext home
    cases home with
    | buffer id =>
        simp only [s', blockOf?, getElem?_concat]
        by_cases last : id = s.buffers.length
        · subst last
          simp only [if_true, Option.bind_some, block, List.getElem?_eq_none (Nat.le_refl _),
            Option.bind_none]
        · simp only [last, if_false]
    | _ => rfl
  refine ⟨⟨?_, ?_, ?_⟩, ?_⟩
  · rw [same]
    exact h.homed
  · rw [same]
    exact h.inside
  · rw [same]
    exact h.distinct
  · show FlatMemory.mk _ _ = FlatMemory.mk _ _
    simp only [same]
    rfl

theorem Apart.addSegment (h : s.Apart) (bytes : Bytes) {g : Segment}
    (block : g.block = s.blocks.length) :
    let s' : Store := { s with
      blocks := s.blocks ++ [{ bytes := bytes }]
      segments := s.segments ++ [g] }
    s'.Apart ∧ s'.flat = s.flat.put (.segment s.segments.length) bytes := by
  intro s'
  have new : s.blockOf? (.segment s.segments.length) = none := by
    simp only [blockOf?, List.getElem?_eq_none (Nat.le_refl _), Option.map_none]
  have here : s'.blockOf? (.segment s.segments.length) = some s.blocks.length := by
    simp only [s', blockOf?, List.getElem?_concat_length, Option.map_some, block]
  have elsewhere (other : Home) (ne : other ≠ .segment s.segments.length) :
      s'.blockOf? other = s.blockOf? other := by
    cases other with
    | segment id =>
        have old : id ≠ s.segments.length := fun same => ne (congrArg Home.segment same)
        simp only [s', blockOf?, getElem?_concat_other old]
    | _ => rfl
  obtain ⟨apart, arrays⟩ := h.opens rfl new here elsewhere fun _ _ found => .inl found
  refine ⟨apart, ?_⟩
  show FlatMemory.mk _ _ = FlatMemory.mk _ _
  congr

/-- A segment that is not there yet has no array. -/
theorem array_of_new (s : Store) : s.flat.arrays (.segment s.segments.length) = none := by
  simp only [flat, blockOf?, List.getElem?_eq_none (Nat.le_refl _), Option.map_none,
    Option.bind_none]

/-- The store with a segment more, all zero unless there is no room for it yet. -/
def withSegment (key : SegmentKey) (size : Nat) (flags : SegmentFlags) (s : Store) : Store :=
  { s with
    blocks := s.blocks ++
      [{ bytes := if s.machine.hasRoom size then List.replicate size 0 else [] }]
    segments := s.segments ++ [{ key, size, mode := flags &&& 0o777, block := s.blocks.length }] }

theorem withSegment_new (key : SegmentKey) (size : Nat) (flags : SegmentFlags) (s : Store) :
    (s.withSegment key size flags).segments[s.segments.length]? =
      some { key, size, mode := flags &&& 0o777, block := s.blocks.length } :=
  List.getElem?_concat_length

theorem Apart.withSegment (h : s.Apart) (key : SegmentKey) (size : Nat) (flags : SegmentFlags) :
    (s.withSegment key size flags).Apart ∧ (s.withSegment key size flags).flat =
      s.flat.put (.segment s.segments.length)
        (if s.machine.hasRoom size then List.replicate size 0 else []) :=
  h.addSegment _ rfl

/-- Making a segment fails before anything is taken. -/
theorem newSegment_cases (key : SegmentKey) (size : Nat) (flags : SegmentFlags) (s : Store) :
    (∃ e, newSegment key size flags s = .error e s) ∨ size ≠ 0 ∧ size < segmentLimit ∧
      newSegment key size flags s = .ok s.segments.length (s.withSegment key size flags) := by
  unfold newSegment
  by_cases impossible : size = 0 ∨ segmentLimit ≤ size
  · simp only [impossible, if_true]
    exact .inl ⟨_, rfl⟩
  · by_cases huge : flags.has SegmentFlags.hugePages = true
    · simp only [impossible, huge, if_true, if_false]
      exact .inl ⟨_, rfl⟩
    · by_cases tooLarge : (!flags.has SegmentFlags.noReserve && !s.machine.hasRoom size) = true
      · simp only [impossible, huge, if_false, Bool.false_eq_true, Operation.bind_run,
          Operation.get_run, tooLarge, if_true]
        exact .inl ⟨_, rfl⟩
      · simp only [impossible, huge, if_false, Bool.false_eq_true, Operation.bind_run,
          Operation.get_run, tooLarge]
        exact .inr ⟨fun none => impossible (.inl none),
          Nat.not_le.mp fun beyond => impossible (.inr beyond), rfl⟩

/-- A segment that is found has the key and is as large as was asked for, and one is made
only where the key names none. -/
theorem findSegment_cases (key : SegmentKey) (size : Nat) (flags : SegmentFlags) (s : Store) :
    (∃ e, findSegment key size flags s = .error e s) ∨
      (∃ id g, s.segmentOf? key = some id ∧ s.segments[id]? = some g ∧ size ≤ g.size ∧
        findSegment key size flags s = .ok id s) ∨
      s.segmentOf? key = none ∧ (key = .anonymous ∨ flags.has SegmentFlags.create = true) ∧
        findSegment key size flags s = newSegment key size flags s := by
  unfold findSegment
  simp only [Operation.bind_run, Operation.get_run]
  cases s.segmentOf? key with
  | none =>
      simp only
      split
      · rename_i wanted
        exact .inr (.inr ⟨trivial, wanted, rfl⟩)
      · exact .inl ⟨_, rfl⟩
  | some id =>
      simp only
      by_cases exclusive :
          (flags.has SegmentFlags.create && flags.has SegmentFlags.exclusive) = true
      · simp only [exclusive, if_true]
        exact .inl ⟨_, rfl⟩
      · simp only [exclusive, if_false, Bool.false_eq_true]
        cases found : s.segments[id]? with
        | none => exact .inl ⟨_, rfl⟩
        | some g =>
            simp only
            by_cases small : g.size < size
            · simp only [small, if_true]
              exact .inl ⟨_, rfl⟩
            · by_cases denied : (!g.mode.permits flags) = true
              · simp only [small, denied, if_true, if_false]
                exact .inl ⟨_, rfl⟩
              · simp only [small, denied, if_false, Bool.false_eq_true]
                exact .inr (.inl ⟨id, g, rfl, found, Nat.le_of_not_lt small, rfl⟩)

theorem mapSegment_cases (id : SegmentId) (s : Store) :
    (∃ e, mapSegment id s = .error e s) ∨
      ∃ g, s.segments[id]? = some g ∧ g.phase ≠ .gone ∧ s.machine.hasRoom g.size = true ∧
        mapSegment id s = .ok s.mappings.length
          { s with mappings := s.mappings ++ [{ segment := id }] } := by
  unfold mapSegment
  simp only [Operation.bind_run, Operation.get_run]
  cases s.segments[id]? with
  | none => exact .inl ⟨_, rfl⟩
  | some g =>
      simp only
      by_cases gone : g.phase = .gone
      · simp only [gone, if_true]
        exact .inl ⟨_, rfl⟩
      · by_cases denied : (!g.mode.permits SegmentFlags.ownerAccess) = true
        · simp only [gone, denied, if_true, if_false]
          exact .inl ⟨_, rfl⟩
        · by_cases room : s.machine.hasRoom g.size = true
          · simp only [gone, denied, room, Bool.not_true, if_false, Bool.false_eq_true]
            exact .inr ⟨g, rfl, gone, room, rfl⟩
          · simp only [gone, denied, room, Bool.not_false, if_true, if_false, Bool.false_eq_true]
            exact .inl ⟨_, rfl⟩

end Store

end BoundedMemory
