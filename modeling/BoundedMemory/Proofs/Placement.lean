import BoundedMemory.Proofs.Changes

/-!
Where things lie. Each root lies inside of its block, a buffer and a segment that can be
mapped have blocks of their own size, and every block has fewer bytes than the machine
has words. Blocks never shrink or grow, so this holds in every orderly run.
-/

namespace BoundedMemory

namespace Store

/-- How many bytes there are in a block. -/
def sizeOf? (s : Store) (id : BlockId) : Option Nat :=
  (s.blocks[id]?).map fun b => b.bytes.length

structure Placed (s : Store) : Prop where
  words {id : BlockId} {n : Nat} : s.sizeOf? id = some n → n < Word.modulus
  roots {id : RootId} {root : Root} : s.roots[id]? = some root →
    ∃ n, s.sizeOf? root.block = some n ∧ root.base + root.length ≤ n
  buffers {id : BufferId} {b : Buffer} {block : BlockId} : s.buffers[id]? = some b →
    b.block = some block → s.sizeOf? block = some b.length
  segments {id : SegmentId} {g : Segment} : s.segments[id]? = some g →
    s.machine.hasRoom g.size = true → s.sizeOf? g.block = some g.size

theorem Placed.empty {machine : Machine} : ({ machine } : Store).Placed where
  words size := by cases size
  roots found := by cases found
  buffers found := by cases found
  segments found := by cases found

variable {sweeping : Prop} {s s' : Store}

/-- Blocks stay as they are in size, and those that are new are not too large. -/
structure Lengthens (s s' : Store) : Prop where
  kept {id : BlockId} {n : Nat} : s.sizeOf? id = some n → s'.sizeOf? id = some n
  words {id : BlockId} {n : Nat} :
    s'.sizeOf? id = some n → s.sizeOf? id = some n ∨ n < Word.modulus

private theorem Lengthens.of_same (same : ∀ id, s'.sizeOf? id = s.sizeOf? id) : s.Lengthens s' where
  kept {id _} size := (same id).trans size
  words {id _} size := .inl ((same id).symm.trans size)

private theorem sizeOf?_newest {bytes : Bytes}
    (more : s'.blocks = s.blocks ++ [{ bytes := bytes }]) :
    s'.sizeOf? s.blocks.length = some bytes.length := by
  simp [sizeOf?, more]

private theorem Lengthens.of_concat {bytes : Bytes}
    (more : s'.blocks = s.blocks ++ [{ bytes := bytes }]) (short : bytes.length < Word.modulus) :
    s.Lengthens s' := by
  constructor
  · intro id n size
    obtain ⟨b, stored, rfl⟩ := Option.map_eq_some_iff.mp size
    unfold sizeOf?
    rw [more, List.getElem?_append_left (List.getElem?_eq_some_iff.mp stored).1, stored]
    rfl
  · intro id n size
    by_cases inside : id < s.blocks.length
    · left
      unfold sizeOf? at size ⊢
      rwa [more, List.getElem?_append_left inside] at size
    · right
      obtain ⟨b, stored, rfl⟩ := Option.map_eq_some_iff.mp size
      rw [more, List.getElem?_append_right (Nat.not_lt.mp inside),
        List.getElem?_singleton] at stored
      split at stored
      · cases stored
        exact short
      · cases stored

theorem sizeOf?_freeBlock (block id : BlockId) : (s.freeBlock block).sizeOf? id = s.sizeOf? id := by
  unfold sizeOf? freeBlock
  rw [List.getElem?_modify]
  cases s.blocks[id]? with
  | none => rfl
  | some b =>
      simp only [Option.map_eq_map, Option.map_some]
      split <;> rfl

theorem Resembles.sizeOf? (alike : s.Resembles s') (id : BlockId) :
    s'.sizeOf? id = s.sizeOf? id := by
  have same := congrArg (·[id]?) alike.blocks
  simp only [List.getElem?_map] at same
  unfold Store.sizeOf?
  cases stored : s.blocks[id]? with
  | none =>
      cases stored' : s'.blocks[id]? with
      | none => rfl
      | some b' => simp [stored, stored'] at same
  | some b =>
      obtain ⟨b', stored', length, -⟩ := alike.block stored
      rw [stored', Option.map_some, Option.map_some, length]

theorem Change.lengthens (change : Change True sweeping s s') : s.Lengthens s' := by
  cases change with
  | rewrite alike => exact .of_same alike.sizeOf?
  | endHeap _ _ => exact .of_same (sizeOf?_freeBlock _)
  | reclaim _ _ _ => exact .of_same (sizeOf?_freeBlock _)
  | letGoArray _ _ _ _ => exact .of_same (sizeOf?_freeBlock _)
  | endBuffer _ _ _ _ => exact .of_same (sizeOf?_freeBlock _)
  | addNothing => exact .of_concat rfl (by decide)
  | addBuffer _ _ _ short => exact .of_concat rfl short
  | addSegment _ _ _ short => exact .of_concat rfl short
  | addRoot _ founded =>
      cases founded with
      | own _ _ _ short => exact .of_concat rfl (short trivial)
      | wraps _ _ _ _ _ => exact .of_same fun _ => rfl
      | attached _ _ _ _ _ _ _ => exact .of_same fun _ => rfl
  | _ => exact .of_same fun _ => rfl

section Tables

variable {α : Type} {xs : List α} {x y : α} {f : α → α} {i j : Nat}

theorem modify_cases (found : (xs.modify i f)[j]? = some y) :
    xs[j]? = some y ∨ ∃ x, xs[j]? = some x ∧ y = f x := by
  rw [List.getElem?_modify] at found
  obtain ⟨x, there, rfl⟩ := Option.map_eq_some_iff.mp found
  by_cases here : i = j
  · exact .inr ⟨x, there, if_pos here⟩
  · exact .inl (by simp only [here, if_false, there])

theorem concat_cases (found : (xs ++ [x])[j]? = some y) :
    xs[j]? = some y ∨ j = xs.length ∧ y = x := by
  by_cases inside : j < xs.length
  · exact .inl (List.getElem?_append_left inside ▸ found)
  · rw [List.getElem?_append_right (Nat.not_lt.mp inside), List.getElem?_singleton] at found
    split at found
    · cases found
      exact .inr ⟨by omega, rfl⟩
    · cases found

end Tables

/-- Buffers stay where they are, and a new one has a block of its size. -/
theorem Change.buffer_cases (change : Change True sweeping s s') {id : BufferId} {b' : Buffer}
    (found' : s'.buffers[id]? = some b') :
    (∃ b, s.buffers[id]? = some b ∧ b'.block = b.block ∧ b'.length = b.length) ∨
      ∀ block, b'.block = some block → s'.sizeOf? block = some b'.length := by
  have ended {f : Buffer → Buffer} {other : BufferId}
      (same : s'.buffers = s.buffers.modify other f)
      (still : ∀ b, (f b).block = b.block ∧ (f b).length = b.length) :
      ∃ b, s.buffers[id]? = some b ∧ b'.block = b.block ∧ b'.length = b.length := by
    rw [same] at found'
    rcases modify_cases found' with found | ⟨b, found, rfl⟩
    · exact ⟨b', found, rfl, rfl⟩
    · exact ⟨b, found, (still b).1, (still b).2⟩
  cases change with
  | rewrite alike => exact .inl ⟨b', alike.buffers ▸ found', rfl, rfl⟩
  | endNullBuffer _ _ _ => exact .inl (ended rfl fun _ => ⟨rfl, rfl⟩)
  | endBuffer _ _ _ _ => exact .inl (ended rfl fun _ => ⟨rfl, rfl⟩)
  | addBuffer block _ length _ =>
      rcases concat_cases found' with found | ⟨-, rfl⟩
      · exact .inl ⟨b', found, rfl, rfl⟩
      · right
        intro block' has
        rw [block, Option.some.injEq] at has
        rw [← has, length]
        exact sizeOf?_newest rfl
  | addNullBuffer bare _ =>
      rcases concat_cases found' with found | ⟨-, rfl⟩
      · exact .inl ⟨b', found, rfl, rfl⟩
      · right
        intro block' has
        rw [bare] at has
        cases has
  | addRoot _ founded => cases founded <;> exact .inl ⟨b', found', rfl, rfl⟩
  | _ => exact .inl ⟨b', found', rfl, rfl⟩

/-- Segments stay where they are, and a new one that can be mapped has a block of its size. -/
theorem Change.segment_cases (change : Change True sweeping s s') {id : SegmentId} {g' : Segment}
    (found' : s'.segments[id]? = some g') :
    (∃ g, s.segments[id]? = some g ∧ g'.block = g.block ∧ g'.size = g.size) ∨
      (s.machine.hasRoom g'.size = true → s'.sizeOf? g'.block = some g'.size) := by
  have moved {f : Segment → Segment} {other : SegmentId}
      (same : s'.segments = s.segments.modify other f)
      (still : ∀ g, (f g).block = g.block ∧ (f g).size = g.size) :
      ∃ g, s.segments[id]? = some g ∧ g'.block = g.block ∧ g'.size = g.size := by
    rw [same] at found'
    rcases modify_cases found' with found | ⟨g, found, rfl⟩
    · exact ⟨g', found, rfl, rfl⟩
    · exact ⟨g, found, (still g).1, (still g).2⟩
  cases change with
  | rewrite alike => exact .inl ⟨g', alike.segments ▸ found', rfl, rfl⟩
  | remove _ _ => exact .inl (moved rfl fun _ => ⟨rfl, rfl⟩)
  | reclaim _ _ _ => exact .inl (moved rfl fun _ => ⟨rfl, rfl⟩)
  | addSegment block _ filled _ =>
      rcases concat_cases found' with found | ⟨-, rfl⟩
      · exact .inl ⟨g', found, rfl, rfl⟩
      · right
        intro room
        rw [block, ← filled room]
        exact sizeOf?_newest rfl
  | addRoot _ founded => cases founded <;> exact .inl ⟨g', found', rfl, rfl⟩
  | _ => exact .inl ⟨g', found', rfl, rfl⟩

/-- A new root lies inside of what it was founded on. -/
theorem Placed.founded (h : s.Placed) {root : Root} (founded : root.Founded True s s') :
    ∃ n, s'.sizeOf? root.block = some n ∧ root.base + root.length ≤ n := by
  cases founded with
  | own _ block fits _ =>
      rw [block]
      exact ⟨_, sizeOf?_newest rfl, fits⟩
  | wraps found _ _ fits there =>
      rcases there with has | ⟨empty, inside⟩
      · exact ⟨_, h.buffers found has, fits⟩
      · refine ⟨s.blocks[root.block].bytes.length, ?_, by omega⟩
        simp only [sizeOf?, List.getElem?_eq_getElem inside, Option.map_some]
  | attached found _ room fits _ _ block =>
      rw [block]
      exact ⟨_, h.segments found room, fits⟩

theorem Change.placed (change : Change True sweeping s s') (h : s.Placed) : s'.Placed := by
  have lengthens := change.lengthens
  constructor
  · intro id n size
    rcases lengthens.words size with before | short
    · exact h.words before
    · exact short
  · intro id root' found'
    cases found : s.roots[id]? with
    | none => exact h.founded (change.founded found found').2
    | some root =>
        obtain ⟨_, same, later⟩ := change.later found
        rw [found', Option.some.injEq] at same
        subst same
        obtain ⟨n, size, fits⟩ := h.roots found
        rw [later.block, later.base, later.length]
        exact ⟨n, lengthens.kept size, fits⟩
  · intro id b' block found' has
    rcases change.buffer_cases found' with ⟨b, found, same, length⟩ | new
    · rw [length]
      exact lengthens.kept (h.buffers found (same ▸ has))
    · exact new block has
  · intro id g' found' room
    rw [change.machine] at room
    rcases change.segment_cases found' with ⟨g, found, block, size⟩ | new
    · rw [block, size]
      exact lengthens.kept (h.segments found (size ▸ room))
    · exact new room

theorem Changes.placed (changes : Changes True sweeping s s') (h : s.Placed) : s'.Placed := by
  induction changes with
  | refl => exact h
  | tail _ change ih => exact change.placed ih

end Store

end BoundedMemory
