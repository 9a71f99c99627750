import BoundedMemory.Proofs.Operation
import BoundedMemory.Region.Access

/-!
Raw access without routes. `Region.peek?` and `Region.poke?` read and write the
bytes behind a range of a region; they have a value exactly where the memory is
there (`Region.Reaches`). The four raw operations come down to these two: which
route the root takes cannot be seen.
-/

namespace BoundedMemory

namespace Store

/-- The store with other contents in one block. -/
def setBytes (s : Store) (id : BlockId) (b : Block) (bytes : Bytes) : Store :=
  { s with blocks := s.blocks.set id { b with bytes } }

theorem getElem?_setBytes_same {s : Store} {id : BlockId} {b : Block} {bytes : Bytes}
    (h : s.blocks[id]? = some b) :
    (s.setBytes id b bytes).blocks[id]? = some { b with bytes } := by
  obtain ⟨inside, -⟩ := List.getElem?_eq_some_iff.mp h
  simp [setBytes, inside]

theorem getElem?_setBytes_other {s : Store} {id other : BlockId} {b : Block} {bytes : Bytes}
    (h : other ≠ id) : (s.setBytes id b bytes).blocks[other]? = s.blocks[other]? := by
  simp [setBytes, List.getElem?_set_ne (Ne.symm h)]

theorem read?_eq_some_iff {s : Store} {id : BlockId} {start n : Nat} {bytes : Bytes} :
    s.read? id start n = some bytes ↔
      ∃ b, s.blocks[id]? = some b ∧ b.live = true ∧ start + n ≤ b.bytes.length ∧
        bytes = cut b.bytes start n := by
  unfold read?
  cases s.blocks[id]? with
  | none => simp
  | some b =>
      simp only [Option.bind_eq_bind, Option.bind_some, Option.some.injEq, exists_eq_left', cut?]
      split
      · rename_i live
        split <;> simp_all only [true_and, false_and, Option.some.injEq, reduceCtorEq]
        exact eq_comm
      · simp_all

theorem write?_eq_some_iff {s s' : Store} {id : BlockId} {start : Nat} {bytes : Bytes} :
    s.write? id start bytes = some s' ↔
      ∃ b, s.blocks[id]? = some b ∧ b.live = true ∧ start + bytes.length ≤ b.bytes.length ∧
        s' = s.setBytes id b (splice b.bytes start bytes) := by
  unfold write?
  cases s.blocks[id]? with
  | none => simp
  | some b =>
      simp only [Option.bind_eq_bind, Option.bind_some, Option.some.injEq, exists_eq_left',
        splice?, setBytes]
      split
      · rename_i live
        split <;> simp_all only [true_and, false_and, Option.bind_some, Option.bind_none,
          Option.pure_def, Option.some.injEq, reduceCtorEq]
        exact eq_comm
      · simp_all

theorem place?_eq_some_iff {s : Store} {id : RootId} {offset n start : Nat} {root : Root} :
    s.place? id offset n = some (root, start) ↔
      s.roots[id]? = some root ∧ root.isValid = true ∧ s.isMapped root = true ∧
        offset + n ≤ root.length ∧ offset + n < Word.modulus ∧
        start = root.base + offset ∧ start < Word.modulus := by
  unfold place?
  cases s.roots[id]? with
  | none => simp
  | some found =>
      simp only [Option.bind_eq_bind, Option.bind_some]
      cases stop : Word.add? offset n with
      | none =>
          have tooFar : ¬ offset + n < Word.modulus := by
            intro h
            simp [Word.add?, h] at stop
          simp [tooFar]
      | some last =>
          obtain ⟨rfl, small⟩ := Word.add?_eq_some_iff.mp stop
          cases first : Word.add? found.base offset with
          | none =>
              have tooFar : ¬ found.base + offset < Word.modulus := by
                intro h
                simp [Word.add?, h] at first
              simp only [Option.bind_some, Option.bind_none, reduceCtorEq, false_iff]
              rintro ⟨same, _, _, _, _, rfl, h⟩
              cases same
              exact tooFar h
          | some place =>
              obtain ⟨rfl, inside⟩ := Word.add?_eq_some_iff.mp first
              simp only [Option.bind_some, Bool.and_eq_true, decide_eq_true_eq]
              constructor
              · intro h
                split at h
                · rename_i ok
                  cases h
                  exact ⟨rfl, ok.1.1, ok.1.2, ok.2, small, rfl, inside⟩
                · cases h
              · rintro ⟨same, valid, mapped, fits, _, rfl, _⟩
                cases same
                rw [if_pos ⟨⟨valid, mapped⟩, fits⟩]

end Store

namespace Region

variable {t : ScalarType}

/-- The `n` bytes of a region from `offset` on, where their memory is there. -/
def peek? (r : Region) (s : Store) (offset n : Nat) : Option Bytes := do
  let inner ← Word.add? r.base offset
  let (root, start) ← s.place? r.root inner n
  s.read? root.block start n

/-- The store after `bytes` were written over a region from `offset` on. -/
def poke? (r : Region) (s : Store) (offset : Nat) (bytes : Bytes) : Option Store := do
  let inner ← Word.add? r.base offset
  let (root, start) ← s.place? r.root inner bytes.length
  s.write? root.block start bytes

/-- The memory behind `[offset, offset + n)` of a region is there: in `b`, which
belongs to `root`. -/
structure Reaches (r : Region) (s : Store) (offset n : Nat) (root : Root) (b : Block) :
    Prop where
  found : s.roots[r.root]? = some root
  stored : s.blocks[root.block]? = some b
  valid : root.isValid = true
  mapped : s.isMapped root = true
  live : b.live = true
  inRoot : r.base + offset + n ≤ root.length
  inBlock : root.base + (r.base + offset) + n ≤ b.bytes.length
  stopFits : r.base + offset + n < Word.modulus
  startFits : root.base + (r.base + offset) < Word.modulus

private theorem inner_eq_some_iff {base offset inner n : Nat}
    (h : base + offset + n < Word.modulus) :
    Word.add? base offset = some inner ↔ inner = base + offset := by
  rw [Word.add?_eq_some_iff]
  omega

theorem peek?_eq_some_iff {r : Region} {s : Store} {offset n : Nat} {bytes : Bytes} :
    r.peek? s offset n = some bytes ↔
      ∃ root b, r.Reaches s offset n root b ∧
        bytes = cut b.bytes (root.base + (r.base + offset)) n := by
  simp only [peek?, Option.bind_eq_bind, Option.bind_eq_some_iff, Prod.exists]
  constructor
  · rintro ⟨inner, sum, root, start, place, content⟩
    obtain ⟨rfl, -⟩ := Word.add?_eq_some_iff.mp sum
    obtain ⟨found, valid, mapped, inRoot, stopFits, rfl, startFits⟩ :=
      Store.place?_eq_some_iff.mp place
    obtain ⟨b, block, live, inBlock, rfl⟩ := Store.read?_eq_some_iff.mp content
    exact ⟨root, b, ⟨found, block, valid, mapped, live, inRoot, inBlock, stopFits, startFits⟩, rfl⟩
  · rintro ⟨root, b, h, rfl⟩
    refine ⟨r.base + offset, (inner_eq_some_iff h.stopFits).mpr rfl, root,
      root.base + (r.base + offset), ?_, ?_⟩
    · exact Store.place?_eq_some_iff.mpr
        ⟨h.found, h.valid, h.mapped, h.inRoot, h.stopFits, rfl, h.startFits⟩
    · exact Store.read?_eq_some_iff.mpr ⟨b, h.stored, h.live, h.inBlock, rfl⟩

theorem poke?_eq_some_iff {r : Region} {s s' : Store} {offset : Nat} {bytes : Bytes} :
    r.poke? s offset bytes = some s' ↔
      ∃ root b, r.Reaches s offset bytes.length root b ∧
        s' = s.setBytes root.block b (splice b.bytes (root.base + (r.base + offset)) bytes) := by
  simp only [poke?, Option.bind_eq_bind, Option.bind_eq_some_iff, Prod.exists]
  constructor
  · rintro ⟨inner, sum, root, start, place, written⟩
    obtain ⟨rfl, -⟩ := Word.add?_eq_some_iff.mp sum
    obtain ⟨found, valid, mapped, inRoot, stopFits, rfl, startFits⟩ :=
      Store.place?_eq_some_iff.mp place
    obtain ⟨b, block, live, inBlock, rfl⟩ := Store.write?_eq_some_iff.mp written
    exact ⟨root, b, ⟨found, block, valid, mapped, live, inRoot, inBlock, stopFits, startFits⟩, rfl⟩
  · rintro ⟨root, b, h, rfl⟩
    refine ⟨r.base + offset, (inner_eq_some_iff h.stopFits).mpr rfl, root,
      root.base + (r.base + offset), ?_, ?_⟩
    · exact Store.place?_eq_some_iff.mpr
        ⟨h.found, h.valid, h.mapped, h.inRoot, h.stopFits, rfl, h.startFits⟩
    · exact Store.write?_eq_some_iff.mpr ⟨b, h.stored, h.live, h.inBlock, rfl⟩

theorem length_of_peek? {r : Region} {s : Store} {offset n : Nat} {bytes : Bytes}
    (h : r.peek? s offset n = some bytes) : bytes.length = n := by
  obtain ⟨root, b, reach, rfl⟩ := peek?_eq_some_iff.mp h
  exact length_cut reach.inBlock

/-- What can be read can be written, and the other way round. -/
theorem poke?_eq_none_iff {r : Region} {s : Store} {offset : Nat} {bytes : Bytes} :
    r.poke? s offset bytes = none ↔ r.peek? s offset bytes.length = none := by
  simp only [Option.eq_none_iff_forall_ne_some, ne_eq, poke?_eq_some_iff, peek?_eq_some_iff,
    not_exists, not_and]
  constructor
  · intro h content root b reach _
    exact h _ root b reach rfl
  · intro h after root b reach _
    exact h _ root b reach rfl

theorem fetch_run (r : Region) (offset n : Nat) (s : Store) :
    (∃ route bytes, r.peek? s offset n = some bytes ∧
        r.fetch offset n s = .ok (route, bytes) s) ∨
      (r.peek? s offset n = none ∧ r.fetch offset n s = .error .trap s) := by
  unfold fetch peek?
  simp only [Operation.bind_run, Operation.get_run]
  cases Word.add? r.base offset with
  | none => simp
  | some inner =>
      simp only [Operation.some_run, Option.bind_eq_bind, Option.bind_some]
      cases s.place? r.root inner n with
      | none => simp
      | some place =>
          simp only [Operation.some_run, Option.bind_some]
          cases s.read? place.1.block place.2 n with
          | none => simp
          | some bytes => simp

theorem replace_run (r : Region) (offset : Nat) (bytes : Bytes) (s : Store) :
    r.replace offset bytes s = match r.poke? s offset bytes with
      | some after => .ok () after
      | none => .error .trap s := by
  unfold replace poke?
  simp only [Operation.bind_run, Operation.get_run]
  cases Word.add? r.base offset with
  | none => simp
  | some inner =>
      simp only [Operation.some_run, Option.bind_eq_bind, Option.bind_some]
      cases s.place? r.root inner bytes.length with
      | none => simp
      | some place =>
          simp only [Operation.some_run, Option.bind_some]
          cases s.write? place.1.block place.2 bytes with
          | none => simp
          | some after => simp

end Region

end BoundedMemory
