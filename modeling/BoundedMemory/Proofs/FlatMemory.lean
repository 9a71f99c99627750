import BoundedMemory.Proofs.Transfer

/-!
Memory as a user may picture it: one array of bytes for each thing that has
memory, and for each root the range of an array that it lies over. Roots over one
buffer or segment lie in one array and may overlap there.

`Store.Apart` says that the blocks of a store are such arrays, each belonging to
one home. Under it, a transfer that succeeds answers what the arrays hold at the
sum of all bases, or changes them there and nowhere else.
-/

namespace BoundedMemory

/-- What memory belongs to: a root itself, a buffer or a segment. -/
inductive Home where
  | own (id : RootId)
  | buffer (id : BufferId)
  | segment (id : SegmentId)
  deriving DecidableEq, Repr

/-- Where a root lies: `length` bytes of the array of its home, from `base` on. -/
structure Ground where
  home : Home
  base : Nat
  length : Nat
  deriving DecidableEq, Repr

structure FlatMemory where
  arrays : Home → Option Bytes
  grounds : RootId → Option Ground

namespace FlatMemory

def empty : FlatMemory where
  arrays _ := none
  grounds _ := none

def put (M : FlatMemory) (home : Home) (bytes : Bytes) : FlatMemory :=
  { M with arrays := fun other => if other = home then some bytes else M.arrays other }

/-- The array under `[offset, offset + n)` of a region, with its contents, and the
place in it where the range starts: all bases added up. -/
def locate? (M : FlatMemory) (r : Region) (offset n : Nat) : Option (Home × Bytes × Nat) := do
  let ground ← M.grounds r.root
  let bytes ← M.arrays ground.home
  let address := ground.base + r.base + offset
  if r.base + offset + n ≤ ground.length ∧ address + n ≤ bytes.length then
    some (ground.home, bytes, address)
  else none

/-- Reading nothing needs no memory. -/
def read? (M : FlatMemory) (r : Region) (offset n : Nat) : Option Bytes :=
  if n = 0 then some []
  else (M.locate? r offset n).map fun (_, bytes, address) => cut bytes address n

def write? (M : FlatMemory) (r : Region) (offset : Nat) (payload : Bytes) : Option FlatMemory :=
  if payload = [] then some M
  else
    (M.locate? r offset payload.length).map fun (home, bytes, address) =>
      M.put home (splice bytes address payload)

/-- Arrays and roots may be added; nothing that is there changes. -/
structure Extends (M M' : FlatMemory) : Prop where
  arrays (home : Home) (bytes : Bytes) : M.arrays home = some bytes → M'.arrays home = some bytes
  grounds (id : RootId) (ground : Ground) :
    M.grounds id = some ground → M'.grounds id = some ground

theorem Extends.refl (M : FlatMemory) : M.Extends M where
  arrays _ _ found := found
  grounds _ _ found := found

theorem Extends.trans {M M' M'' : FlatMemory} (h : M.Extends M') (h' : M'.Extends M'') :
    M.Extends M'' where
  arrays home bytes found := h'.arrays home bytes (h.arrays home bytes found)
  grounds id ground found := h'.grounds id ground (h.grounds id ground found)

end FlatMemory

/-- The bytes that a transfer gets, and the memory after it, on flat memory. -/
def Transfer.onFlat? (x : Transfer) (r : Region) (offset : Nat) (M : FlatMemory) :
    Option (Bytes × FlatMemory) :=
  match x.direction with
  | .read => (M.read? r offset x.size).map fun bytes => (bytes, M)
  | .write => (M.write? r offset x.payload).map fun after => ([], after)

def Backing.home (backing : Backing) (id : RootId) : Home :=
  match backing with
  | .array _ | .heap _ => .own id
  | .buffer wrapped _ => .buffer wrapped
  | .segment attachment => .segment attachment.segment

def Root.ground (root : Root) (id : RootId) : Ground where
  home := root.backing.home id
  base := root.base
  length := root.length

namespace Store

/-- The block that holds the array of a home, which a buffer without an address
does not have. -/
def blockOf? (s : Store) : Home → Option BlockId
  | .own id =>
      (s.roots[id]?).bind fun root =>
        if root.backing.home id = .own id then some root.block else none
  | .buffer id => (s.buffers[id]?).bind Buffer.block
  | .segment id => (s.segments[id]?).map Segment.block

def flat (s : Store) : FlatMemory where
  arrays home := (s.blockOf? home).bind fun block => (s.blocks[block]?).map Block.bytes
  grounds id := (s.roots[id]?).map fun root => root.ground id

/-- Each home has a block of its own, and each root that has bytes has them in the
block of its home. -/
structure Apart (s : Store) : Prop where
  homed (id : RootId) (root : Root) : s.roots[id]? = some root →
    root.length = 0 ∨ s.blockOf? (root.backing.home id) = some root.block
  inside (home : Home) (block : BlockId) : s.blockOf? home = some block → block < s.blocks.length
  distinct (home other : Home) (block : BlockId) :
    s.blockOf? home = some block → s.blockOf? other = some block → home = other

theorem Apart.empty {machine : Machine} : ({ machine } : Store).Apart where
  homed id root found := by simp at found
  inside home block found := by cases home <;> simp [blockOf?] at found
  distinct home other block found := by cases home <;> simp [blockOf?] at found

theorem flat_empty {machine : Machine} : ({ machine } : Store).flat = .empty := by
  have arrays (home : Home) : ({ machine } : Store).flat.arrays home = none := by
    cases home <;> rfl
  show FlatMemory.mk _ _ = FlatMemory.mk _ _
  congr
  exact funext arrays

variable {s : Store} {id : RootId} {root : Root} {b : Block}

theorem flat_grounds (found : s.roots[id]? = some root) :
    s.flat.grounds id = some (root.ground id) := by
  simp only [flat, found, Option.map_some]

theorem Apart.arrays_of_root (h : s.Apart) (found : s.roots[id]? = some root)
    (stored : s.blocks[root.block]? = some b) (some : root.length ≠ 0) :
    s.flat.arrays (root.ground id).home = .some b.bytes := by
  have there := (h.homed id root found).resolve_left some
  simp only [flat, Root.ground, there, Option.bind_some, stored, Option.map_some]

theorem blockOf?_setBytes (block : BlockId) (bytes : Bytes) :
    (s.setBytes block b bytes).blockOf? = s.blockOf? := by
  funext home
  cases home <;> rfl

theorem Apart.setBytes (h : s.Apart) (block : BlockId) (bytes : Bytes) :
    (s.setBytes block b bytes).Apart where
  homed id root found := by
    rw [blockOf?_setBytes]
    exact h.homed id root found
  inside home block' found := by
    rw [blockOf?_setBytes] at found
    simpa [Store.setBytes] using h.inside home block' found
  distinct home other block' found found' := by
    rw [blockOf?_setBytes] at found found'
    exact h.distinct home other block' found found'

/-- Changing the block of a home changes its array and no other. -/
theorem Apart.flat_setBytes (h : s.Apart) {home : Home} {block : BlockId}
    (there : s.blockOf? home = some block) (stored : s.blocks[block]? = some b) (bytes : Bytes) :
    (s.setBytes block b bytes).flat = s.flat.put home bytes := by
  have same : (s.setBytes block b bytes).flat.arrays = (s.flat.put home bytes).arrays := by
    funext other
    simp only [flat, FlatMemory.put, blockOf?_setBytes]
    by_cases here : other = home
    · subst here
      simp only [there, Option.bind_some, getElem?_setBytes_same stored, Option.map_some, if_true]
    · simp only [here, if_false]
      cases elsewhere : s.blockOf? other with
      | none => rfl
      | some another =>
          have apart : another ≠ block := by
            rintro rfl
            exact here (h.distinct other home _ elsewhere there)
          simp only [Option.bind_some, getElem?_setBytes_other apart]
  show FlatMemory.mk _ _ = FlatMemory.mk _ _
  congr

end Store

namespace Region

variable {r : Region} {s : Store} {offset n : Nat} {root : Root} {b : Block}

/-- Memory that is reached is found at the sum of all bases. -/
theorem Reaches.locate? (reach : r.Reaches s offset n root b) (h : s.Apart) (some : n ≠ 0) :
    s.flat.locate? r offset n =
      .some ((root.ground r.root).home, b.bytes, root.base + r.base + offset) := by
  have inRoot := reach.inRoot
  have inBlock := reach.inBlock
  have long : root.length ≠ 0 := by omega
  simp only [FlatMemory.locate?, Store.flat_grounds reach.found, Option.bind_eq_bind,
    Option.bind_some, h.arrays_of_root reach.found reach.stored long]
  rw [if_pos ⟨inRoot, by simp only [Root.ground]; omega⟩]
  rfl

end Region

/-- A transfer that succeeds is one of flat memory, and leaves all homes apart. -/
theorem Transfer.run_flat {x : Transfer} {r : Region} {offset : Nat} {s s' : Store}
    {reply : Reply} (h : s.Apart) (run : x.run r offset s = .ok reply s') :
    s'.Apart ∧ ∃ bytes, x.onFlat? r offset s.flat = some (bytes, s'.flat) ∧
      reply = x.answer bytes := by
  obtain ⟨free, result⟩ := run_eq_ok_iff.mp run
  obtain ⟨-, -, list⟩ := refusal?_eq_none_iff.mp free
  unfold outcome? at result
  unfold onFlat? FlatMemory.read? FlatMemory.write?
  -- A transfer of nothing needs no place in memory, on either side.
  by_cases nothing : x.size = 0
  · simp only [nothing, if_true, Option.some.injEq, Prod.mk.injEq] at result
    obtain ⟨rfl, rfl⟩ := result
    refine ⟨h, [], ?_, rfl⟩
    cases direction : x.direction with
    | read => simp only [nothing, if_true, Option.map_some]
    | write =>
        have bare : x.payload = [] := by
          apply List.eq_nil_of_length_eq_zero
          rw [length_payload direction list, nothing]
        simp only [bare, if_true, Option.map_some]
  · simp only [nothing, if_false] at result
    cases direction : x.direction with
    | read =>
        simp only [direction, Option.map_eq_some_iff, Prod.mk.injEq] at result
        obtain ⟨bytes, present, rfl, rfl⟩ := result
        obtain ⟨root, b, reach, rfl⟩ := Region.peek?_eq_some_iff.mp present
        refine ⟨h, _, ?_, rfl⟩
        simp only [nothing, if_false, reach.locate? h nothing, Option.map_some, Nat.add_assoc]
    | write =>
        simp only [direction, Option.map_eq_some_iff, Prod.mk.injEq] at result
        obtain ⟨after, written, rfl, rfl⟩ := result
        obtain ⟨root, b, reach, rfl⟩ := Region.poke?_eq_some_iff.mp written
        have length := length_payload direction list
        have full : x.payload.length ≠ 0 := by omega
        have long : root.length ≠ 0 := by
          have := reach.inRoot
          omega
        have there := (h.homed r.root root reach.found).resolve_left long
        have bare : x.payload ≠ [] := fun empty => full (congrArg List.length empty)
        refine ⟨h.setBytes _ _, [], ?_, rfl⟩
        simp only [bare, if_false, reach.locate? h full, Option.map_some, Nat.add_assoc,
          h.flat_setBytes there reach.stored]
        rfl

end BoundedMemory
