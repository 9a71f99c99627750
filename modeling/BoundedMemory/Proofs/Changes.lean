import BoundedMemory.Proofs.Attachments
import BoundedMemory.Proofs.Growth
import BoundedMemory.Proofs.Resemblance
import BoundedMemory.Proofs.RootContents

/-!
All that can happen to a store, as a few elementary changes. Memory is written over;
a root is ended, and what it has alone is given back; segments are unmapped, removed
and given back; things that are new are added. Whatever holds of each of these holds
of every run, since every command comes down to them.

Two kinds of change happen at certain times only. A root or buffer is let go of in a
sweep, and a mapping is taken from below its root only in runs that are not orderly.
-/

namespace BoundedMemory

/-- A backing that has come to its end, or closer to it, with nothing given back. -/
inductive Backing.Weakens : Backing → Backing → Prop where
  | array {valid : Bool} : Weakens (.array valid) (.array false)
  | buffer {id : BufferId} {valid : Bool} : Weakens (.buffer id valid) (.buffer id false)
  | segment {a : Attachment} {released removed : Bool} :
      Weakens (.segment a) (.segment { a with released, removed })

theorem Backing.Weakens.home {backing backing' : Backing} (h : backing.Weakens backing')
    (id : RootId) : backing'.home id = backing.home id := by
  cases h <;> rfl

theorem Backing.Weakens.variant {backing backing' : Backing} (h : backing.Weakens backing') :
    backing'.variant = backing.variant := by
  cases h <;> rfl

theorem Backing.Weakens.isValid {root : Root} {backing : Backing}
    (h : root.backing.Weakens backing) (valid : ({ root with backing } : Root).isValid = true) :
    root.isValid = true := by
  unfold Root.isValid at valid ⊢
  generalize root.backing = before at h
  cases h with
  | array => cases valid
  | buffer => cases valid
  | segment => exact valid

/-- What a root that is new lies over: a block that is as new, a buffer, or a segment that
is mapped for it. -/
inductive Root.Founded (orderly : Prop) (root : Root) (s : Store) : Store → Prop where
  | own {bytes : Bytes} (own : root.backing = .array true ∨ root.backing = .heap true)
      (block : root.block = s.blocks.length) (fits : root.base + root.length ≤ bytes.length)
      (short : orderly → bytes.length < Word.modulus) :
      Founded orderly root s
        { s with blocks := s.blocks ++ [{ bytes := bytes }], roots := s.roots ++ [root] }
  | wraps {id : BufferId} {b : Buffer} (found : s.buffers[id]? = some b) (alive : b.alive = true)
      (behind : root.backing = .buffer id true) (fits : root.base + root.length ≤ b.length)
      (there : b.block = some root.block ∨ b.length = 0 ∧ root.block < s.blocks.length) :
      Founded orderly root s { s with roots := s.roots ++ [root] }
  | attached {a : Attachment} {g : Segment} (found : s.segments[a.segment]? = some g)
      (there : g.phase ≠ .gone) (room : s.machine.hasRoom g.size = true)
      (fits : root.base + root.length ≤ g.size) (behind : root.backing = .segment a)
      (fresh : a.mapping = s.mappings.length) (block : root.block = g.block) :
      Founded orderly root s
        { s with
          mappings := s.mappings ++ [{ segment := a.segment }]
          roots := s.roots ++ [root] }

namespace Store

def letGo (id : RootId) (s : Store) : Store :=
  { s with roots := s.roots.modify id fun root => { root with held := false } }

def endBuffer (id : BufferId) (s : Store) : Store :=
  { s with buffers := s.buffers.modify id fun b => { b with alive := false } }

inductive Change (orderly sweeping : Prop) (s : Store) : Store → Prop where
  | rewrite {s' : Store} (alike : s.Resembles s') : Change orderly sweeping s s'
  | weaken {id : RootId} {root : Root} {backing : Backing} (found : s.roots[id]? = some root)
      (weakens : root.backing.Weakens backing) : Change orderly sweeping s (s.setBacking id backing)
  | endHeap {id : RootId} {root : Root} (found : s.roots[id]? = some root)
      (behind : root.backing = .heap true) :
      Change orderly sweeping s ((s.setBacking id (.heap false)).freeBlock root.block)
  | detach {id : RootId} {root : Root} {a : Attachment} {segment : SegmentId}
      (found : s.roots[id]? = some root) (behind : root.backing = .segment a)
      (attached : a.attached = true) (live : s.mappings[a.mapping]? = some ⟨segment, true⟩) :
      Change orderly sweeping s
        ((s.unmapped a.mapping segment).setBacking id (.segment { a with attached := false }))
  /-- A segment is unmapped, and its root not told. -/
  | unmap {id : MappingId} {segment : SegmentId} (foreign : ¬ orderly)
      (live : s.mappings[id]? = some ⟨segment, true⟩) :
      Change orderly sweeping s (s.unmapped id segment)
  | remove {id : SegmentId} {g : Segment} (found : s.segments[id]? = some g)
      (there : g.phase ≠ .gone) : Change orderly sweeping s (s.setPhase id .removed)
  | reclaim {id : SegmentId} {g : Segment} (found : s.segments[id]? = some g)
      (removed : g.phase = .removed) (unmapped : s.isMappedSomewhere id = false) :
      Change orderly sweeping s ((s.setPhase id .gone).freeBlock g.block)
  | letGo {id : RootId} {root : Root} (sweeps : sweeping) (found : s.roots[id]? = some root)
      (other : ∀ valid, root.backing ≠ .array valid) : Change orderly sweeping s (s.letGo id)
  /-- An array goes with the last handle on it. -/
  | letGoArray {id : RootId} {root : Root} {valid : Bool} (sweeps : sweeping)
      (found : s.roots[id]? = some root) (behind : root.backing = .array valid)
      (held : root.held = true) : Change orderly sweeping s ((s.letGo id).freeBlock root.block)
  | endNullBuffer {id : BufferId} {b : Buffer} (sweeps : sweeping)
      (found : s.buffers[id]? = some b) (bare : b.block = none) :
      Change orderly sweeping s (s.endBuffer id)
  | endBuffer {id : BufferId} {b : Buffer} {block : BlockId} (sweeps : sweeping)
      (found : s.buffers[id]? = some b) (alive : b.alive = true) (has : b.block = some block) :
      Change orderly sweeping s ((s.endBuffer id).freeBlock block)
  /-- The memory of an empty buffer without an address. -/
  | addNothing : Change orderly sweeping s { s with blocks := s.blocks ++ [{ bytes := [] }] }
  | addRoot {root : Root} {s' : Store} (held : root.held = true)
      (founded : root.Founded orderly s s') :
      Change orderly sweeping s s'
  | addBuffer {bytes : Bytes} {b : Buffer} (block : b.block = some s.blocks.length)
      (alive : b.alive = true) (length : b.length = bytes.length)
      (short : bytes.length < Word.modulus) :
      Change orderly sweeping s
        { s with blocks := s.blocks ++ [{ bytes }], buffers := s.buffers ++ [b] }
  | addNullBuffer {b : Buffer} (bare : b.block = none) (alive : b.alive = true) :
      Change orderly sweeping s { s with buffers := s.buffers ++ [b] }
  | addSegment {bytes : Bytes} {g : Segment} (block : g.block = s.blocks.length)
      (present : g.phase = .present)
      (filled : s.machine.hasRoom g.size = true → bytes.length = g.size)
      (short : bytes.length < Word.modulus) :
      Change orderly sweeping s
        { s with blocks := s.blocks ++ [{ bytes }], segments := s.segments ++ [g] }

abbrev Changes (orderly sweeping : Prop) : Store → Store → Prop :=
  Relation.ReflTransGen (Change orderly sweeping)

variable {orderly sweeping : Prop} {s s' : Store}

/-- The machine stays what it is. -/
theorem Change.machine (change : Change orderly sweeping s s') : s'.machine = s.machine := by
  cases change with
  | rewrite alike => exact alike.machine.symm
  | addRoot _ founded => cases founded <;> rfl
  | _ => rfl

theorem Changes.machine (changes : Changes orderly sweeping s s') : s'.machine = s.machine := by
  induction changes with
  | refl => rfl
  | tail _ change ih => exact change.machine.trans ih

section Endings

variable {id : RootId} {root : Root}

/-- A root that gets another backing at the same home. -/
theorem rebacked_keeps {backing : Backing} (found : s.roots[id]? = some root)
    (home : backing.home id = root.backing.home id) : s.Keeps (s.setBacking id backing) := by
  apply s.setBacking_keeps
  intro root' found'
  rw [found, Option.some.injEq] at found'
  rw [home, found']

theorem endedHeap_keeps (found : s.roots[id]? = some root) (behind : root.backing = .heap true) :
    s.Keeps ((s.setBacking id (.heap false)).freeBlock root.block) := by
  refine (rebacked_keeps found ?_).trans (freeBlock_keeps _ root.block)
  rw [behind]
  rfl

theorem detached_keeps {a : Attachment} (found : s.roots[id]? = some root)
    (behind : root.backing = .segment a) (segment : SegmentId) :
    s.Keeps ((s.unmapped a.mapping segment).setBacking id
      (.segment { a with attached := false })) := by
  have unmapped : s.Keeps (s.unmapped a.mapping segment) := s.remap_keeps _
  have still : (s.unmapped a.mapping segment).roots[id]? = some root := found
  refine unmapped.trans (rebacked_keeps still ?_)
  rw [behind]
  rfl

end Endings

/-- All homes stay apart. -/
theorem Change.apart (change : Change orderly sweeping s s') (h : s.Apart) : s'.Apart := by
  cases change with
  | rewrite alike => exact alike.apart h
  | @weaken id root _ found weakens => exact (rebacked_keeps found (weakens.home id)).apart h
  | endHeap found behind => exact (endedHeap_keeps found behind).apart h
  | detach found behind _ _ => exact (detached_keeps found behind _).apart h
  | unmap foreign live => exact (s.remap_keeps _).apart h
  | @remove id g found there => exact (s.setPhase_keeps id .removed).apart h
  | @reclaim id g found removed unmapped =>
      exact ((s.setPhase_keeps id .gone).trans (freeBlock_keeps _ g.block)).apart h
  | @letGo id root sweeps found other => exact (s.letGo_keeps id).apart h
  | @letGoArray id root valid sweeps found behind held =>
      exact ((s.letGo_keeps id).trans (freeBlock_keeps _ root.block)).apart h
  | @endNullBuffer id b sweeps found bare => exact (s.endBuffer_keeps id).apart h
  | @endBuffer id b block sweeps found alive has =>
      exact ((s.endBuffer_keeps id).trans (freeBlock_keeps _ block)).apart h
  | addNothing => exact (h.addBlock _).1
  | @addRoot root s' held founded =>
      cases founded with
      | @own bytes own block fits short =>
          have home : root.backing.home s.roots.length = .own s.roots.length := by
            rcases own with array | heap
            · rw [array]
              rfl
            · rw [heap]
              rfl
          exact (h.addOwn bytes root home block).1
      | @wraps id b found alive behind fits there =>
          refine (h.addShared root ?_ ?_).1
          · rw [behind]
            exact fun same => by cases same
          · rcases there with has | ⟨empty, -⟩
            · right
              simp only [behind, Backing.home, blockOf?, found, Option.bind_some, has]
            · left
              omega
      | @attached a g found there room fits behind fresh block =>
          have mapped := (s.remap_keeps (s.mappings ++ [{ segment := a.segment }])).apart h
          refine (mapped.addShared root ?_ (.inr ?_)).1
          · rw [behind]
            exact fun same => by cases same
          · simp only [behind, Backing.home, blockOf?, found, Option.map_some, block]
  | @addBuffer bytes b block alive length short => exact (h.addBuffer bytes block).1
  | addNullBuffer bare alive => exact (h.addNullBuffer bare).1
  | @addSegment bytes g block present filled short => exact (h.addSegment bytes block).1

theorem Changes.apart (changes : Changes orderly sweeping s s') (h : s.Apart) : s'.Apart := by
  induction changes with
  | refl => exact h
  | tail _ change ih => exact change.apart ih

end Store

/-- What may become of a root: it stays where it is, and what has come to an end stays so. -/
structure Root.Later (sweeping : Prop) (root root' : Root) : Prop where
  block : root'.block = root.block
  base : root'.base = root.base
  length : root'.length = root.length
  variant : root'.backing.variant = root.backing.variant
  home (id : RootId) : root'.backing.home id = root.backing.home id
  valid : root'.isValid = true → root.isValid = true
  held : ¬ sweeping → root'.held = root.held

namespace Root

variable {sweeping : Prop} {root root' root'' : Root}

theorem Later.refl (root : Root) : Later sweeping root root where
  block := rfl
  base := rfl
  length := rfl
  variant := rfl
  home _ := rfl
  valid valid := valid
  held _ := rfl

theorem Later.trans (h : Later sweeping root root') (h' : Later sweeping root' root'') :
    Later sweeping root root'' where
  block := h'.block.trans h.block
  base := h'.base.trans h.base
  length := h'.length.trans h.length
  variant := h'.variant.trans h.variant
  home id := (h'.home id).trans (h.home id)
  valid valid := h.valid (h'.valid valid)
  held calm := (h'.held calm).trans (h.held calm)

end Root

namespace Store

variable {orderly sweeping : Prop} {s s' : Store} {id : RootId} {root : Root}

/-- Roots are never forgotten and never come back to life. -/
theorem Change.later (change : Change orderly sweeping s s') (found : s.roots[id]? = some root) :
    ∃ root', s'.roots[id]? = some root' ∧ root.Later sweeping root' := by
  have same (kept : s'.roots = s.roots) :
      ∃ root', s'.roots[id]? = some root' ∧ root.Later sweeping root' :=
    ⟨root, kept ▸ found, .refl root⟩
  have added {new : Root} (more : s'.roots = s.roots ++ [new]) :
      ∃ root', s'.roots[id]? = some root' ∧ root.Later sweeping root' := by
    refine ⟨root, ?_, .refl root⟩
    rw [more, List.getElem?_append_left (List.getElem?_eq_some_iff.mp found).1]
    exact found
  have modified {other : RootId} {f : Root → Root} (modifies : s'.roots = s.roots.modify other f)
      (later : id = other → root.Later sweeping (f root)) :
      ∃ root', s'.roots[id]? = some root' ∧ root.Later sweeping root' := by
    rw [modifies, List.getElem?_modify, found]
    by_cases here : other = id
    · exact ⟨f root, by simp only [here, if_true]; rfl, later here.symm⟩
    · exact ⟨root, by simp only [here, if_false]; rfl, .refl root⟩
  have ended {other : RootId} {root₁ : Root} {backing : Backing}
      (found₁ : s.roots[other]? = some root₁)
      (variant : backing.variant = root₁.backing.variant)
      (home : ∀ id, backing.home id = root₁.backing.home id)
      (weaker : ({ root₁ with backing } : Root).isValid = true → root₁.isValid = true)
      (here : id = other) : root.Later sweeping { root with backing } := by
    rw [here, found₁, Option.some.injEq] at found
    subst found
    exact {
      block := rfl
      base := rfl
      length := rfl
      variant
      home
      valid := weaker
      held := fun _ => rfl }
  cases change with
  | rewrite alike => exact same alike.roots.symm
  | weaken found₁ weakens =>
      exact modified rfl (ended found₁ weakens.variant weakens.home weakens.isValid)
  | endHeap found₁ behind =>
      refine modified rfl (ended found₁ ?_ ?_ ?_)
      · rw [behind]
        rfl
      · rw [behind]
        exact fun _ => rfl
      · exact fun valid => by cases valid
  | detach found₁ behind _ _ =>
      refine modified rfl (ended found₁ ?_ ?_ ?_)
      · rw [behind]
        rfl
      · rw [behind]
        exact fun _ => rfl
      · exact fun valid => by cases valid
  | letGo sweeps _ _ =>
      refine modified rfl fun _ => ?_
      exact ⟨rfl, rfl, rfl, rfl, fun _ => rfl, fun valid => valid, fun calm => absurd sweeps calm⟩
  | letGoArray sweeps _ _ _ =>
      refine modified rfl fun _ => ?_
      exact ⟨rfl, rfl, rfl, rfl, fun _ => rfl, fun valid => valid, fun calm => absurd sweeps calm⟩
  | addRoot _ founded => cases founded <;> exact added rfl
  | _ => exact same rfl

/-- A root that was not there before was founded by the change. -/
theorem Change.founded (change : Change orderly sweeping s s') (new : s.roots[id]? = none)
    (found : s'.roots[id]? = some root) : root.held = true ∧ root.Founded orderly s s' := by
  have old {f : Root → Root} {other : RootId} (same : s'.roots = s.roots.modify other f) :
      False := by
    rw [same, List.getElem?_modify, new] at found
    cases found
  have still (same : s'.roots = s.roots) : False := by
    rw [same, new] at found
    cases found
  cases change with
  | rewrite alike => exact (still alike.roots.symm).elim
  | weaken _ _ => exact (old rfl).elim
  | endHeap _ _ => exact (old rfl).elim
  | detach _ _ _ _ => exact (old rfl).elim
  | letGo _ _ _ => exact (old rfl).elim
  | letGoArray _ _ _ _ => exact (old rfl).elim
  | @addRoot other _ held founded =>
      have more : s'.roots = s.roots ++ [other] := by
        cases founded <;> rfl
      rw [List.getElem?_eq_none_iff] at new
      rw [more, List.getElem?_append_right new, List.getElem?_singleton] at found
      split at found
      · cases found
        exact ⟨held, founded⟩
      · cases found
  | _ => exact (still rfl).elim

theorem Changes.later (changes : Changes orderly sweeping s s') (found : s.roots[id]? = some root) :
    ∃ root', s'.roots[id]? = some root' ∧ root.Later sweeping root' := by
  induction changes with
  | refl => exact ⟨root, found, .refl root⟩
  | tail _ change ih =>
      obtain ⟨root₁, found₁, first⟩ := ih
      obtain ⟨root₂, found₂, second⟩ := change.later found₁
      exact ⟨root₂, found₂, first.trans second⟩

/-- What was released stays released. -/
theorem Changes.ended (changes : Changes orderly sweeping s s') {length : Nat}
    (h : s.Ended id length) : s'.Ended id length := by
  obtain ⟨root, found, invalid, rfl⟩ := h
  obtain ⟨root', found', later⟩ := changes.later found
  refine ⟨root', found', ?_, later.length⟩
  cases valid : root'.isValid with
  | false => rfl
  | true =>
      rw [later.valid valid] at invalid
      cases invalid

end Store

end BoundedMemory
