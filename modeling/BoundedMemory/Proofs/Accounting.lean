import BoundedMemory.Proofs.Changes

/-!
Who gives memory back, and how often. The block of an array goes with the last handle
on its root, that of heap memory with the release of its root, that of a buffer with
its last holder and that of a segment once it was removed and is mapped nowhere.
`Store.Accounted` says that blocks are given back then and no more than once; it holds
of every store, whatever was done to it.
-/

namespace BoundedMemory

/-- Whether a root has given back the memory that it has alone. -/
def Root.spent (root : Root) : Bool :=
  match root.backing with
  | .array _ => !root.held
  | .heap valid => !valid
  | .buffer .. | .segment _ => false

def Buffer.spent (b : Buffer) : Bool := !b.alive

def Segment.spent (g : Segment) : Bool := g.phase = .gone

namespace Store

/-- Whether the memory of a home was given back. -/
def spent (s : Store) : Home → Bool
  | .own id => (s.roots[id]?).any Root.spent
  | .buffer id => (s.buffers[id]?).any Buffer.spent
  | .segment id => (s.segments[id]?).any Segment.spent

/-- Whether a block has a home, and the home has given it back. -/
def Spent (s : Store) (block : BlockId) : Prop :=
  ∃ home, s.blockOf? home = some block ∧ s.spent home = true

/-- A block is given back by its home, once. -/
def Accounted (s : Store) : Prop :=
  ∀ (block : BlockId) (b : Block), s.blocks[block]? = some b →
    b.frees = 0 ∧ ¬ s.Spent block ∨ b.frees = 1 ∧ s.Spent block

theorem Accounted.empty {machine : Machine} : ({ machine } : Store).Accounted := by
  intro block b stored
  cases stored

variable {s s' : Store}

/-- Nothing is given back twice. -/
theorem Accounted.frees_le (h : s.Accounted) {b : Block} (stored : b ∈ s.blocks) : b.frees ≤ 1 := by
  obtain ⟨block, at_block⟩ := List.mem_iff_getElem?.mp stored
  rcases h block b at_block with ⟨none, -⟩ | ⟨once, -⟩ <;> omega

theorem Accounted.live (h : s.Accounted) {block : BlockId} {b : Block}
    (stored : s.blocks[block]? = some b) (unspent : ¬ s.Spent block) : b.live = true := by
  rcases h block b stored with ⟨none, -⟩ | ⟨-, spent⟩
  · simp only [Block.live, none, decide_true]
  · exact absurd spent unspent

/-- Changes by which nothing is given back. Blocks that are new have not been either. -/
private theorem Accounted.of_spent (h : s.Accounted) (apart : s.Apart)
    (blocks : ∀ (block : BlockId) (b' : Block), s'.blocks[block]? = some b' →
      (∃ b, s.blocks[block]? = some b ∧ b'.frees = b.frees) ∨
        s.blocks.length ≤ block ∧ b'.frees = 0)
    (same : ∀ block, s'.Spent block ↔ s.Spent block) : s'.Accounted := by
  intro block b' stored'
  rw [same]
  rcases blocks block b' stored' with ⟨b, stored, frees⟩ | ⟨new, frees⟩
  · rw [frees]
    exact h block b stored
  · refine .inl ⟨frees, ?_⟩
    rintro ⟨home, there, -⟩
    exact absurd (apart.inside home block there) (Nat.not_lt.mpr new)

/-- New homes are not spent. -/
private theorem Spent.of_place (spent : s'.spent = s.spent)
    (place : ∀ home, s.spent home = true → s'.blockOf? home = s.blockOf? home) (block : BlockId) :
    s'.Spent block ↔ s.Spent block := by
  unfold Spent
  rw [spent]
  constructor
  · rintro ⟨home, there, gone⟩
    exact ⟨home, place home gone ▸ there, gone⟩
  · rintro ⟨home, there, gone⟩
    exact ⟨home, (place home gone).symm ▸ there, gone⟩

private theorem Accounted.same (h : s.Accounted) (apart : s.Apart) (blocks : s'.blocks = s.blocks)
    (spent : s'.spent = s.spent)
    (place : ∀ home, s.spent home = true → s'.blockOf? home = s.blockOf? home) :
    s'.Accounted := by
  refine h.of_spent apart ?_ (Spent.of_place spent place)
  intro block b' stored'
  exact .inl ⟨b', blocks ▸ stored', rfl⟩

private theorem Accounted.grow {bytes : Bytes} (h : s.Accounted) (apart : s.Apart)
    (blocks : s'.blocks = s.blocks ++ [{ bytes := bytes }]) (spent : s'.spent = s.spent)
    (place : ∀ home, s.spent home = true → s'.blockOf? home = s.blockOf? home) :
    s'.Accounted := by
  refine h.of_spent apart ?_ (Spent.of_place spent place)
  intro block b' stored'
  rw [blocks] at stored'
  rcases Nat.lt_or_ge block s.blocks.length with inside | outside
  · rw [List.getElem?_append_left inside] at stored'
    exact .inl ⟨b', stored', rfl⟩
  · obtain ⟨within, rfl⟩ := List.getElem?_eq_some_iff.mp stored'
    refine .inr ⟨outside, ?_⟩
    simp only [List.getElem_append_right outside, List.getElem_singleton]

/-- A home that gives its block back. -/
private theorem Accounted.spend (h : s.Accounted) (apart : s.Apart) {home : Home} {block : BlockId}
    (there : s.blockOf? home = some block) (unspent : s.spent home = false)
    (blocks : s'.blocks = (s.freeBlock block).blocks) (place : s'.blockOf? = s.blockOf?)
    (spent : ∀ other, s'.spent other = if other = home then true else s.spent other) :
    s'.Accounted := by
  intro other b' stored'
  rw [blocks, freeBlock, List.getElem?_modify] at stored'
  by_cases here : block = other
  · subst here
    obtain ⟨b, stored, rfl⟩ :
        ∃ b, s.blocks[block]? = some b ∧ { b with frees := b.frees + 1 } = b' := by
      simpa only [if_true, Option.map_eq_map, Option.map_eq_some_iff] using stored'
    right
    constructor
    · rcases h block b stored with ⟨none, -⟩ | ⟨-, another, there', gone⟩
      · simp only [none]
      · rw [apart.distinct another home block there' there, unspent] at gone
        cases gone
    · exact ⟨home, place ▸ there, by rw [spent, if_pos rfl]⟩
  · have stored : s.blocks[other]? = some b' := by
      simpa only [here, if_false, Option.map_eq_map, Option.map_id'] using stored'
    have same : s'.Spent other ↔ s.Spent other := by
      have apart_from (another : Home) (there' : s.blockOf? another = some other) :
          another ≠ home := by
        rintro rfl
        rw [there, Option.some.injEq] at there'
        exact here there'
      unfold Spent
      rw [place]
      constructor
      · rintro ⟨another, there', gone⟩
        rw [spent, if_neg (apart_from another there')] at gone
        exact ⟨another, there', gone⟩
      · rintro ⟨another, there', gone⟩
        exact ⟨another, there', by rw [spent, if_neg (apart_from another there'), gone]⟩
    rw [same]
    exact h other b' stored

section Tables

variable {id : Nat}

theorem spent_congr (roots : s'.roots = s.roots) (buffers : s'.buffers = s.buffers)
    (segments : s'.segments = s.segments) : s'.spent = s.spent := by
  funext home
  cases home with
  | own id => simp only [spent, roots]
  | buffer id => simp only [spent, buffers]
  | segment id => simp only [spent, segments]

private theorem any_modify {α : Type} {xs : List α} {x : α} {f : α → α} {p : α → Bool} {i j : Nat}
    (found : xs[i]? = some x) :
    ((xs.modify i f)[j]?).any p = if j = i then p (f x) else (xs[j]?).any p := by
  rw [List.getElem?_modify]
  by_cases here : i = j
  · subst here
    simp [found]
  · simp [here, Ne.symm here]

private theorem any_concat {α : Type} {xs : List α} {x : α} {p : α → Bool} (untrue : p x = false)
    (i : Nat) : ((xs ++ [x])[i]?).any p = (xs[i]?).any p := by
  rcases Nat.lt_trichotomy i xs.length with inside | last | beyond
  · rw [List.getElem?_append_left inside]
  · subst last
    simp [untrue]
  · rw [List.getElem?_eq_none (by simp; omega), List.getElem?_eq_none (by omega)]

/-- One root was changed, and nothing else that has a home. -/
private theorem spent_root {blocks : List Block} {mappings : List Mapping} {root : Root}
    {f : Root → Root} (found : s.roots[id]? = some root) (home : Home) :
    ({ s with blocks, mappings, roots := s.roots.modify id f } : Store).spent home =
      if home = .own id then (f root).spent else s.spent home := by
  cases home with
  | own other => simp only [spent, any_modify found, Home.own.injEq]
  | _ => rfl

private theorem spent_buffer {blocks : List Block} {b : Buffer} {f : Buffer → Buffer}
    (found : s.buffers[id]? = some b) (home : Home) :
    ({ s with blocks, buffers := s.buffers.modify id f } : Store).spent home =
      if home = .buffer id then (f b).spent else s.spent home := by
  cases home with
  | buffer other => simp only [spent, any_modify found, Home.buffer.injEq]
  | _ => rfl

private theorem spent_segment {blocks : List Block} {g : Segment} {f : Segment → Segment}
    (found : s.segments[id]? = some g) (home : Home) :
    ({ s with blocks, segments := s.segments.modify id f } : Store).spent home =
      if home = .segment id then (f g).spent else s.spent home := by
  cases home with
  | segment other => simp only [spent, any_modify found, Home.segment.injEq]
  | _ => rfl

/-- What is spent is there, so nothing that is added can come in its place. -/
private theorem getElem?_concat_of_any {α : Type} {xs : List α} {p : α → Bool} {i : Nat}
    (there : (xs[i]?).any p = true) (x : α) : (xs ++ [x])[i]? = xs[i]? := by
  apply List.getElem?_append_left
  cases found : xs[i]? with
  | none => simp [found] at there
  | some y => exact (List.getElem?_eq_some_iff.mp found).1

private theorem spent_addRoot {blocks : List Block} {mappings : List Mapping} {root : Root}
    (unspent : root.spent = false) :
    ({ s with blocks, mappings, roots := s.roots ++ [root] } : Store).spent = s.spent := by
  funext home
  cases home with
  | own id => exact any_concat unspent id
  | _ => rfl

private theorem place_addRoot {blocks : List Block} {mappings : List Mapping} {root : Root}
    (home : Home) (gone : s.spent home = true) :
    ({ s with blocks, mappings, roots := s.roots ++ [root] } : Store).blockOf? home =
      s.blockOf? home := by
  cases home with
  | own id => simp only [blockOf?, getElem?_concat_of_any gone]
  | _ => rfl

private theorem spent_addBuffer {blocks : List Block} {b : Buffer} (alive : b.alive = true) :
    ({ s with blocks, buffers := s.buffers ++ [b] } : Store).spent = s.spent := by
  have unspent : b.spent = false := by
    rw [Buffer.spent, alive]
    rfl
  funext home
  cases home with
  | buffer id => exact any_concat unspent id
  | _ => rfl

private theorem place_addBuffer {blocks : List Block} {b : Buffer} (home : Home)
    (gone : s.spent home = true) :
    ({ s with blocks, buffers := s.buffers ++ [b] } : Store).blockOf? home = s.blockOf? home := by
  cases home with
  | buffer id => simp only [blockOf?, getElem?_concat_of_any gone]
  | _ => rfl

private theorem spent_addSegment {blocks : List Block} {g : Segment}
    (present : g.phase = .present) :
    ({ s with blocks, segments := s.segments ++ [g] } : Store).spent = s.spent := by
  have unspent : g.spent = false := by
    rw [Segment.spent, present]
    rfl
  funext home
  cases home with
  | segment id => exact any_concat unspent id
  | _ => rfl

private theorem place_addSegment {blocks : List Block} {g : Segment} (home : Home)
    (gone : s.spent home = true) :
    ({ s with blocks, segments := s.segments ++ [g] } : Store).blockOf? home = s.blockOf? home := by
  cases home with
  | segment id => simp only [blockOf?, getElem?_concat_of_any gone]
  | _ => rfl

end Tables

section Steps

variable {id : Nat} {root : Root}

private theorem place_own (found : s.roots[id]? = some root)
    (home : root.backing.home id = .own id) : s.blockOf? (.own id) = some root.block := by
  simp only [blockOf?, found, Option.bind_some, home, if_true]

private theorem spent_own (found : s.roots[id]? = some root) : s.spent (.own id) = root.spent := by
  simp only [spent, found, Option.any_some]

private theorem Accounted.rewrite (h : s.Accounted) (apart : s.Apart) (alike : s.Resembles s') :
    s'.Accounted := by
  refine h.of_spent apart ?_ (Spent.of_place ?_ ?_)
  · intro block b' stored'
    obtain ⟨b, stored, -, frees⟩ := alike.symm.block stored'
    exact .inl ⟨b, stored, frees.symm⟩
  · exact spent_congr alike.roots.symm alike.buffers.symm alike.segments.symm
  · intro home _
    cases home <;> simp only [blockOf?, alike.roots, alike.buffers, alike.segments]

/-- A root that is changed, and gave nothing back by it. -/
private theorem Accounted.reroot {mappings : List Mapping} {f : Root → Root} (h : s.Accounted)
    (apart : s.Apart) (found : s.roots[id]? = some root)
    (keeps : s.Keeps { s with mappings, roots := s.roots.modify id f })
    (still : (f root).spent = root.spent) :
    ({ s with mappings, roots := s.roots.modify id f } : Store).Accounted := by
  refine h.same apart rfl ?_ fun home _ => congrFun keeps.blockOf? home
  funext home
  refine (spent_root found home).trans ?_
  split
  · rename_i here
    rw [here, spent_own found, still]
  · rfl

/-- A root that gives back what it has alone. -/
private theorem Accounted.endRoot {f : Root → Root} (h : s.Accounted) (apart : s.Apart)
    (found : s.roots[id]? = some root) (home : root.backing.home id = .own id)
    (keeps : s.Keeps (({ s with roots := s.roots.modify id f } : Store).freeBlock root.block))
    (unspent : root.spent = false) (spent : (f root).spent = true) :
    (({ s with roots := s.roots.modify id f } : Store).freeBlock root.block).Accounted := by
  refine h.spend apart (place_own found home) ((spent_own found).trans unspent) rfl
    keeps.blockOf? ?_
  intro other
  refine (spent_root found other).trans ?_
  rw [spent]

private theorem Accounted.remove {g : Segment} (h : s.Accounted) (apart : s.Apart)
    (found : s.segments[id]? = some g) (there : g.phase ≠ .gone) :
    (s.setPhase id .removed).Accounted := by
  refine h.same apart rfl ?_ fun home _ => congrFun (s.setPhase_keeps id .removed).blockOf? home
  funext home
  refine (spent_segment found home).trans ?_
  split
  · rename_i here
    rw [here]
    simp [spent, found, Segment.spent, there]
  · rfl

private theorem Accounted.reclaim {g : Segment} (h : s.Accounted) (apart : s.Apart)
    (found : s.segments[id]? = some g) (removed : g.phase = .removed) :
    ((s.setPhase id .gone).freeBlock g.block).Accounted := by
  have place : s.blockOf? (.segment id) = some g.block := by
    simp only [blockOf?, found, Option.map_some]
  refine h.spend apart place ?_ rfl ?_ ?_
  · simp [spent, found, Segment.spent, removed]
  · exact ((s.setPhase_keeps id .gone).trans (freeBlock_keeps _ g.block)).blockOf?
  · exact fun home => spent_segment found home

/-- A buffer without an address has no home, so its end is that of no memory. -/
private theorem Accounted.endNullBuffer {b : Buffer} (h : s.Accounted) (apart : s.Apart)
    (found : s.buffers[id]? = some b) (bare : b.block = none) : (s.endBuffer id).Accounted := by
  have homeless : s.blockOf? (.buffer id) = none := by
    simp only [blockOf?, found, Option.bind_some, bare]
  have elsewhere {home : Home} {block : BlockId} (there : s.blockOf? home = some block) :
      (s.endBuffer id).spent home = s.spent home := by
    refine (spent_buffer found home).trans (if_neg ?_)
    rintro rfl
    rw [homeless] at there
    cases there
  have place : (s.endBuffer id).blockOf? = s.blockOf? := (s.endBuffer_keeps id).blockOf?
  refine h.of_spent apart (fun block b' stored => .inl ⟨b', stored, rfl⟩) ?_
  intro block
  unfold Spent
  rw [place]
  apply exists_congr
  intro home
  apply and_congr_right
  intro there
  rw [elsewhere there]

private theorem Accounted.endBuffer {b : Buffer} {block : BlockId} (h : s.Accounted)
    (apart : s.Apart) (found : s.buffers[id]? = some b) (alive : b.alive = true)
    (has : b.block = some block) : ((s.endBuffer id).freeBlock block).Accounted := by
  have place : s.blockOf? (.buffer id) = some block := by
    simp only [blockOf?, found, Option.bind_some, has]
  refine h.spend apart place ?_ rfl ?_ ?_
  · simp [spent, found, Buffer.spent, alive]
  · exact ((s.endBuffer_keeps id).trans (freeBlock_keeps _ block)).blockOf?
  · exact spent_buffer found

private theorem Accounted.addRoot {orderly : Prop} (h : s.Accounted) (apart : s.Apart)
    (held : root.held = true) (founded : root.Founded orderly s s') : s'.Accounted := by
  cases founded with
  | own owned _ _ _ =>
      have unspent : root.spent = false := by
        unfold Root.spent
        rcases owned with array | heap
        · rw [array, held]
          rfl
        · rw [heap]
          rfl
      exact h.grow apart rfl (spent_addRoot unspent) place_addRoot
  | wraps _ _ behind _ _ =>
      have unspent : root.spent = false := by
        rw [Root.spent, behind]
      exact h.same apart rfl (spent_addRoot unspent) place_addRoot
  | attached _ _ _ _ behind _ _ =>
      have unspent : root.spent = false := by
        rw [Root.spent, behind]
      exact h.same apart rfl (spent_addRoot unspent) place_addRoot

end Steps

variable {orderly sweeping : Prop}

/-- Whatever happens to a store, memory is given back where its home is spent. -/
theorem Change.accounted (change : Change orderly sweeping s s') (apart : s.Apart)
    (h : s.Accounted) : s'.Accounted := by
  cases change with
  | rewrite alike => exact h.rewrite apart alike
  | @weaken id root backing found weakens =>
      refine h.reroot apart found (rebacked_keeps found (weakens.home id)) ?_
      unfold Root.spent
      generalize root.backing = before at weakens
      cases weakens <;> rfl
  | endHeap found behind =>
      refine h.endRoot apart found (by rw [behind]; rfl) (endedHeap_keeps found behind) ?_ rfl
      rw [Root.spent, behind]
      rfl
  | detach found behind _ _ =>
      refine h.reroot apart found (detached_keeps found behind _) ?_
      rw [Root.spent, Root.spent, behind]
  | unmap _ _ =>
      exact h.same apart rfl (spent_congr rfl rfl rfl) fun home _ =>
        congrFun (s.remap_keeps _).blockOf? home
  | remove found there => exact h.remove apart found there
  | reclaim found removed _ => exact h.reclaim apart found removed
  | @letGo id root _ found other =>
      refine h.reroot apart found (s.letGo_keeps id) ?_
      unfold Root.spent
      cases behind : root.backing with
      | array valid => exact absurd behind (other valid)
      | _ => rfl
  | @letGoArray id root valid _ found behind held =>
      refine h.endRoot apart found (by rw [behind]; rfl)
        ((s.letGo_keeps id).trans (freeBlock_keeps _ root.block)) ?_ ?_
      · rw [Root.spent, behind, held]
        rfl
      · rw [Root.spent, behind]
        rfl
  | endNullBuffer _ found bare => exact h.endNullBuffer apart found bare
  | endBuffer _ found alive has => exact h.endBuffer apart found alive has
  | addNothing =>
      refine h.grow apart rfl (spent_congr rfl rfl rfl) fun home _ => ?_
      cases home <;> rfl
  | addRoot held founded => exact h.addRoot apart held founded
  | addBuffer _ alive _ _ => exact h.grow apart rfl (spent_addBuffer alive) place_addBuffer
  | addNullBuffer _ alive => exact h.same apart rfl (spent_addBuffer alive) place_addBuffer
  | addSegment _ present _ _ => exact h.grow apart rfl (spent_addSegment present) place_addSegment

theorem Changes.accounted (changes : Changes orderly sweeping s s') (apart : s.Apart)
    (h : s.Accounted) : s'.Accounted := by
  induction changes with
  | refl => exact h
  | tail before change ih => exact change.accounted (Changes.apart before apart) ih

end Store

end BoundedMemory
