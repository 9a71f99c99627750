import BoundedMemory.Proofs.SegmentRuns

/-!
New handles on segments. A name that is bound to what a key names is bound to a root over
the first bytes of that segment; one for which a segment had to be made is bound to a root
over a segment that was never there before, and that is all zero.
-/

namespace BoundedMemory

namespace Store

variable {s : Store} {g : SegmentId}

/-- A segment that was ever made has an array. -/
theorem Apart.array_of_segment (apart : s.Apart) (there : g < s.segments.length) :
    ∃ whole, s.flat.arrays (.segment g) = some whole := by
  have placed : s.blockOf? (.segment g) = some (s.segments[g]).block := by
    simp only [blockOf?, List.getElem?_eq_getElem there, Option.map_some]
  have inside := apart.inside _ _ placed
  refine ⟨(s.blocks[(s.segments[g]).block]).bytes, ?_⟩
  simp only [flat, placed, Option.bind_some, List.getElem?_eq_getElem inside, Option.map_some]

/-- A region over a segment lies in the segment's array, from its start on. -/
theorem Keyed.ground (keyed : s.Keyed) {r : Region} (lies : s.LiesOver r g) :
    ∃ length, s.flat.grounds r.root = some { home := .segment g, base := 0, length } := by
  obtain ⟨root, a, source, rfl⟩ := lies
  have base := keyed.base source
  obtain ⟨there, behind⟩ := source?_eq_some_iff.mp source
  refine ⟨root.length, ?_⟩
  rw [flat_grounds there, Root.ground, behind, base]
  rfl

end Store

namespace Session

variable {s : Session} {name : String} {what : Making} {l : Looking} {key : SegmentKey}
  {g : SegmentId}

/-- A root that handles lead to is spared by a sweep in every respect. -/
theorem sweep_root {id : RootId} (reached : s.reaches id = true) :
    s.sweep.store.roots[id]? = s.store.roots[id]? := by
  have spared (t : Session) (other : RootId) (reached : t.reaches id = true) :
      (t.sweepRoot other).store.roots[id]? = t.store.roots[id]? := by
    unfold sweepRoot
    split
    · rfl
    · rename_i unreached
      have apart : other ≠ id := fun same => unreached (same ▸ reached)
      rw [Operation.settle_snd]
      obtain ⟨change, -, roots | ⟨-, same⟩, -⟩ := t.store.dropRoot_roots other
      · simp [roots, apart]
      · rw [same]
  have swept : s.sweep.reaches id = true ∧ s.sweep.store.roots[id]? = s.store.roots[id]? := by
    refine s.sweep_induct (motive := fun t => t.reaches id = true ∧
      t.store.roots[id]? = s.store.roots[id]?) ⟨reached, rfl⟩ ?_ ?_
    · rintro t other ⟨reached, same⟩
      refine ⟨?_, (spared t other reached).trans same⟩
      rwa [reaches_eq_of_handles (t.sweepRoot_handles other)]
    · rintro t other ⟨reached, same⟩
      refine ⟨?_, by rw [sweepBuffer_roots, same]⟩
      rwa [reaches_eq_of_handles (t.sweepBuffer_handles other)]
  exact swept.2

/-- A name that stands for a segment as it was looked up: for all of a root over the first
bytes of the segment, where every access is allowed. -/
structure OpenedAs (s : Session) (name : String) (l : Looking) (g : SegmentId) (id : RootId) :
    Prop where
  found : s.handles.find? name = some (.region (.ofRoot id l.size))
  allows {access : Access} {operation : String} {offset n : Nat} : offset + n ≤ l.size →
    (Region.ofRoot id l.size).refusal? s.store access operation offset n = none
  lies : s.store.LiesOver (.ofRoot id l.size) g
  removes : s.store.Removes id g ↔ l.destroys = true

private theorem make_bound (looks : what.looking? = some l)
    (placed : (s.placeKey l.place).1 = .ok key) (bound : (s.make name what).1 = .bound) :
    ∃ g t, Store.Finds key (l.Makes key) s.store g t ∧
      Store.Attached g l.size l.destroys t (s.make name what).2.store ∧
      (s.make name what).2.handles =
        s.handles.bind name (.region (.ofRoot s.store.roots.length l.size)) := by
  have beside := s.placeKey_alongside l.place
  rw [make_looks looks] at bound ⊢
  unfold bindSegment at bound ⊢
  rcases at_place : s.placeKey l.place with ⟨found, after⟩
  rw [at_place] at placed beside
  cases placed
  have store : after.store = s.store := beside.store
  simp only [at_place, bindRegion, bindMade, Operation.bind_run, store] at bound ⊢
  obtain ⟨e, fails⟩ | ⟨g, t, finds, ⟨e, fails⟩ | ⟨u, attached, attaches⟩⟩ :=
    l.attach_cases key s.store
  · rw [fails] at bound
    cases e <;> cases bound
  · rw [fails] at bound
    cases e <;> cases bound
  · rw [attaches]
    exact ⟨g, t, finds, attached, congrArg (Names.bind · name _) beside.handles⟩

/-- What a name stands for that was bound by attaching, once all is swept. -/
private theorem opened_of_attached {t : Store} {result : Session}
    (faithful : result.handles.Faithful)
    (roots : t.roots = s.store.roots) (attached : Store.Attached g l.size l.destroys t result.store)
    (handles : result.handles =
      s.handles.bind name (.region (.ofRoot s.store.roots.length l.size))) :
    result.reaches s.store.roots.length = true ∧
      result.sweep.OpenedAs name l g s.store.roots.length := by
  have found : result.handles.find? name =
      some (.region (.ofRoot s.store.roots.length l.size)) := by
    rw [handles, Names.find?_bind_same]
  have reached : result.reaches s.store.roots.length = true := reaches_of_find? faithful found
  obtain ⟨root, a, added, behind, -, -, -, lies, destroys, isAttached, -⟩ := attached.root
  have there : result.sweep.store.roots[s.store.roots.length]? = some root := by
    rw [sweep_root reached, added, roots, List.getElem?_concat_length]
  have source := Store.source?_eq_some_iff.mpr ⟨there, behind⟩
  have valid : result.sweep.store.isValid s.store.roots.length = true := by
    simp only [Store.isValid, there, Root.isValid, behind, isAttached]
  refine ⟨reached, ?_, ?_, ⟨root, a, source, lies⟩, ?_⟩
  · rw [sweep_handles, found]
  · intro access operation offset n fits
    exact Region.refusal?_eq_none_iff.mpr
      ⟨valid, fun _ => rfl, (by cases access <;> rfl), fits⟩
  · constructor
    · rintro ⟨_, _, same, -, removes⟩
      rw [source] at same
      cases same
      exact destroys.symm.trans removes
    · intro removes
      exact ⟨root, a, source, lies, destroys.trans removes⟩

/-- What attaches to a key is over the segment that the key names. -/
theorem Tracked.attached (tracked : s.Tracked) (looks : what.looking? = some l)
    (placed : (s.placeKey l.place).1 = .ok key) (names : s.store.segmentOf? key = some g)
    (bound : (s.step (.make name what)).1 = .bound) :
    (s.step (.make name what)).2.OpenedAs name l g s.store.roots.length := by
  have faithful := perform_faithful (.make name what) tracked.ready.faithful
  obtain ⟨g', t, finds, attached, handles⟩ := make_bound looks placed bound
  cases finds with
  | named names' =>
      rw [names] at names'
      cases names'
      exact (opened_of_attached faithful rfl attached handles).2
  | made _ opened =>
      have free := opened.free
      rw [names] at free
      cases free

/-- What the last root is over was not there before, and is reached by the last root only. -/
private theorem spared_of_created {t : Store} {result : Session} (keyed : s.store.Keyed)
    (opened : Store.Opened key s.store t)
    (attached : Store.Attached s.store.segments.length l.size l.destroys t result.store)
    (reached : result.reaches s.store.roots.length = true) :
    ¬ result.Abandons s.store.segments.length := by
  rintro ⟨id, -, unreached, root, a, source, new, -⟩
  obtain ⟨_, _, added, -⟩ := attached.root
  rcases Store.source?_concat added source with old | ⟨last, -, -⟩
  · rw [Store.source?_of_roots opened.roots] at old
    exact absurd (keyed.there old) (Nat.not_lt.mpr (Nat.le_of_eq new.symm))
  · rw [last, opened.roots, reached] at unreached
    cases unreached

/-- What is made under a key that names nothing is new, and gets the key. -/
theorem Tracked.created (tracked : s.Tracked) (orderly : (Command.make name what).Orderly)
    (looks : what.looking? = some l) (placed : (s.placeKey l.place).1 = .ok key)
    (other : key ≠ .anonymous) (free : s.store.segmentOf? key = none)
    (bound : (s.step (.make name what)).1 = .bound) :
    (s.step (.make name what)).2.OpenedAs name l s.store.segments.length s.store.roots.length ∧
      (s.step (.make name what)).2.store.segmentOf? key = some s.store.segments.length := by
  have faithful := perform_faithful (.make name what) tracked.ready.faithful
  obtain ⟨g, t, finds, attached, handles⟩ := make_bound looks placed bound
  cases finds with
  | named names =>
      rw [free] at names
      cases names
  | made _ opened =>
      -- The sweep takes no key away here: the one root over the segment has a name.
      obtain ⟨reached, openedAs⟩ := opened_of_attached faithful opened.roots attached handles
      have spared := spared_of_created tracked.keyed opened attached reached
      have performed := tracked.performed orderly
      have swept := (s.perform (.make name what)).2.sweep_ends performed.ready.sound.mapped
      have distinct : (s.step (.make name what)).2.store.Distinct :=
        (tracked.step orderly).keyed.distinct
      refine ⟨openedAs, Store.Distinct.segmentOf? distinct other ?_⟩
      have same := congrFun (Store.keyOf?_of_segments attached.segments) s.store.segments.length
      have new := opened.keyOf? s.store.segments.length
      rw [if_pos rfl] at new
      exact (swept.unnames.kept spared).trans (same.trans new)

/-- Attaching to a key that names nothing does no more than to look the key up. -/
theorem make_missing {place : SegmentPlace} {options : SegmentOptions}
    (placed : (s.placeKey place).1 = .ok key) (other : key ≠ .anonymous)
    (free : s.store.segmentOf? key = none)
    (plain : options.flags.has SegmentFlags.create = false) :
    s.make name (.attachSegment place options) =
      (.fault (.os "shmget" .notFound), (s.placeKey place).2) := by
  have beside := s.placeKey_alongside place
  simp only [make, bindSegment]
  rcases at_place : s.placeKey place with ⟨found, after⟩
  rw [at_place] at placed beside
  cases placed
  have store : after.store = s.store := beside.store
  have fails := Region.attach_missing other free plain
  simp only [bindRegion, bindMade, Operation.bind_run, store, fails]
  rw [← store]

/-- Nothing lay over a segment before it was made. -/
theorem Tracked.unseen (tracked : s.Tracked) (r : Region) :
    ¬ s.store.LiesOver r s.store.segments.length := by
  rintro ⟨root, a, source, new⟩
  exact absurd (tracked.keyed.there source) (Nat.not_lt.mpr (Nat.le_of_eq new.symm))

/-- A segment that was just made is all zero. -/
theorem Tracked.zeroed {id : RootId} (tracked : s.Tracked)
    (orderly : (Command.make name what).Orderly)
    (looks : what.looking? = some l) (bound : (s.step (.make name what)).1 = .bound)
    (openedAs : (s.step (.make name what)).2.OpenedAs name l s.store.segments.length id) :
    (s.step (.make name what)).2.store.flat.arrays (.segment s.store.segments.length) =
      some (List.replicate l.size 0) := by
  obtain ⟨found, -, lies, -⟩ := openedAs
  have step := tracked.step orderly
  obtain ⟨-, -, coherent⟩ := step_performs (.make name what) tracked.ready.sound.apart
  generalize s.step (.make name what) = result at *
  obtain ⟨reply, after⟩ := result
  cases bound
  obtain ⟨seat, seats, lays⟩ := coherent
  have leads : after.seats name = some (.region (.ofRoot id l.size)) := by
    simp only [Session.seats, found, Option.map_some, Handle.seat]
  rw [seats, Seats.set, if_pos rfl] at leads
  cases leads
  obtain ⟨length, ground⟩ := step.keyed.ground lies
  obtain ⟨root, a, source, same⟩ := lies
  have inside := step.keyed.there source
  rw [same] at inside
  obtain ⟨whole, held⟩ := step.ready.sound.apart.array_of_segment inside
  have attaches : s.store.flat.Attaches after.store.flat (.ofRoot id l.size) l.size := by
    cases what <;> cases looks <;> exact lays.2
  obtain ⟨g, M, there, -, shares⟩ := attaches
  rw [shares] at ground held ⊢
  have same : g = s.store.segments.length := by
    simp only [FlatMemory.add, if_true, Option.some.injEq, Ground.mk.injEq, Home.segment.injEq]
      at ground
    exact ground.1
  -- Had the array been there before, so had the segment.
  rcases there with old | ⟨-, new⟩
  · have nothing : M.arrays (.segment s.store.segments.length) = some whole := held
    rw [old, s.store.array_of_new] at nothing
    cases nothing
  · show M.arrays (.segment s.store.segments.length) = _
    rw [new, same]
    exact if_pos rfl

end Session

end BoundedMemory
