import BoundedMemory.Proofs.Coherence.Statement

/-!
Making regions and buffers is coherent with flat memory.
-/

namespace BoundedMemory.Session

variable {s : Session} {name : String}

/-- A region that is made is bound if it is there, and its root lies as it should. -/
private theorem bindRegion_performs {what : Making} {make : Action Store Region}
    {lays : Region → FlatMemory → Prop} {before : Session} (beside : Alongside before s)
    (makes : Region.Makes make s.store lays)
    (laid : ∀ r M', before.store.flat.grounds r.root = none → lays r M' →
      what.Lays before before.store.flat M' (.region r)) :
    Performs (.make name what) before (s.bindRegion name make) := by
  have same := beside.seats
  have grows := makes.grows
  have made := makes.made
  unfold Operation.after at grows
  unfold Performs bindRegion bindMade
  simp only [Operation.bind_run]
  rw [beside.store] at grows made ⊢
  cases run : make before.store with
  | error e store =>
      simp only [run] at grows
      cases e <;> exact ⟨grows.apart, grows.wider, same⟩
  | ok r store =>
      simp only [run] at grows
      obtain ⟨new, lies⟩ := made r store run
      refine ⟨grows.apart, grows.wider, .region r, ?_, laid r _ new lies⟩
      rw [← same]
      exact seats_bind _

/-- A buffer that is not there is not wrapped. -/
private theorem missing_performs {what : Making} {make : Action Store Region} (h : s.store.Apart)
    (run : make s.store = .error .trap s.store) :
    Performs (.make name what) s (s.bindRegion name make) := by
  unfold Performs bindRegion bindMade
  simp only [Operation.bind_run, run]
  exact ⟨h, .refl _, rfl⟩

private theorem bindSegment_performs {what : Making} {place : SegmentPlace}
    {look : SegmentKey → Action Store Region} {lays : Region → FlatMemory → Prop}
    (h : s.store.Apart) (makes : ∀ key, Region.Makes (look key) s.store lays)
    (laid : ∀ r M', s.store.flat.grounds r.root = none → lays r M' →
      what.Lays s s.store.flat M' (.region r)) :
    Performs (.make name what) s (s.bindSegment name place look) := by
  have beside := s.placeKey_alongside place
  unfold bindSegment
  cases placed : s.placeKey place with
  | mk found after =>
      rw [placed] at beside
      have beside : Alongside s after := beside
      cases found with
      | ok key =>
          refine bindRegion_performs beside ?_ laid
          rw [beside.store]
          exact makes key
      | error cause =>
          refine ⟨?_, ?_, beside.seats⟩
          · exact beside.store ▸ h
          · exact beside.store ▸ .refl s.store.flat

private theorem seats_of_buffer? {id : BufferId} (bound : s.buffer? name = some id) :
    s.seats name = some (.buffer id) := by
  unfold buffer? at bound
  cases found : s.handles.find? name with
  | none => simp [found] at bound
  | some handle =>
      cases handle with
      | buffer other =>
          simp only [found, Option.some.injEq] at bound
          simp only [seats, found, Option.map_some, Handle.seat, bound]
      | _ => simp [found] at bound

/-- Its first bytes are those that were given, and the rest are zero. -/
private theorem newBuffer_performs (size : Nat) (bytes : Bytes) (h : s.store.Apart) :
    Performs (.make name (.newBuffer size bytes)) s (s.make name (.newBuffer size bytes)) := by
  unfold Performs
  simp only [make, makeBuffer]
  by_cases usable : bytes.length ≤ size ∧ size < Word.modulus
  · simp only [usable, and_self, if_true]
    rcases Buffer.allocateWith_cases h size bytes with
      ⟨e, store, run, grows⟩ | ⟨id, store, run, apart, new, flat⟩
    · simp only [run]
      cases e <;> exact ⟨grows.apart, grows.wider, rfl⟩
    · simp only [run]
      refine ⟨apart, ?_, .buffer id, seats_bind _, new, flat⟩
      show s.store.flat.Extends store.flat
      rw [flat]
      exact FlatMemory.extends_put new _
  · simp only [usable, if_false]
    exact ⟨h, .refl _, rfl⟩

/-- Where there is no memory there is no array. -/
private theorem nullBuffer_performs (length : Nat) (h : s.store.Apart) :
    Performs (.make name (.nullBuffer length)) s (s.make name (.nullBuffer length)) := by
  obtain ⟨apart, flat⟩ := h.addNullBuffer (b := { block := none, length, capacity := 0 }) rfl
  refine ⟨apart, ?_, .buffer s.store.buffers.length, seats_bind _, ?_, flat⟩
  · exact flat ▸ FlatMemory.Extends.refl s.store.flat
  · simp only [Store.flat, Store.blockOf?, List.getElem?_eq_none (Nat.le_refl _),
      Option.bind_none]

theorem make_performs (what : Making) (h : s.store.Apart) :
    Performs (.make name what) s (s.make name what) := by
  have here : Alongside s s := ⟨rfl, rfl⟩
  cases what with
  | newArray size =>
      refine bindRegion_performs here (Region.ofBytes_makes h (List.replicate size 0)) ?_
      intro r M' new lies
      rw [List.length_replicate] at lies
      exact ⟨new, lies⟩
  | ofBytes bytes =>
      exact bindRegion_performs here (Region.ofBytes_makes h bytes) fun _ _ new lies => ⟨new, lies⟩
  | ofBytesWithin bytes offset length =>
      exact bindRegion_performs here (Region.ofBytesWithin_makes h bytes offset length)
        fun _ _ new lies => ⟨new, lies⟩
  | allocate size byte =>
      exact bindRegion_performs here (Region.allocate_clear_makes h size byte)
        fun _ _ new lies => ⟨new, lies⟩
  | allocateZeroed size =>
      exact bindRegion_performs here (Region.newHeap_makes h .zeroedHeap "allocate_zeroed" size 0)
        fun _ _ new lies => ⟨new, lies⟩
  | allocateFilled size byte =>
      exact bindRegion_performs here (Region.newHeap_makes h .heap "allocate_filled" size byte)
        fun _ _ new lies => ⟨new, lies⟩
  | newBuffer size bytes => exact newBuffer_performs size bytes h
  | nullBuffer length => exact nullBuffer_performs length h
  | bufferAgain buffer =>
      simp only [make]
      cases found : s.buffers.find? buffer with
      | none => exact ⟨h, .refl _, rfl⟩
      | some id =>
          by_cases alive : ((s.store.buffers[id]?).any fun b => b.alive) = true
          · simp only [alive, if_true]
            exact ⟨h, .refl _, .buffer id, seats_bind _, found, rfl⟩
          · simp only [alive]
            exact ⟨h, .refl _, rfl⟩
  | wrap buffer =>
      simp only [make]
      cases bound : s.buffer? buffer with
      | none => exact ⟨h, .refl _, rfl⟩
      | some id =>
          cases found : s.store.buffers[id]? with
          | none => exact missing_performs h (by simp [Region.wrap, Operation.bind_run, found])
          | some b =>
              refine bindRegion_performs here (Region.wrap_makes h found) ?_
              intro r M' new lies
              exact ⟨new, id, b, seats_of_buffer? bound, found, lies⟩
  | wrapWithin buffer offset length =>
      simp only [make]
      cases bound : s.buffer? buffer with
      | none => exact ⟨h, .refl _, rfl⟩
      | some id =>
          cases found : s.store.buffers[id]? with
          | none =>
              exact missing_performs h (by simp [Region.wrapWithin, Operation.bind_run, found])
          | some b =>
              refine bindRegion_performs here (Region.wrapWithin_makes h found offset length) ?_
              intro r M' new lies
              exact ⟨new, id, seats_of_buffer? bound, lies⟩
  | attachSegment place options =>
      exact bindSegment_performs h (fun key => Region.attachSegment_makes h key options)
        fun _ _ new lies => ⟨new, lies⟩
  | createSegment place options =>
      exact bindSegment_performs h (fun key => Region.createSegment_makes h key options)
        fun _ _ new lies => ⟨new, lies⟩

end BoundedMemory.Session
