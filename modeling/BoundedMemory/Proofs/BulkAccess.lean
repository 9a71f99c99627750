import BoundedMemory.Proofs.Independence
import BoundedMemory.Proofs.Outcomes
import BoundedMemory.Proofs.Records

/-!
Access to many elements at once is access to one after another. A list is written by writing
its elements in their order, each behind the one before, and is read by reading each of them;
a range is cleared by writing one byte over and over. What is refused to one of the elements
is refused to all of them, and then none is touched.
-/

namespace BoundedMemory

section Ranges

variable {r : Region} {s s₁ s₂ : Store} {offset n : Nat} {xs ys bytes : Bytes}

/-- What is written right behind something else could have been written together with it. -/
theorem Region.poke?_append (first : r.poke? s offset xs = some s₁)
    (second : r.poke? s₁ (offset + xs.length) ys = some s₂) :
    r.poke? s offset (xs ++ ys) = some s₂ := by
  obtain ⟨root, b, reach, rfl⟩ := poke?_eq_some_iff.mp first
  obtain ⟨root', b', reach', rfl⟩ := poke?_eq_some_iff.mp second
  have same : root' = root := Option.some.inj (reach'.found.symm.trans reach.found)
  subst same
  have stored := reach'.stored.symm.trans (Store.getElem?_setBytes_same reach.stored)
  rw [Option.some.injEq] at stored
  subst stored
  have inRoot := reach'.inRoot
  have inBlock := reach'.inBlock
  have stopFits := reach'.stopFits
  simp only [length_splice reach.inBlock] at inBlock
  refine poke?_eq_some_iff.mpr ⟨root', b, { reach with
    inRoot := ?_, inBlock := ?_, stopFits := ?_ }, ?_⟩
  · rw [List.length_append]
    omega
  · rw [List.length_append]
    omega
  · rw [List.length_append]
    omega
  · have behind : root'.base + (r.base + (offset + xs.length)) =
        root'.base + (r.base + offset) + xs.length := by omega
    simp only [Store.setBytes, List.set_set, behind, splice_splice_append reach.inBlock]

/-- What is read is there in each of its parts. -/
theorem Region.Served.peek?_inner (served : r.Served s) (valid : r.isValid s = true)
    (fits : offset + n ≤ r.length) {i m : Nat} (inside : i + m ≤ n) (long : m ≠ 0)
    (there : r.peek? s offset n = some bytes) :
    r.peek? s (offset + i) m = some (cut bytes i m) := by
  obtain ⟨root, b, reach, rfl⟩ := peek?_eq_some_iff.mp there
  have low : offset + i + m ≤ r.length := by omega
  obtain ⟨root', b', reach'⟩ := served.reach valid low long
  have same : root' = root := Option.some.inj (reach'.found.symm.trans reach.found)
  subst same
  have stored : b' = b := Option.some.inj (reach'.stored.symm.trans reach.stored)
  subst stored
  have place : root'.base + (r.base + (offset + i)) = root'.base + (r.base + offset) + i := by omega
  exact peek?_eq_some_iff.mpr ⟨root', b', reach', by rw [cut_cut inside, place]⟩

/-- A range is refused exactly if one of the elements that make it up is. -/
theorem Region.refusal?_elements_iff {access : Access} {operation : String} {count width : Nat}
    (nonempty : count ≠ 0) :
    r.refusal? s access operation offset (count * width) = none ↔
      ∀ i < count, r.refusal? s access operation (offset + i * width) width = none := by
  simp only [refusal?_eq_none_iff]
  constructor
  · rintro ⟨valid, fixed, allowed, fits⟩ i below
    have within : (i + 1) * width ≤ count * width := Nat.mul_le_mul_right width below
    rw [Nat.succ_mul] at within
    exact ⟨valid, fixed, allowed, by omega⟩
  · intro each
    obtain ⟨last, rfl⟩ := Nat.exists_eq_succ_of_ne_zero nonempty
    obtain ⟨valid, fixed, allowed, fits⟩ := each last (Nat.lt_succ_self last)
    rw [Nat.succ_mul]
    exact ⟨valid, fixed, allowed, by omega⟩

end Ranges

namespace Transfer

variable {r : Region} {s s₁ s₂ : Store} {offset count : Nat} {t : ScalarType} {order : ByteOrder}
  {v : Scalar t} {vs : List (Scalar t)} {x : Transfer}

theorem writeSlice_free_iff (served : r.Served s) (nonempty : vs ≠ []) :
    (writeSlice t vs order).refusal? r s offset = none ↔
      ∀ i (h : i < vs.length),
        (write t vs[i] order).refusal? r s (offset + i * t.width) = none := by
  have long : vs.length ≠ 0 := fun nothing => nonempty (List.length_eq_zero_iff.mp nothing)
  simp only [free_iff served, listFault?, and_true, size, direction, operation]
  exact Region.refusal?_elements_iff long

theorem readSlice_free_iff (served : r.Served s) (nonempty : count ≠ 0) :
    (readSlice t count order).refusal? r s offset = none ↔
      ∀ i < count, (read t order).refusal? r s (offset + i * t.width) = none := by
  simp only [free_iff served, listFault?, and_true, size, direction, operation]
  exact Region.refusal?_elements_iff nonempty

theorem readBytes_free_iff (served : r.Served s) (order : ByteOrder) (nonempty : count ≠ 0) :
    (readBytes count).refusal? r s offset = none ↔
      ∀ i < count, (read .u8 order).refusal? r s (offset + i) = none := by
  have single : r.refusal? s .read "get" offset (count * 1) = none ↔
      ∀ i < count, r.refusal? s .read "get" (offset + i * 1) 1 = none :=
    Region.refusal?_elements_iff nonempty
  simp only [Nat.mul_one] at single
  simp only [free_iff served, listFault?, and_true, size, direction, operation]
  exact single

/-- A range may be cleared where one byte may be written over and over. -/
theorem clear_free_iff (served : r.Served s) (byte : UInt8) :
    (clear byte count).refusal? r s offset = none ↔
      (writeSlice .u8 (List.replicate count (Scalar.ofByte byte)) order).refusal? r s offset =
        none := by
  simp only [free_iff served, listFault?, and_true, size, direction, operation,
    Region.refusal?_eq_none_iff, List.length_replicate, ScalarType.width, Nat.mul_one]

/-- A list is written by writing its first element, and behind it the others. -/
theorem outcome?_writeSlice_cons
    (first : (write t v order).outcome? r s offset = some (.done, s₁))
    (rest : (writeSlice t vs order).outcome? r s₁ (offset + t.width) = some (.done, s₂)) :
    (writeSlice t (v :: vs) order).outcome? r s offset = some (.done, s₂) := by
  have wide : t.width ≠ 0 := Nat.ne_of_gt t.width_pos
  have length : (v.encode order).length = t.width := Scalar.length_encode order v
  have payload : Scalar.encodeAll order (v :: vs) =
      v.encode order ++ Scalar.encodeAll order vs := rfl
  have size : (v :: vs).length * t.width ≠ 0 := Nat.mul_ne_zero (Nat.succ_ne_zero _) wide
  simp only [outcome?, Transfer.size, wide, size, if_false, direction, Transfer.payload,
    answer, Option.map_eq_some_iff, Prod.mk.injEq, true_and, exists_eq_right] at first rest ⊢
  rw [payload]
  cases vs with
  | nil =>
      simp only [List.length_nil, Nat.zero_mul, if_true, Option.some.injEq, Prod.mk.injEq,
        true_and] at rest
      subst rest
      rwa [Scalar.encodeAll, List.flatMap_nil, List.append_nil]
  | cons w ws =>
      have more : (w :: ws).length * t.width ≠ 0 := Nat.mul_ne_zero (Nat.succ_ne_zero _) wide
      simp only [more, if_false, Option.map_eq_some_iff, Prod.mk.injEq, true_and,
        exists_eq_right] at rest
      exact Region.poke?_append first (length.symm ▸ rest)

/-- A scalar is read as what the bytes in its place stand for. -/
theorem outcome?_read_inner (served : r.Served s) (valid : r.isValid s = true) {n i : Nat}
    (fits : offset + n ≤ r.length) {bytes : Bytes} (there : r.peek? s offset n = some bytes)
    (inside : i + t.width ≤ n) (order : ByteOrder) :
    (read t order).outcome? r s (offset + i) =
      some (.scalar t (Scalar.decode t order (cut bytes i t.width)), s) := by
  have wide : t.width ≠ 0 := Nat.ne_of_gt t.width_pos
  have part := served.peek?_inner valid fits inside wide there
  simp only [outcome?, size, wide, if_false, direction, part, Option.map_some, answer]

/-- What was read of a list is what is read of each of its elements. -/
theorem outcome?_readSlice (served : r.Served s)
    (free : (readSlice t count order).refusal? r s offset = none) {reply : Reply} {after : Store}
    (result : (readSlice t count order).outcome? r s offset = some (reply, after)) :
    ∃ vs : List (Scalar t), reply = .scalars t vs ∧ vs.length = count ∧ after = s ∧
      ∀ i (h : i < vs.length),
        (read t order).outcome? r s (offset + i * t.width) = some (.scalar t vs[i], s) := by
  obtain ⟨-, allowed, -⟩ := refusal?_eq_none_iff.mp free
  obtain ⟨valid, -, -, fits⟩ := Region.refusal?_eq_none_iff.mp allowed
  by_cases nothing : count = 0
  · subst nothing
    simp only [outcome?, size, Nat.zero_mul, if_true, answer, chunks, List.map_nil,
      Option.some.injEq, Prod.mk.injEq] at result
    exact ⟨[], result.1.symm, rfl, result.2.symm, fun i below => absurd below (Nat.not_lt_zero i)⟩
  · have long : count * t.width ≠ 0 := Nat.mul_ne_zero nothing (Nat.ne_of_gt t.width_pos)
    simp only [outcome?, size, long, if_false, direction, answer, Option.map_eq_some_iff,
      Prod.mk.injEq] at result
    obtain ⟨bytes, there, rfl, rfl⟩ := result
    have length : ((chunks t.width count bytes).map (Scalar.decode t order)).length = count := by
      rw [List.length_map, length_chunks]
    refine ⟨_, rfl, length, rfl, fun i below => ?_⟩
    have below' : i < count := length ▸ below
    have within : i * t.width + t.width ≤ count * t.width := by
      rw [← Nat.succ_mul]
      exact Nat.mul_le_mul_right t.width below'
    have chunk := getElem?_chunks t.width count i bytes
    rw [if_pos below'] at chunk
    rw [outcome?_read_inner served valid fits there within, List.getElem_map,
      (List.getElem?_eq_some_iff.mp chunk).2]

/-- The bytes of a range are what is read of it byte by byte. -/
theorem outcome?_readBytes (served : r.Served s)
    (free : (readBytes count).refusal? r s offset = none) {reply : Reply} {after : Store}
    (result : (readBytes count).outcome? r s offset = some (reply, after)) :
    ∃ bytes, reply = .bytes bytes ∧ bytes.length = count ∧ after = s ∧
      ∀ i (h : i < bytes.length) (order : ByteOrder), (read .u8 order).outcome? r s (offset + i) =
        some (.scalar .u8 (Scalar.ofByte bytes[i]), s) := by
  obtain ⟨-, allowed, -⟩ := refusal?_eq_none_iff.mp free
  obtain ⟨valid, -, -, fits⟩ := Region.refusal?_eq_none_iff.mp allowed
  by_cases nothing : count = 0
  · subst nothing
    simp only [outcome?, size, if_true, answer, Option.some.injEq, Prod.mk.injEq] at result
    exact ⟨[], result.1.symm, rfl, result.2.symm, fun i below => absurd below (Nat.not_lt_zero i)⟩
  · simp only [outcome?, size, nothing, if_false, direction, answer, Option.map_eq_some_iff,
      Prod.mk.injEq] at result
    obtain ⟨bytes, there, rfl, rfl⟩ := result
    have length : bytes.length = count := Region.length_of_peek? there
    refine ⟨bytes, rfl, length, rfl, fun i below order => ?_⟩
    have element : cut bytes i ScalarType.u8.width = [bytes[i]] := by
      rw [cut, List.drop_eq_getElem_cons below]
      rfl
    rw [outcome?_read_inner served valid fits there (length ▸ below), element, Scalar.decode_byte]

section Lists

variable {target source : List (Scalar t)} {start : Nat}

/-- Part of a list is written as that part by itself. -/
theorem run_writeElements (inside : start + count ≤ source.length) :
    (writeElements t source start count order).run r offset s =
      (writeSlice t (cut source start count) order).run r offset s := by
  have length : (cut source start count).length = count := length_cut inside
  have refusal : (writeElements t source start count order).refusal? r s offset =
      (writeSlice t (cut source start count) order).refusal? r s offset := by
    simp only [refusal?, lengthFault?, listFault?, inside, if_true, direction, operation, size,
      length]
  have outcome : (writeElements t source start count order).outcome? r s offset =
      (writeSlice t (cut source start count) order).outcome? r s offset := by
    simp only [outcome?, direction, size, length, payload, answer]
    rfl
  rw [run_eq, run_eq, refusal, outcome]

theorem refusal?_readElements (inside : start + count ≤ target.length) :
    (readElements t target start count order).refusal? r s offset =
      (readSlice t count order).refusal? r s offset := by
  simp only [refusal?, lengthFault?, listFault?, inside, if_true, direction, operation, size]

/-- Part of a list is filled with what is read for that part by itself. -/
theorem outcome?_readElements
    (result : (readSlice t count order).outcome? r s offset = some (.scalars t vs, s₁)) :
    (readElements t target start count order).outcome? r s offset =
      some (.filled t none (splice target start vs), s₁) := by
  simp only [outcome?, size, direction, answer] at result ⊢
  by_cases nothing : count * t.width = 0
  · simp only [nothing, if_true, Option.some.injEq, Prod.mk.injEq, Reply.scalars.injEq, heq_eq_eq,
      true_and] at result ⊢
    obtain ⟨rfl, rfl⟩ := result
    exact ⟨rfl, rfl⟩
  · simp only [nothing, if_false, Option.map_eq_some_iff, Prod.mk.injEq, Reply.scalars.injEq,
      heq_eq_eq, true_and] at result ⊢
    obtain ⟨bytes, there, rfl, rfl⟩ := result
    exact ⟨bytes, there, rfl, rfl⟩

/-- A range is cleared by writing one byte over and over. -/
theorem outcome?_clear (byte : UInt8) :
    (clear byte count).outcome? r s offset =
      (writeSlice .u8 (List.replicate count (Scalar.ofByte byte)) order).outcome? r s offset := by
  rw [← List.map_replicate]
  simp only [outcome?, size, direction, payload, answer, Scalar.encodeAll_map_ofByte,
    List.length_map, List.length_replicate, ScalarType.width, Nat.mul_one]
  rfl

end Lists

end Transfer

namespace Session

/-- What a use of the region under a name comes to. -/
def through (s : Session) (name : String) (how : RegionUse) : Reply × Session :=
  s.step (.use name (.region how))

/-- The single writes that a list of values amounts to, each behind the one before. -/
def writes {t : ScalarType} (name : String) (offset : Nat) (vs : List (Scalar t))
    (order : ByteOrder) : List Command :=
  vs.mapIdx fun i v => .use name (.region (.write t (offset + i * t.width) v order))

variable {s : Session} {name : String} {r : Region} {how : RegionUse} {x : Transfer} {offset : Nat}

theorem writes_cons {t : ScalarType} (name : String) (offset : Nat) (v : Scalar t)
    (vs : List (Scalar t)) (order : ByteOrder) :
    writes name offset (v :: vs) order =
      .use name (.region (.write t offset v order)) :: writes name (offset + t.width) vs order := by
  have place (i : Nat) : offset + (i + 1) * t.width = offset + t.width + i * t.width := by
    rw [Nat.succ_mul]
    omega
  simp only [writes, List.mapIdx_cons, Nat.zero_mul, Nat.add_zero, place]

/-- With nothing to sweep, an access does to a session what it does to memory. -/
theorem Tidy.through_eq (tidy : s.Tidy) (found : s.handles.find? name = some (.region r))
    (moves : r.transfer? how = some (x, offset)) :
    s.through name how = s.use name (.region how) := by
  have harmless : ¬ (Use.region how).Ends := by
    cases how <;> simp [Use.Ends, Region.transfer?] at moves ⊢
  have alike : s.store.Resembles (s.use name (.region how)).2.store := use_resembles harmless
  have swept : (s.use name (.region how)).2.Swept := by
    rw [use_transfer found moves] at alike ⊢
    exact tidy.swept.of_seats tidy.faithful tidy.faithful rfl alike
  show ((s.use name (.region how)).1, (s.use name (.region how)).2.sweep) = _
  rw [swept.sweep_eq]

theorem Tidy.through_refused (tidy : s.Tidy) (found : s.handles.find? name = some (.region r))
    (moves : r.transfer? how = some (x, offset)) {fault : Fault}
    (refused : x.refusal? r s.store offset = some fault) :
    s.through name how = (how.failure fault, s) := by
  rw [tidy.through_eq found moves, use_refused found moves refused]

theorem Tidy.through_free (tidy : s.Tidy) (found : s.handles.find? name = some (.region r))
    (moves : r.transfer? how = some (x, offset)) (free : x.refusal? r s.store offset = none)
    {reply : Reply} {store : Store}
    (result : x.outcome? r s.store offset = some (reply, store)) :
    s.through name how = (reply, { s with store }) := by
  have run : x.run r offset s.store = .ok reply store := Transfer.run_eq_ok_iff.mpr ⟨free, result⟩
  rw [tidy.through_eq found moves, use_transfer found moves]
  unfold Operation.settle
  simp only [run]
  rfl

/-- Uses that are the same access are the same. -/
theorem through_congr {how' : RegionUse} {y : Transfer} {offset' : Nat}
    (found : s.handles.find? name = some (.region r)) (moves : r.transfer? how = some (x, offset))
    (moves' : r.transfer? how' = some (y, offset')) (failure : how.failure = how'.failure)
    (run : x.run r offset s.store = y.run r offset' s.store) :
    s.through name how = s.through name how' := by
  have used := use_transfer found moves
  have used' := use_transfer found moves'
  unfold Operation.settle at used used'
  rw [run, failure, ← used'] at used
  simp only [through, step, perform, used]

section Reached

variable (ready : s.Ready) (tidy : s.Tidy) (found : s.handles.find? name = some (.region r))

include ready tidy found

/-- An access is refused, or goes through and does what it is for. -/
theorem Ready.through_cases (moves : r.transfer? how = some (x, offset)) :
    (∃ fault, x.refusal? r s.store offset = some fault ∧
        s.through name how = (how.failure fault, s)) ∨
      x.refusal? r s.store offset = none ∧ ∃ reply store,
        x.outcome? r s.store offset = some (reply, store) ∧
          s.through name how = (reply, { s with store }) := by
  cases refused : x.refusal? r s.store offset with
  | some fault => exact .inl ⟨fault, rfl, tidy.through_refused found moves refused⟩
  | none =>
      obtain ⟨reply, store, result⟩ := Transfer.outcome?_of_served (ready.served found rfl) refused
      exact .inr ⟨rfl, reply, store, result, tidy.through_free found moves refused result⟩

/-- The replies of which something is true tell of success, if it is true of all answers and
of no fault. -/
theorem Ready.told_iff {P : Reply → Prop} (moves : r.transfer? how = some (x, offset))
    (answers : ∀ bytes, P (x.answer bytes)) (faults : ∀ fault, ¬ P (how.failure fault)) :
    P (s.through name how).1 ↔ x.refusal? r s.store offset = none := by
  rcases ready.through_cases tidy found moves with
    ⟨fault, refused, came⟩ | ⟨free, reply, store, result, came⟩
  · rw [came, refused]
    exact ⟨fun told => absurd told (faults fault), fun free => by cases free⟩
  · obtain ⟨bytes, rfl⟩ := Transfer.answer_of_outcome? result
    rw [came, free]
    exact ⟨fun _ => rfl, fun _ => answers bytes⟩

/-- A change is made unless something speaks against it. -/
theorem Ready.done_iff (moves : r.transfer? how = some (x, offset))
    (change : x.direction = .write) :
    (s.through name how).1 = .done ↔ x.refusal? r s.store offset = none := by
  refine ready.told_iff (P := (· = .done)) tidy found moves (fun bytes => ?_) fun fault => ?_
  · cases x <;> cases change <;> rfl
  · cases how <;> exact Reply.noConfusion

/-- A scalar is read unless something speaks against it. -/
theorem Ready.scalar_iff {t : ScalarType} {order : ByteOrder} :
    (∃ v, (s.through name (.read t offset order)).1 = .scalar t v) ↔
      (Transfer.read t order).refusal? r s.store offset = none :=
  ready.told_iff (P := fun reply => ∃ v, reply = .scalar t v) tidy found rfl
    (fun _ => ⟨_, rfl⟩) fun _ ⟨_, same⟩ => nomatch same

theorem Ready.scalars_iff {t : ScalarType} {count : Nat} {order : ByteOrder} :
    (∃ vs, (s.through name (.readSlice t offset count order)).1 = .scalars t vs) ↔
      (Transfer.readSlice t count order).refusal? r s.store offset = none :=
  ready.told_iff (P := fun reply => ∃ vs, reply = .scalars t vs) tidy found rfl
    (fun _ => ⟨_, rfl⟩) fun _ ⟨_, same⟩ => nomatch same

theorem Ready.bytes_iff :
    (∃ bytes, (s.through name .toBytes).1 = .bytes bytes) ↔
      (Transfer.readBytes r.length).refusal? r s.store 0 = none :=
  ready.told_iff (P := fun reply => ∃ bytes, reply = .bytes bytes) tidy found rfl
    (fun bytes => ⟨bytes, rfl⟩) fun _ ⟨_, same⟩ => nomatch same

/-- A single write that nothing speaks against. -/
theorem Ready.write_through {t : ScalarType} {v : Scalar t} {order : ByteOrder}
    (free : (Transfer.write t v order).refusal? r s.store offset = none) :
    ∃ store, (Transfer.write t v order).outcome? r s.store offset = some (.done, store) ∧
      s.through name (.write t offset v order) = (.done, { s with store }) := by
  have moves : r.transfer? (.write t offset v order) = some (.write t v order, offset) := rfl
  have done := (ready.done_iff tidy found moves rfl).mpr free
  rcases ready.through_cases tidy found moves with
    ⟨fault, refused, -⟩ | ⟨-, reply, store, result, came⟩
  · rw [free] at refused
    cases refused
  · rw [came] at done
    exact ⟨store, done ▸ result, done ▸ came⟩

/-- Values that could each be written are written one after another, and leave what they
leave when they are written at once. -/
theorem Ready.run_writes {t : ScalarType} {vs : List (Scalar t)} {order : ByteOrder}
    (free : ∀ i (h : i < vs.length),
      (Transfer.write t vs[i] order).refusal? r s.store (offset + i * t.width) = none) :
    ∃ store, (Transfer.writeSlice t vs order).outcome? r s.store offset = some (.done, store) ∧
      Session.run (writes name offset vs order) s =
        (List.replicate vs.length .done, { s with store }) := by
  induction vs generalizing s offset with
  | nil => exact ⟨s.store, by simp [Transfer.outcome?, Transfer.size, Transfer.answer], rfl⟩
  | cons v vs ih =>
      have first : (Transfer.write t v order).refusal? r s.store offset = none := by
        simpa using free 0 (Nat.zero_lt_succ _)
      obtain ⟨store₁, wrote, came⟩ := ready.write_through tidy found first
      have alike : s.store.Resembles store₁ :=
        Transfer.resembles (Transfer.run_eq_ok_iff.mpr ⟨first, wrote⟩)
      have ready₁ : (s.step (.use name (.region (.write t offset v order)))).2.Ready :=
        ready.step trivial
      have tidy₁ := tidy.step (.use name (.region (.write t offset v order)))
      unfold through at came
      rw [came] at ready₁ tidy₁
      have free₁ (i : Nat) (below : i < vs.length) :
          (Transfer.write t vs[i] order).refusal? r store₁ (offset + t.width + i * t.width) =
            none := by
        have next := free (i + 1) (Nat.succ_lt_succ below)
        have place : offset + (i + 1) * t.width = offset + t.width + i * t.width := by
          rw [Nat.succ_mul]
          omega
        rwa [Transfer.refusal?_congr (congrFun alike.isValid r.root), place] at next
      obtain ⟨store₂, later, ran⟩ := ih ready₁ tidy₁ found free₁
      refine ⟨store₂, Transfer.outcome?_writeSlice_cons wrote later, ?_⟩
      rw [writes_cons]
      simp only [Session.run, came, ran]
      rfl

end Reached

/-- What access to many elements of the region under a name has to do with access to one. -/
structure Elementwise (s : Session) (name : String) (r : Region) : Prop where
  /-- A list is written if each of its values could be, in its own place. -/
  writes_iff {t : ScalarType} (offset : Nat) {vs : List (Scalar t)} (order : ByteOrder) : vs ≠ [] →
    ((s.through name (.writeSlice t offset vs order)).1 = .done ↔ ∀ i (h : i < vs.length),
      (s.through name (.write t (offset + i * t.width) vs[i] order)).1 = .done)
  /-- It is written as these values are one after another. -/
  written {t : ScalarType} (offset : Nat) {vs : List (Scalar t)} (order : ByteOrder) :
    (s.through name (.writeSlice t offset vs order)).1 = .done →
      run (writes name offset vs order) s =
        (List.replicate vs.length .done, (s.through name (.writeSlice t offset vs order)).2)
  /-- A list is read if each of its values could be. -/
  reads_iff (t : ScalarType) (offset : Nat) {count : Nat} (order : ByteOrder) : count ≠ 0 →
    ((∃ vs, (s.through name (.readSlice t offset count order)).1 = .scalars t vs) ↔ ∀ i < count,
      ∃ v, (s.through name (.read t (offset + i * t.width) order)).1 = .scalar t v)
  /-- It is what these values are, and nothing is changed. -/
  read {t : ScalarType} {offset count : Nat} {order : ByteOrder} {vs : List (Scalar t)} :
    (s.through name (.readSlice t offset count order)).1 = .scalars t vs → vs.length = count ∧
      (s.through name (.readSlice t offset count order)).2 = s ∧ ∀ i (h : i < vs.length),
        s.through name (.read t (offset + i * t.width) order) = (.scalar t vs[i], s)
  /-- Part of a list is written as that part by itself, if there is such a part. -/
  writeElements {t : ScalarType} (offset : Nat) (source : List (Scalar t)) (start count : Nat)
      (order : ByteOrder) :
    if start + count ≤ source.length then
      s.through name (.writeElements t offset source start count order) =
        s.through name (.writeSlice t offset (cut source start count) order)
    else ∃ fault, s.through name (.writeElements t offset source start count order) =
      (.fault fault, s)
  /-- Part of a list is filled as that part by itself would be, and the rest stays. -/
  readElements {t : ScalarType} (offset : Nat) (target : List (Scalar t)) (start count : Nat)
      (order : ByteOrder) :
    (start + count ≤ target.length ∧ ∃ vs after,
      s.through name (.readSlice t offset count order) = (.scalars t vs, s) ∧
        s.through name (.readElements t offset target start count order) =
          (.filled t none after, s) ∧
        after.length = target.length ∧ cut after start count = vs ∧
          ∀ i, i < start ∨ start + count ≤ i → after[i]? = target[i]?) ∨
    ∃ fault, s.through name (.readElements t offset target start count order) =
        (.filled t (some fault) target, s) ∧
      (start + count ≤ target.length →
        s.through name (.readSlice t offset count order) = (.fault fault, s))
  /-- A range is cleared by writing one byte over and over. -/
  clear (byte : UInt8) (offset count : Nat) (order : ByteOrder) :
    let filling := List.replicate count (Scalar.ofByte byte)
    ((s.through name (.clear byte offset count)).1 = .done ↔
        (s.through name (.writeSlice .u8 offset filling order)).1 = .done) ∧
      (s.through name (.clear byte offset count)).2 =
        (s.through name (.writeSlice .u8 offset filling order)).2
  clearBetween (byte : UInt8) {first last : Nat} : first ≤ last →
    s.through name (.clearBetween byte first last) =
      s.through name (.clear byte first (last - first))
  clearAll (byte : UInt8) :
    s.through name (.clearAll byte) = s.through name (.clear byte 0 r.length)
  /-- All bytes are what is read byte by byte. -/
  toBytes {bytes : Bytes} : (s.through name .toBytes).1 = .bytes bytes →
    bytes.length = r.length ∧ (s.through name .toBytes).2 = s ∧
      ∀ i (h : i < bytes.length) (order : ByteOrder),
        s.through name (.read .u8 i order) = (.scalar .u8 (Scalar.ofByte bytes[i]), s)
  toBytes_iff (order : ByteOrder) : r.length ≠ 0 →
    ((∃ bytes, (s.through name .toBytes).1 = .bytes bytes) ↔ ∀ i < r.length,
      ∃ v, (s.through name (.read .u8 i order)).1 = .scalar .u8 v)

section Reached

variable (ready : s.Ready) (tidy : s.Tidy) (found : s.handles.find? name = some (.region r))

include ready tidy found

private theorem Ready.read_elements {t : ScalarType} {count : Nat} {order : ByteOrder}
    {vs : List (Scalar t)}
    (told : (s.through name (.readSlice t offset count order)).1 = .scalars t vs) :
    vs.length = count ∧ (s.through name (.readSlice t offset count order)).2 = s ∧
      ∀ i (h : i < vs.length),
        s.through name (.read t (offset + i * t.width) order) = (.scalar t vs[i], s) := by
  have served := ready.served found rfl
  have moves : r.transfer? (.readSlice t offset count order) =
      some (.readSlice t count order, offset) := rfl
  rcases ready.through_cases tidy found moves with
    ⟨fault, refused, came⟩ | ⟨free, reply, store, result, came⟩
  · rw [came] at told
    cases told
  · obtain ⟨vs', rfl, length, rfl, each⟩ := Transfer.outcome?_readSlice served free result
    rw [came] at told ⊢
    cases told
    refine ⟨length, rfl, fun i below => ?_⟩
    have nonempty : count ≠ 0 := by omega
    have single := (Transfer.readSlice_free_iff served nonempty).mp free i (length ▸ below)
    exact tidy.through_free found rfl single (each i below)

private theorem Ready.read_bytes {bytes : Bytes}
    (told : (s.through name .toBytes).1 = .bytes bytes) :
    bytes.length = r.length ∧ (s.through name .toBytes).2 = s ∧
      ∀ i (h : i < bytes.length) (order : ByteOrder),
        s.through name (.read .u8 i order) = (.scalar .u8 (Scalar.ofByte bytes[i]), s) := by
  have served := ready.served found rfl
  have moves : r.transfer? .toBytes = some (.readBytes r.length, 0) := rfl
  rcases ready.through_cases tidy found moves with
    ⟨fault, refused, came⟩ | ⟨free, reply, store, result, came⟩
  · rw [came] at told
    cases told
  · obtain ⟨bytes', rfl, length, rfl, each⟩ := Transfer.outcome?_readBytes served free result
    rw [came] at told ⊢
    cases told
    refine ⟨length, rfl, fun i below order => ?_⟩
    have nonempty : r.length ≠ 0 := by omega
    have single := (Transfer.readBytes_free_iff served order nonempty).mp free i (length ▸ below)
    have value := each i below order
    rw [Nat.zero_add] at single value
    exact tidy.through_free found rfl single value

private theorem Ready.fill_elements {t : ScalarType} {target : List (Scalar t)} {start count : Nat}
    {order : ByteOrder} :
    (start + count ≤ target.length ∧ ∃ vs after,
      s.through name (.readSlice t offset count order) = (.scalars t vs, s) ∧
        s.through name (.readElements t offset target start count order) =
          (.filled t none after, s) ∧
        after.length = target.length ∧ cut after start count = vs ∧
          ∀ i, i < start ∨ start + count ≤ i → after[i]? = target[i]?) ∨
    ∃ fault, s.through name (.readElements t offset target start count order) =
        (.filled t (some fault) target, s) ∧
      (start + count ≤ target.length →
        s.through name (.readSlice t offset count order) = (.fault fault, s)) := by
  have served := ready.served found rfl
  have moves : r.transfer? (.readElements t offset target start count order) =
      some (.readElements t target start count order, offset) := rfl
  rcases ready.through_cases tidy found moves with ⟨fault, refused, came⟩ | ⟨free, -, -, -, -⟩
  · refine .inr ⟨fault, came, fun inside => ?_⟩
    rw [Transfer.refusal?_readElements inside] at refused
    exact tidy.through_refused found rfl refused
  · have inside : start + count ≤ target.length := by
      simpa using (Transfer.refusal?_eq_none_iff.mp free).2.2
    have slice := free
    rw [Transfer.refusal?_readElements inside] at slice
    obtain ⟨reply, store, result⟩ := Transfer.outcome?_of_served served slice
    obtain ⟨vs, rfl, length, rfl, -⟩ := Transfer.outcome?_readSlice served slice result
    have fits : start + vs.length ≤ target.length := length ▸ inside
    refine .inl ⟨inside, vs, splice target start vs, tidy.through_free found rfl slice result,
      tidy.through_free found rfl free (Transfer.outcome?_readElements result),
      length_splice fits, ?_, fun i outside => ?_⟩
    · rw [← length]
      exact cut_splice_same fits
    · rw [getElem?_splice fits, if_neg (by omega)]

private theorem Ready.clear_by_byte (byte : UInt8) (count : Nat) (order : ByteOrder) :
    let filling := List.replicate count (Scalar.ofByte byte)
    ((s.through name (.clear byte offset count)).1 = .done ↔
        (s.through name (.writeSlice .u8 offset filling order)).1 = .done) ∧
      (s.through name (.clear byte offset count)).2 =
        (s.through name (.writeSlice .u8 offset filling order)).2 := by
  intro filling
  have served := ready.served found rfl
  have moves : r.transfer? (.clear byte offset count) = some (.clear byte count, offset) := rfl
  have free_iff : (Transfer.clear byte count).refusal? r s.store offset = none ↔
      (Transfer.writeSlice .u8 filling order).refusal? r s.store offset = none :=
    Transfer.clear_free_iff served byte
  constructor
  · rw [ready.done_iff tidy found rfl rfl, ready.done_iff tidy found rfl rfl]
    exact free_iff
  · rcases ready.through_cases tidy found moves with
      ⟨fault, refused, came⟩ | ⟨free, reply, store, result, came⟩
    · have slice : (Transfer.writeSlice .u8 filling order).refusal? r s.store offset ≠ none := by
        rw [ne_eq, ← free_iff, refused]
        exact Option.some_ne_none fault
      obtain ⟨fault', refused'⟩ := Option.ne_none_iff_exists'.mp slice
      rw [came, tidy.through_refused found rfl refused']
    · have same : (Transfer.writeSlice .u8 filling order).outcome? r s.store offset =
          some (reply, store) := Transfer.outcome?_clear byte ▸ result
      rw [came, tidy.through_free found rfl (free_iff.mp free) same]

/-- Access to many elements is access to each of them. -/
theorem Ready.elementwise : s.Elementwise name r where
  writes_iff offset vs order nonempty := by
    rw [ready.done_iff tidy found rfl rfl,
      Transfer.writeSlice_free_iff (ready.served found rfl) nonempty]
    constructor
    · intro free i below
      exact (ready.done_iff tidy found rfl rfl).mpr (free i below)
    · intro done i below
      exact (ready.done_iff tidy found rfl rfl).mp (done i below)
  written offset vs order done := by
    have served := ready.served found rfl
    have free := (ready.done_iff tidy found rfl rfl).mp done
    have each (i : Nat) (below : i < vs.length) :
        (Transfer.write _ vs[i] order).refusal? r s.store (offset + i * _) = none :=
      (Transfer.writeSlice_free_iff served (List.ne_nil_of_length_pos (by omega))).mp free i below
    obtain ⟨store, result, ran⟩ := ready.run_writes tidy found each
    rw [ran, tidy.through_free found rfl free result]
  reads_iff t offset count order nonempty := by
    rw [ready.scalars_iff tidy found, Transfer.readSlice_free_iff (ready.served found rfl) nonempty]
    exact forall₂_congr fun i below => (ready.scalar_iff tidy found).symm
  read told := ready.read_elements tidy found told
  writeElements offset source start count order := by
    split
    case isTrue inside => exact through_congr found rfl rfl rfl (Transfer.run_writeElements inside)
    case isFalse outside =>
      have moves : r.transfer? (.writeElements _ offset source start count order) =
          some (.writeElements _ source start count order, offset) := rfl
      rcases ready.through_cases tidy found moves with ⟨fault, -, came⟩ | ⟨free, -⟩
      · exact ⟨fault, came⟩
      · have list := (Transfer.refusal?_eq_none_iff.mp free).2.2
        simp only [Transfer.listFault?, outside, if_false] at list
        cases list
  readElements offset target start count order := ready.fill_elements tidy found
  clear byte offset count order := ready.clear_by_byte tidy found byte count order
  clearBetween byte first last ordered := by
    have moves : r.transfer? (.clearBetween byte first last) =
        some (.clear byte (last - first), first) := if_neg (Nat.not_lt.mpr ordered)
    exact through_congr found moves rfl rfl rfl
  clearAll byte := through_congr found rfl rfl rfl rfl
  toBytes told := ready.read_bytes tidy found told
  toBytes_iff order nonempty := by
    rw [ready.bytes_iff tidy found,
      Transfer.readBytes_free_iff (ready.served found rfl) order nonempty]
    simp only [Nat.zero_add]
    exact forall₂_congr fun i below => (ready.scalar_iff tidy found).symm

end Reached

/-- In any session that a run comes to, access to many elements of a region, whatever their
type, order, number and place are, is access to each of them. -/
theorem run_elementwise (machine : Machine) (files : FileTree) {commands : List Command}
    (orderly : ∀ command ∈ commands, command.Orderly)
    (reached : (Session.run commands (.initial machine files)).2 = s)
    (found : s.handles.find? name = some (.region r)) : s.Elementwise name r := by
  have ready : s.Ready := reached ▸ ((Ready.empty machine files).run orderly).2
  have tidy : s.Tidy := reached ▸ run_tidy machine files commands
  exact ready.elementwise tidy found

/-- A view that begins at an odd place in memory of the heap. -/
theorem run_elementwise_unaligned :
    let commands : List Command :=
      [.make "heap" (.allocateFilled 32 0xAA), .derive "heap" "view" (.slice 3 22)]
    let s := (Session.run commands (.initial Host.machine .bare)).2
    let view : Region := { root := 0, base := 3, length := 22, permit := .both, kind := .slice }
    (∀ command ∈ commands, command.Orderly) ∧ s.handles.find? "view" = some (.region view) ∧
      s.Elementwise "view" view := by
  intro commands s view
  have orderly : ∀ command ∈ commands, command.Orderly := by
    simp [commands, Command.Orderly, Making.Fits]
  have found : s.handles.find? "view" = some (.region view) := by decide +kernel
  exact ⟨orderly, found, run_elementwise Host.machine .bare orderly rfl found⟩

end Session

end BoundedMemory
