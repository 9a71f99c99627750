import BoundedMemory.Proofs.CursorMoves
import BoundedMemory.Proofs.StreamMoves

/-!
Lists that are lent out to be filled. What a caller hands over is part of the
state here, and is filled at the moment at which the values are there; otherwise
these are the operations that answer with values. A call that gets its values
fills in just those, and any other gives the list back as it was.
-/

namespace BoundedMemory

/-- An operation on what is lent out besides the state. It fills in `given` of the
result of `x` and answers `told` of it. -/
def Operation.filling {ε σ β γ α : Type} (x : β → Operation ε σ γ) (told : γ → α)
    (given : γ → β) : Operation ε (σ × β) α := fun (s, lent) =>
  match x lent s with
  | .ok c after => .ok (told c) (after, given c)
  | .error e after => .error e (after, lent)

section Lending

variable {t : ScalarType}

/-- `readSlice` into the whole of a list. -/
def Region.fill (r : Region) (offset : Nat) (order : ByteOrder) :
    Action (Store × List (Scalar t)) Unit := do
  let (_, list) ← get
  let length ← Extent.byteLength list.length t.width
  Operation.onFirst (r.validate .read "get" offset length)
  if list.length ≠ 0 then
    let vs ← Operation.onFirst (r.loadAll t order offset list.length)
    modify fun (s, _) => (s, vs)

/-- `readElements` into a part of a list. -/
def Region.fillElements (r : Region) (offset start count : Nat) (order : ByteOrder) :
    Action (Store × List (Scalar t)) Unit := do
  let length ← Extent.byteLength count t.width
  Operation.onFirst (r.validate .read "get" offset length)
  let (_, list) ← get
  Extent.check list.length start count
  if count ≠ 0 then
    let vs ← Operation.onFirst (r.loadAll t order offset count)
    let after ← splice? list start vs
    modify fun (s, _) => (s, after)

/-- `readSliceAt` into the whole of a list. -/
def Cursor.fillAt (c : Cursor) (offset : Nat) (order : Option ByteOrder) :
    Action (Store × List (Scalar t)) Unit := do
  let (_, list) ← get
  let length ← Extent.byteLength list.length t.width
  c.checkLimit offset length
  c.region.fill offset (order.getD c.order)

/-- An operation on memory and a list, while there is a cursor. -/
def Cursor.besides (x : Action (Store × List (Scalar t)) Unit) :
    Action ((Store × Cursor) × List (Scalar t)) Unit := fun ((s, c), list) =>
  match x (s, list) with
  | .ok a (s, list) => .ok a ((s, c), list)
  | .error e (s, list) => .error e ((s, c), list)

/-- `readSlice` of a cursor into the whole of a list. -/
def Cursor.fill (order : Option ByteOrder) :
    Action ((Store × Cursor) × List (Scalar t)) Unit := do
  let ((_, c), list) ← get
  Cursor.besides (c.fillAt c.position order)
  let n ← Extent.byteLength list.length t.width
  Operation.onFirst (Cursor.moveOn n)

/-- `readInto` a buffer, which tells how many bytes it took. -/
def Reader.fill : Action ((Store × Window) × Bytes) Nat := do
  let ((_, w), buffer) ← get
  let count := min buffer.length w.available
  if count = 0 then pure 0
  else
    let bytes ← Operation.onFirst (Operation.onFirst (w.region.readBytes w.offset count))
    modify fun (s, buffer) => (s, splice buffer 0 bytes)
    Operation.onFirst (Window.moveOn count)
    pure count

variable {r : Region} {c : Cursor} {w : Window} {s : Store} {list : List (Scalar t)}
  {buffer : Bytes} {offset start count : Nat} {order : ByteOrder} {wanted : Option ByteOrder}

theorem Region.fill_eq :
    r.fill offset order =
      Operation.filling (fun list => r.readSlice t offset list.length order) (fun _ => ()) id := by
  funext ⟨s, list⟩
  simp only [fill, Operation.filling, readSlice, Operation.bind_run, Operation.get_run,
    Extent.byteLength_eq]
  by_cases fits : list.length * t.width < Word.modulus
  · simp only [fits, if_true, Operation.accepted_run, Operation.onFirst_run]
    cases r.validate .read "get" offset (list.length * t.width) s with
    | error e after => rfl
    | ok _ after =>
        by_cases empty : list.length = 0
        · have nil : list = [] := List.eq_nil_of_length_eq_zero empty
          simp [nil]
        · simp only [ne_eq, empty, not_false_eq_true, if_true, if_false, Operation.bind_run,
            Operation.onFirst_run]
          cases r.loadAll t order offset list.length after <;> rfl
  · simp only [fits, if_false, Operation.refused_run]

theorem Region.fillElements_eq :
    r.fillElements offset start count order =
      Operation.filling (fun list : List (Scalar t) => r.readElements offset list start count order)
        (fun _ => ()) id := by
  funext ⟨s, list⟩
  simp only [fillElements, Operation.filling, readElements, Operation.bind_run,
    Extent.byteLength_eq]
  by_cases fits : count * t.width < Word.modulus
  · simp only [fits, if_true, Operation.accepted_run, Operation.onFirst_run]
    cases r.validate .read "get" offset (count * t.width) s with
    | error e after => rfl
    | ok _ after =>
        simp only [Operation.get_run, Extent.check_eq]
        by_cases inside : start + count ≤ list.length
        · simp only [inside, if_true, Operation.accepted_run]
          by_cases empty : count = 0
          · simp [empty]
          · simp only [ne_eq, empty, not_false_eq_true, if_true, if_false, Operation.bind_run,
              Operation.onFirst_run]
            cases r.loadAll t order offset count after with
            | error e later => rfl
            | ok vs later =>
                simp only
                cases splice? list start vs <;> rfl
        · simp only [inside, if_false, Operation.refused_run]
  · simp only [fits, if_false, Operation.refused_run]

theorem Cursor.fillAt_eq :
    c.fillAt offset wanted =
      Operation.filling (fun list => c.readSliceAt t offset list.length wanted) (fun _ => ())
        id := by
  funext ⟨s, list⟩
  simp only [fillAt, Operation.filling, readSliceAt, Operation.bind_run, Operation.get_run,
    Extent.byteLength_eq, checkLimit]
  by_cases fits : list.length * t.width < Word.modulus
  · simp only [fits, if_true, Operation.accepted_run, Extent.check_eq]
    by_cases inside : offset + list.length * t.width ≤ c.limit
    · simp only [inside, if_true, Operation.accepted_run, Region.fill_eq]
      rfl
    · simp only [inside, if_false, Operation.refused_run]
  · simp only [fits, if_false, Operation.refused_run]

/-- As many values are read as were asked for. -/
private theorem length_of_readSlice {vs : List (Scalar t)} {s' : Store}
    (h : (Transfer.readSlice t count order).run r offset s = .ok (.scalars t vs) s') :
    vs.length = count := by
  obtain ⟨-, result⟩ := Transfer.run_eq_ok_iff.mp h
  simp only [Transfer.outcome?, Transfer.direction, Transfer.answer] at result
  by_cases empty : (Transfer.readSlice t count order).size = 0
  · simp only [empty, if_true, Option.some.injEq, Prod.mk.injEq, Reply.scalars.injEq,
      heq_eq_eq, true_and] at result
    rw [← result.1, List.length_map, length_chunks]
  · simp only [empty, if_false, Option.map_eq_some_iff, Prod.mk.injEq, Reply.scalars.injEq,
      heq_eq_eq, true_and] at result
    obtain ⟨bytes, -, rfl, -⟩ := result
    rw [List.length_map, length_chunks]

private theorem run_of_readSliceAt {vs : List (Scalar t)} {s' : Store}
    (h : c.readSliceAt t offset count wanted s = .ok vs s') :
    (Transfer.readSlice t count (wanted.getD c.order)).run c.region offset s =
      .ok (.scalars t vs) s' := by
  unfold Cursor.readSliceAt at h
  obtain ⟨length, -, h⟩ := Operation.check_bind_eq_ok_iff.mp h
  obtain ⟨-, -, h⟩ := Operation.check_bind_eq_ok_iff.mp h
  simp only [Transfer.run, Operation.bind_run, h, Operation.pure_run]

theorem Cursor.fill_eq :
    Cursor.fill wanted =
      Operation.filling (fun list => Cursor.readSlice t list.length wanted) (fun _ => ()) id := by
  funext ⟨⟨s, c⟩, list⟩
  simp only [fill, Cursor.readSlice, besides, fillAt_eq, Operation.filling, Operation.bind_run,
    Operation.get_run, current_run, Operation.onFirst_run, Extent.byteLength_eq]
  cases run : c.readSliceAt t c.position list.length wanted s with
  | error e after => rfl
  | ok vs after =>
      have passed := run_of_readSliceAt run
      by_cases fits : list.length * t.width < Word.modulus
      · simp only [fits, if_true, Operation.accepted_run, moveOn_run, Operation.onFirst_run]
        rcases Transfer.stays passed with ⟨rfl, empty⟩ | inside
        · have nothing : list.length = 0 :=
            (Nat.mul_eq_zero.mp empty).resolve_right (Nat.ne_of_gt t.width_pos)
          have same : vs = list := by
            rw [List.eq_nil_of_length_eq_zero nothing]
            exact List.eq_nil_of_length_eq_zero ((length_of_readSlice passed).trans nothing)
          rw [same]
          by_cases inside : c.position + list.length * t.width < Word.modulus
          · simp only [inside, if_true, Operation.pure_run]
          · simp only [inside, if_false, id_eq]
        · simp only [Transfer.size] at inside
          simp only [inside, if_true, Operation.pure_run]
      · obtain ⟨free, -⟩ := Transfer.run_eq_ok_iff.mp passed
        have short := (Transfer.refusal?_eq_none_iff.mp free).1
        simp [Transfer.lengthFault?, fits] at short

theorem Reader.fill_eq : Reader.fill = Operation.filling Reader.readInto Prod.fst Prod.snd := by
  funext ⟨⟨s, w⟩, buffer⟩
  simp only [fill, Operation.filling, readInto, read_run, Operation.bind_run, Operation.get_run]
  by_cases nothing : min buffer.length w.available = 0
  · simp [nothing]
  · simp only [nothing, if_false, Operation.bind_run, Operation.onFirst_run]
    cases run : w.region.readBytes w.offset (min buffer.length w.available) s with
    | error e after => rfl
    | ok bytes after =>
        have length := Region.length_of_readBytes run
        rcases Transfer.stays (Region.readBytes_eq_ok_iff.mp run) with ⟨-, empty⟩ | inside
        · exact absurd empty nothing
        · simp only [Transfer.size] at inside
          simp [Operation.onFirst_run, Window.moveOn_run, inside, splice, length]

end Lending

end BoundedMemory
