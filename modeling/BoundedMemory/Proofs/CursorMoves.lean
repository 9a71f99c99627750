import BoundedMemory.Proofs.RegionUses

/-!
Transfers under cursors. A cursor holds a transfer against its limit, has its region
carry it out and moves on. Moving on cannot stop after memory has changed, since
what went through lies among the words.
-/

namespace BoundedMemory

namespace Cursor

variable {t : ScalarType}

def moved (c : Cursor) (n : Nat) : Cursor :=
  { c with mark := { c.mark with position := c.position + n } }

@[simp] theorem current_run (s : Store) (c : Cursor) : current (s, c) = .ok c (s, c) := rfl

@[simp] theorem place_run (mark : Mark) (s : Store) (c : Cursor) :
    place mark (s, c) = .ok ⟨⟩ (s, { c with mark }) := rfl

theorem moveOn_run (n : Nat) (s : Store) (c : Cursor) :
    moveOn n (s, c) =
      if c.position + n < Word.modulus then .ok ⟨⟩ (s, c.moved n) else .error .trap (s, c) := by
  unfold moveOn Word.add?
  by_cases fits : c.position + n < Word.modulus
  · simp only [fits, if_true, Operation.bind_run, current_run, Operation.some_run, place_run]
    rfl
  · simp only [fits, if_false, Operation.bind_run, current_run, Operation.none_run]

theorem setPosition_run (position : Nat) (s : Store) (c : Cursor) :
    setPosition position (s, c) =
      if position ≤ c.limit then .ok ⟨⟩ (s, { c with mark := { c.mark with position } })
      else .error (.fault (.outOfBounds position 0 c.limit)) (s, c) := by
  unfold setPosition Extent.checkPosition
  simp only [Operation.bind_run, current_run, Extent.check_eq, Nat.add_zero]
  by_cases fits : position ≤ c.limit
  · simp only [fits, if_true, Operation.accepted_run, place_run]
  · simp only [fits, if_false, Operation.refused_run]

theorem advance_run (n : Nat) (s : Store) (c : Cursor) :
    advance n (s, c) =
      if c.position + n ≤ c.limit then
        if c.position + n < Word.modulus then .ok (c.position + n) (s, c.moved n)
        else .error .trap (s, c)
      else .error (.fault (.outOfBounds c.position n c.limit)) (s, c) := by
  unfold advance
  simp only [Operation.bind_run, current_run, Extent.check_eq]
  by_cases fits : c.position + n ≤ c.limit
  · simp only [fits, if_true, Operation.accepted_run, moveOn_run]
    by_cases inside : c.position + n < Word.modulus
    · simp only [inside, if_true, current_run, Operation.pure_run]
      rfl
    · simp only [inside, if_false]
  · simp only [fits, if_false, Operation.refused_run]

theorem setLimit_run (limit : Nat) (s : Store) (c : Cursor) :
    setLimit limit (s, c) =
      if limit ≤ c.length then
        .ok ⟨⟩ (s, { c with mark := { c.mark with limit, position := min c.position limit } })
      else .error (.fault (.outOfBounds limit 0 c.length)) (s, c) := by
  unfold setLimit Extent.checkPosition
  simp only [Operation.bind_run, current_run, Extent.check_eq, Nat.add_zero]
  by_cases fits : limit ≤ c.length
  · simp only [fits, if_true, Operation.accepted_run, place_run]
  · simp only [fits, if_false, Operation.refused_run]

theorem restore_run (s : Store) (c : Cursor) :
    restore (s, c) =
      match c.saved with
      | [] => .ok none (s, c)
      | mark :: saved => .ok (some mark) (s, { c with mark, saved }) := by
  unfold restore
  simp only [Operation.bind_run, current_run]
  cases c.saved <;> rfl

theorem alignTo_run (width : Nat) (s : Store) (c : Cursor) :
    alignTo width (s, c) =
      match c.padding width with
      | .error fault => .error (.fault fault) (s, c)
      | .ok skip =>
          if c.position + skip < Word.modulus then .ok skip (s, c.moved skip)
          else .error .trap (s, c) := by
  unfold alignTo
  simp only [Operation.bind_run, current_run]
  cases c.padding width with
  | error fault => rfl
  | ok skip =>
      simp only [Operation.accepted_run, moveOn_run]
      by_cases inside : c.position + skip < Word.modulus
      · simp only [inside, if_true, Operation.pure_run]
      · simp only [inside, if_false]

/-- Padding is clearing at the position and moving on by as much. -/
theorem padTo_run (width : Nat) (byte : UInt8) (s : Store) (c : Cursor) :
    padTo width byte (s, c) =
      match c.padding width with
      | .error fault => .error (.fault fault) (s, c)
      | .ok skip =>
          if skip = 0 then .ok 0 (s, c)
          else
            match (Transfer.clear byte skip).run c.region c.position s with
            | .ok _ after => .ok skip (after, c.moved skip)
            | .error e after => .error e (after, c) := by
  unfold padTo
  simp only [Operation.bind_run, current_run]
  cases c.padding width with
  | error fault => rfl
  | ok skip =>
      simp only [Operation.accepted_run]
      by_cases nothing : skip = 0
      · simp [nothing]
      · simp only [ne_eq, nothing, not_false_eq_true, if_true, if_false, Operation.bind_run,
          Operation.onFirst_run]
        rw [Region.clear_run]
        cases run : (Transfer.clear byte skip).run c.region c.position s with
        | error e after => rfl
        | ok reply after =>
            rcases Transfer.stays run with ⟨-, empty⟩ | inside
            · exact absurd empty nothing
            · simp only [Transfer.size] at inside
              simp only [moveOn_run, inside, if_true, Operation.pure_run]

/-- A transfer under a cursor at an offset of the region, which leaves the cursor alone. -/
def transferAt (c : Cursor) (x : Transfer) (offset : Nat) : Action Store Reply := do
  match x.lengthFault? with
  | some fault => Operation.refuse fault
  | none => pure ()
  c.checkLimit offset x.size
  x.run c.region offset

/-- A transfer at the position of a cursor, which then moves on. -/
def transfer (x : Transfer) : Act Reply := do
  let c ← current
  let reply ← Operation.onFirst (c.transferAt x c.position)
  moveOn x.size
  pure reply

theorem transferAt_run (c : Cursor) (x : Transfer) (offset : Nat) (s : Store) :
    c.transferAt x offset s =
      match x.lengthFault? with
      | some fault => .error (.fault fault) s
      | none =>
          if offset + x.size ≤ c.limit then x.run c.region offset s
          else .error (.fault (.outOfBounds offset x.size c.limit)) s := by
  unfold transferAt checkLimit
  rw [Extent.check_eq]
  cases x.lengthFault? with
  | some fault => rfl
  | none =>
      by_cases fits : offset + x.size ≤ c.limit
      · simp only [fits, if_true, Operation.bind_run, Operation.accepted_run]
      · simp only [fits, if_false, Operation.bind_run, Operation.refused_run]

theorem transferAt_eq_ok_iff {c : Cursor} {x : Transfer} {offset : Nat} {s s' : Store}
    {reply : Reply} :
    c.transferAt x offset s = .ok reply s' ↔
      offset + x.size ≤ c.limit ∧ x.run c.region offset s = .ok reply s' := by
  rw [transferAt_run]
  constructor
  · intro h
    cases length : x.lengthFault? with
    | some fault =>
        simp only [length] at h
        cases h
    | none =>
        by_cases fits : offset + x.size ≤ c.limit
        · exact ⟨fits, by simpa only [length, fits, if_true] using h⟩
        · simp only [length, fits, if_false] at h
          cases h
  · rintro ⟨fits, h⟩
    have free := (Transfer.run_eq_ok_iff.mp h).1
    have length := (Transfer.refusal?_eq_none_iff.mp free).1
    simp only [length, fits, if_true, h]

theorem transferAt_error {c : Cursor} {x : Transfer} {offset : Nat} {s s' : Store}
    {e : Stop Fault} (h : c.transferAt x offset s = .error e s') : s' = s := by
  rw [transferAt_run] at h
  cases length : x.lengthFault? with
  | some fault =>
      simp only [length] at h
      cases h
      rfl
  | none =>
      by_cases fits : offset + x.size ≤ c.limit
      · simp only [length, fits, if_true] at h
        exact Transfer.run_error h
      · simp only [length, fits, if_false] at h
        cases h
        rfl

theorem transfer_run (x : Transfer) (s : Store) (c : Cursor) :
    transfer x (s, c) =
      match c.transferAt x c.position s with
      | .ok reply after =>
          if c.position + x.size < Word.modulus then .ok reply (after, c.moved x.size)
          else .error .trap (after, c)
      | .error e after => .error e (after, c) := by
  unfold transfer
  simp only [Operation.bind_run, current_run, Operation.onFirst_run]
  cases c.transferAt x c.position s with
  | error e after => rfl
  | ok reply after =>
      simp only [moveOn_run]
      by_cases fits : c.position + x.size < Word.modulus
      · simp only [fits, if_true, Operation.pure_run]
      · simp only [fits, if_false]

theorem transfer_eq_ok_iff {x : Transfer} {s s' : Store} {c c' : Cursor} {reply : Reply} :
    transfer x (s, c) = .ok reply (s', c') ↔
      c.transferAt x c.position s = .ok reply s' ∧ c.position + x.size < Word.modulus ∧
        c' = c.moved x.size := by
  rw [transfer_run]
  cases c.transferAt x c.position s with
  | error e after => simp
  | ok found after =>
      by_cases fits : c.position + x.size < Word.modulus
      · simp only [fits, if_true, EStateM.Result.ok.injEq, Prod.mk.injEq, true_and, and_assoc]
        rw [eq_comm (a := c')]
      · simp [fits]

/-- A transfer that stops has neither moved the cursor nor touched memory. -/
theorem transfer_error {x : Transfer} {e : Stop Fault} {s : Store} {c : Cursor}
    {after : Store × Cursor} (h : transfer x (s, c) = .error e after) : after = (s, c) := by
  rw [transfer_run] at h
  cases run : c.transferAt x c.position s with
  | error e' s' =>
      simp only [run] at h
      cases h
      rw [transferAt_error run]
  | ok reply s' =>
      by_cases fits : c.position + x.size < Word.modulus
      · simp [run, fits] at h
      · simp only [run, fits, if_false] at h
        cases h
        have passed := (transferAt_eq_ok_iff.mp run).2
        rcases Transfer.stays passed with ⟨same, -⟩ | inside
        · rw [same]
        · exact absurd inside fits

/-- The transfer that a use of a cursor carries out, and where, if not at the position. -/
def transfer? (c : Cursor) : CursorUse → Option (Transfer × Option Nat)
  | .read t order => some (.read t (order.getD c.order), none)
  | .readAt t offset order => some (.read t (order.getD c.order), some offset)
  | .write t v order => some (.write t v (order.getD c.order), none)
  | .writeAt t offset v order => some (.write t v (order.getD c.order), some offset)
  | .readSlice t count order => some (.readSlice t count (order.getD c.order), none)
  | .readSliceAt t offset count order =>
      some (.readSlice t count (order.getD c.order), some offset)
  | .writeSlice t vs order => some (.writeSlice t vs (order.getD c.order), none)
  | .writeSliceAt t offset vs order =>
      some (.writeSlice t vs (order.getD c.order), some offset)
  | _ => none

section Uses

variable (c : Cursor) (s : Store) (offset count : Nat) (order : Option ByteOrder) (v : Scalar t)
  (vs : List (Scalar t))

private theorem readAt_eq :
    (do return .scalar t (← c.readAt t offset order)) =
      c.transferAt (.read t (order.getD c.order)) offset := by
  simp [transferAt, readAt, Transfer.lengthFault?, Transfer.run, Transfer.size]

private theorem writeAt_eq :
    (do c.writeAt offset v order; return Reply.done) =
      c.transferAt (.write t v (order.getD c.order)) offset := by
  simp [transferAt, writeAt, Transfer.lengthFault?, Transfer.run, Transfer.size]

theorem readSliceAt_eq :
    (do return .scalars t (← c.readSliceAt t offset count order)) =
      c.transferAt (.readSlice t count (order.getD c.order)) offset := by
  funext s
  simp only [transferAt, readSliceAt, Transfer.lengthFault?, Transfer.run, Transfer.size,
    Extent.byteLength_eq, bind_assoc]
  by_cases fits : count * t.width < Word.modulus
  · simp only [fits, if_true, Operation.bind_run, Operation.accepted_run]
  · simp only [fits, if_false, Operation.bind_run, Operation.refused_run, Operation.refuse_run]

private theorem writeSliceAt_eq :
    (do c.writeSliceAt offset vs order; return Reply.done) =
      c.transferAt (.writeSlice t vs (order.getD c.order)) offset := by
  funext s
  simp only [transferAt, writeSliceAt, Transfer.lengthFault?, Transfer.run, Transfer.size,
    Extent.byteLength_eq, bind_assoc]
  by_cases fits : vs.length * t.width < Word.modulus
  · simp only [fits, if_true, Operation.bind_run, Operation.accepted_run]
  · simp only [fits, if_false, Operation.bind_run, Operation.refused_run, Operation.refuse_run]

private theorem read_eq :
    (do return Reply.scalar t (← Cursor.read t order)) (s, c) =
      transfer (.read t (order.getD c.order)) (s, c) := by
  simp only [Cursor.read, transfer, ← readAt_eq, Operation.bind_run, current_run,
    Operation.onFirst_run]
  cases c.readAt t c.position order s with
  | error e after => rfl
  | ok v after =>
      simp only [Operation.pure_run, Transfer.size]
      cases moveOn t.width (after, c) <;> rfl

private theorem write_eq :
    (do Cursor.write v order; return Reply.done) (s, c) =
      transfer (.write t v (order.getD c.order)) (s, c) := by
  simp only [Cursor.write, transfer, ← writeAt_eq, Operation.bind_run, current_run,
    Operation.onFirst_run]
  cases c.writeAt c.position v order s with
  | error e after => rfl
  | ok _ after =>
      simp only [Operation.pure_run, Transfer.size]

theorem readSlice_eq :
    (do return Reply.scalars t (← Cursor.readSlice t count order)) (s, c) =
      transfer (.readSlice t count (order.getD c.order)) (s, c) := by
  simp only [Cursor.readSlice, transfer, ← readSliceAt_eq, Operation.bind_run, current_run,
    Operation.onFirst_run, Extent.byteLength_eq]
  by_cases fits : count * t.width < Word.modulus
  · cases c.readSliceAt t c.position count order s with
    | error e after => rfl
    | ok vs after =>
        simp only [fits, if_true, Operation.accepted_run, Operation.pure_run, Transfer.size]
        cases moveOn (count * t.width) (after, c) <;> rfl
  · simp only [readSliceAt, Operation.bind_run, Extent.byteLength_eq, fits, if_false,
      Operation.refused_run]

private theorem writeSlice_eq :
    (do Cursor.writeSlice vs order; return Reply.done) (s, c) =
      transfer (.writeSlice t vs (order.getD c.order)) (s, c) := by
  simp only [Cursor.writeSlice, transfer, ← writeSliceAt_eq, Operation.bind_run, current_run,
    Operation.onFirst_run, Extent.byteLength_eq]
  by_cases fits : vs.length * t.width < Word.modulus
  · cases c.writeSliceAt c.position vs order s with
    | error e after => rfl
    | ok _ after =>
        simp only [fits, if_true, Operation.accepted_run, Operation.pure_run, Transfer.size]
  · simp only [writeSliceAt, Operation.bind_run, Extent.byteLength_eq, fits, if_false,
      Operation.refused_run]

end Uses

/-- The eight forms of access under a cursor are two, over all transfers. -/
theorem run_use {how : CursorUse} {c : Cursor} {x : Transfer} {place : Option Nat}
    (h : c.transfer? how = some (x, place)) (s : Store) :
    how.run (s, c) =
      (match place with
        | none => transfer x
        | some offset => Operation.onFirst (c.transferAt x offset)).settle .fault id (s, c) := by
  have at_eq {α : Type} {x : Action Store α} {reply : α → Reply} {y : Action Store Reply}
      (same : (do return reply (← x)) = y) :
      (Operation.onFirst x).settle .fault reply (s, c) =
        (Operation.onFirst y).settle .fault id (s, c) := by
    apply Operation.settle_eq
    rw [← same]
    simp only [Operation.bind_run, Operation.onFirst_run]
    cases x s <;> rfl
  cases how with
  | read t order =>
      cases h
      exact Operation.settle_eq (read_eq c s order)
  | readAt t offset order =>
      cases h
      exact at_eq (readAt_eq c offset order)
  | write t v order =>
      cases h
      exact Operation.settle_eq (write_eq c s order v)
  | writeAt t offset v order =>
      cases h
      exact at_eq (writeAt_eq c offset order v)
  | readSlice t count order =>
      cases h
      exact Operation.settle_eq (readSlice_eq c s count order)
  | readSliceAt t offset count order =>
      cases h
      exact at_eq (readSliceAt_eq c offset count order)
  | writeSlice t vs order =>
      cases h
      exact Operation.settle_eq (writeSlice_eq c s order vs)
  | writeSliceAt t offset vs order =>
      cases h
      exact at_eq (writeSliceAt_eq c offset order vs)
  | _ => cases h

end Cursor

end BoundedMemory
