import BoundedMemory.Proofs.Transfer
import BoundedMemory.Session.Use

/-!
The uses of regions as transfers. Whatever went through lies among the words.
-/

namespace BoundedMemory

namespace Transfer

/-- A transfer that went through left the store alone or ends among the words. -/
theorem stays {x : Transfer} {r : Region} {offset : Nat} {s after : Store} {reply : Reply}
    (h : x.run r offset s = .ok reply after) :
    (after = s ∧ x.size = 0) ∨ offset + x.size < Word.modulus := by
  obtain ⟨free, result⟩ := run_eq_ok_iff.mp h
  obtain ⟨-, -, list⟩ := refusal?_eq_none_iff.mp free
  by_cases empty : x.size = 0
  · left
    simp only [outcome?, empty, if_true, Option.some.injEq, Prod.mk.injEq] at result
    exact ⟨result.2.symm, empty⟩
  · right
    exact stop_lt_modulus list empty result

end Transfer

namespace Region

theorem readBytes_eq_ok_iff {r : Region} {offset count : Nat} {bytes : Bytes} {s s' : Store} :
    r.readBytes offset count s = .ok bytes s' ↔
      (Transfer.readBytes count).run r offset s = .ok (.bytes bytes) s' := by
  simp only [Transfer.run, Operation.bind_run]
  cases r.readBytes offset count s <;> simp

theorem length_of_readBytes {r : Region} {offset count : Nat} {bytes : Bytes} {s s' : Store}
    (h : r.readBytes offset count s = .ok bytes s') : bytes.length = count := by
  obtain ⟨-, result⟩ := Transfer.run_eq_ok_iff.mp (readBytes_eq_ok_iff.mp h)
  simp only [Transfer.outcome?, Transfer.direction, Transfer.answer, Transfer.size] at result
  by_cases empty : count = 0
  · simp only [empty, if_true, Option.some.injEq, Prod.mk.injEq, Reply.bytes.injEq] at result
    rw [← result.1, empty]
    rfl
  · simp only [empty, if_false, Option.map_eq_some_iff, Prod.mk.injEq, Reply.bytes.injEq] at result
    obtain ⟨found, present, rfl, -⟩ := result
    exact length_of_peek? present

theorem readBytes_eq_error_iff {r : Region} {offset count : Nat} {e : Stop Fault} {s s' : Store} :
    r.readBytes offset count s = .error e s' ↔
      (Transfer.readBytes count).run r offset s = .error e s' := by
  simp only [Transfer.run, Operation.bind_run]
  cases r.readBytes offset count s <;> simp

theorem readBytes_error {r : Region} {offset count : Nat} {e : Stop Fault} {s s' : Store}
    (h : r.readBytes offset count s = .error e s') : s' = s :=
  Transfer.run_error (readBytes_eq_error_iff.mp h)

theorem writeBytes_eq_ok_iff {r : Region} {offset : Nat} {bytes : Bytes} {s s' : Store} :
    r.writeBytes offset bytes s = .ok () s' ↔
      (Transfer.writeBytes bytes).run r offset s = .ok .done s' := by
  simp only [Transfer.run, Operation.bind_run]
  cases r.writeBytes offset bytes s <;> simp

theorem writeBytes_eq_error_iff {r : Region} {offset : Nat} {bytes : Bytes} {e : Stop Fault}
    {s s' : Store} :
    r.writeBytes offset bytes s = .error e s' ↔
      (Transfer.writeBytes bytes).run r offset s = .error e s' := by
  simp only [Transfer.run, Operation.bind_run]
  cases r.writeBytes offset bytes s <;> simp

theorem writeBytes_error {r : Region} {offset : Nat} {bytes : Bytes} {e : Stop Fault}
    {s s' : Store} (h : r.writeBytes offset bytes s = .error e s') : s' = s :=
  Transfer.run_error (writeBytes_eq_error_iff.mp h)

theorem clear_run (r : Region) (byte : UInt8) (offset length : Nat) (s : Store) :
    r.clear byte offset length s =
      match (Transfer.clear byte length).run r offset s with
      | .ok _ after => .ok () after
      | .error e after => .error e after := by
  simp only [Transfer.run, Operation.bind_run]
  cases r.clear byte offset length s <;> rfl

end Region

/-- The transfer that a use of a region carries out, and where. -/
def Region.transfer? (r : Region) : RegionUse → Option (Transfer × Nat)
  | .release | .report => none
  | .toBytes => some (.readBytes r.length, 0)
  | .clear byte offset length => some (.clear byte length, offset)
  | .clearAll byte => some (.clear byte r.length, 0)
  | .clearBetween byte first last =>
      if last < first then none else some (.clear byte (last - first), first)
  | .read t offset order => some (.read t order, offset)
  | .write t offset v order => some (.write t v order, offset)
  | .readSlice t offset count order => some (.readSlice t count order, offset)
  | .writeSlice t offset vs order => some (.writeSlice t vs order, offset)
  | .readElements t offset target start count order =>
      some (.readElements t target start count order, offset)
  | .writeElements t offset source start count order =>
      some (.writeElements t source start count order, offset)

/-- How a fault is replied to. A list that was to be filled comes back as it was. -/
def RegionUse.failure (how : RegionUse) (cause : Fault) : Reply :=
  match how with
  | .readElements t _ target _ _ _ => .filled t (some cause) target
  | _ => .fault cause

/-- The accesses of a region are transfers, each with its own arguments. -/
theorem Region.run_use {r : Region} {how : RegionUse} {x : Transfer} {offset : Nat}
    (h : r.transfer? how = some (x, offset)) (keyName : SegmentKey → String) (s : Store) :
    how.run r keyName s = (x.run r offset).settle how.failure id s := by
  cases how with
  | release => cases h
  | report => cases h
  | clearBetween byte first last =>
      by_cases turned : last < first
      · simp [transfer?, turned] at h
      · simp only [transfer?, turned, if_false, Option.some.injEq, Prod.mk.injEq] at h
        obtain ⟨rfl, rfl⟩ := h
        apply Operation.settle_eq
        simp only [clearBetween, Extent.between, turned, if_false]
        rfl
  | _ =>
      cases h
      exact Operation.settle_eq rfl

/-- A range whose ends are in the wrong order is no transfer, and is all that is told. -/
theorem RegionUse.run_turned {r : Region} {byte : UInt8} {first last : Nat}
    (turned : r.transfer? (.clearBetween byte first last) = none)
    (keyName : SegmentKey → String) (s : Store) :
    (RegionUse.clearBetween byte first last).run r keyName s =
      (.fault (.outOfBounds first 0 last), s) := by
  have turned : last < first := by simpa [Region.transfer?] using turned
  simp only [RegionUse.run, Region.clearBetween, Extent.between, turned, if_true,
    Operation.settle, Operation.bind_run, Operation.refused_run]

theorem RegionUse.failure_ne_trap (how : RegionUse) (cause : Fault) :
    how.failure cause ≠ .trap := by
  cases how <;> exact Reply.noConfusion

end BoundedMemory
