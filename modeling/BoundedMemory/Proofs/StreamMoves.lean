import BoundedMemory.Proofs.RegionUses

/-!
Transfers through streams. A stream cuts a read off at the end of its window and
refuses a write that would go past it; either way it then moves on by what was moved.
-/

namespace BoundedMemory

namespace Window

variable {ε : Type}

def moved (w : Window) (n : Nat) : Window := { w with offset := w.offset + n }

@[simp] theorem current_run (s : Store) (w : Window) :
    (current : Act ε Window) (s, w) = .ok w (s, w) := rfl

@[simp] theorem moveTo_run (offset : Nat) (s : Store) (w : Window) :
    (moveTo offset : Act ε Unit) (s, w) = .ok ⟨⟩ (s, { w with offset }) := rfl

theorem moveOn_run (n : Nat) (s : Store) (w : Window) :
    (moveOn n : Act ε Unit) (s, w) =
      if w.offset + n < Word.modulus then .ok ⟨⟩ (s, w.moved n) else .error .trap (s, w) := by
  unfold moveOn Word.add?
  by_cases fits : w.offset + n < Word.modulus
  · simp only [fits, if_true, Operation.bind_run, current_run, Operation.some_run, moveTo_run]
    rfl
  · simp only [fits, if_false, Operation.bind_run, current_run, Operation.none_run]

theorem seekTo_run (offset : Nat) (s : Store) (w : Window) :
    seekTo offset (s, w) =
      if offset < w.start ∨ w.stop < offset then
        .error (.fault (.outOfBounds offset 0 w.stop)) (s, w)
      else .ok () (s, { w with offset }) := by
  unfold seekTo
  by_cases outside : offset < w.start ∨ w.stop < offset
  · simp only [outside, if_true, Operation.bind_run, current_run, Operation.refuse_run]
  · simp only [outside, if_false, Operation.bind_run, current_run, moveTo_run]

theorem skip_run (n : Nat) (s : Store) (w : Window) :
    (skip n : Act ε Nat) (s, w) =
      if w.offset + min n w.available < Word.modulus then
        .ok (min n w.available) (s, w.moved (min n w.available))
      else .error .trap (s, w) := by
  unfold skip
  simp only [Operation.bind_run, current_run, moveOn_run]
  by_cases fits : w.offset + min n w.available < Word.modulus
  · simp only [fits, if_true, Operation.pure_run]
  · simp only [fits, if_false]

/-- A seek is refused for a place that is no word, or as a move to the place. -/
theorem seek_run (wanted : SeekFrom) (s : Store) (w : Window) :
    seek wanted (s, w) =
      match w.target? wanted with
      | none => .error (.fault .seekOutside) (s, w)
      | some target =>
          if target < w.start ∨ w.stop < target then
            .error (.fault (.access (.outOfBounds target 0 w.stop))) (s, w)
          else .ok (target - w.start) (s, { w with offset := target }) := by
  unfold seek
  simp only [Operation.bind_run, current_run]
  cases w.target? wanted with
  | none => rfl
  | some target =>
      simp only [Operation.bind_run, Operation.mapFault_run, seekTo_run]
      by_cases outside : target < w.start ∨ w.stop < target
      · simp only [outside, if_true]
      · have after : w.start ≤ target := by omega
        simp only [outside, if_false, Word.sub?, after, if_true, Operation.some_run]

end Window

namespace Reader

/-- A read is that of the region, cut off at the end of the window. -/
theorem read_run (n : Nat) (s : Store) (w : Window) :
    read n (s, w) =
      if min n w.available = 0 then .ok [] (s, w)
      else
        match w.region.readBytes w.offset (min n w.available) s with
        | .ok bytes after => .ok bytes (after, w.moved (min n w.available))
        | .error e after => .error e (after, w) := by
  unfold read
  simp only [Operation.bind_run, Window.current_run]
  by_cases nothing : min n w.available = 0
  · simp only [nothing, if_true, Operation.pure_run]
  · simp only [nothing, if_false, Operation.bind_run, Operation.onFirst_run]
    cases run : w.region.readBytes w.offset (min n w.available) s with
    | error e after => rfl
    | ok bytes after =>
        rcases Transfer.stays (Region.readBytes_eq_ok_iff.mp run) with ⟨-, empty⟩ | inside
        · exact absurd empty nothing
        · simp only [Transfer.size] at inside
          simp only [Window.moveOn_run, inside, if_true, Operation.pure_run]

end Reader

namespace Writer

theorem write_run (bytes : Bytes) (s : Store) (w : Window) :
    write bytes (s, w) =
      if w.available < bytes.length then
        .error (.fault (.capacityExceeded bytes.length w.available)) (s, w)
      else
        match w.region.writeBytes w.offset bytes s with
        | .ok () after =>
            if w.offset + bytes.length < Word.modulus then .ok () (after, w.moved bytes.length)
            else .error .trap (after, w)
        | .error e after => .error e (after, w) := by
  unfold write
  simp only [Operation.bind_run, Window.current_run]
  by_cases full : w.available < bytes.length
  · simp only [full, if_true, Operation.bind_run, Operation.refuse_run]
  · simp only [full, if_false, Operation.bind_run, Operation.onFirst_run]
    cases w.region.writeBytes w.offset bytes s with
    | error e after => rfl
    | ok _ after => simp only [Window.moveOn_run]

end Writer

end BoundedMemory
