import BoundedMemory.Proofs.CopyLoop

/-!
When streams get at memory. Within its window a stream asks nothing of the region but that it
is valid and allows what is done; where it is not, nothing is moved and the stream stays where
it is. What a session does with a stream is just that, since nothing is left over to sweep.
-/

namespace BoundedMemory

variable {s : Store} {w : Window} {bytes : Bytes}

namespace Window

@[simp] theorem moved_zero (w : Window) : w.moved 0 = w := rfl

@[simp] theorem moved_moved (w : Window) (m n : Nat) : (w.moved m).moved n = w.moved (m + n) := by
  simp only [moved, Nat.add_assoc]

@[simp] theorem available_moved (w : Window) (n : Nat) :
    (w.moved n).available = w.available - n := by
  simp only [available, moved]
  omega

/-- What is left of the window lies in the region. -/
theorem Ordered.room (h : w.Ordered) {n : Nat} (fits : n ≤ w.available) :
    w.offset + n ≤ w.region.length := by
  have ended := h.ended
  have inside := h.inside
  unfold available at fits
  omega

end Window

namespace Reader

/-- A read that is allowed gets what memory holds up to the end of the window. -/
theorem read_allowed (h : w.Ordered) (served : w.region.Served s) (apart : s.Apart)
    (allowed : w.region.isValid s = true ∧ w.region.isReadable = true) (n : Nat) :
    ∃ bytes, bytes.length = min n w.available ∧
      s.flat.read? w.region w.offset (min n w.available) = some bytes ∧
        read n (s, w) = .ok bytes (s, w.moved (min n w.available)) := by
  rw [read_run]
  by_cases nothing : min n w.available = 0
  · refine ⟨[], nothing.symm, ?_, ?_⟩
    · rw [nothing, FlatMemory.read?, if_pos rfl]
    · rw [if_pos nothing, nothing, Window.moved_zero]
  · obtain ⟨bytes, after, run, moved⟩ := Transfer.run_of_free served apart
      ((Transfer.read_free_iff (x := .readBytes (min n w.available)) served rfl rfl
        (h.room (Nat.min_le_right n w.available))).mpr allowed)
    obtain rfl := Transfer.unchanged run (.inl rfl)
    have read := Region.readBytes_eq_ok_iff.mpr run
    simp only [Transfer.onFlat?, Transfer.direction, Transfer.size, Option.map_eq_some_iff,
      Prod.mk.injEq] at moved
    obtain ⟨_, there, rfl, -⟩ := moved
    exact ⟨_, Region.length_of_readBytes read, there, by rw [if_neg nothing, read]⟩

/-- A read of some bytes that is not allowed is turned away. -/
theorem read_turned (h : w.Ordered) (served : w.region.Served s)
    (denied : ¬ (w.region.isValid s = true ∧ w.region.isReadable = true)) {n : Nat}
    (some : min n w.available ≠ 0) : ∃ cause, read n (s, w) = .error (.fault cause) (s, w) := by
  have refused : (Transfer.readBytes (min n w.available)).refusal? w.region s w.offset ≠ none :=
    fun free => denied ((Transfer.read_free_iff (x := .readBytes (min n w.available)) served rfl rfl
      (h.room (Nat.min_le_right n w.available))).mp free)
  obtain ⟨cause, told⟩ := Option.ne_none_iff_exists'.mp refused
  have run : w.region.readBytes w.offset (min n w.available) s = .error (.fault cause) s := by
    rw [Region.readBytes_eq_error_iff, Transfer.run_eq, told]
  exact ⟨cause, by rw [read_run, if_neg some, run]⟩

end Reader

namespace Writer

/-- A write that fits and is allowed is one into memory. -/
theorem write_allowed (h : w.Ordered) (served : w.region.Served s) (apart : s.Apart)
    (fits : bytes.length ≤ w.available)
    (allowed : w.region.isValid s = true ∧ w.region.isWritable = true) :
    ∃ store, write bytes (s, w) = .ok () (store, w.moved bytes.length) ∧ s.Resembles store ∧
      s.flat.write? w.region w.offset bytes = some store.flat := by
  obtain ⟨_, store, run, -⟩ := Transfer.run_of_free served apart
    ((Transfer.write_free_iff (x := .writeBytes bytes) served rfl rfl (h.room fits)).mpr allowed)
  refine ⟨store, ?_, Transfer.resembles run, Transfer.write?_of_run rfl apart run⟩
  rw [write_run, if_neg (Nat.not_lt.mpr fits), Region.writeBytes_eq_ok_iff.mpr run]
  exact if_pos (h.word served fits)

/-- What does not fit is refused before the region is asked. -/
theorem write_full (full : w.available < bytes.length) (s : Store) :
    write bytes (s, w) =
      .error (.fault (.capacityExceeded bytes.length w.available)) (s, w) := by
  rw [write_run, if_pos full]

theorem write_turned (h : w.Ordered) (served : w.region.Served s)
    (fits : bytes.length ≤ w.available)
    (denied : ¬ (w.region.isValid s = true ∧ w.region.isWritable = true)) :
    ∃ cause, write bytes (s, w) = .error (.fault cause) (s, w) := by
  have refused : (Transfer.writeBytes bytes).refusal? w.region s w.offset ≠ none :=
    fun free => denied ((Transfer.write_free_iff (x := .writeBytes bytes) served rfl rfl
      (h.room fits)).mp free)
  obtain ⟨cause, told⟩ := Option.ne_none_iff_exists'.mp refused
  have run : w.region.writeBytes w.offset bytes s = .error (.fault cause) s := by
    rw [Region.writeBytes_eq_error_iff, Transfer.run_eq, told]
  exact ⟨cause, by rw [write_run, if_neg (Nat.not_lt.mpr fits), run]⟩

end Writer

namespace Session

variable {s : Session} {name : String}

theorem Tidy.step_reader (tidy : s.Tidy) (found : s.handles.find? name = some (.reader w))
    (how : ReaderUse) :
    s.step (.use name (.reader how)) =
      ((how.run (s.store, w)).1,
        { s with store := (how.run (s.store, w)).2.1 }.bind name
          (.reader (how.run (s.store, w)).2.2)) := by
  have steady := (how.handled (w := w) tidy.apart).steady
  refine tidy.step_rebound found (by simp only [use, found]) id ?_
  simp only [Handle.seat, steady]

theorem Tidy.step_writer (tidy : s.Tidy) (found : s.handles.find? name = some (.writer w))
    (how : WriterUse) :
    s.step (.use name (.writer how)) =
      ((how.run (s.store, w)).1,
        { s with store := (how.run (s.store, w)).2.1 }.bind name
          (.writer (how.run (s.store, w)).2.2)) := by
  have steady := (how.handled (w := w) tidy.apart).steady
  refine tidy.step_rebound found (by simp only [use, found]) id ?_
  simp only [Handle.seat, steady]

end Session

end BoundedMemory
