import BoundedMemory.Proofs.Lending
import BoundedMemory.Proofs.Narrowing
import BoundedMemory.Proofs.Release

/-!
An operation may have changed its state before it stopped; `AllOrNothing` says
that it has not. It is shown of all that regions, cursors and streams can do,
also where a list is to be filled.
-/

namespace BoundedMemory

namespace Operation

variable {ε ε' σ β γ α : Type}

/-- An operation that stops, for whatever reason, leaves everything as it was. -/
def AllOrNothing (x : Operation ε σ α) : Prop :=
  ∀ (s : σ) (e : Stop ε) (after : σ), x s = .error e after → after = s

theorem AllOrNothing.onFirst {x : Operation ε σ α} (h : x.AllOrNothing) :
    (Operation.onFirst x : Operation ε (σ × β) α).AllOrNothing := by
  rintro ⟨s, b⟩ e after run
  rw [onFirst_run] at run
  cases first : x s with
  | ok a t => simp [first] at run
  | error e' t =>
      simp only [first] at run
      cases run
      rw [h s _ _ first]

theorem AllOrNothing.mapFault {x : Operation ε σ α} (f : ε → ε') (h : x.AllOrNothing) :
    (Operation.mapFault f x).AllOrNothing := by
  intro s e after run
  rw [mapFault_run] at run
  cases first : x s with
  | ok a t => simp [first] at run
  | error e' t =>
      cases e' <;> simp only [first] at run <;> cases run <;> exact h s _ _ first

/-- A check in front changes nothing about it. -/
theorem AllOrNothing.check {check : Except ε β} {f : β → Operation ε σ α}
    (h : ∀ b, (f b).AllOrNothing) : ((liftM check : Operation ε σ β) >>= f).AllOrNothing := by
  intro s e after run
  rw [bind_run] at run
  cases check with
  | error cause =>
      cases run
      rfl
  | ok b => exact h b s e after run

/-- What comes after can only add to the answer. -/
theorem allOrNothing_map_iff {x : Operation ε σ α} {f : α → β} :
    (do return f (← x)).AllOrNothing ↔ x.AllOrNothing := by
  constructor
  · intro h s e after stopped
    apply h s e after
    rw [bind_run, stopped]
  · intro h s e after run
    rw [bind_run] at run
    cases first : x s with
    | ok a t => simp [first] at run
    | error e' t =>
        simp only [first] at run
        cases run
        exact h s _ _ first

theorem AllOrNothing.map {x : Operation ε σ α} {f : α → β} (h : x.AllOrNothing) :
    (do return f (← x)).AllOrNothing :=
  allOrNothing_map_iff.mpr h

/-- A list is filled only with what was there in the end. -/
theorem AllOrNothing.filling {x : β → Operation ε σ γ} {told : γ → α} {given : γ → β}
    (h : ∀ lent, (x lent).AllOrNothing) : (Operation.filling x told given).AllOrNothing := by
  rintro ⟨s, lent⟩ e after run
  unfold Operation.filling at run
  cases first : x lent s with
  | ok c t => simp [first] at run
  | error e' t =>
      simp only [first] at run
      cases run
      rw [h lent s _ _ first]

end Operation

section Operations

variable {t : ScalarType}

theorem Transfer.allOrNothing (x : Transfer) (r : Region) (offset : Nat) :
    (x.run r offset).AllOrNothing :=
  fun _ _ _ run => run_error run

theorem Narrowing.allOrNothing (n : Narrowing) (r : Region) : (n.apply r).AllOrNothing :=
  fun _ _ _ run => apply_error run

theorem Region.release_allOrNothing (r : Region) : r.release.AllOrNothing := by
  intro s e after run
  unfold release at run
  by_cases view : r.isView = true
  · simp [view] at run
  · simp only [view, Bool.false_eq_true, if_false] at run
    exact (Store.releaseRoot_error run).1

theorem Region.readSlice_allOrNothing (r : Region) (offset count : Nat) (order : ByteOrder) :
    (r.readSlice t offset count order).AllOrNothing :=
  Operation.allOrNothing_map_iff.mp (Transfer.allOrNothing (.readSlice t count order) r offset)

theorem Region.readElements_allOrNothing (r : Region) (offset start count : Nat)
    (order : ByteOrder) (list : List (Scalar t)) :
    (r.readElements offset list start count order).AllOrNothing :=
  Operation.allOrNothing_map_iff.mp
    (Transfer.allOrNothing (.readElements t list start count order) r offset)

theorem Region.fill_allOrNothing (r : Region) (offset : Nat) (order : ByteOrder) :
    (r.fill offset order : Action (Store × List (Scalar t)) Unit).AllOrNothing := by
  rw [fill_eq]
  exact .filling fun list => r.readSlice_allOrNothing offset list.length order

theorem Region.fillElements_allOrNothing (r : Region) (offset start count : Nat)
    (order : ByteOrder) :
    (r.fillElements offset start count order :
      Action (Store × List (Scalar t)) Unit).AllOrNothing := by
  rw [fillElements_eq]
  exact .filling fun list => r.readElements_allOrNothing offset start count order list

namespace Cursor

theorem transferAt_allOrNothing (c : Cursor) (x : Transfer) (offset : Nat) :
    (c.transferAt x offset).AllOrNothing :=
  fun _ _ _ run => transferAt_error run

theorem transfer_allOrNothing (x : Transfer) : (transfer x).AllOrNothing := by
  rintro ⟨s, c⟩ e after run
  exact transfer_error run

theorem setPosition_allOrNothing (position : Nat) : (setPosition position).AllOrNothing := by
  rintro ⟨s, c⟩ e after run
  rw [setPosition_run] at run
  split at run <;> cases run
  rfl

theorem advance_allOrNothing (n : Nat) : (advance n).AllOrNothing := by
  rintro ⟨s, c⟩ e after run
  rw [advance_run] at run
  split at run
  · split at run <;> cases run
    rfl
  · cases run
    rfl

theorem setLimit_allOrNothing (limit : Nat) : (setLimit limit).AllOrNothing := by
  rintro ⟨s, c⟩ e after run
  rw [setLimit_run] at run
  split at run <;> cases run
  rfl

theorem setOrder_allOrNothing (order : ByteOrder) : (setOrder order).AllOrNothing := by
  rintro ⟨s, c⟩ e after run
  cases run

theorem save_allOrNothing : save.AllOrNothing := by
  rintro ⟨s, c⟩ e after run
  cases run

theorem restore_allOrNothing : restore.AllOrNothing := by
  rintro ⟨s, c⟩ e after run
  rw [restore_run] at run
  cases saved : c.saved <;> simp [saved] at run

theorem alignTo_allOrNothing (width : Nat) : (alignTo width).AllOrNothing := by
  rintro ⟨s, c⟩ e after run
  rw [alignTo_run] at run
  cases padding : c.padding width with
  | error fault =>
      simp only [padding] at run
      cases run
      rfl
  | ok skip =>
      simp only [padding] at run
      split at run <;> cases run
      rfl

theorem padTo_allOrNothing (width : Nat) (byte : UInt8) : (padTo width byte).AllOrNothing := by
  rintro ⟨s, c⟩ e after run
  rw [padTo_run] at run
  cases padding : c.padding width with
  | error fault =>
      simp only [padding] at run
      cases run
      rfl
  | ok skip =>
      simp only [padding] at run
      by_cases nothing : skip = 0
      · simp [nothing] at run
      · simp only [nothing, if_false] at run
        cases cleared : (Transfer.clear byte skip).run c.region c.position s with
        | ok reply s' => simp [cleared] at run
        | error e' s' =>
            simp only [cleared] at run
            cases run
            rw [Transfer.run_error cleared]

theorem readSliceAt_allOrNothing (c : Cursor) (offset count : Nat) (order : Option ByteOrder) :
    (c.readSliceAt t offset count order).AllOrNothing := by
  have answered : (do return Reply.scalars t (← c.readSliceAt t offset count order) :
      Action Store Reply).AllOrNothing := by
    rw [readSliceAt_eq]
    exact c.transferAt_allOrNothing _ offset
  exact Operation.allOrNothing_map_iff.mp answered

theorem readSlice_allOrNothing (count : Nat) (order : Option ByteOrder) :
    (readSlice t count order).AllOrNothing := by
  rintro ⟨s, c⟩ e after run
  have stopped := readSlice_eq c s count order (t := t)
  rw [Operation.bind_run, run] at stopped
  exact transfer_error stopped.symm

theorem fillAt_allOrNothing (c : Cursor) (offset : Nat) (order : Option ByteOrder) :
    (c.fillAt offset order : Action (Store × List (Scalar t)) Unit).AllOrNothing := by
  rw [fillAt_eq]
  exact .filling fun list => c.readSliceAt_allOrNothing offset list.length order

theorem fill_allOrNothing (order : Option ByteOrder) :
    (fill order : Action ((Store × Cursor) × List (Scalar t)) Unit).AllOrNothing := by
  rw [fill_eq]
  exact .filling fun list => readSlice_allOrNothing list.length order

/-- A view of a cursor is a view of its region with the same order. -/
theorem slice_allOrNothing (c : Cursor) (offset length : Nat) :
    (c.slice offset length).AllOrNothing :=
  (Narrowing.allOrNothing (.slice offset length) c.region).map

theorem sliceFrom_allOrNothing (c : Cursor) (offset : Nat) : (c.sliceFrom offset).AllOrNothing := by
  apply Operation.AllOrNothing.check
  intro _
  cases Word.sub? c.length offset with
  | none =>
      intro s e after run
      cases run
      rfl
  | some length => exact c.slice_allOrNothing offset length

theorem sliceBetween_allOrNothing (c : Cursor) (first last : Nat) :
    (c.sliceBetween first last).AllOrNothing :=
  Operation.AllOrNothing.check fun length => c.slice_allOrNothing first length

end Cursor

namespace Window

theorem seekTo_allOrNothing (offset : Nat) : (seekTo offset).AllOrNothing := by
  rintro ⟨s, w⟩ e after run
  rw [seekTo_run] at run
  split at run <;> cases run
  rfl

theorem seek_allOrNothing (wanted : SeekFrom) : (seek wanted).AllOrNothing := by
  rintro ⟨s, w⟩ e after run
  rw [seek_run] at run
  cases target : w.target? wanted with
  | none =>
      simp only [target] at run
      cases run
      rfl
  | some place =>
      simp only [target] at run
      split at run <;> cases run
      rfl

theorem rewind_allOrNothing : rewind.AllOrNothing := by
  unfold rewind
  exact (seek_allOrNothing (.start 0)).map

theorem tell_allOrNothing : tell.AllOrNothing := by
  unfold tell
  exact seek_allOrNothing (.current 0)

theorem skip_allOrNothing (n : Nat) : (skip n : Act Fault Nat).AllOrNothing := by
  rintro ⟨s, w⟩ e after run
  rw [skip_run] at run
  by_cases fits : w.offset + min n w.available < Word.modulus
  · simp [fits] at run
  · simp only [fits, if_false] at run
    cases run
    rfl

end Window

theorem Reader.read_allOrNothing (n : Nat) : (Reader.read n).AllOrNothing := by
  rintro ⟨s, w⟩ e after run
  rw [read_run] at run
  by_cases nothing : min n w.available = 0
  · simp [nothing] at run
  · simp only [nothing, if_false] at run
    cases read : w.region.readBytes w.offset (min n w.available) s with
    | ok bytes s' => simp [read] at run
    | error e' s' =>
        simp only [read] at run
        cases run
        rw [Region.readBytes_error read]

theorem Reader.fill_allOrNothing : Reader.fill.AllOrNothing := by
  rw [fill_eq]
  exact .filling fun buffer => (read_allOrNothing buffer.length).map

/-- A write that got past its region moves on. -/
theorem Writer.write_allOrNothing (bytes : Bytes) : (Writer.write bytes).AllOrNothing := by
  rintro ⟨s, w⟩ e after run
  rw [write_run] at run
  by_cases full : w.available < bytes.length
  · simp only [full, if_true] at run
    cases run
    rfl
  · simp only [full, if_false] at run
    cases written : w.region.writeBytes w.offset bytes s with
    | error e' s' =>
        simp only [written] at run
        cases run
        rw [Region.writeBytes_error written]
    | ok _ s' =>
        simp only [written] at run
        rcases Transfer.stays (Region.writeBytes_eq_ok_iff.mp written) with ⟨rfl, -⟩ | inside
        · split at run <;> cases run
          rfl
        · simp only [Transfer.size] at inside
          simp [inside] at run

end Operations

end BoundedMemory
