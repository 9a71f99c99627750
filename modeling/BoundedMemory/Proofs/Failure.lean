import BoundedMemory.Proofs.AllOrNothing

/-!
Calls that fail change nothing. This is shown of every single call on a region, a
cursor or a stream, with whatever its caller owns: memory, the cursor with what
was saved of it, the window, and the lists that were lent out.
-/

namespace BoundedMemory

def Reply.isFailure : Reply → Bool
  | .fault _ | .streamFault _ | .trap => true
  | .filled _ cause _ => cause.isSome
  | _ => false

theorem Operation.AllOrNothing.settle {ε σ α : Type} {x : Operation ε σ α} {fault : ε → Reply}
    {reply : α → Reply} {s : σ} (h : x.AllOrNothing)
    (plain : ∀ a after, x s = .ok a after → (reply a).isFailure = false)
    (failed : (x.settle fault reply s).1.isFailure = true) : (x.settle fault reply s).2 = s := by
  unfold Operation.settle at failed ⊢
  cases run : x s with
  | ok a after =>
      simp only [run, plain a after run] at failed
      cases failed
  | error e after => cases e <;> exact h s _ _ run

theorem Transfer.reply_isFailure {x : Transfer} {r : Region} {offset : Nat} {s after : Store}
    {reply : Reply} (h : x.run r offset s = .ok reply after) : reply.isFailure = false := by
  have plain (bytes : Bytes) : (x.answer bytes).isFailure = false := by
    cases x <;> rfl
  obtain ⟨-, result⟩ := run_eq_ok_iff.mp h
  obtain ⟨bytes, rfl⟩ := answer_of_outcome? result
  exact plain bytes

theorem RegionUse.isFailure_failure (how : RegionUse) (cause : Fault) :
    (how.failure cause).isFailure = true := by
  cases how <;> rfl

theorem RegionUse.unchanged_of_failure {how : RegionUse} {r : Region}
    {keyName : SegmentKey → String} {s : Store}
    (failed : (how.run r keyName s).1.isFailure = true) :
    (how.run r keyName s).2 = s := by
  cases transfer : r.transfer? how with
  | some place =>
      obtain ⟨x, offset⟩ := place
      rw [Region.run_use transfer] at failed ⊢
      exact (x.allOrNothing r offset).settle (fun _ _ => Transfer.reply_isFailure) failed
  | none =>
      cases how with
      | release => exact r.release_allOrNothing.settle (fun _ _ _ => rfl) failed
      | report => cases failed
      | clearBetween byte first last =>
          rw [run_turned transfer]
      | _ => cases transfer

theorem CursorUse.unchanged_of_failure {how : CursorUse} {s : Store × Cursor}
    (failed : (how.run s).1.isFailure = true) : (how.run s).2 = s := by
  obtain ⟨s, c⟩ := s
  cases transfer : c.transfer? how with
  | some found =>
      obtain ⟨x, place⟩ := found
      rw [Cursor.run_use transfer] at failed ⊢
      cases place with
      | none =>
          refine (Cursor.transfer_allOrNothing x).settle ?_ failed
          intro reply after run
          obtain ⟨passed, -⟩ := Cursor.transfer_eq_ok_iff.mp run
          exact Transfer.reply_isFailure (Cursor.transferAt_eq_ok_iff.mp passed).2
      | some offset =>
          refine (c.transferAt_allOrNothing x offset).onFirst.settle ?_ failed
          rintro reply ⟨s', c'⟩ run
          rw [Operation.onFirst_run] at run
          cases passed : c.transferAt x offset s with
          | error e after => simp [passed] at run
          | ok found after =>
              simp only [passed] at run
              cases run
              exact Transfer.reply_isFailure (Cursor.transferAt_eq_ok_iff.mp passed).2
  | none =>
      cases how with
      | setPosition position =>
          exact (Cursor.setPosition_allOrNothing position).settle (fun _ _ _ => rfl) failed
      | advance n => exact (Cursor.advance_allOrNothing n).settle (fun _ _ _ => rfl) failed
      | setLimit limit =>
          exact (Cursor.setLimit_allOrNothing limit).settle (fun _ _ _ => rfl) failed
      | setOrder order =>
          exact (Cursor.setOrder_allOrNothing order).settle (fun _ _ _ => rfl) failed
      | mark => cases failed
      | save => exact Cursor.save_allOrNothing.settle (fun _ _ _ => rfl) failed
      | restore => exact Cursor.restore_allOrNothing.settle (fun _ _ _ => rfl) failed
      | pad width byte =>
          exact (Cursor.padTo_allOrNothing width byte).settle (fun _ _ _ => rfl) failed
      | align width => exact (Cursor.alignTo_allOrNothing width).settle (fun _ _ _ => rfl) failed
      | padToWord byte =>
          exact (Cursor.padTo_allOrNothing Host.wordSize byte).settle (fun _ _ _ => rfl) failed
      | alignToWord =>
          exact (Cursor.alignTo_allOrNothing Host.wordSize).settle (fun _ _ _ => rfl) failed
      | _ => cases transfer

theorem WindowUse.unchanged_of_failure {how : WindowUse} {s : Store × Window}
    (failed : (how.run s).1.isFailure = true) : (how.run s).2 = s := by
  cases how with
  | seekTo offset => exact (Window.seekTo_allOrNothing offset).settle (fun _ _ _ => rfl) failed
  | skip n => exact (Window.skip_allOrNothing n).settle (fun _ _ _ => rfl) failed
  | seek wanted => exact (Window.seek_allOrNothing wanted).settle (fun _ _ _ => rfl) failed
  | rewind =>
      unfold run at failed ⊢
      refine Window.rewind_allOrNothing.settle ?_ failed
      intros
      rfl
  | tell =>
      unfold run at failed ⊢
      refine Window.tell_allOrNothing.settle ?_ failed
      intros
      rfl

theorem WriterUse.unchanged_of_failure {how : WriterUse} {s : Store × Window}
    (failed : (how.run s).1.isFailure = true) : (how.run s).2 = s := by
  have written (bytes : Bytes) := (Writer.write_allOrNothing bytes).mapFault StreamFault.access
  cases how with
  | move how => exact WindowUse.unchanged_of_failure failed
  | write bytes => exact (Writer.write_allOrNothing bytes).settle (fun _ _ _ => rfl) failed
  | writeByte byte => exact (Writer.write_allOrNothing [byte]).settle (fun _ _ _ => rfl) failed
  | writeSome bytes => exact (written bytes).map.settle (fun _ _ _ => rfl) failed
  | writeAll bytes =>
      have whole : (Writer.writeAll bytes).AllOrNothing := by
        unfold Writer.writeAll
        by_cases empty : bytes.isEmpty = true
        · intro s e after run
          simp [empty] at run
        · simpa only [empty, Bool.not_false, if_true] using written bytes
      exact whole.settle (fun _ _ _ => rfl) failed
  | flush => cases failed

/-- Whoever makes calls, with everything that a call can change. -/
structure Caller (t : ScalarType) where
  store : Store
  cursor : Cursor
  window : Window
  /-- A list of scalars that is lent out to be filled. -/
  list : List (Scalar t)
  /-- The same of bytes. -/
  buffer : Bytes

/-- A single call on a region, or on the cursor or the stream of a caller. Where a
list is to be filled it is the one that the caller lends out. -/
inductive Call where
  | region (r : Region) (how : RegionUse)
  | fill (r : Region) (offset : Nat) (order : ByteOrder)
  | fillElements (r : Region) (offset start count : Nat) (order : ByteOrder)
  | narrow (r : Region) (n : Narrowing)
  | cursor (how : CursorUse)
  | cursorFill (order : Option ByteOrder)
  | cursorFillAt (offset : Nat) (order : Option ByteOrder)
  | cursorSlice (offset length : Nat)
  | cursorSliceFrom (offset : Nat)
  | cursorSliceHere
  | cursorSliceBetween (first last : Nat)
  | move (how : WindowUse)
  | readInto
  /-- The same through the interface of streams. -/
  | readSome
  | readByte
  | write (how : WriterUse)

namespace Call

variable {t : ScalarType}

private def done (_ : Unit) : Reply := .done

private def bound {α : Type} (_ : α) : Reply := .bound

/-- The reply to a call, and the caller after it. -/
def run (call : Call) (keyName : SegmentKey → String) (caller : Caller t) : Reply × Caller t :=
  match call with
  | .region r how =>
      let (reply, store) := how.run r keyName caller.store
      (reply, { caller with store })
  | .fill r offset order =>
      let (reply, store, list) :=
        (r.fill offset order).settle .fault done (caller.store, caller.list)
      (reply, { caller with store, list })
  | .fillElements r offset start count order =>
      let (reply, store, list) :=
        (r.fillElements offset start count order).settle .fault done (caller.store, caller.list)
      (reply, { caller with store, list })
  | .narrow r n =>
      let (reply, store) := (n.apply r).settle .fault bound caller.store
      (reply, { caller with store })
  | .cursor how =>
      let (reply, store, c) := how.run (caller.store, caller.cursor)
      (reply, { caller with store, cursor := c })
  | .cursorFill order =>
      let (reply, (store, c), list) :=
        (Cursor.fill order).settle .fault done ((caller.store, caller.cursor), caller.list)
      (reply, { caller with store, cursor := c, list })
  | .cursorFillAt offset order =>
      let (reply, store, list) :=
        (caller.cursor.fillAt offset order).settle .fault done (caller.store, caller.list)
      (reply, { caller with store, list })
  | .cursorSlice offset length =>
      let (reply, store) := (caller.cursor.slice offset length).settle .fault bound caller.store
      (reply, { caller with store })
  | .cursorSliceFrom offset =>
      let (reply, store) := (caller.cursor.sliceFrom offset).settle .fault bound caller.store
      (reply, { caller with store })
  | .cursorSliceHere =>
      let (reply, store) := caller.cursor.sliceHere.settle .fault bound caller.store
      (reply, { caller with store })
  | .cursorSliceBetween first last =>
      let (reply, store) :=
        (caller.cursor.sliceBetween first last).settle .fault bound caller.store
      (reply, { caller with store })
  | .move how =>
      let (reply, store, window) := how.run (caller.store, caller.window)
      (reply, { caller with store, window })
  | .readInto =>
      let (reply, (store, window), buffer) :=
        Reader.fill.settle .fault .number ((caller.store, caller.window), caller.buffer)
      (reply, { caller with store, window, buffer })
  | .readSome =>
      let (reply, (store, window), buffer) :=
        (Operation.mapFault .access Reader.fill).settle .streamFault .number
          ((caller.store, caller.window), caller.buffer)
      (reply, { caller with store, window, buffer })
  | .readByte =>
      let (reply, store, window) :=
        Reader.readByte.settle .fault .byte (caller.store, caller.window)
      (reply, { caller with store, window })
  | .write how =>
      let (reply, store, window) := how.run (caller.store, caller.window)
      (reply, { caller with store, window })

/-- A call that fails leaves everything as it was: all memory and all that is known
of it, the cursor with what it saved, the window, and the lists that were lent out.
This holds in every state, whatever the call is given and at whichever of its
checks it fails. -/
theorem run_failed {call : Call} {keyName : SegmentKey → String} {caller : Caller t}
    (failed : (call.run keyName caller).1.isFailure = true) :
    (call.run keyName caller).2 = caller := by
  cases call with
  | region r how =>
      have same := RegionUse.unchanged_of_failure failed
      simp only [run, same]
  | fill r offset order =>
      have same := (r.fill_allOrNothing offset order).settle (fun _ _ _ => rfl) failed
      simp only [run, same]
  | fillElements r offset start count order =>
      have same := (r.fillElements_allOrNothing offset start count order).settle
        (fun _ _ _ => rfl) failed
      simp only [run, same]
  | narrow r n =>
      have same := (n.allOrNothing r).settle (fun _ _ _ => rfl) failed
      simp only [run, same]
  | cursor how =>
      have same := CursorUse.unchanged_of_failure failed
      simp only [run, same]
  | cursorFill order =>
      have same := (Cursor.fill_allOrNothing order).settle (fun _ _ _ => rfl) failed
      simp only [run, same]
  | cursorFillAt offset order =>
      have same := (caller.cursor.fillAt_allOrNothing offset order).settle
        (fun _ _ _ => rfl) failed
      simp only [run, same]
  | cursorSlice offset length =>
      have same := (caller.cursor.slice_allOrNothing offset length).settle
        (fun _ _ _ => rfl) failed
      simp only [run, same]
  | cursorSliceFrom offset =>
      have same := (caller.cursor.sliceFrom_allOrNothing offset).settle (fun _ _ _ => rfl) failed
      simp only [run, same]
  | cursorSliceHere =>
      have same := (caller.cursor.sliceFrom_allOrNothing caller.cursor.position).settle
        (fun _ _ _ => rfl) failed
      simp only [run, Cursor.sliceHere, same]
  | cursorSliceBetween first last =>
      have same := (caller.cursor.sliceBetween_allOrNothing first last).settle
        (fun _ _ _ => rfl) failed
      simp only [run, same]
  | move how =>
      have same := WindowUse.unchanged_of_failure failed
      simp only [run, same]
  | readInto =>
      have same := Reader.fill_allOrNothing.settle (fun _ _ _ => rfl) failed
      simp only [run, same]
  | readSome =>
      have same := (Reader.fill_allOrNothing.mapFault StreamFault.access).settle
        (fun _ _ _ => rfl) failed
      simp only [run, same]
  | readByte =>
      have same := (Reader.read_allOrNothing 1).map.settle (fun _ _ _ => rfl) failed
      simp only [run, Reader.readByte, same]
  | write how =>
      have same := WriterUse.unchanged_of_failure failed
      simp only [run, same]

/-- A cursor over a view that nothing may change, with a mark saved. -/
private def onlooker : Caller .u8 where
  store := {
    machine := Host.machine
    blocks := [{ bytes := Bytes.sequential 16 }]
    roots := [{ backing := .array true, block := 0, base := 0, length := 16 }] }
  cursor := {
    region := { root := 0, base := 2, length := 10, permit := .readOnly, kind := .readOnly }
    mark := { position := 1, limit := 8, order := .littleEndian }
    saved := [{ position := 0, limit := 8, order := .bigEndian }] }
  window := .ofRegion (.ofRoot 0 16)
  list := []
  buffer := []

theorem run_failed_pad :
    ((Call.cursor (.pad 4 0)).run (fun _ => "") onlooker).1.isFailure = true ∧
      ((Call.cursor (.pad 4 0)).run (fun _ => "") onlooker).2 = onlooker := by
  have failed : ((Call.cursor (.pad 4 0)).run (fun _ => "") onlooker).1.isFailure = true := rfl
  exact ⟨failed, run_failed failed⟩

end Call

end BoundedMemory
