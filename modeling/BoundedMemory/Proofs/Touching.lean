import BoundedMemory.Proofs.Failure
import BoundedMemory.Proofs.Keeping

/-!
The uses of handles as touches of memory. Whatever moves bytes through a handle
is one transfer at one offset of the region behind the handle, where a cursor and
a stream add where they stand; all other uses leave memory alone. No use makes
a handle lead elsewhere.
-/

namespace BoundedMemory

/-- A transfer through some handle, with the reply that its bytes give rise to. -/
structure Touch where
  region : Region
  offset : Nat
  transfer : Transfer
  reply : Bytes → Reply

/-- What a touch shows and leaves behind: nothing new where it fails, and what flat
memory has it show and leave otherwise. -/
def Touch.Shows (τ : Touch) (reply : Reply) (M M' : FlatMemory) : Prop :=
  if reply.isFailure then M' = M
  else
    ∃ bytes, τ.transfer.onFlat? τ.region τ.offset M = some (bytes, M') ∧ reply = τ.reply bytes

/-- A use that touches memory at most as it says. -/
def Touches (touch? : Option Touch) (reply : Reply) (M M' : FlatMemory) : Prop :=
  match touch? with
  | some τ => τ.Shows reply M M'
  | none => M' = M

def Region.touch? (r : Region) (how : RegionUse) : Option Touch :=
  (r.transfer? how).map fun (transfer, offset) =>
    { region := r, offset, transfer, reply := transfer.answer }

/-- Padding clears what it skips and tells how much that was. -/
def Cursor.padTouch? (c : Cursor) (width : Nat) (byte : UInt8) : Option Touch :=
  match c.padding width with
  | .ok skip =>
      some {
        region := c.region
        offset := c.position
        transfer := .clear byte skip
        reply := fun _ => .number skip }
  | .error _ => none

def Cursor.touch? (c : Cursor) (how : CursorUse) : Option Touch :=
  match how with
  | .pad width byte => c.padTouch? width byte
  | .padToWord byte => c.padTouch? Host.wordSize byte
  | _ =>
      (c.transfer? how).map fun (transfer, offset?) =>
        { region := c.region, offset := offset?.getD c.position, transfer,
          reply := transfer.answer }

namespace Window

/-- A read of at most `n` bytes where the window stands. -/
def readTouch (w : Window) (n : Nat) (reply : Bytes → Reply) : Touch where
  region := w.region
  offset := w.offset
  transfer := .readBytes (min n w.available)
  reply := reply

def writeTouch (w : Window) (bytes : Bytes) (reply : Reply) : Touch where
  region := w.region
  offset := w.offset
  transfer := .writeBytes bytes
  reply _ := reply

/-- The front of a buffer of `n` zeros after it was read into. -/
def filled (n : Nat) (bytes : Bytes) : Reply :=
  .read bytes.length (bytes ++ (List.replicate n 0).drop bytes.length)

def textReply (bytes : Bytes) : Reply :=
  match String.fromUTF8? ⟨bytes.toArray⟩ with
  | some text => .text text
  | none => .streamFault .notText

def readerTouch? (w : Window) : ReaderUse → Option Touch
  | .move _ => none
  | .readInto n | .read n => some (w.readTouch n (filled n))
  | .readByte => some (w.readTouch 1 fun bytes => .byte bytes.head?)
  | .readExact n => some (w.readTouch n .bytes)
  | .readToEnd => some (w.readTouch w.available .bytes)
  | .readText => some (w.readTouch w.available textReply)

def writerTouch? (w : Window) : WriterUse → Option Touch
  | .move _ | .flush => none
  | .write bytes | .writeAll bytes => some (w.writeTouch bytes .done)
  | .writeByte byte => some (w.writeTouch [byte] .done)
  | .writeSome bytes => some (w.writeTouch bytes (.number bytes.length))

end Window

section Regions

variable {s s' : Store} {τ : Touch} {reply : Reply}

/-- A touch holds what it promises where failures change nothing and successes are
transfers. -/
theorem Touch.shows (failed : reply.isFailure = true → s' = s)
    (passed : reply.isFailure = false →
      ∃ bytes, τ.transfer.onFlat? τ.region τ.offset s.flat = some (bytes, s'.flat) ∧
        reply = τ.reply bytes) :
    τ.Shows reply s.flat s'.flat := by
  unfold Shows
  cases failure : reply.isFailure with
  | true =>
      simp only [if_true]
      rw [failed failure]
  | false =>
      simp only [Bool.false_eq_true, if_false]
      exact passed failure

theorem RegionUse.touches (how : RegionUse) (r : Region) (keyName : SegmentKey → String)
    (h : s.Apart) :
    (how.run r keyName s).2.Apart ∧
      Touches (r.touch? how) (how.run r keyName s).1 s.flat (how.run r keyName s).2.flat := by
  have failed := @RegionUse.unchanged_of_failure how r keyName s
  unfold Region.touch?
  cases transfer : r.transfer? how with
  | some place =>
      obtain ⟨x, offset⟩ := place
      rw [Region.run_use transfer] at failed ⊢
      unfold Operation.settle at failed ⊢
      cases run : x.run r offset s with
      | ok reply s' =>
          simp only [run] at failed ⊢
          obtain ⟨apart, moved⟩ := Transfer.run_flat h run
          exact ⟨apart, Touch.shows failed fun _ => moved⟩
      | error e s' =>
          have same := Transfer.run_error run
          subst same
          cases e with
          | fault cause =>
              refine ⟨h, Touch.shows (fun _ => rfl) fun success => ?_⟩
              simp only [how.isFailure_failure] at success
              cases success
          | trap => exact ⟨h, Touch.shows (fun _ => rfl) fun success => by cases success⟩
  | none =>
      cases how with
      | release =>
          have keeps := r.release_keeps s
          rw [← Operation.settle_snd] at keeps
          exact ⟨keeps.apart h, keeps.flat⟩
      | report => exact ⟨h, rfl⟩
      | clearBetween byte first last =>
          rw [run_turned transfer]
          exact ⟨h, rfl⟩
      | _ => cases transfer

end Regions

/-- What a use of a cursor or stream leaves behind, given where the handle leads:
homes that are still apart, a handle that leads there still, and memory that was
touched at most as said. -/
structure Handled (touch? : Option Touch) (region region' : Region) (reply : Reply)
    (s s' : Store) : Prop where
  apart : s'.Apart
  steady : region' = region
  touches : Touches touch? reply s.flat s'.flat

/-- Moves of a cursor or stream: they leave memory out of it, and stay on the region. -/
def Moves {ε β α : Type} (region : β → Region) (x : Operation ε (Store × β) α) : Prop :=
  ∀ s b, (Operation.after x (s, b)).1 = s ∧ region (Operation.after x (s, b)).2 = region b

theorem Moves.handled {ε β α : Type} {region : β → Region}
    {x : Operation ε (Store × β) α} (moves : Moves region x) {s : Store} {b : β} (h : s.Apart)
    (fault : ε → Reply) (reply : α → Reply) :
    Handled none (region b) (region (x.settle fault reply (s, b)).2.2)
      (x.settle fault reply (s, b)).1 s (x.settle fault reply (s, b)).2.1 := by
  obtain ⟨still, steady⟩ := moves s b
  rw [← Operation.settle_snd x fault reply] at still steady
  refine ⟨?_, steady, congrArg Store.flat still⟩
  rw [still]
  exact h

theorem Moves.map {ε β α γ : Type} {region : β → Region} {x : Operation ε (Store × β) α}
    {f : α → γ} (moves : Moves region x) : Moves region (do return f (← x)) := by
  intro s b
  rw [Operation.after_map]
  exact moves s b

section Cursors

variable {s : Store} {c : Cursor}

namespace Cursor

theorem setPosition_moves (position : Nat) :
    Moves Cursor.region (setPosition position) := by
  intro s c
  unfold Operation.after
  rw [setPosition_run]
  by_cases fits : position ≤ c.limit
  · simp only [fits, if_true, and_self]
  · simp only [fits, if_false, and_self]

theorem advance_moves (n : Nat) : Moves Cursor.region (advance n) := by
  intro s c
  unfold Operation.after
  rw [advance_run]
  by_cases fits : c.position + n ≤ c.limit
  · by_cases inside : c.position + n < Word.modulus
    · simp only [fits, inside, if_true, moved, and_self]
    · simp only [fits, inside, if_true, if_false, and_self]
  · simp only [fits, if_false, and_self]

theorem setLimit_moves (limit : Nat) : Moves Cursor.region (setLimit limit) := by
  intro s c
  unfold Operation.after
  rw [setLimit_run]
  by_cases fits : limit ≤ c.length
  · simp only [fits, if_true, and_self]
  · simp only [fits, if_false, and_self]

theorem setOrder_moves (order : ByteOrder) : Moves Cursor.region (setOrder order) :=
  fun _ _ => ⟨rfl, rfl⟩

theorem save_moves : Moves Cursor.region save := fun _ _ => ⟨rfl, rfl⟩

theorem restore_moves : Moves Cursor.region restore := by
  intro s c
  unfold Operation.after
  rw [restore_run]
  cases c.saved with
  | nil => exact ⟨rfl, rfl⟩
  | cons mark saved => exact ⟨rfl, rfl⟩

theorem alignTo_moves (width : Nat) : Moves Cursor.region (alignTo width) := by
  intro s c
  unfold Operation.after
  rw [alignTo_run]
  cases c.padding width with
  | error fault => exact ⟨rfl, rfl⟩
  | ok skip =>
      by_cases inside : c.position + skip < Word.modulus
      · simp only [inside, if_true, moved, and_self]
      · simp only [inside, if_false, and_self]

end Cursor

/-- A transfer under a cursor is one of its region, wherever it takes place. -/
private theorem Cursor.run_transfer {how : CursorUse} {x : Transfer} {place : Option Nat}
    (transfer : c.transfer? how = some (x, place)) (h : s.Apart) :
    (how.run (s, c)).2.1.Apart ∧ (how.run (s, c)).2.2.region = c.region ∧
      ((how.run (s, c)).1.isFailure = false →
        ∃ bytes, x.onFlat? c.region (place.getD c.position) s.flat =
          some (bytes, (how.run (s, c)).2.1.flat) ∧ (how.run (s, c)).1 = x.answer bytes) := by
  rw [run_use transfer]
  unfold Operation.settle
  cases place with
  | none =>
      simp only
      cases run : Cursor.transfer x (s, c) with
      | ok reply after =>
          obtain ⟨s', c'⟩ := after
          obtain ⟨passed, -, rfl⟩ := transfer_eq_ok_iff.mp run
          obtain ⟨apart, moved⟩ := Transfer.run_flat h (transferAt_eq_ok_iff.mp passed).2
          exact ⟨apart, rfl, fun _ => moved⟩
      | error e after =>
          have same := transfer_error run
          subst same
          cases e <;> exact ⟨h, rfl, fun success => by cases success⟩
  | some offset =>
      simp only [Operation.onFirst_run]
      cases run : c.transferAt x offset s with
      | ok reply s' =>
          obtain ⟨apart, moved⟩ := Transfer.run_flat h (transferAt_eq_ok_iff.mp run).2
          exact ⟨apart, rfl, fun _ => moved⟩
      | error e s' =>
          have same := transferAt_error run
          subst same
          cases e <;> exact ⟨h, rfl, fun success => by cases success⟩

/-- What is skipped is cleared, or nothing is done at all. -/
private theorem Cursor.padTo_handled (width : Nat) (byte : UInt8) (h : s.Apart) :
    Handled (c.padTouch? width byte) c.region
      ((padTo width byte).settle .fault .number (s, c)).2.2.region
      ((padTo width byte).settle .fault .number (s, c)).1 s
      ((padTo width byte).settle .fault .number (s, c)).2.1 := by
  unfold Operation.settle padTouch?
  rw [padTo_run]
  cases c.padding width with
  | error fault => exact ⟨h, rfl, rfl⟩
  | ok skip =>
      by_cases nothing : skip = 0
      · simp only [nothing, if_true]
        refine ⟨h, rfl, Touch.shows (fun _ => rfl) fun _ => ⟨[], ?_, rfl⟩⟩
        simp [Transfer.onFlat?, Transfer.direction, Transfer.payload, FlatMemory.write?]
      · simp only [nothing, if_false]
        cases run : (Transfer.clear byte skip).run c.region c.position s with
        | ok reply s' =>
            obtain ⟨apart, bytes, moved, -⟩ := Transfer.run_flat h run
            exact ⟨apart, rfl, Touch.shows (fun failed => by cases failed)
              fun _ => ⟨bytes, moved, rfl⟩⟩
        | error e s' =>
            have same := Transfer.run_error run
            subst same
            cases e <;> exact ⟨h, rfl, Touch.shows (fun _ => rfl) fun success => by cases success⟩

theorem CursorUse.handled (how : CursorUse) (h : s.Apart) :
    Handled (c.touch? how) c.region (how.run (s, c)).2.2.region (how.run (s, c)).1 s
      (how.run (s, c)).2.1 := by
  cases transfer : c.transfer? how with
  | some found =>
      obtain ⟨x, place⟩ := found
      have touch : c.touch? how = some {
          region := c.region
          offset := place.getD c.position
          transfer := x
          reply := x.answer } := by
        cases how with
        | pad width byte => cases transfer
        | padToWord byte => cases transfer
        | _ => simp only [Cursor.touch?, transfer, Option.map_some]
      have failed := @CursorUse.unchanged_of_failure how (s, c)
      obtain ⟨apart, steady, passed⟩ := Cursor.run_transfer transfer h
      rw [touch]
      exact ⟨apart, steady, Touch.shows (fun failure => congrArg Prod.fst (failed failure)) passed⟩
  | none =>
      cases how with
      | setPosition position => exact (Cursor.setPosition_moves position).handled h _ _
      | advance n => exact (Cursor.advance_moves n).handled h _ _
      | setLimit limit => exact (Cursor.setLimit_moves limit).handled h _ _
      | setOrder order => exact (Cursor.setOrder_moves order).handled h .fault fun _ => .done
      | mark => exact ⟨h, rfl, rfl⟩
      | save => exact Cursor.save_moves.handled h _ _
      | restore => exact Cursor.restore_moves.handled h _ _
      | pad width byte => exact Cursor.padTo_handled width byte h
      | align width => exact (Cursor.alignTo_moves width).handled h _ _
      | padToWord byte => exact Cursor.padTo_handled Host.wordSize byte h
      | alignToWord => exact (Cursor.alignTo_moves Host.wordSize).handled h _ _
      | _ => cases transfer

end Cursors

end BoundedMemory
