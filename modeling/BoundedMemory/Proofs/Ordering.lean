import BoundedMemory.Proofs.CursorMoves
import BoundedMemory.Proofs.Settling

/-!
Where cursors stand. The position of a cursor does not pass its limit nor the limit its
region, also in what was saved. Each use leaves it so, and has an outcome where the
memory of the region is there.
-/

namespace BoundedMemory

open Operation (Settles settles_iff)

variable {s : Store} {r : Region}

namespace Cursor

/-- A position that does not pass its limit, and a limit among `length` bytes. -/
def Mark.Inside (m : Mark) (length : Nat) : Prop :=
  m.position ≤ m.limit ∧ m.limit ≤ length

structure Ordered (c : Cursor) : Prop where
  mark : c.mark.Inside c.length
  saved : ∀ m ∈ c.saved, m.Inside c.length

/-- A cursor that is in order on a region, and any store beside it. -/
def InOrder (r : Region) (t : Store × Cursor) : Prop := t.2.region = r ∧ t.2.Ordered

theorem ofRegion_ordered (r : Region) (order : ByteOrder) : (ofRegion r order).Ordered where
  mark := ⟨Nat.zero_le _, Nat.le_refl _⟩
  saved _ member := by cases member

theorem within_ordered {position limit : Nat} {order : ByteOrder} {c : Cursor}
    (made : within r position limit order = .ok c) : c.region = r ∧ c.Ordered := by
  unfold within Extent.checkPosition at made
  rw [Extent.check_eq, Extent.check_eq] at made
  by_cases low : limit ≤ r.length
  · by_cases fits : position ≤ limit
    · simp only [Nat.add_zero, low, fits, if_true] at made
      cases made
      refine ⟨rfl, ⟨fits, low⟩, fun _ member => ?_⟩
      cases member
    · simp only [Nat.add_zero, low, fits, if_true, if_false] at made
      cases made
  · simp only [Nat.add_zero, low, if_false] at made
    cases made

variable {c : Cursor}

theorem Ordered.inOrder (h : c.Ordered) : InOrder c.region (s, c) := ⟨rfl, h⟩

theorem Ordered.place (h : c.Ordered) {mark : Mark} (inside : mark.Inside c.length) :
    InOrder c.region (s, { c with mark }) :=
  ⟨rfl, inside, h.saved⟩

theorem Ordered.moved (h : c.Ordered) {n : Nat} (fits : c.position + n ≤ c.limit) :
    InOrder c.region (s, c.moved n) :=
  h.place ⟨fits, h.mark.2⟩

/-- Nothing that a cursor can reach lies outside of the words. -/
theorem Ordered.word (h : c.Ordered) (served : c.region.Served s) {n : Nat}
    (fits : c.position + n ≤ c.limit) : c.position + n < Word.modulus := by
  have words := served.words
  have inside : c.limit ≤ c.region.length := h.mark.2
  omega

theorem padding_fits (h : c.Ordered) {width skip : Nat} (passed : c.padding width = .ok skip) :
    c.position + skip ≤ c.limit := by
  have low : c.position ≤ c.limit := h.mark.1
  unfold padding Extent.require at passed
  simp only [Extent.check_eq] at passed
  by_cases wide : 0 < width
  · simp only [wide, decide_true, if_true] at passed
    by_cases aligned : c.position % width = 0
    · rw [if_pos aligned] at passed
      cases passed
      exact low
    · rw [if_neg aligned] at passed
      by_cases fits : c.position + (width - c.position % width) ≤ c.limit
      · rw [if_pos fits] at passed
        cases passed
        exact fits
      · rw [if_neg fits] at passed
        cases passed
  · simp only [wide, decide_false, Bool.false_eq_true, if_false] at passed
    cases passed

section Uses

private theorem setPosition_settles (h : c.Ordered) (position : Nat) :
    Settles (fun _ => InOrder c.region) (InOrder c.region) (setPosition position) (s, c) := by
  rw [settles_iff, setPosition_run]
  by_cases fits : position ≤ c.limit
  · rw [if_pos fits]
    exact h.place ⟨fits, h.mark.2⟩
  · rw [if_neg fits]
    exact ⟨(by simp), h.inOrder⟩

private theorem advance_settles (h : c.Ordered) (served : c.region.Served s) (n : Nat) :
    Settles (fun _ => InOrder c.region) (InOrder c.region) (advance n) (s, c) := by
  rw [settles_iff, advance_run]
  by_cases fits : c.position + n ≤ c.limit
  · rw [if_pos fits, if_pos (h.word served fits)]
    exact h.moved fits
  · rw [if_neg fits]
    exact ⟨(by simp), h.inOrder⟩

private theorem setLimit_settles (h : c.Ordered) (limit : Nat) :
    Settles (fun _ => InOrder c.region) (InOrder c.region) (setLimit limit) (s, c) := by
  rw [settles_iff, setLimit_run]
  by_cases fits : limit ≤ c.length
  · rw [if_pos fits]
    exact h.place ⟨Nat.min_le_right _ _, fits⟩
  · rw [if_neg fits]
    exact ⟨(by simp), h.inOrder⟩

private theorem restore_settles (h : c.Ordered) :
    Settles (fun _ => InOrder c.region) (InOrder c.region) restore (s, c) := by
  rw [settles_iff, restore_run]
  cases stack : c.saved with
  | nil => exact h.inOrder
  | cons mark saved =>
      have all := h.saved
      rw [stack] at all
      exact ⟨rfl, all mark List.mem_cons_self,
        fun m member => all m (List.mem_cons_of_mem _ member)⟩

private theorem save_settles (h : c.Ordered) :
    Settles (fun _ => InOrder c.region) (InOrder c.region) save (s, c) := by
  refine settles_iff.mpr ⟨rfl, h.mark, fun m member => ?_⟩
  rcases List.mem_cons.mp member with rfl | later
  · exact h.mark
  · exact h.saved m later

private theorem alignTo_settles (h : c.Ordered) (served : c.region.Served s) (width : Nat) :
    Settles (fun _ => InOrder c.region) (InOrder c.region) (alignTo width) (s, c) := by
  rw [settles_iff, alignTo_run]
  cases padding : c.padding width with
  | error fault => exact ⟨(by simp), h.inOrder⟩
  | ok skip =>
      have fits := padding_fits h padding
      simp only [h.word served fits, if_true]
      exact h.moved fits

private theorem padTo_settles (h : c.Ordered) (served : c.region.Served s) (width : Nat)
    (byte : UInt8) :
    Settles (fun _ => InOrder c.region) (InOrder c.region) (padTo width byte) (s, c) := by
  rw [settles_iff, padTo_run]
  cases padding : c.padding width with
  | error fault => exact ⟨(by simp), h.inOrder⟩
  | ok skip =>
      have fits := padding_fits h padding
      have cleared := Transfer.settles served (.clear byte skip) c.position
      by_cases nothing : skip = 0
      · simp only [nothing, if_true]
        exact h.inOrder
      · simp only [nothing, if_false]
        cases run : (Transfer.clear byte skip).run c.region c.position s with
        | ok _ t => exact h.moved fits
        | error e t => exact ⟨(cleared.fault run).1, h.inOrder⟩

theorem transferAt_settles (served : c.region.Served s) (x : Transfer) (offset : Nat) :
    Settles (fun reply t => reply ≠ .trap ∧ offset + x.size ≤ c.limit ∧ s.Resembles t) (· = s)
      (c.transferAt x offset) s := by
  have moved := Transfer.settles served x offset
  rw [settles_iff, transferAt_run]
  cases x.lengthFault? with
  | some fault => exact ⟨(by simp), rfl⟩
  | none =>
      by_cases fits : offset + x.size ≤ c.limit
      · simp only [if_pos fits]
        cases run : x.run c.region offset s with
        | ok reply t => exact ⟨(moved.answer run).1, fits, (moved.answer run).2⟩
        | error e t => exact moved.fault run
      · simp only [if_neg fits]
        exact ⟨(by simp), trivial⟩

theorem transfer_settles (h : c.Ordered) (served : c.region.Served s) (x : Transfer) :
    Settles (fun reply t => reply ≠ .trap ∧ InOrder c.region t) (InOrder c.region)
      (transfer x) (s, c) := by
  have moved := transferAt_settles served x c.position
  rw [settles_iff, transfer_run]
  cases run : c.transferAt x c.position s with
  | ok reply t =>
      obtain ⟨plain, fits, -⟩ := moved.answer run
      simp only [h.word served fits, if_true]
      exact ⟨plain, h.moved fits⟩
  | error e t => exact ⟨(moved.fault run).1, h.inOrder⟩

end Uses

end Cursor

/-- Every use of a cursor has an outcome and leaves it in order. -/
theorem CursorUse.settled (how : CursorUse) {c : Cursor} (h : c.Ordered)
    (served : c.region.Served s) :
    (how.run (s, c)).1 ≠ .trap ∧ Cursor.InOrder c.region (how.run (s, c)).2 := by
  cases transfer : c.transfer? how with
  | some found =>
      obtain ⟨x, place⟩ := found
      rw [Cursor.run_use transfer]
      cases place with
      | none =>
          exact (Cursor.transfer_settles h served x).settle (fun _ _ now => ⟨(by simp), now⟩)
            fun _ _ found => found
      | some offset =>
          have kept := (Cursor.transferAt_settles served x offset).mono
            (fun reply t found =>
              (⟨found.1, h.inOrder⟩ : reply ≠ .trap ∧ Cursor.InOrder c.region (t, c)))
            (fun t _ => (h.inOrder : Cursor.InOrder c.region (t, c)))
          exact kept.onFirst.settle (fun _ _ now => ⟨(by simp), now⟩) fun _ _ found => found
  | none =>
      cases how with
      | setPosition position =>
          exact (Cursor.setPosition_settles h position).settle_kept (by simp) fun _ =>
            Reply.noConfusion
      | advance n =>
          exact (Cursor.advance_settles h served n).settle_kept (by simp) (by simp)
      | setLimit limit =>
          exact (Cursor.setLimit_settles h limit).settle_kept (by simp) fun _ => Reply.noConfusion
      | setOrder order => exact ⟨Reply.noConfusion, h.place h.mark⟩
      | mark => exact ⟨Reply.noConfusion, h.inOrder⟩
      | save => exact (Cursor.save_settles h).settle_kept (by simp) (by simp)
      | restore => exact (Cursor.restore_settles h).settle_kept (by simp) (by simp)
      | pad width byte =>
          exact (Cursor.padTo_settles h served width byte).settle_kept (by simp) (by simp)
      | padToWord byte =>
          exact (Cursor.padTo_settles h served Host.wordSize byte).settle_kept (by simp) (by simp)
      | align width =>
          exact (Cursor.alignTo_settles h served width).settle_kept (by simp) (by simp)
      | alignToWord =>
          exact (Cursor.alignTo_settles h served Host.wordSize).settle_kept (by simp) (by simp)
      | _ => cases transfer

end BoundedMemory
