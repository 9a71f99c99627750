import BoundedMemory.Proofs.Outcomes
import BoundedMemory.Proofs.Records
import Mathlib.Order.Bounds.Defs

/-!
Padding and alignment. A cursor is moved to the next multiple of a width by the least number
of bytes that gets it there, if these are left before its limit, and the bytes in between are
left alone or all set. There it is aligned: to be moved again takes no bytes, and a multiple of
a multiple of a width can be reached in one step or in two. Where the width is that of a word,
it is the 8 bytes that a word has on a machine of 64 bits.
-/

namespace BoundedMemory

namespace RecordItem

variable {width first second position n : Nat}

theorem gap_le (some : 0 < width) (aligned : width ∣ position + n) : gap width position ≤ n := by
  refine Nat.le_of_not_lt fun short => ?_
  have apart : width ∣ gap width position - n := by
    have both := Nat.dvd_sub (dvd_add_gap some position) aligned
    rwa [Nat.add_sub_add_left] at both
  have below := gap_lt some position
  have wide := Nat.le_of_dvd (by omega) apart
  omega

theorem isLeast_gap (some : 0 < width) (position : Nat) :
    IsLeast {n | width ∣ position + n} (gap width position) :=
  ⟨dvd_add_gap some position, fun _ aligned => gap_le some aligned⟩

theorem gap_of_dvd (aligned : width ∣ position) : gap width position = 0 :=
  if_pos (Nat.mod_eq_zero_of_dvd aligned)

/-- A multiple of a multiple is as far away when a part of the way is gone first. -/
theorem gap_add_gap (multiple : first ∣ second) (some : 0 < second) (position : Nat) :
    gap first position + gap second (position + gap first position) = gap second position := by
  have some₁ : 0 < first := Nat.pos_of_dvd_of_pos multiple some
  have nearer : gap first position ≤ gap second position :=
    gap_le some₁ (Nat.dvd_trans multiple (dvd_add_gap some position))
  have there : second ∣ position + gap first position +
      (gap second position - gap first position) := by
    rw [Nat.add_assoc, Nat.add_sub_cancel' nearer]
    exact dvd_add_gap some position
  have back : second ∣ position +
      (gap first position + gap second (position + gap first position)) := by
    rw [← Nat.add_assoc]
    exact dvd_add_gap some (position + gap first position)
  have low := gap_le some there
  have high := gap_le some back
  omega

end RecordItem

open RecordItem (gap)

/-- The width to whose next multiple a use moves a cursor, past bytes that it leaves alone. -/
def CursorUse.alignment? : CursorUse → Option Nat
  | .align width => some width
  | .alignToWord => some Host.wordSize
  | _ => none

/-- The same for a use that sets these bytes, and what it sets them to. -/
def CursorUse.padding? : CursorUse → Option (Nat × UInt8)
  | .pad width byte => some (width, byte)
  | .padToWord byte => some (Host.wordSize, byte)
  | _ => none

/-- The width of either. -/
def CursorUse.width? (how : CursorUse) : Option Nat :=
  how.alignment?.or (how.padding?.map Prod.fst)

variable {s store : Store} {c c' : Cursor} {how : CursorUse} {width skip : Nat} {byte : UInt8}

theorem CursorUse.width?_eq_some_iff :
    how.width? = some width ↔
      how.alignment? = some width ∨ ∃ byte, how.padding? = some (width, byte) := by
  cases how <;> simp [width?, alignment?, padding?]

namespace Cursor

theorem moved_moved (c : Cursor) (m n : Nat) : (c.moved m).moved n = c.moved (m + n) := by
  simp only [moved, position, Nat.add_assoc]

end Cursor

namespace CursorUse

theorem run_of_aligns (aligns : how.alignment? = some width) (s : Store) (c : Cursor) :
    how.run (s, c) = (Cursor.alignTo width).settle .fault .number (s, c) := by
  cases how <;> cases aligns <;> rfl

theorem run_of_pads (pads : how.padding? = some (width, byte)) (s : Store) (c : Cursor) :
    how.run (s, c) = (Cursor.padTo width byte).settle .fault .number (s, c) := by
  cases how <;> cases pads <;> rfl

/-- Aligning has nothing to do with memory. -/
theorem align_run (h : c.Ordered) (served : c.region.Served s) (some : 0 < width)
    (aligns : how.alignment? = .some width) :
    how.run (s, c) =
      if c.position + gap width c.position ≤ c.limit then
        (.number (gap width c.position), s, c.moved (gap width c.position))
      else (.fault (.outOfBounds c.position (gap width c.position) c.limit), s, c) := by
  rw [run_of_aligns aligns, Operation.settle, Cursor.alignTo_run, Cursor.padding_eq h some]
  by_cases fits : c.position + gap width c.position ≤ c.limit
  · simp only [fits, h.word served fits, if_true]
  · simp only [fits, if_false]

/-- Where aligning takes a cursor, if it goes through. -/
theorem align_run_iff (h : c.Ordered) (served : c.region.Served s) (some : 0 < width)
    (aligns : how.alignment? = .some width) :
    how.run (s, c) = (.number skip, s, c') ↔
      c.position + skip ≤ c.limit ∧ gap width c.position = skip ∧ c.moved skip = c' := by
  rw [align_run h served some aligns]
  constructor
  · intro passed
    split at passed <;> cases passed
    exact ⟨‹_›, rfl, rfl⟩
  · rintro ⟨fits, rfl, rfl⟩
    rw [if_pos fits]

/-- The gaps of a width and of a multiple of it add up, so the first stop is on the way. -/
theorem align_twice (h : c.Ordered) (served : c.region.Served s) {first second : CursorUse}
    {a b : Nat} (aligns : first.alignment? = some a) (aligns' : second.alignment? = some b)
    (multiple : a ∣ b) (some : 0 < b) :
    (∃ m c₁, first.run (s, c) = (.number m, s, c₁) ∧
        ∃ n, second.run (s, c₁) = (.number n, s, c')) ↔
      ∃ n, second.run (s, c) = (.number n, s, c') := by
  have some' : 0 < a := Nat.pos_of_dvd_of_pos multiple some
  have sum := RecordItem.gap_add_gap multiple some c.position
  have there : (c.moved (gap a c.position)).moved (gap b (c.position + gap a c.position)) =
      c.moved (gap b c.position) := by rw [Cursor.moved_moved, sum]
  have whole {n : Nat} : second.run (s, c) = (.number n, s, c') ↔ _ :=
    align_run_iff h served some aligns'
  have front {m : Nat} {c₁ : Cursor} : first.run (s, c) = (.number m, s, c₁) ↔ _ :=
    align_run_iff h served some' aligns
  have back {n : Nat} (low : c.position + gap a c.position ≤ c.limit) :
      second.run (s, c.moved (gap a c.position)) = (.number n, s, c') ↔ _ :=
    align_run_iff (h.moved low (s := s)).2 served some aligns'
  constructor
  · rintro ⟨m, c₁, passed, n, passed'⟩
    obtain ⟨low, rfl, rfl⟩ := front.mp passed
    obtain ⟨fits, rfl, rfl⟩ := (back low).mp passed'
    refine ⟨_, whole.mpr ⟨?_, rfl, there.symm⟩⟩
    rw [← sum, ← Nat.add_assoc]
    exact fits
  · rintro ⟨n, passed⟩
    obtain ⟨fits, rfl, rfl⟩ := whole.mp passed
    rw [← sum, ← Nat.add_assoc] at fits
    have low : c.position + gap a c.position ≤ c.limit := Nat.le_trans (Nat.le_add_right _ _) fits
    refine ⟨_, _, front.mpr ⟨low, rfl, rfl⟩, _, (back low).mpr ⟨fits, rfl, there⟩⟩

theorem pad_run_of_free (h : c.Ordered) (served : c.region.Served s) (apart : s.Apart)
    (some : 0 < width) (pads : how.padding? = .some (width, byte))
    (fits : c.position + gap width c.position ≤ c.limit)
    (free : gap width c.position = 0 ∨
      c.region.isValid s = true ∧ c.region.isWritable = true) :
    ∃ store, how.run (s, c) =
        (.number (gap width c.position), store, c.moved (gap width c.position)) ∧
      s.flat.write? c.region c.position (List.replicate (gap width c.position) byte) =
        .some store.flat := by
  rw [run_of_pads pads, Operation.settle, Cursor.padTo_run, Cursor.padding_eq h some, if_pos fits]
  by_cases nothing : gap width c.position = 0
  · rw [nothing]
    exact ⟨s, rfl, rfl⟩
  · have inside : c.position + gap width c.position ≤ c.region.length :=
      Nat.le_trans fits h.mark.2
    obtain ⟨bytes, after, run, -⟩ := Transfer.run_of_free served apart
      ((Transfer.write_free_iff (x := .clear byte (gap width c.position)) served rfl rfl inside).mpr
        (free.resolve_left nothing))
    refine ⟨after, ?_, Transfer.write?_of_run rfl apart run⟩
    simp only [nothing, if_false, run]

theorem pad_run_of_refused (h : c.Ordered) (served : c.region.Served s) (some : 0 < width)
    (pads : how.padding? = .some (width, byte))
    (refused : ¬ (c.position + gap width c.position ≤ c.limit ∧
      (gap width c.position = 0 ∨ c.region.isValid s = true ∧ c.region.isWritable = true))) :
    ∃ fault, how.run (s, c) = (.fault fault, s, c) := by
  rw [run_of_pads pads, Operation.settle, Cursor.padTo_run, Cursor.padding_eq h some]
  by_cases fits : c.position + gap width c.position ≤ c.limit
  · have inside : c.position + gap width c.position ≤ c.region.length :=
      Nat.le_trans fits h.mark.2
    have nothing : gap width c.position ≠ 0 := fun none => refused ⟨fits, .inl none⟩
    have turned : (Transfer.clear byte (gap width c.position)).refusal? c.region s c.position ≠
        none := fun free => refused
          ⟨fits, .inr ((Transfer.write_free_iff served rfl rfl inside).mp free)⟩
    obtain ⟨fault, told⟩ := Option.ne_none_iff_exists'.mp turned
    refine ⟨fault, ?_⟩
    simp only [fits, nothing, if_true, if_false, Transfer.run_eq, told]
  · exact ⟨_, by simp only [fits, if_false]; rfl⟩

theorem run_zero (multiples : how.width? = some 0) :
    how.run (s, c) = (.fault (.invalidArgument "width" "width > 0"), s, c) := by
  obtain aligns | ⟨byte, pads⟩ := width?_eq_some_iff.mp multiples
  · cases how <;> cases aligns
    rfl
  · cases how <;> cases pads
    rfl

/-- Where either goes through, it has moved the cursor by the gap that it tells. -/
theorem width_run (h : c.Ordered) (served : c.region.Served s) (apart : s.Apart)
    (multiples : how.width? = some width)
    (passed : how.run (s, c) = (.number skip, store, c')) :
    0 < width ∧ skip = gap width c.position ∧ c.position + skip ≤ c.limit ∧ c' = c.moved skip := by
  rcases Nat.eq_zero_or_pos width with rfl | some
  · rw [run_zero multiples] at passed
    cases passed
  obtain aligns | ⟨byte, pads⟩ := width?_eq_some_iff.mp multiples
  · rw [align_run h served some aligns] at passed
    split at passed <;> cases passed
    rename_i fits
    exact ⟨some, rfl, fits, rfl⟩
  · by_cases free : c.position + gap width c.position ≤ c.limit ∧
        (gap width c.position = 0 ∨ c.region.isValid s = true ∧ c.region.isWritable = true)
    · obtain ⟨after, run, -⟩ := pad_run_of_free h served apart some pads free.1 free.2
      rw [passed] at run
      cases run
      exact ⟨some, rfl, free.1, rfl⟩
    · obtain ⟨fault, run⟩ := pad_run_of_refused h served some pads free
      rw [passed] at run
      cases run

/-- A cursor that stands at a multiple stays there, whatever has become of the memory. -/
theorem run_aligned (h : c.Ordered) (word : c.position < Word.modulus) (some : 0 < width)
    (aligned : width ∣ c.position) (multiples : how.width? = .some width) :
    how.run (s, c) = (.number 0, s, c) := by
  have low : c.position ≤ c.limit := h.mark.1
  have padding : c.padding width = .ok 0 := by
    rw [Cursor.padding_eq h some, RecordItem.gap_of_dvd aligned, Nat.add_zero, if_pos low]
  obtain aligns | ⟨byte, pads⟩ := width?_eq_some_iff.mp multiples
  · rw [run_of_aligns aligns, Operation.settle, Cursor.alignTo_run, padding]
    simp only [Nat.add_zero, word, if_true]
    rfl
  · rw [run_of_pads pads, Operation.settle, Cursor.padTo_run, padding]
    simp only [if_true]

end CursorUse

namespace Session

/-- How a cursor of a session is moved to multiples of a width. -/
structure Pads (s : Session) (c : Cursor) : Prop where
  /-- Whether the region is valid and whatever it allows, the cursor is aligned by the least
  number of bytes that takes it to a multiple, if these are left, and no byte is changed. -/
  align {how : CursorUse} {width : Nat} : how.alignment? = some width → 0 < width →
    ∃ skip, IsLeast {n | width ∣ c.position + n} skip ∧
      how.run (s.store, c) =
        if c.position + skip ≤ c.limit then (.number skip, s.store, c.moved skip)
        else (.fault (.outOfBounds c.position skip c.limit), s.store, c)
  /-- The same holds of padding, which sets just the bytes that it skips, and if there are any
  needs a region that is valid and may be written. Where it fails nothing is changed. -/
  pad {how : CursorUse} {width : Nat} {byte : UInt8} : how.padding? = some (width, byte) →
    0 < width → ∃ skip, IsLeast {n | width ∣ c.position + n} skip ∧
      if c.position + skip ≤ c.limit ∧
          (skip = 0 ∨ c.region.isValid s.store = true ∧ c.region.isWritable = true) then
        ∃ store, how.run (s.store, c) = (.number skip, store, c.moved skip) ∧
          s.store.flat.write? c.region c.position (List.replicate skip byte) = some store.flat
      else ∃ fault, how.run (s.store, c) = (.fault fault, s.store, c)
  zero {how : CursorUse} : how.width? = some 0 →
    how.run (s.store, c) = (.fault (.invalidArgument "width" "width > 0"), s.store, c)
  /-- There is nothing left to skip right after either of them went through. -/
  again {first second : CursorUse} {width skip : Nat} {store : Store} {c' : Cursor} :
    first.width? = some width → second.width? = some width →
      first.run (s.store, c) = (.number skip, store, c') →
        second.run (store, c') = (.number 0, store, c')
  /-- Where both go through, they skip as much and get as far. -/
  agree {first second : CursorUse} {width m n : Nat} {store store' : Store} {c₁ c₂ : Cursor} :
    first.width? = some width → second.width? = some width →
      first.run (s.store, c) = (.number m, store, c₁) →
        second.run (s.store, c) = (.number n, store', c₂) → m = n ∧ c₁ = c₂
  /-- A multiple of a multiple is reached through that multiple if it is reached at all. -/
  nested {first second : CursorUse} {a b : Nat} {c' : Cursor} : first.alignment? = some a →
    second.alignment? = some b → a ∣ b → 0 < b →
      ((∃ m c₁, first.run (s.store, c) = (.number m, s.store, c₁) ∧
          ∃ n, second.run (s.store, c₁) = (.number n, s.store, c')) ↔
        ∃ n, second.run (s.store, c) = (.number n, s.store, c'))

variable {s : Session} {name : String} {c : Cursor}

/-- Reachable cursors are moved to multiples by as little as it takes, if that is left. -/
theorem run_pads (machine : Machine) (files : FileTree) {commands : List Command}
    (orderly : ∀ command ∈ commands, command.Orderly)
    (reached : (Session.run commands (.initial machine files)).2 = s)
    (found : s.handles.find? name = some (.cursor c)) : s.Pads c := by
  have ready : s.Ready := reached ▸ ((Ready.empty machine files).run orderly).2
  have ordered : c.Ordered := (ready.inBounds found).2
  have served : c.region.Served s.store := ready.served found rfl
  have apart : s.store.Apart := ready.sound.apart
  constructor
  case align =>
    intro how width aligns some
    exact ⟨_, RecordItem.isLeast_gap some c.position,
      CursorUse.align_run ordered served some aligns⟩
  case pad =>
    intro how width byte pads some
    refine ⟨_, RecordItem.isLeast_gap some c.position, ?_⟩
    split
    · rename_i free
      exact CursorUse.pad_run_of_free ordered served apart some pads free.1 free.2
    · rename_i refused
      exact CursorUse.pad_run_of_refused ordered served some pads refused
  case zero =>
    intro how multiples
    exact CursorUse.run_zero multiples
  case again =>
    intro first second width skip store c' multiples multiples' passed
    obtain ⟨some, rfl, fits, rfl⟩ := CursorUse.width_run ordered served apart multiples passed
    exact CursorUse.run_aligned (ordered.moved fits (s := store)).2 (ordered.word served fits) some
      (RecordItem.dvd_add_gap some c.position) multiples'
  case agree =>
    intro first second width m n store store' c₁ c₂ multiples multiples' passed passed'
    obtain ⟨-, rfl, -, rfl⟩ := CursorUse.width_run ordered served apart multiples passed
    obtain ⟨-, rfl, -, rfl⟩ := CursorUse.width_run ordered served apart multiples' passed'
    exact ⟨rfl, rfl⟩
  case nested =>
    intro first second a b c' aligns aligns' multiple some
    exact CursorUse.align_twice ordered served aligns aligns' multiple some

/-- A cursor on a view, with a limit before the end of the view. -/
theorem run_pads_within :
    let commands : List Command := [.make "array" (.newArray 32),
      .derive "array" "view" (.slice 3 20), .derive "view" "cursor" (.cursorWithin 5 14 .bigEndian)]
    let s := (Session.run commands (.initial Host.machine .bare)).2
    let cursor : Cursor := {
      region := { root := 0, base := 3, length := 20, permit := .both, kind := .slice }
      mark := { position := 5, limit := 14, order := .bigEndian } }
    (∀ command ∈ commands, command.Orderly) ∧ s.handles.find? "cursor" = some (.cursor cursor) ∧
      s.Pads cursor := by
  intro commands s cursor
  have orderly : ∀ command ∈ commands, command.Orderly := by
    simp [commands, Command.Orderly, Making.Fits, Word.modulus]
  have found : s.handles.find? "cursor" = some (.cursor cursor) := by decide +kernel
  exact ⟨orderly, found, run_pads Host.machine .bare orderly rfl found⟩

end Session

end BoundedMemory
