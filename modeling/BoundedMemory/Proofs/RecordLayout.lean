import BoundedMemory.Session.Use
import BoundedMemory.Proofs.FlatRanges

/-!
Records: items laid out one behind the other from where a cursor stands. An item has one
use of the cursor that writes it and one that reads it again, and both move on by as much.
The layout of a record is the string of bytes that its items come to, with what was there
before in the gaps that are left alone.
-/

namespace BoundedMemory

inductive RecordItem where
  | scalar (t : ScalarType) (v : Scalar t) (order : Option ByteOrder)
  | scalars (t : ScalarType) (vs : List (Scalar t)) (order : Option ByteOrder)
  /-- From here on another order is the one of the cursor. -/
  | turn (order : ByteOrder)
  /-- Bytes up to the next multiple of a width. -/
  | pad (width : Nat) (byte : UInt8)
  /-- The same gap, left as it is. -/
  | align (width : Nat)

namespace RecordItem

def writing : RecordItem → CursorUse
  | .scalar t v order => .write t v order
  | .scalars t vs order => .writeSlice t vs order
  | .turn order => .setOrder order
  | .pad width byte => .pad width byte
  | .align width => .align width

def reading : RecordItem → CursorUse
  | .scalar t _ order => .read t order
  | .scalars t vs order => .readSlice t vs.length order
  | .turn order => .setOrder order
  | .pad width _ => .align width
  | .align width => .align width

/-- The distance to the next multiple of a width. -/
def gap (width position : Nat) : Nat :=
  if position % width = 0 then 0 else width - position % width

def size (item : RecordItem) (position : Nat) : Nat :=
  match item with
  | .scalar t _ _ => t.width
  | .scalars t vs _ => vs.length * t.width
  | .turn _ => 0
  | .pad width _ | .align width => gap width position

/-- The order of the cursor once the item was passed. -/
def turned (item : RecordItem) (order : ByteOrder) : ByteOrder :=
  match item with
  | .turn order => order
  | _ => order

/-- What the item comes to at a position of a region that holds `old`. -/
def bytes (item : RecordItem) (position : Nat) (order : ByteOrder) (old : Bytes) : Bytes :=
  match item with
  | .scalar _ v own => v.encode (own.getD order)
  | .scalars _ vs own => Scalar.encodeAll (own.getD order) vs
  | .turn _ => []
  | .pad width byte => List.replicate (gap width position) byte
  | .align width => cut old position (gap width position)

/-- What is answered when the item is read at a position. -/
def answer (item : RecordItem) (position : Nat) : Reply :=
  match item with
  | .scalar t v _ => .scalar t v
  | .scalars t vs _ => .scalars t vs
  | .turn _ => .done
  | .pad width _ | .align width => .number (gap width position)

/-- The cursor once it passed the item. -/
def pass (item : RecordItem) (c : Cursor) : Cursor :=
  { c with mark := {
      c.mark with
      position := c.position + item.size c.position
      order := item.turned c.order } }

/-- What the item needs wherever it stands: gaps are measured in multiples of something. -/
def Sound : RecordItem → Prop
  | .pad width _ | .align width => 0 < width
  | _ => True

theorem gap_lt {width : Nat} (some : 0 < width) (position : Nat) : gap width position < width := by
  have rest := Nat.mod_lt position some
  unfold gap
  split <;> omega

/-- A gap ends at a multiple of its width. -/
theorem dvd_add_gap {width : Nat} (some : 0 < width) (position : Nat) :
    width ∣ position + gap width position := by
  have rest := Nat.mod_lt position some
  have whole := Nat.div_add_mod position width
  unfold gap
  split
  · rename_i aligned
    exact Nat.dvd_of_mod_eq_zero aligned
  · refine ⟨position / width + 1, ?_⟩
    rw [Nat.mul_add, Nat.mul_one]
    omega

/-- An item takes the same room wherever its bytes are taken from. -/
theorem length_bytes (item : RecordItem) {position : Nat} {old : Bytes} (order : ByteOrder)
    (fits : position + item.size position ≤ old.length) :
    (item.bytes position order old).length = item.size position := by
  cases item with
  | scalar t v own => exact Scalar.length_encode _ v
  | scalars t vs own => exact Scalar.length_encodeAll _ vs
  | turn order => rfl
  | pad width byte => exact List.length_replicate
  | align width => exact length_cut fits

/-- Of what was there before only what lies from the position on is of any matter. -/
theorem bytes_congr (item : RecordItem) {position : Nat} {old new : Bytes} (order : ByteOrder)
    (same : old.drop position = new.drop position) :
    item.bytes position order old = item.bytes position order new := by
  cases item with
  | align width =>
      show (old.drop position).take _ = (new.drop position).take _
      rw [same]
  | _ => rfl

end RecordItem

namespace Record

/-- The bytes of a record that starts at a position of a region that holds `old`. -/
def layout (items : List RecordItem) (position : Nat) (order : ByteOrder) (old : Bytes) : Bytes :=
  match items with
  | [] => []
  | item :: rest =>
      item.bytes position order old ++
        layout rest (position + item.size position) (item.turned order) old

/-- What is answered when a record is read from a position on. -/
def answers (items : List RecordItem) (position : Nat) : List Reply :=
  match items with
  | [] => []
  | item :: rest => item.answer position :: answers rest (position + item.size position)

/-- The cursor once it passed all of a record. -/
def pass (items : List RecordItem) (c : Cursor) : Cursor :=
  items.foldl (fun c item => item.pass c) c

theorem layout_congr {items : List RecordItem} {position : Nat} {order : ByteOrder}
    {old new : Bytes} (same : old.drop position = new.drop position) :
    layout items position order old = layout items position order new := by
  induction items generalizing position order with
  | nil => rfl
  | cons item rest ih =>
      have later : old.drop (position + item.size position) =
          new.drop (position + item.size position) := by
        rw [← List.drop_drop, same, List.drop_drop]
      rw [layout, layout, item.bytes_congr order same, ih later]

theorem position_le_pass (items : List RecordItem) (c : Cursor) :
    c.position ≤ (pass items c).position := by
  induction items generalizing c with
  | nil => exact Nat.le_refl _
  | cons item rest ih =>
      have step : c.position ≤ (item.pass c).position := Nat.le_add_right _ _
      exact Nat.le_trans step (ih (item.pass c))

/-- A record ends right behind its bytes. -/
theorem position_pass {items : List RecordItem} {c : Cursor} {old : Bytes}
    (fits : (pass items c).position ≤ old.length) :
    (pass items c).position = c.position + (layout items c.position c.order old).length := by
  induction items generalizing c with
  | nil => rfl
  | cons item rest ih =>
      have inside : c.position + item.size c.position ≤ old.length :=
        Nat.le_trans (position_le_pass rest (item.pass c)) fits
      have tail := ih fits
      rw [layout, List.length_append, item.length_bytes c.order inside, ← Nat.add_assoc]
      exact tail

/-- Two bytes, one that is left as it was up to 4, four that are set up to 8, and two more. -/
example :
    layout [.scalar .u16 0x0102 none, .align 4, .pad 8 0xEE, .turn .littleEndian,
      .scalar .u16 0x0304 none] 1 .bigEndian (Bytes.sequential 10) =
      [1, 2, 3, 0xEE, 0xEE, 0xEE, 0xEE, 4, 3] := by
  decide

/-- How far a record takes a cursor depends on where it starts alone. -/
theorem position_pass_congr {items : List RecordItem} {c c' : Cursor}
    (same : c.position = c'.position) : (pass items c).position = (pass items c').position := by
  induction items generalizing c c' with
  | nil => exact same
  | cons item rest ih =>
      apply ih
      show c.position + item.size c.position = c'.position + item.size c'.position
      rw [same]

theorem pass_region (items : List RecordItem) (c : Cursor) : (pass items c).region = c.region := by
  induction items generalizing c with
  | nil => rfl
  | cons item rest ih => exact ih (item.pass c)

end Record

end BoundedMemory
