import BoundedMemory.Proofs.Founding
import BoundedMemory.Proofs.Ordering
import BoundedMemory.Proofs.Streaming

/-!
Handles in bounds: their regions keep to their roots, and cursors and windows are in order
on their regions. Whatever is derived from such a handle is one again.
-/

namespace BoundedMemory

open Operation (Settles)

/-- A handle that keeps to what it leads to. -/
def Handle.InBounds (h : Handle) (s : Store) : Prop :=
  match h with
  | .region r => r.Fits s
  | .cursor c => c.region.Fits s ∧ c.Ordered
  | .reader w | .writer w => w.region.Fits s ∧ w.Ordered
  | .buffer _ => True

variable {s s' : Store} {r : Region}

theorem Handle.InBounds.later {h : Handle} {orderly sweeping : Prop} (inBounds : h.InBounds s)
    (changes : Store.Changes orderly sweeping s s') : h.InBounds s' := by
  cases h with
  | region r => exact Region.Fits.later inBounds changes
  | cursor c => exact ⟨inBounds.1.later changes, inBounds.2⟩
  | reader w => exact ⟨inBounds.1.later changes, inBounds.2⟩
  | writer w => exact ⟨inBounds.1.later changes, inBounds.2⟩
  | buffer id => trivial

theorem Handle.InBounds.fits {h : Handle} (inBounds : h.InBounds s) (leads : h.seat = .region r) :
    r.Fits s := by
  cases h with
  | buffer id => cases leads
  | region _ =>
      cases leads
      exact inBounds
  | _ =>
      cases leads
      exact inBounds.1

/-- A window has its ends among the words if its region has. -/
theorem Window.within_settles (fits : r.Fits s) (words : r.base + r.length < Word.modulus)
    (start length : Nat) :
    Settles (fun w t => w.region.Fits t ∧ w.Ordered) (fun _ => True) (within r start length) s := by
  refine .check trivial fun _ inside => ?_
  have inside := Extent.check_eq_ok_iff.mp inside
  have stop : Word.add? start length = some (start + length) :=
    Word.add?_eq_some_iff.mpr ⟨rfl, by omega⟩
  exact .defined stop (.pure ⟨fits, Nat.le_refl _, Nat.le_add_right _ _, inside⟩)

namespace Cursor

variable {c : Cursor}

theorem slice_settles (fits : c.region.Fits s)
    (words : c.region.base + c.region.length < Word.modulus) (offset length : Nat) :
    Settles (fun c' t => c'.region.Fits t ∧ c'.Ordered) (fun _ => True) (c.slice offset length) s :=
  (Narrowing.settles fits words (.slice offset length)).bind fun view _ found =>
    .pure ⟨found.1, ofRegion_ordered view c.order⟩

theorem sliceFrom_settles (fits : c.region.Fits s)
    (words : c.region.base + c.region.length < Word.modulus) (offset : Nat) :
    Settles (fun c' t => c'.region.Fits t ∧ c'.Ordered) (fun _ => True) (c.sliceFrom offset) s := by
  refine .check trivial fun _ inside => ?_
  have inside := Extent.check_eq_ok_iff.mp inside
  have left : Word.sub? c.length offset = some (c.length - offset) :=
    Word.sub?_eq_some_iff.mpr (by omega)
  exact .defined left (slice_settles fits words offset (c.length - offset))

theorem sliceBetween_settles (fits : c.region.Fits s)
    (words : c.region.base + c.region.length < Word.modulus) (first last : Nat) :
    Settles (fun c' t => c'.region.Fits t ∧ c'.Ordered) (fun _ => True)
      (c.sliceBetween first last) s :=
  .check trivial fun length _ => slice_settles fits words first length

end Cursor

namespace Session

variable {how : Deriving} {make : Action Store Handle}

private theorem ofRegion_settles (fits : r.Fits s) (words : r.base + r.length < Word.modulus)
    (derives : ofRegion? how r s = some make) :
    Settles (fun h t => h.InBounds t) (fun _ => True) make s := by
  have narrow (n : Narrowing) :
      Settles (fun h t => h.InBounds t) (fun _ => True) (do return Handle.region (← n.apply r)) s :=
    (Narrowing.settles fits words n).bind fun _ _ found => .pure found.1
  have window (start length : Nat) {f : Window → Handle}
      (inBounds : ∀ w t, w.region.Fits t ∧ w.Ordered → (f w).InBounds t) :
      Settles (fun h t => h.InBounds t) (fun _ => True)
        (do return f (← Window.within r start length)) s :=
    (Window.within_settles fits words start length).bind fun w t found => .pure (inBounds w t found)
  cases how with
  | copy =>
      cases derives
      exact .pure fits
  | parent =>
      obtain ⟨root, parent, rfl⟩ := Option.map_eq_some_iff.mp derives
      unfold Region.parent? at parent
      split at parent
      · obtain ⟨found, there, rfl⟩ := Option.map_eq_some_iff.mp parent
        exact .pure ⟨found, there, Nat.le_of_eq (Nat.zero_add _)⟩
      · cases parent
  | slice offset length =>
      cases derives
      exact narrow (.slice offset length)
  | sliceFrom offset =>
      cases derives
      exact narrow (.sliceFrom offset)
  | sliceBetween first last =>
      cases derives
      exact narrow (.sliceBetween first last)
  | restrict mask =>
      cases derives
      exact narrow (.restrict mask)
  | readOnly =>
      cases derives
      exact narrow .readOnly
  | cursor order =>
      cases derives
      exact .pure ⟨fits, Cursor.ofRegion_ordered r order⟩
  | cursorWithin position limit order =>
      cases derives
      refine .check trivial fun c made => ?_
      obtain ⟨rfl, ordered⟩ := Cursor.within_ordered made
      exact .pure ⟨fits, ordered⟩
  | cursorOpen options =>
      cases derives
      refine .check trivial fun c made => ?_
      obtain ⟨rfl, ordered⟩ := Cursor.within_ordered made
      exact .pure ⟨fits, ordered⟩
  | reader range =>
      cases range with
      | none =>
          cases derives
          exact .pure ⟨fits, Window.ofRegion_ordered r⟩
      | some range =>
          cases derives
          exact window range.1 range.2 fun _ _ inBounds => inBounds
  | writer range =>
      cases range with
      | none =>
          cases derives
          exact .pure ⟨fits, Window.ofRegion_ordered r⟩
      | some range =>
          cases derives
          exact window range.1 range.2 fun _ _ inBounds => inBounds
  | _ => cases derives

private theorem ofCursor_settles {c : Cursor} (fits : c.region.Fits s) (ordered : c.Ordered)
    (words : c.region.base + c.region.length < Word.modulus)
    (derives : ofCursor? how c = some make) :
    Settles (fun h t => h.InBounds t) (fun _ => True) make s := by
  cases how with
  | copy =>
      cases derives
      exact .pure ⟨fits, ordered⟩
  | region =>
      cases derives
      exact .pure fits
  | intoRegion =>
      cases derives
      exact .pure fits
  | cursorSlice offset length =>
      cases derives
      exact (Cursor.slice_settles fits words offset length).bind fun _ _ found => .pure found
  | cursorSliceFrom offset =>
      cases derives
      exact (Cursor.sliceFrom_settles fits words offset).bind fun _ _ found => .pure found
  | cursorSliceHere =>
      cases derives
      exact (Cursor.sliceFrom_settles fits words c.position).bind fun _ _ found => .pure found
  | cursorSliceBetween first last =>
      cases derives
      exact (Cursor.sliceBetween_settles fits words first last).bind fun _ _ found => .pure found
  | _ => cases derives

/-- A derivation from a handle in bounds has an outcome, and gives another such handle. -/
theorem derivation_settles {h : Handle} (inBounds : h.InBounds s)
    (words : ∀ r, h.seat = .region r → r.base + r.length < Word.modulus)
    (derives : derivation? how h s = some make) :
    Settles (fun h t => h.InBounds t) (fun _ => True) make s := by
  cases h with
  | region r => exact ofRegion_settles inBounds (words r rfl) derives
  | cursor c => exact ofCursor_settles inBounds.1 inBounds.2 (words c.region rfl) derives
  | buffer id => cases derives
  | reader w =>
      cases how with
      | copy =>
          cases derives
          exact .pure inBounds
      | region =>
          cases derives
          exact .pure inBounds.1
      | _ => cases derives
  | writer w =>
      cases how with
      | copy =>
          cases derives
          exact .pure inBounds
      | region =>
          cases derives
          exact .pure inBounds.1
      | _ => cases derives

end Session

end BoundedMemory
