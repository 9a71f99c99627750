import BoundedMemory.Proofs.CursorBounds
import BoundedMemory.Proofs.FlatRanges
import BoundedMemory.Proofs.Flattening
import BoundedMemory.Proofs.Records

/-!
Access under a cursor. At an offset it is the same access to the region, wherever this keeps
to the limit, and so it is access to a view of the region that ends there. Where the cursor
stands it is access at that offset, after which the cursor stands behind the bytes that were
moved. Nothing behind the limit is changed by any use of a cursor.
-/

namespace BoundedMemory

/-- A scalar or a list of scalars to be read or written, but for its place and order. -/
inductive CursorAccess where
  | read (t : ScalarType)
  | write (t : ScalarType) (v : Scalar t)
  | readSlice (t : ScalarType) (count : Nat)
  | writeSlice (t : ScalarType) (vs : List (Scalar t))

namespace CursorAccess

/-- The access at an offset under a cursor, in the order of the cursor unless one is given. -/
def absolute (offset : Nat) (order : Option ByteOrder) : CursorAccess → CursorUse
  | .read t => .readAt t offset order
  | .write t v => .writeAt t offset v order
  | .readSlice t count => .readSliceAt t offset count order
  | .writeSlice t vs => .writeSliceAt t offset vs order

/-- The access where the cursor stands. -/
def relative (order : Option ByteOrder) : CursorAccess → CursorUse
  | .read t => .read t order
  | .write t v => .write t v order
  | .readSlice t count => .readSlice t count order
  | .writeSlice t vs => .writeSlice t vs order

/-- The same access to a region, without a cursor. -/
def direct (offset : Nat) (order : ByteOrder) : CursorAccess → RegionUse
  | .read t => .read t offset order
  | .write t v => .write t offset v order
  | .readSlice t count => .readSlice t offset count order
  | .writeSlice t vs => .writeSlice t offset vs order

/-- The number of bytes that are moved. -/
def size : CursorAccess → Nat
  | .read t | .write t _ => t.width
  | .readSlice t count => count * t.width
  | .writeSlice t vs => vs.length * t.width

def transfer (order : ByteOrder) : CursorAccess → Transfer
  | .read t => .read t order
  | .write t v => .write t v order
  | .readSlice t count => .readSlice t count order
  | .writeSlice t vs => .writeSlice t vs order

variable (a : CursorAccess) (c : Cursor) (r : Region) (offset : Nat)

theorem size_transfer (order : ByteOrder) : (a.transfer order).size = a.size := by
  cases a <;> rfl

theorem transfer?_absolute (order : Option ByteOrder) :
    c.transfer? (a.absolute offset order) =
      some (a.transfer (order.getD c.order), some offset) := by
  cases a <;> rfl

theorem transfer?_relative (order : Option ByteOrder) :
    c.transfer? (a.relative order) = some (a.transfer (order.getD c.order), none) := by
  cases a <;> rfl

theorem transfer?_direct (order : ByteOrder) :
    r.transfer? (a.direct offset order) = some (a.transfer order, offset) := by
  cases a <;> rfl

theorem failure_direct (order : ByteOrder) (cause : Fault) :
    (a.direct offset order).failure cause = .fault cause := by
  cases a <;> rfl

end CursorAccess

/-- What is not reported as a failure is what came out. -/
theorem Operation.settle_eq_iff {σ : Type} {x : Operation Fault σ Reply} {fault : Fault → Reply}
    {s s' : σ} {reply : Reply} (passed : reply.isFailure = false)
    (faults : ∀ cause, (fault cause).isFailure = true) :
    x.settle fault id s = (reply, s') ↔ x s = .ok reply s' := by
  unfold settle
  cases run : x s with
  | ok reply' after => simp
  | error e after =>
      cases e with
      | fault cause =>
          constructor
          · intro same
            cases same
            rw [faults] at passed
            cases passed
          · intro same
            cases same
      | trap =>
          constructor
          · intro same
            cases same
            cases passed
          · intro same
            cases same

namespace CursorAccess

variable {a : CursorAccess} {c : Cursor} {s s' : Store} {r view : Region} {offset : Nat}
  {reply : Reply} {keyName : SegmentKey → String}

theorem direct_run_iff {order : ByteOrder} (passed : reply.isFailure = false) :
    (a.direct offset order).run r keyName s = (reply, s') ↔
      (a.transfer order).run r offset s = .ok reply s' := by
  rw [Region.run_use (a.transfer?_direct r offset order)]
  exact Operation.settle_eq_iff passed fun cause => by rw [failure_direct]; rfl

/-- A cursor is left alone by what is done at an offset, and memory by what fails. -/
theorem absolute_run (a : CursorAccess) (c : Cursor) (s : Store) (offset : Nat)
    (order : Option ByteOrder) :
    (a.absolute offset order).run (s, c) =
      (((c.transferAt (a.transfer (order.getD c.order)) offset).settle .fault id s).1,
        ((c.transferAt (a.transfer (order.getD c.order)) offset).settle .fault id s).2, c) := by
  rw [Cursor.run_use (a.transfer?_absolute c offset order)]
  unfold Operation.settle
  simp only [Operation.onFirst_run]
  cases c.transferAt (a.transfer (order.getD c.order)) offset s with
  | ok reply after => rfl
  | error e after => cases e <;> rfl

/-- Access under a cursor is access to its region that keeps to its limit. -/
theorem absolute_run_iff {order : Option ByteOrder} (passed : reply.isFailure = false) :
    (a.absolute offset order).run (s, c) = (reply, s', c) ↔
      offset + a.size ≤ c.limit ∧
        (a.direct offset (order.getD c.order)).run c.region keyName s = (reply, s') := by
  have settled : (a.absolute offset order).run (s, c) = (reply, s', c) ↔
      (c.transferAt (a.transfer (order.getD c.order)) offset).settle .fault id s = (reply, s') := by
    rw [absolute_run]
    simp only [Prod.ext_iff, and_true]
  rw [settled, Operation.settle_eq_iff passed fun _ => rfl, direct_run_iff passed,
    Cursor.transferAt_eq_ok_iff, size_transfer]

/-- A view of what is before the limit admits the same. -/
theorem view_run_iff {limit : Nat} {order : ByteOrder} (passed : reply.isFailure = false)
    (low : limit ≤ r.length) :
    (a.direct offset order).run ((Narrowing.slice 0 limit).narrowed r) keyName s = (reply, s') ↔
      offset + a.size ≤ limit ∧ (a.direct offset order).run r keyName s = (reply, s') := by
  have inside : (Narrowing.slice 0 limit).offset + (Narrowing.slice 0 limit).length r.length ≤
      r.length := by
    simpa [Narrowing.offset, Narrowing.length, Narrowing.sliceLength?] using low
  rw [direct_run_iff passed, direct_run_iff passed, Narrowing.run_narrowed_eq_ok_iff inside,
    size_transfer]
  have plain (access : Access) : (Narrowing.slice 0 limit).mask.allows access = true := by
    cases access <;> rfl
  simp only [plain, Narrowing.isReadOnly, implies_true, true_and, Narrowing.offset, Nat.add_zero,
    Narrowing.length, Narrowing.sliceLength?, Option.getD_some]

/-- Access where a cursor stands is access at that offset, which moves the cursor on if it
goes through. -/
theorem relative_run (ordered : c.Ordered) (served : c.region.Served s) (a : CursorAccess)
    (order : Option ByteOrder) :
    (a.relative order).run (s, c) =
      let (reply, after, _) := (a.absolute c.position order).run (s, c)
      if reply.isFailure then (reply, s, c) else (reply, after, c.moved a.size) := by
  rw [Cursor.run_use (a.transfer?_relative c order), absolute_run]
  unfold Operation.settle
  simp only [Cursor.transfer_run, size_transfer]
  cases run : c.transferAt (a.transfer (order.getD c.order)) c.position s with
  | error e after =>
      have same := Cursor.transferAt_error run
      subst same
      cases e <;> rfl
  | ok reply after =>
      obtain ⟨fits, passed⟩ := Cursor.transferAt_eq_ok_iff.mp run
      rw [size_transfer] at fits
      have word := ordered.word served fits
      have plain := Transfer.reply_isFailure passed
      simp only [word, if_true, id, plain, Bool.false_eq_true, if_false]

end CursorAccess

section Written

variable {c : Cursor} {s : Store}

/-- Memory that is as it was but for one range before a limit. -/
def WritesBelow (r : Region) (limit : Nat) (M M' : FlatMemory) : Prop :=
  M' = M ∨ ∃ offset bytes, offset + bytes.length ≤ limit ∧ M.write? r offset bytes = some M'

/-- What is clear of all that lies before the limit is not written. -/
theorem WritesBelow.read? {r r' : Region} {limit offset n : Nat} {M M' : FlatMemory}
    (writes : WritesBelow r limit M M') (clear : M.Clear r' offset n r 0 limit) :
    M'.read? r' offset n = M.read? r' offset n := by
  obtain rfl | ⟨start, bytes, fits, written⟩ := writes
  · rfl
  · have whole : 0 + n ≤ n := Nat.le_of_eq (Nat.zero_add n)
    have apart := clear.inner whole fits
    rw [Nat.add_zero, Nat.zero_add] at apart
    exact apart.read? written

theorem FlatMemory.clear_of_le {M : FlatMemory} {r : Region} {limit offset : Nat} (n : Nat)
    (behind : limit ≤ offset) : M.Clear r offset n r 0 limit :=
  clear_of_apart (.inr (by omega))

theorem Transfer.writes_below {x : Transfer} {r : Region} {offset limit : Nat} {reply : Reply}
    {after : Store} (apart : s.Apart) (run : x.run r offset s = .ok reply after)
    (fits : offset + x.size ≤ limit) : WritesBelow r limit s.flat after.flat := by
  cases direction : x.direction with
  | read =>
      rw [unchanged run (.inl direction)]
      exact .inl rfl
  | write =>
      have list := (refusal?_eq_none_iff.mp (run_eq_ok_iff.mp run).1).2.2
      refine .inr ⟨offset, x.payload, ?_, write?_of_run direction apart run⟩
      rw [length_payload direction list]
      exact fits

namespace Cursor

theorem transferAt_writes (x : Transfer) (offset : Nat) (apart : s.Apart) :
    WritesBelow c.region c.limit s.flat (Operation.after (c.transferAt x offset) s).flat := by
  unfold Operation.after
  cases run : c.transferAt x offset s with
  | error e after =>
      rw [transferAt_error run]
      exact .inl rfl
  | ok reply after =>
      obtain ⟨fits, passed⟩ := transferAt_eq_ok_iff.mp run
      exact Transfer.writes_below apart passed fits

theorem transfer_writes (x : Transfer) (apart : s.Apart) :
    WritesBelow c.region c.limit s.flat (Operation.after (transfer x) (s, c)).1.flat := by
  have writes := transferAt_writes (c := c) x c.position apart
  unfold Operation.after at writes ⊢
  rw [transfer_run]
  cases run : c.transferAt x c.position s with
  | error e after =>
      rw [run] at writes
      exact writes
  | ok reply after =>
      rw [run] at writes
      rcases Nat.lt_or_ge (c.position + x.size) Word.modulus with fits | beyond
      · simpa only [fits, if_true] using writes
      · simpa only [Nat.not_lt.mpr beyond, if_false] using writes

/-- Padding clears what is before the limit. -/
theorem padTo_writes (ordered : c.Ordered) (width : Nat) (byte : UInt8) (apart : s.Apart) :
    WritesBelow c.region c.limit s.flat (Operation.after (padTo width byte) (s, c)).1.flat := by
  unfold Operation.after
  rw [padTo_run]
  cases padding : c.padding width with
  | error fault => exact .inl rfl
  | ok skip =>
      have fits := padding_fits ordered padding
      rcases Nat.eq_zero_or_pos skip with rfl | some
      · exact .inl rfl
      · simp only [Nat.ne_of_gt some, if_false]
        cases run : (Transfer.clear byte skip).run c.region c.position s with
        | ok reply after => exact Transfer.writes_below apart run fits
        | error e after =>
            rw [Transfer.run_error run]
            exact .inl rfl

end Cursor

/-- No use of a cursor writes behind the limit. -/
theorem CursorUse.writes_below (how : CursorUse) (ordered : c.Ordered) (apart : s.Apart) :
    WritesBelow c.region c.limit s.flat (how.run (s, c)).2.1.flat := by
  cases transfer : c.transfer? how with
  | some found =>
      obtain ⟨x, place⟩ := found
      rw [Cursor.run_use transfer, Operation.settle_snd]
      cases place with
      | none => exact Cursor.transfer_writes x apart
      | some offset =>
          have first : (Operation.after (Operation.onFirst (c.transferAt x offset)) (s, c)).1 =
              Operation.after (c.transferAt x offset) s := by
            unfold Operation.after
            rw [Operation.onFirst_run]
            cases c.transferAt x offset s <;> rfl
          show WritesBelow _ _ _ (Operation.after (Operation.onFirst _) (s, c)).1.flat
          rw [first]
          exact Cursor.transferAt_writes x offset apart
  | none =>
      have touches := (how.handled (c := c) apart).touches
      cases how with
      | pad width byte =>
          unfold CursorUse.run
          rw [Operation.settle_snd]
          exact Cursor.padTo_writes ordered width byte apart
      | padToWord byte =>
          unfold CursorUse.run
          rw [Operation.settle_snd]
          exact Cursor.padTo_writes ordered Host.wordSize byte apart
      | _ =>
          simp only [Cursor.touch?, transfer, Option.map_none, Touches] at touches
          exact .inl touches

end Written

namespace Session

/-- Access through a cursor as access to its region that the limit confines. -/
structure UnderLimit (s : Session) (name : String) (c : Cursor) : Prop where
  /-- Access at an offset goes through if it keeps to the limit and the same access to the
  region goes through, and then tells and does the same. -/
  absolute (a : CursorAccess) (offset : Nat) (order : Option ByteOrder) {reply : Reply}
      {store : Store} : reply.isFailure = false →
    ((a.absolute offset order).run (s.store, c) = (reply, store, c) ↔
      offset + a.size ≤ c.limit ∧
        (a.direct offset (order.getD c.order)).run c.region s.keyName s.store = (reply, store))
  /-- Whether it goes through or not, the cursor is left alone. -/
  stays (a : CursorAccess) (offset : Nat) (order : Option ByteOrder) :
    ((a.absolute offset order).run (s.store, c)).2.2 = c
  /-- While the region is valid, it is the same access to a view of what is before the limit. -/
  viewed : c.region.isValid s.store = true →
    ∃ view, c.region.slice 0 c.limit s.store = .ok view s.store ∧
      ∀ (a : CursorAccess) (offset : Nat) (order : Option ByteOrder) (reply : Reply)
        (store : Store), reply.isFailure = false →
          ((a.absolute offset order).run (s.store, c) = (reply, store, c) ↔
            (a.direct offset (order.getD c.order)).run view s.keyName s.store = (reply, store))
  /-- Access where the cursor stands is access at that offset. If it goes through, the cursor
  moves on by the bytes that were moved and keeps all else; if not, nothing is changed. -/
  relative (a : CursorAccess) (order : Option ByteOrder) :
    (a.relative order).run (s.store, c) =
      let (reply, store, _) := (a.absolute c.position order).run (s.store, c)
      if reply.isFailure then (reply, s.store, c)
      else (reply, store, { c with mark := { c.mark with position := c.position + a.size } })
  /-- No use of the cursor changes a byte behind the limit, -/
  behind (how : CursorUse) {offset n : Nat} : c.limit ≤ offset →
    (how.run (s.store, c)).2.1.flat.read? c.region offset n = s.store.flat.read? c.region offset n
  /-- or one that is in no way part of what is before it. -/
  elsewhere (how : CursorUse) {r : Region} {offset n : Nat} :
    s.store.flat.Clear r offset n c.region 0 c.limit →
      (how.run (s.store, c)).2.1.flat.read? r offset n = s.store.flat.read? r offset n
  /-- What is derived from the cursor is derived without a change of memory. -/
  derived (new : String) (how : Deriving) : (s.derive name new how).2.store = s.store

variable {s : Session} {name : String} {c : Cursor}

theorem Ready.view_before_limit (ready : s.Ready) (found : s.handles.find? name = some (.cursor c))
    (valid : c.region.isValid s.store = true) :
    c.region.slice 0 c.limit s.store =
      .ok ((Narrowing.slice 0 c.limit).narrowed c.region) s.store := by
  have low : c.limit ≤ c.region.length := (ready.inBounds found).2.mark.2
  have words := (ready.served found rfl).words
  have applied : (Narrowing.slice 0 c.limit).apply c.region s.store =
      .ok ((Narrowing.slice 0 c.limit).narrowed c.region) s.store := by
    rw [Narrowing.apply_eq_ok_iff, Narrowing.refusal?_eq_none_iff]
    refine ⟨⟨rfl, valid, ?_⟩, ?_, rfl, rfl⟩
    · simpa [Narrowing.offset, Narrowing.length, Narrowing.sliceLength?] using low
    · show c.region.base + 0 < Word.modulus
      omega
  exact applied

/-- Whatever a run has done, access through a cursor is confined to its limit. -/
theorem run_under_limit (machine : Machine) (files : FileTree) {commands : List Command}
    (orderly : ∀ command ∈ commands, command.Orderly)
    (reached : (Session.run commands (.initial machine files)).2 = s)
    (found : s.handles.find? name = some (.cursor c)) : s.UnderLimit name c := by
  have ready : s.Ready := reached ▸ ((Ready.empty machine files).run orderly).2
  have ordered : c.Ordered := (ready.inBounds found).2
  have served : c.region.Served s.store := ready.served found rfl
  constructor
  case absolute =>
    intro a offset order reply store passed
    exact CursorAccess.absolute_run_iff passed
  case stays =>
    intro a offset order
    rw [CursorAccess.absolute_run]
  case viewed =>
    intro valid
    have low : c.limit ≤ c.region.length := ordered.mark.2
    refine ⟨_, ready.view_before_limit found valid, fun a offset order reply store passed => ?_⟩
    exact (CursorAccess.absolute_run_iff passed).trans (CursorAccess.view_run_iff passed low).symm
  case relative =>
    intro a order
    exact CursorAccess.relative_run ordered served a order
  case behind =>
    intro how offset n behind
    exact (how.writes_below ordered ready.sound.apart).read? (FlatMemory.clear_of_le n behind)
  case elsewhere =>
    intro how r offset n clear
    exact (how.writes_below ordered ready.sound.apart).read? clear
  case derived =>
    intro new how
    exact derive_store name new how s

/-- A cursor in the midst of a view, with a limit before the end of the view. -/
theorem run_under_limit_within :
    let commands : List Command := [.make "array" (.newArray 32),
      .derive "array" "view" (.slice 3 20), .derive "view" "cursor" (.cursorWithin 5 11 .bigEndian)]
    let s := (Session.run commands (.initial Host.machine .bare)).2
    let cursor : Cursor := {
      region := { root := 0, base := 3, length := 20, permit := .both, kind := .slice }
      mark := { position := 5, limit := 11, order := .bigEndian } }
    (∀ command ∈ commands, command.Orderly) ∧ s.handles.find? "cursor" = some (.cursor cursor) ∧
      s.UnderLimit "cursor" cursor := by
  intro commands s cursor
  have orderly : ∀ command ∈ commands, command.Orderly := by
    simp [commands, Command.Orderly, Making.Fits, Word.modulus]
  have found : s.handles.find? "cursor" = some (.cursor cursor) := by decide +kernel
  exact ⟨orderly, found, run_under_limit Host.machine .bare orderly rfl found⟩

end Session

end BoundedMemory
