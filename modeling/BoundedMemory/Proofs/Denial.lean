import BoundedMemory.Proofs.Altering
import BoundedMemory.Proofs.Uses

/-!
Access that is denied, whatever its arguments are. A region denies a direction once
its root is released, where its mask lacks it, and for writing where it is read-only.
What goes through a handle whose region denies writing leaves the whole store as it
was, unless it ends the root itself.
-/

namespace BoundedMemory

/-- Every access in this direction is refused. -/
def Region.Denies (r : Region) (s : Store) (access : Access) : Prop :=
  ∀ (operation : String) (offset n : Nat), r.refusal? s access operation offset n ≠ none

/-- Uses that may end the life of what a root stands on. -/
def Use.Ends : Use → Prop
  | .region .release | .segment _ => True
  | _ => False

variable {r : Region} {s s' : Store}

/-- Of a store, objections depend on nothing but whether the root is still in use. -/
theorem Region.refusal?_congr (same : s.isValid r.root = s'.isValid r.root) :
    r.refusal? s = r.refusal? s' := by
  funext access operation offset n
  unfold refusal? isValid
  rw [same]

theorem Transfer.refusal?_congr {x : Transfer} (same : s.isValid r.root = s'.isValid r.root) :
    x.refusal? r s = x.refusal? r s' := by
  funext offset
  unfold refusal?
  rw [Region.refusal?_congr same]

theorem Region.Denies.congr {access : Access} (h : r.Denies s access)
    (same : s.isValid r.root = s'.isValid r.root) : r.Denies s' access := by
  unfold Denies
  rw [← refusal?_congr same]
  exact h

theorem Region.Denies.of_released (released : r.isValid s = false) (access : Access) :
    r.Denies s access := by
  intro operation offset n free
  have valid := (refusal?_eq_none_iff.mp free).1
  rw [released] at valid
  cases valid

theorem Region.Denies.of_mask {access : Access} (lacking : r.permit.allows access = false) :
    r.Denies s access := by
  intro operation offset n free
  have allowed := (refusal?_eq_none_iff.mp free).2.2.1
  rw [lacking] at allowed
  cases allowed

theorem Region.Denies.of_unwritable (unwritable : r.isWritable = false) : r.Denies s .write := by
  intro operation offset n free
  obtain ⟨-, changeable, allowed, -⟩ := refusal?_eq_none_iff.mp free
  simp [isWritable, changeable rfl, allowed] at unwritable

theorem Region.Denies.of_unreadable (unreadable : r.isReadable = false) : r.Denies s .read :=
  .of_mask unreadable

/-- No view of a region allows more than the region itself. -/
theorem Narrowing.isReadable_narrowed (n : Narrowing) (unreadable : r.isReadable = false) :
    (n.narrowed r).isReadable = false := by
  show (r.permit.meet n.mask).allows .read = false
  rw [Permit.allows_meet, show r.permit.allows .read = false from unreadable, Bool.false_and]

theorem Narrowing.isWritable_narrowed (n : Narrowing) (unwritable : r.isWritable = false) :
    (n.narrowed r).isWritable = false := by
  unfold Region.isWritable at unwritable ⊢
  rw [n.isReadOnly_narrowed r]
  show (!(r.isReadOnly || n.isReadOnly) && (r.permit.meet n.mask).allows .write) = false
  rw [Permit.allows_meet]
  cases readOnly : r.isReadOnly with
  | true => simp
  | false =>
      have lacking : r.permit.allows .write = false := by simpa [readOnly] using unwritable
      simp [lacking]

theorem Transfer.run_ne_ok_of_denies {x : Transfer} {offset : Nat} {answer : Reply}
    (denies : r.Denies s x.direction) : x.run r offset s ≠ .ok answer s' := by
  intro run
  have free := (refusal?_eq_none_iff.mp (run_eq_ok_iff.mp run).1).2.1
  exact denies _ _ _ free

theorem Touch.Alters.unchanged {τ : Touch} {reply : Reply} (alters : τ.Alters reply s s')
    (denies : τ.region.Denies s .write) : s' = s := by
  cases alters with
  | idle _ => rfl
  | change _ writes _ run =>
      rw [← writes] at denies
      exact absurd run (Transfer.run_ne_ok_of_denies denies)

namespace Handle

variable {h : Handle} {how : Use} {τ : Touch}

/-- What is touched through a handle is the region it leads to. -/
theorem seat_of_touch? (touches : h.touch? how = some τ) : h.seat = .region τ.region := by
  have padding {c : Cursor} {width : Nat} {byte : UInt8}
      (pads : c.padTouch? width byte = some τ) : τ.region = c.region := by
    unfold Cursor.padTouch? at pads
    cases skip : c.padding width with
    | error fault => simp [skip] at pads
    | ok n =>
        simp only [skip, Option.some.injEq] at pads
        rw [← pads]
  have under {c : Cursor} {how : CursorUse} (under : c.touch? how = some τ) :
      τ.region = c.region := by
    cases how with
    | pad width byte => exact padding under
    | padToWord byte => exact padding under
    | _ => cases under <;> rfl
  cases h with
  | region r =>
      cases how with
      | region how =>
          obtain ⟨place, -, rfl⟩ := Option.map_eq_some_iff.mp touches
          rfl
      | _ => cases touches
  | cursor c =>
      cases how with
      | cursor how => exact congrArg Seat.region (under touches).symm
      | _ => cases touches
  | reader w =>
      cases how with
      | reader how => cases how <;> cases touches <;> rfl
      | _ => cases touches
  | writer w =>
      cases how with
      | writer how => cases how <;> cases touches <;> rfl
      | _ => cases touches
  | buffer id => cases how <;> cases touches

end Handle

namespace Session

variable {s : Session} {target : String} {h : Handle} {how : Use}

/-- A use through a handle makes of the store at most what its touch says, unless it is
one that may end the root. -/
theorem use_alters (found : s.handles.find? target = some h)
    (spares : ∀ r, h = .region r → how.Ends → r.isView = true) :
    match h.touch? how with
    | some τ => τ.Alters (s.use target how).1 s.store (s.use target how).2.store
    | none => (s.use target how).2.store = s.store := by
  have used := s.use_used target how
  generalize s.use target how = result at used ⊢
  have same {h' : Handle} (there : s.handles.find? target = some h') : h = h' :=
    Option.some.inj (found.symm.trans there)
  cases used with
  | unfit misfit => simp only [Handle.touch?_of_misfit (misfit h found)]
  | drop => cases h <;> rfl
  | inspect => cases h <;> rfl
  | @region r how there =>
      cases same there
      have view (release : how = .release) : r.isView = true := by
        subst release
        exact spares r rfl trivial
      exact (how.altered r s.keyName view).alters
  | @segment r a how there attached =>
      have none : r.attachment? s.store = none := if_pos (spares r (same there) trivial)
      rw [none] at attached
      cases attached
  | cursor how there =>
      cases same there
      exact how.altered.alters
  | reader how there =>
      cases same there
      exact how.altered.alters
  | writer how there =>
      cases same there
      exact how.altered.alters

theorem use_unchanged {r : Region} (found : s.handles.find? target = some h)
    (leads : h.seat = .region r) (spares : how.Ends → r.isView = true)
    (denies : r.Denies s.store .write) : (s.use target how).2.store = s.store := by
  have alters := @use_alters s target h how found (by
    rintro r' rfl ends
    cases leads
    exact spares ends)
  cases touches : h.touch? how with
  | none => simpa only [touches] using alters
  | some τ =>
      rw [touches] at alters
      have same := Handle.seat_of_touch? touches
      rw [leads, Seat.region.injEq] at same
      subst same
      exact alters.unchanged denies

end Session

/-- Nothing is copied to where nothing may be written: the first chunk is refused. -/
theorem Stream.copy_unchanged {c : Copying} (denies : c.target.region.Denies c.store .write) :
    (Operation.after copy c).store = c.store := by
  have run : copy c = copyRounds (fun _ => chunkSize) (c.source.available + 1) 0 0 c := rfl
  have reads := Reader.read_moves chunkSize c.store c.source
  unfold Operation.after at reads ⊢
  rw [run]
  simp only [copyRounds, Operation.bind_run, onSource_run, Operation.mapFault_run]
  cases read : Reader.read chunkSize (c.store, c.source) with
  | error e after =>
      simp only [read] at reads
      cases e <;> exact reads.1
  | ok bytes after =>
      obtain ⟨store, source⟩ := after
      simp only [read] at reads
      obtain ⟨rfl, -⟩ := reads
      cases bytes with
      | nil => rfl
      | cons b bytes =>
          simp only [List.isEmpty_cons, Bool.false_eq_true, if_false, Operation.bind_run,
            onTarget_run, Writer.writeAll, Bool.not_false, if_true, Operation.mapFault_run]
          cases written : Writer.write (b :: bytes) (c.store, c.target) with
          | error e after =>
              have kept := Writer.write_allOrNothing _ _ e after written
              subst kept
              cases e <;> rfl
          | ok _ after =>
              have moved := (Writer.write_eq_ok written).2
              exact absurd moved (Transfer.run_ne_ok_of_denies denies)

end BoundedMemory
