import BoundedMemory.Proofs.Alikeness
import BoundedMemory.Proofs.AllOrNothing

/-!
Lists that are lent to handles. A session takes no lists from its user, so lending one
is a step of its own: the list goes to the handle behind a name and comes back with the
reply, filled or not. From where nothing may be read it comes back as it was, with a
reply that tells nothing.
-/

namespace BoundedMemory

/-- A list that is lent to the handle behind a name, with how it is to be filled. -/
inductive Loan where
  | fill (t : ScalarType) (list : List (Scalar t)) (offset : Nat) (order : ByteOrder)
  | fillElements (t : ScalarType) (list : List (Scalar t)) (offset start count : Nat)
      (order : ByteOrder)
  | cursorFill (t : ScalarType) (list : List (Scalar t)) (order : Option ByteOrder)
  | cursorFillAt (t : ScalarType) (list : List (Scalar t)) (offset : Nat)
      (order : Option ByteOrder)
  | readInto (buffer : Bytes)
  /-- The same through the interface of streams. -/
  | readSome (buffer : Bytes)

namespace Session

private def filled (_ : Unit) : Reply := .done

/-- Lends a list to a handle. It comes back with the reply. -/
def lend (target : String) (loan : Loan) (s : Session) : (Reply × Loan) × Session :=
  match loan, s.handles.find? target with
  | .fill t list offset order, some (.region r) =>
      let (reply, store, list) := (r.fill offset order).settle .fault filled (s.store, list)
      ((reply, .fill t list offset order), { s with store })
  | .fillElements t list offset start count order, some (.region r) =>
      let (reply, store, list) :=
        (r.fillElements offset start count order).settle .fault filled (s.store, list)
      ((reply, .fillElements t list offset start count order), { s with store })
  | .cursorFill t list order, some (.cursor c) =>
      let (reply, (store, c), list) :=
        (Cursor.fill order).settle .fault filled ((s.store, c), list)
      ((reply, .cursorFill t list order), { s with store }.bind target (.cursor c))
  | .cursorFillAt t list offset order, some (.cursor c) =>
      let (reply, store, list) := (c.fillAt offset order).settle .fault filled (s.store, list)
      ((reply, .cursorFillAt t list offset order), { s with store })
  | .readInto buffer, some (.reader w) =>
      let (reply, (store, w), buffer) :=
        Reader.fill.settle .fault .number ((s.store, w), buffer)
      ((reply, .readInto buffer), { s with store }.bind target (.reader w))
  | .readSome buffer, some (.reader w) =>
      let (reply, (store, w), buffer) :=
        (Operation.mapFault .access Reader.fill).settle .streamFault .number ((s.store, w), buffer)
      ((reply, .readSome buffer), { s with store }.bind target (.reader w))
  | _, _ => ((.noHandle, loan), s)

end Session

/-- What does nothing in either of two states, and replies the same in both. -/
def Operation.IdleAlike {ε σ α : Type} (x : Operation ε σ α) (s₁ s₂ : σ) : Prop :=
  ∀ fault reply, ∃ answer,
    x.settle fault reply s₁ = (answer, s₁) ∧ x.settle fault reply s₂ = (answer, s₂)

open Operation (Oblivious Beside IdleAlike)

section Lending

variable {r : Region} {s t : Store} {T : ScalarType}

private theorem Operation.IdleAlike.mapFault {ε ε' σ α : Type} {x : Operation ε σ α} {s₁ s₂ : σ}
    (f : ε → ε') (h : IdleAlike x s₁ s₂) : IdleAlike (Operation.mapFault f x) s₁ s₂ := by
  have same (fault : ε' → Reply) (reply : α → Reply) (s : σ) :
      (Operation.mapFault f x).settle fault reply s = x.settle (fault ∘ f) reply s := by
    unfold Operation.settle
    rw [Operation.mapFault_run]
    cases x s with
    | ok a s => rfl
    | error e s => cases e <;> rfl
  intro fault reply
  simpa only [same] using h (fault ∘ f) reply

/-- What never answers and stops with nothing done fills in nothing. -/
private theorem filling_idleAlike {ε σ α β γ : Type} {R : σ → σ → Prop} {x : β → Operation ε σ γ}
    {told : γ → α} {given : γ → β} {lent : β} {s₁ s₂ : σ}
    (oblivious : Oblivious R (x lent)) (related : R s₁ s₂)
    (nothing : ∀ a after, x lent s₁ ≠ .ok a after) (kept : (x lent).AllOrNothing) :
    IdleAlike (Operation.filling x told given) (s₁, lent) (s₂, lent) := by
  intro fault reply
  unfold Operation.settle Operation.filling
  simp only
  obtain ⟨a, t₁, t₂, run₁, -, -⟩ | ⟨e, t₁, t₂, run₁, run₂, -⟩ :=
    (oblivious s₁ s₂ related).cases
  · exact absurd run₁ (nothing a t₁)
  · simp only [run₁, run₂, kept s₁ e t₁ run₁, kept s₂ e t₂ run₂]
    cases e <;> exact ⟨_, rfl, rfl⟩

private theorem Region.fill_idleAlike (blind : r.Blind s t) (list : List (Scalar T)) (offset : Nat)
    (order : ByteOrder) : IdleAlike (r.fill offset order) (s, list) (t, list) := by
  rw [fill_eq]
  refine filling_idleAlike (.of_map (f := Reply.scalars T) (fun _ _ same => by cases same; rfl)
    ((Transfer.readSlice T list.length order).oblivious r offset)) blind ?_
    (r.readSlice_allOrNothing offset list.length order)
  intro vs after run
  apply Transfer.run_ne_ok_of_denies (x := .readSlice T list.length order) blind.denies
  simp only [Transfer.run, Operation.bind_run]
  rw [run]
  rfl

private theorem Region.fillElements_idleAlike (blind : r.Blind s t) (list : List (Scalar T))
    (offset start count : Nat) (order : ByteOrder) :
    IdleAlike (r.fillElements offset start count order) (s, list) (t, list) := by
  rw [fillElements_eq]
  refine filling_idleAlike (.of_map (f := Reply.filled T none) (fun _ _ same => by cases same; rfl)
    ((Transfer.readElements T list start count order).oblivious r offset)) blind ?_
    (r.readElements_allOrNothing offset start count order list)
  intro vs after run
  apply Transfer.run_ne_ok_of_denies (x := .readElements T list start count order) blind.denies
  simp only [Transfer.run, Operation.bind_run]
  rw [run]
  rfl

section Cursors

variable {c : Cursor} (blind : c.region.Blind s t) (list : List (Scalar T))

include blind

private theorem Cursor.fillAt_idleAlike (offset : Nat) (order : Option ByteOrder) :
    IdleAlike (c.fillAt offset order) (s, list) (t, list) := by
  have oblivious : Oblivious c.region.Blind (c.readSliceAt T offset list.length order) := by
    apply Oblivious.of_map (f := Reply.scalars T) (fun _ _ same => by cases same; rfl)
    rw [readSliceAt_eq]
    exact c.transferAt_oblivious _ offset
  rw [fillAt_eq]
  refine filling_idleAlike oblivious blind ?_ (c.readSliceAt_allOrNothing offset list.length order)
  intro vs after run
  have answered : (do return Reply.scalars T (← c.readSliceAt T offset list.length order)) s =
      .ok (.scalars T vs) after := by
    rw [Operation.bind_run, run]
    rfl
  rw [readSliceAt_eq] at answered
  exact Transfer.run_ne_ok_of_denies blind.denies (transferAt_eq_ok_iff.mp answered).2

private theorem Cursor.fill_idleAlike (order : Option ByteOrder) :
    IdleAlike (Cursor.fill order) ((s, c), list) ((t, c), list) := by
  have oblivious : Oblivious (Beside (Cursor.On c.region) c.region.Blind)
      (Cursor.readSlice T list.length order) := by
    apply Oblivious.of_map (f := Reply.scalars T) (fun _ _ same => by cases same; rfl)
    rintro ⟨s, c'⟩ ⟨t, c''⟩ ⟨blind, same, here⟩
    cases same
    rw [readSlice_eq, readSlice_eq]
    exact transfer_oblivious _ (s, c') (t, c') ⟨blind, rfl, here⟩
  rw [fill_eq]
  refine filling_idleAlike oblivious ⟨blind, rfl, rfl⟩ ?_
    (Cursor.readSlice_allOrNothing list.length order)
  rintro vs ⟨s', c'⟩ run
  have answered : (do return Reply.scalars T (← Cursor.readSlice T list.length order)) (s, c) =
      .ok (.scalars T vs) (s', c') := by
    rw [Operation.bind_run, run]
    rfl
  rw [readSlice_eq] at answered
  exact Transfer.run_ne_ok_of_denies blind.denies
    (transferAt_eq_ok_iff.mp (transfer_eq_ok_iff.mp answered).1).2

end Cursors

/-- At the end of its window a reader fills in nothing, and elsewhere it is refused. -/
private theorem Reader.fill_idleAlike {w : Window} (blind : w.region.Blind s t) (buffer : Bytes) :
    IdleAlike Reader.fill ((s, w), buffer) ((t, w), buffer) := by
  intro fault reply
  rw [fill_eq]
  unfold Operation.settle Operation.filling Reader.readInto
  simp only [Operation.bind_run]
  obtain ⟨run₁, run₂⟩ | ⟨e, run₁, run₂⟩ := Reader.read_blind buffer.length blind
  · rw [run₁, run₂]
    exact ⟨_, rfl, rfl⟩
  · rw [run₁, run₂]
    cases e <;> exact ⟨_, rfl, rfl⟩

end Lending

namespace Session

variable {s : Session} {r : Region}

/-- Of a list that is lent where nothing may be read only a reply comes back, and the
list as it was. -/
theorem lend_blind {target : String} {handle : Handle} (loan : Loan)
    (found : s.handles.find? target = some handle) (leads : handle.seat = .region r)
    {store : Store} (blind : r.Blind s.store store) :
    ∃ reply handles, s.lend target loan = ((reply, loan), { s with handles }) ∧
      lend target loan { s with store } = ((reply, loan), { s with store, handles }) ∧
      ({ s with handles } : Session).seats = s.seats := by
  have unfit (same : s.lend target loan = ((.noHandle, loan), s))
      (same' : lend target loan { s with store } = ((.noHandle, loan), { s with store })) :
      ∃ reply handles, s.lend target loan = ((reply, loan), { s with handles }) ∧
        lend target loan { s with store } = ((reply, loan), { s with store, handles }) ∧
        ({ s with handles } : Session).seats = s.seats := ⟨_, s.handles, same, same', rfl⟩
  cases loan with
  | fill t list offset order =>
      cases handle with
      | region r =>
          cases leads
          obtain ⟨reply, run₁, run₂⟩ := Region.fill_idleAlike blind list offset order .fault filled
          simp only [lend, found, run₁, run₂]
          exact ⟨reply, s.handles, rfl, rfl, rfl⟩
      | _ => exact unfit (by simp only [lend, found]) (by simp only [lend, found])
  | fillElements t list offset start count order =>
      cases handle with
      | region r =>
          cases leads
          obtain ⟨reply, run₁, run₂⟩ :=
            Region.fillElements_idleAlike blind list offset start count order .fault filled
          simp only [lend, found, run₁, run₂]
          exact ⟨reply, s.handles, rfl, rfl, rfl⟩
      | _ => exact unfit (by simp only [lend, found]) (by simp only [lend, found])
  | cursorFill t list order =>
      cases handle with
      | cursor c =>
          cases leads
          obtain ⟨reply, run₁, run₂⟩ := Cursor.fill_idleAlike blind list order .fault filled
          simp only [lend, found, run₁, run₂]
          exact ⟨reply, _, rfl, rfl, seats_rebind found rfl⟩
      | _ => exact unfit (by simp only [lend, found]) (by simp only [lend, found])
  | cursorFillAt t list offset order =>
      cases handle with
      | cursor c =>
          cases leads
          obtain ⟨reply, run₁, run₂⟩ :=
            Cursor.fillAt_idleAlike blind list offset order .fault filled
          simp only [lend, found, run₁, run₂]
          exact ⟨reply, s.handles, rfl, rfl, rfl⟩
      | _ => exact unfit (by simp only [lend, found]) (by simp only [lend, found])
  | readInto buffer =>
      cases handle with
      | reader w =>
          cases leads
          obtain ⟨reply, run₁, run₂⟩ := Reader.fill_idleAlike blind buffer .fault .number
          simp only [lend, found, run₁, run₂]
          exact ⟨reply, _, rfl, rfl, seats_rebind found rfl⟩
      | _ => exact unfit (by simp only [lend, found]) (by simp only [lend, found])
  | readSome buffer =>
      cases handle with
      | reader w =>
          cases leads
          obtain ⟨reply, run₁, run₂⟩ :=
            (Reader.fill_idleAlike blind buffer).mapFault .access .streamFault .number
          simp only [lend, found, run₁, run₂]
          exact ⟨reply, _, rfl, rfl, seats_rebind found rfl⟩
      | _ => exact unfit (by simp only [lend, found]) (by simp only [lend, found])

end Session

end BoundedMemory
