import BoundedMemory.Proofs.Coherence.Statement
import BoundedMemory.Proofs.Narrowing

/-!
Deriving handles from handles is coherent with flat memory: it leads to the region
that the steps of the derivation add up to, and changes no byte.
-/

namespace BoundedMemory.Session

variable {s : Session} {name : String}

/-- A derivation that changes nothing, and leads to `r` if anywhere. -/
private structure Leads (make : Action Store Handle) (s : Store) (r : Region) : Prop where
  made (h' : Handle) (s' : Store) : make s = .ok h' s' → s' = s ∧ h'.seat = .region r
  stopped (e : Stop Fault) (s' : Store) : make s = .error e s' → s' = s

private theorem Leads.pure {s : Store} {h' : Handle} {r : Region} (seat : h'.seat = .region r) :
    Leads (pure h') s r where
  made _ _ run := by
    cases run
    exact ⟨rfl, seat⟩
  stopped _ _ run := by cases run

private theorem Leads.trap {s : Store} {α : Type} {make : α → Action Store Handle} {r : Region} :
    Leads ((liftM (none : Option α) : Action Store α) >>= make) s r where
  made _ _ run := by cases run
  stopped _ _ run := by
    cases run
    rfl

private theorem Leads.narrow {s : Store} (n : Narrowing) (r : Region) {f : Region → Handle}
    (seat : ∀ r, (f r).seat = .region r) : Leads (do return f (← n.apply r)) s (n.narrowed r) where
  made h' s' run := by
    obtain ⟨r', t, first, second⟩ := Operation.bind_eq_ok_iff.mp run
    obtain ⟨-, -, rfl, rfl⟩ := Narrowing.apply_eq_ok_iff.mp first
    cases second
    exact ⟨rfl, seat _⟩
  stopped e s' run := n.allOrNothing r |>.map s e s' run

private theorem Leads.check {s : Store} {α : Type} {check : Except Fault α}
    {make : α → Action Store Handle} {r : Region}
    (leads : ∀ a, check = .ok a → Leads (make a) s r) :
    Leads ((liftM check : Action Store α) >>= make) s r where
  made h' s' run := by
    obtain ⟨a, passed, made⟩ := Operation.check_bind_eq_ok_iff.mp run
    exact (leads a passed).made h' s' made
  stopped e s' run := by
    cases checked : check with
    | error cause =>
        rw [checked] at run
        cases run
        rfl
    | ok a =>
        rw [checked] at run
        exact (leads a checked).stopped e s' run

private theorem cursorSlice_leads {c : Cursor} {s : Store} (n : Narrowing) (offset length : Nat)
    (same : n.narrowed c.region = (Narrowing.slice offset length).narrowed c.region) :
    Leads (do return .cursor (← c.slice offset length)) s (n.narrowed c.region) := by
  have sliced := Leads.narrow (s := s) (.slice offset length) c.region
    (f := fun r => .cursor (Cursor.ofRegion r c.order)) fun _ => rfl
  rw [same]
  simpa only [Narrowing.apply, Cursor.slice, bind_assoc, pure_bind] using sliced

private theorem cursorSliceFrom_leads {c : Cursor} {s : Store} (offset : Nat) :
    Leads (do return .cursor (← c.sliceFrom offset)) s
      ((Narrowing.sliceFrom offset).narrowed c.region) := by
  simp only [Cursor.sliceFrom, bind_assoc]
  apply Leads.check
  intro _ _
  unfold Word.sub?
  by_cases inside : offset ≤ c.length
  · simp only [inside, if_true]
    exact cursorSlice_leads (.sliceFrom offset) offset (c.length - offset) rfl
  · simp only [inside, if_false]
    exact .trap

private theorem cursorSliceBetween_leads {c : Cursor} {s : Store} (first last : Nat) :
    Leads (do return .cursor (← c.sliceBetween first last)) s
      ((Narrowing.sliceBetween first last).narrowed c.region) := by
  simp only [Cursor.sliceBetween, bind_assoc]
  apply Leads.check
  intro length passed
  apply cursorSlice_leads
  unfold Extent.between at passed
  by_cases turned : last < first
  · simp [turned] at passed
  · simp only [turned, if_false, Except.ok.injEq] at passed
    subst passed
    rfl

private theorem ofCursor_leads {c : Cursor} {how : Deriving} {make : Action Store Handle}
    {s : Store} (derives : ofCursor? how c = some make) :
    ∃ r, (Handle.cursor c).derived? how s.flat = some r ∧ Leads make s r := by
  cases how with
  | copy =>
      cases derives
      exact ⟨_, rfl, .pure rfl⟩
  | region =>
      cases derives
      exact ⟨_, rfl, .pure rfl⟩
  | intoRegion =>
      cases derives
      exact ⟨_, rfl, .pure rfl⟩
  | cursorSlice offset length =>
      cases derives
      exact ⟨_, rfl, cursorSlice_leads (.slice offset length) offset length rfl⟩
  | cursorSliceFrom offset =>
      cases derives
      exact ⟨_, rfl, cursorSliceFrom_leads offset⟩
  | cursorSliceHere =>
      cases derives
      exact ⟨_, rfl, cursorSliceFrom_leads c.position⟩
  | cursorSliceBetween first last =>
      cases derives
      exact ⟨_, rfl, cursorSliceBetween_leads first last⟩
  | _ => cases derives

private theorem window_leads {r : Region} {s : Store} (start length : Nat) {f : Window → Handle}
    (seat : ∀ w : Window, w.region = r → (f w).seat = .region r) :
    Leads (do return f (← Window.within r start length)) s r := by
  simp only [Window.within, bind_assoc, pure_bind]
  apply Leads.check
  intro _ _
  unfold Word.add?
  by_cases fits : start + length < Word.modulus
  · simp only [fits, if_true]
    exact .pure (seat _ rfl)
  · simp only [fits, if_false]
    exact .trap

private theorem cursor_leads {r : Region} {s : Store} (position limit : Nat) (order : ByteOrder) :
    Leads (do return .cursor (← Cursor.within r position limit order)) s r := by
  apply Leads.check
  intro c made
  apply Leads.pure
  unfold Cursor.within at made
  cases first : Extent.checkPosition r.length limit with
  | error cause =>
      rw [first] at made
      cases made
  | ok _ =>
      cases second : Extent.checkPosition limit position with
      | error cause =>
          rw [first, second] at made
          cases made
      | ok _ =>
          rw [first, second] at made
          cases made
          rfl

private theorem parent_leads {r : Region} {make : Action Store Handle} {s : Store}
    (derives : ofRegion? .parent r s = some make) :
    ∃ r', (Handle.region r).derived? .parent s.flat = some r' ∧ Leads make s r' := by
  simp only [ofRegion?, Region.parent?, Option.map_eq_some_iff] at derives
  obtain ⟨whole, found, rfl⟩ := derives
  by_cases view : r.isView = true
  · simp only [view, if_true, Option.map_eq_some_iff] at found
    obtain ⟨root, there, rfl⟩ := found
    refine ⟨_, ?_, .pure rfl⟩
    simp only [Handle.derived?, Handle.seat, Store.flat_grounds there, Option.map_some]
    rfl
  · simp [view] at found

private theorem ofRegion_leads {r : Region} {how : Deriving} {make : Action Store Handle}
    {s : Store} (derives : ofRegion? how r s = some make) :
    ∃ r', (Handle.region r).derived? how s.flat = some r' ∧ Leads make s r' := by
  cases how with
  | copy =>
      cases derives
      exact ⟨_, rfl, .pure rfl⟩
  | parent => exact parent_leads derives
  | slice offset length =>
      cases derives
      exact ⟨_, rfl, .narrow (.slice offset length) r fun _ => rfl⟩
  | sliceFrom offset =>
      cases derives
      exact ⟨_, rfl, .narrow (.sliceFrom offset) r fun _ => rfl⟩
  | sliceBetween first last =>
      cases derives
      exact ⟨_, rfl, .narrow (.sliceBetween first last) r fun _ => rfl⟩
  | restrict mask =>
      cases derives
      exact ⟨_, rfl, .narrow (.restrict mask) r fun _ => rfl⟩
  | readOnly =>
      cases derives
      exact ⟨_, rfl, .narrow .readOnly r fun _ => rfl⟩
  | cursor order =>
      cases derives
      exact ⟨_, rfl, .pure rfl⟩
  | cursorWithin position limit order =>
      cases derives
      exact ⟨_, rfl, cursor_leads position limit order⟩
  | cursorOpen options =>
      cases derives
      exact ⟨_, rfl, cursor_leads options.position (options.limit.getD r.length) options.order⟩
  | reader range =>
      cases range with
      | none =>
          cases derives
          exact ⟨_, rfl, .pure rfl⟩
      | some range =>
          cases derives
          refine ⟨_, rfl, window_leads range.1 range.2 ?_⟩
          intro w same
          simp only [Handle.seat, same]
  | writer range =>
      cases range with
      | none =>
          cases derives
          exact ⟨_, rfl, .pure rfl⟩
      | some range =>
          cases derives
          refine ⟨_, rfl, window_leads range.1 range.2 ?_⟩
          intro w same
          simp only [Handle.seat, same]
  | _ => cases derives

/-- Every derivation changes nothing, and leads where flat memory says. -/
private theorem derivation_leads {h : Handle} {how : Deriving} {make : Action Store Handle}
    {s : Store} (derives : derivation? how h s = some make) :
    ∃ r, h.derived? how s.flat = some r ∧ Leads make s r := by
  cases h with
  | region r => exact ofRegion_leads derives
  | cursor c => exact ofCursor_leads derives
  | reader w =>
      cases how with
      | copy =>
          cases derives
          exact ⟨_, rfl, .pure rfl⟩
      | region =>
          cases derives
          exact ⟨_, rfl, .pure rfl⟩
      | _ => cases derives
  | writer w =>
      cases how with
      | copy =>
          cases derives
          exact ⟨_, rfl, .pure rfl⟩
      | region =>
          cases derives
          exact ⟨_, rfl, .pure rfl⟩
      | _ => cases derives
  | buffer id => cases derives

private theorem bindMade_leads (name : String) {make : Action Store Handle} {r : Region}
    (leads : Leads make s.store r) :
    (s.bindMade name make).2.store = s.store ∧
      ((s.bindMade name make).1 = .bound ∧
          (s.bindMade name make).2.seats = s.seats.set name (some (.region r)) ∨
        (s.bindMade name make).1 ≠ .bound ∧ (s.bindMade name make).2.seats = s.seats) := by
  unfold bindMade
  cases run : make s.store with
  | ok h' store =>
      obtain ⟨rfl, seat⟩ := leads.made h' store run
      refine ⟨rfl, .inl ⟨rfl, ?_⟩⟩
      rw [← seat]
      exact seats_bind h'
  | error e store =>
      have same := leads.stopped e store run
      subst same
      cases e with
      | fault cause => exact ⟨rfl, .inr ⟨(fun bound => by cases bound), rfl⟩⟩
      | trap => exact ⟨rfl, .inr ⟨(fun bound => by cases bound), rfl⟩⟩

/-- Whether or not anything comes of it, no derivation changes the store. -/
theorem derive_store (source name : String) (how : Deriving) (s : Session) :
    (s.derive source name how).2.store = s.store := by
  unfold derive
  cases found : (s.handles.find? source).bind fun h => derivation? how h s.store with
  | none => rfl
  | some make =>
      obtain ⟨handle, -, derives⟩ := Option.bind_eq_some_iff.mp found
      obtain ⟨r, -, leads⟩ := derivation_leads derives
      cases how with
      | intoRegion =>
          exact (bindMade_leads (s := { s with handles := s.handles.erase source }) name leads).1
      | _ => exact (bindMade_leads name leads).1

theorem derive_performs (source : String) (how : Deriving) (h : s.store.Apart) :
    Performs (.derive source name how) s (s.derive source name how) := by
  have unbound (found : (s.handles.find? source).bind (fun h => derivation? how h s.store) =
      none) : Performs (.derive source name how) s (s.derive source name how) := by
    unfold Performs derive
    rw [found]
    exact ⟨h, rfl, rfl⟩
  cases found : s.handles.find? source with
  | none => exact unbound (by rw [found]; rfl)
  | some handle =>
      cases derives : derivation? how handle s.store with
      | none => exact unbound (by rw [found, Option.bind_some, derives])
      | some make =>
          obtain ⟨r, derived, leads⟩ := derivation_leads derives
          have there : (s.handles.find? source).bind (fun h => derivation? how h s.store) =
              some make := by
            rw [found, Option.bind_some, derives]
          have plain (run : s.derive source name how = s.bindMade name make)
              (others : how.begun source s.seats = s.seats) :
              Performs (.derive source name how) s (s.derive source name how) := by
            obtain ⟨store, bound⟩ := bindMade_leads name leads
            unfold Performs
            rw [run, store]
            refine ⟨h, rfl, ?_⟩
            rcases bound with ⟨reply, seats⟩ | ⟨reply, seats⟩
            · rw [reply]
              exact ⟨handle, r, found, derived, by rw [others, seats]⟩
            · generalize (s.bindMade name make).1 = answer at reply
              cases answer with
              | bound => exact absurd rfl reply
              | _ => exact seats
          cases how with
          | intoRegion =>
              unfold Performs derive
              rw [there]
              cases handle with
              | cursor c =>
                  cases derives
                  cases derived
                  refine ⟨h, rfl, .cursor c, c.region, found, rfl, ?_⟩
                  show (Session.bind name _ { s with handles := s.handles.erase source }).seats = _
                  rw [seats_bind, seats_erase]
                  rfl
              | _ => cases derives
          | _ => exact plain (by simp only [derive, there]) rfl

end BoundedMemory.Session
