import BoundedMemory.Proofs.EveryHandle

/-!
How far cursors get. A use of a cursor does one of six things to it, and none of them
takes a position past a limit or a limit past the region. So in every run, whatever is
asked of cursors and whatever becomes of the memory below them, positions and limits are
in order, in what was saved as well.
-/

namespace BoundedMemory

open Operation (Gives)

variable {s : Store} {c c' : Cursor} {r : Region}

namespace Cursor

theorem within_eq (r : Region) (position limit : Nat) (order : ByteOrder) :
    within r position limit order =
      if limit ≤ r.length then
        if position ≤ limit then .ok { region := r, mark := { position, limit, order } }
        else .error (.outOfBounds position 0 limit)
      else .error (.outOfBounds limit 0 r.length) := by
  unfold within Extent.checkPosition
  rw [Extent.check_eq, Extent.check_eq, Nat.add_zero, Nat.add_zero]
  split
  · split <;> rfl
  · rfl

/-- What one use can make of a cursor. -/
inductive UseStep (c : Cursor) : Cursor → Prop where
  | stays : UseStep c c
  | moves {position : Nat} (low : position ≤ c.limit) :
      UseStep c { c with mark := { c.mark with position } }
  | limits {limit : Nat} (low : limit ≤ c.length) :
      UseStep c { c with mark := { c.mark with limit, position := min c.position limit } }
  | orders (order : ByteOrder) : UseStep c { c with mark := { c.mark with order } }
  | saves : UseStep c { c with saved := c.mark :: c.saved }
  | restores {mark : Mark} {saved : List Mark} (stack : c.saved = mark :: saved) :
      UseStep c { c with mark, saved }

theorem UseStep.region (stepped : c.UseStep c') : c'.region = c.region := by
  cases stepped <;> rfl

/-- No step leads out of order. -/
theorem UseStep.ordered (stepped : c.UseStep c') (h : c.Ordered) : c'.Ordered := by
  cases stepped with
  | stays => exact h
  | moves low => exact ⟨⟨low, h.mark.2⟩, h.saved⟩
  | limits low => exact ⟨⟨Nat.min_le_right _ _, low⟩, h.saved⟩
  | orders order => exact ⟨h.mark, h.saved⟩
  | saves =>
      refine ⟨h.mark, fun m member => ?_⟩
      rcases List.mem_cons.mp member with rfl | later
      · exact h.mark
      · exact h.saved m later
  | restores stack =>
      have all := h.saved
      rw [stack] at all
      exact ⟨all _ List.mem_cons_self, fun m member => all m (List.mem_cons_of_mem _ member)⟩

section Steps

variable {α : Type}

/-- An operation takes a cursor one step further, however it ends. -/
private def Steers (x : Act α) (s : Store) (c : Cursor) : Prop :=
  c.UseStep (Operation.after x (s, c)).2

private theorem Steers.settle {x : Act α} (steers : Steers x s c) (fault : Fault → Reply)
    (reply : α → Reply) : c.UseStep (x.settle fault reply (s, c)).2.2 := by
  rw [Operation.settle_snd]
  exact steers

/-- An operation that takes its step where a condition holds and else stops. -/
private theorem steers_of_ite {x : Act α} {condition : Prop} [Decidable condition] {a : α}
    {e : Stop Fault} {s₁ s₂ : Store}
    (run : x (s, c) = if condition then .ok a (s₁, c') else .error e (s₂, c))
    (stepped : condition → c.UseStep c') : Steers x s c := by
  unfold Steers Operation.after
  rw [run]
  rcases Decidable.em condition with holds | fails
  · rw [if_pos holds]
    exact stepped holds
  · rw [if_neg fails]
    exact .stays

private theorem advance_steers (n : Nat) : Steers (advance n) s c := by
  rcases Nat.lt_or_ge c.limit (c.position + n) with beyond | fits
  · unfold Steers Operation.after
    rw [advance_run, if_neg (Nat.not_le.mpr beyond)]
    exact .stays
  · exact steers_of_ite ((advance_run n s c).trans (if_pos fits)) fun _ => .moves fits

private theorem restore_steers : Steers restore s c := by
  unfold Steers Operation.after
  rw [restore_run]
  cases stack : c.saved with
  | nil => exact .stays
  | cons mark saved => exact .restores stack

private theorem alignTo_steers (h : c.Ordered) (width : Nat) : Steers (alignTo width) s c := by
  have run := alignTo_run width s c
  cases passed : c.padding width with
  | error fault =>
      unfold Steers Operation.after
      rw [run, passed]
      exact .stays
  | ok skip =>
      rw [passed] at run
      exact steers_of_ite run fun _ => .moves (padding_fits h passed)

private theorem padTo_steers (h : c.Ordered) (width : Nat) (byte : UInt8) :
    Steers (padTo width byte) s c := by
  unfold Steers Operation.after
  rw [padTo_run]
  cases passed : c.padding width with
  | error fault => exact .stays
  | ok skip =>
      simp only
      cases (Transfer.clear byte skip).run c.region c.position s with
      | ok reply t =>
          rcases Nat.eq_zero_or_pos skip with nothing | some
          · rw [if_pos nothing]
            exact .stays
          · rw [if_neg (Nat.ne_of_gt some)]
            exact .moves (padding_fits h passed)
      | error e t =>
          rcases Nat.eq_zero_or_pos skip with nothing | some
          · rw [if_pos nothing]
            exact .stays
          · rw [if_neg (Nat.ne_of_gt some)]
            exact .stays

private theorem transfer_steers (x : Transfer) : Steers (transfer x) s c := by
  have run := transfer_run x s c
  cases passed : c.transferAt x c.position s with
  | error e t =>
      unfold Steers Operation.after
      rw [run, passed]
      exact .stays
  | ok reply t =>
      rw [passed] at run
      exact steers_of_ite run fun _ => .moves (transferAt_eq_ok_iff.mp passed).1

private theorem onFirst_steers (x : Action Store α) : Steers (Operation.onFirst x) s c := by
  unfold Steers Operation.after
  rw [Operation.onFirst_run]
  cases x s <;> exact .stays

end Steps

end Cursor

/-- Every use of a cursor that is in order takes it one step further. -/
theorem CursorUse.useStep (how : CursorUse) (h : c.Ordered) : c.UseStep (how.run (s, c)).2.2 := by
  cases transfer : c.transfer? how with
  | some found =>
      obtain ⟨x, place⟩ := found
      rw [Cursor.run_use transfer]
      cases place with
      | none => exact (Cursor.transfer_steers x).settle .fault id
      | some offset => exact (Cursor.onFirst_steers _).settle .fault id
  | none =>
      cases how with
      | setPosition position =>
          have steers := Cursor.steers_of_ite (Cursor.setPosition_run position s c) .moves
          exact steers.settle .fault _
      | setLimit limit =>
          have steers := Cursor.steers_of_ite (Cursor.setLimit_run limit s c) .limits
          exact steers.settle .fault _
      | setOrder order => exact .orders order
      | mark => exact .stays
      | save => exact .saves
      | restore => exact Cursor.restore_steers.settle .fault .mark
      | advance n => exact (Cursor.advance_steers n).settle .fault .number
      | pad width byte => exact (Cursor.padTo_steers h width byte).settle .fault .number
      | padToWord byte => exact (Cursor.padTo_steers h Host.wordSize byte).settle .fault .number
      | align width => exact (Cursor.alignTo_steers h width).settle .fault .number
      | alignToWord => exact (Cursor.alignTo_steers h Host.wordSize).settle .fault .number
      | _ => cases transfer

/-- The mark with which a cursor is to start on a region. -/
def Deriving.mark? (how : Deriving) (r : Region) : Option Cursor.Mark :=
  match how with
  | .cursor order => some { position := 0, limit := r.length, order }
  | .cursorWithin position limit order => some { position, limit, order }
  | .cursorOpen options =>
      some {
        position := options.position
        limit := options.limit.getD r.length
        order := options.order }
  | _ => none

/-- A handle that is no cursor, or one that is in order. -/
def Handle.Ordered : Handle → Prop
  | .cursor c => c.Ordered
  | _ => True

namespace Session

section Derivations

variable {how : Deriving} {make : Action Store Handle}

private theorem ofRegion_gives (derives : ofRegion? how r s = some make) :
    Gives Handle.Ordered make := by
  have region (x : Action Store Region) :
      Gives Handle.Ordered (do return Handle.region (← x)) :=
    .after fun _ => .pure trivial
  have window (x : Action Store Window) {f : Window → Handle} (stream : ∀ w, (f w).Ordered) :
      Gives Handle.Ordered (do return f (← x)) :=
    .after fun w => .pure (stream w)
  have cursor {x : Except Fault Cursor} (ordered : ∀ c, x = .ok c → c.Ordered) :
      Gives Handle.Ordered (do return Handle.cursor (← (x : Action Store Cursor))) :=
    .check fun c made => .pure (ordered c made)
  cases how with
  | copy =>
      cases derives
      exact .pure trivial
  | parent =>
      obtain ⟨root, -, rfl⟩ := Option.map_eq_some_iff.mp derives
      exact .pure trivial
  | slice offset length =>
      cases derives
      exact region _
  | sliceFrom offset =>
      cases derives
      exact region _
  | sliceBetween first last =>
      cases derives
      exact region _
  | restrict mask =>
      cases derives
      exact region _
  | readOnly =>
      cases derives
      exact region _
  | cursor order =>
      cases derives
      exact .pure (Cursor.ofRegion_ordered r order)
  | cursorWithin position limit order =>
      cases derives
      exact cursor fun c made => (Cursor.within_ordered made).2
  | cursorOpen options =>
      cases derives
      exact cursor fun c made => (Cursor.within_ordered made).2
  | reader range =>
      cases range <;> cases derives
      · exact .pure trivial
      · exact window _ fun _ => trivial
  | writer range =>
      cases range <;> cases derives
      · exact .pure trivial
      · exact window _ fun _ => trivial
  | _ => cases derives

private theorem ofCursor_gives (h : c.Ordered) (derives : ofCursor? how c = some make) :
    Gives Handle.Ordered make := by
  have slice (offset length : Nat) : Gives Cursor.Ordered (c.slice offset length) :=
    .after fun view => .pure (Cursor.ofRegion_ordered view c.order)
  have cursor {x : Action Store Cursor} (ordered : Gives Cursor.Ordered x) :
      Gives Handle.Ordered (do return Handle.cursor (← x)) :=
    ordered.bind fun _ found => .pure found
  cases how with
  | copy =>
      cases derives
      exact .pure h
  | region =>
      cases derives
      exact .pure trivial
  | intoRegion =>
      cases derives
      exact .pure trivial
  | cursorSlice offset length =>
      cases derives
      exact cursor (slice offset length)
  | cursorSliceFrom offset =>
      cases derives
      exact cursor (.after fun _ => .after fun length => slice offset length)
  | cursorSliceHere =>
      cases derives
      exact cursor (.after fun _ => .after fun length => slice c.position length)
  | cursorSliceBetween first last =>
      cases derives
      exact cursor (.after fun length => slice first length)
  | _ => cases derives

/-- Cursors come into being in order, and those that are copied are so already. -/
theorem derivation_gives {h : Handle} (ordered : h.Ordered)
    (derives : derivation? how h s = some make) : Gives Handle.Ordered make := by
  cases h with
  | region r => exact ofRegion_gives derives
  | cursor c => exact ofCursor_gives ordered derives
  | buffer id => cases derives
  | reader w =>
      cases how with
      | copy | region =>
          cases derives
          exact .pure trivial
      | _ => cases derives
  | writer w =>
      cases how with
      | copy | region =>
          cases derives
          exact .pure trivial
      | _ => cases derives

end Derivations

/-- Every cursor that a name stands for is in order. -/
def InOrder (s : Session) : Prop :=
  ∀ (name : String) (h : Handle), s.handles.find? name = some h → h.Ordered

variable {s : Session} {name : String}

/-- Cursors are in order from the beginning, and no use of them leads out of order. -/
theorem ordered_lasting : Handle.Lasting Handle.Ordered where
  made {h} kind := by
    cases h with
    | cursor c => simp [Handle.kind] at kind
    | _ => trivial
  derived := derivation_gives
  cursor how s _ ordered := (how.useStep (s := s) ordered).ordered ordered
  reader _ _ _ _ := trivial
  writer _ _ _ _ := trivial
  copied _ _ := ⟨trivial, trivial⟩

theorem InOrder.run (before : s.InOrder) (commands : List Command) :
    (Session.run commands s).2.InOrder :=
  Each.run ordered_lasting before commands

section Bounds

/-- A new limit is accepted as far as the region goes, and the position is pulled back to it. -/
theorem use_setLimit (found : s.handles.find? name = some (.cursor c)) (limit : Nat) :
    s.use name (.cursor (.setLimit limit)) =
      if limit ≤ c.region.length then
        (.done, s.bind name
          (.cursor { c with mark := { c.mark with limit, position := min c.position limit } }))
      else (.fault (.outOfBounds limit 0 c.region.length), s.bind name (.cursor c)) := by
  have run := Cursor.setLimit_run limit s.store c
  rcases Nat.lt_or_ge c.region.length limit with beyond | low
  · have refused : ¬ limit ≤ c.length := Nat.not_le.mpr beyond
    rw [if_neg refused] at run
    simp only [Session.use, found, CursorUse.run, Operation.settle, run]
    exact (if_neg refused).symm
  · have accepted : limit ≤ c.length := low
    rw [if_pos accepted] at run
    simp only [Session.use, found, CursorUse.run, Operation.settle, run]
    exact (if_pos accepted).symm

/-- A cursor starts with any mark that is inside of its region and with no other. -/
theorem derive_mark {source : String} (name : String) {how : Deriving} {m : Cursor.Mark}
    (found : s.handles.find? source = some (.region r)) (wanted : how.mark? r = some m) :
    m.Inside r.length ∧ s.derive source name how =
        (.bound, s.bind name (.cursor { region := r, mark := m })) ∨
      ¬ m.Inside r.length ∧ ∃ cause, s.derive source name how = (.fault cause, s) := by
  have within (position limit : Nat) (order : ByteOrder) :
      (position ≤ limit ∧ limit ≤ r.length) ∧ s.bindMade name
          (do return .cursor (← Cursor.within r position limit order)) =
          (.bound, s.bind name (.cursor { region := r, mark := { position, limit, order } })) ∨
        ¬ (position ≤ limit ∧ limit ≤ r.length) ∧ ∃ cause, s.bindMade name
          (do return .cursor (← Cursor.within r position limit order)) = (.fault cause, s) := by
    unfold Session.bindMade
    rw [Cursor.within_eq]
    rcases Decidable.em (position ≤ limit ∧ limit ≤ r.length) with inside | outside
    · rw [if_pos inside.2, if_pos inside.1]
      exact .inl ⟨inside, rfl⟩
    · rcases Nat.lt_or_ge r.length limit with beyond | low
      · rw [if_neg (Nat.not_le.mpr beyond)]
        exact .inr ⟨outside, _, rfl⟩
      · rw [if_pos low, if_neg fun fits => outside ⟨fits, low⟩]
        exact .inr ⟨outside, _, rfl⟩
  cases how with
  | cursor order =>
      cases wanted
      refine .inl ⟨⟨Nat.zero_le _, Nat.le_refl _⟩, ?_⟩
      simp only [Session.derive, found, Option.bind_some, derivation?, ofRegion?]
      rfl
  | cursorWithin position limit order =>
      cases wanted
      simp only [Session.derive, found, Option.bind_some, derivation?, ofRegion?]
      exact within position limit order
  | cursorOpen options =>
      cases wanted
      simp only [Session.derive, found, Option.bind_some, derivation?, ofRegion?]
      exact within options.position (options.limit.getD r.length) options.order
  | _ => cases wanted

/-- What holds of the cursors of a session, whatever is asked of them next. -/
structure CursorsBounded (s : Session) : Prop where
  /-- The position does not pass the limit nor the limit the region, now and in all that
  was saved. -/
  inside {name : String} {c : Cursor} : s.handles.find? name = some (.cursor c) →
    ∀ m ∈ c.mark :: c.saved, m.position ≤ m.limit ∧ m.limit ≤ c.region.length
  /-- No use takes a cursor to another region. -/
  stays {name : String} {c : Cursor} (how : CursorUse) :
    s.handles.find? name = some (.cursor c) → ∃ c', c'.region = c.region ∧
      (s.step (.use name (.cursor how))).2.handles.find? name = some (.cursor c')
  /-- A limit is accepted exactly if the region goes that far; it pulls the position back. -/
  limits {name : String} {c : Cursor} {limit : Nat} {reply : Reply} {after : Session} :
    s.handles.find? name = some (.cursor c) →
      s.step (.use name (.cursor (.setLimit limit))) = (reply, after) →
        (reply = .done ↔ limit ≤ c.region.length) ∧
          after.handles.find? name = some (.cursor (if limit ≤ c.region.length then
            { c with mark := { c.mark with limit, position := min c.position limit } } else c))
  /-- A cursor starts with the mark it is asked to have if that is inside of the region,
  and else does not come into being. -/
  starts {source name : String} {r : Region} {how : Deriving} {m : Cursor.Mark} {reply : Reply}
    {after : Session} : s.handles.find? source = some (.region r) → how.mark? r = some m →
      s.step (.derive source name how) = (reply, after) →
        (reply = .bound ↔ m.position ≤ m.limit ∧ m.limit ≤ r.length) ∧
          (reply = .bound →
            after.handles.find? name = some (.cursor { region := r, mark := m })) ∧
          (reply ≠ .bound → (∃ cause, reply = .fault cause) ∧ after.handles = s.handles)

theorem InOrder.bounded (h : s.InOrder) : s.CursorsBounded where
  inside found := by
    intro m member
    have ordered : Cursor.Ordered _ := h _ _ found
    rcases List.mem_cons.mp member with rfl | later
    · exact ordered.mark
    · exact ordered.saved m later
  stays how found := by
    have stepped := how.useStep (s := s.store) (h _ _ found)
    refine ⟨_, stepped.region, ?_⟩
    show (s.use _ _).2.sweep.handles.find? _ = _
    rw [sweep_handles]
    simp only [Session.use, found, Session.bind, Names.find?_bind_same]
  limits {name c limit reply after} found stepped := by
    unfold Session.step Session.perform at stepped
    simp only [use_setLimit found] at stepped
    rcases Nat.lt_or_ge c.region.length limit with beyond | low
    · have refused := Nat.not_le.mpr beyond
      rw [if_neg refused] at stepped ⊢
      cases stepped
      rw [sweep_handles]
      exact ⟨iff_of_false Reply.noConfusion refused, Names.find?_bind_same _ _ _⟩
    · rw [if_pos low] at stepped ⊢
      cases stepped
      rw [sweep_handles]
      exact ⟨iff_of_true rfl low, Names.find?_bind_same _ _ _⟩
  starts {source name r how m reply after} found wanted stepped := by
    unfold Session.step Session.perform at stepped
    rcases derive_mark name found wanted with ⟨inside, made⟩ | ⟨outside, cause, failed⟩
    · simp only [made] at stepped
      cases stepped
      rw [sweep_handles]
      exact ⟨iff_of_true rfl inside, fun _ => Names.find?_bind_same _ _ _, fun no => absurd rfl no⟩
    · simp only [failed] at stepped
      cases stepped
      rw [sweep_handles]
      exact ⟨iff_of_false Reply.noConfusion outside, Reply.noConfusion,
        fun _ => ⟨⟨cause, rfl⟩, rfl⟩⟩

/-- Whatever was asked of them, cursors stay inside of their regions. -/
theorem run_cursors_bounded (machine : Machine) (files : FileTree) (commands : List Command) :
    (Session.run commands (.initial machine files)).2.CursorsBounded := by
  have empty : (Session.initial machine files).InOrder := by
    intro name h found
    cases found
  exact (empty.run commands).bounded

end Bounds

end Session

end BoundedMemory
