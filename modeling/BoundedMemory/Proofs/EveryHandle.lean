import BoundedMemory.Proofs.Steady

/-!
What is true of every handle. A property that handles have when they come into being and keep
through every use is one of all that the names of a session stand for, in every run, whatever
is asked for and whatever becomes of the memory below.
-/

namespace BoundedMemory

namespace Operation

variable {ε σ α β : Type} {p : α → Prop}

/-- All that an operation answers has a property, whatever it is run on. -/
def Gives (p : α → Prop) (x : Operation ε σ α) : Prop :=
  ∀ (s : σ) (a : α) (t : σ), x s = .ok a t → p a

theorem Gives.pure {a : α} (has : p a) : Gives p (pure a : Operation ε σ α) := by
  intro s a' t run
  cases run
  exact has

theorem Gives.bind {q : β → Prop} {x : Operation ε σ β} {f : β → Operation ε σ α}
    (first : Gives q x) (rest : ∀ b, q b → Gives p (f b)) : Gives p (x >>= f) := by
  intro s a t run
  obtain ⟨b, between, run₁, run₂⟩ := bind_eq_ok_iff.mp run
  exact rest b (first s b between run₁) between a t run₂

/-- What comes out of the first of two operations is of no matter. -/
theorem Gives.after {x : Operation ε σ β} {f : β → Operation ε σ α}
    (rest : ∀ b, Gives p (f b)) : Gives p (x >>= f) :=
  bind (fun _ _ _ _ => trivial) fun b (_ : True) => rest b

theorem Gives.check {check : Except ε β} {f : β → Operation ε σ α}
    (rest : ∀ b, check = .ok b → Gives p (f b)) : Gives p (liftM check >>= f) := by
  intro s a t run
  obtain ⟨b, passed, run⟩ := check_bind_eq_ok_iff.mp run
  exact rest b passed s a t run

theorem Gives.defined {value : Option β} {f : β → Operation ε σ α}
    (rest : ∀ b, value = some b → Gives p (f b)) : Gives p (liftM value >>= f) := by
  cases value with
  | none =>
      intro s a t run
      cases run
  | some b => exact rest b rfl

end Operation

open Operation (Gives)

/-- A property that handles have from the beginning, and that nothing takes from them. -/
structure Handle.Lasting (P : Handle → Prop) : Prop where
  made {h : Handle} : h.kind = .region ∨ h.kind = .buffer → P h
  derived {how : Deriving} {h : Handle} {s : Store} {make : Action Store Handle} :
    P h → Session.derivation? how h s = some make → Gives P make
  cursor (how : CursorUse) (s : Store) {c : Cursor} :
    P (.cursor c) → P (.cursor (how.run (s, c)).2.2)
  reader (how : ReaderUse) (s : Store) {w : Window} :
    P (.reader w) → P (.reader (how.run (s, w)).2.2)
  writer (how : WriterUse) (s : Store) {w : Window} :
    P (.writer w) → P (.writer (how.run (s, w)).2.2)
  copied {c : Stream.Copying} : P (.reader c.source) → P (.writer c.target) →
    P (.reader (Operation.after Stream.copy c).source) ∧
      P (.writer (Operation.after Stream.copy c).target)

namespace Session

/-- All that names stand for has a property. -/
def Each (P : Handle → Prop) (s : Session) : Prop :=
  ∀ (name : String) (h : Handle), s.handles.find? name = some h → P h

variable {P : Handle → Prop} {s s' : Session} {name : String} {h : Handle}

namespace Each

theorem empty (machine : Machine) (files : FileTree) : Each P (.initial machine files) := by
  intro name h found
  cases found

theorem same (before : s.Each P) (handles : s'.handles = s.handles) : s'.Each P := by
  intro name h found
  rw [handles] at found
  exact before name h found

theorem bind (before : s.Each P) (has : P h) : (s.bind name h).Each P := by
  intro other h' found
  by_cases here : other = name
  · simp only [here, Session.bind, Names.find?_bind_same, Option.some.injEq] at found
    exact found ▸ has
  · simp only [Session.bind, Names.find?_bind_other _ _ here] at found
    exact before other h' found

theorem erase (before : s.Each P) :
    ({ s with handles := s.handles.erase name } : Session).Each P := by
  intro other h found
  exact before other h (Names.find?_of_erase found)

theorem bindMade (before : s.Each P) {make : Action Store Handle} (gives : Gives P make) :
    (s.bindMade name make).2.Each P := by
  unfold Session.bindMade
  cases run : make s.store with
  | ok h t => exact (before.same rfl : Each P { s with store := t }).bind (gives s.store h t run)
  | error e t => cases e <;> exact before.same rfl

variable (lasting : Handle.Lasting P)

include lasting

theorem make (before : s.Each P) (what : Making) : (s.make name what).2.Each P := by
  rcases make_handles name what s with same | ⟨h, kind, same⟩
  · exact before.same same
  · exact (before.bind (lasting.made kind)).same same

theorem derive (before : s.Each P) (source : String) (how : Deriving) :
    (s.derive source name how).2.Each P := by
  unfold Session.derive
  cases derives : (s.handles.find? source).bind fun h => derivation? how h s.store with
  | none => exact before
  | some make =>
      obtain ⟨h, found, derives⟩ := Option.bind_eq_some_iff.mp derives
      have gives := lasting.derived (before source h found) derives
      cases how with
      | intoRegion => exact before.erase.bindMade gives
      | _ => exact before.bindMade gives

theorem use (before : s.Each P) (target : String) (how : Use) : (s.use target how).2.Each P := by
  have used := s.use_used target how
  generalize s.use target how = result at used ⊢
  have rebound {h : Handle} {t : Store} (has : P h) :
      ({ s with store := t }.bind target h).Each P :=
    (before.same rfl : Each P { s with store := t }).bind has
  cases used with
  | unfit | inspect => exact before
  | drop => exact before.erase
  | region | segment => exact before.same rfl
  | cursor how found => exact rebound (lasting.cursor how s.store (before target _ found))
  | reader how found => exact rebound (lasting.reader how s.store (before target _ found))
  | writer how found => exact rebound (lasting.writer how s.store (before target _ found))

theorem copy (before : s.Each P) (source target : String) : (s.copy source target).2.Each P := by
  unfold Session.copy
  split
  case h_1 r w reads writes =>
    obtain ⟨read, written⟩ := lasting.copied (c := ⟨s.store, r, w⟩) (before source _ reads)
      (before target _ writes)
    simp only
    rw [Operation.settle_snd]
    exact ((before.same rfl : Each P { s with store := _ }).bind read).bind written
  case h_2 => exact before

theorem step (before : s.Each P) (command : Command) : (s.step command).2.Each P := by
  have performed : (s.perform command).2.Each P := by
    cases command with
    | make name what => exact before.make lasting what
    | derive source name how => exact before.derive lasting source how
    | use target how => exact before.use lasting target how
    | copy source target => exact before.copy lasting source target
    | ask query => exact before.same (s.ask_handles query)
    | unusable target kind => exact before
  exact performed.same (sweep_handles _)

theorem run (before : s.Each P) (commands : List Command) :
    (Session.run commands s).2.Each P := by
  induction commands generalizing s with
  | nil => exact before
  | cons command rest ih => exact ih (before.step lasting command)

end Each

end Session

end BoundedMemory
