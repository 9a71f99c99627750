import BoundedMemory.Proofs.Changes.Running

/-!
What is held on to is there. In any session that a run leads to, the root under a
handle exists and is held, and so are the buffer behind a handle and the buffer under
a root that is held. Between sweeps nothing is let go of, and what is new is held.
-/

namespace BoundedMemory

namespace Store

variable {orderly sweeping : Prop} {s s' : Store}

/-- Buffers under roots that are held are alive. -/
def Attended (s : Store) : Prop :=
  ∀ (id : RootId) (root : Root) (buffer : BufferId), s.roots[id]? = some root →
    root.held = true → root.backing.home id = .buffer buffer → s.bufferAlive buffer = true

theorem Attended.empty {machine : Machine} : ({ machine } : Store).Attended := by
  intro id root buffer found
  cases found

theorem bufferAlive_concat {buffers : List Buffer} {b : Buffer} {id : BufferId}
    (alive : (buffers[id]?).any Buffer.alive = true) :
    ((buffers ++ [b])[id]?).any Buffer.alive = true := by
  cases found : buffers[id]? with
  | none => simp [found] at alive
  | some other =>
      rw [List.getElem?_append_left (List.getElem?_eq_some_iff.mp found).1]
      exact alive

theorem Change.bufferAlive (change : Change orderly sweeping s s') (calm : ¬ sweeping)
    {id : BufferId} (alive : s.bufferAlive id = true) : s'.bufferAlive id = true := by
  cases change with
  | rewrite alike =>
      unfold Store.bufferAlive
      rw [← alike.buffers]
      exact alive
  | endNullBuffer sweeps _ _ => exact absurd sweeps calm
  | endBuffer sweeps _ _ _ => exact absurd sweeps calm
  | addRoot _ founded => cases founded <;> exact alive
  | addBuffer _ _ _ _ => exact bufferAlive_concat alive
  | addNullBuffer _ _ => exact bufferAlive_concat alive
  | _ => exact alive

/-- A root that is new is held, and a buffer under it is alive. -/
theorem Change.born (change : Change orderly sweeping s s') {id : RootId} {root : Root}
    (new : s.roots[id]? = none) (found : s'.roots[id]? = some root) :
    root.held = true ∧
      ∀ buffer, root.backing.home id = .buffer buffer → s'.bufferAlive buffer = true := by
  obtain ⟨held, founded⟩ := change.founded new found
  refine ⟨held, fun buffer lies => ?_⟩
  cases founded with
  | own own _ _ _ =>
      rcases own with array | heap
      · rw [array] at lies
        cases lies
      · rw [heap] at lies
        cases lies
  | wraps found₁ alive behind _ _ =>
      rw [behind] at lies
      cases lies
      simpa only [Store.bufferAlive, found₁, Option.any_some] using alive
  | attached _ _ _ _ behind _ _ =>
      rw [behind] at lies
      cases lies

theorem Change.held (change : Change orderly sweeping s s') (calm : ¬ sweeping) {id : RootId}
    {root' : Root} (before : ∀ root, s.roots[id]? = some root → root.held = true)
    (found' : s'.roots[id]? = some root') : root'.held = true := by
  cases found : s.roots[id]? with
  | none => exact (change.born found found').1
  | some root =>
      obtain ⟨_, same, later⟩ := change.later found
      rw [found', Option.some.injEq] at same
      rw [same, later.held calm]
      exact before root found

theorem Change.attended (change : Change orderly sweeping s s') (calm : ¬ sweeping)
    (h : s.Attended) : s'.Attended := by
  intro id root' buffer found' held lies
  cases found : s.roots[id]? with
  | none => exact (change.born found found').2 buffer lies
  | some root =>
      obtain ⟨_, same, later⟩ := change.later found
      rw [found', Option.some.injEq] at same
      subst same
      rw [later.held calm] at held
      rw [later.home] at lies
      exact change.bufferAlive calm (h id root buffer found held lies)

theorem Changes.bufferAlive (changes : Changes orderly sweeping s s') (calm : ¬ sweeping)
    {id : BufferId} (alive : s.bufferAlive id = true) : s'.bufferAlive id = true := by
  induction changes with
  | refl => exact alive
  | tail _ change ih => exact change.bufferAlive calm ih

theorem Changes.held (changes : Changes orderly sweeping s s') (calm : ¬ sweeping) {id : RootId}
    {root' : Root} (before : ∀ root, s.roots[id]? = some root → root.held = true)
    (found' : s'.roots[id]? = some root') : root'.held = true := by
  induction changes generalizing root' with
  | refl => exact before root' found'
  | tail _ change ih => exact change.held calm (fun _ found => ih found) found'

theorem Changes.attended (changes : Changes orderly sweeping s s') (calm : ¬ sweeping)
    (h : s.Attended) : s'.Attended := by
  induction changes with
  | refl => exact h
  | tail _ change ih => exact change.attended calm ih

/-- What is held stays so between sweeps. -/
theorem Changes.rootHeld (changes : Changes orderly sweeping s s') (calm : ¬ sweeping) {id : RootId}
    (held : s.rootHeld id = true) : s'.rootHeld id = true := by
  unfold Store.rootHeld at held ⊢
  cases found : s.roots[id]? with
  | none => simp [found] at held
  | some root =>
      obtain ⟨root', found', later⟩ := changes.later found
      rw [found, Option.any_some] at held
      rw [found', Option.any_some, later.held calm, held]

end Store

/-- A page buffer comes last, with the one new block and as many pages as it needs. -/
theorem Buffer.allocateWith_made {size : Nat} {bytes : Bytes} {s s' : Store} {id : BufferId}
    (run : allocateWith size bytes s = .ok id s') :
    s.grantsBuffer size = .ok () ∧ id = s.buffers.length ∧ s'.buffers[id]? = some {
      block := some s.blocks.length
      length := size
      capacity := Machine.pageCapacity s.machine.pageSize size } := by
  rw [allocateWith_run] at run
  cases granted : s.grantsBuffer size with
  | error e =>
      rw [granted] at run
      cases run
  | ok _ =>
      rw [granted] at run
      cases written : (s.withBuffer size).write? s.blocks.length 0 bytes with
      | none =>
          rw [written] at run
          cases run
      | some after =>
          rw [written] at run
          cases run
          refine ⟨rfl, rfl, ?_⟩
          rw [← (Store.write?_resembles written).buffers, s.withBuffer_buffer size]

theorem Buffer.allocateWith_alive {size : Nat} {bytes : Bytes} {s s' : Store} {id : BufferId}
    (run : allocateWith size bytes s = .ok id s') : s'.bufferAlive id = true := by
  rw [Store.bufferAlive, (allocateWith_made run).2.2]
  rfl

namespace Session

/-- Whatever names lead to is there, and nobody has let go of it. -/
structure Anchored (s : Session) : Prop where
  roots {name : String} {r : Region} :
    s.seats name = some (.region r) → s.store.rootHeld r.root = true
  buffers {name : String} {id : BufferId} :
    s.seats name = some (.buffer id) → s.store.bufferAlive id = true
  attended : s.store.Attended

variable {s : Session}

theorem Anchored.empty (machine : Machine) (files : FileTree) :
    (Session.initial machine files).Anchored where
  roots seat := by cases seat
  buffers seat := by cases seat
  attended := .empty

/-- The buffer that a handle is on can still be wrapped. -/
theorem Anchored.alive (h : s.Anchored) (name : String) (id : BufferId)
    (found : s.buffer? name = some id) : s.store.bufferAlive id = true := by
  apply @Anchored.buffers s h name
  unfold buffer? at found
  unfold seats
  split at found
  · rename_i bound
    cases found
    simp only [bound, Option.map_some, Handle.seat]
  · cases found

/-- What was held on to before still is, and what names lead to now was held on to or is
held on to since. -/
theorem Anchored.of_changes {s' : Session} (h : s.Anchored)
    (changes : Store.Changes False False s.store s'.store)
    (seats : ∀ name seat, s'.seats name = some seat →
      (∃ other, s.seats other = some seat) ∨
        match seat with
        | .region r => s'.store.rootHeld r.root = true
        | .buffer id => s'.store.bufferAlive id = true) : s'.Anchored where
  roots {name r} seat := by
    rcases seats name _ seat with ⟨other, before⟩ | new
    · exact changes.rootHeld id (h.roots before)
    · exact new
  buffers {name b} seat := by
    rcases seats name _ seat with ⟨other, before⟩ | new
    · exact changes.bufferAlive id (h.buffers before)
    · exact new
  attended := changes.attended id h.attended

theorem Anchored.perform_changes (h : s.Anchored) {sweeping : Prop} (command : Command) :
    Store.Changes False sweeping s.store (s.perform command).2.store :=
  Session.perform_changes command (fun disorder => disorder.elim) h.alive

/-- The buffer that a making binds is alive. -/
private theorem make_alive {name : String} {what : Making} {id : BufferId} {M M' : FlatMemory}
    (bound : (s.make name what).1 = .bound) (lays : what.Lays s M M' (.buffer id))
    (seat : (s.make name what).2.seats name = some (.buffer id)) :
    (s.make name what).2.store.bufferAlive id = true := by
  have same {t : Session} {h : Handle} (found : (t.bind name h).seats name = some (.buffer id)) :
      h.seat = .buffer id := by
    rw [seats_bind] at found
    simpa only [Seats.set, if_true, Option.some.injEq] using found
  cases what with
  | newBuffer size bytes =>
      simp only [make, makeBuffer] at bound seat ⊢
      split at bound
      · rename_i usable
        simp only [usable] at seat ⊢
        cases run : Buffer.allocateWith size bytes s.store with
        | ok other store =>
            simp only [run] at seat ⊢
            cases same seat
            exact Buffer.allocateWith_alive run
        | error e store =>
            simp only [run] at bound
            cases e <;> cases bound
      · cases bound
  | nullBuffer length =>
      have here : Handle.seat (.buffer s.store.buffers.length) = .buffer id := same seat
      cases here
      show ((s.store.buffers ++ [_])[s.store.buffers.length]?).any Buffer.alive = true
      rw [List.getElem?_concat_length]
      rfl
  | bufferAgain buffer =>
      simp only [make] at bound seat ⊢
      cases found : s.buffers.find? buffer with
      | none =>
          rw [found] at bound
          cases bound
      | some other =>
          simp only [found] at bound seat ⊢
          by_cases alive : (s.store.buffers[other]?).any (·.alive) = true
          · simp only [alive, if_true] at seat ⊢
            cases same seat
            exact alive
          · rw [if_neg alive] at bound
            cases bound
  | _ => exact lays.elim

theorem Anchored.make (h : s.Anchored) (apart : s.store.Apart) (name : String) (what : Making) :
    (s.make name what).2.Anchored := by
  have changes : Store.Changes False False s.store (s.make name what).2.store :=
    h.perform_changes (.make name what)
  have reply := (perform_performs (.make name what) apart).2.2
  have same : s.perform (.make name what) = s.make name what := rfl
  rw [same] at reply
  have still (same : (s.make name what).2.seats = s.seats) : (s.make name what).2.Anchored := by
    apply h.of_changes changes
    intro other seat found
    exact .inl ⟨other, same ▸ found⟩
  cases answer : (s.make name what).1 with
  | bound =>
      simp only [answer] at reply
      obtain ⟨seat, seats, lays⟩ := reply
      apply h.of_changes changes
      intro other seat' found
      rw [seats] at found
      rcases Seats.of_set found with ⟨-, new⟩ | before
      · cases new
        right
        cases seat with
        | buffer id =>
            refine make_alive answer lays ?_
            rw [seats]
            exact if_pos rfl
        | region r =>
            obtain ⟨new, lies⟩ := lays
            have ground : ((s.make name what).2.store.flat.grounds r.root).isSome := by
              have added (M : FlatMemory) (ground : Ground) :
                  ((M.add r.root ground).grounds r.root).isSome := by
                simp [FlatMemory.add]
              cases what with
              | wrap buffer =>
                  obtain ⟨_, _, -, -, -, shared⟩ := lies
                  exact shared ▸ added _ _
              | wrapWithin buffer offset length =>
                  obtain ⟨_, -, -, shared⟩ := lies
                  exact shared ▸ added _ _
              | attachSegment place options =>
                  obtain ⟨_, _, -, -, shared⟩ := lies
                  exact shared ▸ added _ _
              | createSegment place options =>
                  obtain ⟨_, _, -, -, shared⟩ := lies
                  exact shared ▸ added _ _
              | newBuffer size bytes => exact lies.elim
              | nullBuffer length => exact lies.elim
              | bufferAgain buffer => exact lies.elim
              | _ => exact lies.2 ▸ added _ _
            simp only [Store.flat, Option.map_eq_none_iff, Option.isSome_map] at new ground
            obtain ⟨root, there⟩ := Option.isSome_iff_exists.mp ground
            show (_ : Option Root).any Root.held = true
            rw [there]
            refine changes.held id ?_ there
            intro root before
            rw [new] at before
            cases before
      · exact .inl ⟨other, before⟩
  | _ =>
      simp only [answer] at reply
      exact still reply

theorem Anchored.derive (h : s.Anchored) (apart : s.store.Apart) (source name : String)
    (how : Deriving) : (s.derive source name how).2.Anchored := by
  have changes : Store.Changes False False s.store (s.derive source name how).2.store :=
    h.perform_changes (.derive source name how)
  have reply := (perform_performs (.derive source name how) apart).2.2
  have same : s.perform (.derive source name how) = s.derive source name how := rfl
  rw [same] at reply
  cases answer : (s.derive source name how).1 with
  | bound =>
      simp only [answer] at reply
      obtain ⟨handle, r', found, derived, seats⟩ := reply
      obtain ⟨r, seat, root, -⟩ := Handle.derived?_cases derived
      have source : s.seats source = some (.region r) := by
        simp only [Session.seats, found, Option.map_some, seat]
      apply h.of_changes changes
      intro other seat leads
      rw [seats] at leads
      rcases Seats.of_set leads with ⟨-, new⟩ | before
      · cases new
        right
        show _ = true
        rw [root]
        exact changes.rootHeld id (h.roots source)
      · rcases how.begun_cases _ s.seats other with same | ⟨-, gone⟩
        · exact .inl ⟨other, same ▸ before⟩
        · rw [gone] at before
          cases before
  | _ =>
      simp only [answer] at reply
      apply h.of_changes changes
      intro other seat found
      exact .inl ⟨other, reply ▸ found⟩

theorem Anchored.perform (h : s.Anchored) (apart : s.store.Apart) (command : Command) :
    (s.perform command).2.Anchored := by
  have changes : Store.Changes False False s.store (s.perform command).2.store :=
    h.perform_changes command
  obtain ⟨-, coherent⟩ := perform_performs command apart
  have still (same : (s.perform command).2.seats = s.seats) : (s.perform command).2.Anchored := by
    apply h.of_changes changes
    intro other seat found
    exact .inl ⟨other, same ▸ found⟩
  cases command with
  | make name what => exact h.make apart name what
  | derive source name how => exact h.derive apart source name how
  | copy source target => exact still coherent.1
  | ask query => exact still coherent.2
  | unusable target reason => exact still coherent.2
  | use target how =>
      cases how with
      | drop =>
          apply h.of_changes changes
          intro other seat found
          rw [show (s.perform (.use target .drop)).2.seats = s.seats.set target none from
            coherent.2] at found
          rcases Seats.of_set found with ⟨-, nowhere⟩ | before
          · cases nowhere
          · exact .inl ⟨other, before⟩
      | _ => exact still coherent.2

/-- A sweep takes nothing that anybody holds. -/
theorem Anchored.sweep (h : s.Anchored) (faithful : s.handles.Faithful) : s.sweep.Anchored := by
  have seats : s.sweep.seats = s.seats := by
    unfold Session.seats
    rw [sweep_handles]
  have reaches {id : RootId} (held : s.sweep.store.rootHeld id = true) :
      s.store.rootHeld id = true := by
    rw [rootHeld_sweep, Bool.and_eq_true] at held
    exact held.1
  have faithful' : s.sweep.handles.Faithful := by
    rw [sweep_handles]
    exact faithful
  constructor
  · intro name r seat
    rw [seats] at seat
    rw [rootHeld_sweep, h.roots seat, Bool.true_and, reaches_iff faithful]
    exact ⟨name, r, seat, rfl⟩
  · intro name id seat
    rw [bufferAlive_sweep, h.buffers (seats ▸ seat), Bool.true_and, holds_iff faithful']
    exact .inl ⟨name, seat⟩
  · -- A buffer under a root that is left was alive before, and is held by the root.
    intro id root' buffer found' held lies
    have under : s.sweep.store.buffersRoot buffer = true := by
      simp only [Store.buffersRoot, List.any_eq_true]
      refine ⟨root', List.mem_of_getElem? found', ?_⟩
      rw [held, Bool.true_and]
      cases behind : root'.backing with
      | buffer wrapped valid =>
          rw [behind] at lies
          cases lies
          simp
      | _ =>
          rw [behind] at lies
          cases lies
    rw [bufferAlive_sweep, Bool.and_eq_true, holds_iff faithful']
    refine ⟨?_, .inr under⟩
    have changes : Store.Changes False True s.store s.sweep.store := s.sweep_changes
    have before : s.store.rootHeld id = true := by
      apply reaches
      rw [Store.rootHeld, found', Option.any_some, held]
    cases found : s.store.roots[id]? with
    | none => simp [Store.rootHeld, found] at before
    | some root =>
        obtain ⟨_, same, later⟩ := changes.later found
        rw [found', Option.some.injEq] at same
        subst same
        rw [later.home] at lies
        rw [Store.rootHeld, found, Option.any_some] at before
        exact h.attended id root buffer found before lies

theorem Anchored.step (h : s.Anchored) (tidy : s.Tidy) (command : Command) :
    (s.step command).2.Anchored :=
  (h.perform tidy.apart command).sweep (perform_faithful command tidy.faithful)

theorem Anchored.run (h : s.Anchored) (tidy : s.Tidy) (commands : List Command) :
    (Session.run commands s).2.Anchored := by
  induction commands generalizing s with
  | nil => exact h
  | cons command rest ih => exact ih (h.step tidy command) (tidy.step command)

theorem run_anchored (machine : Machine) (files : FileTree) (commands : List Command) :
    (Session.run commands (.initial machine files)).2.Anchored :=
  (Anchored.empty machine files).run (.empty machine files) commands

/-- Runs as elementary changes. -/
theorem Anchored.run_changes (h : s.Anchored) (tidy : s.Tidy) (commands : List Command) :
    Store.Changes False True s.store (Session.run commands s).2.store := by
  induction commands generalizing s with
  | nil => exact .refl
  | cons command rest ih =>
      have first : Store.Changes False True s.store (s.step command).2.store :=
        (h.perform_changes command).trans (sweep_changes _)
      exact first.trans (ih (h.step tidy command) (tidy.step command))

/-- A session stays on the machine that it was set up with. -/
theorem run_machine (machine : Machine) (files : FileTree) (commands : List Command) :
    (Session.run commands (.initial machine files)).2.store.machine = machine :=
  ((Anchored.empty machine files).run_changes (.empty machine files) commands).machine

end Session

end BoundedMemory
