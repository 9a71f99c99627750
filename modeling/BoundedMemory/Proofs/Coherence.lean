import BoundedMemory.Proofs.Coherence.Deriving
import BoundedMemory.Proofs.Coherence.Making
import BoundedMemory.Proofs.Coherence.Using

/-!
Sessions on flat memory. Every step of a session is coherent with the arrays of
bytes that its store amounts to. `run_coherent` says that every run of every session
goes this way from the start, through whatever handles its commands name.
-/

namespace BoundedMemory.Session

variable {s : Session}

/-- Removing a segment by its key makes none. -/
theorem removeSegment_cases (key : SegmentKey) (s : Store) :
    (∃ e, Session.removeSegment key s = .error e s) ∨
      ∃ id, s.segmentOf? key = some id ∧
        Session.removeSegment key s = Store.removeSegment id s := by
  unfold Session.removeSegment
  simp only [Operation.bind_run]
  rcases Store.findSegment_cases key 0 0 s with
    ⟨e, find⟩ | ⟨id, -, names, -, -, find⟩ | ⟨-, -, find⟩
  · simp only [find]
    exact .inl ⟨e, rfl⟩
  · simp only [find]
    exact .inr ⟨id, names, rfl⟩
  · rcases Store.newSegment_cases key 0 0 s with ⟨e, make⟩ | ⟨some, -⟩
    · simp only [find, make]
      exact .inl ⟨e, rfl⟩
    · exact absurd rfl some

private theorem removeSegment_keeps (key : SegmentKey) (s : Store) :
    s.Keeps (Operation.after (Session.removeSegment key) s) := by
  unfold Operation.after
  obtain ⟨e, fails⟩ | ⟨id, -, removes⟩ := removeSegment_cases key s
  · rw [fails]
    exact .refl s
  · rw [removes]
    exact s.removeSegment_keeps id

theorem ask_performs (query : Query) (h : s.store.Apart) :
    Performs (.ask query) s (s.ask query) := by
  have beside {s' : Session} {reply : Reply} (beside : Alongside s s') :
      Performs (.ask query) s (reply, s') :=
    ⟨beside.store ▸ h, beside.store ▸ rfl, beside.seats⟩
  cases query with
  | bufferAlive buffer =>
      simp only [ask]
      cases (s.buffers.find? buffer).bind fun id => s.store.buffers[id]? <;>
        exact beside ⟨rfl, rfl⟩
  | segmentSize options => exact beside ⟨rfl, rfl⟩
  | deriveKey place project name =>
      simp only [ask]
      cases s.derivedKey place project with
      | error cause => exact beside ⟨rfl, rfl⟩
      | ok key => cases name <;> exact beside ⟨rfl, rfl⟩
  | sameKey a b =>
      have first := s.key_alongside a
      have second := (s.key a).2.key_alongside b
      exact beside ⟨second.store.trans first.store, second.handles.trans first.handles⟩
  | segmentExists name => exact beside (s.key_alongside name)
  | removeSegment name =>
      have named := s.key_alongside name
      have keeps := removeSegment_keeps (s.key name).1 (s.key name).2.store
      unfold Operation.after at keeps
      rw [named.store] at keeps
      have seats (store : Store) : ({ (s.key name).2 with store } : Session).seats = s.seats := by
        funext other
        simp only [Session.seats, named.handles]
      simp only [Performs, ask, Coherent, named.store]
      cases run : Session.removeSegment (s.key name).1 s.store with
      | ok _ store =>
          simp only [run] at keeps
          exact ⟨keeps.apart h, keeps.flat, seats store⟩
      | error e store =>
          simp only [run] at keeps
          exact ⟨keeps.apart h, keeps.flat, seats store⟩

theorem perform_performs (command : Command) (h : s.store.Apart) :
    Performs command s (s.perform command) := by
  cases command with
  | make name what => exact make_performs what h
  | derive source name how => exact derive_performs source how h
  | use target how => exact use_performs target how h
  | copy source target => exact copy_performs source target h
  | ask query => exact ask_performs query h
  | unusable target kind => exact ⟨h, rfl, rfl⟩

/-- A step is coherent: what is swept after a command leaves memory and names alone. -/
theorem step_performs (command : Command) (h : s.store.Apart) :
    Performs command s (s.step command) := by
  obtain ⟨apart, coherent⟩ := perform_performs command h
  have leaves := (s.perform command).2.sweep_leaves
  have seats : (s.perform command).2.sweep.seats = (s.perform command).2.seats := by
    funext name
    simp only [Session.seats, leaves.handles]
  refine ⟨leaves.store.apart apart, ?_⟩
  show Coherent command s (s.perform command).1 (s.perform command).2.sweep.seats s.store.flat
    (s.perform command).2.sweep.store.flat
  rw [seats, leaves.store.flat]
  exact coherent

private theorem follows (commands : List Command) {s : Session} (h : s.store.Apart) :
    Follows commands s s.store.flat := by
  induction commands generalizing s with
  | nil => rfl
  | cons command rest ih =>
      obtain ⟨apart, coherent⟩ := step_performs command h
      exact ⟨rfl, _, coherent, ih apart⟩

/-- Every run of every session is one of flat memory, from the start on: through
whatever handles it goes, and however they overlap, reads show what the arrays hold
at the sum of all bases, writes change that range and nothing else does. -/
theorem run_coherent (machine : Machine) (files : FileTree) (commands : List Command) :
    Follows commands (.initial machine files) .empty := by
  rw [← Store.flat_empty]
  exact follows commands (s := (.initial machine files)) .empty

end BoundedMemory.Session
