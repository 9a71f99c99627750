import BoundedMemory.Proofs.Coherence
import BoundedMemory.Proofs.Sweeping

/-!
What is true of a session after any run. Homes stay apart, each entry of the table of
handles is the one that its name finds, and nothing is left to be swept.
-/

namespace BoundedMemory

namespace Names

variable {α : Type} {names : Names α}

/-- Every entry is found under its name, so no name has two. -/
def Faithful (names : Names α) : Prop :=
  ∀ entry ∈ names.entries, names.find? entry.1 = some entry.2

theorem Faithful.empty : ({} : Names α).Faithful := by
  intro entry member
  cases member

theorem Faithful.erase (h : names.Faithful) (name : String) : (names.erase name).Faithful := by
  intro entry member
  obtain ⟨there, other⟩ := List.mem_filter.mp member
  rw [find?_erase_other names (by simpa using other)]
  exact h entry there

theorem Faithful.bind (h : names.Faithful) (name : String) (a : α) :
    (names.bind name a).Faithful := by
  intro entry member
  rcases List.mem_cons.mp member with rfl | later
  · exact find?_bind_same names name a
  · obtain ⟨there, other⟩ := List.mem_filter.mp later
    rw [find?_bind_other names a (by simpa using other)]
    exact h entry there

/-- What a name finds is in the table, with nothing assumed of it. -/
theorem mem_values_of_find? {name : String} {a : α} (found : names.find? name = some a) :
    a ∈ names.values := by
  unfold find? at found
  rw [List.lookup_eq_some_iff] at found
  obtain ⟨before, after, split, -⟩ := found
  unfold values
  rw [split]
  simp

theorem Faithful.mem_values_iff (h : names.Faithful) {a : α} :
    a ∈ names.values ↔ ∃ name, names.find? name = some a := by
  constructor
  · intro member
    obtain ⟨entry, there, rfl⟩ := List.mem_map.mp member
    exact ⟨entry.1, h entry there⟩
  · rintro ⟨name, found⟩
    exact mem_values_of_find? found

end Names

namespace Session

variable {s : Session} {name : String}

theorem bindMade_handles (name : String) (make : Action Store Handle) (s : Session) :
    (s.bindMade name make).2.handles = s.handles ∨
      ∃ h, (s.bindMade name make).2.handles = s.handles.bind name h := by
  unfold bindMade
  cases make s.store with
  | ok h store => exact .inr ⟨h, rfl⟩
  | error e store => cases e <;> exact .inl rfl

/-- Making binds one name, if it binds anything, to a region or a buffer. -/
theorem make_handles (name : String) (what : Making) (s : Session) :
    (s.make name what).2.handles = s.handles ∨
      ∃ h, (h.kind = .region ∨ h.kind = .buffer) ∧
        (s.make name what).2.handles = s.handles.bind name h := by
  have region (make : Action Store Region) (s : Session) :
      (s.bindRegion name make).2.handles = s.handles ∨
        ∃ h, (h.kind = .region ∨ h.kind = .buffer) ∧
          (s.bindRegion name make).2.handles = s.handles.bind name h := by
    unfold bindRegion bindMade
    rw [Operation.bind_run]
    cases make s.store with
    | ok r store => exact .inr ⟨.region r, .inl rfl, rfl⟩
    | error e store => cases e <;> exact .inl rfl
  have segment (place : SegmentPlace) (look : SegmentKey → Action Store Region) :
      (s.bindSegment name place look).2.handles = s.handles ∨
        ∃ h, (h.kind = .region ∨ h.kind = .buffer) ∧
          (s.bindSegment name place look).2.handles = s.handles.bind name h := by
    have beside := (s.placeKey_alongside place).handles
    unfold bindSegment
    rcases placed : s.placeKey place with ⟨found, after⟩
    rw [placed] at beside
    cases found with
    | ok key =>
        have bound := region (look key) after
        rw [beside] at bound
        exact bound
    | error cause => exact .inl beside
  cases what with
  | newBuffer size bytes =>
      simp only [make, makeBuffer]
      split
      · cases Buffer.allocateWith size bytes s.store with
        | ok id store => exact .inr ⟨.buffer id, .inr rfl, rfl⟩
        | error e store => cases e <;> exact .inl rfl
      · exact .inl rfl
  | nullBuffer length => exact .inr ⟨_, .inr rfl, rfl⟩
  | bufferAgain buffer =>
      simp only [make]
      cases s.buffers.find? buffer with
      | none => exact .inl rfl
      | some id =>
          simp only
          split
          · exact .inr ⟨.buffer id, .inr rfl, rfl⟩
          · exact .inl rfl
  | wrap buffer =>
      simp only [make]
      cases s.buffer? buffer with
      | none => exact .inl rfl
      | some id => exact region _ s
  | wrapWithin buffer offset length =>
      simp only [make]
      cases s.buffer? buffer with
      | none => exact .inl rfl
      | some id => exact region _ s
  | attachSegment place options => exact segment place _
  | createSegment place options => exact segment place _
  | _ => exact region _ s

/-- Deriving binds one name, if it binds anything. One way of it gives its source up. -/
theorem derive_handles (source name : String) (how : Deriving) (s : Session) :
    ∃ table, (table = s.handles ∨ how = .intoRegion ∧ table = s.handles.erase source) ∧
      ((s.derive source name how).2.handles = table ∨
        ∃ h, (s.derive source name how).2.handles = table.bind name h) := by
  unfold derive
  cases (s.handles.find? source).bind fun h => derivation? how h s.store with
  | none => exact ⟨_, .inl rfl, .inl rfl⟩
  | some make =>
      cases how with
      | intoRegion => exact ⟨_, .inr ⟨rfl, rfl⟩, bindMade_handles name make _⟩
      | _ => exact ⟨_, .inl rfl, bindMade_handles name make s⟩

theorem derive_faithful (source name : String) (how : Deriving) (h : s.handles.Faithful) :
    (s.derive source name how).2.handles.Faithful := by
  obtain ⟨table, spared, bound⟩ := derive_handles source name how s
  have faithful : table.Faithful := by
    rcases spared with rfl | ⟨-, rfl⟩
    · exact h
    · exact h.erase source
  rcases bound with same | ⟨handle, same⟩
  · exact same ▸ faithful
  · exact same ▸ faithful.bind name handle

theorem use_faithful (target : String) (how : Use) (h : s.handles.Faithful) :
    (s.use target how).2.handles.Faithful := by
  obtain same | same | ⟨handle, same⟩ := use_handles target how s
  · exact same ▸ h
  · exact same ▸ h.erase target
  · exact same ▸ h.bind target handle

theorem copy_faithful (source target : String) (h : s.handles.Faithful) :
    (s.copy source target).2.handles.Faithful := by
  unfold copy
  split
  · exact (h.bind source _).bind target _
  · exact h

theorem ask_handles (query : Query) (s : Session) : (s.ask query).2.handles = s.handles := by
  cases query with
  | bufferAlive buffer =>
      simp only [ask]
      split <;> rfl
  | segmentSize options => rfl
  | deriveKey place project name =>
      simp only [ask]
      split
      · rfl
      · cases name <;> rfl
  | sameKey a b => exact ((s.key a).2.key_alongside b).handles.trans (s.key_alongside a).handles
  | segmentExists name => exact (s.key_alongside name).handles
  | removeSegment name =>
      simp only [ask]
      split <;> exact (s.key_alongside name).handles

theorem perform_faithful (command : Command) (h : s.handles.Faithful) :
    (s.perform command).2.handles.Faithful := by
  cases command with
  | make name what =>
      rcases make_handles name what s with same | ⟨handle, -, same⟩
      · exact same ▸ h
      · exact same ▸ h.bind name handle
  | derive source name how => exact derive_faithful source name how h
  | use target how => exact use_faithful target how h
  | copy source target => exact copy_faithful source target h
  | ask query => exact s.ask_handles query ▸ h
  | unusable target kind => exact h

/-- What every step of a session leaves in order. -/
structure Tidy (s : Session) : Prop where
  apart : s.store.Apart
  faithful : s.handles.Faithful
  swept : s.Swept

theorem Tidy.empty (machine : Machine) (files : FileTree) :
    (Session.initial machine files).Tidy where
  apart := .empty
  faithful := .empty
  swept := {
    roots := fun _ held => by cases held
    buffers := fun _ alive => by cases alive }

theorem Tidy.step (h : s.Tidy) (command : Command) : (s.step command).2.Tidy where
  apart := (step_performs command h.apart).1
  faithful := by
    show (s.perform command).2.sweep.handles.Faithful
    rw [sweep_handles]
    exact perform_faithful command h.faithful
  swept := sweep_swept _

theorem Tidy.run (h : s.Tidy) (commands : List Command) : (run commands s).2.Tidy := by
  induction commands generalizing s with
  | nil => exact h
  | cons command rest ih => exact ih (h.step command)

theorem run_tidy (machine : Machine) (files : FileTree) (commands : List Command) :
    (Session.run commands (.initial machine files)).2.Tidy :=
  (Tidy.empty machine files).run commands

section Seats

/-- Where names lead is all that decides which roots and buffers are held on to. -/
theorem reaches_iff (h : s.handles.Faithful) {id : RootId} :
    s.reaches id = true ↔ ∃ name r, s.seats name = some (.region r) ∧ r.root = id := by
  have leads (handle : Handle) :
      handle.root? = some id ↔ ∃ r, handle.seat = .region r ∧ r.root = id := by
    cases handle <;> simp [Handle.root?, Handle.seat]
  simp only [reaches, List.any_eq_true, decide_eq_true_eq, h.mem_values_iff, seats,
    Option.map_eq_some_iff]
  constructor
  · rintro ⟨handle, ⟨name, found⟩, rooted⟩
    obtain ⟨r, seat, same⟩ := (leads handle).mp rooted
    exact ⟨name, r, ⟨handle, found, seat⟩, same⟩
  · rintro ⟨name, r, ⟨handle, found, seat⟩, same⟩
    exact ⟨handle, ⟨name, found⟩, (leads handle).mpr ⟨r, seat, same⟩⟩

theorem reaches_of_find? (h : s.handles.Faithful) {r : Region}
    (found : s.handles.find? name = some (.region r)) : s.reaches r.root = true := by
  refine (reaches_iff h).mpr ⟨name, r, ?_, rfl⟩
  simp only [seats, found, Option.map_some, Handle.seat]

theorem holds_iff (h : s.handles.Faithful) {id : BufferId} :
    s.holds id = true ↔
      (∃ name, s.seats name = some (.buffer id)) ∨ s.store.buffersRoot id = true := by
  have leads (handle : Handle) : handle.seat = .buffer id ↔ handle = .buffer id := by
    cases handle <;> simp [Handle.seat]
  simp only [holds, Bool.or_eq_true, List.contains_iff_mem, h.mem_values_iff, seats,
    Option.map_eq_some_iff, leads, exists_eq_right]

end Seats

end Session

end BoundedMemory
