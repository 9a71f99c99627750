import BoundedMemory.Proofs.Steady

/-!
Memory safety. In orderly runs, in which nobody takes a segment away from below its root
and no array is longer than the machine can count, no argument of any command leads to a
raw access outside of live memory, to a sum or product that is no word, or to a transfer
whose two lengths differ.
-/

namespace BoundedMemory

/-- The number and the width of the elements that a transfer works its length out from. -/
def Transfer.elements? : Transfer → Option (Nat × Nat)
  | .readSlice t count _ | .readElements t _ _ count _ | .writeElements t _ _ count _ =>
      some (count, t.width)
  | .writeSlice t vs _ => some (vs.length, t.width)
  | .readBytes count => some (count, 1)
  | .writeBytes bytes => some (bytes.length, 1)
  | .read .. | .write .. | .clear .. => none

/-- A length in bytes that is no word speaks against a transfer before anything else. -/
theorem Transfer.lengthFault?_of_elements? {x : Transfer} {count width : Nat}
    (elements : x.elements? = some (count, width)) (large : Word.modulus ≤ count * width) :
    x.lengthFault? = some Extent.tooLong := by
  have large : ¬ count * width < Word.modulus := Nat.not_lt.mpr large
  cases x <;> cases elements <;> simp_all

namespace Session

/-- What cannot go wrong in a session, whatever is asked of it next. -/
structure Safe (s : Session) : Prop where
  /-- A region is a range of its root, the root one of its block, and a block is a range
  of words. -/
  extents {name : String} {h : Handle} {r : Region} : s.handles.find? name = some h →
    h.seat = .region r → ∃ root b, s.store.roots[r.root]? = some root ∧
      s.store.blocks[root.block]? = some b ∧ r.base + r.length ≤ root.length ∧
      root.base + root.length ≤ b.bytes.length ∧ b.bytes.length < Word.modulus
  /-- Position and limit of a cursor are in order, as are those that it has saved. -/
  cursors {name : String} {c : Cursor} : s.handles.find? name = some (.cursor c) → c.Ordered
  /-- The offset of a stream lies between the ends of its window. -/
  windows {name : String} {w : Window} : s.handles.find? name = some (.reader w) ∨
    s.handles.find? name = some (.writer w) → w.Ordered
  /-- An access that is not refused finds its range in live memory of a valid root. -/
  accesses {name : String} {h : Handle} {r : Region} {access : Access} {operation : String}
    {offset n : Nat} : s.handles.find? name = some h → h.seat = .region r →
      r.refusal? s.store access operation offset n = none → n ≠ 0 →
        ∃ root b, r.Reaches s.store offset n root b
  /-- No step of a command is undefined: each raw access lies inside of such memory, no
  arithmetic leaves the words, and the two lengths of a transfer agree. -/
  defined (command : Command) : (s.step command).1 ≠ .trap
  /-- A number of elements that takes more bytes than there are words is refused, with
  nothing else looked at or changed. -/
  lengths {name : String} {r : Region} {how : RegionUse} {x : Transfer}
    {offset count width : Nat} : s.handles.find? name = some (.region r) →
      r.transfer? how = some (x, offset) → x.elements? = some (count, width) →
        Word.modulus ≤ count * width → s.use name (.region how) = (how.failure Extent.tooLong, s)
  cursorLengths {name : String} {c : Cursor} {how : CursorUse} {x : Transfer}
    {place : Option Nat} {count width : Nat} : s.handles.find? name = some (.cursor c) →
      c.transfer? how = some (x, place) → x.elements? = some (count, width) →
        Word.modulus ≤ count * width →
          s.use name (.cursor how) = (.fault Extent.tooLong, s.bind name (.cursor c))

variable {s : Session}

/-- An access does to a session what its transfer does to memory. -/
theorem use_transfer {name : String} {r : Region} {how : RegionUse} {x : Transfer} {offset : Nat}
    (found : s.handles.find? name = some (.region r))
    (moves : r.transfer? how = some (x, offset)) :
    s.use name (.region how) =
      (((x.run r offset).settle how.failure id s.store).1,
        { s with store := ((x.run r offset).settle how.failure id s.store).2 }) := by
  simp only [use, found, Region.run_use moves]

/-- What is refused changes nothing and tells why. -/
theorem use_refused {name : String} {r : Region} {how : RegionUse} {x : Transfer} {offset : Nat}
    {fault : Fault} (found : s.handles.find? name = some (.region r))
    (moves : r.transfer? how = some (x, offset))
    (refused : x.refusal? r s.store offset = some fault) :
    s.use name (.region how) = (how.failure fault, s) := by
  have run : x.run r offset s.store = .error (.fault fault) s.store := by
    rw [Transfer.run_eq, refused]
  rw [use_transfer found moves]
  unfold Operation.settle
  simp only [run]

theorem use_tooLong {name : String} {r : Region} {how : RegionUse} {x : Transfer} {offset : Nat}
    (found : s.handles.find? name = some (.region r)) (moves : r.transfer? how = some (x, offset))
    (long : x.lengthFault? = some Extent.tooLong) :
    s.use name (.region how) = (how.failure Extent.tooLong, s) := by
  apply use_refused found moves
  unfold Transfer.refusal?
  rw [long, Option.some_or]

theorem use_cursor_tooLong {name : String} {c : Cursor} {how : CursorUse} {x : Transfer}
    {place : Option Nat} (found : s.handles.find? name = some (.cursor c))
    (moves : c.transfer? how = some (x, place)) (long : x.lengthFault? = some Extent.tooLong) :
    s.use name (.cursor how) = (.fault Extent.tooLong, s.bind name (.cursor c)) := by
  have stopped (offset : Nat) :
      c.transferAt x offset s.store = .error (.fault Extent.tooLong) s.store := by
    rw [Cursor.transferAt_run, long]
  have run : how.run (s.store, c) = (.fault Extent.tooLong, s.store, c) := by
    rw [Cursor.run_use moves]
    unfold Operation.settle
    cases place with
    | none => simp only [Cursor.transfer_run, stopped]
    | some offset => simp only [Operation.onFirst_run, stopped]
  simp only [use, found, run]

theorem Ready.safe (ready : s.Ready) : s.Safe where
  extents found leads := by
    obtain ⟨root, there, inside⟩ := (ready.inBounds found).fits leads
    obtain ⟨n, size, within⟩ := ready.sound.placed.roots there
    obtain ⟨b, stored, rfl⟩ := Option.map_eq_some_iff.mp size
    exact ⟨root, b, there, stored, inside, within, ready.sound.placed.words size⟩
  cursors found := (ready.inBounds found).2
  windows found := by
    rcases found with found | found
    · exact (ready.inBounds found).2
    · exact (ready.inBounds found).2
  accesses found leads free some := by
    obtain ⟨valid, -, -, fits⟩ := Region.refusal?_eq_none_iff.mp free
    exact (ready.served found leads).reach valid fits some
  defined command := (ready.perform command).plain
  lengths found moves elements large :=
    use_tooLong found moves (Transfer.lengthFault?_of_elements? elements large)
  cursorLengths found moves elements large :=
    use_cursor_tooLong found moves (Transfer.lengthFault?_of_elements? elements large)

theorem Ready.empty (machine : Machine) (files : FileTree) :
    (Session.initial machine files).Ready where
  sound := .empty
  anchored := .empty machine files
  faithful := .empty
  inBounds found := by cases found

theorem Ready.performed (ready : s.Ready) {command : Command} (orderly : command.Orderly) :
    (s.perform command).2.Ready := by
  have changes : Store.Changes True False s.store (s.perform command).2.store :=
    perform_changes command (fun _ => orderly) ready.anchored.alive
  constructor
  · exact changes.sound ready.sound
  · exact ready.anchored.perform ready.sound.apart command
  · exact perform_faithful command ready.faithful
  · intro name h found
    rcases (ready.perform command).inBounds found with ⟨other, before⟩ | inBounds
    · exact (ready.inBounds before).later changes
    · exact inBounds

theorem Ready.swept (ready : s.Ready) : s.sweep.Ready := by
  have changes : Store.Changes True True s.store s.sweep.store := sweep_changes s
  constructor
  · exact changes.sound ready.sound
  · exact ready.anchored.sweep ready.faithful
  · rw [sweep_handles]
    exact ready.faithful
  · intro name h found
    rw [sweep_handles] at found
    exact (ready.inBounds found).later changes

theorem Ready.step (ready : s.Ready) {command : Command} (orderly : command.Orderly) :
    (s.step command).2.Ready :=
  (ready.performed orderly).swept

/-- An orderly run never comes to a step that is undefined. -/
theorem Ready.run (ready : s.Ready) {commands : List Command}
    (orderly : ∀ command ∈ commands, command.Orderly) :
    (∀ reply ∈ (Session.run commands s).1, reply ≠ .trap) ∧ (Session.run commands s).2.Ready := by
  induction commands generalizing s with
  | nil => exact ⟨fun _ member => (by cases member), ready⟩
  | cons command rest ih =>
      have first := orderly command List.mem_cons_self
      obtain ⟨plain, ready'⟩ := ih (ready.step first) fun other member =>
        orderly other (List.mem_cons_of_mem command member)
      refine ⟨fun reply member => ?_, ready'⟩
      rcases List.mem_cons.mp member with rfl | later
      · exact ready.safe.defined command
      · exact plain reply later

/-- Memory safety: whatever an orderly run has done, with whatever arguments, each of its
steps was defined, and in the session that it leads to nothing can go wrong either. -/
theorem run_safe (machine : Machine) (files : FileTree) {commands : List Command}
    (orderly : ∀ command ∈ commands, command.Orderly) :
    (∀ reply ∈ (Session.run commands (.initial machine files)).1, reply ≠ .trap) ∧
      (Session.run commands (.initial machine files)).2.Safe := by
  obtain ⟨plain, ready⟩ := (Ready.empty machine files).run orderly
  exact ⟨plain, ready.safe⟩

/-- A view of a view of an array, with all that is asked of it at the end of the words. -/
theorem run_safe_far :
    let commands : List Command := [
      .make "array" (.newArray 8),
      .derive "array" "view" (.slice 2 4),
      .derive "view" "cursor" (.cursorWithin 1 3 .native),
      .derive "view" "far" (.slice (Word.modulus - 1) (Word.modulus - 1)),
      .use "view" (.region (.readSlice .u64 (Word.modulus - 1) (Word.modulus - 1) .native)),
      .use "cursor" (.cursor (.advance (Word.modulus - 1)))]
    (∀ command ∈ commands, command.Orderly) ∧
      (∀ reply ∈ (Session.run commands (.initial Host.machine .bare)).1, reply ≠ .trap) ∧
        (Session.run commands (.initial Host.machine .bare)).2.Safe := by
  intro commands
  have orderly : ∀ command ∈ commands, command.Orderly := by
    simp [commands, Command.Orderly, Making.Fits, Word.modulus]
  exact ⟨orderly, run_safe Host.machine .bare orderly⟩

end Session

end BoundedMemory
