import BoundedMemory.Proofs.Seeking
import BoundedMemory.Proofs.StreamAccess

/-!
What writers leave behind. A write that fits and is allowed puts its bytes where the writer
stands, and no other use of a writer puts any. So after any uses of a writer, one after another
or with others in between that leave its window alone, each byte of the window is the one that
was put there last, or what it was before, and nothing outside of the window has changed.
-/

namespace BoundedMemory

/-- The byte that is put last at a place by some writes, each of some bytes from a place on. -/
def lastPut : List (Nat × Bytes) → Nat → Option UInt8
  | [], _ => none
  | (offset, bytes) :: later, i =>
      (lastPut later i).or (if offset ≤ i then bytes[i - offset]? else none)

theorem lastPut_append (first later : List (Nat × Bytes)) (i : Nat) :
    lastPut (first ++ later) i = (lastPut later i).or (lastPut first i) := by
  induction first with
  | nil => exact (Option.or_none).symm
  | cons put rest ih => rw [List.cons_append, lastPut, lastPut, ih, Option.or_assoc]

/-- What a use of a writer put and where, going by the reply to it. -/
def WriterUse.put (how : WriterUse) (w : Window) (reply : Reply) : List (Nat × Bytes) :=
  match how.writes? with
  | some (bytes, _) => if reply.isFailure then [] else [(w.offset, bytes)]
  | none => []

/-- Uses put one after another to the writer that a name stands for. -/
def WriterUse.commands (hows : List WriterUse) (name : String) : List Command :=
  hows.map fun how => .use name (.writer how)

namespace FlatMemory

variable {M M₁ : FlatMemory} {r : Region} {offset : Nat} {bytes : Bytes}

/-- A byte after a write is the one that was written there, or the one before. -/
theorem read?_put (written : M.write? r offset bytes = some M₁) (i : Nat) :
    M₁.read? r i 1 = ((lastPut [(offset, bytes)] i).map ([·])).or (M.read? r i 1) := by
  simp only [lastPut, Option.none_or]
  rcases Decidable.em (offset ≤ i ∧ i - offset < bytes.length) with inside | outside
  · have byte := read?_byte (read?_written written) inside.2
    have found : bytes[i - offset]? = some bytes[i - offset] := List.getElem?_eq_getElem inside.2
    simp only [cut, List.take_one, List.head?_drop, Nat.add_sub_cancel' inside.1, found] at byte
    rw [byte, if_pos inside.1, found]
    rfl
  · have apart : i + 1 ≤ offset ∨ offset + bytes.length ≤ i := by omega
    have none : (if offset ≤ i then bytes[i - offset]? else none) = none := by
      split
      · exact List.getElem?_eq_none (by omega)
      · rfl
    rw [(clear_of_apart apart).read? written, none]
    rfl

end FlatMemory

variable {s : Store} {w : Window}

namespace WriterUse

variable {how : WriterUse} {bytes : Bytes} {reply : Reply}

theorem untouched (idle : how.writes? = none) (w : Window) : w.writerTouch? how = none := by
  cases how <;> first | rfl | cases idle

/-- A use of a writer puts nothing, or it puts some bytes where the writer stands. -/
theorem run_put (how : WriterUse) (apart : s.Apart) (w : Window) :
    how.put w (how.run (s, w)).1 = [] ∧ (how.run (s, w)).2.1.flat = s.flat ∨
      ∃ bytes, how.put w (how.run (s, w)).1 = [(w.offset, bytes)] ∧
        bytes.length ≤ w.available ∧
          s.flat.write? w.region w.offset bytes = some (how.run (s, w)).2.1.flat := by
  have touches := (how.handled (w := w) apart).touches
  unfold put
  cases writes : how.writes? with
  | none =>
      rw [untouched writes w] at touches
      exact .inl ⟨rfl, touches⟩
  | some found =>
      obtain ⟨bytes, reply⟩ := found
      have touch := (w.writerTouch?_of_writes writes).1
      rw [touch] at touches
      unfold Touches Touch.Shows at touches
      simp only [Window.writeTouch, Transfer.onFlat?, Transfer.direction, Transfer.payload,
        Option.map_eq_some_iff, Prod.mk.injEq] at touches
      cases failure : (how.run (s, w)).1.isFailure with
      | true =>
          rw [failure] at touches
          exact .inl ⟨rfl, touches⟩
      | false =>
          rw [failure] at touches
          obtain ⟨_, ⟨_, written, -, rfl⟩, -⟩ := touches
          refine .inr ⟨bytes, rfl, Nat.not_lt.mp fun full => ?_, written⟩
          obtain rfl | ⟨told, telling, same⟩ := run_writes writes
          · cases writes
            cases full
          · rw [same, Operation.settle, Writer.write_full full] at failure
            rw [Reply.isFailure_of_told (telling _)] at failure
            cases failure

/-- What fits and is allowed is put in memory. -/
theorem run_fitting (h : w.Ordered) (served : w.region.Served s) (apart : s.Apart)
    (writes : how.writes? = some (bytes, reply)) (tried : how ≠ .writeAll [])
    (fits : bytes.length ≤ w.available)
    (allowed : w.region.isValid s = true ∧ w.region.isWritable = true) :
    ∃ store, how.run (s, w) = (reply, store, w.moved bytes.length) ∧
      s.flat.write? w.region w.offset bytes = some store.flat := by
  obtain ⟨told, -, same⟩ := (run_writes writes).resolve_left tried
  obtain ⟨store, run, -, written⟩ := Writer.write_allowed h served apart fits allowed
  exact ⟨store, by rw [same, Operation.settle, run], written⟩

/-- What does not fit or is not allowed is refused, for want of room in the first place. -/
theorem run_refused (h : w.Ordered) (served : w.region.Served s)
    (writes : how.writes? = some (bytes, reply)) (tried : how ≠ .writeAll [])
    (refused : ¬ (bytes.length ≤ w.available ∧
      w.region.isValid s = true ∧ w.region.isWritable = true)) :
    ∃ cause, (how.run (s, w) = (.fault cause, s, w) ∨
        how.run (s, w) = (.streamFault (.access cause), s, w)) ∧
      (w.available < bytes.length → cause = .capacityExceeded bytes.length w.available) := by
  obtain ⟨told, telling, same⟩ := (run_writes writes).resolve_left tried
  have tell {cause : Fault} (run : Writer.write bytes (s, w) = .error (.fault cause) (s, w)) :
      how.run (s, w) = (.fault cause, s, w) ∨
        how.run (s, w) = (.streamFault (.access cause), s, w) := by
    rw [same, Operation.settle, run]
    exact (telling cause).imp (congrArg (·, s, w)) (congrArg (·, s, w))
  rcases Nat.lt_or_ge w.available bytes.length with full | fits
  · exact ⟨_, tell (Writer.write_full full s), fun _ => rfl⟩
  · obtain ⟨cause, run⟩ :=
      Writer.write_turned h served fits fun allowed => refused ⟨fits, allowed⟩
    exact ⟨cause, tell run, fun full => absurd fits (Nat.not_le.mpr full)⟩

theorem run_still (idle : how.writes? = none) : (how.run (s, w)).2.1 = s := by
  have alters := (how.altered (s := s) (w := w)).alters
  rw [untouched idle w] at alters
  exact alters

/-- No use changes what has no byte in common with the window. -/
theorem run_outside (how : WriterUse) (h : w.Ordered) (apart : s.Apart) {r : Region}
    {offset n : Nat} (clear : s.flat.Clear r offset n w.region w.start w.length) :
    (how.run (s, w)).2.1.flat.read? r offset n = s.flat.read? r offset n ∧
      (how.run (s, w)).2.1.flat.grounds = s.flat.grounds := by
  obtain ⟨-, same⟩ | ⟨bytes, -, fits, written⟩ := how.run_put apart w
  · rw [same]
    exact ⟨rfl, rfl⟩
  · refine ⟨?_, FlatMemory.write?_grounds written⟩
    have begun := h.begun
    have ended := h.ended
    have whole : 0 + n ≤ n := Nat.le_of_eq (Nat.zero_add n)
    have part : (w.offset - w.start) + bytes.length ≤ w.length := by
      unfold Window.available at fits
      unfold Window.length
      omega
    have inner := clear.inner whole part
    rw [Nat.add_zero, Nat.add_sub_cancel' begun] at inner
    exact inner.read? written

end WriterUse

namespace Session

variable {s : Session} {name : String}

/-- All that the writer under a name put in a run, in order. -/
def puts (name : String) : List Command → Session → List (Nat × Bytes)
  | [], _ => []
  | command :: rest, s =>
      let put := match command, s.handles.find? name with
        | .use target (.writer how), some (.writer w) =>
            if target = name then how.put w (s.step command).1 else []
        | _, _ => []
      put ++ puts name rest (s.step command).2

/-- A run in which all but the writer under a name leave a range of a region as it is. -/
inductive LeftAlone (name : String) (r : Region) (start stop : Nat) :
    List Command → Session → Prop where
  | nil (s : Session) : LeftAlone name r start stop [] s
  | own {s : Session} {rest : List Command} (how : WriterUse)
      (later : LeftAlone name r start stop rest (s.step (.use name (.writer how))).2) :
      LeftAlone name r start stop (.use name (.writer how) :: rest) s
  | other {s : Session} {command : Command} {rest : List Command}
      (foreign : ∀ how, command ≠ .use name (.writer how)) (orderly : command.Orderly)
      (leaves : command.Leaves name)
      (same : ∀ i, start ≤ i → i < stop →
        (s.step command).2.store.flat.read? r i 1 = s.store.flat.read? r i 1)
      (later : LeftAlone name r start stop rest (s.step command).2) :
      LeftAlone name r start stop (command :: rest) s

variable {w : Window} {commands rest : List Command} {command : Command}

theorem Ready.framed (ready : s.Ready) : s.Each Handle.Framed := by
  intro name h found w window
  have inBounds := ready.inBounds found
  cases h with
  | reader w' | writer w' =>
      cases window
      exact inBounds.2
  | _ => cases window

theorem puts_own (found : s.handles.find? name = some (.writer w)) (how : WriterUse) :
    puts name (.use name (.writer how) :: rest) s =
      how.put w (s.step (.use name (.writer how))).1 ++
        puts name rest (s.step (.use name (.writer how))).2 := by
  simp only [puts, found, if_true]

theorem puts_other (foreign : ∀ how, command ≠ .use name (.writer how)) :
    puts name (command :: rest) s = puts name rest (s.step command).2 := by
  simp only [puts]
  split
  · split
    · rename_i how w _ here
      rw [here] at foreign
      exact absurd rfl (foreign how)
    · rfl
  · rfl

/-- What some writes of a writer leave between two sessions, of itself and in its window. -/
structure Wrote (name : String) (w : Window) (puts : List (Nat × Bytes)) (s : Session)
    (w' : Window) (s' : Session) : Prop where
  found : s'.handles.find? name = some (.writer w')
  slides : w.Slides w'
  inside : ∀ put ∈ puts, w.start ≤ put.1 ∧ put.1 + put.2.length ≤ w.stop
  /-- Each byte of the window is the one that was put last, or the one before. -/
  bytes : ∀ i, w.start ≤ i → i < w.stop → s'.store.flat.read? w.region i 1 =
    ((lastPut puts i).map ([·])).or (s.store.flat.read? w.region i 1)

variable {w₁ w₂ : Window} {s₁ s₂ : Session} {first later : List (Nat × Bytes)}

theorem Wrote.append (before : Wrote name w first s w₁ s₁) (after : Wrote name w₁ later s₁ w₂ s₂) :
    Wrote name w (first ++ later) s w₂ s₂ := by
  obtain ⟨offset, -, -, rfl⟩ := before.slides
  refine ⟨after.found, after.slides, fun put member => ?_, fun i low high => ?_⟩
  · rcases List.mem_append.mp member with here | there
    · exact before.inside put here
    · exact after.inside put there
  · rw [after.bytes i low high, before.bytes i low high, lastPut_append, Option.map_or,
      Option.or_assoc]

theorem Ready.wrote_own (ready : s.Ready) (tidy : s.Tidy)
    (found : s.handles.find? name = some (.writer w)) (how : WriterUse) :
    ∃ w', Wrote name w (how.put w (s.step (.use name (.writer how))).1) s w'
      (s.step (.use name (.writer how))).2 := by
  have h : w.Ordered := (ready.inBounds found).2
  rw [tidy.step_writer found how]
  obtain ⟨nothing, same⟩ | ⟨bytes, some, fits, written⟩ := how.run_put tidy.apart w
  · rw [nothing]
    exact ⟨_, Names.find?_bind_same _ _ _, how.slides h, fun put member => (by cases member),
      fun i _ _ => congrArg (FlatMemory.read? · w.region i 1) same⟩
  · rw [some]
    refine ⟨_, Names.find?_bind_same _ _ _, how.slides h, fun put member => ?_,
      fun i _ _ => FlatMemory.read?_put written i⟩
    obtain rfl := List.mem_singleton.mp member
    have begun := h.begun
    have ended := h.ended
    unfold Window.available at fits
    exact ⟨begun, by show w.offset + bytes.length ≤ w.stop; omega⟩

theorem Ready.wrote_other (ready : s.Ready) (found : s.handles.find? name = some (.writer w))
    (leaves : command.Leaves name) (same : ∀ i, w.start ≤ i → i < w.stop →
      (s.step command).2.store.flat.read? w.region i 1 = s.store.flat.read? w.region i 1) :
    ∃ w', Wrote name w [] s w' (s.step command).2 := by
  obtain ⟨h', there, slides⟩ := step_slides command ready.framed rfl found leaves
  cases slides with
  | writer slides => exact ⟨_, there, slides, fun put member => (by cases member), same⟩

/-- What all of a run has written while the window was left alone by others. -/
theorem Ready.run_wrote (ready : s.Ready) (tidy : s.Tidy)
    (found : s.handles.find? name = some (.writer w))
    (alone : LeftAlone name w.region w.start w.stop commands s) :
    ∃ w', Wrote name w (puts name commands s) s w' (Session.run commands s).2 := by
  -- The window is the same after each step, but for where the writer stands in it.
  induction commands generalizing s w with
  | nil =>
      have h : w.Ordered := (ready.inBounds found).2
      exact ⟨w, found, h.stays, fun put member => (by cases member), fun _ _ _ => rfl⟩
  | cons command rest ih =>
      have tidy' := tidy.step command
      cases alone with
      | own how alone =>
          obtain ⟨w₁, first⟩ := ready.wrote_own tidy found how
          obtain ⟨offset, -, -, rfl⟩ := first.slides
          have orderly : (Command.use name (.writer how)).Orderly := trivial
          obtain ⟨w₂, later⟩ := ih (ready.step orderly) tidy' first.found alone
          rw [puts_own found]
          exact ⟨w₂, first.append later⟩
      | other foreign orderly leaves same alone =>
          obtain ⟨w₁, first⟩ := ready.wrote_other found leaves same
          obtain ⟨offset, -, -, rfl⟩ := first.slides
          obtain ⟨w₂, later⟩ := ih (ready.step orderly) tidy' first.found alone
          rw [puts_other foreign]
          exact ⟨w₂, first.append later⟩

/-- Uses of the writer alone change nothing outside of its window. -/
theorem Ready.run_outside (ready : s.Ready) (tidy : s.Tidy)
    (found : s.handles.find? name = some (.writer w)) (hows : List WriterUse) {r : Region}
    {offset n : Nat} (clear : s.store.flat.Clear r offset n w.region w.start w.length) :
    (Session.run (WriterUse.commands hows name) s).2.store.flat.read? r offset n =
      s.store.flat.read? r offset n := by
  induction hows generalizing s w with
  | nil => rfl
  | cons how rest ih =>
      have h : w.Ordered := (ready.inBounds found).2
      obtain ⟨same, grounds⟩ := how.run_outside h tidy.apart clear
      obtain ⟨w₁, first⟩ := ready.wrote_own tidy found how
      obtain ⟨offset, -, -, rfl⟩ := first.slides
      have orderly : (Command.use name (.writer how)).Orderly := trivial
      have store : (s.step (.use name (.writer how))).2.store = (how.run (s.store, w)).2.1 := by
        rw [tidy.step_writer found how]
        rfl
      rw [← store] at same grounds
      exact (ih (ready.step orderly) (tidy.step _) first.found (clear.congr grounds)).trans same

theorem leftAlone_own (hows : List WriterUse) (r : Region) (start stop : Nat) (s : Session) :
    LeftAlone name r start stop (WriterUse.commands hows name) s := by
  induction hows generalizing s with
  | nil => exact .nil s
  | cons how rest ih => exact .own how (ih _)

/-- What a writer does to memory. -/
structure Writes (s : Session) (name : String) (w : Window) : Prop where
  /-- A write that fits goes through exactly if the region is valid and may be written. Then
  just its bytes are put where the writer stands, and the writer moves past them. What does not
  fit is refused for that, whatever the region; in any case nothing changes in a refusal. -/
  write {how : WriterUse} {bytes : Bytes} {reply : Reply} :
    how.writes? = some (bytes, reply) → how ≠ .writeAll [] →
      if bytes.length ≤ w.available ∧ w.region.isValid s.store = true ∧
          w.region.isWritable = true then
        ∃ store, how.run (s.store, w) = (reply, store, w.moved bytes.length) ∧
          s.store.flat.write? w.region w.offset bytes = some store.flat
      else ∃ cause, (how.run (s.store, w) = (.fault cause, s.store, w) ∨
          how.run (s.store, w) = (.streamFault (.access cause), s.store, w)) ∧
        (w.available < bytes.length → cause = .capacityExceeded bytes.length w.available)
  /-- To seek and to skip changes no memory. -/
  still {how : WriterUse} : how.writes? = none → (how.run (s.store, w)).2.1 = s.store
  /-- In any run in which nobody else writes to the window, what is put stays inside, and
  each byte of the window is the one that was put last or what it was before. -/
  wrote {commands : List Command} : LeftAlone name w.region w.start w.stop commands s →
    ∃ w', Wrote name w (puts name commands s) s w' (Session.run commands s).2
  /-- Uses of the writer one after another are such a run, and they change nothing that has no
  byte in common with the window. -/
  alone (hows : List WriterUse) :
    LeftAlone name w.region w.start w.stop (WriterUse.commands hows name) s ∧
      ∀ {r : Region} {offset n : Nat},
        s.store.flat.Clear r offset n w.region w.start w.length →
          (Session.run (WriterUse.commands hows name) s).2.store.flat.read? r offset n =
            s.store.flat.read? r offset n

/-- Reachable writers put their bytes in their windows, each write as a whole or not at all. -/
theorem run_writes_within (machine : Machine) (files : FileTree) {commands : List Command}
    (orderly : ∀ command ∈ commands, command.Orderly)
    (reached : (Session.run commands (.initial machine files)).2 = s)
    (found : s.handles.find? name = some (.writer w)) : s.Writes name w := by
  have ready : s.Ready := reached ▸ ((Ready.empty machine files).run orderly).2
  have tidy : s.Tidy := reached ▸ run_tidy machine files commands
  have ordered : w.Ordered := (ready.inBounds found).2
  have served : w.region.Served s.store := ready.served found rfl
  constructor
  case write =>
    intro how bytes reply writes tried
    split
    · rename_i free
      exact WriterUse.run_fitting ordered served tidy.apart writes tried free.1 free.2
    · rename_i refused
      exact WriterUse.run_refused ordered served writes tried refused
  case still =>
    intro how idle
    exact WriterUse.run_still idle
  case wrote =>
    intro commands alone
    exact ready.run_wrote tidy found alone
  case alone =>
    intro hows
    exact ⟨leftAlone_own hows _ _ _ s, fun clear => ready.run_outside tidy found hows clear⟩

/-- A writer in the midst of a window that ends before its view does. -/
theorem run_writes_within_view :
    let commands : List Command := [.make "array" (.ofBytes (Bytes.sequential 32)),
      .derive "array" "view" (.slice 3 20), .derive "view" "writer" (.writer (some (4, 9))),
      .use "writer" (.writer (.write [1, 2, 3]))]
    let s := (Session.run commands (.initial Host.machine .bare)).2
    let window : Window := {
      region := { root := 0, base := 3, length := 20, permit := .both, kind := .slice }
      start := 4
      stop := 13
      offset := 7 }
    (∀ command ∈ commands, command.Orderly) ∧
      s.handles.find? "writer" = some (.writer window) ∧ s.Writes "writer" window := by
  intro commands s window
  have orderly : ∀ command ∈ commands, command.Orderly := by
    simp [commands, Command.Orderly, Making.Fits, Word.modulus, Bytes.sequential]
  have found : s.handles.find? "writer" = some (.writer window) := by decide +kernel
  exact ⟨orderly, found, run_writes_within Host.machine .bare orderly rfl found⟩

end Session

end BoundedMemory
