import BoundedMemory.Proofs.Lending
import BoundedMemory.Proofs.StreamAccess

/-!
What readers give out. A read takes as many bytes as are wanted and left, those that stand
where the reader does, and moves past them. So reads of any sizes, one after another, give out
what was left of the window, in order and without a gap, as far as they want it; how it was
cut into chunks leaves no trace. Where the region cannot be read, only a read of nothing passes.
-/

namespace BoundedMemory

/-- How many bytes are wanted by a use that takes as many of them as are left. -/
def ReaderUse.wanted? : ReaderUse → Option Nat
  | .readInto n | .read n => some n
  | .readByte => some 1
  | _ => none

/-- The bytes that a reply brings. -/
def Reply.got : Reply → Bytes
  | .read count buffer => buffer.take count
  | .byte value => value.toList
  | _ => []

/-- Uses put one after another to the reader that a name stands for. -/
def ReaderUse.commands (hows : List ReaderUse) (name : String) : List Command :=
  hows.map fun how => .use name (.reader how)

/-- How many bytes several uses want in all. -/
def ReaderUse.total : List ReaderUse → Nat
  | [] => 0
  | how :: rest => how.wanted?.getD 0 + total rest

variable {s : Store} {w : Window}

namespace Reader

variable {buffer : Bytes}

theorem fill_run (s : Store) (w : Window) (buffer : Bytes) :
    fill ((s, w), buffer) =
      match read buffer.length (s, w) with
      | .ok bytes after => .ok bytes.length (after, bytes ++ buffer.drop bytes.length)
      | .error e after => .error e (after, buffer) := by
  simp only [fill_eq, Operation.filling, readInto, Operation.bind_run]
  cases read buffer.length (s, w) <;> rfl

end Reader

namespace ReaderUse

variable {how : ReaderUse} {n : Nat}

/-- Each of the uses makes one read of what it wants, and brings all that comes of it. -/
theorem run_wanted (wants : how.wanted? = some n) :
    ∃ (told : Fault → Reply) (answer : Bytes → Reply),
      (∀ cause, told cause = .fault cause ∨ told cause = .streamFault (.access cause)) ∧
        (∀ bytes, bytes.length ≤ n →
          (answer bytes).got = bytes ∧ (answer bytes).isFailure = false) ∧
        ∀ t, how.run t = (Reader.read n).settle told answer t := by
  have filled (bytes : Bytes) : (Window.filled n bytes).got = bytes ∧
      (Window.filled n bytes).isFailure = false := ⟨List.take_left, rfl⟩
  cases how with
  | readInto n =>
      cases wants
      exact ⟨_, _, fun _ => .inl rfl, fun bytes _ => filled bytes, run_readInto n⟩
  | read n =>
      cases wants
      exact ⟨_, _, fun _ => .inr rfl, fun bytes _ => filled bytes, run_read n⟩
  | readByte =>
      cases wants
      refine ⟨_, _, fun _ => .inl rfl, fun bytes short => ⟨?_, rfl⟩, run_readByte⟩
      match bytes, short with
      | [], _ | [_], _ => rfl
  | _ => cases wants

/-- Where reading is allowed, a use brings what is left as far as it is wanted. -/
theorem run_allowed (h : w.Ordered) (served : w.region.Served s) (apart : s.Apart)
    (allowed : w.region.isValid s = true ∧ w.region.isReadable = true)
    (wants : how.wanted? = some n) :
    ∃ reply, how.run (s, w) = (reply, s, w.moved (min n w.available)) ∧
      reply.isFailure = false ∧ reply.got.length = min n w.available ∧
        s.flat.read? w.region w.offset (min n w.available) = some reply.got := by
  obtain ⟨told, answer, -, brings, same⟩ := run_wanted wants
  obtain ⟨bytes, length, there, run⟩ := Reader.read_allowed h served apart allowed n
  obtain ⟨got, plain⟩ := brings bytes (by omega)
  refine ⟨answer bytes, ?_, plain, by rw [got, length], by rw [got, there]⟩
  rw [same, Operation.settle, run]

/-- Where it is not, only a use that cannot get any bytes passes. -/
theorem run_turned (h : w.Ordered) (served : w.region.Served s)
    (denied : ¬ (w.region.isValid s = true ∧ w.region.isReadable = true))
    (wants : how.wanted? = some n) :
    ∃ reply, how.run (s, w) = (reply, s, w) ∧
      (reply.isFailure = true ↔ 0 < min n w.available) ∧ reply.got = [] := by
  obtain ⟨told, answer, telling, brings, same⟩ := run_wanted wants
  rcases Nat.eq_zero_or_pos (min n w.available) with nothing | some
  · obtain ⟨got, plain⟩ := brings [] (Nat.zero_le n)
    refine ⟨answer [], ?_, by simp [plain, nothing], got⟩
    rw [same, Operation.settle, Reader.read_run, if_pos nothing]
  · obtain ⟨cause, run⟩ := Reader.read_turned h served denied (Nat.ne_of_gt some)
    refine ⟨told cause, ?_, by simp [Reply.isFailure_of_told (telling cause), some], ?_⟩
    · rw [same, Operation.settle, run]
    · rcases telling cause with as_it_is | of_streams
      · rw [as_it_is]
        rfl
      · rw [of_streams]
        rfl

end ReaderUse

namespace Session

variable {s : Session} {name : String}

/-- Uses of a reader one after another bring what is left, as far as they want it in all. -/
theorem Tidy.run_wanted (tidy : s.Tidy) (found : s.handles.find? name = some (.reader w))
    (h : w.Ordered) (served : w.region.Served s.store)
    (allowed : w.region.isValid s.store = true ∧ w.region.isReadable = true)
    {hows : List ReaderUse} (want : ∀ how ∈ hows, how.wanted? ≠ none) :
    let total := min (ReaderUse.total hows) w.available
    let ran := Session.run (ReaderUse.commands hows name) s
    (∀ reply ∈ ran.1, reply.isFailure = false) ∧
      s.store.flat.read? w.region w.offset total = some (ran.1.flatMap Reply.got) ∧
        ran.2.store = s.store ∧ ran.2.handles.find? name = some (.reader (w.moved total)) := by
  -- Each chunk begins where the one before it ended, in the same store.
  induction hows generalizing s w with
  | nil =>
      have nothing : min (ReaderUse.total []) w.available = 0 := Nat.zero_min _
      simp only [nothing, Window.moved_zero]
      exact ⟨fun _ member => (by cases member), rfl, rfl, found⟩
  | cons how rest ih =>
      obtain ⟨n, wants⟩ := Option.ne_none_iff_exists'.mp (want how List.mem_cons_self)
      obtain ⟨reply, run, plain, length, there⟩ :=
        how.run_allowed h served tidy.apart allowed wants
      have stepped := tidy.step_reader found how
      have tidy' := tidy.step (.use name (.reader how))
      rw [run] at stepped
      rw [stepped] at tidy'
      have ordered : (w.moved (min n w.available)).Ordered :=
        (h.moved (Nat.min_le_right n w.available) (.refl s.store)).ordered
      obtain ⟨plains, there', store, leads⟩ := ih tidy' (Names.find?_bind_same _ _ _) ordered served
        allowed fun other member => want other (List.mem_cons_of_mem how member)
      have sum : ReaderUse.total (how :: rest) = n + ReaderUse.total rest := by
        simp only [ReaderUse.total, wants, Option.getD_some]
      have split : min (ReaderUse.total (how :: rest)) w.available = min n w.available +
          min (ReaderUse.total rest) (w.available - min n w.available) := by omega
      simp only [Window.available_moved, Window.moved_moved] at plains there' store leads
      simp only [ReaderUse.commands, List.map_cons, Session.run, stepped, split]
      refine ⟨?_, ?_, store, leads⟩
      · intro other member
        rcases List.mem_cons.mp member with rfl | later
        · exact plain
        · exact plains other later
      · obtain ⟨bytes, -, whole, -⟩ := Reader.read_allowed h served tidy.apart allowed
          (ReaderUse.total (how :: rest))
        rw [split] at whole
        obtain ⟨front, back⟩ := FlatMemory.read?_append whole
        have first : reply.got = bytes.take (min n w.available) :=
          Option.some.inj (there.symm.trans front)
        have later := Option.some.inj (there'.symm.trans back)
        rw [whole, List.flatMap_cons, first]
        exact congrArg some ((List.take_append_drop _ bytes).symm.trans
          (congrArg (_ ++ ·) later.symm))

/-- What a reader gives out. -/
structure Reads (s : Session) (name : String) (w : Window) : Prop where
  /-- The front of a buffer is filled with what is left, as far as there is room for it; the
  rest of the buffer stays as it was. -/
  into (buffer : Bytes) : w.region.isValid s.store = true ∧ w.region.isReadable = true →
    ∃ bytes, bytes.length = min buffer.length w.available ∧
      s.store.flat.read? w.region w.offset bytes.length = some bytes ∧
        Reader.fill ((s.store, w), buffer) =
          .ok bytes.length ((s.store, w.moved bytes.length), bytes ++ buffer.drop bytes.length)
  byte : w.region.isValid s.store = true ∧ w.region.isReadable = true →
    ∃ value : Option UInt8, ReaderUse.run .readByte (s.store, w) =
        (.byte value, s.store, w.moved (min 1 w.available)) ∧
      (value = none ↔ w.offset = w.stop) ∧
        ∀ byte, value = some byte → s.store.flat.read? w.region w.offset 1 = some [byte]
  ended {buffer : Bytes} {count : Nat} {after : (Store × Window) × Bytes} : buffer ≠ [] →
    Reader.fill ((s.store, w), buffer) = .ok count after → (count = 0 ↔ w.offset = w.stop)
  /-- However it is cut into chunks, what comes is the front of what is left, as much of it as
  is wanted in all. It is taken from before the end of the window, and all of it is passed. -/
  chunks {hows : List ReaderUse} :
    w.region.isValid s.store = true ∧ w.region.isReadable = true →
      (∀ how ∈ hows, how.wanted? ≠ none) →
        let total := min (ReaderUse.total hows) w.available
        let ran := Session.run (ReaderUse.commands hows name) s
        (∀ reply ∈ ran.1, reply.isFailure = false) ∧
          s.store.flat.read? w.region w.offset total = some (ran.1.flatMap Reply.got) ∧
            ran.2.store = s.store ∧ ran.2.handles.find? name = some (.reader (w.moved total))
  /-- Where reading is not allowed, nothing is told, moved or filled in, and that is a failure
  exactly if there would have been bytes to read. -/
  turned (buffer : Bytes) : ¬ (w.region.isValid s.store = true ∧ w.region.isReadable = true) →
    if min buffer.length w.available = 0 then
      Reader.fill ((s.store, w), buffer) = .ok 0 ((s.store, w), buffer)
    else ∃ cause, Reader.fill ((s.store, w), buffer) =
      .error (.fault cause) ((s.store, w), buffer)
  turnedUse {how : ReaderUse} {n : Nat} : how.wanted? = some n →
    ¬ (w.region.isValid s.store = true ∧ w.region.isReadable = true) →
      ∃ reply, how.run (s.store, w) = (reply, s.store, w) ∧
        (reply.isFailure = true ↔ 0 < min n w.available) ∧ reply.got = []

/-- Reachable readers give out what is left of their windows, in order and without a gap. -/
theorem run_reads_on (machine : Machine) (files : FileTree) {commands : List Command}
    (orderly : ∀ command ∈ commands, command.Orderly)
    (reached : (Session.run commands (.initial machine files)).2 = s)
    (found : s.handles.find? name = some (.reader w)) : s.Reads name w := by
  have ready : s.Ready := reached ▸ ((Ready.empty machine files).run orderly).2
  have tidy : s.Tidy := reached ▸ run_tidy machine files commands
  have ordered : w.Ordered := (ready.inBounds found).2
  have served : w.region.Served s.store := ready.served found rfl
  have ending : w.available = 0 ↔ w.offset = w.stop := by
    have ended := ordered.ended
    unfold Window.available
    omega
  constructor
  case into =>
    intro buffer allowed
    obtain ⟨bytes, length, there, run⟩ :=
      Reader.read_allowed ordered served tidy.apart allowed buffer.length
    rw [← length] at there run
    exact ⟨bytes, length, there, by rw [Reader.fill_run, run]⟩
  case byte =>
    intro allowed
    obtain ⟨bytes, length, there, run⟩ := Reader.read_allowed ordered served tidy.apart allowed 1
    refine ⟨bytes.head?, by rw [ReaderUse.run_readByte, Operation.settle, run], ?_, ?_⟩
    · rw [List.head?_eq_none_iff, ← List.length_eq_zero_iff, length, ← ending]
      omega
    · intro byte first
      obtain ⟨rest, rfl⟩ := List.head?_eq_some_iff.mp first
      have single : min 1 w.available = 1 := by
        rw [List.length_cons] at length
        omega
      rw [single] at length there
      rw [there, List.eq_nil_of_length_eq_zero (Nat.succ.inj length)]
  case ended =>
    intro buffer count after some passed
    have long : buffer.length ≠ 0 := fun none => some (List.length_eq_zero_iff.mp none)
    rw [Reader.fill_run] at passed
    cases run : Reader.read buffer.length (s.store, w) with
    | error e after =>
        rw [run] at passed
        cases passed
    | ok bytes after =>
        obtain ⟨s', w'⟩ := after
        obtain ⟨-, -, length, -⟩ := Reader.read_flat tidy.apart run
        rw [run] at passed
        cases passed
        rw [length, ← ending]
        omega
  case chunks =>
    intro hows allowed want
    exact tidy.run_wanted found ordered served allowed want
  case turned =>
    intro buffer denied
    split
    · rename_i nothing
      rw [Reader.fill_run, Reader.read_run, if_pos nothing]
      rfl
    · rename_i some
      obtain ⟨cause, run⟩ := Reader.read_turned ordered served denied some
      exact ⟨cause, by rw [Reader.fill_run, run]⟩
  case turnedUse =>
    intro how n wants denied
    exact how.run_turned ordered served denied wants

/-- A reader in the midst of a window on bytes that differ. -/
theorem run_reads_on_within :
    let commands : List Command := [.make "array" (.ofBytes (Bytes.sequential 32)),
      .derive "array" "view" (.slice 3 20), .derive "view" "reader" (.reader (some (4, 9))),
      .use "reader" (.reader (.readInto 3))]
    let s := (Session.run commands (.initial Host.machine .bare)).2
    let window : Window := {
      region := { root := 0, base := 3, length := 20, permit := .both, kind := .slice }
      start := 4
      stop := 13
      offset := 7 }
    (∀ command ∈ commands, command.Orderly) ∧
      s.handles.find? "reader" = some (.reader window) ∧ s.Reads "reader" window := by
  intro commands s window
  have orderly : ∀ command ∈ commands, command.Orderly := by
    simp [commands, Command.Orderly, Making.Fits, Word.modulus, Bytes.sequential]
  have found : s.handles.find? "reader" = some (.reader window) := by decide +kernel
  exact ⟨orderly, found, run_reads_on Host.machine .bare orderly rfl found⟩

end Session

end BoundedMemory
