import BoundedMemory.Proofs.Touching

/-!
The uses of streams as touches of memory. However its bytes are asked for, a reader
makes one read and a writer one write at the place where the stream stands.
-/

namespace BoundedMemory

variable {s : Store} {w : Window}

namespace Window

theorem seekTo_moves (offset : Nat) : Moves Window.region (seekTo offset) := by
  intro s w
  unfold Operation.after
  rw [seekTo_run]
  by_cases outside : offset < w.start ∨ w.stop < offset
  · simp only [outside, if_true, and_self]
  · simp only [outside, if_false, and_self]

theorem skip_moves (n : Nat) : Moves Window.region (skip n : Act Fault Nat) := by
  intro s w
  unfold Operation.after
  rw [skip_run]
  by_cases fits : w.offset + min n w.available < Word.modulus
  · simp only [fits, if_true, moved, and_self]
  · simp only [fits, if_false, and_self]

theorem seek_moves (wanted : SeekFrom) : Moves Window.region (seek wanted) := by
  intro s w
  unfold Operation.after
  rw [seek_run]
  cases w.target? wanted with
  | none => exact ⟨rfl, rfl⟩
  | some target =>
      by_cases outside : target < w.start ∨ w.stop < target
      · simp only [outside, if_true, and_self]
      · simp only [outside, if_false, and_self]

theorem rewind_moves : Moves Window.region rewind := by
  unfold rewind
  exact (seek_moves (.start 0)).map

theorem tell_moves : Moves Window.region tell := by
  unfold tell
  exact seek_moves (.current 0)

end Window

theorem WindowUse.handled (how : WindowUse) (h : s.Apart) :
    Handled none w.region (how.run (s, w)).2.2.region (how.run (s, w)).1 s
      (how.run (s, w)).2.1 := by
  cases how with
  | seekTo offset => exact (Window.seekTo_moves offset).handled h _ _
  | skip n => exact (Window.skip_moves n).handled h _ _
  | seek wanted => exact (Window.seek_moves wanted).handled h _ _
  | rewind =>
      have moves := Window.rewind_moves
      unfold WindowUse.run
      generalize Window.rewind = x at moves ⊢
      exact moves.handled h _ _
  | tell =>
      have moves := Window.tell_moves
      unfold WindowUse.run
      generalize Window.tell = x at moves ⊢
      exact moves.handled h _ _

/-- A read gets what flat memory has up to the end of the window, and moves past it. -/
theorem Reader.read_flat {n : Nat} {bytes : Bytes} {s' : Store} {w' : Window} (h : s.Apart)
    (run : Reader.read n (s, w) = .ok bytes (s', w')) :
    s'.Apart ∧ s'.flat = s.flat ∧ bytes.length = min n w.available ∧
      w' = w.moved bytes.length ∧
      s.flat.read? w.region w.offset (min n w.available) = some bytes := by
  rw [read_run] at run
  by_cases nothing : min n w.available = 0
  · simp only [nothing, if_true] at run
    cases run
    refine ⟨h, rfl, nothing.symm, rfl, ?_⟩
    simp only [nothing, FlatMemory.read?, if_true]
  · simp only [nothing, if_false] at run
    cases read : w.region.readBytes w.offset (min n w.available) s with
    | error e s' => simp [read] at run
    | ok found s' =>
        simp only [read] at run
        have length := Region.length_of_readBytes read
        cases run
        obtain ⟨apart, content, moved, reply⟩ :=
          Transfer.run_flat h (Region.readBytes_eq_ok_iff.mp read)
        simp only [Transfer.answer, Reply.bytes.injEq] at reply
        subst reply
        simp only [Transfer.onFlat?, Transfer.direction, Option.map_eq_some_iff,
          Prod.mk.injEq] at moved
        obtain ⟨found, there, rfl, same⟩ := moved
        exact ⟨apart, same.symm, length, by rw [length], there⟩

/-- How a use of a reader comes down to one read: what it asks for, what it says of faults, and
what of the bytes, which it may still find wanting. -/
structure ReaderUse.Read (how : ReaderUse) (w : Window) where
  size : Nat
  told : Fault → Reply
  answer : Bytes → Reply
  reply : Bytes → Reply
  telling (cause : Fault) : told cause = .fault cause ∨ told cause = .streamFault (.access cause)
  answered (bytes : Bytes) :
    answer bytes = reply bytes ∨ answer bytes = .streamFault .unexpectedEnd
  same (t : Store) : how.run (t, w) = (Reader.read size).settle told answer (t, w)

/-- However a stream tells of a fault, it tells of a failure. -/
theorem Reply.isFailure_of_told {reply : Reply} {cause : Fault}
    (told : reply = .fault cause ∨ reply = .streamFault (.access cause)) :
    reply.isFailure = true := by
  rcases told with rfl | rfl <;> rfl

/-- What is said of a read of some bytes, all of which were wanted. -/
def Reader.exactly (n : Nat) (bytes : Bytes) : Reply :=
  if bytes.length < n then .streamFault .unexpectedEnd else .bytes bytes

theorem ReaderUse.run_readInto (n : Nat) (t : Store × Window) :
    ReaderUse.run (.readInto n) t = (Reader.read n).settle .fault (Window.filled n) t := by
  simp only [run, Operation.settle, Reader.readInto, List.length_replicate, Operation.bind_run]
  rcases Reader.read n t with _ | ⟨_ | _, _⟩ <;> rfl

theorem ReaderUse.run_read (n : Nat) (t : Store × Window) :
    ReaderUse.run (.read n) t =
      (Reader.read n).settle (fun cause => .streamFault (.access cause)) (Window.filled n) t := by
  simp only [run, Operation.settle, Operation.mapFault_run, Reader.readInto,
    List.length_replicate, Operation.bind_run]
  rcases Reader.read n t with _ | ⟨_ | _, _⟩ <;> rfl

theorem ReaderUse.run_readByte (t : Store × Window) :
    ReaderUse.run .readByte t =
      (Reader.read 1).settle .fault (fun bytes => .byte bytes.head?) t := by
  simp only [run, Operation.settle, Reader.readByte, Operation.bind_run]
  rcases Reader.read 1 t with _ | ⟨_ | _, _⟩ <;> rfl

theorem ReaderUse.run_reads {how : ReaderUse} {τ : Touch} (reads : w.readerTouch? how = some τ) :
    ∃ read : how.Read w, τ = w.readTouch read.size read.reply := by
  cases how with
  | move how => cases reads
  | readInto n =>
      cases reads
      exact ⟨⟨n, .fault, Window.filled n, Window.filled n, fun _ => .inl rfl, fun _ => .inl rfl,
        fun t => run_readInto n (t, w)⟩, rfl⟩
  | read n =>
      cases reads
      exact ⟨⟨n, fun cause => .streamFault (.access cause), Window.filled n, Window.filled n,
        fun _ => .inr rfl, fun _ => .inl rfl, fun t => run_read n (t, w)⟩, rfl⟩
  | readByte =>
      cases reads
      exact ⟨⟨1, .fault, fun bytes => .byte bytes.head?, fun bytes => .byte bytes.head?,
        fun _ => .inl rfl, fun _ => .inl rfl, fun t => run_readByte (t, w)⟩, rfl⟩
  | readExact n =>
      cases reads
      refine ⟨⟨n, fun cause => .streamFault (.access cause), Reader.exactly n, .bytes,
        fun _ => .inr rfl, fun bytes => ?_, fun t => ?_⟩, rfl⟩
      · unfold Reader.exactly
        split
        · exact .inr rfl
        · exact .inl rfl
      · simp only [run, Operation.settle, Reader.readExact, Operation.bind_run,
          Operation.mapFault_run, Reader.exactly]
        rcases Reader.read n (t, w) with bytes | ⟨_ | _, _⟩
        · by_cases short : bytes.length < n <;>
            simp only [short, if_true, if_false, Operation.bind_run, Operation.refuse_run,
              Operation.pure_run]
        · rfl
        · rfl
  | readToEnd =>
      cases reads
      refine ⟨⟨w.available, fun cause => .streamFault (.access cause), .bytes, .bytes,
        fun _ => .inr rfl, fun _ => .inl rfl, fun t => ?_⟩, rfl⟩
      simp only [run, Operation.settle, Reader.readToEnd, Operation.bind_run, Window.current_run,
        Operation.mapFault_run]
      rcases Reader.read w.available (t, w) with _ | ⟨_ | _, _⟩ <;> rfl
  | readText =>
      cases reads
      refine ⟨⟨w.available, fun cause => .streamFault (.access cause), Window.textReply,
        Window.textReply, fun _ => .inr rfl, fun _ => .inl rfl, fun t => ?_⟩, rfl⟩
      simp only [run, Operation.settle, Reader.readText, Reader.readToEnd, Operation.bind_run,
        Window.current_run, Operation.mapFault_run, Window.textReply]
      rcases Reader.read w.available (t, w) with bytes | ⟨_ | _, _⟩
      · dsimp only
        cases String.fromUTF8? ⟨bytes.toArray⟩ <;> rfl
      · rfl
      · rfl

private theorem Reader.handled {n : Nat} {told : Fault → Reply} {answer reply : Bytes → Reply}
    (h : s.Apart) (failing : ∀ cause, (told cause).isFailure = true)
    (answered : ∀ bytes, answer bytes = reply bytes ∨ answer bytes = .streamFault .unexpectedEnd) :
    Handled (some (w.readTouch n reply)) w.region
      ((read n).settle told answer (s, w)).2.2.region ((read n).settle told answer (s, w)).1 s
      ((read n).settle told answer (s, w)).2.1 := by
  unfold Operation.settle
  cases run : read n (s, w) with
  | ok bytes after =>
      obtain ⟨s', w'⟩ := after
      obtain ⟨apart, same, -, rfl, there⟩ := read_flat h run
      refine ⟨apart, rfl, ?_⟩
      show Touch.Shows _ _ _ _
      rw [same]
      refine Touch.shows (fun _ => rfl) fun success => ⟨bytes, ?_, ?_⟩
      · simp only [Window.readTouch, Transfer.onFlat?, Transfer.direction, Transfer.size, there,
          Option.map_some]
      · rcases answered bytes with answer | wanting
        · exact answer
        · simp only [wanting] at success
          cases success
  | error e after =>
      have same := Reader.read_allOrNothing n (s, w) e after run
      subst same
      cases e with
      | trap => exact ⟨h, rfl, Touch.shows (fun _ => rfl) fun success => by cases success⟩
      | fault cause =>
          refine ⟨h, rfl, Touch.shows (fun _ => rfl) fun success => ?_⟩
          rw [failing] at success
          cases success

theorem ReaderUse.handled (how : ReaderUse) (h : s.Apart) :
    Handled (w.readerTouch? how) w.region (how.run (s, w)).2.2.region (how.run (s, w)).1 s
      (how.run (s, w)).2.1 := by
  cases reads : w.readerTouch? how with
  | none =>
      cases how with
      | move how => exact WindowUse.handled how h
      | _ => cases reads
  | some τ =>
      obtain ⟨read, rfl⟩ := ReaderUse.run_reads reads
      rw [read.same]
      exact Reader.handled h (fun cause => Reply.isFailure_of_told (read.telling cause))
        read.answered

/-- A write puts its bytes into flat memory where the window stands, and moves past them. -/
theorem Writer.write_flat {bytes : Bytes} {s' : Store} {w' : Window} (h : s.Apart)
    (run : Writer.write bytes (s, w) = .ok () (s', w')) :
    s'.Apart ∧ w' = w.moved bytes.length ∧
      s.flat.write? w.region w.offset bytes = some s'.flat := by
  rw [write_run] at run
  by_cases full : w.available < bytes.length
  · simp [full] at run
  · simp only [full, if_false] at run
    cases written : w.region.writeBytes w.offset bytes s with
    | error e s' => simp [written] at run
    | ok _ s' =>
        simp only [written] at run
        by_cases fits : w.offset + bytes.length < Word.modulus
        · simp only [fits, if_true] at run
          cases run
          obtain ⟨apart, found, moved, -⟩ :=
            Transfer.run_flat h (Region.writeBytes_eq_ok_iff.mp written)
          simp only [Transfer.onFlat?, Transfer.direction, Transfer.payload,
            Option.map_eq_some_iff, Prod.mk.injEq] at moved
          obtain ⟨after, there, -, same⟩ := moved
          exact ⟨apart, rfl, same ▸ there⟩
        · simp [fits] at run

/-- What a writer is given to write, and what it replies once that is written. -/
def WriterUse.writes? : WriterUse → Option (Bytes × Reply)
  | .move _ | .flush => none
  | .write bytes | .writeAll bytes => some (bytes, .done)
  | .writeByte byte => some ([byte], .done)
  | .writeSome bytes => some (bytes, .number bytes.length)

theorem Window.writerTouch?_of_writes {how : WriterUse} {bytes : Bytes} {reply : Reply}
    (writes : how.writes? = some (bytes, reply)) (w : Window) :
    w.writerTouch? how = some (w.writeTouch bytes reply) ∧ reply.isFailure = false := by
  cases how <;> cases writes <;> exact ⟨rfl, rfl⟩

/-- A use of a writer comes down to one write. All of nothing is written without a try. -/
theorem WriterUse.run_writes {how : WriterUse} {bytes : Bytes} {reply : Reply}
    (writes : how.writes? = some (bytes, reply)) :
    how = .writeAll [] ∨
      ∃ told : Fault → Reply,
        (∀ cause, told cause = .fault cause ∨ told cause = .streamFault (.access cause)) ∧
          ∀ s, how.run s = (Writer.write bytes).settle told (fun _ => reply) s := by
  cases how with
  | write given | writeByte given =>
      cases writes
      exact .inr ⟨.fault, fun _ => .inl rfl, fun _ => rfl⟩
  | writeSome given =>
      cases writes
      refine .inr ⟨fun cause => .streamFault (.access cause), fun _ => .inr rfl, fun s => ?_⟩
      simp only [WriterUse.run, Operation.settle, Writer.writeSome, Operation.bind_run,
        Operation.mapFault_run]
      rcases Writer.write bytes s with _ | ⟨_ | _, _⟩ <;> rfl
  | writeAll given =>
      cases writes
      by_cases empty : bytes.isEmpty = true
      · exact .inl (by rw [List.isEmpty_iff.mp empty])
      · refine .inr ⟨fun cause => .streamFault (.access cause), fun _ => .inr rfl, fun s => ?_⟩
        simp only [WriterUse.run, Operation.settle, Writer.writeAll, empty, Bool.not_false, if_true,
          Operation.mapFault_run]
        rcases Writer.write bytes s with _ | ⟨_ | _, _⟩ <;> rfl
  | _ => cases writes

private theorem Writer.handled {bytes : Bytes} {reply : Reply} {told : Fault → Reply} (h : s.Apart)
    (plain : reply.isFailure = false) (failing : ∀ cause, (told cause).isFailure = true) :
    Handled (some (w.writeTouch bytes reply)) w.region
      ((write bytes).settle told (fun _ => reply) (s, w)).2.2.region
      ((write bytes).settle told (fun _ => reply) (s, w)).1 s
      ((write bytes).settle told (fun _ => reply) (s, w)).2.1 := by
  unfold Operation.settle
  cases run : write bytes (s, w) with
  | ok _ after =>
      obtain ⟨s', w'⟩ := after
      obtain ⟨apart, rfl, there⟩ := write_flat h run
      refine ⟨apart, rfl, Touch.shows (fun failed => ?_) fun _ => ⟨[], ?_, rfl⟩⟩
      · rw [plain] at failed
        cases failed
      · simp only [Window.writeTouch, Transfer.onFlat?, Transfer.direction, Transfer.payload,
          there, Option.map_some]
  | error e after =>
      have same := Writer.write_allOrNothing bytes (s, w) e after run
      subst same
      cases e with
      | trap => exact ⟨h, rfl, Touch.shows (fun _ => rfl) fun success => by cases success⟩
      | fault cause =>
          refine ⟨h, rfl, Touch.shows (fun _ => rfl) fun success => ?_⟩
          rw [failing] at success
          cases success

theorem WriterUse.handled (how : WriterUse) (h : s.Apart) :
    Handled (w.writerTouch? how) w.region (how.run (s, w)).2.2.region (how.run (s, w)).1 s
      (how.run (s, w)).2.1 := by
  cases writes : how.writes? with
  | none =>
      cases how with
      | move how => exact WindowUse.handled how h
      | flush => exact ⟨h, rfl, rfl⟩
      | _ => cases writes
  | some found =>
      obtain ⟨bytes, reply⟩ := found
      obtain ⟨touch, plain⟩ := w.writerTouch?_of_writes writes
      rcases WriterUse.run_writes writes with rfl | ⟨told, telling, same⟩
      · have run : (WriterUse.writeAll []).run (s, w) = (.done, s, w) := rfl
        rw [run]
        refine ⟨h, rfl, Touch.shows (fun _ => rfl) fun _ => ⟨[], ?_, rfl⟩⟩
        simp [Window.writeTouch, Transfer.onFlat?, Transfer.payload, FlatMemory.write?]
      · rw [touch, same]
        exact Writer.handled h plain fun cause => Reply.isFailure_of_told (telling cause)

end BoundedMemory
