import BoundedMemory.Proofs.StreamTouches

/-!
What uses of handles make of a store. A use makes of it at most what its one transfer
makes of it, and then the region has let the transfer pass. Readers, and all that
fails, make nothing of it.
-/

namespace BoundedMemory

/-- What a touch makes of a store: nothing, or what its transfer makes of it. -/
inductive Touch.Alters (τ : Touch) (reply : Reply) (s : Store) : Store → Prop where
  | idle (cause : reply.isFailure = true ∨ τ.transfer.direction = .read ∨ τ.transfer.size = 0) :
      Alters τ reply s s
  | change {s' : Store} {answer : Reply} (passed : reply.isFailure = false)
      (writes : τ.transfer.direction = .write) (some : τ.transfer.size ≠ 0)
      (run : τ.transfer.run τ.region τ.offset s = .ok answer s') : Alters τ reply s s'

/-- What a use makes of a store, by the touch that it comes down to, if any. -/
structure Altered (touch? : Option Touch) (region region' : Region) (reply : Reply)
    (s s' : Store) : Prop where
  steady : region' = region
  alters : match touch? with
    | some τ => τ.Alters reply s s'
    | none => s' = s

variable {s s' : Store} {reply : Reply}

namespace Transfer

variable {x : Transfer} {r : Region} {offset : Nat} {answer : Reply}

theorem unchanged (run : x.run r offset s = .ok answer s')
    (idle : x.direction = .read ∨ x.size = 0) : s' = s := by
  have result := (run_eq_ok_iff.mp run).2
  unfold outcome? at result
  by_cases nothing : x.size = 0
  · simp only [nothing, if_true, Option.some.injEq, Prod.mk.injEq] at result
    exact result.2.symm
  · have reads := idle.resolve_right nothing
    simp only [nothing, if_false, reads, Option.map_eq_some_iff, Prod.mk.injEq] at result
    obtain ⟨-, -, -, same⟩ := result
    exact same.symm

/-- A change of memory is one of the bytes behind the region. -/
theorem poke?_of_run (run : x.run r offset s = .ok answer s') (writes : x.direction = .write)
    (some : x.size ≠ 0) : r.poke? s offset x.payload = .some s' := by
  have result := (run_eq_ok_iff.mp run).2
  simp only [outcome?, some, if_false, writes, Option.map_eq_some_iff, Prod.mk.injEq] at result
  obtain ⟨after, written, -, rfl⟩ := result
  exact written

end Transfer

theorem Touch.alters_of_run {τ : Touch} {answer : Reply} (passed : reply.isFailure = false)
    (run : τ.transfer.run τ.region τ.offset s = .ok answer s') : τ.Alters reply s s' := by
  by_cases idle : τ.transfer.direction = .read ∨ τ.transfer.size = 0
  · rw [Transfer.unchanged run idle]
    exact .idle (.inr idle)
  · rw [not_or] at idle
    refine .change passed ?_ idle.2 run
    cases direction : τ.transfer.direction with
    | read => exact absurd direction idle.1
    | write => rfl

theorem Altered.of_failure {touch? : Option Touch} {region region' : Region}
    (steady : region' = region) (failed : reply.isFailure = true) (same : s' = s) :
    Altered touch? region region' reply s s' where
  steady := steady
  alters := by
    subst same
    cases touch? with
    | none => rfl
    | some τ => exact .idle (.inl failed)

/-- All uses of a region but the release of a root. -/
theorem RegionUse.altered (how : RegionUse) (r : Region) (keyName : SegmentKey → String)
    (view : how = .release → r.isView = true) :
    Altered (r.touch? how) r r (how.run r keyName s).1 s (how.run r keyName s).2 := by
  have failed := @RegionUse.unchanged_of_failure how r keyName s
  cases failure : (how.run r keyName s).1.isFailure with
  | true => exact .of_failure rfl failure (failed failure)
  | false =>
      refine ⟨rfl, ?_⟩
      unfold Region.touch?
      cases transfer : r.transfer? how with
      | some place =>
          obtain ⟨x, offset⟩ := place
          rw [Region.run_use transfer] at failure ⊢
          unfold Operation.settle at failure ⊢
          cases run : x.run r offset s with
          | ok answer after =>
              simp only [run] at failure ⊢
              exact Touch.alters_of_run failure run
          | error e after =>
              cases e with
              | fault cause => simp [run, how.isFailure_failure] at failure
              | trap => simp [run, Reply.isFailure] at failure
      | none =>
          cases how with
          | release =>
              simp only [run, Region.release, view rfl, if_true, Operation.settle,
                Operation.pure_run, Option.map_none]
          | report => rfl
          | clearBetween byte first last =>
              rw [run_turned transfer]
              rfl
          | _ => cases transfer

theorem Moves.altered {ε β α : Type} {region : β → Region} {x : Operation ε (Store × β) α}
    (moves : Moves region x) (touch? : Option Touch)
    (idle : ∀ τ, touch? = some τ → τ.transfer.direction = .read)
    (fault : ε → Reply) (reply : α → Reply) (b : β) :
    Altered touch? (region b) (region (x.settle fault reply (s, b)).2.2)
      (x.settle fault reply (s, b)).1 s (x.settle fault reply (s, b)).2.1 := by
  obtain ⟨still, steady⟩ := moves s b
  rw [← Operation.settle_snd x fault reply] at still steady
  refine ⟨steady, ?_⟩
  rw [still]
  cases touch? with
  | none => rfl
  | some τ => exact .idle (.inr (.inl (idle τ rfl)))

section Cursors

variable {c : Cursor}

private theorem Cursor.transfer_altered {how : CursorUse} {x : Transfer} {place : Option Nat}
    (transfer : c.transfer? how = some (x, place)) :
    Altered (some {
        region := c.region
        offset := place.getD c.position
        transfer := x
        reply := x.answer }) c.region (how.run (s, c)).2.2.region (how.run (s, c)).1 s
      (how.run (s, c)).2.1 := by
  rw [run_use transfer]
  unfold Operation.settle
  cases place with
  | none =>
      simp only
      cases run : Cursor.transfer x (s, c) with
      | ok answer after =>
          obtain ⟨s', c'⟩ := after
          obtain ⟨passed, -, rfl⟩ := transfer_eq_ok_iff.mp run
          have moved := (transferAt_eq_ok_iff.mp passed).2
          exact ⟨rfl, Touch.alters_of_run (Transfer.reply_isFailure moved) moved⟩
      | error e after =>
          have same := transfer_error run
          subst same
          cases e <;> exact .of_failure rfl rfl rfl
  | some offset =>
      simp only [Operation.onFirst_run]
      cases run : c.transferAt x offset s with
      | ok answer s' =>
          have moved := (transferAt_eq_ok_iff.mp run).2
          exact ⟨rfl, Touch.alters_of_run (Transfer.reply_isFailure moved) moved⟩
      | error e s' =>
          have same := transferAt_error run
          subst same
          cases e <;> exact .of_failure rfl rfl rfl

private theorem Cursor.padTo_altered (width : Nat) (byte : UInt8) :
    Altered (c.padTouch? width byte) c.region
      ((padTo width byte).settle .fault .number (s, c)).2.2.region
      ((padTo width byte).settle .fault .number (s, c)).1 s
      ((padTo width byte).settle .fault .number (s, c)).2.1 := by
  unfold Operation.settle padTouch?
  rw [padTo_run]
  cases c.padding width with
  | error fault => exact ⟨rfl, rfl⟩
  | ok skip =>
      by_cases nothing : skip = 0
      · simp only [nothing, if_true]
        exact ⟨rfl, .idle (.inr (.inr rfl))⟩
      · simp only [nothing, if_false]
        cases run : (Transfer.clear byte skip).run c.region c.position s with
        | ok answer s' => exact ⟨rfl, Touch.alters_of_run rfl run⟩
        | error e s' =>
            have same := Transfer.run_error run
            subst same
            cases e <;> exact .of_failure rfl rfl rfl

theorem CursorUse.altered (how : CursorUse) :
    Altered (c.touch? how) c.region (how.run (s, c)).2.2.region (how.run (s, c)).1 s
      (how.run (s, c)).2.1 := by
  have none_idle (τ : Touch) (some : none = some τ) : τ.transfer.direction = .read := by cases some
  cases transfer : c.transfer? how with
  | some found =>
      obtain ⟨x, place⟩ := found
      have altered := Cursor.transfer_altered (s := s) transfer
      cases how with
      | pad width byte => cases transfer
      | padToWord byte => cases transfer
      | _ => simpa only [Cursor.touch?, transfer, Option.map_some] using altered
  | none =>
      cases how with
      | setPosition position =>
          exact (Cursor.setPosition_moves position).altered none none_idle _ _ c
      | advance n => exact (Cursor.advance_moves n).altered none none_idle _ _ c
      | setLimit limit => exact (Cursor.setLimit_moves limit).altered none none_idle _ _ c
      | setOrder order =>
          exact (Cursor.setOrder_moves order).altered none none_idle .fault (fun _ => .done) c
      | mark => exact ⟨rfl, rfl⟩
      | save => exact Cursor.save_moves.altered none none_idle _ _ c
      | restore => exact Cursor.restore_moves.altered none none_idle _ _ c
      | pad width byte => exact Cursor.padTo_altered width byte
      | align width => exact (Cursor.alignTo_moves width).altered none none_idle _ _ c
      | padToWord byte => exact Cursor.padTo_altered Host.wordSize byte
      | alignToWord => exact (Cursor.alignTo_moves Host.wordSize).altered none none_idle _ _ c
      | _ => cases transfer

end Cursors

section Windows

variable {w : Window}

theorem WindowUse.altered (how : WindowUse) (touch? : Option Touch)
    (idle : ∀ τ, touch? = some τ → τ.transfer.direction = .read) :
    Altered touch? w.region (how.run (s, w)).2.2.region (how.run (s, w)).1 s
      (how.run (s, w)).2.1 := by
  cases how with
  | seekTo offset => exact (Window.seekTo_moves offset).altered touch? idle _ _ w
  | skip n => exact (Window.skip_moves n).altered touch? idle _ _ w
  | seek wanted => exact (Window.seek_moves wanted).altered touch? idle _ _ w
  | rewind =>
      have moves := Window.rewind_moves
      unfold WindowUse.run
      generalize Window.rewind = x at moves ⊢
      exact moves.altered touch? idle _ _ w
  | tell =>
      have moves := Window.tell_moves
      unfold WindowUse.run
      generalize Window.tell = x at moves ⊢
      exact moves.altered touch? idle _ _ w

theorem Reader.read_moves (n : Nat) : Moves Window.region (Reader.read n) := by
  intro s w
  unfold Operation.after
  rw [read_run]
  by_cases nothing : min n w.available = 0
  · simp only [nothing, if_true, and_self]
  · simp only [nothing, if_false]
    cases run : w.region.readBytes w.offset (min n w.available) s with
    | ok bytes after =>
        have same := Transfer.unchanged (Region.readBytes_eq_ok_iff.mp run) (.inl rfl)
        exact ⟨same, rfl⟩
    | error e after => exact ⟨Region.readBytes_error run, rfl⟩

/-- Whatever a reader is asked for, its bytes are those of one read. -/
theorem ReaderUse.altered (how : ReaderUse) :
    Altered (w.readerTouch? how) w.region (how.run (s, w)).2.2.region (how.run (s, w)).1 s
      (how.run (s, w)).2.1 := by
  cases reads : w.readerTouch? how with
  | none =>
      cases how with
      | move how => exact how.altered none fun _ none => by cases none
      | _ => cases reads
  | some τ =>
      obtain ⟨read, rfl⟩ := ReaderUse.run_reads reads
      rw [read.same]
      refine (Reader.read_moves read.size).altered _ (fun τ found => ?_) read.told read.answer w
      cases found
      rfl

/-- A write that succeeds is a transfer, and moves the window past it. -/
theorem Writer.write_eq_ok {bytes : Bytes} {w' : Window}
    (run : Writer.write bytes (s, w) = .ok () (s', w')) :
    w' = w.moved bytes.length ∧
      (Transfer.writeBytes bytes).run w.region w.offset s = .ok .done s' := by
  rw [write_run] at run
  split at run
  · cases run
  · split at run
    · rename_i written
      split at run
      · cases run
        exact ⟨rfl, Region.writeBytes_eq_ok_iff.mp written⟩
      · cases run
    · cases run

/-- A use of a writer that succeeds comes down to one write. -/
theorem WriterUse.altered (how : WriterUse) :
    Altered (w.writerTouch? how) w.region (how.run (s, w)).2.2.region (how.run (s, w)).1 s
      (how.run (s, w)).2.1 := by
  cases failure : (how.run (s, w)).1.isFailure with
  | true =>
      have same := WriterUse.unchanged_of_failure failure
      exact .of_failure (by rw [same]) failure (by rw [same])
  | false =>
      cases writes : how.writes? with
      | none =>
          cases how with
          | move how => exact how.altered none fun _ none => by cases none
          | flush => exact ⟨rfl, rfl⟩
          | _ => cases writes
      | some found =>
          obtain ⟨bytes, answer⟩ := found
          obtain ⟨touch, plain⟩ := w.writerTouch?_of_writes writes
          rcases WriterUse.run_writes writes with rfl | ⟨told, telling, same⟩
          · exact ⟨rfl, .idle (.inr (.inr rfl))⟩
          · rw [same] at failure
            rw [touch, same]
            unfold Operation.settle at failure ⊢
            cases run : Writer.write bytes (s, w) with
            | ok _ after =>
                obtain ⟨s', w'⟩ := after
                obtain ⟨rfl, moved⟩ := Writer.write_eq_ok run
                exact ⟨rfl, Touch.alters_of_run plain moved⟩
            | error e after =>
                simp only [run] at failure
                cases e with
                | trap => cases failure
                | fault cause =>
                    rw [Reply.isFailure_of_told (telling cause)] at failure
                    cases failure

end Windows

end BoundedMemory
