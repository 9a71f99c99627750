import BoundedMemory.Proofs.Independence
import BoundedMemory.Proofs.StreamTouches

/-!
Uses of handles by the touch that they rest on. Either a use is settled by what the handle
says of itself, and memory is neither asked nor changed, or it does to memory what its touch
does, and all else that comes of it is decided by how the touch ends. So uses of two handles
may change places where their touches may.
-/

namespace BoundedMemory

open Operation (outcome after)

/-- Whether a reply says that memory was not touched at all. A read may be found wanting once
it has its bytes, which then were too few or no text. -/
def Reply.isRefusal : Reply → Bool
  | .fault _ => true
  | .filled _ cause _ => cause.isSome
  | .streamFault .unexpectedEnd | .streamFault .notText => false
  | .streamFault _ => true
  | _ => false

/-- What is said of an access that stopped: a fault is told in some way, a trap as it is. -/
def Stop.reply (told : Fault → Reply) : Stop Fault → Reply
  | .fault cause => told cause
  | .trap => .trap

theorem Transfer.answer_plain (x : Transfer) (bytes : Bytes) :
    (x.answer bytes).isRefusal = false := by
  cases x <;> rfl

/-- A use of a handle, as what it makes of stores like `s`, and the touch it rests on, if any. -/
inductive Rests {β : Type} (s : Store) (touch? : Option Touch) (run : Store → Reply × Store × β) :
    Prop where
  | aloof (reply : Reply) (b : β) (same : ∀ t, s.Resembles t → run t = (reply, t, b))
  | on (τ : Touch) (found : touch? = some τ) (finish : Except (Stop Fault) Reply → Reply × β)
      (plain : ∀ bytes, (finish (.ok (τ.transfer.answer bytes))).1.isRefusal = false)
      (same : ∀ t, s.Resembles t →
        run t = ((finish (outcome τ.run t)).1, after τ.run t, (finish (outcome τ.run t)).2))

namespace Rests

variable {β γ : Type} {s : Store} {touch? touch'? : Option Touch}
  {run : Store → Reply × Store × β} {run' : Store → Reply × Store × γ}

/-- What never looks at memory. -/
theorem of_same (same : ∀ t t', run t = ((run t').1, t, (run t').2.2)) : Rests s touch? run :=
  .aloof (run s).1 (run s).2.2 fun t _ => same t s

/-- What a handle makes of the end of a touch: its faults are told in some way, and its answer may
be told in another and move the handle. -/
def finish (b : β) (told : Fault → Reply) (passed : Reply → Reply × β) :
    Except (Stop Fault) Reply → Reply × β
  | .ok reply => passed reply
  | .error stop => (stop.reply told, b)

/-- What hands a touch on. -/
theorem of_run {τ : Touch} (b : β) (told : Fault → Reply) (passed : Reply → Reply × β)
    (plain : ∀ bytes, (passed (τ.transfer.answer bytes)).1.isRefusal = false)
    (same : ∀ t, run t = match τ.run t with
      | .ok reply t' => ((passed reply).1, t', (passed reply).2)
      | .error stop t' => (stop.reply told, t', b)) : Rests s (some τ) run := by
  refine .on τ rfl (finish b told passed) plain fun t _ => ?_
  rw [same, outcome, after]
  rcases τ.run t with _ | ⟨_ | _, _⟩ <;> rfl

/-- What becomes of the handle may be told in other terms. -/
theorem map (rests : Rests s touch? run) (f : β → γ) :
    Rests s touch? fun t => ((run t).1, (run t).2.1, f (run t).2.2) := by
  cases rests with
  | aloof reply b same => exact .aloof reply (f b) fun t alike => by rw [same t alike]
  | on τ found finish plain same =>
      exact .on τ found (fun ended => ((finish ended).1, f (finish ended).2)) plain
        fun t alike => by rw [same t alike]

theorem resembles (rests : Rests s touch? run) {t : Store} (alike : s.Resembles t) :
    s.Resembles (run t).2.1 := by
  cases rests with
  | aloof reply b same =>
      rw [same t alike]
      exact alike
  | on τ found finish plain same =>
      rw [same t alike]
      exact alike.trans (τ.after_resembles t)

/-- Uses of which neither has a part in what comes of the other. -/
structure Commute (run : Store → Reply × Store × β) (run' : Store → Reply × Store × γ)
    (s : Store) : Prop where
  reply : (run (run' s).2.1).1 = (run s).1
  reply' : (run' (run s).2.1).1 = (run' s).1
  handle : (run (run' s).2.1).2.2 = (run s).2.2
  handle' : (run' (run s).2.1).2.2 = (run' s).2.2
  store : (run (run' s).2.1).2.1 = (run' (run s).2.1).2.1

theorem Commute.symm (h : Commute run run' s) : Commute run' run s where
  reply := h.reply'
  reply' := h.reply
  handle := h.handle'
  handle' := h.handle
  store := h.store.symm

/-- What is settled without memory may come before or after anything. -/
private theorem commute_aloof {reply : Reply} {b : β}
    (aloof : ∀ t, s.Resembles t → run t = (reply, t, b)) (rests : Rests s touch? run') :
    Commute run run' s := by
  have now := aloof s (.refl s)
  have later := aloof _ (rests.resembles (.refl s))
  constructor <;> simp only [now, later]

/-- Uses may change places if their touches are clear of each other, as far as there are any. -/
theorem commute (rests : Rests s touch? run) (rests' : Rests s touch'? run') (apart : s.Apart)
    (clear : ∀ τ τ', touch? = some τ → touch'? = some τ' → (run s).1.isRefusal = false →
      (run' s).1.isRefusal = false → Touch.Clear s τ τ') : Commute run run' s := by
  cases rests with
  | aloof reply b same => exact commute_aloof same rests'
  | on τ found finish plain same =>
      cases rests' with
      | aloof reply b same' => exact (commute_aloof same' (.on τ found finish plain same)).symm
      | on τ' found' finish' plain' same' =>
          have touches : Operation.Commute τ.run τ'.run s := by
            refine Touch.commute apart fun reply reply' passed passed' => ?_
            have told := same s (.refl s)
            have told' := same' s (.refl s)
            rw [passed] at told
            rw [passed'] at told'
            obtain ⟨_, ran⟩ := Operation.outcome_eq_ok_iff.mp passed
            obtain ⟨_, ran'⟩ := Operation.outcome_eq_ok_iff.mp passed'
            obtain ⟨-, bytes, -, rfl⟩ := Transfer.run_flat apart ran
            obtain ⟨-, bytes', -, rfl⟩ := Transfer.run_flat apart ran'
            exact clear τ τ' found found' (told ▸ plain bytes) (told' ▸ plain' bytes')
          have now := same s (.refl s)
          have now' := same' s (.refl s)
          have later := same _ (τ'.after_resembles s)
          have later' := same' _ (τ.after_resembles s)
          exact {
            reply := by rw [now', later, touches.first, now]
            reply' := by rw [now, later', touches.second, now']
            handle := by rw [now', later, touches.first, now]
            handle' := by rw [now, later', touches.second, now']
            store := by rw [now', later, now, later', touches.state] }

end Rests

/-- All uses of a region but its release; the handle stays as it is. -/
theorem RegionUse.rests (how : RegionUse) (r : Region) (keyName : SegmentKey → String) (s : Store)
    (kept : how ≠ .release) :
    Rests s (r.touch? how) fun t => ((how.run r keyName t).1, (how.run r keyName t).2, ()) := by
  unfold Region.touch?
  cases transfer : r.transfer? how with
  | some place =>
      obtain ⟨x, offset⟩ := place
      simp only [Region.run_use transfer]
      refine .of_run () how.failure (fun reply => (reply, ())) x.answer_plain fun t => ?_
      simp only [Operation.settle, Touch.run]
      rcases x.run r offset t with _ | ⟨_ | _, _⟩ <;> rfl
  | none =>
      cases how with
      | release => exact absurd rfl kept
      | report =>
          refine .aloof (.report (r.report s keyName)) () fun t alike => ?_
          simp only [run, Region.report, Region.variant, Region.isValid, Region.viewReport?,
            Region.rootReport?, alike.isValid, alike.roots]
      | clearBetween byte first last =>
          refine .of_same fun t t' => ?_
          simp only [run_turned transfer]
      | _ => cases transfer

section Cursors

variable {s : Store} {c : Cursor}

/-- Where a cursor does not refuse a transfer by itself it leaves the matter to its region. -/
private theorem Cursor.transferAt_cases (c : Cursor) (x : Transfer) (offset : Nat) :
    (∃ cause, ∀ t, c.transferAt x offset t = .error (.fault cause) t) ∨
      ∀ t, c.transferAt x offset t = x.run c.region offset t := by
  cases long : x.lengthFault? with
  | some cause => exact .inl ⟨cause, fun t => by rw [transferAt_run, long]⟩
  | none =>
      by_cases inside : offset + x.size ≤ c.limit
      · exact .inr fun t => by simp only [transferAt_run, long, inside, if_true]
      · exact .inl ⟨_, fun t => by simp only [transferAt_run, long, inside, if_false]; rfl⟩

private theorem Cursor.transfer_rests {how : CursorUse} {x : Transfer} {place : Option Nat}
    (transfer : c.transfer? how = some (x, place)) :
    Rests s (some {
        region := c.region
        offset := place.getD c.position
        transfer := x
        reply := x.answer }) fun t => how.run (t, c) := by
  simp only [run_use transfer]
  cases place with
  | none =>
      rcases c.transferAt_cases x c.position with ⟨cause, stopped⟩ | handed
      · exact .of_same fun t t' => by simp only [Operation.settle, transfer_run, stopped]
      · let passed (reply : Reply) : Reply × Cursor :=
          if c.position + x.size < Word.modulus then (reply, c.moved x.size) else (.trap, c)
        refine .of_run c .fault passed (fun bytes => ?_) fun t => ?_
        · simp only [passed]
          split
          · exact x.answer_plain bytes
          · rfl
        · simp only [Operation.settle, transfer_run, handed, Touch.run, passed, Option.getD_none]
          rcases x.run c.region c.position t with _ | ⟨_ | _, _⟩
          · by_cases fits : c.position + x.size < Word.modulus <;>
              simp only [fits, if_true, if_false, id]
          · rfl
          · rfl
  | some offset =>
      rcases c.transferAt_cases x offset with ⟨cause, stopped⟩ | handed
      · exact .of_same fun t t' => by simp only [Operation.settle, Operation.onFirst_run, stopped]
      · refine .of_run c .fault (fun reply => (reply, c)) x.answer_plain fun t => ?_
        simp only [Operation.settle, Operation.onFirst_run, handed, Touch.run, Option.getD_some]
        rcases x.run c.region offset t with _ | ⟨_ | _, _⟩ <;> rfl

private theorem Cursor.padTo_rests (width : Nat) (byte : UInt8) :
    Rests s (c.padTouch? width byte)
      fun t => (padTo width byte).settle .fault .number (t, c) := by
  unfold padTouch?
  cases skips : c.padding width with
  | error cause => exact .of_same fun t t' => by simp only [Operation.settle, padTo_run, skips]
  | ok skip =>
      by_cases nothing : skip = 0
      · exact .of_same fun t t' => by
          simp only [Operation.settle, padTo_run, skips, nothing, if_true]
      · refine .of_run c .fault (fun _ => (.number skip, c.moved skip)) (fun _ => rfl) fun t => ?_
        simp only [Operation.settle, padTo_run, skips, nothing, if_false, Touch.run]
        rcases (Transfer.clear byte skip).run c.region c.position t with _ | ⟨_ | _, _⟩ <;> rfl

private theorem Cursor.alignTo_rests (width : Nat) :
    Rests s none fun t => (alignTo width).settle .fault .number (t, c) := by
  refine .of_same fun t t' => ?_
  cases skips : c.padding width with
  | error fault => simp only [Operation.settle, alignTo_run, skips]
  | ok skip =>
      by_cases inside : c.position + skip < Word.modulus <;>
        simp only [Operation.settle, alignTo_run, skips, inside, if_true, if_false]

theorem CursorUse.rests (how : CursorUse) (c : Cursor) (s : Store) :
    Rests s (c.touch? how) fun t => how.run (t, c) := by
  cases transfer : c.transfer? how with
  | some found =>
      obtain ⟨x, place⟩ := found
      have rests := Cursor.transfer_rests (s := s) transfer
      cases how with
      | pad width byte => cases transfer
      | padToWord byte => cases transfer
      | _ => simpa only [Cursor.touch?, transfer, Option.map_some] using rests
  | none =>
      cases how with
      | pad width byte => exact Cursor.padTo_rests width byte
      | padToWord byte => exact Cursor.padTo_rests Host.wordSize byte
      | setOrder order => exact .of_same fun _ _ => rfl
      | mark => exact .of_same fun _ _ => rfl
      | save => exact .of_same fun _ _ => rfl
      | setPosition position =>
          refine .of_same fun t t' => ?_
          by_cases fits : position ≤ c.limit <;>
            simp only [run, Operation.settle, Cursor.setPosition_run, fits, if_true, if_false]
      | advance n =>
          refine .of_same fun t t' => ?_
          by_cases fits : c.position + n ≤ c.limit <;>
            by_cases inside : c.position + n < Word.modulus <;>
              simp only [run, Operation.settle, Cursor.advance_run, fits, inside, if_true, if_false]
      | setLimit limit =>
          refine .of_same fun t t' => ?_
          by_cases fits : limit ≤ c.length <;>
            simp only [run, Operation.settle, Cursor.setLimit_run, fits, if_true, if_false]
      | restore =>
          refine .of_same fun t t' => ?_
          cases saved : c.saved <;>
            simp only [run, Operation.settle, Cursor.restore_run, saved]
      | align width => exact Cursor.alignTo_rests width
      | alignToWord => exact Cursor.alignTo_rests Host.wordSize
      | _ => cases transfer

end Cursors

section Windows

variable {s : Store} {w : Window}

/-- A move that a window decides by itself. -/
private def Window.Decides {ε α : Type} (w : Window) (x : Act ε α) : Prop :=
  (∃ e, ∀ t, x (t, w) = .error e (t, w)) ∨ ∃ a w', ∀ t, x (t, w) = .ok a (t, w')

private theorem Window.Decides.rests {ε α : Type} {x : Act ε α} (decides : w.Decides x)
    {touch? : Option Touch} (fault : ε → Reply) (reply : α → Reply) :
    Rests s touch? fun t => Operation.settle x fault reply (t, w) := by
  refine .of_same fun t t' => ?_
  rcases decides with ⟨_ | _, stopped⟩ | ⟨_, _, passed⟩
  · simp only [Operation.settle, stopped]
  · simp only [Operation.settle, stopped]
  · simp only [Operation.settle, passed]

private theorem Window.Decides.map {ε α γ : Type} {x : Act ε α} (decides : w.Decides x)
    (f : α → γ) : w.Decides (do return f (← x)) := by
  rcases decides with ⟨e, stopped⟩ | ⟨a, w', passed⟩
  · exact .inl ⟨e, fun t => by rw [Operation.bind_run, stopped]⟩
  · exact .inr ⟨f a, w', fun t => by rw [Operation.bind_run, passed]; rfl⟩

private theorem Window.decides_seek (wanted : SeekFrom) : w.Decides (seek wanted) := by
  cases found : w.target? wanted with
  | none => exact .inl ⟨_, fun t => by simp only [seek_run, found]; rfl⟩
  | some target =>
      by_cases outside : target < w.start ∨ w.stop < target
      · exact .inl ⟨_, fun t => by simp only [seek_run, found, outside, if_true]; rfl⟩
      · exact .inr ⟨_, _, fun t => by simp only [seek_run, found, outside, if_false]; rfl⟩

private theorem Window.decides_rewind : w.Decides rewind := by
  unfold rewind
  exact (w.decides_seek (.start 0)).map fun _ => ()

private theorem Window.decides_tell : w.Decides tell := by
  unfold tell
  exact w.decides_seek (.current 0)

theorem WindowUse.rests (how : WindowUse) (w : Window) (s : Store) (touch? : Option Touch) :
    Rests s touch? fun t => how.run (t, w) := by
  cases how with
  | seekTo offset =>
      refine .of_same fun t t' => ?_
      by_cases outside : offset < w.start ∨ w.stop < offset <;>
        simp only [run, Operation.settle, Window.seekTo_run, outside, if_true, if_false]
  | skip n =>
      refine .of_same fun t t' => ?_
      by_cases fits : w.offset + min n w.available < Word.modulus <;>
        simp only [run, Operation.settle, Window.skip_run, fits, if_true, if_false]
  | seek wanted => exact (w.decides_seek wanted).rests _ _
  | rewind =>
      have decides := w.decides_rewind
      unfold run
      generalize Window.rewind = x at decides
      exact decides.rests _ _
  | tell =>
      have decides := w.decides_tell
      unfold run
      generalize Window.tell = x at decides
      exact decides.rests _ _

/-- What a reader says once its region has answered, and where it then stands. -/
def ReaderUse.Read.passed {how : ReaderUse} (read : how.Read w) : Reply → Reply × Window
  | .bytes bytes => (read.answer bytes, w.moved (min read.size w.available))
  | reply => (reply, w)

/-- Bytes that were read are told as such, or found wanting. -/
theorem ReaderUse.Read.plain {how : ReaderUse} (read : how.Read w)
    (reads : w.readerTouch? how = some (w.readTouch read.size read.reply)) (bytes : Bytes) :
    (read.answer bytes).isRefusal = false := by
  have replied : (read.reply bytes).isRefusal = false := by
    generalize touch : w.readTouch read.size read.reply = τ at reads
    have reply : read.reply = τ.reply := congrArg Touch.reply touch
    rw [reply]
    cases how with
    | readText =>
        cases reads
        unfold Window.readTouch Window.textReply
        dsimp only
        split <;> rfl
    | _ => cases reads <;> rfl
  rcases read.answered bytes with answer | wanting
  · rw [answer, replied]
  · rw [wanting]
    rfl

theorem ReaderUse.rests (how : ReaderUse) (w : Window) (s : Store) :
    Rests s (w.readerTouch? how) fun t => how.run (t, w) := by
  cases reads : w.readerTouch? how with
  | none =>
      cases how with
      | move how => exact how.rests w s none
      | _ => cases reads
  | some τ =>
      obtain ⟨read, rfl⟩ := ReaderUse.run_reads reads
      simp only [read.same]
      by_cases nothing : min read.size w.available = 0
      · exact .of_same fun t t' => by
          simp only [Operation.settle, Reader.read_run, nothing, if_true]
      · refine .of_run w read.told read.passed (read.plain reads) fun t => ?_
        simp only [Operation.settle, Reader.read_run, nothing, if_false, Touch.run,
          Window.readTouch, Transfer.run, Operation.bind_run]
        rcases w.region.readBytes w.offset (min read.size w.available) t with _ | ⟨_ | _, _⟩ <;> rfl

private theorem Writer.write_rests (bytes : Bytes) {reply : Reply} (told : Fault → Reply)
    (plain : reply.isRefusal = false) :
    Rests s (some (w.writeTouch bytes reply)) fun t =>
      (write bytes).settle told (fun _ => reply) (t, w) := by
  by_cases full : w.available < bytes.length
  · exact .of_same fun t t' => by
      simp only [Operation.settle, write_run, full, if_true]
  · let passed (_ : Reply) : Reply × Window :=
      if w.offset + bytes.length < Word.modulus then (reply, w.moved bytes.length) else (.trap, w)
    refine .of_run w told passed (fun _ => ?_) fun t => ?_
    · simp only [passed]
      split
      · exact plain
      · rfl
    · simp only [Operation.settle, write_run, full, if_false, Touch.run, Window.writeTouch,
        Transfer.run, Operation.bind_run, passed]
      rcases w.region.writeBytes w.offset bytes t with _ | ⟨_ | _, _⟩
      · by_cases fits : w.offset + bytes.length < Word.modulus <;>
          simp only [fits, if_true, if_false, Operation.pure_run]
      · rfl
      · rfl

theorem WriterUse.rests (how : WriterUse) (w : Window) (s : Store) :
    Rests s (w.writerTouch? how) fun t => how.run (t, w) := by
  cases writes : how.writes? with
  | none =>
      cases how with
      | move how => exact how.rests w s none
      | flush => exact .of_same fun _ _ => rfl
      | _ => cases writes
  | some found =>
      obtain ⟨bytes, reply⟩ := found
      obtain ⟨touch, -⟩ := w.writerTouch?_of_writes writes
      have plain : reply.isRefusal = false := by cases how <;> cases writes <;> rfl
      rcases WriterUse.run_writes writes with rfl | ⟨told, -, same⟩
      · exact .of_same fun _ _ => rfl
      · simp only [touch, same]
        exact Writer.write_rests bytes told plain

end Windows

end BoundedMemory
