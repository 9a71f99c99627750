import BoundedMemory.Proofs.Copying
import BoundedMemory.Proofs.Settling

/-!
Where streams stand. The offset of a window lies between its ends, and these in its
region. Each use of a stream leaves it so, as does each round of a copy, and has an
outcome where the memory of the region is there.
-/

namespace BoundedMemory

open Operation (Settles settles_iff)

variable {s : Store} {r : Region} {w : Window}

namespace Window

structure Ordered (w : Window) : Prop where
  begun : w.start ≤ w.offset
  ended : w.offset ≤ w.stop
  inside : w.stop ≤ w.region.length

/-- A window that is in order on a region, beside a store that was at most written over. -/
structure InOrder (s : Store) (r : Region) (t : Store × Window) : Prop where
  alike : s.Resembles t.1
  region : t.2.region = r
  ordered : t.2.Ordered

theorem ofRegion_ordered (r : Region) : (ofRegion r).Ordered where
  begun := Nat.le_refl _
  ended := Nat.zero_le _
  inside := Nat.le_refl _

theorem Ordered.inOrder (h : w.Ordered) : InOrder s w.region (s, w) := ⟨.refl s, rfl, h⟩

theorem Ordered.moved (h : w.Ordered) {n : Nat} (fits : n ≤ w.available) {t : Store}
    (alike : s.Resembles t) : InOrder s w.region (t, w.moved n) := by
  have begun := h.begun
  have ended := h.ended
  unfold available at fits
  refine ⟨alike, rfl, ?_, ?_, h.inside⟩
  · show w.start ≤ w.offset + n
    omega
  · show w.offset + n ≤ w.stop
    omega

/-- Nothing that a window can reach lies outside of the words. -/
theorem Ordered.word (h : w.Ordered) (served : w.region.Served s) {n : Nat}
    (fits : n ≤ w.available) : w.offset + n < Word.modulus := by
  have words := served.words
  have ended := h.ended
  have inside := h.inside
  unfold available at fits
  omega

variable {ε : Type}

private theorem seekTo_settles (h : w.Ordered) (offset : Nat) :
    Settles (fun _ => InOrder s w.region) (InOrder s w.region) (seekTo offset) (s, w) := by
  rw [settles_iff, seekTo_run]
  by_cases outside : offset < w.start ∨ w.stop < offset
  · rw [if_pos outside]
    exact ⟨(by simp), h.inOrder⟩
  · rw [if_neg outside]
    exact ⟨.refl s, rfl, by show w.start ≤ offset; omega, by show offset ≤ w.stop; omega, h.inside⟩

private theorem seek_settles (h : w.Ordered) (wanted : SeekFrom) :
    Settles (fun _ => InOrder s w.region) (InOrder s w.region) (seek wanted) (s, w) := by
  rw [settles_iff, seek_run]
  cases w.target? wanted with
  | none => exact ⟨(by simp), h.inOrder⟩
  | some target =>
      by_cases outside : target < w.start ∨ w.stop < target
      · simp only [if_pos outside]
        exact ⟨(by simp), h.inOrder⟩
      · simp only [if_neg outside]
        exact ⟨.refl s, rfl, by show w.start ≤ target; omega, by show target ≤ w.stop; omega,
          h.inside⟩

private theorem skip_settles (h : w.Ordered) (served : w.region.Served s) (n : Nat) :
    Settles (fun _ => InOrder s w.region) (InOrder s w.region) (skip n : Act ε Nat) (s, w) := by
  have fits : min n w.available ≤ w.available := Nat.min_le_right _ _
  rw [settles_iff, skip_run, if_pos (h.word served fits)]
  exact h.moved fits (.refl s)

end Window

open Window (InOrder)

theorem WindowUse.settled (how : WindowUse) (h : w.Ordered) (served : w.region.Served s) :
    (how.run (s, w)).1 ≠ .trap ∧ InOrder s w.region (how.run (s, w)).2 := by
  cases how with
  | seekTo offset =>
      exact (Window.seekTo_settles h offset).settle_kept (by simp) fun _ => Reply.noConfusion
  | skip n =>
      exact (Window.skip_settles h served n).settle_kept (by simp) (by simp)
  | seek wanted =>
      exact (Window.seek_settles h wanted).settle_kept (by simp) (by simp)
  | rewind =>
      have rewound : Settles (fun _ => InOrder s w.region) (InOrder s w.region) Window.rewind
          (s, w) := by
        unfold Window.rewind
        exact (Window.seek_settles h (.start 0)).bind fun _ _ found => .pure found
      unfold WindowUse.run
      exact rewound.settle_kept (by simp) fun _ => Reply.noConfusion
  | tell =>
      have told : Settles (fun _ => InOrder s w.region) (InOrder s w.region) Window.tell (s, w) :=
        Window.seek_settles h (.current 0)
      unfold WindowUse.run
      exact told.settle_kept (by simp) (by simp)

namespace Reader

theorem read_settles (h : w.Ordered) (served : w.region.Served s) (n : Nat) :
    Settles (fun _ => InOrder s w.region) (InOrder s w.region) (read n) (s, w) := by
  have fits : min n w.available ≤ w.available := Nat.min_le_right _ _
  have bytes := Region.readBytes_settles served w.offset (min n w.available)
  rw [settles_iff, read_run]
  by_cases nothing : min n w.available = 0
  · rw [if_pos nothing]
    exact h.inOrder
  · rw [if_neg nothing]
    cases run : w.region.readBytes w.offset (min n w.available) s with
    | ok _ t => exact h.moved fits (bytes.answer run).1
    | error e t =>
        obtain ⟨plain, rfl⟩ := bytes.fault run
        exact ⟨plain, h.inOrder⟩

end Reader

private theorem readerTouch?_ne_trap {how : ReaderUse} {τ : Touch}
    (reads : w.readerTouch? how = some τ) (bytes : Bytes) : τ.reply bytes ≠ .trap := by
  cases how with
  | readText =>
      cases reads
      unfold Window.readTouch Window.textReply
      dsimp only
      split <;> simp
  | _ => cases reads <;> simp [Window.readTouch, Window.filled]

/-- Every use of a reader has an outcome and leaves its window in order. -/
theorem ReaderUse.settled (how : ReaderUse) (h : w.Ordered) (served : w.region.Served s) :
    (how.run (s, w)).1 ≠ .trap ∧ InOrder s w.region (how.run (s, w)).2 := by
  cases reads : w.readerTouch? how with
  | none =>
      cases how with
      | move how => exact how.settled h served
      | _ => cases reads
  | some τ =>
      obtain ⟨read, rfl⟩ := ReaderUse.run_reads reads
      rw [read.same]
      refine (Reader.read_settles h served read.size).settle_kept ?_ ?_
      · intro cause
        rcases read.telling cause with told | told <;> simp [told]
      · intro bytes
        rcases read.answered bytes with answer | wanting
        · rw [answer]
          exact readerTouch?_ne_trap reads bytes
        · simp [wanting]

namespace Writer

theorem write_settles (h : w.Ordered) (served : w.region.Served s) (bytes : Bytes) :
    Settles (fun _ => InOrder s w.region) (InOrder s w.region) (write bytes) (s, w) := by
  have written := Region.writeBytes_settles served w.offset bytes
  rw [settles_iff, write_run]
  by_cases full : w.available < bytes.length
  · rw [if_pos full]
    exact ⟨(by simp), h.inOrder⟩
  · have fits : bytes.length ≤ w.available := Nat.not_lt.mp full
    rw [if_neg full]
    cases run : w.region.writeBytes w.offset bytes s with
    | ok _ t =>
        simp only [if_pos (h.word served fits)]
        exact h.moved fits (written.answer run)
    | error e t =>
        obtain ⟨plain, rfl⟩ := written.fault run
        exact ⟨plain, h.inOrder⟩

theorem writeAll_settles (h : w.Ordered) (served : w.region.Served s) (bytes : Bytes) :
    Settles (fun _ => InOrder s w.region) (InOrder s w.region) (writeAll bytes) (s, w) := by
  unfold writeAll
  split
  · exact (write_settles h served bytes).mapFault _
  · exact .pure h.inOrder

end Writer

/-- Every use of a writer has an outcome and leaves its window in order. -/
theorem WriterUse.settled (how : WriterUse) (h : w.Ordered) (served : w.region.Served s) :
    (how.run (s, w)).1 ≠ .trap ∧ InOrder s w.region (how.run (s, w)).2 := by
  have some (bytes : Bytes) : Settles (fun _ => InOrder s w.region) (InOrder s w.region)
      (Writer.writeSome bytes) (s, w) :=
    ((Writer.write_settles h served bytes).mapFault _).bind fun _ _ found => .pure found
  cases how with
  | move how => exact how.settled h served
  | write bytes =>
      exact (Writer.write_settles h served bytes).settle_kept (by simp) fun _ => Reply.noConfusion
  | writeByte byte =>
      exact (Writer.write_settles h served [byte]).settle_kept (by simp) fun _ => Reply.noConfusion
  | writeSome bytes => exact (some bytes).settle_kept (by simp) (by simp)
  | writeAll bytes =>
      exact (Writer.writeAll_settles h served bytes).settle_kept (by simp) fun _ =>
        Reply.noConfusion
  | flush => exact ⟨Reply.noConfusion, h.inOrder⟩

namespace Stream

variable {c : Copying}

/-- The two windows of a copy in order on their regions. -/
structure Copying.InOrder (c c' : Copying) : Prop where
  source : Window.InOrder c.store c.source.region (c'.store, c'.source)
  target : Window.InOrder c.store c.target.region (c'.store, c'.target)

/-- What the source does to a copy leaves the target alone. -/
private theorem onSource_settles {α : Type} {x : Window.Act StreamFault α}
    (target : c.target.Ordered)
    (h : Settles (fun _ => Window.InOrder c.store c.source.region)
      (Window.InOrder c.store c.source.region) x (c.store, c.source)) :
    Settles (fun _ => c.InOrder) c.InOrder (onSource x) c := by
  rw [settles_iff, onSource_run]
  cases run : x (c.store, c.source) with
  | ok a t => exact ⟨h.answer run, (h.answer run).alike, rfl, target⟩
  | error e t =>
      obtain ⟨plain, now⟩ := h.fault run
      exact ⟨plain, now, now.alike, rfl, target⟩

private theorem onTarget_settles {α : Type} {x : Window.Act StreamFault α}
    (source : c.source.Ordered)
    (h : Settles (fun _ => Window.InOrder c.store c.target.region)
      (Window.InOrder c.store c.target.region) x (c.store, c.target)) :
    Settles (fun _ => c.InOrder) c.InOrder (onTarget x) c := by
  rw [settles_iff, onTarget_run]
  cases run : x (c.store, c.target) with
  | ok a t => exact ⟨⟨(h.answer run).alike, rfl, source⟩, h.answer run⟩
  | error e t =>
      obtain ⟨plain, now⟩ := h.fault run
      exact ⟨plain, ⟨now.alike, rfl, source⟩, now⟩

theorem Copying.InOrder.trans {c' c'' : Copying} (h : c.InOrder c') (h' : c'.InOrder c'') :
    c.InOrder c'' where
  source := ⟨h.source.alike.trans h'.source.alike, h'.source.region.trans h.source.region,
    h'.source.ordered⟩
  target := ⟨h.target.alike.trans h'.target.alike, h'.target.region.trans h.target.region,
    h'.target.ordered⟩

/-- Each round finds the windows as the one before it has left them. -/
private theorem copyRounds_settles (chunk : Nat → Nat) (rounds i copied : Nat)
    (source : c.source.Ordered) (target : c.target.Ordered)
    (readable : c.source.region.Served c.store) (writable : c.target.region.Served c.store) :
    Settles (fun _ => c.InOrder) c.InOrder (copyRounds chunk rounds i copied) c := by
  induction rounds generalizing c i copied with
  | zero => exact Settles.pure ⟨source.inOrder, target.inOrder⟩
  | succ rounds ih =>
      have read := onSource_settles target
        ((Reader.read_settles source readable (chunk i)).mapFault .access)
      refine read.bind fun bytes c₁ first => ?_
      by_cases nothing : bytes.isEmpty = true
      · simp only [nothing, if_true]
        exact Settles.pure first
      · simp only [nothing, Bool.false_eq_true, if_false]
        have writable₁ : c₁.target.region.Served c₁.store :=
          first.target.region ▸ writable.resembles first.target.alike
        have written := onTarget_settles first.source.ordered
          (Writer.writeAll_settles first.target.ordered writable₁ bytes)
        refine (written.mono (fun _ _ => first.trans) (fun _ => first.trans)).bind
          fun _ c₂ second => ?_
        have readable₂ : c₂.source.region.Served c₂.store :=
          second.source.region ▸ readable.resembles second.source.alike
        have writable₂ : c₂.target.region.Served c₂.store :=
          second.target.region ▸ writable.resembles second.target.alike
        exact (ih (i + 1) (copied + bytes.length) second.source.ordered second.target.ordered
          readable₂ writable₂).mono (fun _ _ => second.trans) (fun _ => second.trans)

theorem copy_settles (source : c.source.Ordered) (target : c.target.Ordered)
    (readable : c.source.region.Served c.store) (writable : c.target.region.Served c.store) :
    Settles (fun _ => c.InOrder) c.InOrder copy c :=
  (copyRounds_settles (fun _ => chunkSize) (c.source.available + 1) 0 0 source target readable
    writable).congr rfl

end Stream

end BoundedMemory
