import BoundedMemory.Proofs.CopyLoop
import BoundedMemory.Proofs.SavedStates

/-!
Where streams can be moved. A window is fixed when it comes into being; all that is ever moved
is its offset, and that stays inside. A seek is told from where and how far in numbers of
either sign. It goes through exactly if what these come to lies in the window, and else leaves
the window as it is: no sum that leaves the words is taken for one of them.
-/

namespace BoundedMemory

open Operation (Gives)

variable {s : Store} {r : Region} {w w' w'' : Window}

namespace Window

/-- The second window is the first, with its offset anywhere inside of it. -/
def Slides (w w' : Window) : Prop :=
  ∃ offset, w.start ≤ offset ∧ offset ≤ w.stop ∧ w' = { w with offset }

theorem Ordered.stays (h : w.Ordered) : w.Slides w := ⟨w.offset, h.begun, h.ended, rfl⟩

theorem Ordered.slides (h : w.Ordered) {n : Nat} (fits : n ≤ w.available) :
    w.Slides (w.moved n) := by
  have begun := h.begun
  have ended := h.ended
  unfold available at fits
  exact ⟨w.offset + n, by omega, by omega, rfl⟩

theorem Slides.ordered (slides : w.Slides w') (h : w.Ordered) : w'.Ordered := by
  obtain ⟨offset, low, high, rfl⟩ := slides
  exact ⟨low, high, h.inside⟩

theorem Slides.trans (slides : w.Slides w') (slides' : w'.Slides w'') : w.Slides w'' := by
  obtain ⟨offset, -, -, rfl⟩ := slides
  exact slides'

section Operations

variable {ε : Type}

theorem seekTo_slides (h : w.Ordered) (offset : Nat) :
    w.Slides (Operation.after (seekTo offset) (s, w)).2 := by
  unfold Operation.after
  rw [seekTo_run]
  by_cases outside : offset < w.start ∨ w.stop < offset
  · rw [if_pos outside]
    exact h.stays
  · rw [if_neg outside]
    exact ⟨offset, by omega, by omega, rfl⟩

theorem seek_slides (h : w.Ordered) (wanted : SeekFrom) :
    w.Slides (Operation.after (seek wanted) (s, w)).2 := by
  unfold Operation.after
  rw [seek_run]
  cases w.target? wanted with
  | none => exact h.stays
  | some target =>
      by_cases outside : target < w.start ∨ w.stop < target
      · simp only [if_pos outside]
        exact h.stays
      · simp only [if_neg outside]
        exact ⟨target, by omega, by omega, rfl⟩

theorem skip_slides (h : w.Ordered) (n : Nat) :
    w.Slides (Operation.after (skip n : Act ε Nat) (s, w)).2 := by
  unfold Operation.after
  rw [skip_run]
  by_cases fits : w.offset + min n w.available < Word.modulus
  · rw [if_pos fits]
    exact h.slides (Nat.min_le_right n w.available)
  · rw [if_neg fits]
    exact h.stays

end Operations

end Window

theorem WindowUse.slides (how : WindowUse) (h : w.Ordered) : w.Slides (how.run (s, w)).2.2 := by
  cases how with
  | seekTo offset =>
      simp only [run, Operation.settle_snd]
      exact Window.seekTo_slides h offset
  | skip n =>
      simp only [run, Operation.settle_snd]
      exact Window.skip_slides h n
  | seek wanted =>
      simp only [run, Operation.settle_snd]
      exact Window.seek_slides h wanted
  | rewind =>
      simp only [run, Operation.settle_snd, Window.rewind]
      rw [Operation.after_map]
      exact Window.seek_slides h (.start 0)
  | tell =>
      simp only [run, Operation.settle_snd]
      exact Window.seek_slides h (.current 0)

theorem Reader.read_slides (h : w.Ordered) (n : Nat) :
    w.Slides (Operation.after (read n) (s, w)).2 := by
  unfold Operation.after
  rw [read_run]
  by_cases nothing : min n w.available = 0
  · rw [if_pos nothing]
    exact h.stays
  · rw [if_neg nothing]
    cases w.region.readBytes w.offset (min n w.available) s with
    | ok bytes after => exact h.slides (Nat.min_le_right n w.available)
    | error e after => exact h.stays

theorem ReaderUse.slides (how : ReaderUse) (h : w.Ordered) : w.Slides (how.run (s, w)).2.2 := by
  cases reads : w.readerTouch? how with
  | none =>
      cases how with
      | move how => exact how.slides h
      | _ => cases reads
  | some τ =>
      obtain ⟨read, -⟩ := ReaderUse.run_reads reads
      rw [read.same, Operation.settle_snd]
      exact Reader.read_slides h read.size

theorem Writer.write_slides (h : w.Ordered) (bytes : Bytes) :
    w.Slides (Operation.after (write bytes) (s, w)).2 := by
  unfold Operation.after
  rw [write_run]
  by_cases full : w.available < bytes.length
  · rw [if_pos full]
    exact h.stays
  · rw [if_neg full]
    cases w.region.writeBytes w.offset bytes s with
    | error e after => exact h.stays
    | ok _ after =>
        by_cases fits : w.offset + bytes.length < Word.modulus
        · simp only [if_pos fits]
          exact h.slides (Nat.not_lt.mp full)
        · simp only [if_neg fits]
          exact h.stays

theorem WriterUse.slides (how : WriterUse) (h : w.Ordered) : w.Slides (how.run (s, w)).2.2 := by
  cases writes : how.writes? with
  | none =>
      cases how with
      | move how => exact how.slides h
      | flush => exact h.stays
      | _ => cases writes
  | some found =>
      obtain ⟨bytes, reply⟩ := found
      obtain rfl | ⟨told, -, same⟩ := WriterUse.run_writes writes
      · exact h.stays
      · rw [same, Operation.settle_snd]
        exact Writer.write_slides h bytes

namespace Stream

variable {c : Copying}

/-- A round of a copy moves its source by what it reads and its target by what it writes. -/
theorem copyRound_slides (source : c.source.Ordered) (target : c.target.Ordered) (n : Nat) :
    c.source.Slides (Operation.after (copyRound n) c).source ∧
      c.target.Slides (Operation.after (copyRound n) c).target := by
  have read := Reader.read_slides (s := c.store) source n
  unfold Operation.after at read ⊢
  rw [copyRound_run]
  generalize Reader.read n (c.store, c.source) = result at read ⊢
  rcases result with ⟨bytes, t, w⟩ | ⟨_ | _, t, w⟩
  · by_cases nothing : bytes.length = 0
    · simp only [nothing, if_true]
      exact ⟨read, target.stays⟩
    · have written := Writer.write_slides (s := t) target bytes
      unfold Operation.after at written
      simp only [nothing, if_false, Operation.mapFault_run]
      generalize Writer.write bytes (t, c.target) = result at written ⊢
      rcases result with _ | ⟨_ | _, _⟩ <;> exact ⟨read, written⟩
  · exact ⟨read, target.stays⟩
  · exact ⟨read, target.stays⟩

theorem copyRounds_slides (chunk : Nat → Nat) (rounds i copied : Nat) (source : c.source.Ordered)
    (target : c.target.Ordered) :
    c.source.Slides (Operation.after (copyRounds chunk rounds i copied) c).source ∧
      c.target.Slides (Operation.after (copyRounds chunk rounds i copied) c).target := by
  induction rounds generalizing c i copied with
  | zero => exact ⟨source.stays, target.stays⟩
  | succ rounds ih =>
      have first := copyRound_slides source target (chunk i)
      unfold Operation.after at first ⊢
      rw [copyRounds_succ]
      cases round : copyRound (chunk i) c with
      | error e after =>
          rw [round] at first
          exact first
      | ok n between =>
          rw [round] at first
          by_cases nothing : n = 0
          · simp only [nothing, if_true]
            exact first
          · simp only [nothing, if_false]
            have later := ih (i + 1) (copied + n) (first.1.ordered source)
              (first.2.ordered target)
            exact ⟨first.1.trans later.1, first.2.trans later.2⟩

theorem copy_slides (source : c.source.Ordered) (target : c.target.Ordered) :
    c.source.Slides (Operation.after copy c).source ∧
      c.target.Slides (Operation.after copy c).target :=
  copyRounds_slides (fun _ => chunkSize) (c.source.available + 1) 0 0 source target

end Stream

/-- A stream that was at most moved in its window. -/
inductive Handle.Slides : Handle → Handle → Prop where
  | reader {w w' : Window} (slides : w.Slides w') : Slides (.reader w) (.reader w')
  | writer {w w' : Window} (slides : w.Slides w') : Slides (.writer w) (.writer w')

/-- The window of a stream. -/
def Handle.window? : Handle → Option Window
  | .reader w | .writer w => some w
  | _ => none

/-- A handle that is no stream, or one whose window is in order. -/
def Handle.Framed (h : Handle) : Prop :=
  ∀ w, h.window? = some w → w.Ordered

namespace Handle

variable {h h' h'' : Handle}

theorem Slides.trans (slides : h.Slides h') (slides' : h'.Slides h'') : h.Slides h'' := by
  cases slides with
  | reader first =>
      cases slides' with
      | reader second => exact .reader (first.trans second)
  | writer first =>
      cases slides' with
      | writer second => exact .writer (first.trans second)

theorem Slides.stream (slides : h.Slides h') : ∃ w, h'.window? = some w := by
  cases slides <;> exact ⟨_, rfl⟩

theorem Framed.of_none (none : h.window? = none) : h.Framed := by
  intro w found
  rw [none] at found
  cases found

theorem framed_reader : (reader w).Framed ↔ w.Ordered :=
  ⟨fun framed => framed w rfl, fun ordered _ found => by cases found; exact ordered⟩

theorem framed_writer : (writer w).Framed ↔ w.Ordered :=
  ⟨fun framed => framed w rfl, fun ordered _ found => by cases found; exact ordered⟩

theorem Framed.stays (framed : h.Framed) (window : h.window? = some w) : h.Slides h := by
  cases h with
  | reader w => exact .reader (framed w rfl).stays
  | writer w => exact .writer (framed w rfl).stays
  | _ => cases window

theorem Slides.framed (slides : h.Slides h') (framed : h.Framed) : h'.Framed := by
  cases slides with
  | reader slides => exact framed_reader.mpr (slides.ordered (framed_reader.mp framed))
  | writer slides => exact framed_writer.mpr (slides.ordered (framed_writer.mp framed))

end Handle

namespace Session

section Derivations

variable {how : Deriving} {make : Action Store Handle}

theorem within_gives (r : Region) (start length : Nat) :
    Gives Window.Ordered (Window.within r start length) := by
  refine .check fun _ inside => .defined fun stop sum => .pure ?_
  have inside := Extent.check_eq_ok_iff.mp inside
  obtain ⟨rfl, -⟩ := Word.add?_eq_some_iff.mp sum
  exact ⟨Nat.le_refl _, Nat.le_add_right _ _, inside⟩

private theorem ofRegion_framed (derives : ofRegion? how r s = some make) :
    Gives Handle.Framed make := by
  cases how with
  | reader range =>
      cases range <;> cases derives
      · exact .pure (Handle.framed_reader.mpr (Window.ofRegion_ordered r))
      · exact (within_gives r _ _).bind fun w ordered => .pure (Handle.framed_reader.mpr ordered)
  | writer range =>
      cases range <;> cases derives
      · exact .pure (Handle.framed_writer.mpr (Window.ofRegion_ordered r))
      · exact (within_gives r _ _).bind fun w ordered => .pure (Handle.framed_writer.mpr ordered)
  | parent =>
      obtain ⟨root, -, rfl⟩ := Option.map_eq_some_iff.mp derives
      exact .pure (.of_none rfl)
  | copy | cursor =>
      cases derives
      exact .pure (.of_none rfl)
  | slice | sliceFrom | sliceBetween | restrict | readOnly | cursorWithin | cursorOpen =>
      cases derives
      exact .after fun _ => .pure (.of_none rfl)
  | _ => cases derives

private theorem ofCursor_framed {c : Cursor} (derives : ofCursor? how c = some make) :
    Gives Handle.Framed make := by
  cases how with
  | copy | region | intoRegion =>
      cases derives
      exact .pure (.of_none rfl)
  | cursorSlice | cursorSliceFrom | cursorSliceHere | cursorSliceBetween =>
      cases derives
      exact .after fun _ => .pure (.of_none rfl)
  | _ => cases derives

/-- Windows come into being in order, and those that are copied are so already. -/
private theorem derivation_framed {h : Handle} (framed : h.Framed)
    (derives : derivation? how h s = some make) : Gives Handle.Framed make := by
  cases h with
  | region r => exact ofRegion_framed derives
  | cursor c => exact ofCursor_framed derives
  | buffer id => cases derives
  | reader w | writer w =>
      cases how with
      | copy =>
          cases derives
          exact .pure framed
      | region =>
          cases derives
          exact .pure (.of_none rfl)
      | _ => cases derives

end Derivations

/-- Windows are in order from the beginning, and nothing takes an offset out of them. -/
theorem framed_lasting : Handle.Lasting Handle.Framed where
  made {h} kind := by
    cases h with
    | reader w | writer w => simp [Handle.kind] at kind
    | _ => exact .of_none rfl
  derived := derivation_framed
  cursor _ _ _ _ := .of_none rfl
  reader how s _ framed :=
    have slides := how.slides (s := s) (Handle.framed_reader.mp framed)
    (Handle.Slides.reader slides).framed framed
  writer how s _ framed :=
    have slides := how.slides (s := s) (Handle.framed_writer.mp framed)
    (Handle.Slides.writer slides).framed framed
  copied source target :=
    have slides :=
      Stream.copy_slides (Handle.framed_reader.mp source) (Handle.framed_writer.mp target)
    ⟨(Handle.Slides.reader slides.1).framed source, (Handle.Slides.writer slides.2).framed target⟩

variable {s : Session} {name : String} {h : Handle} {commands : List Command}

private theorem use_slides {target : String} {how : Use} (framed : h.Framed)
    (window : h.window? = some w) (found : s.handles.find? name = some h)
    (leaves : (Command.use target how).Leaves name) :
    ∃ h', (s.use target how).2.handles.find? name = some h' ∧ h.Slides h' := by
  rcases Decidable.em (target = name) with rfl | apart
  · have used := s.use_used target how
    generalize s.use target how = result at used ⊢
    cases used with
    | unfit | inspect | region | segment => exact ⟨h, found, framed.stays window⟩
    | drop => exact absurd rfl leaves
    | cursor how there =>
        rw [found] at there
        cases there
        cases window
    | reader how there =>
        rw [found] at there
        cases there
        exact ⟨_, Names.find?_bind_same _ _ _,
          .reader (how.slides (Handle.framed_reader.mp framed))⟩
    | writer how there =>
        rw [found] at there
        cases there
        exact ⟨_, Names.find?_bind_same _ _ _,
          .writer (how.slides (Handle.framed_writer.mp framed))⟩
  · exact ⟨h, (use_elsewhere how apart).trans found, framed.stays window⟩

/-- A copy moves the streams that it is between and no others. -/
private theorem copy_slides (source target : String) (each : s.Each Handle.Framed)
    (window : h.window? = some w) (found : s.handles.find? name = some h) :
    ∃ h', (s.copy source target).2.handles.find? name = some h' ∧ h.Slides h' := by
  have framed := each name h found
  unfold copy
  split
  case h_2 => exact ⟨h, found, framed.stays window⟩
  case h_1 r w reads writes =>
    simp only
    rw [Operation.settle_snd]
    obtain ⟨read, written⟩ := Stream.copy_slides (c := ⟨s.store, r, w⟩)
      (Handle.framed_reader.mp (each source _ reads))
      (Handle.framed_writer.mp (each target _ writes))
    rcases Decidable.em (name = target) with rfl | other
    · rw [found] at writes
      cases writes
      exact ⟨_, Names.find?_bind_same _ _ _, .writer written⟩
    · rw [Session.bind, Names.find?_bind_other _ _ other]
      rcases Decidable.em (name = source) with rfl | other'
      · rw [found] at reads
        cases reads
        exact ⟨_, Names.find?_bind_same _ _ _, .reader read⟩
      · exact ⟨h, (Names.find?_bind_other _ _ other').trans found, framed.stays window⟩

/-- Whatever is done next, the name stands for the same stream on the same window. -/
theorem step_slides (command : Command) (each : s.Each Handle.Framed)
    (window : h.window? = some w) (found : s.handles.find? name = some h)
    (leaves : command.Leaves name) :
    ∃ h', (s.step command).2.handles.find? name = some h' ∧ h.Slides h' := by
  have framed := each name h found
  have performed : ∃ h', (s.perform command).2.handles.find? name = some h' ∧ h.Slides h' := by
    cases command with
    | make other what =>
        refine ⟨h, (find?_elsewhere leaves ?_).trans found, framed.stays window⟩
        rcases make_handles other what s with same | ⟨h, -, same⟩
        · exact .inl same
        · exact .inr ⟨h, same⟩
    | derive source other how =>
        exact ⟨h, (derive_elsewhere leaves.1 leaves.2).trans found, framed.stays window⟩
    | use target how => exact use_slides framed window found leaves
    | copy source target => exact copy_slides source target each window found
    | ask query =>
        exact ⟨h, (congrArg (Names.find? · name) (s.ask_handles query)).trans found,
          framed.stays window⟩
    | unusable target kind => exact ⟨h, found, framed.stays window⟩
  obtain ⟨h', there, slides⟩ := performed
  refine ⟨h', ?_, slides⟩
  show (s.perform command).2.sweep.handles.find? name = _
  rw [sweep_handles, there]

theorem run_slides (each : s.Each Handle.Framed) (window : h.window? = some w)
    (found : s.handles.find? name = some h) (leaves : ∀ command ∈ commands, command.Leaves name) :
    ∃ h', (Session.run commands s).2.handles.find? name = some h' ∧ h.Slides h' := by
  induction commands generalizing s h w with
  | nil => exact ⟨h, found, (each name h found).stays window⟩
  | cons command rest ih =>
      obtain ⟨between, there, slides⟩ :=
        step_slides command each window found (leaves command List.mem_cons_self)
      obtain ⟨w', window'⟩ := slides.stream
      obtain ⟨h', last, slides'⟩ := ih (each.step framed_lasting command) window' there
        fun later member => leaves later (List.mem_cons_of_mem command member)
      exact ⟨h', last, slides.trans slides'⟩

end Session

/-- Where a seek is to lead, as a number that need be no word. -/
def SeekFrom.aim (w : Window) : SeekFrom → Int
  | .start position => w.start + position
  | .finish delta => w.stop + delta
  | .current delta => w.offset + delta

namespace Window

variable {wanted : SeekFrom} {target : Nat}

theorem target?_eq_some_iff :
    w.target? wanted = some target ↔ wanted.aim w = target ∧ target < Word.modulus ∧
      ∀ position, wanted = .start position → position < 1 <<< 63 := by
  cases wanted with
  | start position =>
      simp only [target?, SeekFrom.aim, SeekFrom.start.injEq, forall_eq']
      by_cases short : position < 1 <<< 63
      · simp only [short, if_true, Word.offset?_eq_some_iff, and_true]
      · simp only [short, if_false, reduceCtorEq, and_false]
  | finish delta => simp [target?, SeekFrom.aim, Word.offset?_eq_some_iff]
  | current delta => simp [target?, SeekFrom.aim, Word.offset?_eq_some_iff]

/-- A place in a window that is no longer than a signed word is never missed. -/
theorem target?_of_inside (word : w.stop < Word.modulus) (short : w.length < 1 <<< 63)
    (high : target ≤ w.stop) (aims : wanted.aim w = target) :
    w.target? wanted = some target := by
  refine target?_eq_some_iff.mpr ⟨aims, Nat.lt_of_le_of_lt high word, ?_⟩
  rintro position rfl
  simp only [SeekFrom.aim, length] at aims short
  omega

/-- Seeks lead exactly to the places of the window, and moves by a distance never past its end. -/
structure Seeks (w : Window) (s : Store) : Prop where
  /-- Where the sum is a place in the window, the seek leads there and tells its position.
  Any other sum, be it a word or not, is refused as an argument of no use. -/
  seek (wanted : SeekFrom) : w.length < 1 <<< 63 →
    if w.start ≤ wanted.aim w ∧ wanted.aim w ≤ w.stop then
      ∃ target : Nat, wanted.aim w = target ∧ WindowUse.run (.seek wanted) (s, w) =
        (.number (target - w.start), s, { w with offset := target })
    else ∃ cause, WindowUse.run (.seek wanted) (s, w) = (.streamFault cause, s, w) ∧
      cause.kind = .invalidInput
  seekTo (offset : Nat) : WindowUse.run (.seekTo offset) (s, w) =
    if w.start ≤ offset ∧ offset ≤ w.stop then (.done, s, { w with offset })
    else (.fault (.outOfBounds offset 0 w.stop), s, w)
  /-- A seek from the start is the move to the place, as long as that has an address. -/
  agree {position : Nat} : w.start + position < Word.modulus →
    (position < 1 <<< 63 ∨ w.length < 1 <<< 63) →
      let sought := WindowUse.run (.seek (.start position)) (s, w)
      let moved := WindowUse.run (.seekTo (w.start + position)) (s, w)
      sought.2 = moved.2 ∧ sought.1.isFailure = moved.1.isFailure
  skip (n : Nat) : WindowUse.run (.skip n) (s, w) =
    (.number (min n w.available), s, w.moved (min n w.available))

theorem run_seek (wanted : SeekFrom) (s : Store) (w : Window) :
    WindowUse.run (.seek wanted) (s, w) =
      match w.target? wanted with
      | none => (.streamFault .seekOutside, s, w)
      | some target =>
          if target < w.start ∨ w.stop < target then
            (.streamFault (.access (.outOfBounds target 0 w.stop)), s, w)
          else (.number (target - w.start), s, { w with offset := target }) := by
  simp only [WindowUse.run, Operation.settle, seek_run]
  cases w.target? wanted with
  | none => rfl
  | some target => by_cases outside : target < w.start ∨ w.stop < target <;> simp [outside]

theorem run_seekTo (offset : Nat) (s : Store) (w : Window) :
    WindowUse.run (.seekTo offset) (s, w) =
      if w.start ≤ offset ∧ offset ≤ w.stop then (.done, s, { w with offset })
      else (.fault (.outOfBounds offset 0 w.stop), s, w) := by
  simp only [WindowUse.run, Operation.settle, seekTo_run]
  by_cases inside : w.start ≤ offset ∧ offset ≤ w.stop
  · rw [if_pos inside, if_neg (by omega)]
    rfl
  · rw [if_neg inside, if_pos (by omega)]

theorem Ordered.seeks (h : w.Ordered) (word : w.stop < Word.modulus) : w.Seeks s where
  seek wanted short := by
    rw [run_seek]
    split
    case isTrue inside =>
      have positive : 0 ≤ wanted.aim w := by omega
      obtain ⟨target, aims⟩ := Int.eq_ofNat_of_zero_le positive
      have found := target?_of_inside word short (by omega) aims
      refine ⟨target, aims, ?_⟩
      rw [found]
      exact if_neg (by omega)
    case isFalse outside =>
      cases aimed : w.target? wanted with
      | none => exact ⟨_, rfl, rfl⟩
      | some target =>
          obtain ⟨aims, -⟩ := target?_eq_some_iff.mp aimed
          exact ⟨_, if_pos (by omega), rfl⟩
  seekTo offset := run_seekTo offset s w
  agree {position} fits short := by
    simp only [run_seek, run_seekTo]
    cases aimed : w.target? (.start position) with
    | none =>
        -- Only a distance that is no signed word is not even aimed, and it leads past the end.
        have far : ¬ position < 1 <<< 63 := fun near => by
          have found : w.target? (.start position) = some (w.start + position) :=
            target?_eq_some_iff.mpr ⟨rfl, fits, fun _ same => by cases same; exact near⟩
          rw [aimed] at found
          cases found
        have past : w.stop < w.start + position := by
          have short := short.resolve_left far
          unfold length at short
          omega
        rw [if_neg (by omega)]
        exact ⟨rfl, rfl⟩
    | some target =>
        obtain ⟨aims, -⟩ := target?_eq_some_iff.mp aimed
        have here : w.start + position = target := by
          simp only [SeekFrom.aim] at aims
          omega
        rw [here]
        by_cases inside : w.start ≤ target ∧ target ≤ w.stop
        · have passed : ¬ (target < w.start ∨ w.stop < target) := by omega
          simp only [if_pos inside, if_neg passed, true_and]
          rfl
        · have refused : target < w.start ∨ w.stop < target := by omega
          simp only [if_neg inside, if_pos refused, true_and]
          rfl
  skip n := by
    have fits := Nat.min_le_right n w.available
    have ended := h.ended
    have reached : w.offset + min n w.available < Word.modulus := by
      unfold available at fits ⊢
      omega
    simp only [WindowUse.run, Operation.settle, skip_run, if_pos reached]

end Window

namespace Session

variable {s : Session} {name : String} {h : Handle}

/-- How a stream stands in its window. -/
structure Frames (s : Session) (name : String) (h : Handle) (w : Window) : Prop where
  begun : w.start ≤ w.offset
  ended : w.offset ≤ w.stop
  inside : w.stop ≤ w.region.length
  parts : w.available + (w.offset - w.start) = w.length
  /-- Whatever is done next to it and to all else, the stream has the same window, and stands
  in it. -/
  fixed {commands : List Command} : (∀ command ∈ commands, command.Leaves name) →
    ∃ h' w', (Session.run commands s).2.handles.find? name = some h' ∧ h'.kind = h.kind ∧
      h'.window? = some w' ∧ w'.region = w.region ∧ w'.start = w.start ∧ w'.stop = w.stop ∧
      w.start ≤ w'.offset ∧ w'.offset ≤ w.stop

/-- Streams stand in fixed windows in all runs. In orderly ones, where the ends of windows are
words, seeks lead exactly to what lies between them. -/
theorem run_windows (machine : Machine) (files : FileTree) {commands : List Command}
    (reached : (Session.run commands (.initial machine files)).2 = s)
    (found : s.handles.find? name = some h) (window : h.window? = some w) :
    s.Frames name h w ∧
      ((∀ command ∈ commands, command.Orderly) → w.Seeks s.store) := by
  have each : s.Each Handle.Framed :=
    reached ▸ (Each.empty machine files).run framed_lasting commands
  have ordered : w.Ordered := each name h found w window
  refine ⟨⟨ordered.begun, ordered.ended, ordered.inside, ?_, fun leaves => ?_⟩, fun orderly => ?_⟩
  · have begun := ordered.begun
    have ended := ordered.ended
    unfold Window.available Window.length
    omega
  · obtain ⟨h', there, slides⟩ := run_slides each window found leaves
    cases slides with
    | reader slides | writer slides =>
        cases window
        obtain ⟨offset, low, high, rfl⟩ := slides
        exact ⟨_, _, there, rfl, rfl, rfl, rfl, rfl, low, high⟩
  · have ready : s.Ready := reached ▸ ((Ready.empty machine files).run orderly).2
    have served : w.region.Served s.store := by
      cases h with
      | reader w' | writer w' =>
          cases window
          exact ready.served found rfl
      | _ => cases window
    have words := served.words
    have inside := ordered.inside
    exact ordered.seeks (by omega)

/-- A writer in the midst of a window that ends before its view does. -/
theorem run_windows_within :
    let commands : List Command := [.make "array" (.newArray 32),
      .derive "array" "view" (.slice 3 20), .derive "view" "writer" (.writer (some (4, 9))),
      .use "writer" (.writer (.write [1, 2, 3]))]
    let s := (Session.run commands (.initial Host.machine .bare)).2
    let window : Window := {
      region := { root := 0, base := 3, length := 20, permit := .both, kind := .slice }
      start := 4
      stop := 13
      offset := 7 }
    s.handles.find? "writer" = some (.writer window) ∧
      s.Frames "writer" (.writer window) window ∧ window.Seeks s.store := by
  intro commands s window
  have found : s.handles.find? "writer" = some (.writer window) := by decide +kernel
  have orderly : ∀ command ∈ commands, command.Orderly := by
    simp [commands, Command.Orderly, Making.Fits, Word.modulus]
  obtain ⟨frames, seeks⟩ := run_windows Host.machine .bare rfl found rfl
  exact ⟨found, frames, seeks orderly⟩

end Session

end BoundedMemory
