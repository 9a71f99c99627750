import BoundedMemory.Proofs.FlatRanges
import BoundedMemory.Proofs.SegmentHandles

/-!
The bytes of segments. All handles on a segment lie in one array from its start on: what is
written through one of them is in the array, stays there until something is written over it
through any of them, and is what all of them read.
-/

namespace BoundedMemory

/-- Whether two ranges, of which neither is empty, have a place in common. -/
def Meet (start n start' n' : Nat) : Prop := start < start' + n' ∧ start' < start + n

namespace FlatMemory

variable {M M' : FlatMemory} {home : Home} {start offset : Nat} {bytes xs : Bytes} {r : Region}

/-- Whether bytes stand in an array, from a certain place on. -/
def Holds (M : FlatMemory) (home : Home) (start : Nat) (bytes : Bytes) : Prop :=
  ∃ whole, M.arrays home = some whole ∧ cut whole start bytes.length = bytes

theorem Holds.extended (holds : M.Holds home start bytes) (wider : M.Extends M') :
    M'.Holds home start bytes := by
  obtain ⟨whole, held, here⟩ := holds
  exact ⟨whole, wider.arrays home whole held, here⟩

/-- What a write is and what it leaves, but for one of nothing. -/
theorem write?_cases (written : M.write? r offset xs = some M') :
    xs = [] ∧ M' = M ∨ ∃ ground whole,
      M.grounds r.root = some ground ∧ M.arrays ground.home = some whole ∧
      ground.base + r.base + offset + xs.length ≤ whole.length ∧
      M' = M.put ground.home (splice whole (ground.base + r.base + offset) xs) := by
  unfold write? at written
  split at written
  · rename_i nothing
    exact .inl ⟨nothing, (Option.some.inj written).symm⟩
  · obtain ⟨⟨home, whole, address⟩, located, rfl⟩ := Option.map_eq_some_iff.mp written
    obtain ⟨ground, grounded, rfl, held, rfl, -, inside⟩ := locate?_eq_some_iff.mp located
    exact .inr ⟨ground, whole, grounded, held, inside, rfl⟩

/-- Bytes that a write does not meet stay. -/
theorem Holds.write? (holds : M.Holds home start bytes) (written : M.write? r offset xs = some M')
    (apart : ∀ ground, M.grounds r.root = some ground → ground.home = home →
      ¬ Meet (ground.base + r.base + offset) xs.length start bytes.length) :
    M'.Holds home start bytes ∧ M'.grounds = M.grounds := by
  obtain ⟨-, rfl⟩ | ⟨ground, whole, grounded, held, inside, rfl⟩ := write?_cases written
  · exact ⟨holds, rfl⟩
  · refine ⟨?_, rfl⟩
    obtain ⟨whole', held', here⟩ := holds
    rcases Decidable.em (home = ground.home) with rfl | elsewhere
    · have clear := apart ground grounded rfl
      rw [held] at held'
      cases held'
      refine ⟨_, if_pos rfl, ?_⟩
      unfold Meet at clear
      rw [cut_splice_disjoint inside (by omega), here]
    · exact ⟨whole', (if_neg elsewhere).trans held', here⟩

/-- What was read is as long as it was to be. -/
theorem length_of_read? {n : Nat} (read : M.read? r offset n = some bytes) : bytes.length = n := by
  unfold read? at read
  split at read
  · rename_i nothing
    cases read
    exact nothing.symm
  · obtain ⟨⟨home, whole, address⟩, located, rfl⟩ := Option.map_eq_some_iff.mp read
    obtain ⟨_, -, -, -, -, -, inside⟩ := locate?_eq_some_iff.mp located
    exact length_cut inside

/-- Bytes stay that are not where what is left of the source of a copy would come to. -/
theorem Holds.carried {source target : Window} {n : Nat} (carried : M.Carried source target n M')
    (holds : M.Holds home start bytes)
    (apart : ∀ ground, M.grounds target.region.root = some ground → ground.home = home →
      ¬ Meet (ground.base + target.region.base + target.offset) source.available start
        bytes.length) : M'.Holds home start bytes := by
  induction carried with
  | stop => exact holds
  | chunk taken some put rest ih =>
      rename_i source target M M₁ M' chunk n
      have length := length_of_read? taken
      have short : chunk.length ≤ source.available := by omega
      have left : (source.moved chunk.length).available = source.available - chunk.length :=
        Nat.sub_add_eq ..
      have region : (target.moved chunk.length).region = target.region := rfl
      have onward : (target.moved chunk.length).offset = target.offset + chunk.length := rfl
      obtain ⟨holds, grounds⟩ := holds.write? put fun ground grounded same meet =>
        apart ground grounded same ⟨meet.1, by have := meet.2; omega⟩
      -- The target moves on as far as there is less left of the source: the rest of the chunks
      -- stay within the room that was left from the start.
      refine ih holds fun ground grounded same meet => ?_
      rw [grounds] at grounded
      unfold Meet at meet
      rw [left, region, onward] at meet
      exact apart ground grounded same ⟨by have := meet.1; omega, by have := meet.2; omega⟩

/-- What is read inside of bytes that are known. -/
theorem Holds.read? {n : Nat} {result : Bytes} (holds : M.Holds home start bytes)
    (read : M.read? r offset n = some result) {length : Nat}
    (ground : M.grounds r.root = some { home, base := 0, length })
    (low : start ≤ r.base + offset) (high : r.base + offset + n ≤ start + bytes.length) :
    result = cut bytes (r.base + offset - start) n := by
  unfold FlatMemory.read? at read
  split at read
  · rename_i nothing
    cases read
    rw [nothing, cut_zero]
  · obtain ⟨⟨home', whole, address⟩, located, rfl⟩ := Option.map_eq_some_iff.mp read
    obtain ⟨ground', grounded, rfl, held, rfl, -, inside⟩ := locate?_eq_some_iff.mp located
    rw [ground] at grounded
    cases grounded
    obtain ⟨whole', held', here⟩ := holds
    rw [held] at held'
    cases held'
    have place : start + (r.base + offset - start) = 0 + r.base + offset := by omega
    rw [← here, cut_cut (by omega), place]

end FlatMemory

/-- Where a touch starts, in what its region is a part of. -/
def Touch.start (τ : Touch) : Nat := τ.region.base + τ.offset

/-- Whether bytes stand in a segment, from a certain place on. -/
def Store.Holds (s : Store) (g : SegmentId) (start : Nat) (bytes : Bytes) : Prop :=
  s.flat.Holds (.segment g) start bytes

theorem Store.Keyed.liesOver {s : Store} (keyed : s.Keyed) {r : Region} {g : SegmentId}
    {ground : Ground} (grounded : s.flat.grounds r.root = some ground)
    (home : ground.home = .segment g) : s.LiesOver r g ∧ ground.base = 0 := by
  obtain ⟨root, there, rfl⟩ := Option.map_eq_some_iff.mp grounded
  cases behind : root.backing with
  | segment a =>
      simp only [Root.ground, behind, Backing.home, Home.segment.injEq] at home
      have source := Store.source?_eq_some_iff.mpr ⟨there, behind⟩
      exact ⟨⟨root, a, source, home⟩, keyed.base source⟩
  | _ =>
      simp only [Root.ground, behind, Backing.home] at home
      cases home

/-- Bytes stay where a touch writes nothing over them. -/
theorem Touch.Shows.holds {τ : Touch} {reply : Reply} {M M' : FlatMemory} {home : Home}
    {start : Nat} {bytes : Bytes} (shows : τ.Shows reply M M') (holds : M.Holds home start bytes)
    (apart : reply.isFailure = false → τ.transfer.direction = .write → ∀ ground,
      M.grounds τ.region.root = some ground → ground.home = home →
        ¬ Meet (ground.base + τ.region.base + τ.offset) τ.transfer.payload.length start
          bytes.length) : M'.Holds home start bytes := by
  unfold Shows at shows
  cases passes : reply.isFailure with
  | true =>
      rw [passes, if_pos rfl] at shows
      rwa [shows]
  | false =>
      rw [passes, if_neg Bool.false_ne_true] at shows
      obtain ⟨result, moved, -⟩ := shows
      unfold Transfer.onFlat? at moved
      cases direction : τ.transfer.direction with
      | read =>
          simp only [direction, Option.map_eq_some_iff, Prod.mk.injEq] at moved
          obtain ⟨_, -, -, rfl⟩ := moved
          exact holds
      | write =>
          simp only [direction, Option.map_eq_some_iff, Prod.mk.injEq] at moved
          obtain ⟨_, written, -, rfl⟩ := moved
          exact (holds.write? written (apart passes direction)).1

namespace Session

variable {s : Session} {name : String} {how : Use} {τ : Touch} {g : SegmentId} {start : Nat}
  {bytes : Bytes} {command : Command} {commands : List Command}

/-- A use that goes through a handle on a segment and reads or writes there. -/
structure Through (s : Session) (name : String) (how : Use) (τ : Touch) (g : SegmentId) :
    Prop where
  touch : ((s.handles.find? name).bind fun h => h.touch? how) = some τ
  lies : s.store.LiesOver τ.region g
  passes : (s.step (.use name how)).1.isFailure = false

/-- Whether a command writes over some of the `n` bytes of a segment from `start` on, or
copies as much as might come there. -/
def Overwrites (s : Session) (command : Command) (g : SegmentId) (start n : Nat) : Prop :=
  match command with
  | .use name how =>
      ∃ τ, s.Through name how τ g ∧ τ.transfer.direction = .write ∧
        Meet τ.start τ.transfer.payload.length start n
  | .copy source target =>
      ∃ r w, s.handles.find? source = some (.reader r) ∧
        s.handles.find? target = some (.writer w) ∧ s.store.LiesOver w.region g ∧
          Meet (w.region.base + w.offset) r.available start n
  | _ => False

/-- What a use does that is a touch. -/
private theorem use_shows (apart : s.store.Apart)
    (touch : ((s.handles.find? name).bind fun h => h.touch? how) = some τ) :
    τ.Shows (s.step (.use name how)).1 s.store.flat (s.step (.use name how)).2.store.flat := by
  obtain ⟨-, coherent⟩ := step_performs (.use name how) apart
  cases how with
  | drop =>
      obtain ⟨h, -, touch⟩ := Option.bind_eq_some_iff.mp touch
      cases h <;> cases touch
  | _ =>
      have touches := coherent.1
      rw [touch] at touches
      exact touches

private theorem Through.shows (through : s.Through name how τ g) (apart : s.store.Apart) :
    ∃ result, τ.transfer.onFlat? τ.region τ.offset s.store.flat =
        some (result, (s.step (.use name how)).2.store.flat) ∧
      (s.step (.use name how)).1 = τ.reply result := by
  have shows := use_shows apart through.touch
  unfold Touch.Shows at shows
  rwa [through.passes, if_neg Bool.false_ne_true] at shows

/-- What is written through a handle on a segment stands in the segment. -/
theorem Tracked.written (tracked : s.Tracked) (through : s.Through name how τ g)
    (writes : τ.transfer.direction = .write) :
    (s.step (.use name how)).2.store.Holds g τ.start τ.transfer.payload := by
  obtain ⟨result, moved, -⟩ := through.shows tracked.ready.sound.apart
  obtain ⟨length, grounded⟩ := tracked.keyed.ground through.lies
  simp only [Transfer.onFlat?, writes, Option.map_eq_some_iff, Prod.mk.injEq] at moved
  obtain ⟨M', written, -, rfl⟩ := moved
  unfold Store.Holds
  obtain ⟨nothing, same⟩ | ⟨ground, whole, found, -, inside, after⟩ :=
    FlatMemory.write?_cases written
  · -- No bytes stand anywhere in an array, and a segment has one.
    obtain ⟨root, a, source, rfl⟩ := through.lies
    have there := tracked.keyed.there source
    obtain ⟨whole, held⟩ := tracked.ready.sound.apart.array_of_segment there
    rw [same, nothing]
    exact ⟨whole, held, cut_zero _ _⟩
  · rw [grounded] at found
    cases found
    rw [Nat.zero_add] at inside after
    rw [after]
    exact ⟨_, if_pos rfl, cut_splice_same inside⟩

/-- What is read through a handle on a segment is what stands there. -/
theorem Tracked.shown (tracked : s.Tracked) (through : s.Through name how τ g)
    (reads : τ.transfer.direction = .read) (holds : s.store.Holds g start bytes)
    (low : start ≤ τ.start) (high : τ.start + τ.transfer.size ≤ start + bytes.length) :
    (s.step (.use name how)).1 = τ.reply (cut bytes (τ.start - start) τ.transfer.size) := by
  obtain ⟨result, moved, reply⟩ := through.shows tracked.ready.sound.apart
  obtain ⟨length, grounded⟩ := tracked.keyed.ground through.lies
  simp only [Transfer.onFlat?, reads, Option.map_eq_some_iff, Prod.mk.injEq] at moved
  obtain ⟨_, read, rfl, -⟩ := moved
  rw [reply, FlatMemory.Holds.read? holds read grounded low high]
  rfl

/-- Bytes of a segment stay unless they are written over. -/
theorem Tracked.holds_step (tracked : s.Tracked) (holds : s.store.Holds g start bytes)
    (spared : ¬ s.Overwrites command g start bytes.length) :
    (s.step command).2.store.Holds g start bytes := by
  obtain ⟨-, coherent⟩ := step_performs command tracked.ready.sound.apart
  have same (still : (s.step command).2.store.flat = s.store.flat) :
      (s.step command).2.store.Holds g start bytes := by
    unfold Store.Holds
    rwa [still]
  -- All but touches and copies leave the bytes of segments alone, or add new ones.
  cases command with
  | make name what => exact holds.extended coherent.1
  | derive source name how => exact same coherent.1
  | ask query => exact same coherent.1
  | unusable target kind => exact same coherent.1
  | use name how =>
      cases touch : (s.handles.find? name).bind fun h => h.touch? how with
      | none =>
          cases how with
          | drop => exact same coherent.1
          | _ =>
              have touches := coherent.1
              rw [touch] at touches
              exact same touches
      | some τ =>
          refine (use_shows tracked.ready.sound.apart touch).holds holds ?_
          intro passes direction ground grounded home meet
          obtain ⟨lies, base⟩ := tracked.keyed.liesOver grounded home
          rw [base, Nat.zero_add] at meet
          exact spared ⟨τ, ⟨touch, lies, passes⟩, direction, meet⟩
  | copy source target =>
      have carries := coherent.2
      split at carries
      · rename_i r w reads writes
        obtain ⟨n, carried, -⟩ := carries
        refine FlatMemory.Holds.carried carried holds fun ground grounded home meet => ?_
        obtain ⟨lies, base⟩ := tracked.keyed.liesOver grounded home
        rw [base, Nat.zero_add] at meet
        exact spared ⟨r, w, reads, writes, lies, meet⟩
      · exact same carries

theorem Tracked.holds_run (tracked : s.Tracked) (orderly : ∀ command ∈ commands, command.Orderly)
    (spared : Throughout (fun s command => ¬ s.Overwrites command g start bytes.length) commands s)
    (holds : s.store.Holds g start bytes) :
    (Session.run commands s).2.store.Holds g start bytes := by
  induction commands generalizing s with
  | nil => exact holds
  | cons command rest ih =>
      have first := orderly command List.mem_cons_self
      exact ih (tracked.step first)
        (fun other member => orderly other (List.mem_cons_of_mem command member)) spared.2
        (tracked.holds_step holds spared.1)

/-- A region is not kept from its memory by anything but what it objects to. -/
theorem Tracked.answered (tracked : s.Tracked) {r : Region} {how : RegionUse} {x : Transfer}
    {offset : Nat} (found : s.handles.find? name = some (.region r))
    (moves : r.transfer? how = some (x, offset)) (free : x.refusal? r s.store offset = none)
    (lies : s.store.LiesOver r g) :
    s.Through name (.region how) { region := r, offset, transfer := x, reply := x.answer } g where
  touch := by
    simp only [found, Option.bind_some, Handle.touch?, Region.touch?, moves, Option.map_some]
  lies := lies
  passes := by
    have served := tracked.ready.served found rfl
    obtain ⟨reply, after, outcome⟩ := Transfer.outcome?_of_served served free
    have run := Transfer.run_eq_ok_iff.mpr ⟨free, outcome⟩
    have plain := Transfer.reply_isFailure run
    show (s.use name (.region how)).1.isFailure = false
    simp only [use, found, Region.run_use moves, Operation.settle, run]
    exact plain

end Session

end BoundedMemory
