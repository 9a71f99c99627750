import BoundedMemory.Proofs.StreamAccess

/-!
What a copied stream leaves behind. Where source and target can be read and written and have
no byte in common, a copy into a target with enough room writes just the bytes that were left
to read, in one piece, whatever the sizes of the chunks are. Where there is less room, the
copy stops with the first chunk that does not fit: all the chunks before it are there, and
none of its own bytes.
-/

namespace BoundedMemory

namespace Stream

variable {chunk : Nat → Nat} {c : Copying} {bytes : Bytes} {rounds n : Nat}

/-- How many bytes `k` chunks ask for, the first of them being chunk `i`. -/
def asked (chunk : Nat → Nat) : (i k : Nat) → Nat
  | _, 0 => 0
  | i, k + 1 => chunk i + asked chunk (i + 1) k

/-- A copy that nothing can stop but want of room. -/
structure Copying.Open (c : Copying) : Prop where
  apart : c.store.Apart
  source : c.source.Ordered
  target : c.target.Ordered
  sourceServed : c.source.region.Served c.store
  targetServed : c.target.region.Served c.store
  sourceValid : c.source.region.isValid c.store = true
  targetValid : c.target.region.isValid c.store = true
  readable : c.source.region.isReadable = true
  writable : c.target.region.isWritable = true
  clear : c.store.flat.Clear c.source.region c.source.offset c.source.available
    c.target.region c.target.offset c.target.available

namespace Copying.Open

/-- What is left of a source can be read as a whole. -/
theorem read (h : c.Open) (n : Nat) :
    ∃ bytes, bytes.length = min n c.source.available ∧
      c.store.flat.read? c.source.region c.source.offset (min n c.source.available) = some bytes ∧
        Reader.read n (c.store, c.source) = .ok bytes (c.store, c.source.moved bytes.length) := by
  obtain ⟨bytes, length, there, run⟩ := Reader.read_allowed h.source h.sourceServed h.apart
    ⟨h.sourceValid, h.readable⟩ n
  exact ⟨bytes, length, there, length ▸ run⟩

theorem length_whole (h : c.Open)
    (whole : c.store.flat.read? c.source.region c.source.offset c.source.available =
      some bytes) : bytes.length = c.source.available := by
  obtain ⟨_, length, there, -⟩ := h.read c.source.available
  rw [Nat.min_self, whole, Option.some.injEq] at there
  rw [there, length, Nat.min_self]

/-- What fits into the room of a target can be written. -/
theorem write (h : c.Open) (fits : bytes.length ≤ c.target.available) :
    ∃ store, Writer.write bytes (c.store, c.target) = .ok () (store, c.target.moved bytes.length) ∧
      c.store.Resembles store ∧
        c.store.flat.write? c.target.region c.target.offset bytes = some store.flat :=
  Writer.write_allowed h.target h.targetServed h.apart fits ⟨h.targetValid, h.writable⟩

/-- Two writes into a target, the second right behind the first, are one. -/
theorem write_append (h : c.Open) {xs ys : Bytes} {M₁ M₂ : FlatMemory}
    (fits : xs.length + ys.length ≤ c.target.available)
    (first : c.store.flat.write? c.target.region c.target.offset xs = some M₁)
    (second : M₁.write? c.target.region (c.target.offset + xs.length) ys = some M₂) :
    c.store.flat.write? c.target.region c.target.offset (xs ++ ys) = some M₂ := by
  obtain ⟨now, filled⟩ := h.targetServed.filled h.apart h.targetValid
  have ended := h.target.ended
  have inside := h.target.inside
  refine filled.write?_append ?_ first second
  simp only [Window.available] at fits
  omega

/-- After a chunk was carried over, the rest can be. -/
private theorem moved (h : c.Open) {store : Store} (alike : c.store.Resembles store)
    (grounds : store.flat.grounds = c.store.flat.grounds) (fits : n ≤ c.source.available)
    (room : n ≤ c.target.available) :
    Copying.Open { store, source := c.source.moved n, target := c.target.moved n } where
  apart := alike.apart h.apart
  source := (h.source.moved fits (.refl c.store)).ordered
  target := (h.target.moved room (.refl c.store)).ordered
  sourceServed := h.sourceServed.resembles alike
  targetServed := h.targetServed.resembles alike
  sourceValid := by
    show store.isValid _ = true
    rw [← alike.isValid]
    exact h.sourceValid
  targetValid := by
    show store.isValid _ = true
    rw [← alike.isValid]
    exact h.targetValid
  readable := h.readable
  writable := h.writable
  clear := by
    have left : n + (c.source.moved n).available ≤ c.source.available := by
      rw [Window.available_moved]
      omega
    have left' : n + (c.target.moved n).available ≤ c.target.available := by
      rw [Window.available_moved]
      omega
    exact (h.clear.inner left left').congr grounds

/-- A round for which there is room carries the first bytes over, and leaves the others to
be read where they were. -/
theorem carry (h : c.Open) (some : min n c.source.available ≠ 0)
    (room : min n c.source.available ≤ c.target.available)
    (whole : c.store.flat.read? c.source.region c.source.offset c.source.available =
      .some bytes) :
    let m := min n c.source.available
    ∃ store, copyRound n c =
        .ok m { store, source := c.source.moved m, target := c.target.moved m } ∧
      Copying.Open { store, source := c.source.moved m, target := c.target.moved m } ∧
        c.store.Resembles store ∧
          c.store.flat.write? c.target.region c.target.offset (bytes.take m) =
            .some store.flat ∧
          store.flat.read? c.source.region (c.source.offset + m) (c.source.available - m) =
            .some (bytes.drop m) := by
  intro m
  have fits : m ≤ c.source.available := Nat.min_le_right _ _
  obtain ⟨first, length, taken, read⟩ := h.read n
  have room' : first.length ≤ c.target.available := length ▸ room
  obtain ⟨store, written, alike, put⟩ := h.write room'
  have split : m + (c.source.available - m) = c.source.available := by omega
  obtain ⟨front, back⟩ := FlatMemory.read?_append (split.symm ▸ whole)
  have same : bytes.take m = first := by
    rw [taken, Option.some.injEq] at front
    exact front.symm
  have apart : c.store.flat.Clear c.source.region (c.source.offset + m) (c.source.available - m)
      c.target.region c.target.offset first.length :=
    have within : 0 + first.length ≤ c.target.available := by omega
    h.clear.inner (Nat.le_of_eq split) within
  refine ⟨store, ?_, h.moved alike (FlatMemory.write?_grounds put) fits room, alike, ?_, ?_⟩
  · have full : first.length ≠ 0 := length ▸ some
    rw [copyRound_run, read]
    simp only [full, if_false, Operation.mapFault_run, written]
    rw [length]
  · rw [same]
    exact put
  · rw [apart.read? put]
    exact back

/-- A round that finds nothing left ends the copy. -/
theorem finish (h : c.Open) (nothing : min n c.source.available = 0) : copyRound n c = .ok 0 c := by
  obtain ⟨first, length, -, read⟩ := h.read n
  rw [nothing] at length
  rw [copyRound_run, read]
  simp only [length, if_true, Window.moved_zero]

/-- A round for which there is too little room reads its chunk and writes nothing. -/
theorem refuse (h : c.Open) (full : c.target.available < min n c.source.available) :
    copyRound n c = .error
      (.fault (.access (.capacityExceeded (min n c.source.available) c.target.available)))
      { c with source := c.source.moved (min n c.source.available) } := by
  obtain ⟨first, length, -, read⟩ := h.read n
  have some : first.length ≠ 0 := by omega
  have short : c.target.available < first.length := length ▸ full
  rw [copyRound_run, read]
  simp only [some, if_false, Operation.mapFault_run, Writer.write_run, short, if_true]
  rw [length]

end Copying.Open

/-- With room for all that is left, it is copied in one piece. -/
theorem copyRounds_fits (h : c.Open) (positive : ∀ i, 0 < chunk i) (i copied : Nat)
    (enough : c.source.available < rounds) (room : c.source.available ≤ c.target.available)
    (whole : c.store.flat.read? c.source.region c.source.offset c.source.available =
      some bytes) :
    ∃ store, copyRounds chunk rounds i copied c = .ok (copied + c.source.available) {
        store
        source := c.source.moved c.source.available
        target := c.target.moved c.source.available } ∧
      c.store.Resembles store ∧
        c.store.flat.write? c.target.region c.target.offset bytes = some store.flat := by
  -- What the rounds to come write goes right behind what this one has written.
  induction rounds generalizing c bytes i copied with
  | zero => exact absurd enough (Nat.not_lt_zero _)
  | succ rounds ih =>
      have length := h.length_whole whole
      have chunk_pos := positive i
      rw [copyRounds_succ]
      by_cases nothing : min (chunk i) c.source.available = 0
      · have empty : c.source.available = 0 := by omega
        have none : bytes = [] := List.eq_nil_of_length_eq_zero (length.trans empty)
        refine ⟨c.store, ?_, .refl c.store, ?_⟩
        · rw [h.finish nothing, empty]
          rfl
        · rw [none, FlatMemory.write?, if_pos rfl]
      · obtain ⟨store, round, opened, alike, put, rest⟩ :=
          h.carry nothing (Nat.le_trans (Nat.min_le_right _ _) room) whole
        generalize size : min (chunk i) c.source.available = m at *
        obtain ⟨after, run, alike', put'⟩ := ih opened (i + 1) (copied + m)
          (by simp only [Window.available_moved]; omega)
          (by simp only [Window.available_moved]; omega)
          (by simp only [Window.available_moved]; exact rest)
        have total : m + (c.source.available - m) = c.source.available := by omega
        refine ⟨after, ?_, alike.trans alike', ?_⟩
        · simp only [round, nothing, if_false, run, Window.available_moved, Window.moved_moved,
            Nat.add_assoc, total]
        · rw [← List.take_append_drop m bytes]
          exact h.write_append (by simp only [List.length_take, List.length_drop]; omega) put
            (by rw [List.length_take, Nat.min_eq_left (by omega)]; exact put')

/-- With too little room, all chunks are copied but those from the first on that does not
fit, of which nothing is. -/
theorem copyRounds_stops (h : c.Open) (positive : ∀ i, 0 < chunk i) (i copied : Nat)
    (enough : c.source.available < rounds) (short : c.target.available < c.source.available)
    (whole : c.store.flat.read? c.source.region c.source.offset c.source.available =
      some bytes) :
    ∃ k store, asked chunk i k ≤ c.target.available ∧ c.target.available < asked chunk i (k + 1) ∧
      (let done := asked chunk i k
       let failing := min (chunk (i + k)) (c.source.available - done)
       copyRounds chunk rounds i copied c =
        .error (.fault (.access (.capacityExceeded failing (c.target.available - done)))) {
          store
          source := c.source.moved (done + failing)
          target := c.target.moved done } ∧
        c.store.Resembles store ∧
          c.store.flat.write? c.target.region c.target.offset (bytes.take done) =
            some store.flat) := by
  induction rounds generalizing c bytes i copied with
  | zero => exact absurd enough (Nat.not_lt_zero _)
  | succ rounds ih =>
      have length := h.length_whole whole
      rw [copyRounds_succ]
      by_cases full : c.target.available < min (chunk i) c.source.available
      · refine ⟨0, c.store, Nat.zero_le _, ?_, ?_, .refl c.store, ?_⟩
        · simp only [asked]
          omega
        · simp only [h.refuse full, asked, Nat.add_zero, Nat.sub_zero, Nat.zero_add,
            Window.moved_zero]
        · simp only [asked, List.take_zero, FlatMemory.write?, if_true]
      · have chunk_pos := positive i
        have size : min (chunk i) c.source.available = chunk i := by omega
        have some : min (chunk i) c.source.available ≠ 0 := by omega
        obtain ⟨store, round, opened, alike, put, rest⟩ :=
          h.carry some (Nat.le_of_not_lt full) whole
        rw [size] at round opened put rest some
        obtain ⟨k, after, below, above, run, alike', put'⟩ := ih opened (i + 1) (copied + chunk i)
          (by simp only [Window.available_moved]; omega)
          (by simp only [Window.available_moved]; omega)
          (by simp only [Window.available_moved]; exact rest)
        simp only [Window.available_moved] at below above run
        have next : i + 1 + k = i + (k + 1) := by omega
        have sum (j : Nat) : asked chunk i (j + 1) = chunk i + asked chunk (i + 1) j := rfl
        refine ⟨k + 1, after, ?_, ?_, ?_, alike.trans alike', ?_⟩
        · rw [sum]
          omega
        · rw [sum]
          omega
        · simp only [round, some, if_false, run, Window.moved_moved, next, sum, Nat.sub_sub,
            Nat.add_assoc]
        · rw [sum, List.take_add]
          refine h.write_append ?_ put ?_
          · simp only [List.length_take, List.length_drop]
            omega
          · rw [List.length_take, Nat.min_eq_left (by omega)]
            exact put'

end Stream

namespace Session

open BoundedMemory.Stream (Copies asked copyChunked)

variable {s : Session} {source target : Window} {reader writer : String}

/-- What is left of a reader and the room of a writer, in a session whose memory is there. -/
private theorem Ready.opens (ready : s.Ready)
    (reads : s.handles.find? reader = some (.reader source))
    (writes : s.handles.find? writer = some (.writer target))
    (sourceValid : source.region.isValid s.store = true)
    (targetValid : target.region.isValid s.store = true)
    (readable : source.region.isReadable = true) (writable : target.region.isWritable = true)
    (clear : s.store.flat.Clear source.region source.offset source.available
      target.region target.offset target.available) :
    Stream.Copying.Open { store := s.store, source, target } where
  apart := ready.sound.apart
  source := (ready.inBounds reads).2
  target := (ready.inBounds writes).2
  sourceServed := ready.served reads rfl
  targetServed := ready.served writes rfl
  sourceValid := sourceValid
  targetValid := targetValid
  readable := readable
  writable := writable
  clear := clear

/-- Streams are copied exactly, in chunks of whatever sizes. The loop always ends, as
`copyChunked` does. Where what is left of the reader fits into what is left of the writer, all
of it is copied in order, and no other byte is changed. Where it does not, the copy stops at
the first chunk that does not fit, with the chunks before it copied and nothing else changed. -/
theorem run_copies (machine : Machine) (files : FileTree) {commands : List Command}
    (orderly : ∀ command ∈ commands, command.Orderly)
    (reached : (Session.run commands (.initial machine files)).2 = s)
    (reads : s.handles.find? reader = some (.reader source))
    (writes : s.handles.find? writer = some (.writer target))
    (sourceValid : source.region.isValid s.store = true)
    (targetValid : target.region.isValid s.store = true)
    (readable : source.region.isReadable = true) (writable : target.region.isWritable = true)
    (clear : s.store.flat.Clear source.region source.offset source.available
      target.region target.offset target.available)
    {chunk : Nat → Nat} (positive : ∀ i, 0 < chunk i) :
    let c : Stream.Copying := { store := s.store, source, target }
    let all := source.available
    let room := target.available
    (∀ result, Copies chunk 0 0 c result ↔ copyChunked chunk c = result) ∧
    ∃ bytes, bytes.length = all ∧
      s.store.flat.read? source.region source.offset all = some bytes ∧
      (all ≤ room → ∃ store,
        copyChunked chunk c =
          .ok all { store, source := source.moved all, target := target.moved all } ∧
        (source.moved all).available = 0 ∧ s.store.Resembles store ∧
          s.store.flat.write? target.region target.offset bytes = some store.flat) ∧
      (room < all → ∃ k store, asked chunk 0 k ≤ room ∧ room < asked chunk 0 (k + 1) ∧
        let done := asked chunk 0 k
        let failing := min (chunk k) (all - done)
        copyChunked chunk c =
          .error (.fault (.access (.capacityExceeded failing (room - done))))
            { store, source := source.moved (done + failing), target := target.moved done } ∧
        s.store.Resembles store ∧
          s.store.flat.write? target.region target.offset (bytes.take done) =
            some store.flat) := by
  intro c all room
  have ready : s.Ready := reached ▸ ((Ready.empty machine files).run orderly).2
  have opened : c.Open :=
    ready.opens reads writes sourceValid targetValid readable writable clear
  have enough : c.source.available < c.source.available + 1 := Nat.lt_succ_self _
  obtain ⟨bytes, length, whole, -⟩ := opened.read all
  rw [show min all c.source.available = all from Nat.min_self all] at length whole
  refine ⟨fun result => Stream.copies_iff, bytes, length, whole, ?_, ?_⟩
  · intro fits
    obtain ⟨store, run, alike, put⟩ :=
      Stream.copyRounds_fits opened positive 0 0 enough fits whole
    refine ⟨store, ?_, ?_, alike, put⟩
    · rw [Nat.zero_add] at run
      exact run
    · rw [Window.available_moved]
      exact Nat.sub_self all
  · intro short
    obtain ⟨k, store, below, above, run, alike, put⟩ :=
      Stream.copyRounds_stops opened positive 0 0 enough short whole
    rw [Nat.zero_add] at run
    exact ⟨k, store, below, above, run, alike, put⟩

/-- Five bytes are copied by twos from one end of an array to the other, where there is room
for four. -/
theorem run_copies_within :
    let commands : List Command := [.make "array" (.newArray 12),
      .derive "array" "in" (.reader (some (0, 5))), .derive "array" "out" (.writer (some (6, 4)))]
    let s := (Session.run commands (.initial Host.machine .bare)).2
    let source : Window := { region := .ofRoot 0 12, start := 0, stop := 5, offset := 0 }
    let target : Window := { region := .ofRoot 0 12, start := 6, stop := 10, offset := 6 }
    s.store.flat.Clear source.region 0 5 target.region 6 4 ∧
      ∃ k after, asked (fun _ => 2) 0 k ≤ 4 ∧ 4 < asked (fun _ => 2) 0 (k + 1) ∧
        copyChunked (fun _ => 2) { store := s.store, source, target } =
          .error (.fault (.access (.capacityExceeded (min 2 (5 - asked (fun _ => 2) 0 k))
            (4 - asked (fun _ => 2) 0 k)))) after := by
  intro commands s source target
  have orderly : ∀ command ∈ commands, command.Orderly := by
    simp [commands, Command.Orderly, Making.Fits, Word.modulus]
  have clear : s.store.flat.Clear source.region 0 5 target.region 6 4 := by
    have there : s.store.flat.grounds 0 = some { home := .own 0, base := 0, length := 12 } := by
      decide +kernel
    intro ground ground' found found' _ i j below below'
    cases there.symm.trans found
    cases there.symm.trans found'
    simp only [source, target, Region.ofRoot]
    omega
  obtain ⟨-, _, -, -, -, stops⟩ := run_copies Host.machine .bare orderly rfl
    (show s.handles.find? "in" = some (.reader source) by decide +kernel)
    (show s.handles.find? "out" = some (.writer target) by decide +kernel)
    (by decide +kernel) (by decide +kernel) rfl rfl clear (fun _ => Nat.two_pos)
  obtain ⟨k, store, below, above, run, -⟩ := stops (by decide)
  exact ⟨clear, k, _, below, above, run⟩

end Session

end BoundedMemory
