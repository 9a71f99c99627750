import BoundedMemory.Proofs.Outcomes
import BoundedMemory.Proofs.Records

/-!
The loop that copies a stream: read a chunk, stop where nothing was read, write what was.
Chunks may be of any sizes, each of its own. `Stream.Copies` is the loop itself, without a
bound on its rounds. It always comes to an end, to only one, and that is the end that
`copyChunked` comes to: each round but the last takes something of what is left to read.
-/

namespace BoundedMemory

namespace Stream

/-- One round: reads into a buffer of `n` bytes and writes as much of it as was filled.
Tells how many bytes that were. -/
def copyRound (n : Nat) : Copying.Act Nat := do
  let (count, buffer) ← onSource (Operation.mapFault .access (Reader.readInto (List.replicate n 0)))
  if count = 0 then pure 0
  else
    onTarget (Operation.mapFault .access (Writer.write (buffer.take count)))
    pure count

/-- How the loop ends that comes to round `i` with so much copied. -/
inductive Copies (chunk : Nat → Nat) : (i copied : Nat) → Copying →
    EStateM.Result (Stop StreamFault) Copying Nat → Prop where
  | finished {i copied : Nat} {c after : Copying} (round : copyRound (chunk i) c = .ok 0 after) :
      Copies chunk i copied c (.ok copied after)
  | stopped {i copied : Nat} {c after : Copying} {e : Stop StreamFault}
      (round : copyRound (chunk i) c = .error e after) : Copies chunk i copied c (.error e after)
  | next {i copied n : Nat} {c between : Copying}
      {result : EStateM.Result (Stop StreamFault) Copying Nat}
      (round : copyRound (chunk i) c = .ok n between) (some : n ≠ 0)
      (rest : Copies chunk (i + 1) (copied + n) between result) : Copies chunk i copied c result

variable {chunk : Nat → Nat} {c : Copying}

/-- What was read is written, whatever else stands in the buffer. -/
theorem copyRound_run (n : Nat) (c : Copying) :
    copyRound n c =
      match Reader.read n (c.store, c.source) with
      | .ok bytes (store, source) =>
          if bytes.length = 0 then .ok 0 { c with store, source }
          else
            match Operation.mapFault .access (Writer.write bytes) (store, c.target) with
            | .ok _ (store, target) => .ok bytes.length { store, source, target }
            | .error e (store, target) => .error e { store, source, target }
      | .error (.fault cause) (store, source) =>
          .error (.fault (.access cause)) { c with store, source }
      | .error .trap (store, source) => .error .trap { c with store, source } := by
  simp only [copyRound, Operation.bind_run, onSource_run, Operation.mapFault_run, Reader.readInto,
    List.length_replicate]
  cases Reader.read n (c.store, c.source) with
  | error e after => cases e <;> rfl
  | ok bytes after =>
      simp only [Operation.pure_run]
      by_cases empty : bytes.length = 0
      · simp only [empty, if_true, Operation.pure_run]
      · simp only [empty, if_false, Operation.bind_run, onTarget_run, List.take_left,
          Operation.mapFault_run, Operation.pure_run]
        rcases Writer.write bytes (after.1, c.target) with _ | ⟨_ | _, _⟩ <;> rfl

/-- The rounds of a copy are rounds of the loop. -/
theorem copyRounds_succ (rounds i copied : Nat) (c : Copying) :
    copyRounds chunk (rounds + 1) i copied c =
      match copyRound (chunk i) c with
      | .ok n between =>
          if n = 0 then .ok copied between
          else copyRounds chunk rounds (i + 1) (copied + n) between
      | .error e after => .error e after := by
  rw [copyRound_run]
  simp only [copyRounds, Operation.bind_run, onSource_run, Operation.mapFault_run]
  cases Reader.read (chunk i) (c.store, c.source) with
  | error e after => cases e <;> rfl
  | ok bytes after =>
      cases bytes with
      | nil => rfl
      | cons byte bytes =>
          simp only [List.isEmpty_cons, Bool.false_eq_true, if_false, List.length_cons,
            Nat.add_one_ne_zero, Operation.bind_run, onTarget_run, Writer.writeAll, Bool.not_false,
            if_true, Operation.mapFault_run]
          rcases Writer.write (byte :: bytes) (after.1, c.target) with _ | ⟨_ | _, _⟩ <;> rfl

/-- A round takes what it copies from what is left to read. -/
theorem copyRound_takes {n count : Nat} {after : Copying} (run : copyRound n c = .ok count after) :
    count ≤ c.source.available ∧ after.source.available + count = c.source.available := by
  rw [copyRound_run, Reader.read_run] at run
  by_cases nothing : min n c.source.available = 0
  · simp only [nothing, if_true, List.length_nil] at run
    cases run
    exact ⟨Nat.zero_le _, rfl⟩
  · simp only [nothing, if_false] at run
    cases read : c.source.region.readBytes c.source.offset (min n c.source.available) c.store with
    | error e s => cases e <;> simp only [read] at run <;> cases run
    | ok bytes s =>
        have length := Region.length_of_readBytes read
        have some : bytes.length ≠ 0 := length ▸ nothing
        simp only [read, some, if_false] at run
        cases written :
          Operation.mapFault StreamFault.access (Writer.write bytes) (s, c.target) with
        | error e t => simp only [written] at run; cases run
        | ok _ t =>
            simp only [written] at run
            cases run
            simp only [Window.available, Window.moved, length] at nothing ⊢
            omega

/-- As many rounds as there are bytes to read, and one more, are enough. -/
theorem copyRounds_copies {rounds : Nat} (i copied : Nat) (enough : c.source.available < rounds) :
    Copies chunk i copied c (copyRounds chunk rounds i copied c) := by
  induction rounds generalizing c i copied with
  | zero => exact absurd enough (Nat.not_lt_zero _)
  | succ rounds ih =>
      rw [copyRounds_succ]
      cases round : copyRound (chunk i) c with
      | error e after => exact .stopped round
      | ok n between =>
          by_cases nothing : n = 0
          · subst nothing
            exact .finished round
          · simp only [nothing, if_false]
            have taken := (copyRound_takes round).2
            exact .next round nothing (ih (i + 1) (copied + n) (by omega))

/-- The loop ends in one way only. -/
theorem Copies.unique {i copied : Nat}
    {result other : EStateM.Result (Stop StreamFault) Copying Nat}
    (h : Copies chunk i copied c result) (h' : Copies chunk i copied c other) : result = other := by
  induction h with
  | finished round =>
      cases h' with
      | finished round' =>
          rw [round] at round'
          cases round'
          rfl
      | stopped round' => rw [round] at round'; cases round'
      | next round' some _ =>
          rw [round] at round'
          cases round'
          exact absurd rfl some
  | stopped round =>
      cases h' with
      | finished round' => rw [round] at round'; cases round'
      | stopped round' =>
          rw [round] at round'
          cases round'
          rfl
      | next round' _ _ => rw [round] at round'; cases round'
  | next round some _ ih =>
      cases h' with
      | finished round' =>
          rw [round] at round'
          cases round'
          exact absurd rfl some
      | stopped round' => rw [round] at round'; cases round'
      | next round' _ rest' =>
          rw [round] at round'
          cases round'
          exact ih rest'

/-- The loop comes to an end, and `copyChunked` tells to which. -/
theorem copies_iff {result : EStateM.Result (Stop StreamFault) Copying Nat} :
    Copies chunk 0 0 c result ↔ copyChunked chunk c = result := by
  have ends : Copies chunk 0 0 c (copyChunked chunk c) :=
    copyRounds_copies 0 0 (Nat.lt_succ_self _)
  constructor
  · exact fun copies => ends.unique copies
  · rintro rfl
    exact ends

end Stream

end BoundedMemory
