import BoundedMemory.Proofs.StreamTouches
import BoundedMemory.Stream.Copy

/-!
Copying on flat memory. A copy is a run of chunks, each read in full from where
the source stands before it is written where the target stands. Source and target
may overlap: a chunk then reads what earlier ones wrote.
-/

namespace BoundedMemory

/-- Chunks carried one after another from a source to a target, `n` bytes in all.
Each takes what is left of the source, up to the size of a chunk. -/
inductive FlatMemory.Carried : (source target : Window) → FlatMemory → (n : Nat) →
    FlatMemory → Prop where
  | stop {source target : Window} {M : FlatMemory} : Carried source target M 0 M
  | chunk {source target : Window} {M M₁ M' : FlatMemory} {bytes : Bytes} {n : Nat}
      (taken : M.read? source.region source.offset (min Stream.chunkSize source.available) =
        some bytes)
      (some : bytes ≠ [])
      (put : M.write? target.region target.offset bytes = .some M₁)
      (rest : Carried (source.moved bytes.length) (target.moved bytes.length) M₁ n M') :
      Carried source target M (bytes.length + n) M'

namespace Stream

variable {c : Copying}

theorem onSource_run {α : Type} (x : Window.Act StreamFault α) :
    onSource x c = match x (c.store, c.source) with
      | .ok a (store, source) => .ok a { c with store, source }
      | .error e (store, source) => .error e { c with store, source } := rfl

theorem onTarget_run {α : Type} (x : Window.Act StreamFault α) :
    onTarget x c = match x (c.store, c.target) with
      | .ok a (store, target) => .ok a { c with store, target }
      | .error e (store, target) => .error e { c with store, target } := rfl

/-- What rounds of a copy come to: chunks were carried over, the windows stay on
their regions, and an answer counts all that was left. -/
structure Carries (c : Copying) (rounds copied : Nat)
    (result : EStateM.Result (Stop StreamFault) Copying Nat) (after : Copying) : Prop where
  apart : after.store.Apart
  source : after.source.region = c.source.region
  target : after.target.region = c.target.region
  carried : ∃ n, c.store.flat.Carried c.source c.target n after.store.flat ∧
    ∀ total, result = .ok total after → total = copied + n ∧
      (c.source.available < rounds → n = c.source.available)

section Rounds

variable {result : EStateM.Result (Stop StreamFault) Copying Nat} {after : Copying}
  {rounds copied : Nat}

/-- A round that fails has written nothing. -/
private theorem Carries.failed {e : Stop StreamFault} (stopped : result = .error e after)
    (apart : after.store.Apart) (same : after.store.flat = c.store.flat)
    (source : after.source.region = c.source.region)
    (target : after.target.region = c.target.region) : Carries c rounds copied result after := by
  refine ⟨apart, source, target, 0, same ▸ .stop, ?_⟩
  intro total answered
  rw [stopped] at answered
  cases answered

/-- A round that carries a chunk, and all the rounds after it. -/
private theorem Carries.chunk {next : Copying} {bytes : Bytes} (some : bytes ≠ [])
    (length : bytes.length = min chunkSize c.source.available)
    (taken : c.store.flat.read? c.source.region c.source.offset
      (min chunkSize c.source.available) = .some bytes)
    (put : c.store.flat.write? c.target.region c.target.offset bytes = .some next.store.flat)
    (source : next.source = c.source.moved bytes.length)
    (target : next.target = c.target.moved bytes.length)
    (rest : Carries next rounds (copied + bytes.length) result after) :
    Carries c (rounds + 1) copied result after := by
  obtain ⟨apart, sourceRegion, targetRegion, n, carried, counted⟩ := rest
  rw [source, target] at carried
  refine ⟨apart, ?_, ?_, bytes.length + n, .chunk taken some put carried, ?_⟩
  · rw [sourceRegion, source]
    rfl
  · rw [targetRegion, target]
    rfl
  · intro total answered
    obtain ⟨sum, all⟩ := counted total answered
    refine ⟨by omega, ?_⟩
    intro enough
    have positive := List.length_pos_iff.mpr some
    have left : next.source.available = c.source.available - bytes.length := by
      rw [source]
      simp only [Window.available, Window.moved]
      omega
    rw [left] at all
    have fits : bytes.length ≤ c.source.available := by omega
    have rest := all (by omega)
    omega

theorem copyRounds_carries (rounds i copied : Nat) (h : c.store.Apart) :
    Carries c rounds copied (copyRounds (fun _ => chunkSize) rounds i copied c)
      (Operation.after (copyRounds (fun _ => chunkSize) rounds i copied) c) := by
  -- What the rounds to come carry, they carry from the windows that this one has moved on.
  induction rounds generalizing c i copied with
  | zero =>
      refine ⟨h, rfl, rfl, 0, .stop, ?_⟩
      intro total answered
      cases answered
      exact ⟨rfl, fun few => absurd few (Nat.not_lt_zero _)⟩
  | succ rounds ih =>
      unfold Operation.after
      simp only [copyRounds, Operation.bind_run, onSource_run, Operation.mapFault_run]
      cases read : Reader.read chunkSize (c.store, c.source) with
      | error e after =>
          have same := Reader.read_allOrNothing _ _ e after read
          subst same
          cases e <;> exact .failed rfl h rfl rfl rfl
      | ok bytes after =>
          obtain ⟨s₁, r₁⟩ := after
          obtain ⟨apart₁, same, length, rfl, taken⟩ := Reader.read_flat h read
          simp only
          by_cases empty : bytes.isEmpty = true
          · have nothing : bytes = [] := List.isEmpty_iff.mp empty
            subst nothing
            simp only [List.isEmpty_nil, if_true, Operation.pure_run]
            refine ⟨apart₁, rfl, rfl, 0, same ▸ .stop, ?_⟩
            intro total answered
            cases answered
            refine ⟨rfl, ?_⟩
            intro _
            simp only [List.length_nil, chunkSize] at length
            omega
          · have some : bytes ≠ [] := fun nothing => empty (List.isEmpty_iff.mpr nothing)
            simp only [empty, Bool.false_eq_true, if_false, Operation.bind_run, onTarget_run,
              Writer.writeAll, Bool.not_false, if_true, Operation.mapFault_run]
            cases written : Writer.write bytes (s₁, c.target) with
            | error e after =>
                have kept := Writer.write_allOrNothing bytes _ e after written
                subst kept
                cases e <;> exact .failed rfl apart₁ same rfl rfl
            | ok _ after =>
                obtain ⟨s₂, w₂⟩ := after
                obtain ⟨apart₂, rfl, put⟩ := Writer.write_flat apart₁ written
                rw [same] at put
                have rest := ih (c := {
                  store := s₂
                  source := c.source.moved bytes.length
                  target := c.target.moved bytes.length }) (i + 1) (copied + bytes.length) apart₂
                exact .chunk some length taken put rfl rfl rest

end Rounds

/-- A copy carries chunks over until it fails or nothing is left. -/
theorem copy_carries (h : c.store.Apart) :
    Carries c (c.source.available + 1) 0 (copy c) (Operation.after copy c) := by
  unfold Operation.after
  have run : copy c = copyRounds (fun _ => chunkSize) (c.source.available + 1) 0 0 c := rfl
  rw [run]
  exact copyRounds_carries (c.source.available + 1) 0 0 h

end Stream

end BoundedMemory
