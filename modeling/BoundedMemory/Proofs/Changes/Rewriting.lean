import BoundedMemory.Proofs.Changes

/-!
What only writes over memory. Transfers, and so all uses of handles but those that end
a root, leave a store that differs in nothing but the contents of its blocks; so do
copies, however many chunks they carry before they stop.
-/

namespace BoundedMemory

variable {s s' : Store}

/-- Other bytes in a block, as many as before. -/
theorem Store.Resembles.of_setBytes {id : BlockId} {b : Block} {bytes : Bytes}
    (stored : s.blocks[id]? = some b) (length : bytes.length = b.bytes.length) :
    s.Resembles (s.setBytes id b bytes) where
  machine := rfl
  blocks := by
    apply List.ext_getElem?
    intro other
    simp only [List.getElem?_map]
    by_cases here : other = id
    · subst here
      rw [getElem?_setBytes_same stored, stored]
      simp only [Option.map_some, Block.shape, length]
    · rw [getElem?_setBytes_other here]
  buffers := rfl
  roots := rfl
  segments := rfl
  mappings := rfl

theorem Store.write?_resembles {id : BlockId} {start : Nat} {bytes : Bytes}
    (written : s.write? id start bytes = some s') : s.Resembles s' := by
  obtain ⟨b, stored, -, inside, rfl⟩ := write?_eq_some_iff.mp written
  exact .of_setBytes stored (length_splice inside)

theorem Region.poke?_resembles {r : Region} {offset : Nat} {bytes : Bytes}
    (written : r.poke? s offset bytes = some s') : s.Resembles s' := by
  obtain ⟨root, b, reach, rfl⟩ := poke?_eq_some_iff.mp written
  exact .of_setBytes reach.stored (length_splice reach.inBlock)

theorem Transfer.resembles {x : Transfer} {r : Region} {offset : Nat} {answer : Reply}
    (run : x.run r offset s = .ok answer s') : s.Resembles s' := by
  by_cases idle : x.direction = .read ∨ x.size = 0
  · rw [unchanged run idle]
    exact .refl s
  · rw [not_or] at idle
    have writes : x.direction = .write := by
      cases direction : x.direction with
      | read => exact absurd direction idle.1
      | write => rfl
    exact Region.poke?_resembles (poke?_of_run run writes idle.2)

theorem Touch.Alters.resembles {τ : Touch} {reply : Reply} (alters : τ.Alters reply s s') :
    s.Resembles s' := by
  cases alters with
  | idle _ => exact .refl s
  | change _ _ _ run => exact Transfer.resembles run

namespace Stream

theorem copyRounds_resembles (rounds i copied : Nat) (c : Copying) :
    c.store.Resembles
      (Operation.after (copyRounds (fun _ => chunkSize) rounds i copied) c).store := by
  induction rounds generalizing c i copied with
  | zero => exact .refl _
  | succ rounds ih =>
      unfold Operation.after
      simp only [copyRounds, Operation.bind_run, onSource_run, Operation.mapFault_run]
      have reads := Reader.read_moves chunkSize c.store c.source
      unfold Operation.after at reads
      cases read : Reader.read chunkSize (c.store, c.source) with
      | error e after =>
          simp only [read] at reads
          have same : c.store.Resembles after.1 := by
            rw [reads.1]
            exact .refl _
          cases e <;> exact same
      | ok bytes after =>
          obtain ⟨store, source⟩ := after
          simp only [read] at reads
          obtain ⟨rfl, -⟩ := reads
          by_cases empty : bytes.isEmpty = true
          · simp only [empty, if_true, Operation.pure_run]
            exact .refl _
          · simp only [empty, Bool.false_eq_true, if_false, Operation.bind_run, onTarget_run,
              Writer.writeAll, Bool.not_false, if_true, Operation.mapFault_run]
            cases written : Writer.write bytes (c.store, c.target) with
            | error e after =>
                have kept := Writer.write_allOrNothing bytes _ e after written
                subst kept
                cases e <;> exact .refl _
            | ok _ after =>
                obtain ⟨store', target⟩ := after
                have moved := Transfer.resembles (Writer.write_eq_ok written).2
                exact moved.trans (ih (i + 1) (copied + bytes.length) ⟨store', source, target⟩)

theorem copy_resembles (c : Copying) :
    c.store.Resembles (Operation.after copy c).store :=
  copyRounds_resembles (c.source.available + 1) 0 0 c

end Stream

end BoundedMemory
