import BoundedMemory.Proofs.Changes.Running

/-!
What is made, apart from what lies over a segment, comes about by a few additions: a block
more, a buffer more, or a root more that nobody has released. A relation between stores
that admits these, and admits that memory is written over, holds between a store and what
the making of anything leaves of it.
-/

namespace BoundedMemory

/-- A root as it comes into being: held, and with nothing of it at its end. -/
structure Root.Fresh (root : Root) : Prop where
  held : root.held = true
  valid : root.isValid = true
  unreleased {a : Attachment} : root.backing = .segment a → a.released = false ∧ a.removed = false

namespace Store

/-- A relation between a store and what becomes of it by additions. -/
structure Admits (ρ : Store → Store → Prop) : Prop where
  refl (s : Store) : ρ s s
  trans {s t u : Store} : ρ s t → ρ t u → ρ s u
  rewrite {s t : Store} : s.Resembles t → ρ s t
  block (s : Store) (bytes : Bytes) : ρ s { s with blocks := s.blocks ++ [{ bytes }] }
  buffer (s : Store) (b : Buffer) : ρ s { s with buffers := s.buffers ++ [b] }
  root (s : Store) {root : Root} (fresh : root.Fresh) (loose : ∀ a, root.backing ≠ .segment a) :
    ρ s { s with roots := s.roots ++ [root] }

/-- An action in two parts does what both do. -/
theorem Admits.bind {ρ : Store → Store → Prop} (admits : Admits ρ) {ε α β : Type}
    {x : EStateM ε Store α} {f : α → EStateM ε Store β} {s : Store}
    (first : ρ s (Operation.after x s))
    (rest : ∀ a t, ρ t (Operation.after (f a) t)) : ρ s (Operation.after (x >>= f) s) := by
  unfold Operation.after at first rest ⊢
  rw [Operation.bind_run]
  cases run : x s with
  | error e t =>
      simp only [run] at first
      exact first
  | ok a t =>
      simp only [run] at first
      exact admits.trans first (rest a t)

end Store

namespace Region

variable {ρ : Store → Store → Prop} (admits : Store.Admits ρ) (s : Store)

include admits

private theorem check_admits {ε α : Type} (check : Except ε α) :
    ρ s (Operation.after (liftM check : Operation ε Store α) s) := by
  cases check <;> exact admits.refl s

private theorem defined_admits {ε α : Type} (value : Option α) :
    ρ s (Operation.after (liftM value : Operation ε Store α) s) := by
  cases value <;> exact admits.refl s

private theorem newRoot_admits {backing : Backing}
    (whole : backing = .array true ∨ backing = .heap true ∨ ∃ id, backing = .buffer id true)
    (block : BlockId) (base length : Nat) :
    ρ s (Operation.after (newRoot backing block base length) s) := by
  obtain rfl | rfl | ⟨id, rfl⟩ := whole <;>
    exact admits.root s ⟨rfl, rfl, nofun⟩ nofun

theorem ofBytes_admits (bytes : Bytes) : ρ s (Operation.after (ofBytes bytes) s) :=
  admits.bind (admits.block s bytes) fun _ t => newRoot_admits admits t (.inl rfl) _ _ _

theorem ofBytesWithin_admits (bytes : Bytes) (offset length : Nat) :
    ρ s (Operation.after (ofBytesWithin bytes offset length) s) :=
  admits.bind (check_admits admits s _) fun _ t =>
    admits.bind (admits.block t bytes) fun _ u => newRoot_admits admits u (.inl rfl) _ _ _

theorem newHeap_admits (what : Request) (operation : String) (size : Nat) (byte : UInt8) :
    ρ s (Operation.after (newHeap what operation size byte) s) := by
  unfold Operation.after
  rw [newHeap_run]
  cases s.grants what (max size 1) with
  | error e => exact admits.refl s
  | ok _ =>
      exact admits.trans (admits.block s (List.replicate size byte))
        (newRoot_admits admits _ (.inr (.inl rfl)) _ _ _)

theorem allocate_clear_admits (size : Nat) (byte : UInt8) :
    ρ s (Operation.after (do
      let r ← allocate size
      r.clearAll byte
      pure r) s) := by
  refine admits.bind (newHeap_admits admits s .heap "allocate" size 0) fun r t =>
    admits.bind ?_ fun _ u => admits.refl u
  unfold Operation.after
  rw [clearAll, clear_run]
  cases clear : (Transfer.clear byte r.length).run r 0 t with
  | ok reply u => exact admits.rewrite (Transfer.resembles clear)
  | error e u =>
      rw [Transfer.run_error clear]
      exact admits.refl t

private theorem resolveAddress_admits (b : Buffer) :
    ρ s (Operation.after (resolveAddress b) s) := by
  unfold resolveAddress
  cases b.block with
  | some block => exact admits.refl s
  | none =>
      simp only
      split
      · exact admits.block s []
      · exact admits.refl s

theorem wrap_admits (id : BufferId) : ρ s (Operation.after (wrap id) s) :=
  admits.bind (admits.refl s) fun _ t =>
    admits.bind (defined_admits admits t _) fun b u =>
      admits.bind (resolveAddress_admits admits u b) fun _ v =>
        newRoot_admits admits v (.inr (.inr ⟨id, rfl⟩)) _ _ _

theorem wrapWithin_admits (id : BufferId) (offset length : Nat) :
    ρ s (Operation.after (wrapWithin id offset length) s) :=
  admits.bind (admits.refl s) fun _ t =>
    admits.bind (defined_admits admits t _) fun b u =>
      admits.bind (resolveAddress_admits admits u b) fun _ v =>
        admits.bind (check_admits admits v _) fun _ w =>
          newRoot_admits admits w (.inr (.inr ⟨id, rfl⟩)) _ _ _

end Region

theorem Buffer.allocateWith_admits {ρ : Store → Store → Prop} (admits : Store.Admits ρ) (s : Store)
    (size : Nat) (bytes : Bytes) : ρ s (Operation.after (allocateWith size bytes) s) := by
  unfold Operation.after
  rw [allocateWith_run]
  cases s.grantsBuffer size with
  | error e => exact admits.refl s
  | ok _ =>
      have made : ρ s (s.withBuffer size) := admits.trans (admits.block s _) (admits.buffer _ _)
      simp only
      cases written : (s.withBuffer size).write? s.blocks.length 0 bytes with
      | none => exact made
      | some after => exact admits.trans made (admits.rewrite (Store.write?_resembles written))

end BoundedMemory
