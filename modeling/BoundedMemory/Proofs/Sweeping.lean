import BoundedMemory.Proofs.Attachments
import BoundedMemory.Session.Run

/-!
What a sweep does to who holds what. It lets go of exactly the roots that no handle
reaches and of exactly the buffers that nobody holds, so a session that was swept is
left as it is by a further sweep.
-/

namespace BoundedMemory

namespace Store

/-- Whether a root is there and still held. -/
def rootHeld (s : Store) (id : RootId) : Bool := (s.roots[id]?).any Root.held

/-- Whether a buffer is there and anybody still has it. -/
def bufferAlive (s : Store) (id : BufferId) : Bool := (s.buffers[id]?).any Buffer.alive

/-- A release changes nothing of a root but what stands behind it. -/
theorem releaseRoot_roots (id : RootId) (s : Store) :
    ∃ change : Root → Root, (∀ root, ∃ backing, change root = { root with backing }) ∧
      (Operation.after (releaseRoot id) s).roots = s.roots.modify id change ∧
      (Operation.after (releaseRoot id) s).buffers = s.buffers := by
  have still : s.roots = s.roots.modify id fun root => root := (List.modify_id id s.roots).symm
  unfold Operation.after
  rw [releaseRoot_run]
  cases s.roots[id]? with
  | none => exact ⟨_, fun root => ⟨root.backing, rfl⟩, still, rfl⟩
  | some root =>
      simp only
      cases root.backing with
      | array valid => exact ⟨_, fun _ => ⟨_, rfl⟩, rfl, rfl⟩
      | heap valid =>
          cases valid with
          | false => exact ⟨_, fun root => ⟨root.backing, rfl⟩, still, rfl⟩
          | true => exact ⟨_, fun _ => ⟨_, rfl⟩, rfl, rfl⟩
      | buffer wrapped valid => exact ⟨_, fun _ => ⟨_, rfl⟩, rfl, rfl⟩
      | segment a =>
          have steps := Attachment.release_steps (s := s) (a := a)
          obtain ⟨after, run⟩ := Attachment.release_ok segmentCalls s a
          unfold Operation.after at steps
          simp only [run] at steps ⊢
          obtain ⟨roots, buffers, -⟩ := steps.kept
          exact ⟨_, fun _ => ⟨_, rfl⟩, congrArg (List.modify · id _) roots, buffers⟩

/-- A root that is dropped is let go of, and all others stay as they are. -/
theorem dropRoot_roots (id : RootId) (s : Store) :
    ∃ change : Root → Root, (∀ root, (change root).held = false) ∧
      ((Operation.after (dropRoot id) s).roots = s.roots.modify id change ∨
        s.rootHeld id = false ∧ Operation.after (dropRoot id) s = s) ∧
      (Operation.after (dropRoot id) s).buffers = s.buffers := by
  obtain ⟨change, backing, released, buffers⟩ := s.releaseRoot_roots id
  refine ⟨fun root => { change root with held := false }, fun _ => rfl, ?_⟩
  obtain ⟨unheld, same⟩ | ⟨root, after, -, -, rfl, dropped⟩ := s.dropRoot_cases id
  · exact ⟨.inr ⟨unheld, same⟩, congrArg Store.buffers same⟩
  · have gone : (Operation.after (releaseRoot id) s).roots.modify id
        (fun r => { r with held := false }) =
          s.roots.modify id fun root => { change root with held := false } := by
      rw [released, List.modify_modify_eq]
      rfl
    rw [dropped]
    cases root.backing with
    | array valid => exact ⟨.inl gone, buffers⟩
    | _ => exact ⟨.inl gone, buffers⟩

theorem rootHeld_dropRoot (id other : RootId) (s : Store) :
    (Operation.after (dropRoot id) s).rootHeld other = (s.rootHeld other && other ≠ id) := by
  obtain ⟨change, gone, roots | ⟨unheld, same⟩, -⟩ := s.dropRoot_roots id
  · simp only [rootHeld, roots, List.getElem?_modify]
    cases s.roots[other]? with
    | none => rfl
    | some root =>
        by_cases here : id = other
        · simp [here, gone]
        · simp [here, Ne.symm here]
  · rw [same]
    by_cases here : other = id
    · simp [here, unheld]
    · simp [here]

theorem dropBuffer_run (id : BufferId) (s : Store) :
    (Operation.after (dropBuffer id) s).roots = s.roots ∧
      (∀ other, (Operation.after (dropBuffer id) s).bufferAlive other =
        (s.bufferAlive other && other ≠ id)) ∧
      (s.bufferAlive id = false → Operation.after (dropBuffer id) s = s) := by
  have ended (blocks : List Block) (other : BufferId) :
      ({ s with
        buffers := s.buffers.modify id fun b => { b with alive := false }
        blocks } : Store).bufferAlive other = (s.bufferAlive other && other ≠ id) := by
    simp only [bufferAlive, List.getElem?_modify]
    cases s.buffers[other]? with
    | none => rfl
    | some b =>
        by_cases here : id = other
        · simp [here]
        · simp [here, Ne.symm here]
  have idle (unheld : s.bufferAlive id = false) (other : BufferId) :
      s.bufferAlive other = (s.bufferAlive other && other ≠ id) := by
    by_cases here : other = id
    · simp [here, unheld]
    · simp [here]
  unfold Operation.after
  simp only [dropBuffer, Operation.bind_run, Operation.get_run]
  cases found : s.buffers[id]? with
  | none =>
      have unheld : s.bufferAlive id = false := by simp [bufferAlive, found]
      exact ⟨rfl, idle unheld, fun _ => rfl⟩
  | some b =>
      simp only [Operation.some_run]
      cases alive : b.alive with
      | false =>
          have unheld : s.bufferAlive id = false := by simp [bufferAlive, found, alive]
          exact ⟨rfl, idle unheld, fun _ => rfl⟩
      | true =>
          simp only [if_true, Operation.bind_run, Operation.modify_run]
          refine ⟨?_, ?_, ?_⟩
          · cases b.block <;> rfl
          · cases b.block <;> exact ended _
          · intro unheld
            simp [bufferAlive, found, alive] at unheld

end Store

namespace Session

variable (s : Session)

theorem reaches_eq_of_handles {s s' : Session} (same : s'.handles = s.handles) :
    s'.reaches = s.reaches := by
  funext id
  unfold reaches
  rw [same]

theorem holds_eq_of_roots {s s' : Session} (handles : s'.handles = s.handles)
    (roots : s'.store.roots = s.store.roots) : s'.holds = s.holds := by
  funext id
  unfold holds Store.buffersRoot
  rw [handles, roots]

theorem sweepRoot_handles (id : RootId) : (s.sweepRoot id).handles = s.handles := by
  unfold sweepRoot
  split <;> rfl

theorem sweepBuffer_handles (id : BufferId) : (s.sweepBuffer id).handles = s.handles := by
  unfold sweepBuffer
  split <;> rfl

theorem rootHeld_sweepRoot (id other : RootId) :
    (s.sweepRoot id).store.rootHeld other =
      (s.store.rootHeld other && (other ≠ id || s.reaches other)) := by
  unfold sweepRoot
  by_cases reached : s.reaches id = true
  · simp only [reached, if_true]
    by_cases here : other = id
    · simp [here, reached]
    · simp [here]
  · simp only [reached, Bool.false_eq_true, if_false, Operation.settle_snd,
      Store.rootHeld_dropRoot]
    by_cases here : other = id
    · simp [here, reached]
    · simp [here]

theorem sweepRoot_buffers (id : RootId) : (s.sweepRoot id).store.buffers = s.store.buffers := by
  unfold sweepRoot
  split
  · rfl
  · rw [Operation.settle_snd]
    obtain ⟨_, -, -, buffers⟩ := s.store.dropRoot_roots id
    exact buffers

theorem sweepBuffer_roots (id : BufferId) : (s.sweepBuffer id).store.roots = s.store.roots := by
  unfold sweepBuffer
  split
  · rfl
  · rw [Operation.settle_snd]
    exact (s.store.dropBuffer_run id).1

theorem bufferAlive_sweepBuffer (id other : BufferId) :
    (s.sweepBuffer id).store.bufferAlive other =
      (s.store.bufferAlive other && (other ≠ id || s.holds other)) := by
  unfold sweepBuffer
  by_cases held : s.holds id = true
  · simp only [held, if_true]
    by_cases here : other = id
    · simp [here, held]
    · simp [here]
  · simp only [held, Bool.false_eq_true, if_false, Operation.settle_snd,
      (s.store.dropBuffer_run id).2.1]
    by_cases here : other = id
    · simp [here, held]
    · simp [here]

section Folds

/-- What is left after one sweep of each of some things, where a sweep spares what
the handles and the other things lead to. -/
private theorem foldl_sweeps {change : Session → Nat → Session} (spared kept : Session → Nat → Bool)
    (sweeps : ∀ s id other,
      kept (change s id) other = (kept s other && (other ≠ id || spared s other)))
    (steady : ∀ s id, spared (change s id) = spared s) (ids : List Nat) (s : Session)
    (other : Nat) :
    kept (ids.foldl change s) other = (kept s other && (other ∉ ids || spared s other)) := by
  induction ids generalizing s with
  | nil => simp
  | cons id ids ih =>
      rw [List.foldl_cons, ih, sweeps, steady]
      by_cases here : other = id
      · subst here
        cases spared s other <;> simp
      · simp [here]

private theorem foldl_keeps {α : Type} {change : Session → Nat → Session} (of : Session → α)
    (steady : ∀ s id, of (change s id) = of s) (ids : List Nat) (s : Session) :
    of (ids.foldl change s) = of s := by
  induction ids generalizing s with
  | nil => rfl
  | cons id ids ih => rw [List.foldl_cons, ih, steady]

end Folds

/-- What outlasts the sweep of any root and of any buffer outlasts a whole sweep. -/
theorem sweep_induct {motive : Session → Prop} (start : motive s)
    (root : ∀ t id, motive t → motive (sweepRoot t id))
    (buffer : ∀ t id, motive t → motive (sweepBuffer t id)) : motive s.sweep := by
  unfold sweep
  refine List.foldlRecOn _ _ ?_ fun t held id _ => buffer t id held
  exact List.foldlRecOn _ _ start fun t held id _ => root t id held

theorem sweep_handles : s.sweep.handles = s.handles := by
  unfold sweep
  exact (foldl_keeps handles sweepBuffer_handles _ _).trans
    (foldl_keeps handles sweepRoot_handles _ s)

theorem rootHeld_sweep (id : RootId) :
    s.sweep.store.rootHeld id = (s.store.rootHeld id && s.reaches id) := by
  have roots (s : Session) : ((List.range s.store.buffers.length).foldl sweepBuffer s).store.roots =
      s.store.roots :=
    foldl_keeps (fun s => s.store.roots) sweepBuffer_roots _ s
  have swept := foldl_sweeps reaches (fun s => s.store.rootHeld) rootHeld_sweepRoot
    (fun s id => reaches_eq_of_handles (s.sweepRoot_handles id))
    (List.range s.store.roots.length) s id
  unfold sweep
  simp only [Store.rootHeld] at swept ⊢
  rw [roots, swept]
  cases found : s.store.roots[id]? with
  | none => rfl
  | some root =>
      obtain ⟨inside, -⟩ := List.getElem?_eq_some_iff.mp found
      simp [inside]

theorem bufferAlive_sweep (id : BufferId) :
    s.sweep.store.bufferAlive id = (s.store.bufferAlive id && s.sweep.holds id) := by
  unfold sweep
  generalize swept : (List.range s.store.roots.length).foldl sweepRoot s = s₁
  have buffers : s₁.store.buffers = s.store.buffers := by
    rw [← swept]
    exact foldl_keeps (fun s => s.store.buffers) sweepRoot_buffers _ s
  have steady : ((List.range s₁.store.buffers.length).foldl sweepBuffer s₁).holds = s₁.holds :=
    holds_eq_of_roots (foldl_keeps handles sweepBuffer_handles _ s₁)
      (foldl_keeps (fun s => s.store.roots) sweepBuffer_roots _ s₁)
  have ended := foldl_sweeps holds (fun s => s.store.bufferAlive) bufferAlive_sweepBuffer
    (fun s id => holds_eq_of_roots (s.sweepBuffer_handles id) (s.sweepBuffer_roots id))
    (List.range s₁.store.buffers.length) s₁ id
  simp only at ended ⊢
  rw [ended, steady]
  simp only [Store.bufferAlive, buffers]
  cases found : s.store.buffers[id]? with
  | none => rfl
  | some b =>
      obtain ⟨inside, -⟩ := List.getElem?_eq_some_iff.mp found
      simp [inside]

/-- Nothing is left that a sweep would drop. -/
structure Swept (s : Session) : Prop where
  roots (id : RootId) : s.store.rootHeld id = true → s.reaches id = true
  buffers (id : BufferId) : s.store.bufferAlive id = true → s.holds id = true

theorem sweep_swept : s.sweep.Swept where
  roots id held := by
    rw [rootHeld_sweep, Bool.and_eq_true] at held
    rw [reaches_eq_of_handles s.sweep_handles]
    exact held.2
  buffers id alive := by
    rw [bufferAlive_sweep, Bool.and_eq_true] at alive
    exact alive.2

variable {s}

private theorem Swept.sweepRoot_eq (h : s.Swept) (id : RootId) : s.sweepRoot id = s := by
  unfold sweepRoot
  by_cases reached : s.reaches id = true
  · simp only [reached, if_true]
  · have unheld : s.store.rootHeld id = false := by
      cases held : s.store.rootHeld id with
      | false => rfl
      | true => exact absurd (h.roots id held) reached
    have still : Operation.after (Store.dropRoot id) s.store = s.store := by
      unfold Operation.after Store.dropRoot
      simp only [Operation.bind_run, Operation.get_run]
      unfold Store.rootHeld at unheld
      cases found : s.store.roots[id]? with
      | none => rfl
      | some root =>
          have released : root.held = false := by simpa [found] using unheld
          simp only [Operation.some_run, released, Bool.false_eq_true, if_false,
            Operation.pure_run]
    simp only [reached, Bool.false_eq_true, if_false, Operation.settle_snd, still]

private theorem Swept.sweepBuffer_eq (h : s.Swept) (id : BufferId) : s.sweepBuffer id = s := by
  unfold sweepBuffer
  by_cases held : s.holds id = true
  · simp only [held, if_true]
  · have ended : s.store.bufferAlive id = false := by
      cases alive : s.store.bufferAlive id with
      | false => rfl
      | true => exact absurd (h.buffers id alive) held
    have still := (s.store.dropBuffer_run id).2.2 ended
    simp only [held, Bool.false_eq_true, if_false, Operation.settle_snd, still]

private theorem foldl_fixed {change : Session → Nat → Session} (fixed : ∀ id, change s id = s)
    (ids : List Nat) : ids.foldl change s = s := by
  induction ids with
  | nil => rfl
  | cons id ids ih => rw [List.foldl_cons, fixed, ih]

/-- There is nothing to do twice. -/
theorem Swept.sweep_eq (h : s.Swept) : s.sweep = s := by
  unfold sweep
  rw [foldl_fixed h.sweepRoot_eq, foldl_fixed h.sweepBuffer_eq]

end Session

end BoundedMemory
