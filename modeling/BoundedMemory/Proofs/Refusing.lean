import BoundedMemory.Proofs.Alikeness
import BoundedMemory.Proofs.RootContents

/-!
What is left to do with a root that was released. Each access and each derivation is
refused for the release before anything else is looked at, a copy is refused after
nothing was told of memory, and a further release asks the system to unmap nothing.
-/

namespace BoundedMemory

/-- Uses of a region that move bytes, with arguments that are in order by themselves. -/
def RegionUse.WellPut (how : RegionUse) (r : Region) : Prop :=
  match how with
  | .release | .report => False
  | .toBytes => r.length < Word.modulus
  | .clearBetween _ first last => first ≤ last
  | .readSlice t _ count _ | .readElements t _ _ _ count _ | .writeElements t _ _ _ count _ =>
      count * t.width < Word.modulus
  | .writeSlice t _ vs _ => vs.length * t.width < Word.modulus
  | .clear .. | .clearAll _ | .read .. | .write .. => True

variable {r : Region} {s t : Store}

theorem RegionUse.WellPut.transfer {how : RegionUse} (put : how.WellPut r) :
    ∃ x offset, r.transfer? how = some (x, offset) ∧ x.lengthFault? = none := by
  cases how with
  | release => exact put.elim
  | report => exact put.elim
  | clearBetween byte first last => exact ⟨_, _, if_neg (Nat.not_lt.mpr put), rfl⟩
  | clear byte offset length => exact ⟨_, _, rfl, rfl⟩
  | clearAll byte => exact ⟨_, _, rfl, rfl⟩
  | read t offset order => exact ⟨_, _, rfl, rfl⟩
  | write t offset v order => exact ⟨_, _, rfl, rfl⟩
  | _ => exact ⟨_, _, rfl, if_pos put⟩

theorem Region.refusal?_released (released : r.isValid s = false) (access : Access)
    (operation : String) (offset n : Nat) :
    r.refusal? s access operation offset n = some .released := by
  unfold refusal?
  rw [released]
  rfl

theorem RegionUse.run_released {how : RegionUse} (released : r.isValid s = false)
    (put : how.WellPut r) (keyName : SegmentKey → String) :
    how.run r keyName s = (how.failure .released, s) := by
  obtain ⟨x, offset, transfer, length⟩ := put.transfer
  have refusal : x.refusal? r s offset = some .released := by
    unfold Transfer.refusal?
    rw [length, Region.refusal?_released released]
    rfl
  rw [Region.run_use transfer]
  unfold Operation.settle
  rw [Transfer.run_eq, refusal]

theorem Narrowing.apply_released {n : Narrowing} (released : r.isValid s = false)
    (put : n.orderFault? = none) : n.apply r s = .error (.fault .released) s := by
  have refusal : n.refusal? r s = some .released := by
    unfold refusal?
    rw [put, released]
    rfl
  rw [apply_run, refusal]

namespace Attachment

variable {σ : Type} {calls : SegmentCalls σ} {state : σ} {a : Attachment}

theorem detach_of_detached (gone : a.attached = false) :
    detach calls (state, a) = .ok () (state, a) := by
  rw [detach_run, gone]
  rfl

/-- Once it is detached, to destroy it goes on as if it had been detached before. -/
theorem destroy_of_detach {after : σ × Attachment}
    (detached : detach calls (state, a) = .ok () after) (gone : after.2.attached = false) :
    destroy calls (state, a) = destroy calls after := by
  obtain ⟨t, b⟩ := after
  rw [destroy_run, detached, destroy_run, detach_of_detached gone]

/-- What the system would answer to an unmapping makes no difference any more. -/
theorem release_of_detached (gone : a.attached = false)
    (unmap : MappingId → EStateM OsError σ Unit) :
    release { calls with unmap } (state, a) = release calls (state, a) := by
  have unasked (calls : SegmentCalls σ) : detach calls (state, { a with released := true }) =
      .ok () (state, { a with released := true }) :=
    detach_of_detached gone
  have same : a.ending { calls with unmap } (state, { a with released := true }) =
      a.ending calls (state, { a with released := true }) := by
    unfold ending
    split
    · rw [destroy_run, destroy_run, unasked, unasked]
    · rw [unasked, unasked]
  rw [release_run, release_run, same]

theorem Steps.mappings {before after : Store × Attachment} (steps : Steps before after)
    (gone : before.2.attached = false) :
    after.1.mappings = before.1.mappings ∧ after.2.attached = false := by
  induction steps with
  | refl => exact ⟨rfl, gone⟩
  | tail _ step ih =>
      obtain ⟨mappings, gone⟩ := ih
      cases step with
      | release => exact ⟨mappings, gone⟩
      | unmap attached _ =>
          rw [attached] at gone
          cases gone
      | remove _ _ => exact ⟨(Store.reclaim_mappings _ _).trans mappings, gone⟩

end Attachment

/-- A release that comes again has an end and unmaps nothing. -/
theorem Region.release_again {length : Nat} (ended : s.Ended r.root length) :
    ∃ s', r.release s = .ok () s' ∧ s'.mappings = s.mappings := by
  obtain ⟨root, found, invalid, -⟩ := ended
  unfold release
  by_cases view : r.isView = true
  · rw [if_pos view]
    exact ⟨s, rfl, rfl⟩
  · rw [if_neg view, Store.releaseRoot_run, found]
    unfold Root.isValid at invalid
    simp only
    cases behind : root.backing with
    | array valid => exact ⟨_, rfl, rfl⟩
    | buffer id valid => exact ⟨_, rfl, rfl⟩
    | heap valid =>
        simp only [behind] at invalid
        subst invalid
        exact ⟨_, rfl, rfl⟩
    | segment a =>
        simp only [behind] at invalid
        have steps := Attachment.release_steps (s := s) (a := a)
        obtain ⟨after, run⟩ := Attachment.release_ok Store.segmentCalls s a
        unfold Operation.after at steps
        simp only [run] at steps ⊢
        exact ⟨_, rfl, (steps.mappings invalid).1⟩

section Copies

/-- Where memory can be read in one of two stores alike, it can be read in the other. -/
theorem Store.Resembles.peek? (alike : s.Resembles t) (r : Region) (offset n : Nat) :
    (∃ bytes bytes', r.peek? s offset n = some bytes ∧ r.peek? t offset n = some bytes') ∨
      r.peek? s offset n = none ∧ r.peek? t offset n = none := by
  have seen {s t : Store} {bytes : Bytes} (alike : s.Resembles t)
      (read : r.peek? s offset n = some bytes) : ∃ bytes', r.peek? t offset n = some bytes' := by
    obtain ⟨root, b, reach, -⟩ := Region.peek?_eq_some_iff.mp read
    obtain ⟨c, there, -⟩ := alike.reaches reach
    exact ⟨_, Region.peek?_eq_some_iff.mpr ⟨root, c, there, rfl⟩⟩
  cases read : r.peek? s offset n with
  | some bytes =>
      obtain ⟨bytes', read'⟩ := seen alike read
      exact .inl ⟨bytes, bytes', rfl, read'⟩
  | none =>
      refine .inr ⟨rfl, ?_⟩
      rw [Option.eq_none_iff_forall_ne_some]
      intro bytes' read'
      obtain ⟨bytes, found⟩ := seen alike.symm read'
      rw [read] at found
      cases found

/-- In stores alike as many bytes are read, or reading fails for the same reason. -/
theorem Region.readBytes_resembles (alike : s.Resembles t) (r : Region) (offset n : Nat) :
    (∃ bytes bytes', r.readBytes offset n s = .ok bytes s ∧ r.readBytes offset n t = .ok bytes' t) ∨
      ∃ e, r.readBytes offset n s = .error e s ∧ r.readBytes offset n t = .error e t := by
  have read_ok {s : Store} {bytes : Bytes}
      (run : (Transfer.readBytes n).run r offset s = .ok (.bytes bytes) s) :
      r.readBytes offset n s = .ok bytes s :=
    Region.readBytes_eq_ok_iff.mpr run
  have read_error {s : Store} {e : Stop Fault}
      (run : (Transfer.readBytes n).run r offset s = .error e s) :
      r.readBytes offset n s = .error e s := by
    simp only [Transfer.run, Operation.bind_run] at run
    cases result : r.readBytes offset n s with
    | ok bytes after => simp [result] at run
    | error e' after =>
        simp only [result] at run
        cases run
        rfl
  have refusal : (Transfer.readBytes n).refusal? r t offset =
      (Transfer.readBytes n).refusal? r s offset := by
    rw [Transfer.refusal?_congr (congrFun alike.isValid r.root)]
  have run₁ := Transfer.run_eq (.readBytes n) r offset s
  have run₂ := Transfer.run_eq (.readBytes n) r offset t
  rw [refusal] at run₂
  cases refused : (Transfer.readBytes n).refusal? r s offset with
  | some fault =>
      rw [refused] at run₁ run₂
      exact .inr ⟨_, read_error run₁, read_error run₂⟩
  | none =>
      simp only [refused, Transfer.outcome?, Transfer.size, Transfer.direction,
        Transfer.answer] at run₁ run₂
      by_cases nothing : n = 0
      · simp only [nothing, if_true] at run₁ run₂
        subst nothing
        exact .inl ⟨[], [], read_ok run₁, read_ok run₂⟩
      · simp only [nothing, if_false] at run₁ run₂
        obtain ⟨bytes, bytes', read, read'⟩ | ⟨none, none'⟩ := alike.peek? r offset n
        · rw [read] at run₁
          rw [read'] at run₂
          exact .inl ⟨bytes, bytes', read_ok run₁, read_ok run₂⟩
        · rw [none] at run₁
          rw [none'] at run₂
          exact .inr ⟨.trap, read_error run₁, read_error run₂⟩

theorem Reader.read_resembles (alike : s.Resembles t) (n : Nat) (w : Window) :
    (∃ bytes bytes' w', read n (s, w) = .ok bytes (s, w') ∧ read n (t, w) = .ok bytes' (t, w') ∧
        bytes.length = bytes'.length) ∨
      ∃ e, read n (s, w) = .error e (s, w) ∧ read n (t, w) = .error e (t, w) := by
  rw [read_run, read_run]
  by_cases nothing : min n w.available = 0
  · rw [if_pos nothing, if_pos nothing]
    exact .inl ⟨[], [], w, rfl, rfl, rfl⟩
  · rw [if_neg nothing, if_neg nothing]
    obtain ⟨bytes, bytes', run₁, run₂⟩ | ⟨e, run₁, run₂⟩ :=
      Region.readBytes_resembles alike w.region w.offset (min n w.available)
    · have length := (Region.length_of_readBytes run₁).trans (Region.length_of_readBytes run₂).symm
      rw [run₁, run₂]
      exact .inl ⟨bytes, bytes', _, rfl, rfl, length⟩
    · rw [run₁, run₂]
      exact .inr ⟨e, rfl, rfl⟩

/-- Where nothing may be written, as many bytes as others are refused for the same reason. -/
theorem Writer.write_denied (alike : s.Resembles t) {w : Window} (denies : w.region.Denies s .write)
    {bytes bytes' : Bytes} (length : bytes.length = bytes'.length) :
    ∃ e, write bytes (s, w) = .error e (s, w) ∧ write bytes' (t, w) = .error e (t, w) := by
  have refusal : (Transfer.writeBytes bytes').refusal? w.region t w.offset =
      (Transfer.writeBytes bytes).refusal? w.region s w.offset := by
    simp only [Transfer.refusal?, Transfer.lengthFault?, Transfer.listFault?, Transfer.size,
      Transfer.direction, Transfer.operation, length,
      Region.refusal?_congr (congrFun alike.isValid w.region.root)]
  have refused {s : Store} {bytes : Bytes} {fault : Fault}
      (for_it : (Transfer.writeBytes bytes).refusal? w.region s w.offset = some fault) :
      w.region.writeBytes w.offset bytes s = .error (.fault fault) s := by
    rw [Region.writeBytes_eq_error_iff, Transfer.run_eq, for_it]
  obtain ⟨fault, for_it⟩ : ∃ fault,
      (Transfer.writeBytes bytes).refusal? w.region s w.offset = some fault := by
    cases found : (Transfer.writeBytes bytes).refusal? w.region s w.offset with
    | some fault => exact ⟨fault, rfl⟩
    | none => exact absurd (Transfer.refusal?_eq_none_iff.mp found).2.1 (denies _ _ _)
  rw [write_run, write_run, refused for_it, refused (refusal.trans for_it), length]
  split <;> exact ⟨_, rfl, rfl⟩

/-- A copy to where nothing may be written tells nothing of what it would have copied. -/
theorem Stream.copy_denied (alike : s.Resembles t) (source : Window) {target : Window}
    (denies : target.region.Denies s .write) :
    (∃ n source', copy ⟨s, source, target⟩ = .ok n ⟨s, source', target⟩ ∧
        copy ⟨t, source, target⟩ = .ok n ⟨t, source', target⟩) ∨
      ∃ e source', copy ⟨s, source, target⟩ = .error e ⟨s, source', target⟩ ∧
        copy ⟨t, source, target⟩ = .error e ⟨t, source', target⟩ := by
  have run (s : Store) : copy ⟨s, source, target⟩ =
      copyRounds (fun _ => chunkSize) (source.available + 1) 0 0 ⟨s, source, target⟩ := rfl
  rw [run, run]
  simp only [copyRounds, Operation.bind_run, onSource_run, Operation.mapFault_run]
  obtain ⟨bytes, bytes', source', read₁, read₂, length⟩ | ⟨e, read₁, read₂⟩ :=
    Reader.read_resembles alike chunkSize source
  · rw [read₁, read₂]
    by_cases nothing : bytes = []
    · have nothing' : bytes' = [] := List.eq_nil_of_length_eq_zero (by rw [← length, nothing]; rfl)
      rw [nothing, nothing']
      exact .inl ⟨0, source', rfl, rfl⟩
    · have nothing' : bytes' ≠ [] := by
        rintro rfl
        exact nothing (List.eq_nil_of_length_eq_zero length)
      obtain ⟨e, write₁, write₂⟩ := Writer.write_denied alike denies length
      simp only [List.isEmpty_eq_false_iff.mpr nothing, List.isEmpty_eq_false_iff.mpr nothing',
        Bool.false_eq_true, if_false, Operation.bind_run, onTarget_run, Writer.writeAll,
        Bool.not_false, if_true, Operation.mapFault_run, write₁, write₂]
      cases e <;> exact .inr ⟨_, source', rfl, rfl⟩
  · rw [read₁, read₂]
    cases e <;> exact .inr ⟨_, source, rfl, rfl⟩

/-- Of a copy to where nothing may be written only a reply comes back. -/
theorem Session.copy_denied {s : Session} {target : String} {h : Handle}
    (found : s.handles.find? target = some h) (leads : h.seat = .region r) (source : String)
    {store : Store} (alike : s.store.Resembles store) (denies : r.Denies s.store .write) :
    ∃ reply handles, s.copy source target = (reply, { s with handles }) ∧
      copy source target { s with store } = (reply, { s with store, handles }) := by
  unfold copy
  simp only [found]
  split
  · rename_i source' target' _ same
    cases same
    cases leads
    obtain ⟨n, _, run₁, run₂⟩ | ⟨e, _, run₁, run₂⟩ := Stream.copy_denied alike source' denies
    · simp only [Operation.settle, run₁, run₂]
      exact ⟨_, _, rfl, rfl⟩
    · simp only [Operation.settle, run₁, run₂]
      cases e <;> exact ⟨_, _, rfl, rfl⟩
  · exact ⟨_, s.handles, rfl, rfl⟩

end Copies

end BoundedMemory
