import BoundedMemory.Proofs.Resemblance
import BoundedMemory.Proofs.Narrowing
import BoundedMemory.Proofs.Sweeping

/-!
Sessions that differ in nothing but what is in memory. The life of roots, derivations
and sweeps cannot tell them apart at all, and uses of a handle cannot where its region
lets nothing be read.
-/

namespace BoundedMemory

open Operation (Oblivious Beside Alike Agree)

namespace Store

theorem unmapSegment_oblivious (id : MappingId) : Oblivious Resembles (unmapSegment id) := by
  intro s t h
  rw [unmapSegment_run, unmapSegment_run]
  have same : t.mappings[id]? = s.mappings[id]? := by rw [h.mappings]
  rw [same]
  cases s.mappings[id]? with
  | none => exact ⟨rfl, h⟩
  | some mapping =>
      obtain ⟨segment, live⟩ := mapping
      cases live with
      | false => exact ⟨rfl, h⟩
      | true => exact ⟨rfl, (h.unmapped id segment).reclaim segment⟩

theorem removeSegment_oblivious (id : SegmentId) : Oblivious Resembles (removeSegment id) := by
  intro s t h
  rw [removeSegment_run, removeSegment_run, ← h.segments]
  cases s.segments[id]? with
  | none => exact ⟨rfl, h⟩
  | some g =>
      by_cases gone : g.phase = .gone
      · simp only [gone, if_true]
        exact ⟨rfl, h⟩
      · simp only [gone, if_false]
        exact ⟨rfl, (h.setPhase id .removed).reclaim id⟩

end Store

namespace Attachment

/-- Stores alike, with the same attachment beside them. -/
abbrev BesideAlike : Store × Attachment → Store × Attachment → Prop :=
  Beside (fun _ => True) Store.Resembles

theorem detach_oblivious : Oblivious BesideAlike (detach Store.segmentCalls) := by
  rintro ⟨s, a⟩ ⟨t, a'⟩ ⟨h, same, -⟩
  cases same
  rw [detach_run, detach_run]
  split
  · obtain ⟨_, s', t', run₁, run₂, still⟩ | ⟨e, s', t', run₁, run₂, still⟩ :=
      (Store.unmapSegment_oblivious a.mapping s t h).cases
    all_goals
      simp only [Store.segmentCalls, run₁, run₂]
      exact ⟨rfl, still, rfl, trivial⟩
  · exact ⟨rfl, h, rfl, trivial⟩

theorem destroy_oblivious : Oblivious BesideAlike (destroy Store.segmentCalls) := by
  intro before before' beside
  rw [destroy_run, destroy_run]
  obtain ⟨_, ⟨s, a⟩, ⟨t, a'⟩, run₁, run₂, h, same, -⟩ | ⟨e, after, after', run₁, run₂, still⟩ :=
    (detach_oblivious before before' beside).cases
  · cases same
    simp only [run₁, run₂]
    split
    · exact ⟨rfl, h, rfl, trivial⟩
    · obtain ⟨_, s', t', removed₁, removed₂, still⟩ | ⟨e, s', t', removed₁, removed₂, still⟩ :=
        (Store.removeSegment_oblivious a.segment s t h).cases
      all_goals
        simp only [Store.segmentCalls, removed₁, removed₂]
        exact ⟨rfl, still, rfl, trivial⟩
  · simp only [run₁, run₂]
    exact ⟨rfl, still⟩

theorem release_oblivious : Oblivious BesideAlike (release Store.segmentCalls) := by
  rintro ⟨s, a⟩ ⟨t, a'⟩ ⟨h, same, -⟩
  cases same
  have ending : Oblivious BesideAlike (a.ending Store.segmentCalls) := by
    unfold Attachment.ending
    split
    · exact destroy_oblivious
    · exact detach_oblivious
  rw [release_run, release_run]
  split
  · exact ⟨rfl, h, rfl, trivial⟩
  · obtain ⟨_, after, after', run₁, run₂, still⟩ | ⟨e, after, after', run₁, run₂, still⟩ :=
      (ending (s, { a with released := true }) (t, { a with released := true })
        ⟨h, rfl, trivial⟩).cases
    · simp only [run₁, run₂]
      exact ⟨rfl, still⟩
    · simp only [run₁, run₂]
      cases e <;> exact ⟨rfl, still⟩

end Attachment

namespace Store

theorem onAttachment_oblivious {α : Type} {action : Action (Store × Attachment) α}
    (h : Oblivious Attachment.BesideAlike action) (id : RootId) :
    Oblivious Resembles (onAttachment id action) := by
  intro s t alike
  unfold onAttachment
  rw [← alike.roots]
  cases s.roots[id]? with
  | none => exact ⟨rfl, alike⟩
  | some root =>
      obtain ⟨backing, block, base, length, held⟩ := root
      cases backing with
      | segment a =>
          obtain ⟨b, ⟨s', a₁⟩, ⟨t', a₂⟩, run₁, run₂, still⟩ |
              ⟨e, ⟨s', a₁⟩, ⟨t', a₂⟩, run₁, run₂, still⟩ :=
                (h (s, a) (t, a) ⟨alike, rfl, trivial⟩).cases
          all_goals
            obtain ⟨alike', same, -⟩ := still
            cases same
            simp only [run₁, run₂]
            exact ⟨rfl, alike'.setBacking id _⟩
      | _ => exact ⟨rfl, alike⟩

theorem releaseRoot_oblivious (id : RootId) : Oblivious Resembles (releaseRoot id) := by
  intro s t h
  have segment := onAttachment_oblivious Attachment.release_oblivious id s t h
  simp only [releaseRoot, Operation.bind_run, Operation.get_run, ← h.roots]
  cases s.roots[id]? with
  | none => exact ⟨rfl, h⟩
  | some root =>
      simp only [Operation.some_run]
      cases root.backing with
      | array valid => exact ⟨rfl, h.setBacking id _⟩
      | heap valid =>
          cases valid with
          | false => exact ⟨rfl, h⟩
          | true => exact ⟨rfl, (h.setBacking id _).freeBlock root.block⟩
      | buffer wrapped valid => exact ⟨rfl, h.setBacking id _⟩
      | segment a => exact segment

theorem dropRoot_oblivious (id : RootId) : Oblivious Resembles (dropRoot id) := by
  intro s t h
  have released := releaseRoot_oblivious id s t h
  simp only [dropRoot, Operation.bind_run, Operation.get_run, ← h.roots]
  cases s.roots[id]? with
  | none => exact ⟨rfl, h⟩
  | some root =>
      simp only [Operation.some_run]
      cases root.held with
      | false => exact ⟨rfl, h⟩
      | true =>
          simp only [if_true, Operation.bind_run]
          obtain ⟨_, s', t', run₁, run₂, still⟩ | ⟨e, s', t', run₁, run₂, still⟩ := released.cases
          · simp only [run₁, run₂, Operation.modify_run]
            cases root.backing with
            | array valid => exact ⟨rfl, (still.letGo id).freeBlock root.block⟩
            | _ => exact ⟨rfl, still.letGo id⟩
          · simp only [run₁, run₂]
            exact ⟨rfl, still⟩

theorem dropBuffer_oblivious (id : BufferId) : Oblivious Resembles (dropBuffer id) := by
  intro s t h
  simp only [dropBuffer, Operation.bind_run, Operation.get_run, ← h.buffers]
  cases s.buffers[id]? with
  | none => exact ⟨rfl, h⟩
  | some b =>
      simp only [Operation.some_run]
      cases b.alive with
      | false => exact ⟨rfl, h⟩
      | true =>
          simp only [if_true, Operation.bind_run, Operation.modify_run]
          cases b.block with
          | none => exact ⟨rfl, h.endBuffer id⟩
          | some block => exact ⟨rfl, (h.endBuffer id).freeBlock block⟩

end Store

section Uses

variable {r : Region} {s t : Store}

theorem RegionUse.alike (how : RegionUse) (keyName : SegmentKey → String) (h : r.Blind s t) :
    Alike Store.Resembles (how.run r keyName s) (how.run r keyName t) := by
  cases transfer : r.transfer? how with
  | some place =>
      obtain ⟨x, offset⟩ := place
      rw [Region.run_use transfer, Region.run_use transfer]
      obtain ⟨same, blind⟩ := (x.oblivious r offset).settle h how.failure id
      exact ⟨same, blind.alike⟩
  | none =>
      cases how with
      | release =>
          have released : Oblivious Store.Resembles r.release := by
            unfold Region.release
            split
            · exact .pure ()
            · exact Store.releaseRoot_oblivious r.root
          exact released.settle h.alike _ _
      | report =>
          refine ⟨?_, h.alike⟩
          simp only [run, Region.report, Region.variant, Region.isValid, Region.viewReport?,
            Region.rootReport?, h.alike.isValid, h.alike.roots]
      | clearBetween byte first last =>
          rw [run_turned transfer, run_turned transfer]
          exact ⟨rfl, h.alike⟩
      | _ => cases transfer

theorem SegmentUse.alike (how : SegmentUse) (r : Region) (a : Attachment)
    (other? : String → Option Attachment) (h : s.Resembles t) :
    Alike Store.Resembles (how.run r a other? s) (how.run r a other? t) := by
  cases how with
  | detach =>
      exact (Store.onAttachment_oblivious Attachment.detach_oblivious r.root).settle h _ _
  | destroy =>
      exact (Store.onAttachment_oblivious Attachment.destroy_oblivious r.root).settle h _ _
  | unmap =>
      unfold SegmentUse.run
      obtain ⟨_, s', t', run₁, run₂, still⟩ | ⟨e, s', t', run₁, run₂, still⟩ :=
        (Store.unmapSegment_oblivious a.mapping s t h).cases
      all_goals
        simp only [run₁, run₂]
        exact ⟨rfl, still⟩
  | same name =>
      simp only [SegmentUse.run]
      cases other? name <;> exact ⟨rfl, h⟩

/-- What is blind reads nothing, and finds out nothing when it tries. -/
theorem Reader.read_blind (n : Nat) {w : Window} (blind : w.region.Blind s t) :
    Reader.read n (s, w) = .ok [] (s, w) ∧ Reader.read n (t, w) = .ok [] (t, w) ∨
      ∃ e, Reader.read n (s, w) = .error e (s, w) ∧ Reader.read n (t, w) = .error e (t, w) := by
  rw [read_run, read_run]
  by_cases nothing : min n w.available = 0
  · rw [if_pos nothing, if_pos nothing]
    exact .inl ⟨rfl, rfl⟩
  · rw [if_neg nothing, if_neg nothing]
    obtain ⟨bytes, s', t', run₁, -, -⟩ | ⟨e, s', t', run₁, run₂, -⟩ :=
      (w.region.readBytes_oblivious w.offset (min n w.available) s t blind).cases
    · exact absurd (Region.readBytes_eq_ok_iff.mp run₁) (Transfer.run_ne_ok_of_denies blind.denies)
    · rw [run₁, run₂, Region.readBytes_error run₁, Region.readBytes_error run₂]
      exact .inr ⟨e, rfl, rfl⟩

/-- Nothing is copied from where nothing may be read. -/
theorem Stream.copy_blind {source : Window} (target : Window) (blind : source.region.Blind s t) :
    copy ⟨s, source, target⟩ = .ok 0 ⟨s, source, target⟩ ∧
        copy ⟨t, source, target⟩ = .ok 0 ⟨t, source, target⟩ ∨
      ∃ e, copy ⟨s, source, target⟩ = .error e ⟨s, source, target⟩ ∧
        copy ⟨t, source, target⟩ = .error e ⟨t, source, target⟩ := by
  have run (s : Store) : copy ⟨s, source, target⟩ =
      copyRounds (fun _ => chunkSize) (source.available + 1) 0 0 ⟨s, source, target⟩ := rfl
  rw [run, run]
  simp only [copyRounds, Operation.bind_run, onSource_run, Operation.mapFault_run]
  obtain ⟨read₁, read₂⟩ | ⟨e, read₁, read₂⟩ := Reader.read_blind chunkSize blind
  · rw [read₁, read₂]
    exact .inl ⟨rfl, rfl⟩
  · rw [read₁, read₂]
    cases e <;> exact .inr ⟨_, rfl, rfl⟩

end Uses

section Derivations

variable {r : Region} {s t : Store} {how : Deriving}

theorem Narrowing.oblivious (n : Narrowing) (r : Region) :
    Oblivious Store.Resembles (n.apply r) := by
  intro s t h
  have refusal : n.refusal? r t = n.refusal? r s := by
    unfold refusal? Region.isValid
    rw [h.isValid]
  rw [apply_run, apply_run, refusal]
  cases n.refusal? r s with
  | some fault => exact ⟨rfl, h⟩
  | none =>
      simp only
      split <;> exact ⟨rfl, h⟩

private theorem Window.within_oblivious (r : Region) (start length : Nat) :
    Oblivious Store.Resembles (Window.within r start length) :=
  .check fun _ => .defined fun _ => .pure _

private theorem Cursor.slice_oblivious (c : Cursor) (offset length : Nat) :
    Oblivious Store.Resembles (c.slice offset length) :=
  ((Narrowing.slice offset length).oblivious c.region).map _

private theorem Cursor.sliceFrom_oblivious (c : Cursor) (offset : Nat) :
    Oblivious Store.Resembles (c.sliceFrom offset) :=
  .check fun _ => .defined fun _ => c.slice_oblivious _ _

private theorem ofRegion_oblivious {make : Action Store Handle}
    (derives : Session.ofRegion? how r s = some make) : Oblivious Store.Resembles make := by
  cases how with
  | parent =>
      obtain ⟨whole, -, rfl⟩ := Option.map_eq_some_iff.mp derives
      exact .pure _
  | slice offset length =>
      cases derives
      exact ((Narrowing.slice offset length).oblivious r).map _
  | sliceFrom offset =>
      cases derives
      exact ((Narrowing.sliceFrom offset).oblivious r).map _
  | sliceBetween first last =>
      cases derives
      exact ((Narrowing.sliceBetween first last).oblivious r).map _
  | restrict mask =>
      cases derives
      exact ((Narrowing.restrict mask).oblivious r).map _
  | readOnly =>
      cases derives
      exact (Narrowing.readOnly.oblivious r).map _
  | cursorWithin position limit order =>
      cases derives
      exact .check fun _ => .pure _
  | cursorOpen options =>
      cases derives
      exact .check fun _ => .pure _
  | reader range =>
      cases range with
      | none =>
          cases derives
          exact .pure _
      | some range =>
          cases derives
          exact (Window.within_oblivious r _ _).map _
  | writer range =>
      cases range with
      | none =>
          cases derives
          exact .pure _
      | some range =>
          cases derives
          exact (Window.within_oblivious r _ _).map _
  | copy | cursor _ =>
      cases derives
      exact .pure _
  | _ => cases derives

private theorem ofCursor_oblivious {c : Cursor} {make : Action Store Handle}
    (derives : Session.ofCursor? how c = some make) : Oblivious Store.Resembles make := by
  cases how with
  | cursorSlice offset length =>
      cases derives
      exact (c.slice_oblivious offset length).map _
  | cursorSliceFrom offset =>
      cases derives
      exact (c.sliceFrom_oblivious offset).map _
  | cursorSliceHere =>
      cases derives
      exact (c.sliceFrom_oblivious c.position).map _
  | cursorSliceBetween first last =>
      cases derives
      exact Oblivious.map _ (x := c.sliceBetween first last) (.check fun _ => c.slice_oblivious _ _)
  | copy | region | intoRegion =>
      cases derives
      exact .pure _
  | _ => cases derives

/-- No derivation can tell what memory holds. -/
theorem derivation_oblivious {h : Handle} {make : Action Store Handle}
    (derives : Session.derivation? how h s = some make) : Oblivious Store.Resembles make := by
  cases h with
  | region r => exact ofRegion_oblivious derives
  | cursor c => exact ofCursor_oblivious derives
  | reader w | writer w =>
      cases how with
      | copy | region =>
          cases derives
          exact .pure _
      | _ => cases derives
  | buffer id => cases derives

end Derivations

/-- Sessions that differ in nothing but the contents of memory. -/
def Session.Resembles (s t : Session) : Prop :=
  ∃ store, s.store.Resembles store ∧ t = { s with store }

namespace Session

variable {s s' t : Session} {target : String} {h : Handle} {how : Use} {r : Region}

theorem bindMade_alike {make : Action Store Handle} (name : String)
    (oblivious : Oblivious Store.Resembles make) (alike : s.Resembles t) :
    Alike Resembles (s.bindMade name make) (t.bindMade name make) := by
  obtain ⟨store, alike, rfl⟩ := alike
  unfold bindMade
  obtain ⟨h, s', t', run₁, run₂, still⟩ | ⟨e, s', t', run₁, run₂, still⟩ :=
    (oblivious s.store store alike).cases
  · simp only [run₁, run₂]
    exact ⟨rfl, t', still, rfl⟩
  · simp only [run₁, run₂]
    cases e <;> exact ⟨rfl, t', still, rfl⟩

theorem derive_alike (source name : String) (how : Deriving) (alike : s.Resembles t) :
    Alike Resembles (s.derive source name how) (t.derive source name how) := by
  obtain ⟨store, alike, rfl⟩ := alike
  have same (h : Handle) : derivation? how h store = derivation? how h s.store := by
    unfold derivation? ofRegion? Region.parent?
    rw [alike.roots]
  unfold derive
  simp only [same]
  cases found : (s.handles.find? source).bind fun h => derivation? how h s.store with
  | none => exact ⟨rfl, store, alike, rfl⟩
  | some make =>
      obtain ⟨h, -, derives⟩ := Option.bind_eq_some_iff.mp found
      have oblivious := derivation_oblivious derives
      cases how with
      | intoRegion => exact bindMade_alike name oblivious ⟨store, alike, rfl⟩
      | _ => exact bindMade_alike name oblivious ⟨store, alike, rfl⟩

/-- What moved alike is bound alike. -/
private theorem rebind_alike {β : Type} {kind : β → Prop} {x y : Reply × Store × β}
    (target : String) (handle : β → Handle) (moved : Alike (Beside kind r.Blind) x y) :
    Alike Resembles (x.1, ({ s with store := x.2.1 } : Session).bind target (handle x.2.2))
      (y.1, ({ s with store := y.2.1 } : Session).bind target (handle y.2.2)) := by
  obtain ⟨told, still, same, -⟩ := moved
  refine ⟨told, _, still.alike, ?_⟩
  rw [same]
  rfl

/-- A use of a handle that leads where nothing may be read tells nothing. -/
theorem use_alike (found : s.handles.find? target = some h) (leads : h.seat = .region r)
    {store : Store} (blind : r.Blind s.store store) :
    Alike Resembles (s.use target how) (use target how { s with store }) := by
  have alike := blind.alike
  have shown (r : Region) : Inspect.region store r = Inspect.region s.store r := by
    unfold Inspect.region
    rw [alike.roots]
  cases how with
  | drop =>
      simp only [use, found]
      exact ⟨rfl, store, alike, rfl⟩
  | inspect =>
      simp only [use, found]
      refine ⟨?_, store, alike, rfl⟩
      cases h with
      | buffer id => cases leads
      | _ =>
          simp only [inspect, Inspect.cursor, Inspect.reader, Inspect.writer, Inspect.window,
            shown]
  | region how =>
      cases h with
      | region r =>
          cases leads
          obtain ⟨same, still⟩ := how.alike s.keyName blind
          simp only [use, found]
          exact ⟨same, _, still, rfl⟩
      | _ =>
          simp only [use, found]
          exact ⟨rfl, store, alike, rfl⟩
  | segment how =>
      cases h with
      | region r =>
          have attachment (r : Region) : r.attachment? store = r.attachment? s.store := by
            unfold Region.attachment?
            rw [alike.roots]
          simp only [use, found, attachment]
          cases r.attachment? s.store with
          | none => exact ⟨rfl, store, alike, rfl⟩
          | some a =>
              have others : attachment? { s with store } = s.attachment? := by
                funext name
                unfold Session.attachment?
                simp only [attachment]
              obtain ⟨same, still⟩ :=
                how.alike r a (fun name => (s.attachment? name).map Prod.snd) alike
              simp only [others]
              exact ⟨same, _, still, rfl⟩
      | _ =>
          simp only [use, found]
          exact ⟨rfl, store, alike, rfl⟩
  | cursor how =>
      cases h with
      | cursor c =>
          cases leads
          simp only [use, found]
          exact rebind_alike target .cursor (how.alike blind)
      | _ =>
          simp only [use, found]
          exact ⟨rfl, store, alike, rfl⟩
  | reader how =>
      cases h with
      | reader w =>
          cases leads
          simp only [use, found]
          exact rebind_alike target .reader (how.alike blind)
      | _ =>
          simp only [use, found]
          exact ⟨rfl, store, alike, rfl⟩
  | writer how =>
      cases h with
      | writer w =>
          cases leads
          simp only [use, found]
          exact rebind_alike target .writer (how.alike blind)
      | _ =>
          simp only [use, found]
          exact ⟨rfl, store, alike, rfl⟩

/-- Of a copy from where nothing may be read only a reply comes back. -/
theorem copy_blind {source : String} {h : Handle} (found : s.handles.find? source = some h)
    (leads : h.seat = .region r) (target : String) {store : Store}
    (blind : r.Blind s.store store) :
    ∃ reply handles, s.copy source target = (reply, { s with handles }) ∧
      copy source target { s with store } = (reply, { s with store, handles }) := by
  unfold copy
  simp only [found]
  split
  · rename_i source' target' same second
    cases same
    cases leads
    obtain ⟨run₁, run₂⟩ | ⟨e, run₁, run₂⟩ := Stream.copy_blind target' blind
    · simp only [Operation.settle, run₁, run₂]
      exact ⟨_, _, rfl, rfl⟩
    · simp only [Operation.settle, run₁, run₂]
      cases e <;> exact ⟨_, _, rfl, rfl⟩
  · exact ⟨_, s.handles, rfl, rfl⟩

theorem sweep_alike (alike : s.Resembles t) : s.sweep.Resembles t.sweep := by
  -- Both sides spare the same, since handles and roots are the same on both.
  have root (s t : Session) (id : RootId) (alike : s.Resembles t) :
      (s.sweepRoot id).Resembles (t.sweepRoot id) := by
    obtain ⟨store, alike, rfl⟩ := alike
    have reached : reaches { s with store } id = s.reaches id := rfl
    unfold sweepRoot
    rw [reached]
    split
    · exact ⟨store, alike, rfl⟩
    · exact ⟨_, ((Store.dropRoot_oblivious id).settle alike .fault fun _ => .done).2, rfl⟩
  have buffer (s t : Session) (id : BufferId) (alike : s.Resembles t) :
      (s.sweepBuffer id).Resembles (t.sweepBuffer id) := by
    obtain ⟨store, alike, rfl⟩ := alike
    have held : holds { s with store } id = s.holds id := by
      unfold holds Store.buffersRoot
      rw [alike.roots]
    unfold sweepBuffer
    rw [held]
    split
    · exact ⟨store, alike, rfl⟩
    · exact ⟨_, ((Store.dropBuffer_oblivious id).settle alike .fault fun _ => .done).2, rfl⟩
  have all (change : Session → Nat → Session)
      (kept : ∀ s t id, s.Resembles t → (change s id).Resembles (change t id)) (ids : List Nat)
      (s t : Session) (alike : s.Resembles t) :
      (ids.foldl change s).Resembles (ids.foldl change t) := by
    induction ids generalizing s t with
    | nil => exact alike
    | cons id ids ih => exact ih _ _ (kept s t id alike)
  have roots : t.store.roots = s.store.roots := by
    obtain ⟨store, alike, rfl⟩ := alike
    exact alike.roots.symm
  have first := all sweepRoot root (List.range s.store.roots.length) s t alike
  unfold sweep
  simp only [roots]
  generalize (List.range s.store.roots.length).foldl sweepRoot s = s₁ at first ⊢
  generalize (List.range s.store.roots.length).foldl sweepRoot t = t₁ at first ⊢
  have buffers : t₁.store.buffers = s₁.store.buffers := by
    obtain ⟨store, alike, rfl⟩ := first
    exact alike.buffers.symm
  simp only [buffers]
  exact all sweepBuffer buffer (List.range s₁.store.buffers.length) s₁ t₁ first

end Session

end BoundedMemory
