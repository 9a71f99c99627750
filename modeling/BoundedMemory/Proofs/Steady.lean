import BoundedMemory.Proofs.HandleBounds

/-!
Commands that have an outcome. In a session whose memory is in order and whose handles
are in bounds, each command is answered or refused, and whatever names lead to afterwards
was there before or is in bounds as well.
-/

namespace BoundedMemory

open Operation (Settles)

theorem Names.find?_of_erase {α : Type} {names : Names α} {name other : String} {a : α}
    (found : (names.erase name).find? other = some a) : names.find? other = some a := by
  by_cases here : other = name
  · rw [here, find?_erase_same] at found
    cases found
  · rwa [find?_erase_other _ here] at found

variable {r : Region}

theorem RegionUse.settled (how : RegionUse) {s : Store} (fits : r.Fits s) (served : r.Served s)
    (keyName : SegmentKey → String) : (how.run r keyName s).1 ≠ .trap := by
  cases transfer : r.transfer? how with
  | some found =>
      obtain ⟨x, offset⟩ := found
      have settled : ((x.run r offset).settle how.failure id s).1 ≠ .trap ∧ True :=
        (Transfer.settles served x offset).settle
          (fun cause _ _ => ⟨how.failure_ne_trap cause, trivial⟩)
          fun _ _ found => ⟨found.1, trivial⟩
      rw [Region.run_use transfer]
      exact settled.1
  | none =>
      cases how with
      | release =>
          exact Operation.settle_ne_trap (Region.release_ne_trap fits) (by simp) fun _ =>
            Reply.noConfusion
      | report => exact Reply.noConfusion
      | clearBetween byte first last =>
          rw [run_turned transfer]
          exact Reply.noConfusion
      | _ => cases transfer

theorem SegmentUse.settled (how : SegmentUse) {s : Store} {a : Attachment} (fits : r.Fits s)
    (attached : r.attachment? s = some a) (other? : String → Option Attachment) :
    (how.run r a other? s).1 ≠ .trap := by
  obtain ⟨root, found, -⟩ := fits
  obtain ⟨-, behind⟩ := (Region.attachment?_eq_some_iff found).mp attached
  cases how with
  | detach =>
      have ended := Store.onAttachment_ne_trap found behind
        (Attachment.detach_ne_trap Store.segmentCalls s a)
      exact Operation.settle_ne_trap ended (by simp) fun _ => Reply.noConfusion
  | destroy =>
      have ended := Store.onAttachment_ne_trap found behind
        (Attachment.destroy_ne_trap Store.segmentCalls s a)
      exact Operation.settle_ne_trap ended (by simp) fun _ => Reply.noConfusion
  | unmap =>
      simp only [SegmentUse.run]
      split <;> simp
  | same name =>
      simp only [SegmentUse.run]
      split <;> simp

namespace Session

/-- A session in which all memory that handles lead to is there. -/
structure Ready (s : Session) : Prop where
  sound : s.store.Sound
  anchored : s.Anchored
  faithful : s.handles.Faithful
  inBounds {name : String} {h : Handle} : s.handles.find? name = some h → h.InBounds s.store

variable {s : Session} {name : String} {h : Handle}

theorem Ready.served (ready : s.Ready) (found : s.handles.find? name = some h)
    (leads : h.seat = .region r) : r.Served s.store := by
  have seat : s.seats name = some (.region r) := by
    simp only [seats, found, Option.map_some, leads]
  exact ((ready.inBounds found).fits leads).served ready.sound ready.anchored.attended
    (ready.anchored.roots seat)

/-- The result of a command that had an outcome. -/
structure Steady (s : Session) (result : Reply × Session) : Prop where
  plain : result.1 ≠ .trap
  inBounds {name : String} {h : Handle} : result.2.handles.find? name = some h →
    (∃ other, s.handles.find? other = some h) ∨ h.InBounds result.2.store

namespace Steady

/-- Names that lead where they led. -/
theorem same {result : Reply × Session} (plain : result.1 ≠ .trap)
    (handles : result.2.handles = s.handles) : s.Steady result where
  plain
  inBounds found := .inl ⟨_, handles ▸ found⟩

/-- A name more that leads to a handle in bounds. -/
theorem bind {reply : Reply} {after : Session} (steady : s.Steady (reply, after))
    (inBounds : h.InBounds after.store) : s.Steady (reply, after.bind name h) where
  plain := steady.plain
  inBounds {other h'} found := by
    by_cases here : other = name
    · simp only [here, Session.bind, Names.find?_bind_same, Option.some.injEq] at found
      exact .inr (found ▸ inBounds)
    · simp only [Session.bind, Names.find?_bind_other _ _ here] at found
      exact steady.inBounds found

theorem bound {reply : Reply} {after : Session} (plain : reply ≠ .trap)
    (handles : after.handles = s.handles) (inBounds : h.InBounds after.store) :
    s.Steady (reply, after.bind name h) :=
  bind (same plain handles) inBounds

theorem erased {reply : Reply} (plain : reply ≠ .trap) :
    s.Steady (reply, { s with handles := s.handles.erase name }) where
  plain
  inBounds found := .inl ⟨_, Names.find?_of_erase found⟩

/-- What was there before another session was there before this one. -/
theorem after {between : Session} {result : Reply × Session} (steady : between.Steady result)
    (before : ∀ {name h}, between.handles.find? name = some h →
      ∃ other, s.handles.find? other = some h) : s.Steady result where
  plain := steady.plain
  inBounds found := by
    rcases steady.inBounds found with ⟨other, there⟩ | inBounds
    · exact .inl (before there)
    · exact .inr inBounds

theorem bindMade {make : Action Store Handle}
    (made : Settles (fun h t => h.InBounds t) (fun _ => True) make s.store) :
    s.Steady (s.bindMade name make) := by
  unfold Session.bindMade
  cases run : make s.store with
  | ok h t => exact .bound (by simp) rfl (made.answer run)
  | error e t =>
      cases e with
      | fault cause => exact .same (by simp) rfl
      | trap => exact absurd rfl (made.fault run).1

theorem bindRegion {make : Action Store Region}
    (made : Settles (fun r t => r.Fits t) (fun _ => True) make s.store) :
    s.Steady (s.bindRegion name make) :=
  .bindMade (made.bind fun _ _ fits => .pure fits)

theorem bindSegment {place : SegmentPlace} {look : SegmentKey → Action Store Region}
    (made : ∀ key, Settles (fun r t => r.Fits t) (fun _ => True) (look key) s.store) :
    s.Steady (s.bindSegment name place look) := by
  have beside := s.placeKey_alongside place
  unfold Session.bindSegment
  rcases placed : s.placeKey place with ⟨found, after⟩
  rw [placed] at beside
  cases found with
  | ok key =>
      have bound : after.Steady (after.bindRegion name (look key)) :=
        .bindRegion (beside.store ▸ made key)
      exact bound.after fun found => ⟨_, beside.handles ▸ found⟩
  | error cause => exact .same (by simp) beside.handles

end Steady

theorem Ready.make (ready : s.Ready) (what : Making) : s.Steady (s.make name what) := by
  have alive {buffer : String} {id : BufferId} (bound : s.buffer? buffer = some id) :
      ∃ b, s.store.buffers[id]? = some b := by
    have alive := ready.anchored.alive buffer id bound
    unfold Store.bufferAlive at alive
    cases found : s.store.buffers[id]? with
    | none => simp [found] at alive
    | some b => exact ⟨b, rfl⟩
  cases what with
  | newArray size => exact .bindRegion (Region.ofBytes_settles (List.replicate size 0))
  | ofBytes bytes => exact .bindRegion (Region.ofBytes_settles bytes)
  | ofBytesWithin bytes offset length =>
      exact .bindRegion (Region.ofBytesWithin_settles bytes offset length)
  | allocate size byte => exact .bindRegion (Region.allocate_clear_settles size byte)
  | allocateZeroed size =>
      exact .bindRegion
        ((Region.newHeap_settles _ _ size 0).mono (fun _ _ made => made.1) fun _ _ =>
        trivial)
  | allocateFilled size byte =>
      exact .bindRegion ((Region.newHeap_settles _ _ size byte).mono (fun _ _ made => made.1)
        fun _ _ => trivial)
  | newBuffer size bytes =>
      simp only [Session.make, makeBuffer]
      split
      · rename_i usable
        have taken := Buffer.allocateWith_settles (s := s.store) usable.1
        cases run : Buffer.allocateWith size bytes s.store with
        | ok id t => exact .bound (by simp) rfl trivial
        | error e t =>
            cases e with
            | fault cause => exact .same (by simp) rfl
            | trap => exact absurd rfl (taken.fault run).1
      · exact .same (by simp) rfl
  | nullBuffer length => exact .bound (by simp) rfl trivial
  | bufferAgain buffer =>
      simp only [Session.make]
      cases s.buffers.find? buffer with
      | none => exact .same (by simp) rfl
      | some id =>
          simp only
          split
          · exact .bound (by simp) rfl trivial
          · exact .same (by simp) rfl
  | wrap buffer =>
      simp only [Session.make]
      cases found : s.buffer? buffer with
      | none => exact .same (by simp) rfl
      | some id =>
          obtain ⟨b, there⟩ := alive found
          exact .bindRegion (Region.wrap_settles there)
  | wrapWithin buffer offset length =>
      simp only [Session.make]
      cases found : s.buffer? buffer with
      | none => exact .same (by simp) rfl
      | some id =>
          obtain ⟨b, there⟩ := alive found
          exact .bindRegion (Region.wrapWithin_settles there offset length)
  | attachSegment place options =>
      exact .bindSegment fun key => Region.attachSegment_settles key options
  | createSegment place options =>
      exact .bindSegment fun key => Region.createSegment_settles key options

theorem Ready.derive (ready : s.Ready) (source : String) (how : Deriving) :
    s.Steady (s.derive source name how) := by
  unfold Session.derive
  cases derives : (s.handles.find? source).bind fun h => derivation? how h s.store with
  | none => exact .same (by simp) rfl
  | some make =>
      obtain ⟨h, found, derives⟩ := Option.bind_eq_some_iff.mp derives
      have made := derivation_settles (ready.inBounds found)
        (fun _ leads => (ready.served found leads).words) derives
      cases how with
      | intoRegion =>
          have bound : Steady { s with handles := s.handles.erase source }
              (bindMade name make { s with handles := s.handles.erase source }) := .bindMade made
          exact bound.after fun kept => ⟨_, Names.find?_of_erase kept⟩
      | _ => exact .bindMade made

/-- What is shown of a handle is never a trap. -/
private theorem inspect_plain (s : Session) (h : Handle) : s.inspect h ≠ .trap := by
  unfold Session.inspect
  cases h with
  | buffer id =>
      simp only
      split
      · split <;> simp
      · simp
  | _ => simp

theorem Ready.use (ready : s.Ready) (target : String) (how : Use) :
    s.Steady (s.use target how) := by
  have changes : Store.Changes False False s.store (s.use target how).2.store :=
    use_changes target how fun disorder => disorder.elim
  have used := s.use_used target how
  generalize s.use target how = result at used changes ⊢
  cases used with
  | unfit => exact .same Reply.noConfusion rfl
  | drop => exact .erased Reply.noConfusion
  | @inspect h => exact .same (s.inspect_plain h) rfl
  | region how found =>
      exact .same (how.settled (ready.inBounds found) (ready.served found rfl) s.keyName) rfl
  | segment how found attached => exact .same (how.settled (ready.inBounds found) attached _) rfl
  | cursor how found =>
      have inBounds := ready.inBounds found
      obtain ⟨plain, region, ordered⟩ := how.settled inBounds.2 (ready.served found rfl)
      refine .bound plain rfl ⟨?_, ordered⟩
      rw [region]
      exact inBounds.1.later changes
  | reader how found =>
      have inBounds := ready.inBounds found
      obtain ⟨plain, alike, region, ordered⟩ := how.settled inBounds.2 (ready.served found rfl)
      refine .bound plain rfl ⟨?_, ordered⟩
      rw [region]
      exact inBounds.1.resembles alike
  | writer how found =>
      have inBounds := ready.inBounds found
      obtain ⟨plain, alike, region, ordered⟩ := how.settled inBounds.2 (ready.served found rfl)
      refine .bound plain rfl ⟨?_, ordered⟩
      rw [region]
      exact inBounds.1.resembles alike

theorem Ready.copy (ready : s.Ready) (source target : String) :
    s.Steady (s.copy source target) := by
  unfold Session.copy
  split
  · rename_i r w reads writes
    have fits := ready.inBounds reads
    have fits' := ready.inBounds writes
    have settled : (Stream.copy.settle .streamFault .number ⟨s.store, r, w⟩).1 ≠ .trap ∧
        Stream.Copying.InOrder ⟨s.store, r, w⟩
          (Stream.copy.settle .streamFault .number ⟨s.store, r, w⟩).2 :=
      (Stream.copy_settles fits.2 fits'.2 (ready.served reads rfl)
        (ready.served writes rfl)).settle_kept (by simp) (by simp)
    generalize Stream.copy.settle .streamFault .number ⟨s.store, r, w⟩ = result at settled
    obtain ⟨reply, after⟩ := result
    obtain ⟨plain, reader, writer⟩ := settled
    have plain : s.Steady (reply, { s with store := after.store }) := .same plain rfl
    have inBounds : (Handle.reader after.source).InBounds after.store := by
      refine ⟨?_, reader.ordered⟩
      rw [reader.region]
      exact fits.1.resembles reader.alike
    have inBounds' : (Handle.writer after.target).InBounds after.store := by
      refine ⟨?_, writer.ordered⟩
      rw [writer.region]
      exact fits'.1.resembles writer.alike
    exact (plain.bind inBounds).bind inBounds'
  · exact .same (by simp) rfl

theorem ask_plain (query : Query) (s : Session) : (s.ask query).1 ≠ .trap := by
  cases query with
  | bufferAlive buffer =>
      simp only [ask]
      split <;> simp
  | deriveKey place project name =>
      simp only [ask]
      split
      · simp
      · cases name <;> simp
  | removeSegment name =>
      simp only [ask]
      split <;> simp
  | _ => exact Reply.noConfusion

theorem refuse_plain (target : String) (kind : Option Handle.Kind) (s : Session) :
    s.refuse target kind ≠ .trap := by
  unfold refuse
  split
  · split <;> simp
  · simp

/-- Every command has an outcome. -/
theorem Ready.perform (ready : s.Ready) (command : Command) : s.Steady (s.perform command) := by
  cases command with
  | make name what => exact ready.make what
  | derive source name how => exact ready.derive source how
  | use target how => exact ready.use target how
  | copy source target => exact ready.copy source target
  | ask query => exact .same (ask_plain query s) (s.ask_handles query)
  | unusable target kind => exact .same (refuse_plain target kind s) rfl

end Session

end BoundedMemory
