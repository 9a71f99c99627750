import BoundedMemory.Proofs.Accounting
import BoundedMemory.Proofs.Anchoring
import BoundedMemory.Proofs.Refusing

/-!
The finality of releases. Once a root has been released, or its segment detached or
destroyed, it stays invalid in every run that follows, under all names that lead to it:
`Session.Over` says what that comes to.
-/

namespace BoundedMemory

namespace Region

/-- Uses of a root by which it comes to its end. One over a segment has to be attached to
what is there to be detached from, and is released only if no release was tried. -/
def EndedBy (r : Region) (how : Use) (s : Store) : Prop :=
  match how with
  | .region .release =>
      r.isView = false ∧ ∀ a, r.attachment? s = some a →
        a.attached = false ∨ a.released = false ∧ s.Detachable a
  | .segment .detach | .segment .destroy => ∃ a, r.attachment? s = some a ∧ s.Detachable a
  | _ => False

end Region

namespace Store

variable {s : Store} {id : RootId} {root : Root}

/-- An action that detaches, whether or not it does all it should, ends the root. -/
private theorem onAttachment_ends {action : Action (Store × Attachment) Unit} {a : Attachment}
    (found : s.roots[id]? = some root) (behind : root.backing = .segment a)
    (detaches : ∃ s' a', (action (s, a) = .ok () (s', a') ∨
        ∃ cause, action (s, a) = .error (.fault cause) (s', a')) ∧
      s'.roots = s.roots ∧ a'.attached = false) :
    (Operation.after (onAttachment id action) s).Ended id root.length := by
  obtain ⟨s', a', run, kept, gone⟩ := detaches
  have ended : (s'.setBacking id (.segment a')).Ended id root.length :=
    setBacking_ended (kept ▸ found) gone
  obtain ⟨backing, block, base, length, held⟩ := root
  cases behind
  unfold Operation.after onAttachment
  simp only [found]
  rcases run with run | ⟨cause, run⟩
  · rw [run]
    exact ended
  · rw [run]
    exact ended

end Store

namespace Session

variable {s : Session} {name : String} {r : Region} {how : Use}

theorem use_ends (bound : s.handles.find? name = some (.region r)) {root : Root}
    (found : s.store.roots[r.root]? = some root) (ends : r.EndedBy how s.store) :
    (s.use name how).2.store.Ended r.root root.length := by
  cases how with
  | region how =>
      cases how with
      | release =>
          obtain ⟨proper, ends⟩ := ends
          obtain ⟨after, run, ended⟩ := Store.releaseRoot_ends found fun a behind =>
            ends a ((Region.attachment?_eq_some_iff found).mpr ⟨proper, behind⟩)
          simp only [use, bound, RegionUse.run, Operation.settle, Region.release, proper,
            Bool.false_eq_true, if_false, run]
          exact ended
      | _ => exact ends.elim
  | segment how =>
      cases how with
      | detach =>
          obtain ⟨a, there, detachable⟩ := ends
          obtain ⟨-, behind⟩ := (Region.attachment?_eq_some_iff found).mp there
          obtain ⟨s', run, kept⟩ := Store.detach_ends detachable
          simp only [use, bound, there, SegmentUse.run, Operation.settle_snd, Region.detach]
          exact Store.onAttachment_ends found behind ⟨s', _, .inl run, kept, rfl⟩
      | destroy =>
          obtain ⟨a, there, detachable⟩ := ends
          obtain ⟨-, behind⟩ := (Region.attachment?_eq_some_iff found).mp there
          obtain ⟨s', removed, run, kept⟩ := Store.destroy_ends detachable
          simp only [use, bound, there, SegmentUse.run, Operation.settle_snd, Region.destroy]
          exact Store.onAttachment_ends found behind ⟨s', _, run, kept, rfl⟩
      | _ => exact ends.elim
  | _ => exact ends.elim

/-- Whether a name stands for a handle on a root, or on a view of it. -/
def On (s : Session) (id : RootId) (name : String) : Prop :=
  ∃ h, s.handles.find? name = some h ∧ h.root? = some id

end Session

/-- Commands that go through the handle of a name. -/
def Command.Through (name : String) : Command → Prop
  | .derive source _ _ => source = name
  | .use target _ => target = name
  | .copy source target => source = name ∨ target = name
  | .make .. | .ask _ | .unusable .. => False

theorem Derives.root_eq {r view : Region} {steps : List Narrowing} (chain : Derives r steps view) :
    view.root = r.root := by
  induction chain with
  | refl => rfl
  | step _ accepted ih =>
      obtain ⟨-, -, rfl, -⟩ := Narrowing.apply_eq_ok_iff.mp accepted
      exact ih

namespace Session

/-- A root has come to its end. Nothing on it is valid, each access and each derivation
is refused for that reason, what goes through handles on it neither tells of memory nor
changes any, and no memory is given back or unmapped again. -/
structure Over (id : RootId) (s : Session) : Prop where
  invalid {r view : Region} {steps : List Narrowing} :
    r.root = id → Derives r steps view → view.isValid s.store = false
  access {r : Region} {how : RegionUse} :
    r.root = id → how.WellPut r → ∀ keyName,
      how.run r keyName s.store = (how.failure .released, s.store)
  derivation {r : Region} {n : Narrowing} :
    r.root = id → n.orderFault? = none → n.apply r s.store = .error (.fault .released) s.store
  /-- Whatever memory holds, the replies are the same. -/
  silent {name : String} {command : Command} {t : Session} :
    s.On id name → command.Through name → s.Resembles t → (t.step command).1 = (s.step command).1
  untouched {name : String} {command : Command} :
    s.On id name → command.Through name →
      (s.step command).2.store.blocks.map Block.bytes = s.store.blocks.map Block.bytes
  release {r : Region} :
    r.root = id → ∃ store, r.release s.store = .ok () store ∧
      store.mappings = s.store.mappings
  /-- A further release does not even ask the system to unmap anything. -/
  unasked {root : Root} {a : Attachment} :
    s.store.roots[id]? = some root → root.backing = .segment a →
      ∀ {σ : Type} (calls : SegmentCalls σ) (unmap : MappingId → EStateM OsError σ Unit)
        (state : σ),
        Attachment.release { calls with unmap } (state, a) = Attachment.release calls (state, a)
  frees {b : Block} : b ∈ s.store.blocks → b.frees ≤ 1

variable {s t : Session} {id : RootId} {name : String} {command : Command}

theorem On.seat (on : s.On id name) :
    ∃ h r, s.handles.find? name = some h ∧ h.seat = .region r ∧ r.root = id := by
  obtain ⟨h, found, leads⟩ := on
  cases h <;> cases leads <;> exact ⟨_, _, found, rfl, rfl⟩

private theorem silent_of_released (released : s.store.isValid id = false) (on : s.On id name)
    (through : command.Through name) (alike : s.Resembles t) :
    (t.step command).1 = (s.step command).1 := by
  obtain ⟨h, r, found, seat, rfl⟩ := on.seat
  have denies (access : Access) : r.Denies s.store access := .of_released released access
  obtain ⟨store, alike, rfl⟩ := alike
  have blind : r.Blind s.store store := ⟨alike, denies .read⟩
  cases command with
  | make name what => exact through.elim
  | ask query => exact through.elim
  | unusable target reason => exact through.elim
  | derive source other how => exact (derive_alike source other how ⟨store, alike, rfl⟩).1.symm
  | use target how =>
      cases through
      exact (use_alike found seat blind).1.symm
  | copy source target =>
      rcases through with rfl | rfl
      · obtain ⟨reply, handles, run₁, run₂⟩ := copy_blind found seat target blind
        exact (congrArg Prod.fst run₂).trans (congrArg Prod.fst run₁).symm
      · obtain ⟨reply, handles, run₁, run₂⟩ := copy_denied found seat source alike (denies .write)
        exact (congrArg Prod.fst run₂).trans (congrArg Prod.fst run₁).symm

private theorem untouched_of_released (released : s.store.isValid id = false) (on : s.On id name)
    (through : command.Through name) :
    (s.step command).2.store.blocks.map Block.bytes = s.store.blocks.map Block.bytes := by
  obtain ⟨h, r, found, seat, rfl⟩ := on.seat
  have denies (access : Access) : r.Denies s.store access := .of_released released access
  refine (sweep_leaves (s.perform command).2).store.memory.trans ?_
  have still (same : (s.perform command).2.store = s.store) :
      (s.perform command).2.store.blocks.map Block.bytes = s.store.blocks.map Block.bytes := by
    rw [same]
  cases command with
  | make name what => exact through.elim
  | ask query => exact through.elim
  | unusable target reason => exact through.elim
  | derive source other how => exact still (derive_store source other how s)
  | copy source target =>
      rcases through with rfl | rfl
      · obtain ⟨_, _, run, -⟩ := copy_blind found seat target ⟨.refl _, denies .read⟩
        exact still (congrArg (fun result => result.2.store) run)
      · obtain ⟨_, _, run, -⟩ := copy_denied found seat source (.refl _) (denies .write)
        exact still (congrArg (fun result => result.2.store) run)
  | use target how =>
      cases through
      rcases Classical.em how.Ends with ends | spares
      · have used := s.use_used name how
        show (s.use name how).2.store.blocks.map Block.bytes = _
        generalize s.use name how = result at used ⊢
        cases used with
        | unfit => rfl
        | @region r' how =>
            cases how with
            | release =>
                have kept := r'.release_keeps s.store
                rw [← Operation.settle_snd] at kept
                exact kept.memory
            | _ => exact ends.elim
        | segment how => exact (segmentUse_keeps how _ _ _ s.store).memory
        | _ => exact ends.elim
      · exact still (use_unchanged found seat (fun ends => absurd ends spares) (denies .write))

theorem Over.of_ended {length : Nat} (ended : s.store.Ended id length)
    (accounted : s.store.Accounted) : Over id s where
  invalid := by
    rintro r view steps rfl chain
    unfold Region.isValid
    rw [chain.root_eq]
    exact ended.isValid
  access := by
    rintro r how rfl put keyName
    exact RegionUse.run_released ended.isValid put keyName
  derivation := by
    rintro r n rfl put
    exact Narrowing.apply_released ended.isValid put
  silent on through alike := silent_of_released ended.isValid on through alike
  untouched on through := untouched_of_released ended.isValid on through
  release := by
    rintro r rfl
    exact Region.release_again ended
  unasked := by
    intro root a found behind σ calls unmap state
    apply Attachment.release_of_detached
    have released := ended.isValid
    simpa only [Store.isValid, found, Root.isValid, behind] using released
  frees stored := accounted.frees_le stored

theorem run_accounted (machine : Machine) (files : FileTree) (commands : List Command) :
    (Session.run commands (.initial machine files)).2.store.Accounted :=
  ((Anchored.empty machine files).run_changes (.empty machine files) commands).accounted .empty
    .empty

/-- Releases are final. In any session that a run leads to, a root that is released, or
whose segment is detached or destroyed, is over in all that follows, whatever is done
then and under whatever names. A release of a view, on the other hand, does nothing. -/
theorem release_final {machine : Machine} {files : FileTree} {before : List Command}
    (reached : (Session.run before (.initial machine files)).2 = s) :
    (∀ name r how after, s.handles.find? name = some (.region r) → r.EndedBy how s.store →
      Over r.root (Session.run after (s.step (.use name how)).2).2) ∧
    ∀ name r, s.handles.find? name = some (.region r) → r.isView = true →
      s.step (.use name (.region .release)) = (.done, s) := by
  have tidy : s.Tidy := reached ▸ run_tidy machine files before
  have anchored : s.Anchored := reached ▸ run_anchored machine files before
  constructor
  · intro name r how after bound ends
    have seat : s.seats name = some (.region r) := by
      simp only [seats, bound, Option.map_some, Handle.seat]
    obtain ⟨root, found⟩ : ∃ root, s.store.roots[r.root]? = some root := by
      have held := anchored.roots seat
      unfold Store.rootHeld at held
      cases found : s.store.roots[r.root]? with
      | none => simp [found] at held
      | some root => exact ⟨root, rfl⟩
    have swept : Store.Changes False True (s.use name how).2.store _ :=
      sweep_changes (s.use name how).2
    have ended := swept.ended (use_ends bound found ends)
    have now : (Session.run (before ++ [.use name how]) (.initial machine files)).2 =
        (s.step (.use name how)).2 := by
      rw [run_append, reached]
      rfl
    have accounted := run_accounted machine files (before ++ [.use name how] ++ after)
    rw [run_append, now] at accounted
    have onward := (run_anchored machine files (before ++ [.use name how])).run_changes
      (run_tidy machine files _) after
    rw [now] at onward
    exact .of_ended (onward.ended ended) accounted
  · intro name r bound view
    have still : s.perform (.use name (.region .release)) = (.done, s) := by
      simp only [perform, use, bound, RegionUse.run, Region.release, view, if_true]
      rfl
    unfold step
    rw [still]
    show (Reply.done, s.sweep) = (Reply.done, s)
    rw [tidy.swept.sweep_eq]

/-- A segment that is held as `a`, with a view, a cursor and a reader on it. -/
private def sharing : List Command :=
  [.make "a" (.createSegment (.key "k") { size := 8 }), .derive "a" "v" (.slice 2 4),
    .derive "v" "c" (.cursor .littleEndian), .derive "a" "in" (.reader none)]

private def shared : Session := (Session.run sharing (.initial Host.machine .bare)).2

/-- Attempts to go on with it. -/
private def relying : List Command :=
  [.derive "v" "w" (.restrict .both), .use "v" (.region (.clearAll 7)),
    .use "c" (.cursor (.pad 4 7)), .use "in" (.reader .readToEnd), .use "a" (.region .release), .use "a" (.segment .detach),
    .make "b" (.attachSegment (.key "k") { size := 8 })]

theorem release_final_destroy :
    Over 0 (Session.run relying (shared.step (.use "a" (.segment .destroy))).2).2 ∧
      shared.step (.use "v" (.region .release)) = (.done, shared) := by
  obtain ⟨final, idle⟩ := @release_final shared Host.machine .bare sharing rfl
  let v : Region := { root := 0, base := 2, length := 4, permit := .initial, kind := .slice }
  have attachment : (Region.ofRoot 0 8).attachment? shared.store = some {
      key := .named "k", segment := 0, mapping := 0, destroyOnRelease := true } := by
    decide +kernel
  have mapped : shared.store.Detachable {
      key := .named "k", segment := 0, mapping := 0, destroyOnRelease := true } :=
    .inr ⟨0, by decide +kernel⟩
  constructor
  · exact final "a" (.ofRoot 0 8) (.segment .destroy) relying (by decide +kernel)
      ⟨_, attachment, mapped⟩
  · exact idle "v" v (by decide +kernel) rfl

end Session

end BoundedMemory
