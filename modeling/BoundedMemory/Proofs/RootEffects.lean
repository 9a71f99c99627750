import BoundedMemory.Proofs.SegmentRuns

/-!
What one command does to roots. It adds some and leaves all others as they are, or it works
on a single root: by a release, or by detaching or destroying the attachment behind it,
through a handle on that root itself.
-/

namespace BoundedMemory

namespace Store

/-- All roots are as they were, but for some that may be new. -/
def Adds (s s' : Store) : Prop :=
  ∃ news : List Root, s'.roots = s.roots ++ news ∧ ∀ root ∈ news, root.Fresh

namespace Adds

variable {s s' s'' : Store} {id : RootId} {root : Root}

theorem of_roots (same : s'.roots = s.roots) : s.Adds s' := ⟨[], by simp [same], by simp⟩

theorem of_concat (roots : s'.roots = s.roots ++ [root]) (fresh : root.Fresh) : s.Adds s' :=
  ⟨[root], roots, by simpa using fresh⟩

theorem trans (first : s.Adds s') (second : s'.Adds s'') : s.Adds s'' := by
  obtain ⟨news, roots, fresh⟩ := first
  obtain ⟨later, roots', fresh'⟩ := second
  refine ⟨news ++ later, by rw [roots', roots, List.append_assoc], fun root new => ?_⟩
  exact (List.mem_append.mp new).elim (fresh root) (fresh' root)

theorem admits : Admits Adds where
  refl _ := .of_roots rfl
  trans := .trans
  rewrite alike := .of_roots alike.roots.symm
  block _ _ := .of_roots rfl
  buffer _ _ := .of_roots rfl
  root _ _ fresh _ := .of_concat rfl fresh

/-- A root there is either was there before or is fresh. -/
theorem old_or_fresh (adds : s.Adds s') (found : s'.roots[id]? = some root) :
    s.roots[id]? = some root ∨ s.roots[id]? = none ∧ root.Fresh := by
  obtain ⟨news, roots, fresh⟩ := adds
  rw [roots] at found
  by_cases inside : id < s.roots.length
  · left
    rwa [List.getElem?_append_left inside] at found
  · rw [List.getElem?_append_right (Nat.le_of_not_lt inside)] at found
    exact .inr ⟨List.getElem?_eq_none (Nat.le_of_not_lt inside),
      fresh root (List.mem_of_getElem? found)⟩

theorem absent (adds : s.Adds s') (missing : s'.roots[id]? = none) : s.roots[id]? = none := by
  obtain ⟨news, roots, -⟩ := adds
  rw [roots, List.getElem?_eq_none_iff, List.length_append] at missing
  exact List.getElem?_eq_none (by omega)

end Adds

/-- A root over a segment that was just attached to is fresh. -/
theorem Attached.adds {g : SegmentId} {size : Nat} {destroys : Bool} {s s' : Store}
    (attached : Attached g size destroys s s') : s.Adds s' := by
  obtain ⟨root, a, roots, behind, -, -, held, -, -, there, removed, released⟩ := attached.root
  refine .of_concat roots ⟨held, ?_, ?_⟩
  · simpa only [Root.isValid, behind] using there
  · intro b other
    rw [behind] at other
    cases other
    exact ⟨released, removed⟩

end Store

theorem Looking.attach_adds (l : Looking) (key : SegmentKey) (s : Store) :
    s.Adds (Operation.after (l.attach key) s) := by
  unfold Operation.after
  obtain ⟨e, fails⟩ | ⟨g, t, finds, ⟨e, fails⟩ | ⟨u, attached, attaches⟩⟩ :=
    l.attach_cases key s
  · rw [fails]
    exact .of_roots rfl
  · rw [fails]
    exact .of_roots finds.roots
  · rw [attaches]
    exact (Store.Adds.of_roots finds.roots).trans attached.adds

namespace Session

variable {s : Session} {command : Command} {name : String} {id : RootId}

theorem make_adds (name : String) (what : Making) (s : Session) :
    s.store.Adds (s.make name what).2.store := by
  cases looks : what.looking? with
  | none => exact make_admits Store.Adds.admits looks name s
  | some l =>
      rw [make_looks looks, bindSegment_store]
      cases (s.placeKey l.place).1 with
      | error cause => exact .of_roots rfl
      | ok key => exact l.attach_adds key s.store

/-- Whether a command releases a root, by a handle on it that is no view. -/
def Releases (s : Session) (id : RootId) (command : Command) : Prop :=
  ∃ name r, command = .use name (.region .release) ∧
    s.handles.find? name = some (.region r) ∧ r.isView = false ∧ r.root = id

/-- Whether a command asks for something of the attachment behind a root. -/
def Works (s : Session) (how : SegmentUse) (id : RootId) (command : Command) : Prop :=
  ∃ name r a, command = .use name (.segment how) ∧
    s.handles.find? name = some (.region r) ∧ r.attachment? s.store = some a ∧ r.root = id

/-- Whether a command takes from a root what it stands on. -/
def Parts (s : Session) (id : RootId) (command : Command) : Prop :=
  s.Releases id command ∨ s.Works .detach id command ∨ s.Works .destroy id command

/-- What a command comes to, as far as roots are concerned. -/
inductive RootEffect (s : Session) (command : Command) : Prop where
  | spares (spared : ∀ id, ¬ s.Parts id command) (adds : s.store.Adds (s.perform command).2.store)
  | releases {id : RootId} (releases : s.Releases id command)
      (store : (s.perform command).2.store = Operation.after (Store.releaseRoot id) s.store)
  | detaches {id : RootId} (detaches : s.Works .detach id command)
      (store : (s.perform command).2.store =
        Operation.after (Store.onAttachment id (Attachment.detach Store.segmentCalls)) s.store)
  | destroys {id : RootId} (destroys : s.Works .destroy id command)
      (store : (s.perform command).2.store =
        Operation.after (Store.onAttachment id (Attachment.destroy Store.segmentCalls)) s.store)

/-- Only a use can take anything from a root. -/
theorem Parts.use (parts : s.Parts id command) :
    ∃ name how r, command = .use name how ∧ how.Ends ∧
      s.handles.find? name = some (.region r) ∧ r.root = id := by
  obtain ⟨name, r, rfl, found, -, leads⟩ | ⟨name, r, a, rfl, found, -, leads⟩ |
    ⟨name, r, a, rfl, found, -, leads⟩ := parts <;>
  exact ⟨name, _, r, rfl, trivial, found, leads⟩

/-- Of all roots, a command takes something from one at most. -/
theorem Parts.unique {other : RootId} (parts : s.Parts id command)
    (parts' : s.Parts other command) : other = id := by
  obtain ⟨_, _, r, rfl, -, found, rfl⟩ := parts.use
  obtain ⟨_, _, r', is, -, found', rfl⟩ := parts'.use
  cases is
  rw [found] at found'
  cases found'
  rfl

theorem Parts.fits {how : Use} (parts : s.Parts id (.use name how)) :
    how.Ends ∧ ∃ h, s.handles.find? name = some h ∧ how.Fits s.store h := by
  obtain ⟨_, r, is, found, -⟩ | ⟨_, r, a, is, found, attached, -⟩ |
    ⟨_, r, a, is, found, attached, -⟩ := parts <;> cases is
  · exact ⟨trivial, .region r, found, trivial⟩
  · exact ⟨trivial, .region r, found, Option.isSome_of_eq_some attached⟩
  · exact ⟨trivial, .region r, found, Option.isSome_of_eq_some attached⟩

private theorem region_rootEffect {r : Region} {how : RegionUse}
    (found : s.handles.find? name = some (.region r)) : s.RootEffect (.use name (.region how)) := by
  cases how with
  | release =>
      cases view : r.isView with
      | false =>
          refine .releases ⟨name, r, rfl, found, view, rfl⟩ ?_
          simp only [perform, use, found, RegionUse.run, Operation.settle_snd, Region.release,
            view, Bool.false_eq_true, if_false]
      | true =>
          refine .spares ?_ (.of_roots ?_)
          · rintro id (⟨_, r', is, found', own, -⟩ | ⟨_, _, _, is, -⟩ | ⟨_, _, _, is, -⟩) <;>
              cases is
            rw [found] at found'
            cases found'
            rw [view] at own
            cases own
          · simp only [perform, use, found, RegionUse.run, Operation.settle_snd, Region.release,
              view, if_true]
            rfl
  | _ =>
      refine .spares (fun id parts => ?_) (.of_roots (use_resembles id).roots.symm)
      obtain ⟨_, _, _, is, ends, -⟩ := parts.use
      cases is
      exact ends

private theorem segment_rootEffect {r : Region} {a : Attachment} {how : SegmentUse}
    (orderly : (Command.use name (.segment how)).Orderly)
    (found : s.handles.find? name = some (.region r))
    (attached : r.attachment? s.store = some a) : s.RootEffect (.use name (.segment how)) := by
  cases how with
  | detach =>
      refine .detaches ⟨name, r, a, rfl, found, attached, rfl⟩ ?_
      simp only [perform, use, found, attached, SegmentUse.run, Operation.settle_snd,
        Region.detach]
  | destroy =>
      refine .destroys ⟨name, r, a, rfl, found, attached, rfl⟩ ?_
      simp only [perform, use, found, attached, SegmentUse.run, Operation.settle_snd,
        Region.destroy]
  | unmap => exact orderly.elim
  | same other =>
      refine .spares ?_ (.of_roots ?_)
      · rintro id (⟨_, _, is, -⟩ | ⟨_, _, _, is, -⟩ | ⟨_, _, _, is, -⟩) <;> cases is
      · simp only [perform, use, found, attached, SegmentUse.run]
        split <;> rfl

private theorem use_rootEffect {how : Use} (orderly : (Command.use name how).Orderly) :
    s.RootEffect (.use name how) := by
  rcases Classical.em how.Ends with ends | spares
  · have used := s.use_used name how
    generalize same : s.use name how = result at used
    cases used with
    | unfit misfit =>
        refine .spares (fun id parts => ?_) (.of_roots ?_)
        · obtain ⟨-, h, found, fits⟩ := parts.fits
          exact misfit h found fits
        · show (s.use name how).2.store.roots = s.store.roots
          rw [same]
    | region how found => exact region_rootEffect found
    | segment how found attached => exact segment_rootEffect orderly found attached
    | _ => exact ends.elim
  · exact .spares (fun id parts => spares parts.fits.1)
      (.of_roots (use_resembles spares).roots.symm)

/-- What is done to roots is done by uses, and the other commands only add some. -/
theorem perform_rootEffect (orderly : command.Orderly) : s.RootEffect command := by
  have spares (adds : s.store.Adds (s.perform command).2.store)
      (other : ∀ name how, command ≠ .use name how) : s.RootEffect command := by
    refine .spares (fun id parts => ?_) adds
    obtain ⟨name, how, _, is, -⟩ := parts.use
    exact other name how is
  cases command with
  | make name what => exact spares (s.make_adds name what) fun _ _ is => by cases is
  | derive source name how =>
      have same := congrArg Store.roots (s.derive_store source name how)
      exact spares (.of_roots same) fun _ _ is => by cases is
  | use target how => exact use_rootEffect orderly
  | copy source target =>
      have alike := s.copy_resembles source target
      exact spares (.of_roots alike.roots.symm) fun _ _ is => by cases is
  | ask query =>
      refine spares (.of_roots ?_) fun _ _ is => by cases is
      show (s.ask query).2.store.roots = _
      rw [ask_store]
      cases query with
      | removeSegment name =>
          simp only
          unfold Operation.after
          obtain ⟨e, fails⟩ | ⟨g, -, removes⟩ := removeSegment_cases (s.key name).1 s.store
          · rw [fails]
          · rw [removes]
            exact s.store.removeSegment_roots g
      | _ => rfl
  | unusable target kind => exact spares (.of_roots rfl) fun _ _ is => by cases is

end Session

end BoundedMemory
