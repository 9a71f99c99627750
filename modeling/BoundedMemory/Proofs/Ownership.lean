import BoundedMemory.Proofs.Finality
import BoundedMemory.Proofs.RootRequests

/-!
Who owns memory, and when it ends. A root gives back what it has alone when it is released
or when nothing leads to it any more, whichever comes first: memory of the process heap is
freed then, and a segment is unmapped, and removed if the root is to destroy it. An array
goes with its last handle, and a buffer with its last holder, where whoever leads to a root
over the buffer holds it too, released or not. To drop a handle that is not the last
changes nothing.
-/

namespace BoundedMemory

namespace Store

variable {sweeping : Prop} {s s' : Store} {id : RootId} {root : Root} {a : Attachment}

/-- The mapping of a root that its segment was detached from is gone. -/
def Unmaps (s : Store) (id : RootId) : Prop :=
  ∀ root a, s.source? id = some (root, a) → a.attached = false →
    s.mappings[a.mapping]? = some ⟨a.segment, false⟩

theorem Unmaps.empty {machine : Machine} (id : RootId) : ({ machine } : Store).Unmaps id := by
  intro root a found
  simp [source?] at found

private theorem source?_of_modify {f : Root → Root} {other : RootId}
    (roots : s'.roots = s.roots.modify other f) {root' : Root} {b : Attachment}
    (found' : s'.source? id = some (root', b)) :
    s.source? id = some (root', b) ∨
      ∃ root, other = id ∧ s.roots[id]? = some root ∧ (f root).backing = .segment b := by
  obtain ⟨there, behind⟩ := source?_eq_some_iff.mp found'
  rw [roots, List.getElem?_modify] at there
  by_cases here : other = id
  · subst here
    simp only [if_true, Option.map_eq_map] at there
    obtain ⟨root, found, rfl⟩ := Option.map_eq_some_iff.mp there
    exact .inr ⟨root, rfl, found, behind⟩
  · simp only [here, if_false, Option.map_eq_map, Option.map_id_fun', id_eq] at there
    exact .inl (source?_eq_some_iff.mpr ⟨there, behind⟩)

/-- Mappings that are gone do not come back. -/
theorem Change.unmaps (change : Change True sweeping s s') (mapped : s.Mapped)
    (there : s.roots[id]? = some root) (unmaps : s.Unmaps id) : s'.Unmaps id := by
  -- Most changes leave the attachments of roots alone, and all mappings.
  have kept (mappings : s'.mappings = s.mappings)
      (same : ∀ root' b, s'.source? id = some (root', b) → ∃ root a, s.source? id = some (root, a) ∧
        b.mapping = a.mapping ∧ b.segment = a.segment ∧ b.attached = a.attached) :
      s'.Unmaps id := by
    intro root' b found' gone
    obtain ⟨root, a, found, mapping, segment, attached⟩ := same root' b found'
    rw [mappings, mapping, segment]
    exact unmaps root a found (attached ▸ gone)
  have still (mappings : s'.mappings = s.mappings) (roots : s'.roots = s.roots) : s'.Unmaps id :=
    kept mappings fun root' b found' =>
      ⟨root', b, source?_of_roots roots ▸ found', rfl, rfl, rfl⟩
  have old {more : List Mapping} {new : Root} (mappings : s'.mappings = s.mappings ++ more)
      (roots : s'.roots = s.roots ++ [new]) : s'.Unmaps id := by
    intro root' b found' gone
    obtain before | ⟨last, -, -⟩ := source?_concat roots found'
    · have dead := unmaps root' b before gone
      rw [mappings, List.getElem?_append_left (List.getElem?_eq_some_iff.mp dead).1]
      exact dead
    · rw [last, List.getElem?_eq_none (Nat.le_refl _)] at there
      cases there
  cases change with
  | rewrite alike => exact still alike.mappings.symm alike.roots.symm
  | @weaken other root₀ backing found weakens =>
      refine kept rfl fun root' b found' => ?_
      obtain before | ⟨root₁, rfl, found₁, behind⟩ := source?_of_modify rfl found'
      · exact ⟨root', b, before, rfl, rfl, rfl⟩
      · rw [found, Option.some.injEq] at found₁
        subst found₁
        generalize before : root₀.backing = old at weakens
        cases weakens with
        | segment =>
            cases behind
            exact ⟨root₀, _, source?_eq_some_iff.mpr ⟨found, before⟩, rfl, rfl, rfl⟩
        | _ => cases behind
  | endHeap _ _ =>
      refine kept rfl fun root' b found' => ?_
      obtain before | ⟨_, _, _, behind⟩ := source?_of_modify rfl found'
      · exact ⟨root', b, before, rfl, rfl, rfl⟩
      · cases behind
  | @detach other root₀ a segment found behind attached live =>
      intro root' b found' gone
      show (s.mappings.set a.mapping ⟨segment, false⟩)[b.mapping]? = _
      obtain before | ⟨_, rfl, _, same⟩ := source?_of_modify rfl found'
      · have dead := unmaps root' b before gone
        have unlike : a.mapping ≠ b.mapping := by
          intro same
          rw [same, dead] at live
          cases live
        rw [List.getElem?_set_ne unlike, dead]
      · cases same
        have through : s.through? other = some (a.mapping, a.segment) := by
          simp only [Store.through?, found, Option.bind_some, Root.through?, behind, attached,
            if_true]
        have mapping := mapped.live through
        rw [live, Option.some.injEq, Mapping.mk.injEq] at mapping
        rw [List.getElem?_set_self (List.getElem?_eq_some_iff.mp live).1, mapping.1]
  | unmap foreign _ => exact absurd trivial foreign
  | letGo _ _ _ =>
      refine kept rfl fun root' b found' => ?_
      obtain before | ⟨root₁, _, found₁, behind⟩ := source?_of_modify rfl found'
      · exact ⟨root', b, before, rfl, rfl, rfl⟩
      · exact ⟨root₁, b, source?_eq_some_iff.mpr ⟨found₁, behind⟩, rfl, rfl, rfl⟩
  | letGoArray _ _ _ _ =>
      refine kept rfl fun root' b found' => ?_
      obtain before | ⟨root₁, _, found₁, behind⟩ := source?_of_modify rfl found'
      · exact ⟨root', b, before, rfl, rfl, rfl⟩
      · exact ⟨root₁, b, source?_eq_some_iff.mpr ⟨found₁, behind⟩, rfl, rfl, rfl⟩
  | addRoot _ founded =>
      cases founded with
      | own _ _ _ _ => exact old (List.append_nil _).symm rfl
      | wraps _ _ _ _ _ => exact old (List.append_nil _).symm rfl
      | attached _ _ _ _ _ _ _ => exact old rfl rfl
  | _ => exact still rfl rfl

theorem Changes.unmaps (changes : Changes True sweeping s s') (mapped : s.Mapped)
    (there : s.roots[id]? = some root) (unmaps : s.Unmaps id) : s'.Unmaps id := by
  induction changes with
  | refl => exact unmaps
  | tail before change ih =>
      obtain ⟨_, still, -⟩ := Changes.later before there
      exact change.unmaps (Changes.mapped before mapped) still ih

end Store

/-- A block that was given back once if its owner has `ended`, and else never. -/
def Store.FreedOnce (s : Store) (block : BlockId) (ended : Prop) : Prop :=
  ∃ b, s.blocks[block]? = some b ∧ (ended ∧ b.frees = 1 ∨ ¬ ended ∧ b.frees = 0)

theorem Store.FreedOnce.congr {s : Store} {block : BlockId} {ended ended' : Prop}
    (freed : s.FreedOnce block ended) (same : ended' ↔ ended) : s.FreedOnce block ended' := by
  rwa [propext same]

/-- A block of memory is given back by the home that has it. -/
theorem Store.Accounted.frees {s : Store} (accounted : s.Accounted) (apart : s.Apart) {home : Home}
    {block : BlockId} (there : s.blockOf? home = some block) :
    s.FreedOnce block (s.spent home = true) := by
  have inside := apart.inside home block there
  refine ⟨s.blocks[block], List.getElem?_eq_getElem inside, ?_⟩
  have spent : s.Spent block ↔ s.spent home = true :=
    ⟨fun ⟨other, there', spent⟩ => apart.distinct home other block there there' ▸ spent,
      fun spent => ⟨home, there, spent⟩⟩
  rw [← spent]
  exact (accounted block _ (List.getElem?_eq_getElem inside)).symm.imp And.symm And.symm

namespace Session

/-- Whether any handle leads to a root. -/
def Reached (s : Session) (id : RootId) : Prop := ∃ name, s.On id name

/-- Whether anybody holds a buffer: by its own handle, or by one that leads to a root over it. -/
def Kept (s : Session) (id : BufferId) : Prop :=
  (∃ name, s.handles.find? name = some (.buffer id)) ∨
    ∃ root valid source, s.store.roots[source]? = some root ∧ root.backing = .buffer id valid ∧
      s.Reached source

variable {s : Session} {id : RootId} {name : String}

theorem reached_iff (faithful : s.handles.Faithful) : s.Reached id ↔ s.reaches id = true := by
  simp only [Reached, On, reaches, List.any_eq_true, decide_eq_true_eq, faithful.mem_values_iff]
  constructor
  · rintro ⟨name, h, found, leads⟩
    exact ⟨h, ⟨name, found⟩, leads⟩
  · rintro ⟨h, ⟨name, found⟩, leads⟩
    exact ⟨name, h, found, leads⟩

/-- What is held is what handles lead to. -/
theorem Tidy.held_iff (tidy : s.Tidy) (anchored : s.Anchored) {root : Root}
    (found : s.store.roots[id]? = some root) : root.held = true ↔ s.Reached id := by
  have held : s.store.rootHeld id = root.held := by
    rw [Store.rootHeld, found, Option.any_some]
  rw [reached_iff tidy.faithful, ← held]
  refine ⟨tidy.swept.roots id, fun reached => ?_⟩
  obtain ⟨name, r, seat, rfl⟩ := (reaches_iff tidy.faithful).mp reached
  exact anchored.roots seat

theorem kept_iff (tidy : s.Tidy) (anchored : s.Anchored) {id : BufferId} :
    s.Kept id ↔ s.store.bufferAlive id = true := by
  constructor
  · rintro (⟨name, found⟩ | ⟨root, valid, source, found, behind, reached⟩)
    · have seat : s.seats name = some (.buffer id) := by
        simp only [seats, found, Option.map_some, Handle.seat]
      exact anchored.buffers seat
    · exact anchored.attended source root id found ((tidy.held_iff anchored found).mpr reached)
        (by rw [behind]; rfl)
  · intro alive
    rcases (holds_iff tidy.faithful).mp (tidy.swept.buffers id alive) with ⟨name, seat⟩ | under
    · obtain ⟨h, found, leads⟩ := Option.map_eq_some_iff.mp seat
      cases h with
      | buffer other =>
          cases leads
          exact .inl ⟨name, found⟩
      | _ => cases leads
    · simp only [Store.buffersRoot, List.any_eq_true, Bool.and_eq_true] at under
      obtain ⟨root, stored, held, lies⟩ := under
      obtain ⟨source, found⟩ := List.getElem?_of_mem stored
      have reached := (tidy.held_iff anchored found).mp held
      cases behind : root.backing with
      | buffer other valid =>
          simp only [behind, decide_eq_true_eq] at lies
          exact .inr ⟨root, valid, source, found, lies ▸ behind, reached⟩
      | _ => simp [behind] at lies

section Unmapping

open Store (AsRequested)

variable {released parted destroyed : RootId → Prop} {command : Command} {commands : List Command}

/-- A sweep makes no roots. -/
private theorem sweep_absent (missing : s.store.roots[id]? = none) :
    s.sweep.store.roots[id]? = none := by
  refine s.sweep_induct (motive := fun t => t.store.roots[id]? = none) missing ?_ ?_
  · intro t other missing
    unfold sweepRoot
    split
    · exact missing
    · rw [Operation.settle_snd]
      obtain ⟨change, -, roots | ⟨-, same⟩, -⟩ := t.store.dropRoot_roots other
      · rw [roots, List.getElem?_modify, missing]
        rfl
      · rwa [same]
  · intro t other missing
    rwa [t.sweepBuffer_roots]

private theorem step_unmaps (ready : s.Ready) (orderly : command.Orderly)
    (requested : s.store.AsRequested released parted destroyed) (unmaps : s.store.Unmaps id) :
    (s.step command).2.store.Unmaps id := by
  have changes : Store.Changes True False s.store (s.perform command).2.store :=
    s.perform_changes command (fun _ => orderly) ready.anchored.alive
  have performed : (s.perform command).2.store.Unmaps id := by
    cases found : s.store.roots[id]? with
    | some root => exact changes.unmaps ready.sound.mapped found unmaps
    | none =>
        -- A root that is new is held, and was not parted from its segment.
        intro root a source gone
        obtain ⟨found', behind⟩ := Store.source?_eq_some_iff.mp source
        have held := changes.held not_false
          (fun _ there => by rw [found] at there; cases there) found'
        have stands := (s.perform_asRequested ready orderly requested).there found'
        rcases (stands.attached_iff behind).mp gone with (before | parts) | unheld
        · exact absurd before (requested.absent found).2
        · obtain ⟨_, there⟩ := parts.root ready
          rw [found] at there
          cases there
        · rw [held] at unheld
          cases unheld
  cases found : (s.perform command).2.store.roots[id]? with
  | some root =>
      exact (sweep_changes _).unmaps (ready.performed orderly).sound.mapped found performed
  | none =>
      intro root a source
      have there : (s.perform command).2.sweep.store.roots[id]? = some root :=
        (Store.source?_eq_some_iff.mp source).1
      rw [sweep_absent found] at there
      cases there

theorem run_unmaps (ready : s.Ready) (orderly : ∀ command ∈ commands, command.Orderly)
    (requested : s.store.AsRequested released parted destroyed) (unmaps : s.store.Unmaps id) :
    (Session.run commands s).2.store.Unmaps id := by
  induction commands generalizing s released parted destroyed with
  | nil => exact unmaps
  | cons command rest ih =>
      have first : command.Orderly := orderly command List.mem_cons_self
      exact ih (ready.step first)
        (fun other member => orderly other (List.mem_cons_of_mem command member))
        (s.step_asRequested ready first requested) (step_unmaps ready first requested unmaps)

end Unmapping

/-- The session once a name means nothing any more. -/
def without (s : Session) (name : String) : Session :=
  { s with handles := s.handles.erase name }

/-- With every root and buffer of it still held by others, a handle is dropped and that is
all. -/
theorem Tidy.drop (tidy : s.Tidy) (anchored : s.Anchored) {h : Handle}
    (found : s.handles.find? name = some h)
    (roots : ∀ id, h.root? = some id → (s.without name).Reached id)
    (buffers : ∀ id, h = .buffer id → (s.without name).Kept id) :
    s.step (.use name .drop) = (.done, s.without name) := by
  have faithful : (s.without name).handles.Faithful := tidy.faithful.erase name
  have other {b : String} (unlike : b ≠ name) :
      (s.without name).handles.find? b = s.handles.find? b :=
    Names.find?_erase_other s.handles unlike
  have reached {id : RootId} (before : s.Reached id) : (s.without name).Reached id := by
    obtain ⟨b, k, there, leads⟩ := before
    by_cases here : b = name
    · rw [here, found, Option.some.injEq] at there
      exact roots id (there ▸ leads)
    · exact ⟨b, k, (other here).trans there, leads⟩
  have kept {id : BufferId} (before : s.Kept id) : (s.without name).Kept id := by
    rcases before with ⟨b, there⟩ | ⟨root, valid, source, there, behind, leads⟩
    · by_cases here : b = name
      · rw [here, found, Option.some.injEq] at there
        exact buffers id there
      · exact .inl ⟨b, (other here).trans there⟩
    · exact .inr ⟨root, valid, source, there, behind, reached leads⟩
  have holds {id : BufferId} (after : (s.without name).Kept id) :
      (s.without name).holds id = true := by
    rw [holds_iff faithful]
    rcases after with ⟨b, there⟩ | ⟨root, valid, source, there, behind, b, k, still, leads⟩
    · exact .inl ⟨b, by simp only [seats, there, Option.map_some, Handle.seat]⟩
    · have held : root.held = true :=
        (tidy.held_iff anchored there).mpr ⟨b, k, Names.find?_of_erase still, leads⟩
      refine .inr (List.any_eq_true.mpr ⟨root, List.mem_of_getElem? there, ?_⟩)
      simp only [held, behind, decide_true, Bool.and_self]
  have swept : (s.without name).Swept := {
    roots := fun id held =>
      (reached_iff faithful).mp
        (reached ((reached_iff tidy.faithful).mpr (tidy.swept.roots id held)))
    buffers := fun id alive => holds (kept ((kept_iff tidy anchored).mpr alive)) }
  show ((s.use name .drop).1, (s.use name .drop).2.sweep) = _
  have used : s.use name .drop = (.done, s.without name) := by
    simp only [use, found, without]
  rw [used, swept.sweep_eq]

/-- Who owns what in a session that a run of `commands` led to from `start`. -/
structure Custody (start : Session) (commands : List Command) (s : Session) : Prop where
  /-- A root is released by hand, or when the last handle that leads to it goes. -/
  released {id : RootId} {root : Root} : s.store.roots[id]? = some root →
    (root.released = true ↔ Sometime (fun t => t.Releases id) commands start ∨ ¬ s.Reached id)
  /-- A heap block is given back at its release, and once. -/
  heap {id : RootId} {root : Root} {valid : Bool} : s.store.roots[id]? = some root →
    root.backing = .heap valid →
      s.store.FreedOnce root.block
        (Sometime (fun t => t.Releases id) commands start ∨ ¬ s.Reached id)
  array {id : RootId} {root : Root} {valid : Bool} : s.store.roots[id]? = some root →
    root.backing = .array valid → s.store.FreedOnce root.block (¬ s.Reached id)
  /-- A buffer is alive as long as anybody holds it. -/
  buffer {id : BufferId} {b : Buffer} : s.store.buffers[id]? = some b →
    (b.alive = true ↔ s.Kept id) ∧
      ∀ block, b.block = some block → s.store.FreedOnce block (¬ s.Kept id)
  /-- A segment is unmapped at the release of its root, if that was not parted from it before. -/
  segment {id : RootId} {root : Root} {a : Attachment} : s.store.roots[id]? = some root →
    root.backing = .segment a →
      (a.attached = false ↔ Sometime (fun t => t.Parts id) commands start ∨ ¬ s.Reached id) ∧
        s.store.mappings[a.mapping]? = some ⟨a.segment, a.attached⟩
  /-- It is removed as well if the root is to destroy it, and by no other release. -/
  removal {id : RootId} {root : Root} {a : Attachment} : s.store.roots[id]? = some root →
    root.backing = .segment a →
      (a.released = true → a.destroyOnRelease = true → s.store.keyOf? a.segment = none) ∧
        (a.removed = true → Sometime (fun t => t.Works .destroy id) commands start ∨
          a.destroyOnRelease = true ∧ a.released = true)
  /-- To drop a handle that is not the last on anything is to forget its name. -/
  drop {name : String} {h : Handle} : s.handles.find? name = some h →
    (∀ id, h.root? = some id → (s.without name).Reached id) →
      (∀ id, h = .buffer id → (s.without name).Kept id) →
        s.step (.use name .drop) = (.done, s.without name)

/-- Ownership, after any orderly run. Whatever handles were made, derived, wrapped, released
and dropped, and in whichever order, memory was given back once, by whom it belongs to, and
not before its time. -/
theorem run_custody (machine : Machine) (files : FileTree) {commands : List Command}
    (orderly : ∀ command ∈ commands, command.Orderly) :
    Custody (.initial machine files) commands
      (Session.run commands (.initial machine files)).2 := by
  have tracked := (Tracked.empty machine files).run orderly
  have tidy := run_tidy machine files commands
  have begun : (Session.initial machine files).store.AsRequested (fun _ => False) (fun _ => False)
      (fun _ => False) := ⟨nofun, fun _ => ⟨id, id⟩⟩
  have requested := run_asRequested (Ready.empty machine files) orderly begun
  have unmaps (id : RootId) : (Session.run commands (.initial machine files)).2.store.Unmaps id :=
    run_unmaps (Ready.empty machine files) orderly begun (.empty id)
  simp only [false_or] at requested
  generalize (Session.run commands (.initial machine files)).2 = s at tracked tidy requested unmaps
  obtain ⟨ready, keyed⟩ := tracked
  have let_go {id : RootId} {root : Root} (found : s.store.roots[id]? = some root) :
      root.held = false ↔ ¬ s.Reached id := by
    rw [← tidy.held_iff ready.anchored found, Bool.not_eq_true]
  have released {id : RootId} {root : Root} (found : s.store.roots[id]? = some root) :
      root.released = true ↔
        Sometime (fun t => t.Releases id) commands (.initial machine files) ∨ ¬ s.Reached id := by
    rw [(requested.there found).released_iff, let_go found]
  exact {
    released := released
    heap := fun {id root valid} found behind => by
      have own : s.store.blockOf? (.own id) = some root.block := by
        simp [Store.blockOf?, found, behind, Backing.home]
      refine (ready.sound.accounted.frees tidy.apart own).congr ?_
      rw [← released found]
      simp [Store.spent, found, Root.spent, Root.released, behind]
    array := fun {id root valid} found behind => by
      have own : s.store.blockOf? (.own id) = some root.block := by
        simp [Store.blockOf?, found, behind, Backing.home]
      refine (ready.sound.accounted.frees tidy.apart own).congr ?_
      rw [← let_go found]
      simp [Store.spent, found, Root.spent, behind]
    buffer := fun {id b} found => by
      have alive : b.alive = true ↔ s.Kept id := by
        rw [kept_iff tidy ready.anchored, Store.bufferAlive, found, Option.any_some]
      refine ⟨alive, fun block has => ?_⟩
      have there : s.store.blockOf? (.buffer id) = some block := by
        simp [Store.blockOf?, found, has]
      refine (ready.sound.accounted.frees tidy.apart there).congr ?_
      rw [← alive]
      simp [Store.spent, found, Buffer.spent]
    segment := fun {id root a} found behind => by
      refine ⟨by rw [(requested.there found).attached_iff behind, let_go found], ?_⟩
      cases attached : a.attached with
      | false => exact unmaps id root a (Store.source?_eq_some_iff.mpr ⟨found, behind⟩) attached
      | true =>
          have through : s.store.through? id = some (a.mapping, a.segment) := by
            simp only [Store.through?, found, Option.bind_some, Root.through?, behind, attached,
              if_true]
          exact ready.sound.mapped.live through
    removal := fun {id root a} found behind =>
      ⟨fun ended destroys =>
        keyed.due (Store.source?_eq_some_iff.mpr ⟨found, behind⟩) (.inr ⟨ended, destroys⟩),
        (requested.there found).removed behind⟩
    drop := tidy.drop ready.anchored }

/-- A heap block with only a cursor left on it, a buffer with only a reader left on a root
over it that was released, and a segment with only a copy of its first handle left: nothing
is given back until these go. -/
theorem run_custody_last_handles :
    let commands : List Command := [
      .make "heap" (.allocate 8 0), .derive "heap" "view" (.slice 2 4),
      .derive "view" "cursor" (.cursor .littleEndian), .use "heap" .drop, .use "view" .drop,
      .make "page" (.newBuffer 4 [1, 2]), .make "over" (.wrap "page"),
      .derive "over" "reader" (.reader none), .use "over" (.region .release), .use "page" .drop,
      .use "over" .drop, .make "shared" (.createSegment (.key "k") { size := 8 }),
      .derive "shared" "copy" .copy, .use "shared" .drop]
    let last : List Command := [.use "cursor" .drop, .use "reader" .drop, .use "copy" .drop]
    let s := (Session.run commands (.initial Host.machine .bare)).2
    (∀ command ∈ commands, command.Orderly) ∧ Custody (.initial Host.machine .bare) commands s ∧
      s.store.roots.map Root.released = [false, true, false] ∧
        s.store.blocks.map Block.frees = [0, 0, 0] ∧
          (Session.run last s).2.store.blocks.map Block.frees = [1, 1, 1] := by
  intro commands last s
  have orderly : ∀ command ∈ commands, command.Orderly := by
    simp [commands, Command.Orderly, Making.Fits]
  exact ⟨orderly, run_custody Host.machine .bare orderly, by decide +kernel, by decide +kernel,
    by decide +kernel⟩

end Session

end BoundedMemory
