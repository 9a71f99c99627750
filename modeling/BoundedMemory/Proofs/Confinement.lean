import BoundedMemory.Proofs.Denial
import BoundedMemory.Proofs.Narrowing
import BoundedMemory.Proofs.Reachable

/-!
Confinement of views. A run that goes only through handles obtained from one view
keeps to views of the same root, each allowing no more than the first. Where the
first cannot be written, such a run changes nothing at all in the store.
-/

namespace BoundedMemory

/-- Commands through handles under certain names, which bind no other names and do not
hand out the root of a view. -/
def Command.Within (mine : String → Prop) : Command → Prop
  | .derive source name how => mine source ∧ mine name ∧ how ≠ .parent
  | .use target _ => mine target
  | .copy source target => mine source ∧ mine target
  | .unusable target _ => mine target
  | .make .. | .ask _ => False

namespace Session

/-- As far as certain names lead anywhere, they lead to regions of a kind. -/
def LeadsTo (s : Session) (mine : String → Prop) (kind : Region → Prop) : Prop :=
  ∀ name seat, mine name → s.seats name = some seat → ∃ r, seat = .region r ∧ kind r

variable {s : Session} {mine : String → Prop} {kind : Region → Prop} {command : Command}

theorem LeadsTo.of_seats {s' : Session} (h : s.LeadsTo mine kind) (same : s'.seats = s.seats) :
    s'.LeadsTo mine kind := by
  unfold LeadsTo
  rw [same]
  exact h

theorem LeadsTo.seat {name : String} {handle : Handle} (h : s.LeadsTo mine kind)
    (own : mine name) (found : s.handles.find? name = some handle) :
    ∃ r, handle.seat = .region r ∧ kind r :=
  h name handle.seat own (by simp only [seats, found, Option.map_some])

/-- Running through certain names keeps what they lead to of a kind that views inherit,
and leaves all other names alone. -/
theorem LeadsTo.perform (h : s.LeadsTo mine kind)
    (inherited : ∀ (n : Narrowing) r, kind r → kind (n.narrowed r)) (apart : s.store.Apart)
    (within : command.Within mine) :
    (s.perform command).2.LeadsTo mine kind ∧
      ∀ name, ¬ mine name → (s.perform command).2.seats name = s.seats name := by
  obtain ⟨-, coherent⟩ := perform_performs command apart
  have still (same : (s.perform command).2.seats = s.seats) :
      (s.perform command).2.LeadsTo mine kind ∧
        ∀ name, ¬ mine name → (s.perform command).2.seats name = s.seats name :=
    ⟨h.of_seats same, fun name _ => congrFun same name⟩
  cases command with
  | make name what => exact within.elim
  | ask query => exact within.elim
  | unusable target reason => exact still coherent.2
  | copy source target => exact still coherent.1
  | use target how =>
      cases how with
      | drop =>
          have own : mine target := within
          have gone := coherent.2
          constructor
          · intro name seat own leads
            rw [gone] at leads
            rcases Seats.of_set leads with ⟨-, nowhere⟩ | before
            · cases nowhere
            · exact h name seat own before
          · intro name other
            have apart : name ≠ target := fun same => other (same ▸ own)
            rw [gone]
            exact if_neg apart
      | _ => exact still coherent.2
  | derive source name how =>
      obtain ⟨fromMine, intoMine, proper⟩ := within
      have reply := coherent.2
      cases answer : (s.perform (.derive source name how)).1 with
      | bound =>
          simp only [answer] at reply
          obtain ⟨handle, r', found, derived, seats⟩ := reply
          obtain ⟨r, seat, here⟩ := h.seat fromMine found
          obtain ⟨_, same, -, origin⟩ := Handle.derived?_cases derived
          cases seat.symm.trans same
          have kindly : kind r' := by
            rcases origin with parent | rfl | ⟨n, rfl⟩
            · exact absurd parent proper
            · exact here
            · exact inherited n r here
          constructor
          · intro other seat' own leads
            rw [seats] at leads
            rcases Seats.of_set leads with ⟨-, new⟩ | before
            · cases new
              exact ⟨r', rfl, kindly⟩
            · rcases how.begun_cases source s.seats other with same | ⟨-, gone⟩
              · exact h other seat' own (same ▸ before)
              · rw [gone] at before
                cases before
          · intro other foreign
            have apart : other ≠ name := fun same => foreign (same ▸ intoMine)
            rw [seats]
            rcases how.begun_cases source s.seats other with same | ⟨rfl, -⟩
            · exact (if_neg apart).trans same
            · exact absurd fromMine foreign
      | _ =>
          simp only [answer] at reply
          exact still reply

/-- What no write goes through leaves the whole store alone. -/
theorem LeadsTo.store_perform (h : s.LeadsTo mine kind)
    (closed : ∀ r, kind r → r.isView = true ∧ r.Denies s.store .write)
    (within : command.Within mine) : (s.perform command).2.store = s.store := by
  cases command with
  | make name what => exact within.elim
  | ask query => exact within.elim
  | unusable target reason => rfl
  | use target how =>
      cases found : s.handles.find? target with
      | none =>
          show (s.use target how).2.store = s.store
          rw [use_missing how found]
      | some handle =>
          obtain ⟨r, seat, here⟩ := h.seat within found
          obtain ⟨view, denies⟩ := closed r here
          exact use_unchanged found seat (fun _ => view) denies
  | copy source target =>
      show (s.copy source target).2.store = s.store
      unfold copy
      split
      · rename_i r w first second
        obtain ⟨_, seat, here⟩ := h.seat within.2 second
        cases seat
        have same := Stream.copy_unchanged (c := ⟨s.store, r, w⟩) (closed _ here).2
        rw [← Operation.settle_snd Stream.copy .streamFault .number] at same
        exact same
      · rfl
  | derive source name how => exact derive_store source name how s

/-- A session that was swept stays so as long as the same store is held on to by what
other names lead to. -/
theorem Swept.of_kept {s' : Session} (h : s.Swept) (faithful : s.handles.Faithful)
    (faithful' : s'.handles.Faithful) (store : s'.store = s.store)
    (leads : s.LeadsTo mine kind) (others : ∀ name, ¬ mine name → s'.seats name = s.seats name)
    (kept : ∀ r, kind r → s'.reaches r.root = true) : s'.Swept where
  roots id held := by
    rw [store] at held
    obtain ⟨name, r, seat, rfl⟩ := (reaches_iff faithful).mp (h.roots id held)
    by_cases own : mine name
    · obtain ⟨_, same, here⟩ := leads name _ own seat
      cases same
      exact kept r here
    · exact (reaches_iff faithful').mpr ⟨name, r, (others name own).trans seat, rfl⟩
  buffers id alive := by
    rw [store] at alive
    rw [holds_iff faithful', store]
    rcases (holds_iff faithful).mp (h.buffers id alive) with ⟨name, seat⟩ | under
    · left
      by_cases own : mine name
      · obtain ⟨_, same, -⟩ := leads name _ own seat
        cases same
      · exact ⟨name, (others name own).trans seat⟩
    · exact .inr under

/-- The regions that a run through a view keeps to. -/
def Enclosed (V r : Region) : Prop :=
  r.root = V.root ∧ r.isView = true ∧ r.isWritable = false

/-- What a confined run keeps from step to step. -/
private structure Confined (mine : String → Prop) (V : Region) (keeper : String) (s : Session) :
    Prop where
  tidy : s.Tidy
  leads : s.LeadsTo mine (Enclosed V)
  elsewhere : ¬ mine keeper
  kept : ∃ r, s.seats keeper = some (.region r) ∧ r.root = V.root

variable {V : Region} {keeper : String}

private theorem Confined.step (h : Confined mine V keeper s) (within : command.Within mine) :
    Confined mine V keeper (s.step command).2 ∧ (s.step command).2.store = s.store := by
  have inherited (n : Narrowing) (r : Region) (here : Enclosed V r) :
      Enclosed V (n.narrowed r) :=
    ⟨here.1, n.isView_narrowed r, n.isWritable_narrowed here.2.2⟩
  have closed (r : Region) (here : Enclosed V r) :
      r.isView = true ∧ r.Denies s.store .write :=
    ⟨here.2.1, .of_unwritable here.2.2⟩
  have store := h.leads.store_perform closed within
  obtain ⟨leads, others⟩ := h.leads.perform inherited h.tidy.apart within
  obtain ⟨r, seat, rooted⟩ := h.kept
  have kept := (others keeper h.elsewhere).trans seat
  have faithful := perform_faithful command h.tidy.faithful
  have reached : (s.perform command).2.reaches V.root = true :=
    (reaches_iff faithful).mpr ⟨keeper, r, kept, rooted⟩
  have swept : (s.perform command).2.Swept :=
    h.tidy.swept.of_kept h.tidy.faithful faithful store h.leads others
      fun r here => here.1 ▸ reached
  have same : (s.step command).2 = (s.perform command).2 := swept.sweep_eq
  have tidy := h.tidy.step command
  rw [same] at tidy ⊢
  exact ⟨⟨tidy, leads, h.elsewhere, r, kept, rooted⟩, store⟩

private theorem Confined.run (h : Confined mine V keeper s) {commands : List Command}
    (within : ∀ command ∈ commands, command.Within mine) :
    Confined mine V keeper (run commands s).2 ∧ (run commands s).2.store = s.store := by
  induction commands generalizing s with
  | nil => exact ⟨h, rfl⟩
  | cons command rest ih =>
      obtain ⟨next, same⟩ := h.step (within command List.mem_cons_self)
      obtain ⟨last, still⟩ := ih next fun other later => within other (List.mem_cons_of_mem _ later)
      exact ⟨last, still.trans same⟩

/-- Write confinement. In any session that a run leads to, let `V` be a view that is not
writable, and let the root under it be held under some other name as well. However many
commands go through what is obtained from `V`, with whatever arguments, the whole store
is in the end what it was, every byte and the validity of every root included, and all
that was obtained are handles on views of the same root that are not writable either. -/
theorem run_confined {machine : Machine} {files : FileTree} {before commands : List Command}
    {v : String} {h : Handle} (reached : (Session.run before (.initial machine files)).2 = s)
    (found : s.handles.find? v = some (.region V))
    (only : ∀ name, mine name → name = v ∨ s.handles.find? name = none)
    (view : V.isView = true) (unwritable : V.isWritable = false)
    (kept : s.handles.find? keeper = some h) (leads : h.root? = some V.root)
    (elsewhere : ¬ mine keeper) (within : ∀ command ∈ commands, command.Within mine) :
    (Session.run commands s).2.store = s.store ∧
      ∀ name handle, mine name → (Session.run commands s).2.handles.find? name = some handle →
        ∃ r, handle.seat = .region r ∧ r.root = V.root ∧ r.isView = true ∧
          r.isWritable = false := by
  have seat (handle : Handle) (id : RootId) (leads : handle.root? = some id) :
      ∃ r, handle.seat = .region r ∧ r.root = id := by
    cases handle <;> cases leads <;> exact ⟨_, rfl, rfl⟩
  have first : s.LeadsTo mine (Enclosed V) := by
    intro name seat own leads
    rcases only name own with rfl | unbound
    · simp only [seats, found, Option.map_some, Option.some.injEq] at leads
      exact ⟨V, leads.symm, rfl, view, unwritable⟩
    · simp [seats, unbound] at leads
  obtain ⟨r, there, rooted⟩ := seat h V.root leads
  have start : Confined mine V keeper s := {
    tidy := reached ▸ run_tidy machine files before
    leads := first
    elsewhere
    kept := ⟨r, by simp only [seats, kept, Option.map_some, there], rooted⟩ }
  obtain ⟨last, store⟩ := start.run within
  exact ⟨store, fun name handle own there => last.leads.seat own there⟩

/-- An array that is held as `a`, and a view `v` of its inner bytes for reading only. -/
private def onlooking : List Command :=
  [.make "a" (.ofBytes (Bytes.sequential 8)), .derive "a" "part" (.slice 2 4),
    .derive "part" "v" (.restrict .readOnly), .use "part" .drop]

private def onlooker : Session := (Session.run onlooking (.initial Host.machine .bare)).2

/-- Attempts to change the array through `v`, as if a wider mask could help. -/
private def attempts : List Command :=
  [.derive "v" "w" (.restrict .both), .use "w" (.region (.clearAll 7)),
    .derive "w" "c" (.cursor .littleEndian), .use "c" (.cursor (.pad 4 7)),
    .use "c" (.cursor (.advance 1)), .use "c" (.cursor (.pad 4 7)),
    .derive "v" "out" (.writer none), .use "out" (.writer (.writeAll [7])), .derive "v" "in" (.reader none), .copy "in" "out",
    .use "v" (.region .release), .use "v" .drop]

theorem run_confined_attempts :
    (Session.run attempts onlooker).2.store = onlooker.store ∧
      ∀ name handle, name ∈ ["v", "w", "c", "in", "out"] →
        (Session.run attempts onlooker).2.handles.find? name = some handle →
        ∃ r, handle.seat = .region r ∧ r.root = 0 ∧ r.isView = true ∧ r.isWritable = false := by
  have only (name : String) (own : name ∈ ["v", "w", "c", "in", "out"]) :
      name = "v" ∨ onlooker.handles.find? name = none := by
    simp only [List.mem_cons, List.not_mem_nil, or_false] at own
    rcases own with rfl | rfl | rfl | rfl | rfl
    · exact .inl rfl
    all_goals exact .inr (by decide +kernel)
  have within (command : Command) (member : command ∈ attempts) :
      command.Within (· ∈ ["v", "w", "c", "in", "out"]) := by
    simp only [attempts, List.mem_cons, List.not_mem_nil, or_false] at member
    rcases member with rfl | rfl | rfl | rfl | rfl | rfl | rfl | rfl | rfl | rfl | rfl | rfl <;>
      simp [Command.Within]
  let V : Region := { root := 0, base := 2, length := 4, permit := .readOnly, kind := .slice }
  exact @run_confined _ _ V "a" _ _ onlooking _ "v" (.region (.ofRoot 0 8)) rfl (by decide +kernel)
    only rfl rfl (by decide +kernel) rfl (by simp) within

end Session

end BoundedMemory
