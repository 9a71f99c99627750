import BoundedMemory.Proofs.Confinement
import BoundedMemory.Proofs.Loans

/-!
Secrecy behind views that cannot be read. Of two runs through such a view, from states
that differ in nothing but what is in memory, each step answers the same, and the lists
that were lent out come back the same; so nothing of what memory held is told. What was
written is in the end the same in both, and all else is what it was in each.
-/

namespace BoundedMemory

open Operation (Alike)

/-- The byte that lies `i` places after the start of a root, in the block of the root. -/
def Store.byte? (s : Store) (id : RootId) (i : Nat) : Option UInt8 := do
  let root ← s.roots[id]?
  let b ← s.blocks[root.block]?
  b.bytes[root.base + i]?

/-- The bytes of its root that a touch writes over, which are none where it reads. -/
def Touch.Covers (τ : Touch) (i : Nat) : Prop :=
  τ.region.base + τ.offset ≤ i ∧ i < τ.region.base + τ.offset + τ.transfer.payload.length

instance (τ : Touch) (i : Nat) : Decidable (τ.Covers i) :=
  inferInstanceAs (Decidable (_ ∧ _))

/-- Some bytes after a write over them. -/
def Touch.over (τ : Touch) (old : Nat → Option UInt8) (i : Nat) : Option UInt8 :=
  if τ.Covers i then τ.transfer.payload[i - (τ.region.base + τ.offset)]? else old i

section Bytes

variable {s s' : Store} {id : RootId}

theorem Store.Keeps.byte? (h : s.Keeps s') : s'.byte? = s.byte? := by
  funext id i
  have contents (block : BlockId) :
      (s'.blocks[block]?).map Block.bytes = (s.blocks[block]?).map Block.bytes := by
    simpa only [List.getElem?_map] using congrArg (·[block]?) h.memory
  have same := h.roots id
  unfold Store.byte?
  cases found : s.roots[id]? with
  | none =>
      rw [found, Option.map_none, Option.map_eq_none_iff] at same
      rw [same]
      rfl
  | some root =>
      rw [found, Option.map_some] at same
      obtain ⟨root', found', place⟩ := Option.map_eq_some_iff.mp same
      simp only [Prod.mk.injEq, Root.ground, Ground.mk.injEq] at place
      obtain ⟨⟨-, base, -⟩, block⟩ := place
      have there := contents root.block
      simp only [found', Option.bind_eq_bind, Option.bind_some, base, block]
      cases stored : s.blocks[root.block]? with
      | none =>
          rw [stored, Option.map_none, Option.map_eq_none_iff] at there
          rw [there]
      | some b =>
          rw [stored, Option.map_some] at there
          obtain ⟨b', stored', bytes⟩ := Option.map_eq_some_iff.mp there
          simp only [stored', Option.bind_some, bytes]

theorem Transfer.payload_eq_nil {x : Transfer} (idle : x.direction = .read ∨ x.size = 0) :
    x.payload = [] := by
  rcases idle with reads | nothing
  · cases x <;> cases reads <;> rfl
  have wide (t : ScalarType) : t.width ≠ 0 := Nat.ne_of_gt t.width_pos
  cases x with
  | write t v order => exact absurd nothing (wide t)
  | writeSlice t vs order =>
      have none := (Nat.mul_eq_zero.mp nothing).resolve_right (wide t)
      rw [List.eq_nil_of_length_eq_zero none]
      rfl
  | writeElements t source start count order =>
      have none := (Nat.mul_eq_zero.mp nothing).resolve_right (wide t)
      rw [payload, none, cut_zero]
      rfl
  | clear byte length =>
      rw [payload, show length = 0 from nothing]
      rfl
  | writeBytes bytes => exact List.eq_nil_of_length_eq_zero nothing
  | _ => rfl

theorem Touch.over_eq {τ : Touch} (nothing : τ.transfer.payload = []) (old : Nat → Option UInt8) :
    τ.over old = old := by
  funext i
  apply if_neg
  unfold Covers
  rw [nothing, List.length_nil]
  omega

/-- A write that goes through changes just the bytes that it covers. -/
theorem Touch.byte?_of_poke {τ : Touch}
    (written : τ.region.poke? s τ.offset τ.transfer.payload = some s') :
    s'.byte? τ.region.root = τ.over (s.byte? τ.region.root) := by
  obtain ⟨root, b, reach, rfl⟩ := Region.poke?_eq_some_iff.mp written
  funext i
  have found : (s.setBytes root.block b
      (splice b.bytes (root.base + (τ.region.base + τ.offset)) τ.transfer.payload)).roots =
      s.roots := rfl
  unfold Store.byte? Touch.over Covers
  simp only [found, reach.found, Option.bind_eq_bind, Option.bind_some, reach.stored,
    Store.getElem?_setBytes_same reach.stored, getElem?_splice reach.inBlock]
  by_cases covered : τ.region.base + τ.offset ≤ i ∧
      i < τ.region.base + τ.offset + τ.transfer.payload.length
  · rw [if_pos (by omega), if_pos covered]
    congr 1
    omega
  · rw [if_neg (by omega), if_neg covered]

end Bytes

/-- A step of somebody who has a session and lists of their own. -/
inductive Errand where
  | step (command : Command)
  | lend (target : String) (loan : Loan)

def Errand.Within (mine : String → Prop) : Errand → Prop
  | .step command => command.Within mine
  | .lend target _ => mine target

/-- What is seen of an errand: the reply, the list that was lent if there was one, and
where all handles then stand. -/
structure Outcome where
  reply : Reply
  lent : Option Loan
  handles : Names Handle

namespace Session

def errand (errand : Errand) (s : Session) : Outcome × Session :=
  match errand with
  | .step command =>
      let (reply, s) := s.step command
      ({ reply, lent := none, handles := s.handles }, s)
  | .lend target loan =>
      let ((reply, loan), s) := s.lend target loan
      ({ reply, lent := some loan, handles := s.handles }, s)

/-- Errands one after another, with what is seen of each. -/
def errands (list : List Errand) (s : Session) : List Outcome × Session :=
  match list with
  | [] => ([], s)
  | first :: rest =>
      let (outcome, s) := s.errand first
      let (outcomes, s) := errands rest s
      (outcome :: outcomes, s)

/-- How a step touches memory, if it does not fail. -/
def touched? (s : Session) : Errand → Option Touch
  | .step (.use target how) =>
      if (s.use target how).1.isFailure then none
      else (s.handles.find? target).bind fun h => h.touch? how
  | _ => none

/-- All the ways in which errands touch memory, first to last. -/
def touches : List Errand → Session → List Touch
  | [], _ => []
  | first :: rest, s => (s.touched? first).toList ++ touches rest (s.errand first).2

/-- The regions that a run through a view which cannot be read keeps to. -/
def Screened (V r : Region) : Prop :=
  r.root = V.root ∧ r.isView = true ∧ r.isReadable = false

variable {s t : Session} {mine : String → Prop} {V : Region} {command : Command}

private theorem Screened.blind {r : Region} (screened : Screened V r) {s t : Store}
    (alike : s.Resembles t) : r.Blind s t :=
  ⟨alike, .of_unreadable screened.2.2⟩

private theorem lend_missing {target : String} (loan : Loan)
    (missing : s.handles.find? target = none) :
    s.lend target loan = ((.noHandle, loan), s) := by
  unfold lend
  rw [missing]
  cases loan <;> rfl

private theorem byte?_altered {τ : Touch} {reply : Reply} {s s' : Store}
    (alters : τ.Alters reply s s') :
    s'.byte? τ.region.root =
      if reply.isFailure then s.byte? τ.region.root else τ.over (s.byte? τ.region.root) := by
  cases alters with
  | idle cause =>
      rcases cause with failed | idle
      · rw [if_pos failed]
      · rw [Touch.over_eq (Transfer.payload_eq_nil idle), ite_self]
  | change passed writes some run =>
      rw [passed]
      exact Touch.byte?_of_poke (Transfer.poke?_of_run run writes some)

/-- What a command through screened handles makes of the bytes of the root. -/
private theorem byte?_perform (leads : s.LeadsTo mine (Screened V))
    (within : command.Within mine) :
    (s.perform command).2.store.byte? V.root =
      (s.touched? (.step command)).elim (s.store.byte? V.root) fun τ =>
        τ.over (s.store.byte? V.root) := by
  cases command with
  | make name what => exact within.elim
  | ask query => exact within.elim
  | unusable target reason => rfl
  | derive source name how => exact congrArg (·.byte? V.root) (derive_store source name how s)
  | copy source target =>
      simp only [touched?, perform]
      cases found : s.handles.find? source with
      | none => simp only [copy, found, Option.elim_none]
      | some handle =>
          obtain ⟨r, seat, screened⟩ := leads.seat within.1 found
          obtain ⟨reply, handles, run, -⟩ :=
            copy_blind found seat target (screened.blind (.refl s.store))
          rw [run]
          rfl
  | use target how =>
      simp only [touched?, perform]
      cases found : s.handles.find? target with
      | none =>
          rw [use_missing how found]
          rfl
      | some handle =>
          obtain ⟨r, seat, screened⟩ := leads.seat within found
          have alters := @use_alters s target handle how found (by
            rintro r' rfl ends
            cases seat
            exact screened.2.1)
          simp only [Option.bind_some]
          cases touches : handle.touch? how with
          | none =>
              simp only [touches] at alters
              rw [alters, ite_self, Option.elim_none]
          | some τ =>
              rw [touches] at alters
              have region := Handle.seat_of_touch? touches
              rw [seat, Seat.region.injEq] at region
              rw [← screened.1, region, byte?_altered alters]
              cases (s.use target how).1.isFailure <;> rfl

/-- A command through screened handles cannot tell what memory holds. -/
private theorem perform_alike (leads : s.LeadsTo mine (Screened V))
    (within : command.Within mine) (alike : s.Resembles t) :
    Alike Resembles (s.perform command) (t.perform command) := by
  cases command with
  | make name what => exact within.elim
  | ask query => exact within.elim
  | derive source name how => exact derive_alike source name how alike
  | unusable target reason =>
      obtain ⟨store, alike, rfl⟩ := alike
      exact ⟨rfl, store, alike, rfl⟩
  | copy source target =>
      obtain ⟨store, alike, rfl⟩ := alike
      unfold perform
      cases found : s.handles.find? source with
      | none =>
          simp only [copy, found]
          exact ⟨rfl, store, alike, rfl⟩
      | some handle =>
          obtain ⟨r, seat, screened⟩ := leads.seat within.1 found
          obtain ⟨reply, handles, run₁, run₂⟩ :=
            copy_blind found seat target (screened.blind alike)
          simp only [run₁, run₂]
          exact ⟨rfl, store, alike, rfl⟩
  | use target how =>
      obtain ⟨store, alike, rfl⟩ := alike
      unfold perform
      cases found : s.handles.find? target with
      | none =>
          simp only [use_missing how found, use_missing (s := { s with store }) how found]
          exact ⟨rfl, store, alike, rfl⟩
      | some handle =>
          obtain ⟨r, seat, screened⟩ := leads.seat within found
          exact use_alike found seat (screened.blind alike)

/-- What two runs through a view that cannot be read have in common all along. -/
private structure Veiled (mine : String → Prop) (V : Region) (s t : Session) : Prop where
  apart : s.store.Apart
  leads : s.LeadsTo mine (Screened V)
  alike : s.Resembles t

variable {first : Errand}

private theorem Veiled.symm (h : Veiled mine V s t) : Veiled mine V t s := by
  obtain ⟨apart, leads, store, alike, rfl⟩ := h
  exact ⟨alike.apart apart, leads, s.store, alike.symm, rfl⟩

private theorem Veiled.errand (h : Veiled mine V s t) (within : first.Within mine) :
    (s.errand first).1 = (t.errand first).1 ∧
      Veiled mine V (s.errand first).2 (t.errand first).2 := by
  cases first with
  | step command =>
      obtain ⟨same, alike⟩ := perform_alike h.leads within h.alike
      have inherited (n : Narrowing) (r : Region) (here : Screened V r) :
          Screened V (n.narrowed r) :=
        ⟨here.1, n.isView_narrowed r, n.isReadable_narrowed here.2.2⟩
      have leads := (h.leads.perform inherited h.apart within).1
      have swept := sweep_alike alike
      have seats : (s.perform command).2.sweep.seats = (s.perform command).2.seats := by
        funext name
        simp only [Session.seats, sweep_handles]
      have handles : (s.perform command).2.sweep.handles = (t.perform command).2.sweep.handles := by
        obtain ⟨store, -, after⟩ := swept
        rw [after]
      refine ⟨?_, (step_performs command h.apart).1, leads.of_seats seats, swept⟩
      show Outcome.mk (s.perform command).1 none (s.perform command).2.sweep.handles =
        Outcome.mk (t.perform command).1 none (t.perform command).2.sweep.handles
      rw [same, handles]
  | lend target loan =>
      obtain ⟨apart, leads, store, alike, rfl⟩ := h
      simp only [Session.errand]
      cases found : s.handles.find? target with
      | none =>
          rw [lend_missing loan found, lend_missing (s := { s with store }) loan found]
          exact ⟨rfl, apart, leads, store, alike, rfl⟩
      | some handle =>
          obtain ⟨r, seat, screened⟩ := leads.seat within found
          obtain ⟨reply, handles, run₁, run₂, seats⟩ :=
            lend_blind loan found seat (screened.blind alike)
          rw [run₁, run₂]
          exact ⟨rfl, apart, leads.of_seats seats, store, alike, rfl⟩

private theorem Veiled.byte?_errand (h : Veiled mine V s t) (within : first.Within mine) :
    (s.errand first).2.store.byte? V.root =
      (s.touched? first).elim (s.store.byte? V.root) fun τ => τ.over (s.store.byte? V.root) := by
  cases first with
  | step command =>
      have swept := (s.perform command).2.sweep_leaves.store.byte?
      exact (congrFun swept V.root).trans (byte?_perform h.leads within)
  | lend target loan =>
      simp only [Session.errand, touched?, Option.elim_none]
      cases found : s.handles.find? target with
      | none => rw [lend_missing loan found]
      | some handle =>
          obtain ⟨r, seat, screened⟩ := h.leads.seat within found
          obtain ⟨reply, handles, run, -, -⟩ :=
            lend_blind loan found seat (screened.blind (.refl s.store))
          rw [run]

/-- Both runs touch memory in the same way. -/
private theorem Veiled.touched?_eq (h : Veiled mine V s t) (within : first.Within mine) :
    t.touched? first = s.touched? first := by
  cases first with
  | lend target loan => rfl
  | step command =>
      cases command with
      | use target how =>
          have within : (Command.use target how).Within mine := within
          have same : (s.use target how).1 = (t.use target how).1 :=
            (perform_alike h.leads within h.alike).1
          obtain ⟨store, -, rfl⟩ := h.alike
          simp only [touched?, same]
      | _ => rfl

/-- What an errand leaves of one byte, by whether it writes over it. -/
private theorem Veiled.byte?_cases (h : Veiled mine V s t) (within : first.Within mine) (i : Nat) :
    (∃ τ, s.touched? first = some τ ∧ τ.Covers i ∧
        (s.errand first).2.store.byte? V.root i = (t.errand first).2.store.byte? V.root i) ∨
      (∀ τ, s.touched? first = some τ → ¬ τ.Covers i) ∧
        (s.errand first).2.store.byte? V.root i = s.store.byte? V.root i ∧
        (t.errand first).2.store.byte? V.root i = t.store.byte? V.root i := by
  rw [h.byte?_errand within, h.symm.byte?_errand within, h.touched?_eq within]
  cases s.touched? first with
  | none => exact .inr ⟨(fun τ none => by cases none), rfl, rfl⟩
  | some τ =>
      simp only [Option.elim_some, Touch.over]
      by_cases covered : τ.Covers i
      · left
        rw [if_pos covered, if_pos covered]
        exact ⟨τ, rfl, covered, rfl⟩
      · right
        rw [if_neg covered, if_neg covered]
        refine ⟨?_, rfl, rfl⟩
        rintro _ ⟨⟩
        exact covered

private theorem Veiled.errands {list : List Errand} (h : Veiled mine V s t)
    (within : ∀ e ∈ list, e.Within mine) :
    (Session.errands list s).1 = (Session.errands list t).1 ∧ ∀ i,
      ((∃ τ ∈ s.touches list, τ.Covers i) ∧
        (Session.errands list s).2.store.byte? V.root i =
          (Session.errands list t).2.store.byte? V.root i) ∨
      (∀ τ ∈ s.touches list, ¬ τ.Covers i) ∧
        (Session.errands list s).2.store.byte? V.root i = s.store.byte? V.root i ∧
          (Session.errands list t).2.store.byte? V.root i = t.store.byte? V.root i := by
  induction list generalizing s t with
  | nil =>
      refine ⟨rfl, fun i => .inr ⟨?_, rfl, rfl⟩⟩
      intro τ member
      cases member
  | cons first rest ih =>
      have here := within first List.mem_cons_self
      obtain ⟨same, next⟩ := h.errand here
      obtain ⟨outcomes, bytes⟩ := ih next fun e later => within e (List.mem_cons_of_mem _ later)
      refine ⟨congrArg₂ List.cons same outcomes, fun i => ?_⟩
      simp only [touches, List.mem_append, Option.mem_toList]
      rcases bytes i with ⟨⟨τ, later, covers⟩, equal⟩ | ⟨uncovered, still, still'⟩
      · exact .inl ⟨⟨τ, .inr later, covers⟩, equal⟩
      · rcases h.byte?_cases here i with ⟨τ, now, covers, equal⟩ | ⟨unmet, kept, kept'⟩
        · exact .inl ⟨⟨τ, .inl now, covers⟩, still.trans (equal.trans still'.symm)⟩
        · refine .inr ⟨?_, still.trans kept, still'.trans kept'⟩
          rintro τ (now | later)
          · exact unmet τ now
          · exact uncovered τ later

/-- Read confinement. In any session that a run leads to, let `V` be a view that cannot be
read, and let `t` differ from its store in nothing but what is in memory. However many
errands go through what is obtained from `V`, with whatever arguments, both sessions show
the same of each: the reply, the list that was lent out, and where all handles stand. Of
the root under `V` both hold the same in the end wherever an errand wrote, and everywhere
else each holds what it held. -/
theorem errands_tell_nothing {machine : Machine} {files : FileTree} {before : List Command}
    {list : List Errand} {v : String} {t : Store}
    (reached : (Session.run before (.initial machine files)).2 = s)
    (alike : s.store.Resembles t) (found : s.handles.find? v = some (.region V))
    (only : ∀ name, mine name → name = v ∨ s.handles.find? name = none)
    (view : V.isView = true) (unreadable : V.isReadable = false)
    (within : ∀ e ∈ list, e.Within mine) :
    (errands list s).1 = (errands list { s with store := t }).1 ∧ ∀ i,
      ((∃ τ ∈ s.touches list, τ.Covers i) →
        (errands list s).2.store.byte? V.root i =
          (errands list { s with store := t }).2.store.byte? V.root i) ∧
      ((∀ τ ∈ s.touches list, ¬ τ.Covers i) →
        (errands list s).2.store.byte? V.root i = s.store.byte? V.root i ∧
          (errands list { s with store := t }).2.store.byte? V.root i = t.byte? V.root i) := by
  have leads : s.LeadsTo mine (Screened V) := by
    intro name seat own leads
    rcases only name own with rfl | unbound
    · simp only [seats, found, Option.map_some, Option.some.injEq] at leads
      exact ⟨V, leads.symm, rfl, view, unreadable⟩
    · simp [seats, unbound] at leads
  have start : Veiled mine V s { s with store := t } :=
    ⟨reached ▸ (run_tidy machine files before).apart, leads, t, alike, rfl⟩
  obtain ⟨same, bytes⟩ := start.errands within
  refine ⟨same, fun i => ?_⟩
  rcases bytes i with ⟨⟨τ, member, covers⟩, equal⟩ | ⟨uncovered, kept, kept'⟩
  · exact ⟨fun _ => equal, fun none => absurd covers (none τ member)⟩
  · refine ⟨?_, fun _ => ⟨kept, kept'⟩⟩
    rintro ⟨τ, member, covers⟩
    exact absurd covers (uncovered τ member)

/-- An array, and a view `v` of its inner bytes for writing only. -/
private def writeOnly : List Command :=
  [.make "a" (.ofBytes (Bytes.sequential 8)), .derive "a" "part" (.slice 2 4),
    .derive "part" "v" (.restrict ⟨false, true⟩)]

private def hidden : Session := (Session.run writeOnly (.initial Host.machine .bare)).2

/-- The same array with other contents. -/
private def otherwise : Store :=
  { hidden.store with blocks := [{ bytes := List.replicate 8 9 }] }

/-- Attempts to find out what is in the array, with a write among them. -/
private def probes : List Errand :=
  [.step (.derive "v" "w" (.restrict .both)), .step (.use "w" (.region (.read .u8 0 .native))),
    .lend "w" (.fill .u8 [Scalar.ofByte 1] 0 .native), .step (.use "w" (.region .toBytes)),
    .step (.use "w" (.region (.clear 7 1 2))), .step (.derive "w" "in" (.reader none)),
    .lend "in" (.readInto [1, 2, 3]), .step (.use "v" (.region .release))]

theorem errands_tell_nothing_probes :
    (errands probes hidden).1 = (errands probes { hidden with store := otherwise }).1 ∧ ∀ i,
      ((∃ τ ∈ hidden.touches probes, τ.Covers i) →
        (errands probes hidden).2.store.byte? 0 i =
          (errands probes { hidden with store := otherwise }).2.store.byte? 0 i) ∧
      ((∀ τ ∈ hidden.touches probes, ¬ τ.Covers i) →
        (errands probes hidden).2.store.byte? 0 i = hidden.store.byte? 0 i ∧
          (errands probes { hidden with store := otherwise }).2.store.byte? 0 i =
            otherwise.byte? 0 i) := by
  have only (name : String) (own : name ∈ ["v", "w", "in"]) :
      name = "v" ∨ hidden.handles.find? name = none := by
    simp only [List.mem_cons, List.not_mem_nil, or_false] at own
    rcases own with rfl | rfl | rfl
    · exact .inl rfl
    all_goals exact .inr (by decide +kernel)
  have within (e : Errand) (member : e ∈ probes) : e.Within (· ∈ ["v", "w", "in"]) := by
    simp only [probes, List.mem_cons, List.not_mem_nil, or_false] at member
    rcases member with rfl | rfl | rfl | rfl | rfl | rfl | rfl | rfl <;>
      simp [Errand.Within, Command.Within]
  have alike : hidden.store.Resembles otherwise :=
    ⟨rfl, by decide +kernel, rfl, rfl, rfl, rfl⟩
  let V : Region :=
    { root := 0, base := 2, length := 4, permit := ⟨false, true⟩, kind := .slice }
  exact @errands_tell_nothing _ _ V _ _ writeOnly _ "v" _ rfl alike (by decide +kernel) only rfl rfl
    within

end Session

end BoundedMemory
