import BoundedMemory.Proofs.RegionUses
import BoundedMemory.Proofs.Narrowing
import BoundedMemory.Proofs.RootContents

/-!
What stands behind a root cannot be told from the answers. A family is a root
with all the handles that were derived from it in the course of a run. Two
families whose roots hold the same bytes give the same answers to the same
calls, one by one, and still hold the same bytes after each of them; both end
with the same call. In between, anything may happen to the stores that leaves
the two roots alone.
-/

namespace BoundedMemory

/-- What a report tells whatever stands behind the region. -/
def RegionReport.common (report : RegionReport) : RegionReport :=
  { report with
    variant := .view
    view := report.view.map fun view => { view with parent := .view }
    root := none }

def Reply.common : Reply → Reply
  | .report value => .report value.common
  | reply => reply

/-- The same range, mask and kind of another root. -/
def Region.over (r : Region) (id : RootId) : Region := { r with root := id }

/-- A root's store, and the handles onto the root so far. -/
structure Family where
  store : Store
  handles : List Region

namespace Family

/-- A step of a run, on one of the handles. -/
inductive Call where
  | use (handle : Nat) (how : RegionUse)
  | narrow (handle : Nat) (n : Narrowing)

/-- The answer to a call. A view that was derived is one more handle. -/
def step (call : Call) (f : Family) : Reply × Family :=
  match call with
  | .use handle how =>
      match f.handles[handle]? with
      | none => (.noHandle, f)
      | some r =>
          let (reply, store) := how.run r (fun _ => "") f.store
          (reply.common, { f with store })
  | .narrow handle n =>
      match f.handles[handle]? with
      | none => (.noHandle, f)
      | some r =>
          match n.apply r f.store with
          | .ok view store => (.bound, { store, handles := f.handles ++ [view] })
          | .error (.fault cause) store => (.fault cause, { f with store })
          | .error .trap store => (.trap, { f with store })

/-- What happens to a store without touching a root or its memory. -/
structure Spares (id : RootId) (s s' : Store) : Prop where
  root : s'.roots[id]? = s.roots[id]?
  memory (bytes : Bytes) : s.Serves id bytes → s'.Serves id bytes

/-- Calls one after another with the answer to each, and with anything in between
that spares the root. -/
inductive Runs (id : RootId) : Family → List Call → List Reply → Family → Prop where
  | done {f : Family} : Runs id f [] [] f
  | call {f last : Family} {call : Call} {calls : List Call} {replies : List Reply}
      (rest : Runs id (f.step call).2 calls replies last) :
      Runs id f (call :: calls) ((f.step call).1 :: replies) last
  | meanwhile {f last : Family} {s : Store} {calls : List Call} {replies : List Reply}
      (spared : Spares id f.store s) (rest : Runs id { f with store := s } calls replies last) :
      Runs id f calls replies last

/-- The store still has the root as one of `length` bytes, and with `contents`
unless they are gone. -/
def Holds (s : Store) (id : RootId) (length : Nat) (contents : Option Bytes) : Prop :=
  match contents with
  | some bytes => s.Serves id bytes ∧ bytes.length = length
  | none => s.Ended id length

/-- What two families have in common: the ranges of their handles, all of them
inside of the root, and the contents of the root. -/
structure Alike (length : Nat) (views : List Region) (contents : Option Bytes) (id : RootId)
    (f : Family) : Prop where
  handles : f.handles = views.map (·.over id)
  inside (r : Region) (member : r ∈ views) : r.base + r.length ≤ length
  holds : Holds f.store id length contents

variable {s s' s₁ s₂ : Store} {i i₁ i₂ : RootId} {length : Nat} {contents : Option Bytes}
  {r : Region}

theorem Holds.found (h : Holds s i length contents) :
    ∃ root, s.roots[i]? = some root ∧ root.length = length := by
  cases contents with
  | none =>
      obtain ⟨root, found, -, same⟩ := h
      exact ⟨root, found, same⟩
  | some bytes =>
      obtain ⟨serves, rfl⟩ := h
      obtain ⟨root, b, found, -⟩ := Store.Serves.contents_eq_some_iff.mp serves.contents
      exact ⟨root, found, serves.length found⟩

theorem Holds.isValid (h : Holds s i length contents) : s.isValid i = contents.isSome := by
  cases contents with
  | none => exact Store.Ended.isValid h
  | some bytes => exact h.1.isValid

theorem Holds.spared (h : Holds s i length contents) (spared : Spares i s s') :
    Holds s' i length contents := by
  cases contents with
  | none =>
      obtain ⟨root, found, invalid, same⟩ := h
      exact ⟨root, spared.root.trans found, invalid, same⟩
  | some bytes => exact ⟨spared.memory bytes h.1, h.2⟩

theorem Holds.release (h : Holds s i length contents) :
    ∃ after, Store.releaseRoot i s = .ok () after ∧ Holds after i length none := by
  cases contents with
  | none => exact Store.Ended.release h
  | some bytes =>
      obtain ⟨serves, rfl⟩ := h
      exact serves.release

private theorem refusal?_over {x : Transfer} {offset : Nat} (same : s₁.isValid i₁ = s₂.isValid i₂) :
    x.refusal? (r.over i₁) s₁ offset = x.refusal? (r.over i₂) s₂ offset := by
  simp only [Transfer.refusal?, Region.refusal?, Region.isValid, Region.over, same]
  rfl

/-- A transfer that is not refused does to a root what it does to its bytes alone. -/
private theorem Holds.outcome? {bytes : Bytes} (h : Holds s i length (some bytes)) {x : Transfer}
    {offset : Nat} (inside : r.base + offset + x.size ≤ length) (list : x.listFault? = none) :
    ∃ after, Holds after i length (some (if x.size = 0 ∨ x.direction = .read then bytes
        else splice bytes (r.base + offset) x.payload)) ∧
      x.outcome? (r.over i) s offset =
        some (x.answer (if x.size = 0 ∨ x.direction = .write then []
          else cut bytes (r.base + offset) x.size), after) := by
  obtain ⟨serves, rfl⟩ := h
  by_cases empty : x.size = 0
  · refine ⟨s, ?_, ?_⟩
    · simp only [empty, true_or, if_true]
      exact ⟨serves, rfl⟩
    · simp only [Transfer.outcome?, empty, true_or, if_true]
  · cases direction : x.direction with
    | read =>
        refine ⟨s, ?_, ?_⟩
        · simp only [or_true, if_true]
          exact ⟨serves, rfl⟩
        · have found := serves.peek? (r := r.over i) rfl inside
          simp only [Transfer.outcome?, empty, direction, found, false_or, reduceCtorEq, if_false,
            Option.map_some]
          rfl
    | write =>
        have size := Transfer.length_payload direction list
        have there : (r.over i).base + offset + x.payload.length ≤ bytes.length := by
          rw [size]
          exact inside
        obtain ⟨after, written, serves'⟩ := serves.poke? (r := r.over i) rfl there
        refine ⟨after, ?_, ?_⟩
        · simp only [empty, false_or, reduceCtorEq, if_false]
          exact ⟨serves', length_splice there⟩
        · simp only [Transfer.outcome?, empty, direction, written, or_true, if_true, if_false,
            Option.map_some]

/-- A transfer has one answer and one effect on the bytes, whatever it goes through. -/
private theorem transfer_alike (h₁ : Holds s₁ i₁ length contents)
    (h₂ : Holds s₂ i₂ length contents) (inside : r.base + r.length ≤ length) (x : Transfer)
    (offset : Nat) (failure : Fault → Reply) (plain : ∀ cause, failure cause ≠ .trap) :
    ∃ reply contents' s₁' s₂', reply ≠ .trap ∧
      (x.run (r.over i₁) offset).settle failure id s₁ = (reply, s₁') ∧
      (x.run (r.over i₂) offset).settle failure id s₂ = (reply, s₂') ∧
      Holds s₁' i₁ length contents' ∧ Holds s₂' i₂ length contents' := by
  have valid : s₁.isValid i₁ = s₂.isValid i₂ := by
    rw [h₁.isValid, h₂.isValid]
  have same : x.refusal? (r.over i₁) s₁ offset = x.refusal? (r.over i₂) s₂ offset :=
    refusal?_over valid
  unfold Operation.settle
  rw [Transfer.run_eq, Transfer.run_eq, same]
  cases refused : x.refusal? (r.over i₂) s₂ offset with
  | some fault => exact ⟨failure fault, contents, s₁, s₂, plain fault, rfl, rfl, h₁, h₂⟩
  | none =>
      obtain ⟨-, free, list⟩ := Transfer.refusal?_eq_none_iff.mp refused
      obtain ⟨standing, -, -, fits⟩ := Region.refusal?_eq_none_iff.mp free
      have standing : s₂.isValid i₂ = true := standing
      have fits : offset + x.size ≤ r.length := fits
      rw [h₂.isValid, Option.isSome_iff_exists] at standing
      obtain ⟨bytes, rfl⟩ := standing
      have within : r.base + offset + x.size ≤ length := by omega
      obtain ⟨s₁', holds₁, outcome₁⟩ := h₁.outcome? within list
      obtain ⟨s₂', holds₂, outcome₂⟩ := h₂.outcome? within list
      rw [outcome₁, outcome₂]
      refine ⟨_, _, s₁', s₂', ?_, rfl, rfl, holds₁, holds₂⟩
      cases x <;> exact Reply.noConfusion

private theorem report_alike (h₁ : Holds s₁ i₁ length contents)
    (h₂ : Holds s₂ i₂ length contents) (keyName : SegmentKey → String) :
    ((r.over i₁).report s₁ keyName).common = ((r.over i₂).report s₂ keyName).common := by
  have valid : s₁.isValid i₁ = s₂.isValid i₂ := by
    rw [h₁.isValid, h₂.isValid]
  obtain ⟨root₁, found₁, length₁⟩ := h₁.found
  obtain ⟨root₂, found₂, length₂⟩ := h₂.found
  have view : ((r.over i₁).viewReport? s₁).map (fun view => { view with parent := Variant.view }) =
      ((r.over i₂).viewReport? s₂).map fun view => { view with parent := Variant.view } := by
    simp only [Region.viewReport?, Region.over, Region.isView, Region.isReadOnly, Region.isValid,
      found₁, found₂, length₁, length₂, valid, Option.bind_eq_bind, Option.bind_some]
    by_cases root : r.kind = .root
    · simp [root]
    · simp only [root, ne_eq, not_false_eq_true, decide_true, if_true]
      rfl
  simp only [Region.report, RegionReport.common, view, Region.isValid]
  simp only [Region.over, valid]
  rfl

/-- Releasing a view does nothing, and releasing the root ends it. -/
private theorem release_alike (h₁ : Holds s₁ i₁ length contents)
    (h₂ : Holds s₂ i₂ length contents) (keyName : SegmentKey → String) :
    ∃ contents' s₁' s₂', RegionUse.release.run (r.over i₁) keyName s₁ = (.done, s₁') ∧
      RegionUse.release.run (r.over i₂) keyName s₂ = (.done, s₂') ∧
      Holds s₁' i₁ length contents' ∧ Holds s₂' i₂ length contents' := by
  by_cases view : r.isView = true
  · have kept (i : RootId) (s : Store) : RegionUse.release.run (r.over i) keyName s =
        (.done, s) := by
      have view : (r.over i).isView = true := view
      simp only [RegionUse.run, Region.release, view, if_true]
      rfl
    exact ⟨contents, s₁, s₂, kept i₁ s₁, kept i₂ s₂, h₁, h₂⟩
  · obtain ⟨s₁', run₁, ended₁⟩ := h₁.release
    obtain ⟨s₂', run₂, ended₂⟩ := h₂.release
    have released {i : RootId} {s s' : Store} (run : Store.releaseRoot i s = .ok () s') :
        RegionUse.release.run (r.over i) keyName s = (.done, s') := by
      have root : (r.over i).isView = false := Bool.eq_false_iff.mpr view
      have run : Store.releaseRoot (r.over i).root s = .ok () s' := run
      simp only [RegionUse.run, Region.release, root, Bool.false_eq_true, if_false,
        Operation.settle, run]
      rfl
    exact ⟨none, s₁', s₂', released run₁, released run₂, ended₁, ended₂⟩

/-- A use of a handle has one answer and one effect on the bytes. -/
private theorem use_alike (h₁ : Holds s₁ i₁ length contents) (h₂ : Holds s₂ i₂ length contents)
    (inside : r.base + r.length ≤ length) (how : RegionUse) (keyName : SegmentKey → String) :
    ∃ contents',
      (how.run (r.over i₁) keyName s₁).1.common = (how.run (r.over i₂) keyName s₂).1.common ∧
        (how.run (r.over i₁) keyName s₁).1.common ≠ .trap ∧
        Holds (how.run (r.over i₁) keyName s₁).2 i₁ length contents' ∧
        Holds (how.run (r.over i₂) keyName s₂).2 i₂ length contents' := by
  cases transfer : r.transfer? how with
  | some place =>
      obtain ⟨x, offset⟩ := place
      have placed (i : RootId) : (r.over i).transfer? how = some (x, offset) := by
        rw [← transfer]
        cases how <;> rfl
      rw [Region.run_use (placed i₁), Region.run_use (placed i₂)]
      obtain ⟨reply, contents', s₁', s₂', sound, run₁, run₂, holds₁, holds₂⟩ :=
        transfer_alike h₁ h₂ inside x offset how.failure how.failure_ne_trap
      rw [run₁, run₂]
      refine ⟨contents', rfl, ?_, holds₁, holds₂⟩
      cases reply with
      | trap => exact absurd rfl sound
      | _ => exact Reply.noConfusion
  | none =>
      cases how with
      | release =>
          obtain ⟨contents', s₁', s₂', run₁, run₂, holds₁, holds₂⟩ :=
            release_alike h₁ h₂ keyName (r := r)
          rw [run₁, run₂]
          exact ⟨contents', rfl, Reply.noConfusion, holds₁, holds₂⟩
      | report =>
          refine ⟨contents, ?_, Reply.noConfusion, h₁, h₂⟩
          exact congrArg Reply.report (report_alike h₁ h₂ keyName)
      | clearBetween byte first last =>
          have turned (i : RootId) : (r.over i).transfer? (.clearBetween byte first last) = none :=
            transfer
          rw [RegionUse.run_turned (turned i₁), RegionUse.run_turned (turned i₂)]
          exact ⟨contents, rfl, Reply.noConfusion, h₁, h₂⟩
      | _ => cases transfer

/-- Deriving a view leads to the same place of either root. -/
private theorem narrow_alike (h₁ : Holds s₁ i₁ length contents)
    (h₂ : Holds s₂ i₂ length contents) (inside : r.base + r.length ≤ length) (n : Narrowing) :
    (∃ cause, n.apply (r.over i₁) s₁ = .error (.fault cause) s₁ ∧
        n.apply (r.over i₂) s₂ = .error (.fault cause) s₂) ∨
      (n.narrowed r).base + (n.narrowed r).length ≤ length ∧
        n.apply (r.over i₁) s₁ = .ok ((n.narrowed r).over i₁) s₁ ∧
        n.apply (r.over i₂) s₂ = .ok ((n.narrowed r).over i₂) s₂ := by
  have valid : (r.over i₁).isValid s₁ = (r.over i₂).isValid s₂ := by
    show s₁.isValid i₁ = s₂.isValid i₂
    rw [h₁.isValid, h₂.isValid]
  have same : n.refusal? (r.over i₁) s₁ = n.refusal? (r.over i₂) s₂ := by
    simp only [Narrowing.refusal?, valid]
    rfl
  rw [Narrowing.apply_run, Narrowing.apply_run, same]
  cases refused : n.refusal? (r.over i₂) s₂ with
  | some cause => exact .inl ⟨cause, rfl, rfl⟩
  | none =>
      right
      obtain ⟨-, standing, fits⟩ := Narrowing.refusal?_eq_none_iff.mp refused
      have standing : s₂.isValid i₂ = true := standing
      have fits : n.offset + n.length r.length ≤ r.length := fits
      rw [h₂.isValid, Option.isSome_iff_exists] at standing
      obtain ⟨bytes, rfl⟩ := standing
      obtain ⟨root, found, size⟩ := h₂.found
      have addresses := h₂.1.addresses root found
      have short : r.base + n.offset < Word.modulus := by omega
      have short₁ : (r.over i₁).base + n.offset < Word.modulus := short
      have short₂ : (r.over i₂).base + n.offset < Word.modulus := short
      refine ⟨?_, ?_, ?_⟩
      · show r.base + n.offset + n.length r.length ≤ length
        omega
      · rw [if_pos short₁]
        rfl
      · rw [if_pos short₂]
        rfl

variable {views : List Region} {f f₁ f₂ last : Family} {calls : List Call} {replies : List Reply}

/-- One call in lock step: the same answer, and as much in common as before. -/
theorem step_alike (h₁ : Alike length views contents i₁ f₁)
    (h₂ : Alike length views contents i₂ f₂) (call : Call) :
    (f₁.step call).1 = (f₂.step call).1 ∧ (f₁.step call).1 ≠ .trap ∧
      ∃ views' contents', Alike length views' contents' i₁ (f₁.step call).2 ∧
        Alike length views' contents' i₂ (f₂.step call).2 := by
  have handle (i : RootId) (handle : Nat) : (views.map (·.over i))[handle]? =
      (views[handle]?).map (·.over i) := List.getElem?_map
  obtain ⟨s₁, handles₁⟩ := f₁
  obtain ⟨s₂, handles₂⟩ := f₂
  obtain ⟨rfl, inside, holds₁⟩ := h₁
  obtain ⟨rfl, -, holds₂⟩ := h₂
  cases call with
  | use place how =>
      simp only [step, handle]
      cases found : views[place]? with
      | none =>
          exact ⟨rfl, Reply.noConfusion, views, contents, ⟨rfl, inside, holds₁⟩,
            ⟨rfl, inside, holds₂⟩⟩
      | some r =>
          have fits := inside r (List.mem_of_getElem? found)
          obtain ⟨contents', same, sound, holds₁', holds₂'⟩ :=
            use_alike holds₁ holds₂ fits how fun _ => ""
          exact ⟨same, sound, views, contents', ⟨rfl, inside, holds₁'⟩,
            ⟨rfl, inside, holds₂'⟩⟩
  | narrow place n =>
      simp only [step, handle]
      cases found : views[place]? with
      | none =>
          exact ⟨rfl, Reply.noConfusion, views, contents, ⟨rfl, inside, holds₁⟩,
            ⟨rfl, inside, holds₂⟩⟩
      | some r =>
          have fits := inside r (List.mem_of_getElem? found)
          rcases narrow_alike holds₁ holds₂ fits n with
            ⟨cause, run₁, run₂⟩ | ⟨fits', run₁, run₂⟩
          · rw [Option.map_some, Option.map_some]
            simp only [run₁, run₂]
            exact ⟨trivial, Reply.noConfusion, views, contents, ⟨rfl, inside, holds₁⟩,
              ⟨rfl, inside, holds₂⟩⟩
          · have inside' (r' : Region) (member : r' ∈ views ++ [n.narrowed r]) :
                r'.base + r'.length ≤ length := by
              rcases List.mem_append.mp member with before | new
              · exact inside r' before
              · rw [List.mem_singleton.mp new]
                exact fits'
            rw [Option.map_some, Option.map_some]
            simp only [run₁, run₂]
            exact ⟨trivial, Reply.noConfusion, views ++ [n.narrowed r], contents,
              ⟨by simp, inside', holds₁⟩, ⟨by simp, inside', holds₂⟩⟩

theorem Alike.spared (h : Alike length views contents i f) (spared : Spares i f.store s) :
    Alike length views contents i { f with store := s } :=
  ⟨h.handles, h.inside, h.holds.spared spared⟩

/-- A run without calls changes nothing that matters. -/
theorem Runs.nil (h : Alike length views contents i f) (run : Runs i f [] replies last) :
    replies = [] ∧ Alike length views contents i last := by
  generalize none_left : ([] : List Call) = calls at run
  induction run with
  | done => exact ⟨rfl, h⟩
  | call rest ih => cases none_left
  | meanwhile spared rest ih => exact ih (h.spared spared) none_left

/-- A run makes its first call in a state that has as much in common. -/
theorem Runs.cons {call : Call} (h : Alike length views contents i f)
    (run : Runs i f (call :: calls) replies last) :
    ∃ now later, Alike length views contents i now ∧ replies = (now.step call).1 :: later ∧
      Runs i (now.step call).2 calls later last := by
  generalize left : call :: calls = all at run
  induction run with
  | done => cases left
  | @call now last first others later rest ih =>
      cases left
      exact ⟨now, later, h, rfl, rest⟩
  | meanwhile spared rest ih => exact ih (h.spared spared) left

/-- All of the calls in lock step. -/
theorem Runs.alike {replies₁ replies₂ : List Reply} {last₁ last₂ : Family}
    (h₁ : Alike length views contents i₁ f₁) (h₂ : Alike length views contents i₂ f₂)
    (run₁ : Runs i₁ f₁ calls replies₁ last₁) (run₂ : Runs i₂ f₂ calls replies₂ last₂) :
    replies₁ = replies₂ ∧ .trap ∉ replies₁ ∧
      ∃ views' contents', Alike length views' contents' i₁ last₁ ∧
        Alike length views' contents' i₂ last₂ := by
  induction calls generalizing views contents f₁ f₂ replies₁ replies₂ with
  | nil =>
      obtain ⟨rfl, end₁⟩ := run₁.nil h₁
      obtain ⟨rfl, end₂⟩ := run₂.nil h₂
      exact ⟨rfl, List.not_mem_nil, views, contents, end₁, end₂⟩
  | cons call calls ih =>
      obtain ⟨now₁, later₁, alike₁, rfl, rest₁⟩ := run₁.cons h₁
      obtain ⟨now₂, later₂, alike₂, rfl, rest₂⟩ := run₂.cons h₂
      obtain ⟨same, sound, views', contents', next₁, next₂⟩ := step_alike alike₁ alike₂ call
      obtain ⟨others, sounds, ends⟩ := ih next₁ next₂ rest₁ rest₂
      refine ⟨by rw [same, others], ?_, ends⟩
      rw [List.mem_cons]
      rintro (now | later)
      · exact sound now.symm
      · exact sounds later

/-- Two roots with the same bytes, whatever stands behind them, answer every
sequence of calls alike, hold the same bytes after it as long as they are valid,
and are valid equally long. -/
theorem runs_alike {s₁ s₂ : Store} {id₁ id₂ : RootId} {bytes : Bytes} {calls : List Call}
    {replies₁ replies₂ : List Reply} {last₁ last₂ : Family}
    (serves₁ : s₁.Serves id₁ bytes) (serves₂ : s₂.Serves id₂ bytes)
    (run₁ : Runs id₁ ⟨s₁, [.ofRoot id₁ bytes.length]⟩ calls replies₁ last₁)
    (run₂ : Runs id₂ ⟨s₂, [.ofRoot id₂ bytes.length]⟩ calls replies₂ last₂) :
    replies₁ = replies₂ ∧ .trap ∉ replies₁ ∧
      last₁.store.isValid id₁ = last₂.store.isValid id₂ ∧
      (last₁.store.isValid id₁ = true →
        ∃ bytes', last₁.store.contents? id₁ = some bytes' ∧
          last₂.store.contents? id₂ = some bytes') := by
  have first {s : Store} {id : RootId} (serves : s.Serves id bytes) :
      Alike bytes.length [.ofRoot 0 bytes.length] (some bytes) id
        ⟨s, [.ofRoot id bytes.length]⟩ := by
    refine ⟨rfl, ?_, serves, rfl⟩
    intro r member
    rw [List.mem_singleton.mp member]
    exact Nat.le_of_eq (Nat.zero_add _)
  obtain ⟨same, sound, views, contents, end₁, end₂⟩ :=
    Runs.alike (first serves₁) (first serves₂) run₁ run₂
  refine ⟨same, sound, by rw [end₁.holds.isValid, end₂.holds.isValid], ?_⟩
  intro valid
  rw [end₁.holds.isValid, Option.isSome_iff_exists] at valid
  obtain ⟨bytes', rfl⟩ := valid
  exact ⟨bytes', end₁.holds.1.contents, end₂.holds.1.contents⟩

/-- Three bytes in the middle of an array. -/
private def within : Store where
  machine := Host.machine
  blocks := [{ bytes := [9, 1, 2, 3, 9] }]
  roots := [{ backing := .array true, block := 0, base := 1, length := 3 }]

/-- The same bytes at the start of a segment that the release removes. -/
private def attached : Store where
  machine := Host.machine
  blocks := [{ bytes := [1, 2, 3, 0] }]
  segments := [{ key := .anonymous, size := 4, mode := .ownerAccess, block := 0 }]
  mappings := [{ segment := 0 }]
  roots := [{
    backing := .segment { key := .anonymous, segment := 0, mapping := 0, destroyOnRelease := true }
    block := 0
    base := 0
    length := 3 }]

private theorem within_serves : within.Serves 0 [1, 2, 3] := by
  refine ⟨rfl, ?_, ?_⟩
  · rintro root found
    cases found
    decide
  · rintro root a found behind
    cases found
    cases behind

private theorem attached_serves : attached.Serves 0 [1, 2, 3] := by
  refine ⟨rfl, ?_, ?_⟩
  · rintro root found
    cases found
    decide
  · rintro root a found behind
    cases found
    cases behind
    rfl

private def strokes : List Call :=
  [.narrow 0 (.sliceFrom 1), .use 1 (.write .u16 0 0x0201 .bigEndian), .use 0 .toBytes,
    .use 1 .release, .use 0 .release, .use 1 .toBytes]

private def answers : List Reply :=
  [.bound, .done, .bytes [1, 2, 1], .done, .done, .fault .released]

private theorem within_runs : ∃ last, Runs 0 ⟨within, [.ofRoot 0 3]⟩ strokes answers last :=
  ⟨_, .call (.call (.call (.call (.call (.call .done)))))⟩

private theorem attached_runs : ∃ last, Runs 0 ⟨attached, [.ofRoot 0 3]⟩ strokes answers last :=
  ⟨_, .call (.call (.call (.call (.call (.call .done)))))⟩

theorem runs_alike_within_attached :
    ∃ last₁ last₂, Runs 0 ⟨within, [.ofRoot 0 3]⟩ strokes answers last₁ ∧
      Runs 0 ⟨attached, [.ofRoot 0 3]⟩ strokes answers last₂ ∧
      last₁.store.isValid 0 = last₂.store.isValid 0 := by
  obtain ⟨last₁, run₁⟩ := within_runs
  obtain ⟨last₂, run₂⟩ := attached_runs
  exact ⟨last₁, last₂, run₁, run₂,
    (runs_alike within_serves attached_serves run₁ run₂).2.2.1⟩

end Family

end BoundedMemory
