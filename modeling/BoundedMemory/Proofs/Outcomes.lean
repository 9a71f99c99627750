import BoundedMemory.Proofs.Safety

/-!
The outcome of every access to a region. What can be wrong with an access is looked at in
one order for all of them: that the root was released, that the region is read-only, that
its mask forbids the direction, that the range is not inside, and for transfers into or out
of part of a list that this part is not inside. The first thing that is wrong is reported,
and an access with which nothing is wrong succeeds, one of no bytes like any other.
-/

namespace BoundedMemory

namespace Transfer

/-- What can be wrong with the part of a list that is filled or drawn from. -/
def listObjections : Transfer → List (Bool × Fault)
  | .readElements _ list start count _ | .writeElements _ list start count _ =>
      [(list.length < start + count, .outOfBounds start count list.length)]
  | _ => []

/-- What can be wrong with an access, in the order in which it is looked at, each with what
is reported then. -/
def objections (x : Transfer) (r : Region) (s : Store) (offset : Nat) : List (Bool × Fault) :=
  [(!s.isValid r.root, .invalidState "source has been released"),
    (x.direction = .write && r.isReadOnly, .readOnly x.operation),
    (!r.permit.allows x.direction, .forbidden x.direction),
    (r.length < offset + x.size, .outOfBounds offset x.size r.length)] ++ x.listObjections

/-- The fault of the first objection that holds. -/
def firstOf (objections : List (Bool × Fault)) : Option Fault :=
  (objections.find? Prod.fst).map Prod.snd

variable {x : Transfer} {r : Region} {s : Store} {offset : Nat}

@[simp] theorem firstOf_nil : firstOf [] = none := rfl

@[simp] theorem firstOf_cons (holds : Bool) (fault : Fault) (rest : List (Bool × Fault)) :
    firstOf ((holds, fault) :: rest) = if holds then some fault else firstOf rest := by
  unfold firstOf
  cases holds <;> rfl

theorem firstOf_listObjections (x : Transfer) : firstOf x.listObjections = x.listFault? := by
  cases x with
  | readElements t list start count order | writeElements t list start count order =>
      simp only [listObjections, firstOf_cons, firstOf_nil, listFault?, decide_eq_true_eq]
      by_cases fits : start + count ≤ list.length
      · rw [if_neg (by omega), if_pos fits]
      · rw [if_pos (by omega), if_neg fits]
  | _ => rfl

/-- A transfer whose length is a word is refused for its first objection. -/
theorem refusal?_eq_firstOf (short : x.lengthFault? = none) :
    x.refusal? r s offset = firstOf (x.objections r s offset) := by
  simp only [refusal?, short, Option.none_or, objections, List.cons_append, List.nil_append,
    firstOf_cons, firstOf_listObjections, Region.refusal?, Region.isValid, Extent.check_eq,
    Bool.and_eq_true, decide_eq_true_eq]
  split
  · rfl
  · split
    · rfl
    · split
      · rfl
      · by_cases fits : offset + x.size ≤ r.length
        · rw [if_pos fits, if_neg (by omega)]
          rfl
        · rw [if_neg fits, if_pos (by omega)]
          rfl

/-- Nothing that fits into a region is too long, so it is refused only for what the region
or the list objects to. -/
theorem free_iff (served : r.Served s) :
    x.refusal? r s offset = none ↔
      r.refusal? s x.direction x.operation offset x.size = none ∧ x.listFault? = none := by
  rw [refusal?_eq_none_iff]
  constructor
  · exact fun free => free.2
  · rintro ⟨allowed, list⟩
    obtain ⟨-, -, -, fits⟩ := Region.refusal?_eq_none_iff.mp allowed
    have words := served.words
    have short : x.size < Word.modulus := by omega
    exact ⟨by cases x <;> first | rfl | exact if_pos short, allowed, list⟩

/-- Where its range is inside, a read is only refused if the region is gone or not readable. -/
theorem read_free_iff (served : r.Served s) (reads : x.direction = .read)
    (plain : x.listFault? = none) (inside : offset + x.size ≤ r.length) :
    x.refusal? r s offset = none ↔ r.isValid s = true ∧ r.isReadable = true := by
  rw [free_iff served, Region.refusal?_eq_none_iff]
  simp only [reads, plain, inside, reduceCtorEq, false_implies, true_and, and_true,
    Region.isReadable]

theorem write_free_iff (served : r.Served s) (writes : x.direction = .write)
    (plain : x.listFault? = none) (inside : offset + x.size ≤ r.length) :
    x.refusal? r s offset = none ↔ r.isValid s = true ∧ r.isWritable = true := by
  rw [free_iff served, Region.refusal?_eq_none_iff]
  simp only [writes, plain, inside, forall_const, and_true, Region.isWritable, Bool.and_eq_true,
    Bool.not_eq_true']

/-- What nothing speaks against goes through. -/
theorem run_of_free (served : r.Served s) (apart : s.Apart)
    (free : x.refusal? r s offset = none) :
    ∃ bytes after, x.run r offset s = .ok (x.answer bytes) after ∧
      x.onFlat? r offset s.flat = some (bytes, after.flat) := by
  obtain ⟨reply, after, outcome⟩ := outcome?_of_served served free
  have run := run_eq_ok_iff.mpr ⟨free, outcome⟩
  obtain ⟨-, bytes, moved, rfl⟩ := run_flat apart run
  exact ⟨bytes, after, run, moved⟩

/-- A transfer of nothing moves nothing. -/
theorem run_of_nothing {bytes : Bytes} {reply : Reply} {after : Store} (nothing : x.size = 0)
    (run : x.run r offset s = .ok reply after)
    (moved : x.onFlat? r offset s.flat = some (bytes, after.flat)) : bytes = [] ∧ after = s := by
  constructor
  · simp only [onFlat?, nothing, FlatMemory.read?, if_true] at moved
    split at moved
    · simp only [Option.map_some, Option.some.injEq, Prod.mk.injEq] at moved
      exact moved.1.symm
    · simp only [Option.map_eq_some_iff, Prod.mk.injEq] at moved
      obtain ⟨_, -, none, -⟩ := moved
      exact none.symm
  · exact unchanged run (.inr nothing)

/-- Whatever is refused or goes through, it is as the objections say. -/
theorem run_of_served (served : r.Served s) (apart : s.Apart) (short : x.lengthFault? = none)
    (offset : Nat) :
    match firstOf (x.objections r s offset) with
    | some fault => x.run r offset s = .error (.fault fault) s
    | none => ∃ bytes after, x.run r offset s = .ok (x.answer bytes) after ∧
        x.onFlat? r offset s.flat = some (bytes, after.flat) ∧
          (x.size = 0 → bytes = [] ∧ after = s) := by
  rw [← refusal?_eq_firstOf short]
  cases free : x.refusal? r s offset with
  | some fault =>
      show _ = _
      rw [run_eq, free]
  | none =>
      obtain ⟨bytes, after, run, moved⟩ := run_of_free served apart free
      exact ⟨bytes, after, run, moved, fun nothing => run_of_nothing nothing run moved⟩

end Transfer

namespace Session

variable {s : Session} {name : String} {r : Region} {how : RegionUse} {x : Transfer} {offset : Nat}

/-- The whole length of a region is a word. -/
private theorem short_of_served {s : Store} (served : r.Served s)
    (moves : r.transfer? how = some (x, offset)) (short : how = .toBytes ∨ x.lengthFault? = none) :
    x.lengthFault? = none := by
  rcases short with rfl | short
  · cases moves
    have words := served.words
    simp only [Transfer.lengthFault?]
    rw [if_pos (by omega)]
  · exact short

theorem Ready.access (ready : s.Ready) (found : s.handles.find? name = some (.region r))
    (moves : r.transfer? how = some (x, offset))
    (short : how = .toBytes ∨ x.lengthFault? = none) :
    match Transfer.firstOf (x.objections r s.store offset) with
    | some fault => s.use name (.region how) = (how.failure fault, s)
    | none => ∃ bytes store, s.use name (.region how) = (x.answer bytes, { s with store }) ∧
        x.onFlat? r offset s.store.flat = some (bytes, store.flat) ∧
          (x.size = 0 → bytes = [] ∧ store = s.store) := by
  have served := ready.served found rfl
  have outcome := Transfer.run_of_served served ready.sound.apart
    (short_of_served served moves short) offset
  have use := use_transfer found moves
  cases first : Transfer.firstOf (x.objections r s.store offset) with
  | some fault =>
      simp only [first] at outcome ⊢
      rw [use, Operation.settle, outcome]
  | none =>
      simp only [first] at outcome ⊢
      obtain ⟨bytes, after, run, moved, nothing⟩ := outcome
      refine ⟨bytes, after, ?_, moved, nothing⟩
      rw [use, Operation.settle, run]
      rfl

/-- Every access through a region of any session: it reports the first of its objections
that holds and then changes nothing, and it succeeds where none holds. A success reads or
writes just the range in memory, and without bytes neither tells nor changes any. -/
theorem run_accesses (machine : Machine) (files : FileTree) {commands : List Command}
    (orderly : ∀ command ∈ commands, command.Orderly)
    (reached : (Session.run commands (.initial machine files)).2 = s)
    (found : s.handles.find? name = some (.region r))
    (moves : r.transfer? how = some (x, offset))
    (short : how = .toBytes ∨ x.lengthFault? = none) :
    match Transfer.firstOf (x.objections r s.store offset) with
    | some fault => s.use name (.region how) = (how.failure fault, s)
    | none => ∃ bytes store, s.use name (.region how) = (x.answer bytes, { s with store }) ∧
        x.onFlat? r offset s.store.flat = some (bytes, store.flat) ∧
          (x.size = 0 → bytes = [] ∧ store = s.store) := by
  have ready : s.Ready := reached ▸ ((Ready.empty machine files).run orderly).2
  exact ready.access found moves short

/-- At the very end of a view of a view, where scalars may be written, none are written out
of a list from a place past its end. -/
theorem run_accesses_past :
    let commands : List Command := [.make "array" (.newArray 16),
      .derive "array" "view" (.slice 2 12), .derive "view" "inner" (.slice 4 8)]
    let s := (Session.run commands (.initial Host.machine .bare)).2
    (∀ command ∈ commands, command.Orderly) ∧
      s.use "inner" (.region (.writeElements .u32 8 [1, 2] 3 0 .bigEndian)) =
        (.fault (.outOfBounds 3 0 2), s) := by
  intro commands s
  have orderly : ∀ command ∈ commands, command.Orderly := by
    simp [commands, Command.Orderly, Making.Fits, Word.modulus]
  let inner : Region := { root := 0, base := 6, length := 8, permit := .both, kind := .slice }
  let how : RegionUse := .writeElements .u32 8 [1, 2] 3 0 .bigEndian
  have found : s.handles.find? "inner" = some (.region inner) := by decide +kernel
  have moves : inner.transfer? how = some (.writeElements .u32 [1, 2] 3 0 .bigEndian, 8) := rfl
  have first : Transfer.firstOf
      ((Transfer.writeElements .u32 [1, 2] 3 0 .bigEndian).objections inner s.store 8) =
        some (.outOfBounds 3 0 2) := by
    decide +kernel
  have outcome := run_accesses Host.machine .bare orderly rfl found moves (.inr (by decide))
  rw [first] at outcome
  exact ⟨orderly, outcome⟩

end Session

end BoundedMemory
