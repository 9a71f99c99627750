import BoundedMemory.Proofs.Safety

/-!
The order of checks where a length is worked out first. An access is meant to be held
against the state of its region, then against what the region allows, and only then against
its range. An access that is given by the two ends of its range, or by a number of elements,
works its length out before it looks at the region. The two orders report the same unless
the arguments make no length and the region would have refused any such access.
-/

namespace BoundedMemory

/-- What speaks against every access of a kind, wherever in the region it is. -/
def Region.objection? (r : Region) (s : Store) (access : Access) (operation : String) :
    Option Fault :=
  if !r.isValid s then some .released
  else if access = .write && r.isReadOnly then some (.readOnly operation)
  else if !r.permit.allows access then some (.forbidden access)
  else none

/-- What speaks against a range. -/
def Extent.outside? (total offset length : Nat) : Option Fault :=
  if offset + length ≤ total then none else some (.outOfBounds offset length total)

theorem Region.refusal?_eq_or (r : Region) (s : Store) (access : Access) (operation : String)
    (offset length : Nat) :
    r.refusal? s access operation offset length =
      (r.objection? s access operation).or (Extent.outside? r.length offset length) := by
  unfold refusal? objection? Extent.outside?
  rw [Extent.check_eq]
  split
  · rfl
  · split
    · rfl
    · split
      · rfl
      · by_cases fits : offset + length ≤ r.length <;> simp only [fits, if_true, if_false] <;> rfl

/-- The steps on a region that have a length to work out from their arguments. -/
inductive Measured where
  | clearBetween (byte : UInt8) (first last : Nat)
  | sliceBetween (first last : Nat)
  | readElements (t : ScalarType) (offset : Nat) (target : List (Scalar t)) (start count : Nat)
      (order : ByteOrder)
  | writeElements (t : ScalarType) (offset : Nat) (source : List (Scalar t)) (start count : Nat)
      (order : ByteOrder)

namespace Measured

/-- The step taken on the region under one name; a view would be bound to the other. -/
def command (source name : String) : Measured → Command
  | .clearBetween byte first last => .use source (.region (.clearBetween byte first last))
  | .sliceBetween first last => .derive source name (.sliceBetween first last)
  | .readElements t offset target start count order =>
      .use source (.region (.readElements t offset target start count order))
  | .writeElements t offset list start count order =>
      .use source (.region (.writeElements t offset list start count order))

/-- How a fault is replied to. -/
def failure (m : Measured) (cause : Fault) : Reply :=
  match m with
  | .readElements t _ target _ _ _ => .filled t (some cause) target
  | _ => .fault cause

/-- What speaks against the step by the state of the region alone. A view is made of any
region that is valid. -/
def stateFault? (m : Measured) (r : Region) (s : Store) : Option Fault :=
  match m with
  | .clearBetween .. => r.objection? s .write "clear"
  | .sliceBetween .. => if r.isValid s then none else some .released
  | .readElements .. => r.objection? s .read "get"
  | .writeElements .. => r.objection? s .write "put"

/-- What speaks against arguments that make no length: ends in the wrong order, or more
elements than there are bytes to address. -/
def lengthFault? : Measured → Option Fault
  | .clearBetween _ first last | .sliceBetween first last =>
      if last < first then some (.outOfBounds first 0 last) else none
  | .readElements t _ _ _ count _ | .writeElements t _ _ _ count _ =>
      if count * t.width < Word.modulus then none else some Extent.tooLong

/-- What speaks against a range of the region, and then against one of the list. -/
def rangeFault? (m : Measured) (r : Region) : Option Fault :=
  match m with
  | .clearBetween _ first last | .sliceBetween first last =>
      Extent.outside? r.length first (last - first)
  | .readElements t offset list start count _ | .writeElements t offset list start count _ =>
      (Extent.outside? r.length offset (count * t.width)).or
        (Extent.outside? list.length start count)

/-- The fault to be reported if the state of the region comes first. -/
def due? (m : Measured) (r : Region) (s : Store) : Option Fault :=
  (m.stateFault? r s).or (m.lengthFault?.or (m.rangeFault? r))

/-- The fault that is found if the length comes first. -/
def refusal? (m : Measured) (r : Region) (s : Store) : Option Fault :=
  m.lengthFault?.or ((m.stateFault? r s).or (m.rangeFault? r))

variable {m : Measured} {r : Region} {s : Store}

theorem failure_injective (m : Measured) : Function.Injective m.failure := by
  intro cause other same
  cases m <;> cases same <;> rfl

/-- The fault of a region is never mistaken for one of arguments. -/
theorem stateFault_ne_lengthFault {cause fault : Fault} (state : m.stateFault? r s = some cause)
    (length : m.lengthFault? = some fault) : cause ≠ fault := by
  have kind : cause.isOutOfBounds = false ∧ cause ≠ Extent.tooLong := by
    cases m <;> simp only [stateFault?, Region.objection?] at state
    all_goals
      split at state
      all_goals grind [Fault.isOutOfBounds, Fault.released, Fault.readOnly, Extent.tooLong]
  cases m <;> simp only [lengthFault?] at length <;> grind [Fault.isOutOfBounds]

end Measured

namespace Session

variable {s : Session} {source : String} {r : Region}

private theorem derive_turned_or_outside (name : String) {first last : Nat} {fault : Fault}
    (found : s.handles.find? source = some (.region r))
    (refused : (Measured.sliceBetween first last).refusal? r s.store = some fault) :
    s.derive source name (.sliceBetween first last) = (.fault fault, s) := by
  have objected : (Narrowing.sliceBetween first last).refusal? r s.store = some fault := by
    rw [← refused]
    unfold Narrowing.refusal? Measured.refusal? Measured.stateFault?
    by_cases valid : r.isValid s.store = true
    · simp only [valid, if_true, Option.none_or]
      rfl
    · simp only [valid, Bool.false_eq_true, if_false, Option.some_or]
      rfl
  have run : r.sliceBetween first last s.store = .error (.fault fault) s.store := by
    have applied := (Narrowing.sliceBetween first last).apply_run r s.store
    rwa [objected] at applied
  simp only [derive, found, Option.bind_some, derivation?, ofRegion?, bindMade,
    Operation.bind_run, run]

private theorem use_turned (byte : UInt8) {first last : Nat}
    (found : s.handles.find? source = some (.region r)) (turned : last < first) :
    s.use source (.region (.clearBetween byte first last)) =
      (.fault (.outOfBounds first 0 last), s) := by
  have none : r.transfer? (.clearBetween byte first last) = none := if_pos turned
  simp only [use, found, RegionUse.run_turned none]

/-- A step that is refused changes nothing but what nobody holds any more. -/
theorem step_measured (name : String) (found : s.handles.find? source = some (.region r))
    {m : Measured} {fault : Fault} (refused : m.refusal? r s.store = some fault) :
    s.step (m.command source name) = (m.failure fault, s.sweep) := by
  suffices performed : s.perform (m.command source name) = (m.failure fault, s) by
    simp only [step, performed]
  cases m with
  | clearBetween byte first last =>
      by_cases turned : last < first
      · have same : Fault.outOfBounds first 0 last = fault := by
          simpa [Measured.refusal?, Measured.lengthFault?, turned] using refused
        exact same ▸ use_turned byte found turned
      · have moves : r.transfer? (.clearBetween byte first last) =
            some (.clear byte (last - first), first) := by
          simp only [Region.transfer?, turned, if_false]
        apply use_refused found moves
        simpa [Measured.refusal?, Measured.lengthFault?, turned, Measured.stateFault?,
          Measured.rangeFault?, Transfer.refusal?, Transfer.size, Region.refusal?_eq_or]
          using refused
  | sliceBetween first last => exact derive_turned_or_outside name found refused
  | readElements t offset target start count order =>
      apply use_refused found rfl
      rw [Transfer.refusal?, Region.refusal?_eq_or, Option.or_assoc]
      exact refused
  | writeElements t offset list start count order =>
      apply use_refused found rfl
      rw [Transfer.refusal?, Region.refusal?_eq_or, Option.or_assoc]
      exact refused

/-- The state of the region comes first in every step with arguments that make a length, and
in every step on a region that has nothing against it. In no other step it does: arguments
that make no length are reported before the region is looked at, released or not. -/
theorem state_first_iff (name : String) (found : s.handles.find? source = some (.region r))
    (m : Measured) :
    ((∀ fault, m.due? r s.store = some fault →
        s.step (m.command source name) = (m.failure fault, s.sweep)) ↔
      m.lengthFault? = none ∨ m.stateFault? r s.store = none) ∧
    ∀ fault, m.lengthFault? = some fault →
      s.step (m.command source name) = (m.failure fault, s.sweep) := by
  have malformed (fault : Fault) (length : m.lengthFault? = some fault) :
      s.step (m.command source name) = (m.failure fault, s.sweep) := by
    apply step_measured name found
    rw [Measured.refusal?, length, Option.some_or]
  refine ⟨⟨fun first => ?_, fun either fault due => ?_⟩, malformed⟩
  · cases length : m.lengthFault? with
    | none => exact .inl rfl
    | some fault =>
        cases state : m.stateFault? r s.store with
        | none => exact .inr rfl
        | some cause =>
            have due : m.due? r s.store = some cause := by
              rw [Measured.due?, state, Option.some_or]
            have same := congrArg Prod.fst ((first cause due).symm.trans (malformed fault length))
            exact absurd (m.failure_injective same)
              (Measured.stateFault_ne_lengthFault state length)
  · apply step_measured name found
    rw [← due]
    unfold Measured.refusal? Measured.due?
    rcases either with length | state
    · rw [length, Option.none_or, Option.none_or]
    · rw [state, Option.none_or, Option.none_or]

/-- The ends of a range in the wrong order, on an array that was released. -/
theorem state_first_iff_released :
    let commands : List Command := [.make "array" (.newArray 4), .use "array" (.region .release)]
    let s := (Session.run commands (.initial Host.machine .bare)).2
    let array : Region := .ofRoot 0 4
    let m : Measured := .clearBetween 0 3 1
    s.handles.find? "array" = some (.region array) ∧
      ((∀ fault, m.due? array s.store = some fault →
          s.step (m.command "array" "view") = (m.failure fault, s.sweep)) ↔
        m.lengthFault? = none ∨ m.stateFault? array s.store = none) ∧
      ∀ fault, m.lengthFault? = some fault →
        s.step (m.command "array" "view") = (m.failure fault, s.sweep) := by
  intro commands s array m
  have found : s.handles.find? "array" = some (.region array) := by decide +kernel
  exact ⟨found, state_first_iff "view" found m⟩

/-- That an array was released is not what is reported of these steps on it. -/
theorem released_goes_unreported :
    let commands : List Command := [.make "array" (.newArray 4), .use "array" (.region .release)]
    let s := (Session.run commands (.initial Host.machine .bare)).2
    let array : Region := .ofRoot 0 4
    let malformed : List Measured := [.clearBetween 0 3 1, .sliceBetween 3 1,
      .readElements .u16 0 [7] 0 0x8000000000000000 .bigEndian,
      .writeElements .u16 0 [7] 0 0x8000000000000000 .bigEndian]
    s.handles.find? "array" = some (.region array) ∧
      ∀ m ∈ malformed, m.due? array s.store = some .released ∧
        ∃ fault, fault ≠ .released ∧ (s.step (m.command "array" "view")).1 = m.failure fault := by
  intro commands s array malformed
  have found : s.handles.find? "array" = some (.region array) := by decide +kernel
  refine ⟨found, fun m member => ?_⟩
  simp only [malformed, List.mem_cons, List.not_mem_nil, or_false] at member
  rcases member with rfl | rfl | rfl | rfl
  · exact ⟨rfl, .outOfBounds 3 0 1, by decide, rfl⟩
  · exact ⟨rfl, .outOfBounds 3 0 1, by decide, rfl⟩
  · exact ⟨rfl, Extent.tooLong, by decide, rfl⟩
  · exact ⟨rfl, Extent.tooLong, by decide, rfl⟩

end Session

end BoundedMemory
