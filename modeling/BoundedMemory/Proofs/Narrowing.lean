import BoundedMemory.Proofs.Transfer

/-!
The five ways of deriving a region from a region, as one type. Each of them is a
place, a length, a mask and a kind, and `Narrowing.apply_run` says that a step
is refused for the order of its ends, for a root that was released, or for a
range that is not inside, in this order, and is `Narrowing.narrowed` otherwise.
-/

namespace BoundedMemory

/-- A step from a region to a view of it. -/
inductive Narrowing where
  | slice (offset length : Nat)
  | sliceFrom (offset : Nat)
  | sliceBetween (first last : Nat)
  | restrict (mask : Permit)
  | readOnly
  deriving DecidableEq, Repr

namespace Narrowing

def apply (n : Narrowing) (r : Region) : Action Store Region :=
  match n with
  | .slice offset length => r.slice offset length
  | .sliceFrom offset => r.sliceFrom offset
  | .sliceBetween first last => r.sliceBetween first last
  | .restrict mask => r.restrict mask
  | .readOnly => r.readOnly

/-- Where the view begins in what it is a view of. -/
def offset : Narrowing → Nat
  | .slice offset _ | .sliceFrom offset => offset
  | .sliceBetween first _ => first
  | .restrict _ | .readOnly => 0

/-- The length that a slice of `whole` bytes asks for; the other steps ask for none. -/
def sliceLength? (n : Narrowing) (whole : Nat) : Option Nat :=
  match n with
  | .slice _ length => some length
  | .sliceFrom offset => some (whole - offset)
  | .sliceBetween first last => some (last - first)
  | .restrict _ | .readOnly => none

/-- The length of the view of `whole` bytes. -/
def length (n : Narrowing) (whole : Nat) : Nat := (n.sliceLength? whole).getD whole

def mask : Narrowing → Permit
  | .restrict mask => mask
  | .readOnly => .readOnly
  | _ => .both

def isReadOnly : Narrowing → Bool
  | .readOnly => true
  | _ => false

/-- The view that a step leads to. -/
def narrowed (n : Narrowing) (r : Region) : Region where
  root := r.root
  base := r.base + n.offset
  length := n.length r.length
  permit := r.permit.meet n.mask
  kind := if r.isReadOnly || n.isReadOnly then .readOnly else .slice

/-- What is wrong with the arguments by themselves. -/
def orderFault? : Narrowing → Option Fault
  | .sliceBetween first last => if last < first then some (.outOfBounds first 0 last) else none
  | _ => none

def rangeFault? (n : Narrowing) (whole : Nat) : Option Fault :=
  if n.offset + n.length whole ≤ whole then none
  else some (.outOfBounds n.offset (n.length whole) whole)

/-- The first thing that speaks against the step, if anything does. -/
def refusal? (n : Narrowing) (r : Region) (s : Store) : Option Fault :=
  n.orderFault?.or (if r.isValid s then n.rangeFault? r.length else some .released)

/-- What `apply` comes to, by what the step is refused for and where it leads. -/
def Narrows (n : Narrowing) (r : Region) (s : Store) : Prop :=
  n.apply r s =
    match n.refusal? r s with
    | some fault => .error (.fault fault) s
    | none =>
        if r.base + n.offset < Word.modulus then .ok (n.narrowed r) s else .error .trap s

variable {r : Region} {s : Store}

private theorem ensureValid_run :
    r.ensureValid s = if r.isValid s then .ok () s else .error (.fault .released) s := by
  unfold Region.ensureValid
  simp only [Operation.bind_run, Operation.get_run]
  cases r.isValid s <;> rfl

private theorem derive_run (offset length : Nat) (mask : Permit) (kind : Region.Kind) :
    r.derive offset length mask kind s =
      if r.base + offset < Word.modulus then
        .ok {
          root := r.root
          base := r.base + offset
          length
          permit := r.permit.meet mask
          kind := if r.kind = .readOnly ∨ kind = .readOnly then .readOnly else .slice } s
      else .error .trap s := by
  unfold Region.derive Word.add?
  by_cases fits : r.base + offset < Word.modulus
  · simp only [fits, if_true, Operation.bind_run, Operation.some_run, Operation.pure_run]
  · simp only [fits, if_false, Operation.bind_run, Operation.none_run]

private theorem slice_narrows (offset length : Nat) : (slice offset length).Narrows r s := by
  simp only [Narrows, apply, Region.slice, Operation.bind_run, ensureValid_run, refusal?,
    orderFault?, Option.none_or]
  by_cases valid : r.isValid s = true
  · by_cases inside : offset + length ≤ r.length
    · simp only [valid, if_true, Extent.check_eq, inside, Operation.accepted_run, derive_run,
        rangeFault?, Narrowing.offset, Narrowing.length, sliceLength?, Option.getD_some]
      simp [narrowed, Narrowing.offset, Narrowing.length, sliceLength?, mask, isReadOnly,
        Region.isReadOnly]
    · simp only [valid, if_true, Extent.check_eq, inside, if_false, Operation.refused_run,
        rangeFault?, Narrowing.offset, Narrowing.length, sliceLength?, Option.getD_some]
  · simp only [valid, Bool.false_eq_true, if_false]

/-- The length of a slice is all that tells its three forms apart. -/
private theorem narrows_of_slice {n : Narrowing} {offset length : Nat}
    (run : n.apply r s = (slice offset length).apply r s) (begins : n.offset = offset)
    (size : n.length r.length = length) (order : n.orderFault? = none)
    (plain : n.mask = .both ∧ n.isReadOnly = false) : n.Narrows r s := by
  have h := slice_narrows (r := r) (s := s) offset length
  have same : n.narrowed r = (slice offset length).narrowed r := by
    unfold narrowed
    rw [begins, size, plain.1, plain.2]
    rfl
  have range : n.rangeFault? r.length = (slice offset length).rangeFault? r.length := by
    unfold rangeFault?
    rw [begins, size]
    rfl
  have refusal : n.refusal? r s = (slice offset length).refusal? r s := by
    unfold refusal?
    rw [order, range]
    rfl
  unfold Narrows at h ⊢
  rw [run, h, same, refusal, begins]
  rfl

private theorem sliceFrom_narrows (offset : Nat) : (sliceFrom offset).Narrows r s :=
  narrows_of_slice rfl rfl rfl rfl ⟨rfl, rfl⟩

private theorem sliceBetween_narrows (first last : Nat) :
    (sliceBetween first last).Narrows r s := by
  by_cases turned : last < first
  · simp only [Narrows, apply, Region.sliceBetween, Extent.between, turned, if_true,
      Operation.bind_run, Operation.refused_run, refusal?, orderFault?, Option.some_or]
  · have run : (sliceBetween first last).apply r s = (slice first (last - first)).apply r s := by
      simp only [apply, Region.sliceBetween, Extent.between, turned, if_false,
        Operation.bind_run, Operation.accepted_run]
    exact narrows_of_slice run rfl rfl (by simp [orderFault?, turned]) ⟨rfl, rfl⟩

private theorem restrict_narrows (mask : Permit) : (restrict mask).Narrows r s := by
  simp only [Narrows, apply, Region.restrict, Operation.bind_run, ensureValid_run, refusal?,
    orderFault?, Option.none_or]
  by_cases valid : r.isValid s = true
  · simp [valid, derive_run, rangeFault?, Narrowing.offset, Narrowing.length, sliceLength?,
      narrowed, Narrowing.mask, isReadOnly, Region.isReadOnly]
  · simp only [valid, Bool.false_eq_true, if_false]

private theorem readOnly_narrows : readOnly.Narrows r s := by
  simp only [Narrows, apply, Region.readOnly, Operation.bind_run, ensureValid_run, refusal?,
    orderFault?, Option.none_or]
  by_cases valid : r.isValid s = true
  · simp [valid, derive_run, rangeFault?, Narrowing.offset, Narrowing.length, sliceLength?,
      narrowed, Narrowing.mask, isReadOnly]
  · simp only [valid, Bool.false_eq_true, if_false]

/-- Every step is refused, or leads to its view and changes nothing. -/
theorem apply_run (n : Narrowing) (r : Region) (s : Store) :
    n.apply r s =
      match n.refusal? r s with
      | some fault => .error (.fault fault) s
      | none =>
          if r.base + n.offset < Word.modulus then .ok (n.narrowed r) s else .error .trap s := by
  cases n with
  | slice offset length => exact slice_narrows offset length
  | sliceFrom offset => exact sliceFrom_narrows offset
  | sliceBetween first last => exact sliceBetween_narrows first last
  | restrict mask => exact restrict_narrows mask
  | readOnly => exact readOnly_narrows

theorem apply_eq_ok_iff {n : Narrowing} {r' : Region} {s' : Store} :
    n.apply r s = .ok r' s' ↔
      n.refusal? r s = none ∧ r.base + n.offset < Word.modulus ∧ r' = n.narrowed r ∧ s' = s := by
  rw [apply_run]
  cases n.refusal? r s with
  | some fault => simp
  | none =>
      by_cases fits : r.base + n.offset < Word.modulus
      · simp only [fits, if_true, EStateM.Result.ok.injEq, true_and]
        constructor
        · rintro ⟨rfl, rfl⟩
          exact ⟨rfl, rfl⟩
        · rintro ⟨rfl, rfl⟩
          exact ⟨rfl, rfl⟩
      · simp [fits]

theorem apply_error {n : Narrowing} {e : Stop Fault} {s' : Store} (h : n.apply r s = .error e s') :
    s' = s := by
  rw [apply_run] at h
  cases refused : n.refusal? r s with
  | some fault =>
      simp only [refused] at h
      cases h
      rfl
  | none =>
      by_cases fits : r.base + n.offset < Word.modulus
      · simp [refused, fits] at h
      · simp only [refused, fits, if_false] at h
        cases h
        rfl

theorem refusal?_eq_none_iff {n : Narrowing} :
    n.refusal? r s = none ↔
      n.orderFault? = none ∧ r.isValid s = true ∧ n.offset + n.length r.length ≤ r.length := by
  simp only [refusal?, Option.or_eq_none_iff, rangeFault?]
  by_cases valid : r.isValid s = true <;> simp [valid]

theorem isReadOnly_narrowed (n : Narrowing) (r : Region) :
    (n.narrowed r).isReadOnly = (r.isReadOnly || n.isReadOnly) := by
  show decide ((if r.isReadOnly || n.isReadOnly then _ else _) = Region.Kind.readOnly) = _
  cases r.isReadOnly || n.isReadOnly <;> rfl

theorem isView_narrowed (n : Narrowing) (r : Region) : (n.narrowed r).isView = true := by
  show decide ((if r.isReadOnly || n.isReadOnly then _ else _) ≠ Region.Kind.root) = _
  cases r.isReadOnly || n.isReadOnly <;> rfl

/-- A view is used at an offset exactly as what it is a view of is used further up. -/
theorem peek?_narrowed (n : Narrowing) (r : Region) (s : Store) (offset count : Nat) :
    (n.narrowed r).peek? s offset count = r.peek? s (offset + n.offset) count := by
  have sum : r.base + n.offset + offset = r.base + (offset + n.offset) := by omega
  simp only [Region.peek?, narrowed, Word.add?, sum]

theorem poke?_narrowed (n : Narrowing) (r : Region) (s : Store) (offset : Nat) (bytes : Bytes) :
    (n.narrowed r).poke? s offset bytes = r.poke? s (offset + n.offset) bytes := by
  have sum : r.base + n.offset + offset = r.base + (offset + n.offset) := by omega
  simp only [Region.poke?, narrowed, Word.add?, sum]

end Narrowing

/-- A chain of accepted steps from one region to another, each in the store of its time. -/
inductive Derives (r : Region) : List Narrowing → Region → Prop where
  | refl : Derives r [] r
  | step {between view : Region} {steps : List Narrowing} {n : Narrowing} {s s' : Store}
      (chain : Derives r steps between) (accepted : n.apply between s = .ok view s') :
      Derives r (steps ++ [n]) view

end BoundedMemory
