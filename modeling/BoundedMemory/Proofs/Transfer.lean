import BoundedMemory.Proofs.CheckedAccess
import BoundedMemory.Proofs.ScalarCodec
import BoundedMemory.Session.Reply

/-!
Every way of moving bytes between a region and its user, as one type. A transfer
is refused for its own length, for what the region objects to, or for the list
it works on, in this order; otherwise it moves its bytes at once or nothing at
all. `Transfer.run_eq` says that each of the nine operations is exactly this,
on every route.
-/

namespace BoundedMemory

/-- A movement of bytes between a region and its user, but for the place in the
region. Lists that are filled or drawn from are part of it. -/
inductive Transfer where
  | read (t : ScalarType) (order : ByteOrder)
  | write (t : ScalarType) (v : Scalar t) (order : ByteOrder)
  | readSlice (t : ScalarType) (count : Nat) (order : ByteOrder)
  | writeSlice (t : ScalarType) (vs : List (Scalar t)) (order : ByteOrder)
  | readElements (t : ScalarType) (target : List (Scalar t)) (start count : Nat)
      (order : ByteOrder)
  | writeElements (t : ScalarType) (source : List (Scalar t)) (start count : Nat)
      (order : ByteOrder)
  | clear (byte : UInt8) (length : Nat)
  | readBytes (count : Nat)
  | writeBytes (bytes : Bytes)

namespace Transfer

/-- The transfer carried out on a region at an offset. -/
def run (x : Transfer) (r : Region) (offset : Nat) : Action Store Reply :=
  match x with
  | .read t order => do return .scalar t (← r.read t offset order)
  | .write _ v order => do
      r.write offset v order
      return .done
  | .readSlice t count order => do return .scalars t (← r.readSlice t offset count order)
  | .writeSlice _ vs order => do
      r.writeSlice offset vs order
      return .done
  | .readElements t target start count order => do
      return .filled t none (← r.readElements offset target start count order)
  | .writeElements _ source start count order => do
      r.writeElements offset source start count order
      return .done
  | .clear byte length => do
      r.clear byte offset length
      return .done
  | .readBytes count => do return .bytes (← r.readBytes offset count)
  | .writeBytes bytes => do
      r.writeBytes offset bytes
      return .done

@[simp]
def direction : Transfer → Access
  | .read .. | .readSlice .. | .readElements .. | .readBytes .. => .read
  | .write .. | .writeSlice .. | .writeElements .. | .clear .. | .writeBytes .. => .write

/-- The name under which a read-only region refuses the transfer. -/
@[simp]
def operation : Transfer → String
  | .read .. | .readSlice .. | .readElements .. | .readBytes .. => "get"
  | .write .. | .writeSlice .. | .writeElements .. | .writeBytes .. => "put"
  | .clear .. => "clear"

/-- The number of bytes that are moved. -/
def size : Transfer → Nat
  | .read t _ | .write t _ _ => t.width
  | .readSlice t count _ => count * t.width
  | .writeSlice t vs _ => vs.length * t.width
  | .readElements t _ _ count _ | .writeElements t _ _ count _ => count * t.width
  | .clear _ length => length
  | .readBytes count => count
  | .writeBytes bytes => bytes.length

/-- What speaks against the length of the transfer: transfers of many elements
have to work theirs out, and a product that is no word is refused. -/
@[simp]
def lengthFault? : Transfer → Option Fault
  | .readSlice t count _ | .readElements t _ _ count _ | .writeElements t _ _ count _ =>
      if count * t.width < Word.modulus then none else some Extent.tooLong
  | .writeSlice t vs _ => if vs.length * t.width < Word.modulus then none else some Extent.tooLong
  | .readBytes count => if count < Word.modulus then none else some Extent.tooLong
  | .writeBytes bytes => if bytes.length < Word.modulus then none else some Extent.tooLong
  | .read .. | .write .. | .clear .. => none

/-- What speaks against the part of a list that is to be filled or drawn from. -/
@[simp]
def listFault? : Transfer → Option Fault
  | .readElements _ list start count _ | .writeElements _ list start count _ =>
      if start + count ≤ list.length then none
      else some (.outOfBounds start count list.length)
  | _ => none

/-- The bytes that a change puts in place. -/
def payload : Transfer → Bytes
  | .write _ v order => v.encode order
  | .writeSlice _ vs order => Scalar.encodeAll order vs
  | .writeElements _ source start count order => Scalar.encodeAll order (cut source start count)
  | .clear byte length => List.replicate length byte
  | .writeBytes bytes => bytes
  | _ => []

/-- What is answered once `bytes` have been read; a change reads none. -/
def answer (x : Transfer) (bytes : Bytes) : Reply :=
  match x with
  | .read t order => .scalar t (Scalar.decode t order bytes)
  | .readSlice t count order =>
      .scalars t ((chunks t.width count bytes).map (Scalar.decode t order))
  | .readElements t target start count order =>
      .filled t none
        (splice target start ((chunks t.width count bytes).map (Scalar.decode t order)))
  | .readBytes _ => .bytes bytes
  | _ => .done

/-- The first thing that speaks against the transfer, if anything does. -/
def refusal? (x : Transfer) (r : Region) (s : Store) (offset : Nat) : Option Fault :=
  x.lengthFault?.or ((r.refusal? s x.direction x.operation offset x.size).or x.listFault?)

/-- The answer and the store after it, where the memory is there. -/
def outcome? (x : Transfer) (r : Region) (s : Store) (offset : Nat) : Option (Reply × Store) :=
  if x.size = 0 then some (x.answer [], s)
  else
    match x.direction with
    | .read => (r.peek? s offset x.size).map fun bytes => (x.answer bytes, s)
    | .write => (r.poke? s offset x.payload).map fun after => (x.answer [], after)

/-- What `run` comes to, by what the transfer is refused for and what it does. -/
def Carries (x : Transfer) (r : Region) (offset : Nat) (s : Store) : Prop :=
  x.run r offset s =
    match x.refusal? r s offset with
    | some fault => .error (.fault fault) s
    | none =>
        match x.outcome? r s offset with
        | some (reply, after) => .ok reply after
        | none => .error .trap s

variable {r : Region} {offset : Nat} {s : Store}

private theorem read_carries (t : ScalarType) (order : ByteOrder) :
    (Transfer.read t order).Carries r offset s := by
  have wide : t.width ≠ 0 := Nat.ne_of_gt t.width_pos
  simp only [Carries, run, Region.read, Operation.bind_run, Region.validate_run, refusal?,
    lengthFault?, listFault?, direction, operation, size, Option.none_or, Option.or_none]
  cases r.refusal? s .read "get" offset t.width with
  | some fault => rfl
  | none =>
      simp only [outcome?, size, wide, if_false, direction]
      rcases r.fetch_run offset t.width s with ⟨route, bytes, found, fetched⟩ | ⟨missing, fetched⟩
      · simp only [found, fetched, Option.map_some, Operation.pure_run, answer,
          route.load_eq order (Region.length_of_peek? found)]
      · simp only [missing, fetched, Option.map_none]

private theorem write_carries (t : ScalarType) (v : Scalar t) (order : ByteOrder) :
    (Transfer.write t v order).Carries r offset s := by
  have wide : t.width ≠ 0 := Nat.ne_of_gt t.width_pos
  simp only [Carries, run, Region.write, Operation.bind_run, Region.validate_run, refusal?,
    lengthFault?, listFault?, direction, operation, size, Option.none_or, Option.or_none]
  cases r.refusal? s .write "put" offset t.width with
  | some fault => rfl
  | none =>
      simp only [outcome?, size, wide, if_false, direction, payload]
      rcases r.fetch_run offset t.width s with ⟨route, bytes, found, fetched⟩ | ⟨missing, fetched⟩
      · simp only [fetched, route.store_eq order v (Region.length_of_peek? found),
          Operation.some_run, Region.replace_run]
        cases r.poke? s offset (v.encode order) <;> rfl
      · have nowhere : r.poke? s offset (v.encode order) = none := by
          rw [Region.poke?_eq_none_iff, Scalar.length_encode, missing]
        simp only [fetched, nowhere, Option.map_none]

private theorem readSlice_carries (t : ScalarType) (count : Nat) (order : ByteOrder) :
    (Transfer.readSlice t count order).Carries r offset s := by
  simp only [Carries, run, Operation.bind_run, Region.readSlice_run, refusal?, lengthFault?,
    listFault?, direction, operation, size, Option.or_none, outcome?, answer]
  by_cases fits : count * t.width < Word.modulus
  · simp only [fits, if_true, Option.none_or]
    cases r.refusal? s .read "get" offset (count * t.width) with
    | some fault => rfl
    | none =>
        by_cases empty : count = 0
        · simp [empty, chunks]
        · have nonempty : count * t.width ≠ 0 := Nat.mul_ne_zero empty (Nat.ne_of_gt t.width_pos)
          simp only [empty, nonempty, if_false]
          cases r.peek? s offset (count * t.width) <;> rfl
  · simp only [fits, if_false, Option.some_or]

private theorem writeSlice_carries (t : ScalarType) (vs : List (Scalar t)) (order : ByteOrder) :
    (Transfer.writeSlice t vs order).Carries r offset s := by
  simp only [Carries, run, Operation.bind_run, Region.writeSlice_run, refusal?, lengthFault?,
    listFault?, direction, operation, size, Option.or_none, outcome?, answer, payload]
  by_cases fits : vs.length * t.width < Word.modulus
  · simp only [fits, if_true, Option.none_or]
    cases r.refusal? s .write "put" offset (vs.length * t.width) with
    | some fault => rfl
    | none =>
        by_cases empty : vs.length = 0
        · simp [empty]
        · have nonempty : vs.length * t.width ≠ 0 :=
            Nat.mul_ne_zero empty (Nat.ne_of_gt t.width_pos)
          simp only [empty, nonempty, if_false]
          cases r.poke? s offset (Scalar.encodeAll order vs) <;> rfl
  · simp only [fits, if_false, Option.some_or]

private theorem readBytes_carries (count : Nat) : (readBytes count).Carries r offset s := by
  have width : ScalarType.u8.width = 1 := rfl
  simp only [Carries, run, Region.readBytes, Operation.bind_run, Region.readSlice_run, width,
    Nat.mul_one, refusal?, lengthFault?, listFault?, direction, operation, size, Option.or_none,
    outcome?, answer]
  by_cases fits : count < Word.modulus
  · simp only [fits, if_true, Option.none_or]
    cases r.refusal? s .read "get" offset count with
    | some fault => rfl
    | none =>
        by_cases empty : count = 0
        · simp [empty]
        · simp only [empty, if_false]
          cases found : r.peek? s offset count with
          | none => rfl
          | some bytes =>
              have length := Region.length_of_peek? found
              subst length
              simp only [Operation.pure_run, Scalar.map_toByte_chunks, Option.map_some]
  · simp only [fits, if_false, Option.some_or]

private theorem writeBytes_carries (bytes : Bytes) : (writeBytes bytes).Carries r offset s := by
  have width : ScalarType.u8.width = 1 := rfl
  simp only [Carries, run, Region.writeBytes, Operation.bind_run, Region.writeSlice_run, width,
    Nat.mul_one, List.length_map, Scalar.encodeAll_map_ofByte, refusal?, lengthFault?, listFault?,
    direction, operation, size, Option.or_none, outcome?, answer, payload]
  by_cases fits : bytes.length < Word.modulus
  · simp only [fits, if_true, Option.none_or]
    cases r.refusal? s .write "put" offset bytes.length with
    | some fault => rfl
    | none =>
        by_cases empty : bytes.length = 0
        · simp [empty]
        · simp only [empty, if_false]
          cases r.poke? s offset bytes <;> rfl
  · simp only [fits, if_false, Option.some_or]

private theorem readElements_carries (t : ScalarType) (target : List (Scalar t))
    (start count : Nat) (order : ByteOrder) :
    (Transfer.readElements t target start count order).Carries r offset s := by
  simp only [Carries, run, Region.readElements, Operation.bind_run, Extent.byteLength_eq, refusal?,
    lengthFault?, listFault?, direction, operation, size]
  by_cases fits : count * t.width < Word.modulus
  · simp only [fits, if_true, Operation.accepted_run, Region.validate_run, Option.none_or]
    cases r.refusal? s .read "get" offset (count * t.width) with
    | some fault => rfl
    | none =>
        simp only [Extent.check_eq, Option.none_or]
        by_cases inside : start + count ≤ target.length
        · simp only [inside, if_true]
          by_cases empty : count = 0
          · simp [outcome?, size, empty, answer, chunks]
          · have nonempty : count * t.width ≠ 0 := Nat.mul_ne_zero empty (Nat.ne_of_gt t.width_pos)
            simp only [Operation.accepted_run, empty, if_false, Operation.bind_run,
              Region.loadAll_run _ _ _ _ _ _ fits, outcome?, size, nonempty, direction]
            cases r.peek? s offset (count * t.width) with
            | none => rfl
            | some bytes => simp [splice?, inside, answer]
        · simp only [inside, if_false, Operation.refused_run]
  · simp only [fits, if_false, Operation.refused_run, Option.some_or]

private theorem writeElements_carries (t : ScalarType) (source : List (Scalar t))
    (start count : Nat) (order : ByteOrder) :
    (Transfer.writeElements t source start count order).Carries r offset s := by
  simp only [Carries, run, Region.writeElements, Operation.bind_run, Extent.byteLength_eq, refusal?,
    lengthFault?, listFault?, direction, operation, size]
  by_cases fits : count * t.width < Word.modulus
  · simp only [fits, if_true, Operation.accepted_run, Region.validate_run, Option.none_or]
    cases r.refusal? s .write "put" offset (count * t.width) with
    | some fault => rfl
    | none =>
        simp only [Extent.check_eq, Option.none_or]
        by_cases inside : start + count ≤ source.length
        · simp only [inside, if_true]
          by_cases empty : count = 0
          · simp [outcome?, size, empty, answer]
          · have nonempty : count * t.width ≠ 0 := Nat.mul_ne_zero empty (Nat.ne_of_gt t.width_pos)
            have drawn : (cut source start count).length * t.width < Word.modulus := by
              rwa [length_cut inside]
            simp only [Operation.accepted_run, ne_eq, empty, not_false_eq_true, if_true, cut?,
              inside, Operation.bind_run, Operation.some_run, Region.storeAll_run _ _ _ _ _ drawn,
              outcome?, size, nonempty, if_false, direction, payload]
            cases r.poke? s offset (Scalar.encodeAll order (cut source start count)) <;> rfl
        · simp only [inside, if_false, Operation.refused_run]
  · simp only [fits, if_false, Operation.refused_run, Option.some_or]

private theorem clear_carries (byte : UInt8) (length : Nat) :
    (Transfer.clear byte length).Carries r offset s := by
  simp only [Carries, run, Region.clear, Operation.bind_run, Region.validate_run, refusal?,
    lengthFault?, listFault?, direction, operation, size, Option.none_or, Option.or_none]
  cases r.refusal? s .write "clear" offset length with
  | some fault => rfl
  | none =>
      by_cases empty : length = 0
      · simp [outcome?, size, empty, answer]
      · simp only [ne_eq, empty, not_false_eq_true, if_true, Region.replace_run, outcome?, size,
          if_false, direction, payload]
        cases r.poke? s offset (List.replicate length byte) <;> rfl

/-- Every transfer is refused, or moves all of its bytes at once. -/
theorem run_eq (x : Transfer) (r : Region) (offset : Nat) (s : Store) :
    x.run r offset s =
      match x.refusal? r s offset with
      | some fault => .error (.fault fault) s
      | none =>
          match x.outcome? r s offset with
          | some (reply, after) => .ok reply after
          | none => .error .trap s := by
  cases x with
  | read t order => exact read_carries t order
  | write t v order => exact write_carries t v order
  | readSlice t count order => exact readSlice_carries t count order
  | writeSlice t vs order => exact writeSlice_carries t vs order
  | readElements t target start count order =>
      exact readElements_carries t target start count order
  | writeElements t source start count order =>
      exact writeElements_carries t source start count order
  | clear byte length => exact clear_carries byte length
  | readBytes count => exact readBytes_carries count
  | writeBytes bytes => exact writeBytes_carries bytes

theorem refusal?_eq_none_iff {x : Transfer} :
    x.refusal? r s offset = none ↔
      x.lengthFault? = none ∧ r.refusal? s x.direction x.operation offset x.size = none ∧
        x.listFault? = none := by
  simp [refusal?]

theorem run_eq_ok_iff {x : Transfer} {reply : Reply} {after : Store} :
    x.run r offset s = .ok reply after ↔
      x.refusal? r s offset = none ∧ x.outcome? r s offset = some (reply, after) := by
  rw [run_eq]
  cases x.refusal? r s offset with
  | some fault => simp
  | none =>
      cases x.outcome? r s offset with
      | none => simp
      | some found => simp [Prod.ext_iff]

/-- What is answered tells of some bytes. -/
theorem answer_of_outcome? {x : Transfer} {reply : Reply} {after : Store}
    (h : x.outcome? r s offset = some (reply, after)) : ∃ bytes, reply = x.answer bytes := by
  unfold outcome? at h
  by_cases empty : x.size = 0
  · simp only [empty, if_true, Option.some.injEq, Prod.mk.injEq] at h
    exact ⟨[], h.1.symm⟩
  · simp only [empty, if_false] at h
    cases direction : x.direction with
    | read =>
        simp only [direction, Option.map_eq_some_iff, Prod.mk.injEq] at h
        obtain ⟨bytes, -, same, -⟩ := h
        exact ⟨bytes, same.symm⟩
    | write =>
        simp only [direction, Option.map_eq_some_iff, Prod.mk.injEq] at h
        obtain ⟨-, -, same, -⟩ := h
        exact ⟨[], same.symm⟩

/-- What stops, for whatever reason, has not touched memory. -/
theorem run_error {x : Transfer} {e : Stop Fault} {after : Store}
    (h : x.run r offset s = .error e after) : after = s := by
  rw [run_eq] at h
  cases refused : x.refusal? r s offset with
  | some fault =>
      simp only [refused] at h
      cases h
      rfl
  | none =>
      cases moved : x.outcome? r s offset with
      | none =>
          simp only [refused, moved] at h
          cases h
          rfl
      | some found => simp [refused, moved] at h

theorem length_payload {x : Transfer} (change : x.direction = .write) (list : x.listFault? = none) :
    x.payload.length = x.size := by
  cases x with
  | write t v order => exact Scalar.length_encode order v
  | writeSlice t vs order => exact Scalar.length_encodeAll order vs
  | writeElements t source start count order =>
      have inside : start + count ≤ source.length := by
        simpa [listFault?] using list
      rw [payload, Scalar.length_encodeAll, length_cut inside, size]
  | clear byte length => exact List.length_replicate
  | writeBytes bytes => rfl
  | _ => cases change

/-- A transfer that moves something stays among the words. -/
theorem stop_lt_modulus {x : Transfer} {found : Reply × Store} (list : x.listFault? = none)
    (some : x.size ≠ 0) (h : x.outcome? r s offset = .some found) :
    offset + x.size < Word.modulus := by
  simp only [outcome?, some, if_false] at h
  cases direction : x.direction with
  | read =>
      simp only [direction, Option.map_eq_some_iff] at h
      obtain ⟨bytes, present, -⟩ := h
      obtain ⟨root, b, reach, -⟩ := Region.peek?_eq_some_iff.mp present
      have := reach.stopFits
      omega
  | write =>
      simp only [direction, Option.map_eq_some_iff] at h
      obtain ⟨after, written, -⟩ := h
      obtain ⟨root, b, reach, -⟩ := Region.poke?_eq_some_iff.mp written
      have := reach.stopFits
      rw [length_payload direction list] at this
      omega

end Transfer

end BoundedMemory
