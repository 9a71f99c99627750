import BoundedMemory.Proofs.RawAccess

/-!
Access to regions behind their checks. What a route loads and stores is what the
codec says, so a checked access is given by the first check that fails and by the
bytes that are there otherwise.
-/

namespace BoundedMemory

namespace Route

variable {t : ScalarType}

theorem load_eq (route : Route) (order : ByteOrder) {bytes : Bytes}
    (h : bytes.length = t.width) : route.load t order bytes = Scalar.decode t order bytes := by
  cases route with
  | codec => rfl
  | native => exact native_load_eq order h

theorem store_eq (route : Route) (order : ByteOrder) (v : Scalar t) {target : Bytes}
    (h : target.length = t.width) : route.store order v target = some (v.encode order) := by
  have codec : Route.codec.store order v target = some (v.encode order) := by
    simp [store, Scalar.encodeInto?_eq_splice?, splice?, splice, h]
  cases route with
  | codec => exact codec
  | native => rw [native_store_eq order v h, codec]

theorem loadAll_eq (route : Route) (order : ByteOrder) {count : Nat} {bytes : Bytes}
    (h : bytes.length = count * t.width) :
    route.loadAll t order count bytes =
      some ((chunks t.width count bytes).map (Scalar.decode t order)) := by
  have codec : Route.codec.loadAll t order count bytes =
      some ((chunks t.width count bytes).map (Scalar.decode t order)) := by
    simp [loadAll, Scalar.decodeAll?_eq, h]
  cases route with
  | codec => exact codec
  | native => rw [native_loadAll_eq order h, codec]

theorem storeAll_eq (route : Route) (order : ByteOrder) (vs : List (Scalar t)) {target : Bytes}
    (h : target.length = vs.length * t.width) :
    route.storeAll order vs target = some (Scalar.encodeAll order vs) := by
  have codec : Route.codec.storeAll order vs target = some (Scalar.encodeAll order vs) := by
    simp [storeAll, Scalar.encodeOver?_eq, h]
  cases route with
  | codec => exact codec
  | native => rw [native_storeAll_eq order vs h, codec]

end Route

namespace Extent

def tooLong : Fault := .invalidArgument "count" "element count overflows the address space"

theorem byteLength_eq (count width : Nat) :
    byteLength count width =
      if count * width < Word.modulus then .ok (count * width) else .error tooLong := by
  unfold byteLength Word.mul?
  split <;> split <;> simp_all [tooLong]

theorem check_eq (total offset length : Nat) :
    check total offset length =
      if offset + length ≤ total then .ok () else .error (.outOfBounds offset length total) := by
  split
  · rename_i fits
    exact check_eq_ok_iff.mpr fits
  · rename_i tooFar
    exact check_eq_error_iff.mpr ⟨by omega, rfl⟩

end Extent

namespace Region

variable {t : ScalarType}

theorem validate_run (r : Region) (access : Access) (operation : String) (offset n : Nat)
    (s : Store) :
    r.validate access operation offset n s =
      match r.refusal? s access operation offset n with
      | some fault => .error (.fault fault) s
      | none => .ok () s := by
  unfold validate
  simp only [Operation.bind_run, Operation.get_run]
  cases r.refusal? s access operation offset n <;> rfl

theorem loadAll_run (r : Region) (t : ScalarType) (order : ByteOrder) (offset count : Nat)
    (s : Store) (h : count * t.width < Word.modulus) :
    r.loadAll t order offset count s =
      match r.peek? s offset (count * t.width) with
      | some bytes => .ok ((chunks t.width count bytes).map (Scalar.decode t order)) s
      | none => .error .trap s := by
  have product : Word.mul? count t.width = some (count * t.width) :=
    Word.mul?_eq_some_iff.mpr ⟨rfl, h⟩
  unfold loadAll
  simp only [Operation.bind_run, product, Operation.some_run]
  rcases r.fetch_run offset (count * t.width) s with ⟨route, bytes, found, run⟩ | ⟨missing, run⟩
  · simp only [found, run, route.loadAll_eq order (length_of_peek? found), Operation.some_run]
  · simp only [missing, run]

theorem storeAll_run (r : Region) (order : ByteOrder) (offset : Nat) (vs : List (Scalar t))
    (s : Store) (h : vs.length * t.width < Word.modulus) :
    r.storeAll order offset vs s =
      match r.poke? s offset (Scalar.encodeAll order vs) with
      | some after => .ok () after
      | none => .error .trap s := by
  have product : Word.mul? vs.length t.width = some (vs.length * t.width) :=
    Word.mul?_eq_some_iff.mpr ⟨rfl, h⟩
  unfold storeAll
  simp only [Operation.bind_run, product, Operation.some_run]
  rcases r.fetch_run offset (vs.length * t.width) s with
    ⟨route, bytes, found, run⟩ | ⟨missing, run⟩
  · simp only [run, route.storeAll_eq order vs (length_of_peek? found), Operation.some_run]
    exact replace_run r offset _ s
  · have nowhere : r.poke? s offset (Scalar.encodeAll order vs) = none := by
      rw [poke?_eq_none_iff, Scalar.length_encodeAll, missing]
    simp only [run, nowhere]

theorem refusal?_eq_none_iff {r : Region} {s : Store} {access : Access} {operation : String}
    {offset n : Nat} :
    r.refusal? s access operation offset n = none ↔
      r.isValid s = true ∧ (access = .write → r.isReadOnly = false) ∧
        r.permit.allows access = true ∧ offset + n ≤ r.length := by
  unfold refusal?
  rw [Extent.check_eq]
  by_cases valid : r.isValid s = true
  · by_cases allowed : r.permit.allows access = true
    · by_cases fits : offset + n ≤ r.length
      · simp [valid, allowed, fits]
      · simp only [valid, allowed, fits, Bool.not_true, Bool.false_eq_true, if_false, and_false]
        split <;> simp
    · simp only [valid, allowed, Bool.not_true, Bool.false_eq_true, if_false]
      split <;> simp
  · simp [valid]

theorem readSlice_run (r : Region) (t : ScalarType) (offset count : Nat) (order : ByteOrder)
    (s : Store) :
    r.readSlice t offset count order s =
      if count * t.width < Word.modulus then
        match r.refusal? s .read "get" offset (count * t.width) with
        | some fault => .error (.fault fault) s
        | none =>
            if count = 0 then .ok [] s
            else
              match r.peek? s offset (count * t.width) with
              | some bytes => .ok ((chunks t.width count bytes).map (Scalar.decode t order)) s
              | none => .error .trap s
      else .error (.fault Extent.tooLong) s := by
  simp only [readSlice, Operation.bind_run, Extent.byteLength_eq]
  by_cases fits : count * t.width < Word.modulus
  · simp only [fits, if_true, Operation.accepted_run, validate_run]
    cases r.refusal? s .read "get" offset (count * t.width) with
    | some fault => rfl
    | none =>
        by_cases empty : count = 0
        · simp only [empty, if_true, Operation.pure_run]
        · simp only [empty, if_false, loadAll_run _ _ _ _ _ _ fits]
  · simp only [fits, if_false, Operation.refused_run]

theorem writeSlice_run (r : Region) (offset : Nat) (vs : List (Scalar t)) (order : ByteOrder)
    (s : Store) :
    r.writeSlice offset vs order s =
      if vs.length * t.width < Word.modulus then
        match r.refusal? s .write "put" offset (vs.length * t.width) with
        | some fault => .error (.fault fault) s
        | none =>
            if vs.length = 0 then .ok () s
            else
              match r.poke? s offset (Scalar.encodeAll order vs) with
              | some after => .ok () after
              | none => .error .trap s
      else .error (.fault Extent.tooLong) s := by
  simp only [writeSlice, Operation.bind_run, Extent.byteLength_eq]
  by_cases fits : vs.length * t.width < Word.modulus
  · simp only [fits, if_true, Operation.accepted_run, validate_run]
    cases r.refusal? s .write "put" offset (vs.length * t.width) with
    | some fault => rfl
    | none =>
        cases vs with
        | nil => rfl
        | cons v vs => simp [storeAll_run _ _ _ _ _ fits]
  · simp only [fits, if_false, Operation.refused_run]

end Region

end BoundedMemory
