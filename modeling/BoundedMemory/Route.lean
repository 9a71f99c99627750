import BoundedMemory.Elements
import BoundedMemory.Scalar.Native

/-!
The two routes by which scalars enter and leave raw memory. Arrays are
converted by the codec, all other memory is accessed at the width of the
machine. Each function is given the bytes of exactly the range it works on;
where a route demands lengths that do not agree, the step is undefined. Where
they agree the two routes cannot be told apart.
-/

namespace BoundedMemory

inductive Route where
  | codec
  | native
  deriving DecidableEq, Repr

namespace Route

def load (route : Route) (t : ScalarType) (order : ByteOrder) (bytes : Bytes) : Scalar t :=
  match route with
  | .codec => Scalar.decode t order bytes
  | .native => (Scalar.ofNative t bytes).toOrder order

/-- The range after a scalar was written over it. -/
def store {t : ScalarType} (route : Route) (order : ByteOrder) (v : Scalar t)
    (target : Bytes) : Option Bytes :=
  match route with
  | .codec => v.encodeInto? order target
  | .native => some (v.toOrder order).toNative

def loadAll (route : Route) (t : ScalarType) (order : ByteOrder) (count : Nat)
    (bytes : Bytes) : Option (List (Scalar t)) :=
  match route with
  | .codec => Scalar.decodeAll? t order count bytes
  | .native =>
      let blank := List.replicate (count * t.width) 0
      let here := copyElementsTo bytes blank t.width count order .native
      some ((chunks t.width count here).map (Scalar.ofNative t))

/-- The range after scalars were written over it one after another. -/
def storeAll {t : ScalarType} (route : Route) (order : ByteOrder) (vs : List (Scalar t))
    (target : Bytes) : Option Bytes :=
  match route with
  | .codec => Scalar.encodeOver? order vs target
  | .native =>
      some (copyElementsTo (vs.flatMap Scalar.toNative) target t.width vs.length .native order)

/-- Only single bytes are the same in both orders. -/
private theorem width_of_keepsBytes {t : ScalarType} {source target : ByteOrder}
    (keeps : keepsBytes t.width source target = true) (differ : source ≠ target) :
    t.width = 1 := by
  have := t.width_pos
  simp [keepsBytes, differ] at keeps
  omega

/-- Where the lengths agree, both routes read the same value. -/
theorem native_load_eq {t : ScalarType} (order : ByteOrder) {bytes : Bytes}
    (h : bytes.length = t.width) : native.load t order bytes = codec.load t order bytes :=
  Scalar.toOrder_ofNative order h

theorem native_store_eq {t : ScalarType} (order : ByteOrder) (v : Scalar t) {target : Bytes}
    (h : target.length = t.width) : native.store order v target = codec.store order v target := by
  simp [store, Scalar.encodeInto?_eq_splice?, splice?, splice, Scalar.toNative_toOrder, h]

theorem native_loadAll_eq {t : ScalarType} (order : ByteOrder) {count : Nat} {bytes : Bytes}
    (h : bytes.length = count * t.width) :
    native.loadAll t order count bytes = codec.loadAll t order count bytes := by
  simp only [loadAll, Scalar.decodeAll?_eq, h, if_true, Option.some.injEq]
  rw [copyElementsTo_eq h List.length_replicate, chunks_convert order .native (Nat.le_of_eq h.symm)]
  cases order with
  | littleEndian => rfl
  | bigEndian =>
    split
    · rename_i keeps
      apply List.map_congr_left
      intro part member
      exact (Scalar.decode_of_width_one (width_of_keepsBytes keeps (by decide)) .bigEndian
        (length_of_mem_chunks (Nat.le_of_eq h.symm) member)).symm
    · rw [List.map_map]
      apply List.map_congr_left
      intro part member
      exact (Scalar.decode_bigEndian (length_of_mem_chunks (Nat.le_of_eq h.symm) member)).symm

theorem native_storeAll_eq {t : ScalarType} (order : ByteOrder) (vs : List (Scalar t))
    {target : Bytes} (h : target.length = vs.length * t.width) :
    native.storeAll order vs target = codec.storeAll order vs target := by
  have parts : chunks t.width vs.length (vs.flatMap Scalar.toNative) =
      vs.map Scalar.toNative := by
    rw [List.flatMap_def, ← List.length_map Scalar.toNative]
    apply chunks_flatten
    intro part member
    obtain ⟨v, _, rfl⟩ := List.mem_map.mp member
    exact Scalar.length_encode .native v
  have long : (vs.flatMap Scalar.toNative).length = vs.length * t.width :=
    Scalar.length_encodeAll .native vs
  simp only [storeAll, Scalar.encodeOver?_eq, h, if_true, Option.some.injEq]
  rw [copyElementsTo_eq long h, convert, parts]
  have whole : (vs.flatMap Scalar.toNative).take (vs.length * t.width) =
      vs.flatMap Scalar.toNative :=
    List.take_of_length_le (Nat.le_of_eq long)
  rw [whole]
  cases order with
  | littleEndian => rfl
  | bigEndian =>
    split
    · rename_i keeps
      unfold Scalar.encodeAll
      congr 1
      funext v
      exact (Scalar.encode_of_width_one (width_of_keepsBytes keeps (by decide)) v .bigEndian).symm
    · rw [List.flatMap_map]
      unfold Scalar.encodeAll
      congr 1
      funext v
      exact (Scalar.encode_bigEndian v).symm

end Route

end BoundedMemory
