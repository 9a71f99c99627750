import BoundedMemory.Bytes
import BoundedMemory.ByteOrder
import BoundedMemory.Scalar

/-!
Scalars written as bytes in either order. Numbers are split into base-256
digits, least significant first or most significant first, by two separate
recursions; single bytes are moved as they are, with no regard to the order.
The main facts are that each direction undoes the other, that the two orders are
reversals of one another, and that a single byte is coded like any other number,
as its one digit.
-/

namespace BoundedMemory

/-- The `n` low digits of a number, least significant first. -/
def littleDigits : Nat → Nat → Bytes
  | 0, _ => []
  | n + 1, x => UInt8.ofNat (x % 256) :: littleDigits n (x / 256)

def ofLittleDigits : Bytes → Nat
  | [] => 0
  | b :: bs => b.toNat + 256 * ofLittleDigits bs

/-- The `n` low digits of a number, most significant first. -/
def bigDigits : Nat → Nat → Bytes
  | 0, _ => []
  | n + 1, x => UInt8.ofNat (x >>> (8 * n)) :: bigDigits n x

def ofBigDigits (bs : Bytes) : Nat :=
  bs.foldl (fun acc b => 256 * acc + b.toNat) 0

@[simp] theorem length_littleDigits (n x : Nat) : (littleDigits n x).length = n := by
  induction n generalizing x with
  | zero => rfl
  | succ n ih => simp [littleDigits, ih]

@[simp] theorem length_bigDigits (n x : Nat) : (bigDigits n x).length = n := by
  induction n with
  | zero => rfl
  | succ n ih => simp [bigDigits, ih]

theorem ofLittleDigits_lt (bs : Bytes) : ofLittleDigits bs < 1 <<< (8 * bs.length) := by
  induction bs with
  | nil => decide
  | cons b bs ih =>
    have hb := b.toNat_lt
    rw [Nat.one_shiftLeft] at ih ⊢
    rw [ofLittleDigits, List.length_cons, Nat.mul_succ, Nat.pow_add]
    omega

theorem ofLittleDigits_littleDigits (n x : Nat) :
    ofLittleDigits (littleDigits n x) = x % 1 <<< (8 * n) := by
  induction n generalizing x with
  | zero => simp [littleDigits, ofLittleDigits, Nat.mod_one]
  | succ n ih =>
    have h : x % 256 % 2 ^ 8 = x % 256 := Nat.mod_eq_of_lt (Nat.mod_lt _ (by decide))
    rw [littleDigits, ofLittleDigits, ih, UInt8.toNat_ofNat', h, Nat.one_shiftLeft,
      Nat.one_shiftLeft, Nat.mul_succ, Nat.add_comm (8 * n), Nat.pow_add, Nat.mod_mul]

theorem littleDigits_ofLittleDigits (bs : Bytes) :
    littleDigits bs.length (ofLittleDigits bs) = bs := by
  induction bs with
  | nil => rfl
  | cons b bs ih =>
    have hb := b.toNat_lt
    rw [List.length_cons, littleDigits, ofLittleDigits]
    congr 1
    · rw [Nat.add_mul_mod_self_left, Nat.mod_eq_of_lt (by simpa using hb), UInt8.ofNat_toNat]
    · rw [Nat.add_mul_div_left _ _ (by decide), Nat.div_eq_of_lt (by simpa using hb),
        Nat.zero_add, ih]

theorem ofLittleDigits_append (bs cs : Bytes) :
    ofLittleDigits (bs ++ cs) = ofLittleDigits bs + ofLittleDigits cs <<< (8 * bs.length) := by
  induction bs with
  | nil => simp [ofLittleDigits]
  | cons b bs ih =>
    rw [List.cons_append, ofLittleDigits, ofLittleDigits, ih, List.length_cons, Nat.mul_succ,
      Nat.shiftLeft_add, Nat.shiftLeft_eq _ 8]
    generalize ofLittleDigits cs <<< (8 * bs.length) = high
    omega

theorem ofBigDigits_append (bs : Bytes) (b : UInt8) :
    ofBigDigits (bs ++ [b]) = 256 * ofBigDigits bs + b.toNat := by
  simp [ofBigDigits]

/-- Read from the other end, the digits give the same number. -/
theorem ofBigDigits_eq (bs : Bytes) : ofBigDigits bs = ofLittleDigits bs.reverse := by
  have h : ∀ cs : Bytes, ofBigDigits cs.reverse = ofLittleDigits cs := by
    intro cs
    induction cs with
    | nil => rfl
    | cons c cs ih =>
      rw [List.reverse_cons, ofBigDigits_append, ih, ofLittleDigits, Nat.add_comm]
  have := h bs.reverse
  rwa [List.reverse_reverse] at this

theorem littleDigits_succ_last (n x : Nat) :
    littleDigits (n + 1) x = littleDigits n x ++ [UInt8.ofNat (x >>> (8 * n))] := by
  induction n generalizing x with
  | zero => exact congrArg (· :: []) (UInt8.toNat_inj.1 (by simp))
  | succ n ih =>
    have h : (x / 256) >>> (8 * n) = x >>> (8 * (n + 1)) := by
      rw [Nat.mul_succ, Nat.add_comm, Nat.shiftRight_add, Nat.shiftRight_eq_div_pow x 8]
    rw [littleDigits, ih, littleDigits, List.cons_append, h]

/-- The two orders are reversals of one another. -/
theorem bigDigits_eq (n x : Nat) : bigDigits n x = (littleDigits n x).reverse := by
  induction n with
  | zero => rfl
  | succ n ih =>
    rw [bigDigits, ih, littleDigits_succ_last, List.reverse_append]
    rfl

/-- The digit of a single byte is that byte. -/
theorem littleDigits_byte (v : BitVec 8) : littleDigits 1 v.toNat = [UInt8.ofBitVec v] := by
  have whole : v.toNat % 256 = v.toNat := Nat.mod_eq_of_lt v.isLt
  rw [littleDigits, littleDigits, whole]
  exact congrArg ([·]) (UInt8.ofNat_bitVecToNat v)

theorem bigDigits_byte (v : BitVec 8) : bigDigits 1 v.toNat = [UInt8.ofBitVec v] := by
  rw [bigDigits_eq, littleDigits_byte, List.reverse_singleton]

theorem ofLittleDigits_byte (b : UInt8) : BitVec.ofNat 8 (ofLittleDigits [b]) = b.toBitVec := by
  simp [ofLittleDigits]

theorem ofBigDigits_byte (b : UInt8) : BitVec.ofNat 8 (ofBigDigits [b]) = b.toBitVec := by
  rw [ofBigDigits_eq, List.reverse_singleton, ofLittleDigits_byte]

/-- The bytes of `source` in place of those of `target`, whose number must be theirs. -/
def copyOver? (source target : Bytes) : Option Bytes :=
  if target.length = source.length then some source else none

/-- `target` with another first byte, which must be there. -/
def setFirst? (byte : UInt8) : Bytes → Option Bytes
  | [] => none
  | _ :: rest => some (byte :: rest)

/-! Written as elements of one byte each, strings of bytes are what they are. -/

theorem setFirst?_eq (byte : UInt8) (target : Bytes) :
    setFirst? byte target = splice? target 0 [byte] := by
  cases target with
  | nil => rfl
  | cons first rest => simp [setFirst?, splice?, splice]

theorem copyOver?_encoded (vs : List (BitVec 8)) (target : Bytes) :
    copyOver? (vs.map UInt8.ofBitVec) target =
      if target.length = vs.length * 1 then some (vs.flatMap fun v => [UInt8.ofBitVec v])
      else none := by
  rw [copyOver?, List.length_map, Nat.mul_one, List.map_eq_flatMap]

theorem copyOver?_decoded (count : Nat) (bytes : Bytes) :
    (copyOver? bytes (List.replicate count 0)).map (List.map UInt8.toBitVec) =
      if bytes.length = count * 1 then
        some ((chunks 1 count bytes).map fun part => (part.headD 0).toBitVec)
      else none := by
  rw [copyOver?, List.length_replicate, Nat.mul_one]
  split
  case isTrue fits =>
    rw [if_pos fits.symm, fits, chunks_one, List.map_map]
    rfl
  case isFalse other =>
    rw [if_neg (Ne.symm other)]
    rfl

namespace Scalar

variable {t : ScalarType}

/-- A value as its digits, for any number of them. -/
def encodeDigits (order : ByteOrder) (v : Scalar t) : Bytes :=
  match order with
  | .littleEndian => littleDigits t.width v.toNat
  | .bigEndian => bigDigits t.width v.toNat

def decodeDigits (t : ScalarType) (order : ByteOrder) (bytes : Bytes) : Scalar t :=
  match order with
  | .littleEndian => BitVec.ofNat _ (ofLittleDigits bytes)
  | .bigEndian => BitVec.ofNat _ (ofBigDigits bytes)

/-- A single byte is its own code. -/
def encode (order : ByteOrder) (v : Scalar t) : Bytes :=
  match t, v with
  | .u8, v | .i8, v => [UInt8.ofBitVec v]
  | _, v => v.encodeDigits order

/-- The value that bytes of the type's width stand for. -/
def decode (t : ScalarType) (order : ByteOrder) (bytes : Bytes) : Scalar t :=
  match t with
  | .u8 | .i8 => (bytes.headD 0).toBitVec
  | t => decodeDigits t order bytes

/-- The value written over the start of `target`, which must have room for it. -/
def encodeInto? (order : ByteOrder) (v : Scalar t) (target : Bytes) : Option Bytes :=
  match t, v with
  | .u8, v | .i8, v => setFirst? (UInt8.ofBitVec v) target
  | _, v => splice? target 0 (v.encodeDigits order)

def encodeAll (order : ByteOrder) (vs : List (Scalar t)) : Bytes :=
  vs.flatMap (encode order)

/-- The values written over `target`, whose length must be theirs. Single bytes are
copied all at once. -/
def encodeOver? (order : ByteOrder) (vs : List (Scalar t)) (target : Bytes) : Option Bytes :=
  match t, vs with
  | .u8, vs | .i8, vs => copyOver? (vs.map UInt8.ofBitVec) target
  | t, vs =>
      if target.length = vs.length * t.width then some (vs.flatMap (encodeDigits order)) else none

/-- The `count` values that exactly fill `bytes`. -/
def decodeAll? (t : ScalarType) (order : ByteOrder) (count : Nat) (bytes : Bytes) :
    Option (List (Scalar t)) :=
  match t with
  | .u8 | .i8 => (copyOver? bytes (List.replicate count 0)).map (List.map UInt8.toBitVec)
  | t =>
      if bytes.length = count * t.width then
        some ((chunks t.width count bytes).map (decodeDigits t order))
      else none

/-! Single bytes are coded like values of any other width, as their one digit. -/

theorem encode_eq (order : ByteOrder) (v : Scalar t) : v.encode order = v.encodeDigits order := by
  cases t with
  | u8 | i8 =>
    cases order with
    | littleEndian => exact (littleDigits_byte v).symm
    | bigEndian => exact (bigDigits_byte v).symm
  | _ => rfl

theorem decode_eq (order : ByteOrder) {bytes : Bytes} (h : bytes.length = t.width) :
    decode t order bytes = decodeDigits t order bytes := by
  cases t with
  | u8 | i8 =>
    obtain ⟨b, rfl⟩ := List.length_eq_one_iff.mp h
    cases order with
    | littleEndian => exact (ofLittleDigits_byte b).symm
    | bigEndian => exact (ofBigDigits_byte b).symm
  | _ => rfl

@[simp] theorem length_encode (order : ByteOrder) (v : Scalar t) :
    (v.encode order).length = t.width := by
  rw [encode_eq]
  cases order <;> simp [encodeDigits]

@[simp] theorem length_encodeAll (order : ByteOrder) (vs : List (Scalar t)) :
    (encodeAll order vs).length = vs.length * t.width := by
  induction vs with
  | nil => simp [encodeAll]
  | cons v vs ih =>
    have : encodeAll order (v :: vs) = v.encode order ++ encodeAll order vs := rfl
    rw [this, List.length_append, ih, length_encode, List.length_cons, Nat.succ_mul, Nat.add_comm]

theorem encodeInto?_eq_splice? (order : ByteOrder) (v : Scalar t) (target : Bytes) :
    v.encodeInto? order target = splice? target 0 (v.encode order) := by
  cases t with
  | u8 | i8 => exact setFirst?_eq _ target
  | _ => rfl

/-- A list is written over a string as its codes, one behind the other. -/
theorem encodeOver?_eq (order : ByteOrder) (vs : List (Scalar t)) (target : Bytes) :
    encodeOver? order vs target =
      if target.length = vs.length * t.width then some (encodeAll order vs) else none := by
  cases t with
  | u8 | i8 => exact copyOver?_encoded vs target
  | _ => rfl

/-- A string is read as the values of its stretches. -/
theorem decodeAll?_eq (order : ByteOrder) (count : Nat) (bytes : Bytes) :
    decodeAll? t order count bytes =
      if bytes.length = count * t.width then
        some ((chunks t.width count bytes).map (decode t order))
      else none := by
  cases t with
  | u8 | i8 => exact copyOver?_decoded count bytes
  | _ => rfl

theorem encode_bigEndian (v : Scalar t) :
    v.encode .bigEndian = (v.encode .littleEndian).reverse := by
  rw [encode_eq, encode_eq]
  exact bigDigits_eq _ _

theorem decode_bigEndian {bytes : Bytes} (h : bytes.length = t.width) :
    decode t .bigEndian bytes = decode t .littleEndian bytes.reverse := by
  rw [decode_eq _ h, decode_eq _ (List.length_reverse.trans h)]
  exact congrArg (BitVec.ofNat _) (ofBigDigits_eq bytes)

theorem decode_encode (order : ByteOrder) (v : Scalar t) :
    decode t order (v.encode order) = v := by
  have little : decode t .littleEndian (v.encode .littleEndian) = v := by
    rw [decode_eq _ (length_encode _ v), encode_eq]
    apply BitVec.eq_of_toNat_eq
    have h := v.isLt
    simp only [decodeDigits, encodeDigits, ofLittleDigits_littleDigits, BitVec.toNat_ofNat,
      Nat.one_shiftLeft, Nat.mod_eq_of_lt h]
  cases order with
  | littleEndian => exact little
  | bigEndian =>
    rw [decode_bigEndian (length_encode _ v), encode_bigEndian, List.reverse_reverse, little]

theorem encode_decode (order : ByteOrder) {bytes : Bytes} (h : bytes.length = t.width) :
    (decode t order bytes).encode order = bytes := by
  have little : ∀ bs : Bytes, bs.length = t.width →
      (decode t .littleEndian bs).encode .littleEndian = bs := by
    intro bs hl
    have hb : ofLittleDigits bs < 2 ^ (8 * t.width) := by
      rw [← hl, ← Nat.one_shiftLeft]
      exact ofLittleDigits_lt bs
    rw [decode_eq _ hl, encode_eq]
    simp only [decodeDigits, encodeDigits, BitVec.toNat_ofNat, Nat.mod_eq_of_lt hb]
    rw [← hl, littleDigits_ofLittleDigits]
  cases order with
  | littleEndian => exact little bytes h
  | bigEndian =>
    rw [decode_bigEndian h, encode_bigEndian, little _ (by simpa using h), List.reverse_reverse]

/-- A single byte is the same in either order. -/
theorem encode_of_width_one (h : t.width = 1) (v : Scalar t) (order : ByteOrder) :
    v.encode order = v.encode .native := by
  cases order with
  | littleEndian => rfl
  | bigEndian =>
    obtain ⟨b, hb⟩ := List.length_eq_one_iff.mp (h ▸ length_encode .littleEndian v)
    rw [encode_bigEndian, ByteOrder.native, hb]
    rfl

theorem decode_of_width_one (h : t.width = 1) (order : ByteOrder) {bytes : Bytes}
    (hb : bytes.length = t.width) : decode t order bytes = decode t .native bytes := by
  cases order with
  | littleEndian => rfl
  | bigEndian =>
    obtain ⟨b, rfl⟩ := List.length_eq_one_iff.mp (hb.trans h)
    rw [decode_bigEndian hb]
    rfl

end Scalar

end BoundedMemory
