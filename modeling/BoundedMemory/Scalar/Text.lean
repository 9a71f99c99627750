import BoundedMemory.Bytes.Text
import BoundedMemory.Scalar

/-!
Scalars in text. Integers are written in decimal, floating-point values as the
hexadecimal digits of their bit pattern, so that every value has one form.
Reading takes more: leading zeros, a plus sign, and digits in capitals.
-/

namespace BoundedMemory

/-- How the values of a type are written. -/
inductive ScalarType.Form where
  | unsigned
  | signed
  | pattern

def ScalarType.written : ScalarType → ScalarType.Form
  | .u8 | .u16 | .u32 | .u64 => .unsigned
  | .i8 | .i16 | .i32 | .i64 => .signed
  | .f32 | .f64 => .pattern

namespace Scalar

variable {t : ScalarType}

def text (v : Scalar t) : String :=
  match t.written with
  | .unsigned => toString v.toNat
  | .signed => toString v.toInt
  | .pattern => "0x" ++ String.ofList (hexDigits (2 * t.width) v.toNat)

def digitsValue? (base : Nat) (digits : List Char) : Option Nat :=
  if digits.isEmpty then none
  else digits.foldlM (fun acc c => do
    let d ← hexValue? c
    if d < base then some (base * acc + d) else none) 0

def natural? (base : Nat) : List Char → Option Nat
  | '+' :: digits => digitsValue? base digits
  | digits => digitsValue? base digits

def integer? : List Char → Option Int
  | '-' :: digits => (digitsValue? 10 digits).map fun n => -(n : Int)
  | digits => (natural? 10 digits).map Int.ofNat

/-- The value of type `t` that a text spells; none where the text is no number
or its number no value of the type. -/
def ofText? (t : ScalarType) (text : String) : Option (Scalar t) :=
  let bound : Nat := 1 <<< (8 * t.width)
  match t.written with
  | .unsigned => do
      let x ← natural? 10 text.toList
      if x < bound then some (BitVec.ofNat _ x) else none
  | .signed => do
      let x ← integer? text.toList
      if -(bound : Int) ≤ 2 * x ∧ 2 * x < bound then some (BitVec.ofInt _ x) else none
  | .pattern =>
      match text.toList with
      | '0' :: 'x' :: digits => do
          let x ← natural? 16 digits
          if x < bound then some (BitVec.ofNat _ x) else none
      | _ => none

end Scalar

end BoundedMemory
