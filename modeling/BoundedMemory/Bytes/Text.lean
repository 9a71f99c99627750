import BoundedMemory.Bytes

/-!
Byte strings in text: lower-case hexadecimal, and for long strings a
fingerprint, the 64-bit FNV-1a hash.
-/

namespace BoundedMemory

/-- The `n` low hexadecimal digits of a number, most significant first. -/
def hexDigits : Nat → Nat → List Char
  | 0, _ => []
  | n + 1, x => Nat.digitChar (x >>> (4 * n) % 16) :: hexDigits n x

def hexValue? (c : Char) : Option Nat :=
  if '0' ≤ c ∧ c ≤ '9' then some (c.toNat - 48)
  else if 'a' ≤ c ∧ c ≤ 'f' then some (c.toNat - 87)
  else if 'A' ≤ c ∧ c ≤ 'F' then some (c.toNat - 55)
  else none

namespace Bytes

def toHex (bytes : Bytes) : String :=
  String.ofList (bytes.flatMap fun b => hexDigits 2 b.toNat)

/-- The bytes that pairs of hexadecimal digits spell. -/
def ofHexDigits? : List Char → Option Bytes
  | [] => some []
  | high :: low :: rest => do
      let h ← hexValue? high
      let l ← hexValue? low
      let bytes ← ofHexDigits? rest
      pure (UInt8.ofNat (16 * h + l) :: bytes)
  | [_] => none

def ofHex? (text : String) : Option Bytes := ofHexDigits? text.toList

/-- The 64-bit FNV-1a hash: each byte is mixed in before the multiplication. -/
def fnv1a (bytes : Bytes) : UInt64 :=
  bytes.foldl (fun hash b => (hash ^^^ b.toUInt64) * 0x100000001b3) 0xcbf29ce484222325

def fingerprint (bytes : Bytes) : String :=
  s!"fnv:{bytes.length}:" ++ String.ofList (hexDigits 16 (fnv1a bytes).toNat)

/-- The longest byte string that is shown in full. -/
def shownInFull : Nat := 64

/-- A byte string for display, in full or by its fingerprint. -/
def digest (bytes : Bytes) : String :=
  if bytes.length ≤ shownInFull then toHex bytes else fingerprint bytes

end Bytes

end BoundedMemory
