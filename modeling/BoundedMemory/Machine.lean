import BoundedMemory.OsError
import BoundedMemory.Word

/-!
The machine below, as far as anything is asked of it: how large its pages are,
and whether it has memory to give. Its answers may change with every block that
is taken or given back. They are open here; what is assumed of them is only that
memory which is granted has addresses, and that a request for no pages is refused.
-/

namespace BoundedMemory

/-- Where memory is asked for. -/
inductive Request where
  /-- The process heap, whatever the block then holds. -/
  | heap
  /-- The process heap, for a block of zeros. -/
  | zeroedHeap
  /-- The system, for whole pages of zeros. -/
  | pages

/-- How long a block is, and how often it was given back. -/
abbrev BlockShape := Nat × Nat

structure Machine where
  pageSize : Nat
  isPowerOfTwo_pageSize : pageSize.isPowerOfTwo
  /-- The answer to a request for so many bytes, with these blocks taken before. -/
  grant : (what : Request) → (taken : List BlockShape) → (size : Nat) → Except OsError Unit
  /-- Whether there is memory for a segment of so many bytes. -/
  hasRoom : (size : Nat) → Bool
  lt_modulus_of_grant :
    ∀ {what taken size}, grant what taken size = .ok () → size < Word.modulus
  grant_no_pages : ∀ taken, grant .pages taken 0 ≠ .ok ()

namespace Machine

/-- `size` rounded up to whole pages, at least one, by masking on words. -/
def pageCapacity (page size : Nat) : Nat :=
  let mask := BitVec.ofNat 64 page - 1
  ((BitVec.ofNat 64 (max size 1) + mask) &&& ~~~mask).toNat

/-- Grants whatever stays below a limit, but for no pages. -/
def grantBelow (limit : Nat) (what : Request) (size : Nat) : Except OsError Unit :=
  match what, size with
  | .pages, 0 => .error .invalid
  | _, size => if size < limit then .ok () else .error .outOfMemory

theorem lt_of_grantBelow {limit size : Nat} {what : Request}
    (granted : grantBelow limit what size = .ok ()) : size < limit := by
  unfold grantBelow at granted
  split at granted
  · cases granted
  · split at granted
    · assumption
    · cases granted

theorem grantBelow_pages {limit size : Nat} (nonzero : size ≠ 0) (below : size < limit) :
    grantBelow limit .pages size = .ok () := by
  unfold grantBelow
  split
  · contradiction
  · exact if_pos below

/-- The machine with pages of `2 ^ k` bytes and as much memory as there is below a limit. -/
def below (k limit : Nat) (short : limit ≤ Word.modulus) : Machine where
  pageSize := 1 <<< k
  isPowerOfTwo_pageSize := ⟨k, Nat.one_shiftLeft k⟩
  grant what _ size := grantBelow limit what size
  hasRoom size := size < limit
  lt_modulus_of_grant granted := Nat.lt_of_lt_of_le (lt_of_grantBelow granted) short
  grant_no_pages _ := nofun

end Machine

end BoundedMemory
