import BoundedMemory.Proofs.Operation
import BoundedMemory.Region.Create

/-!
What becomes of requests for memory. The machine is asked first; what it refuses leaves
everything as it was, and what it grants is a block that is new.
-/

namespace BoundedMemory

variable {s : Store}

theorem Region.newHeap_run (what : Request) (operation : String) (size : Nat) (byte : UInt8)
    (s : Store) :
    newHeap what operation size byte s =
      match s.grants what (max size 1) with
      | .error e => .error (.fault (.os operation e)) s
      | .ok () =>
          (do
            let block ← Store.newBlock (List.replicate size byte)
            newRoot (.heap true) block 0 size : Action Store Region) s := by
  simp only [newHeap, Operation.bind_run, Operation.get_run]
  cases s.grants what (max size 1) <;> rfl

/-- Whatever is granted is no longer than the words have values. -/
theorem Store.lt_of_grants_max {what : Request} {size : Nat}
    (granted : s.grants what (max size 1) = .ok ()) : size < Word.modulus := by
  have short := s.machine.lt_modulus_of_grant granted
  omega

namespace Store

/-- The answer to a request for a page buffer. -/
def grantsBuffer (s : Store) (size : Nat) : Except OsError Unit :=
  s.grants .pages (Machine.pageCapacity s.machine.pageSize size)

/-- The store with a page buffer more, which comes last. -/
def withBuffer (size : Nat) (s : Store) : Store :=
  { s with
    blocks := s.blocks ++ [{ bytes := List.replicate size 0 }]
    buffers := s.buffers ++ [{
      block := some s.blocks.length
      length := size
      capacity := Machine.pageCapacity s.machine.pageSize size }] }

theorem withBuffer_buffer (size : Nat) (s : Store) :
    (s.withBuffer size).buffers[s.buffers.length]? = some {
      block := some s.blocks.length
      length := size
      capacity := Machine.pageCapacity s.machine.pageSize size } :=
  List.getElem?_concat_length

theorem withBuffer_block (size : Nat) (s : Store) :
    (s.withBuffer size).blocks[s.blocks.length]? = some { bytes := List.replicate size 0 } :=
  List.getElem?_concat_length

end Store

/-- A page buffer is granted, and then is given its first bytes. -/
theorem Buffer.allocateWith_run (size : Nat) (bytes : Bytes) (s : Store) :
    allocateWith size bytes s =
      match s.grantsBuffer size with
      | .error e => .error (.fault e) s
      | .ok () =>
          match (s.withBuffer size).write? s.blocks.length 0 bytes with
          | none => .error .trap (s.withBuffer size)
          | some after => .ok s.buffers.length after := by
  unfold allocateWith allocate Store.grantsBuffer
  simp only [Operation.bind_run, Operation.get_run]
  cases s.grants .pages (Machine.pageCapacity s.machine.pageSize size) with
  | error e => rfl
  | ok _ =>
      simp only [Operation.accepted_run, Operation.modifyGet_run, Operation.some_run,
        List.getElem?_concat_length]
      unfold Store.withBuffer
      cases Store.write? _ s.blocks.length 0 bytes <;> rfl

end BoundedMemory
