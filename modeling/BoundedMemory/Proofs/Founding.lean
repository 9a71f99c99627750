import BoundedMemory.Proofs.Making
import BoundedMemory.Proofs.Settling

/-!
Makings that have an outcome. Whatever is asked for, a making is refused or gives a
region that is all of a root; heap memory can be filled as soon as it is there, and a page
buffer has room for what it begins with.
-/

namespace BoundedMemory

open Operation (Settles settles_iff)

variable {s s' : Store}

namespace Region

variable {r : Region} {P : Store → Prop}

theorem Fits.resembles (fits : r.Fits s) (alike : s.Resembles s') : r.Fits s' := by
  obtain ⟨root, found, inside⟩ := fits
  exact ⟨root, alike.roots ▸ found, inside⟩

/-- A new region is all of its root. -/
theorem newRoot_settles (backing : Backing) (block : BlockId) (base length : Nat) :
    Settles (fun r t => r.Fits t) P (newRoot backing block base length) s :=
  settles_iff.mpr ⟨_, List.getElem?_concat_length, Nat.le_of_eq (Nat.zero_add _)⟩

private theorem newBlock_settles (bytes : Bytes) :
    Settles (fun _ _ => True) P (Store.newBlock bytes : Action Store BlockId) s :=
  settles_iff.mpr trivial

theorem ofBytes_settles (bytes : Bytes) :
    Settles (fun r t => r.Fits t) (fun _ => True) (ofBytes bytes) s :=
  (newBlock_settles bytes).bind fun _ _ _ => newRoot_settles _ _ _ _

theorem ofBytesWithin_settles (bytes : Bytes) (offset length : Nat) :
    Settles (fun r t => r.Fits t) (fun _ => True) (ofBytesWithin bytes offset length) s :=
  .check trivial fun _ _ => (newBlock_settles bytes).bind fun _ _ _ => newRoot_settles _ _ _ _

/-- Heap memory is there once it was granted. -/
theorem newHeap_settles (what : Request) (operation : String) (size : Nat) (byte : UInt8) :
    Settles (fun r t => r.Fits t ∧ r.Served t) (fun _ => True) (newHeap what operation size byte)
      s := by
  rw [settles_iff, newHeap_run]
  cases granted : s.grants what (max size 1) with
  | error e => exact ⟨nofun, trivial⟩
  | ok _ =>
      have words := Store.lt_of_grants_max granted
      have found (root : Root) : (s.roots ++ [root])[s.roots.length]? = some root :=
        List.getElem?_concat_length
      have stored :
          (s.blocks ++ [({ bytes := List.replicate size byte } : Block)])[s.blocks.length]? =
            some { bytes := List.replicate size byte } :=
        List.getElem?_concat_length
      refine ⟨⟨_, found _, Nat.le_of_eq (Nat.zero_add _)⟩, ?_, ?_⟩
      · show 0 + size < Word.modulus
        omega
      · intro offset n _ fits _
        have fits : offset + n ≤ size := fits
        have whole : (List.replicate size byte).length = size := List.length_replicate
        refine ⟨_, _, found _, stored, rfl, rfl, rfl, ?_, ?_, ?_, ?_⟩
        · show 0 + offset + n ≤ size
          omega
        · show 0 + (0 + offset) + n ≤ (List.replicate size byte).length
          omega
        · show 0 + offset + n < Word.modulus
          omega
        · show 0 + (0 + offset) < Word.modulus
          omega

theorem clear_settles (served : r.Served s) (byte : UInt8) (offset length : Nat) :
    Settles (fun _ t => s.Resembles t) (· = s) (r.clear byte offset length) s := by
  have cleared := Transfer.settles served (.clear byte length) offset
  rw [settles_iff, clear_run]
  cases run : (Transfer.clear byte length).run r offset s with
  | ok _ t => exact (cleared.answer run).2
  | error e t => exact cleared.fault run

theorem allocate_clear_settles (size : Nat) (byte : UInt8) :
    Settles (fun r t => r.Fits t) (fun _ => True) (do
      let r ← allocate size
      r.clearAll byte
      pure r) s := by
  refine (newHeap_settles .heap "allocate" size 0).bind fun r t taken => ?_
  refine ((clear_settles taken.2 byte 0 r.length).mono (fun _ _ alike => alike) ?_).bind
    fun _ u alike => ?_
  · exact fun _ _ => trivial
  · exact .pure (taken.1.resembles alike)

private theorem resolveAddress_settles (b : Buffer) :
    Settles (fun _ _ => True) (fun _ => True) (resolveAddress b) s := by
  rw [settles_iff, resolveAddress_run]
  cases b.block with
  | some block => trivial
  | none =>
      by_cases empty : b.length = 0
      · simp only [if_pos empty]
      · simp only [if_neg empty]
        exact ⟨(by simp), trivial⟩

variable {id : BufferId} {b : Buffer}

theorem wrap_settles (found : s.buffers[id]? = some b) :
    Settles (fun r t => r.Fits t) (fun _ => True) (wrap id) s :=
  .get <| .defined found <| (resolveAddress_settles b).bind fun _ _ _ => newRoot_settles _ _ _ _

theorem wrapWithin_settles (found : s.buffers[id]? = some b) (offset length : Nat) :
    Settles (fun r t => r.Fits t) (fun _ => True) (wrapWithin id offset length) s :=
  .get <| .defined found <| (resolveAddress_settles b).bind fun _ _ _ =>
    .check trivial fun _ _ => newRoot_settles _ _ _ _

/-- What is attached to is there. -/
private theorem look_settles (key : SegmentKey) (size : Nat) (flags : SegmentFlags)
    (destroys : Bool) :
    Settles (fun a t => ∃ g, t.segments[a.segment]? = some g) (fun _ => True)
      (look key size flags destroys) s := by
  rw [settles_iff, look_run]
  cases Store.findSegment key size flags s with
  | error e s₁ => exact ⟨(by simp), trivial⟩
  | ok id s₁ =>
      rcases Store.mapSegment_cases id s₁ with ⟨e, map⟩ | ⟨g, found, -, -, map⟩
      · simp only [map]
        exact ⟨(by simp), trivial⟩
      · simp only [map]
        exact ⟨g, found⟩

private theorem ofAttachment_settles (key : SegmentKey) (size : Nat) (flags : SegmentFlags)
    (destroys : Bool) :
    Settles (fun r t => r.Fits t) (fun _ => True)
      (ofAttachment size (look key size flags destroys)) s := by
  refine (look_settles key size flags destroys).bind fun a t there => ?_
  obtain ⟨g, found⟩ := there
  exact .get <| .defined found <| newRoot_settles _ _ _ _

theorem attachSegment_settles (key : SegmentKey) (options : SegmentOptions) :
    Settles (fun r t => r.Fits t) (fun _ => True) (attachSegment key options) s :=
  ofAttachment_settles key options.size options.flags false

theorem createSegment_settles (key : SegmentKey) (options : SegmentOptions) :
    Settles (fun r t => r.Fits t) (fun _ => True) (createSegment key options) s :=
  ofAttachment_settles key options.size (options.flags ||| SegmentFlags.create)
    (!options.persistent)

end Region

/-- Bytes that a page buffer has room for are written at its start once it is granted. -/
theorem Buffer.allocateWith_granted {size : Nat} {bytes : Bytes} (fits : bytes.length ≤ size)
    (granted : s.grantsBuffer size = .ok ()) :
    ∃ after, allocateWith size bytes s = .ok s.buffers.length after := by
  have within : 0 + bytes.length ≤ (List.replicate size (0 : UInt8)).length := by
    rw [List.length_replicate]
    omega
  have written : (s.withBuffer size).write? s.blocks.length 0 bytes = some _ :=
    Store.write?_eq_some_iff.mpr ⟨_, s.withBuffer_block size, rfl, within, rfl⟩
  rw [allocateWith_run, granted]
  simp only [written]
  exact ⟨_, rfl⟩

theorem Buffer.allocateWith_settles {size : Nat} {bytes : Bytes} (fits : bytes.length ≤ size) :
    Settles (fun _ _ => True) (fun _ => True) (allocateWith size bytes) s := by
  rw [settles_iff]
  cases granted : s.grantsBuffer size with
  | error e =>
      rw [allocateWith_run, granted]
      exact ⟨nofun, trivial⟩
  | ok _ =>
      obtain ⟨after, run⟩ := allocateWith_granted fits granted
      rw [run]
      trivial

end BoundedMemory
