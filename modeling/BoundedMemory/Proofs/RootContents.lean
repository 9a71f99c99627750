import BoundedMemory.Proofs.Granting
import BoundedMemory.Proofs.Release
import BoundedMemory.Proofs.Transfer

/-!
What a root holds, whatever stands behind it. `Store.Serves` says that the memory
of a root is there with given bytes; reading a range of the root is then cutting
these bytes, writing one is splicing into them, and a release ends it.
-/

namespace BoundedMemory

section Lists

variable {α : Type}

/-- Writing inside of a range changes the range as it would change it alone. -/
theorem cut_splice_inside {xs ys : List α} {start offset n : Nat} (inside : offset + ys.length ≤ n)
    (whole : start + n ≤ xs.length) :
    cut (splice xs (start + offset) ys) start n = splice (cut xs start n) offset ys := by
  have length := length_cut whole
  apply List.ext_getElem?
  intro i
  rw [getElem?_cut, getElem?_splice (by omega), getElem?_splice (by omega), getElem?_cut]
  by_cases below : i < n
  · simp only [below, if_true]
    by_cases written : offset ≤ i ∧ i < offset + ys.length
    · rw [if_pos (by omega), if_pos written]
      congr 1
      omega
    · rw [if_neg (by omega), if_neg written]
  · rw [if_neg below, if_neg (by omega), if_neg below]

end Lists

/-- The memory of a root is there, and holds `bytes`. All of it has addresses, and
where it is a segment its attachment was not released before. -/
structure Store.Serves (s : Store) (id : RootId) (bytes : Bytes) : Prop where
  contents : s.contents? id = some bytes
  addresses (root : Root) (found : s.roots[id]? = some root) :
    root.base + root.length < Word.modulus
  unreleased (root : Root) (attachment : Attachment) (found : s.roots[id]? = some root)
    (behind : root.backing = .segment attachment) : attachment.released = false

/-- The root was released; its length can still be asked for. -/
def Store.Ended (s : Store) (id : RootId) (length : Nat) : Prop :=
  ∃ root, s.roots[id]? = some root ∧ root.isValid = false ∧ root.length = length

namespace Store.Serves

variable {s : Store} {id : RootId} {bytes : Bytes}

theorem contents_eq_some_iff :
    s.contents? id = some bytes ↔
      ∃ root b, s.roots[id]? = some root ∧ s.blocks[root.block]? = some b ∧
        root.isValid = true ∧ s.isMapped root = true ∧ b.live = true ∧
        root.length < Word.modulus ∧ root.base < Word.modulus ∧
        root.base + root.length ≤ b.bytes.length ∧ bytes = cut b.bytes root.base root.length := by
  simp only [contents?, Option.bind_eq_bind, Option.bind_eq_some_iff, Prod.exists]
  constructor
  · rintro ⟨root, found, root', start, place, content⟩
    obtain ⟨-, valid, mapped, -, short, rfl, low⟩ := Store.place?_eq_some_iff.mp place
    obtain ⟨b, stored, live, inside, rfl⟩ := Store.read?_eq_some_iff.mp content
    obtain ⟨found', -⟩ := Store.place?_eq_some_iff.mp place
    rw [found, Option.some.injEq] at found'
    subst found'
    exact ⟨root, b, found, stored, valid, mapped, live, by omega, low, by omega, rfl⟩
  · rintro ⟨root, b, found, stored, valid, mapped, live, short, low, inside, rfl⟩
    refine ⟨root, found, root, root.base, ?_, ?_⟩
    · exact Store.place?_eq_some_iff.mpr
        ⟨found, valid, mapped, by omega, by omega, rfl, low⟩
    · exact Store.read?_eq_some_iff.mpr ⟨b, stored, live, inside, rfl⟩

theorem length (h : s.Serves id bytes) {root : Root} (found : s.roots[id]? = some root) :
    root.length = bytes.length := by
  obtain ⟨root', b, found', -, -, -, -, -, -, inside, rfl⟩ := contents_eq_some_iff.mp h.contents
  rw [found, Option.some.injEq] at found'
  subst found'
  exact (length_cut inside).symm

theorem isValid (h : s.Serves id bytes) : s.isValid id = true := by
  obtain ⟨root, -, found, -, valid, -⟩ := contents_eq_some_iff.mp h.contents
  simp only [Store.isValid, found, valid]

/-- A region of the root reaches the memory behind each of its ranges. -/
theorem reaches (h : s.Serves id bytes) {r : Region} (rooted : r.root = id) {offset n : Nat}
    (inside : r.base + offset + n ≤ bytes.length) :
    ∃ root b, r.Reaches s offset n root b ∧ root.base + root.length ≤ b.bytes.length ∧
      bytes = cut b.bytes root.base root.length := by
  obtain ⟨root, b, found, stored, valid, mapped, live, short, low, whole, content⟩ :=
    contents_eq_some_iff.mp h.contents
  have length := h.length found
  have far := h.addresses root found
  refine ⟨root, b, ?_, whole, content⟩
  exact {
    found := by rw [rooted, found]
    stored
    valid
    mapped
    live
    inRoot := by omega
    inBlock := by omega
    stopFits := by omega
    startFits := by omega }

theorem peek? (h : s.Serves id bytes) {r : Region} (rooted : r.root = id) {offset n : Nat}
    (inside : r.base + offset + n ≤ bytes.length) :
    r.peek? s offset n = some (cut bytes (r.base + offset) n) := by
  obtain ⟨root, b, reach, whole, rfl⟩ := h.reaches rooted inside
  refine Region.peek?_eq_some_iff.mpr ⟨root, b, reach, ?_⟩
  exact cut_cut reach.inRoot

theorem poke? (h : s.Serves id bytes) {r : Region} (rooted : r.root = id) {offset : Nat}
    {payload : Bytes} (inside : r.base + offset + payload.length ≤ bytes.length) :
    ∃ after, r.poke? s offset payload = some after ∧
      after.Serves id (splice bytes (r.base + offset) payload) := by
  obtain ⟨root, b, reach, whole, content⟩ := h.reaches rooted inside
  have found : s.roots[id]? = some root := rooted ▸ reach.found
  refine ⟨_, Region.poke?_eq_some_iff.mpr ⟨root, b, reach, rfl⟩, ?_⟩
  obtain ⟨root', -, found', -, -, -, -, short, low, -⟩ := contents_eq_some_iff.mp h.contents
  rw [found, Option.some.injEq] at found'
  subst found'
  constructor
  · refine contents_eq_some_iff.mpr ⟨root, _, found,
      Store.getElem?_setBytes_same reach.stored, reach.valid, reach.mapped, reach.live, short, low,
      ?_, ?_⟩
    · rw [length_splice reach.inBlock]
      exact whole
    · rw [content]
      exact (cut_splice_inside reach.inRoot whole).symm
  · exact h.addresses
  · exact h.unreleased

end Store.Serves

namespace Store

variable {s : Store} {id : RootId} {bytes : Bytes} {length : Nat}

theorem getElem?_setBacking_same {root : Root} (found : s.roots[id]? = some root)
    (backing : Backing) : (s.setBacking id backing).roots[id]? = some { root with backing } := by
  simp [setBacking, found]

theorem setBacking_ended {root : Root} {backing : Backing} (found : s.roots[id]? = some root)
    (invalid : ({ root with backing } : Root).isValid = false) :
    (s.setBacking id backing).Ended id root.length :=
  ⟨{ root with backing }, getElem?_setBacking_same found backing, invalid, rfl⟩

/-- A release that the system does not stop ends a root of any kind, now or before. -/
theorem releaseRoot_ends {root : Root} (found : s.roots[id]? = some root)
    (standing : ∀ a, root.backing = .segment a →
      a.attached = false ∨ a.released = false ∧ s.Detachable a) :
    ∃ after, releaseRoot id s = .ok () after ∧ after.Ended id root.length := by
  rw [releaseRoot_run, found]
  cases backing : root.backing with
  | array valid =>
      simp only [backing]
      exact ⟨_, rfl, setBacking_ended found rfl⟩
  | heap valid =>
      simp only [backing]
      cases valid with
      | true => exact ⟨_, rfl, setBacking_ended found rfl⟩
      | false =>
          refine ⟨_, rfl, root, found, ?_, rfl⟩
          simp [Root.isValid, backing]
  | buffer buffer valid =>
      simp only [backing]
      exact ⟨_, rfl, setBacking_ended found rfl⟩
  | segment a =>
      obtain ⟨s', removed, run, roots, -⟩ := release_ends (standing a backing)
      simp only [backing, run]
      exact ⟨_, rfl, setBacking_ended (roots ▸ found) rfl⟩

theorem Serves.release (h : s.Serves id bytes) :
    ∃ after, releaseRoot id s = .ok () after ∧ after.Ended id bytes.length := by
  obtain ⟨root, b, found, -, valid, mapped, -⟩ := Serves.contents_eq_some_iff.mp h.contents
  rw [← h.length found]
  apply releaseRoot_ends found
  intro a behind
  refine .inr ⟨h.unreleased root a found behind, .inr ?_⟩
  simp only [isMapped, behind] at mapped
  cases mapping : s.mappings[a.mapping]? with
  | none => simp [mapping] at mapped
  | some m =>
      obtain ⟨segment, live⟩ := m
      simp only [mapping] at mapped
      exact ⟨segment, by rw [mapped]⟩

theorem Ended.release (h : s.Ended id length) :
    ∃ after, releaseRoot id s = .ok () after ∧ after.Ended id length := by
  obtain ⟨root, found, invalid, rfl⟩ := h
  apply releaseRoot_ends found
  intro a behind
  left
  simpa only [Root.isValid, behind] using invalid

theorem Ended.isValid (h : s.Ended id length) : s.isValid id = false := by
  obtain ⟨root, found, invalid, -⟩ := h
  simp only [Store.isValid, found, invalid]

end Store

namespace Region

variable {s : Store}

/-- A new root over memory that is there serves its part of it. -/
theorem newRoot_serves (backing : Backing) (base length : Nat) {block : BlockId} {b : Block}
    (stored : s.blocks[block]? = some b) (live : b.live = true)
    (inside : base + length ≤ b.bytes.length) (addresses : base + length < Word.modulus)
    (valid : ({ backing, block, base, length } : Root).isValid = true)
    (mapped : s.isMapped { backing, block, base, length } = true)
    (unreleased : ∀ a, backing = .segment a → a.released = false) :
    ∃ after, newRoot backing block base length s = .ok (.ofRoot s.roots.length length) after ∧
      after.Serves s.roots.length (cut b.bytes base length) := by
  let root : Root := { backing, block, base, length }
  let after : Store := { s with roots := s.roots ++ [root] }
  have found : after.roots[s.roots.length]? = some root := List.getElem?_concat_length
  have short : length < Word.modulus := by omega
  have low : base < Word.modulus := by omega
  refine ⟨after, rfl, ?_, ?_, ?_⟩
  · exact Store.Serves.contents_eq_some_iff.mpr
      ⟨root, b, found, stored, valid, mapped, live, short, low, inside, rfl⟩
  · intro root' found'
    rw [found] at found'
    cases found'
    exact addresses
  · intro root' a found' behind
    rw [found] at found'
    cases found'
    exact unreleased a behind

/-- The store with one more block. -/
private def withBlock (s : Store) (bytes : Bytes) : Store :=
  { s with blocks := s.blocks ++ [{ bytes }] }

private theorem withBlock_newest (s : Store) (bytes : Bytes) :
    (withBlock s bytes).blocks[s.blocks.length]? = some { bytes } :=
  List.getElem?_concat_length

theorem ofBytesWithin_serves {bytes : Bytes} {offset length : Nat}
    (inside : offset + length ≤ bytes.length) (addresses : bytes.length < Word.modulus) :
    ∃ id after, ofBytesWithin bytes offset length s = .ok (.ofRoot id length) after ∧
      after.Serves id (cut bytes offset length) := by
  obtain ⟨after, run, serves⟩ := newRoot_serves (.array true) offset length
    (withBlock_newest s bytes) rfl inside (by omega) rfl rfl fun a behind => by cases behind
  refine ⟨s.roots.length, after, ?_, serves⟩
  unfold ofBytesWithin
  rw [Extent.check_eq, if_pos inside]
  exact run

theorem newHeap_serves {what : Request} {operation : String} {size : Nat} {byte : UInt8}
    (granted : s.grants what (max size 1) = .ok ()) :
    ∃ id after, newHeap what operation size byte s = .ok (.ofRoot id size) after ∧
      after.Serves id (List.replicate size byte) := by
  have short : 0 + size < Word.modulus := by
    rw [Nat.zero_add]
    exact Store.lt_of_grants_max granted
  have whole : 0 + size ≤ (List.replicate size byte).length := by simp
  obtain ⟨after, run, serves⟩ := newRoot_serves (.heap true) 0 size
    (withBlock_newest s (List.replicate size byte)) rfl whole short rfl rfl
    fun a behind => by cases behind
  refine ⟨s.roots.length, after, ?_, ?_⟩
  · rw [newHeap_run, granted]
    exact run
  · have all : cut (List.replicate size byte) 0 size = List.replicate size byte := by
      simp [cut]
    rw [← all]
    exact serves

/-- Any range of a buffer with an address can be wrapped. -/
theorem wrapWithin_run {id : BufferId} {buffer : Buffer} {block : BlockId} {offset length : Nat}
    (found : s.buffers[id]? = some buffer) (placed : buffer.block = some block)
    (fits : offset + length ≤ buffer.length) :
    wrapWithin id offset length s = newRoot (.buffer id true) block offset length s := by
  simp only [wrapWithin, resolveAddress, Operation.bind_run, Operation.get_run, found,
    Operation.some_run, placed, Operation.pure_run, Extent.check_eq, fits, if_true,
    Operation.accepted_run]

/-- A buffer is wrapped where its memory lies, wherever that is. -/
theorem wrapWithin_serves {id : BufferId} {buffer : Buffer} {block : BlockId} {b : Block}
    {offset length : Nat} (found : s.buffers[id]? = some buffer)
    (placed : buffer.block = some block) (stored : s.blocks[block]? = some b)
    (live : b.live = true) (fits : offset + length ≤ buffer.length)
    (whole : buffer.length ≤ b.bytes.length) (addresses : buffer.length < Word.modulus) :
    ∃ id' after, wrapWithin id offset length s = .ok (.ofRoot id' length) after ∧
      after.Serves id' (cut b.bytes offset length) := by
  obtain ⟨after, run, serves⟩ := newRoot_serves (.buffer id true) offset length stored live
    (by omega) (by omega) rfl rfl fun a behind => by cases behind
  exact ⟨s.roots.length, after, (wrapWithin_run found placed fits).trans run, serves⟩

theorem ofAttachment_run {size : Nat} {attach : Action Store Attachment} {a : Attachment}
    {s' : Store} {g : Segment} (attaches : attach s = .ok a s')
    (found : s'.segments[a.segment]? = some g) :
    ofAttachment size attach s = newRoot (.segment a) g.block 0 size s' := by
  simp only [ofAttachment, Operation.bind_run, attaches, Operation.get_run, found,
    Operation.some_run]

/-- So is a segment that was just attached to. -/
theorem ofAttachment_serves {size : Nat} {attach : Action Store Attachment} {a : Attachment}
    {s' : Store} {g : Segment} {b : Block} (attaches : attach s = .ok a s')
    (fresh : a.attached = true ∧ a.released = false)
    (mapped : s'.mappings[a.mapping]? = some { segment := a.segment })
    (found : s'.segments[a.segment]? = some g) (stored : s'.blocks[g.block]? = some b)
    (live : b.live = true) (fits : size ≤ b.bytes.length) (addresses : size < Word.modulus) :
    ∃ id after, ofAttachment size attach s = .ok (.ofRoot id size) after ∧
      after.Serves id (cut b.bytes 0 size) := by
  have there : s'.isMapped { backing := .segment a, block := g.block, base := 0, length := size } =
      true := by
    simp only [Store.isMapped, mapped]
  obtain ⟨after, run, serves⟩ := newRoot_serves (.segment a) 0 size stored live (by omega)
    (by omega) fresh.1 there fun a' behind => by
      cases behind
      exact fresh.2
  exact ⟨s'.roots.length, after, (ofAttachment_run attaches found).trans run, serves⟩

end Region

end BoundedMemory
