import BoundedMemory.Proofs.Accounting
import BoundedMemory.Proofs.Anchoring
import BoundedMemory.Proofs.Mappings

/-!
Memory that is there. A region that keeps to its root, and whose root is held, has all of
its bytes in live memory for as long as the root is valid, and the places of these bytes
are words. Nothing more is needed for a raw access.
-/

namespace BoundedMemory

/-- A store in which everything is where the others take it to be. -/
structure Store.Sound (s : Store) : Prop where
  apart : s.Apart
  accounted : s.Accounted
  placed : s.Placed
  mapped : s.Mapped

theorem Store.Sound.empty {machine : Machine} : ({ machine } : Store).Sound where
  apart := .empty
  accounted := .empty
  placed := .empty
  mapped := .empty

theorem Store.Changes.sound {sweeping : Prop} {s s' : Store} (changes : Changes True sweeping s s')
    (h : s.Sound) : s'.Sound where
  apart := changes.apart h.apart
  accounted := changes.accounted h.apart h.accounted
  placed := changes.placed h.placed
  mapped := changes.mapped h.mapped

namespace Region

/-- A region that is a range of its root. -/
def Fits (r : Region) (s : Store) : Prop :=
  ∃ root, s.roots[r.root]? = some root ∧ r.base + r.length ≤ root.length

/-- A region whose ranges are among the words, and whose memory is there while it is valid. -/
structure Served (r : Region) (s : Store) : Prop where
  words : r.base + r.length < Word.modulus
  reach {offset n : Nat} : r.isValid s = true → offset + n ≤ r.length → n ≠ 0 →
    ∃ root b, r.Reaches s offset n root b

variable {r : Region} {s s' : Store}

/-- Roots stay, and stay as long as they are. -/
theorem Fits.later {orderly sweeping : Prop} (h : r.Fits s)
    (changes : Store.Changes orderly sweeping s s') : r.Fits s' := by
  obtain ⟨root, found, inside⟩ := h
  obtain ⟨root', found', later⟩ := changes.later found
  exact ⟨root', found', later.length ▸ inside⟩

/-- The memory of a root that is valid and held was not given back. -/
private theorem unspent {root : Root} (sound : s.Sound) (attended : s.Attended)
    (found : s.roots[r.root]? = some root) (held : root.held = true) (valid : root.isValid = true)
    (some : root.length ≠ 0) : ¬ s.Spent root.block := by
  rintro ⟨home, there, spent⟩
  have own := (sound.apart.homed r.root root found).resolve_left some
  have same := sound.apart.distinct home _ root.block there own
  subst same
  cases behind : root.backing with
  | array alive =>
      rw [behind] at spent
      simp [Store.spent, Backing.home, found, Root.spent, behind, held] at spent
  | heap alive =>
      rw [Root.isValid, behind] at valid
      rw [behind] at spent
      simp [Store.spent, Backing.home, found, Root.spent, behind, valid] at spent
  | buffer id alive =>
      have there := attended r.root root id found held (by rw [behind]; rfl)
      rw [behind] at spent
      simp only [Store.spent, Backing.home, Store.bufferAlive] at spent there
      cases kept : s.buffers[id]? with
      | none => simp [kept] at there
      | some b => simp_all [Buffer.spent]
  | segment a =>
      rw [Root.isValid, behind] at valid
      have through : s.through? r.root = Option.some (a.mapping, a.segment) := by
        simp only [Store.through?, found, Option.bind_some, Root.through?, behind, valid, if_true]
      obtain ⟨g, standing, there⟩ := sound.mapped.standing (sound.mapped.live through)
      rw [behind] at spent
      simp [Store.spent, Backing.home, standing, Segment.spent, there] at spent

private theorem isMapped {root : Root} (mapped : s.Mapped) (found : s.roots[r.root]? = some root)
    (valid : root.isValid = true) : s.isMapped root = true := by
  unfold Store.isMapped
  cases behind : root.backing with
  | segment a =>
      rw [Root.isValid, behind] at valid
      have through : s.through? r.root = some (a.mapping, a.segment) := by
        simp only [Store.through?, found, Option.bind_some, Root.through?, behind, valid, if_true]
      simp only [mapped.live through]
  | _ => rfl

theorem Fits.served (h : r.Fits s) (sound : s.Sound) (attended : s.Attended)
    (held : s.rootHeld r.root = true) : r.Served s := by
  obtain ⟨root, found, inside⟩ := h
  obtain ⟨size, extent, within⟩ := sound.placed.roots found
  have words := sound.placed.words extent
  obtain ⟨b, stored, length⟩ := Option.map_eq_some_iff.mp extent
  constructor
  · omega
  · intro offset n valid fits some
    have valid : root.isValid = true := by
      simpa only [isValid, Store.isValid, found] using valid
    have held : root.held = true := by
      simpa only [Store.rootHeld, found, Option.any_some] using held
    refine ⟨root, b, found, stored, valid, isMapped sound.mapped found valid, ?_, ?_, ?_, ?_, ?_⟩
    · exact sound.accounted.live stored (unspent sound attended found held valid (by omega))
    all_goals omega

end Region

end BoundedMemory
