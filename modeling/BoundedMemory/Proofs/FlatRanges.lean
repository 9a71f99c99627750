import BoundedMemory.Proofs.Growth
import BoundedMemory.Proofs.RootContents

/-!
Regions of flat memory as strings of bytes. Where a region is in memory as a whole, a read
cuts its range out of that string and a write splices into it, and two writes one behind
the other are one write.
-/

namespace BoundedMemory

namespace FlatMemory

variable {M M₁ M₂ : FlatMemory} {r : Region} {home : Home} {bytes new now xs ys : Bytes}
  {offset n address : Nat}

theorem locate?_eq_some_iff :
    M.locate? r offset n = some (home, bytes, address) ↔
      ∃ ground, M.grounds r.root = some ground ∧ ground.home = home ∧ M.arrays home = some bytes ∧
        ground.base + r.base + offset = address ∧ r.base + offset + n ≤ ground.length ∧
          address + n ≤ bytes.length := by
  unfold locate?
  simp only [Option.bind_eq_bind, Option.bind_eq_some_iff]
  constructor
  · rintro ⟨ground, there, array, held, found⟩
    split at found
    · rename_i inside
      cases found
      exact ⟨ground, there, rfl, held, rfl, inside⟩
    · cases found
  · rintro ⟨ground, there, rfl, held, rfl, inside⟩
    exact ⟨ground, there, bytes, held, if_pos inside⟩

theorem locate?_inner {i m : Nat} (there : M.locate? r offset n = some (home, bytes, address))
    (fits : i + m ≤ n) : M.locate? r (offset + i) m = some (home, bytes, address + i) := by
  obtain ⟨ground, grounded, homed, held, rfl, low, high⟩ := locate?_eq_some_iff.mp there
  exact locate?_eq_some_iff.mpr
    ⟨ground, grounded, homed, held, by omega, by omega, by omega⟩

/-- A range is found in the same place after its array was changed. -/
theorem locate?_put (there : M.locate? r offset n = some (home, bytes, address))
    (same : new.length = bytes.length) :
    (M.put home new).locate? r offset n = some (home, new, address) := by
  obtain ⟨ground, grounded, homed, -, placed, low, high⟩ := locate?_eq_some_iff.mp there
  exact locate?_eq_some_iff.mpr
    ⟨ground, grounded, homed, if_pos rfl, placed, low, same ▸ high⟩

theorem put_same (held : M.arrays home = some bytes) : M.put home bytes = M := by
  refine congrArg (FlatMemory.mk · M.grounds) (funext fun other => ?_)
  split
  · rename_i here
    rw [here, held]
  · rfl

/-- What is read at once can be read in two parts. -/
theorem read?_append {m : Nat} (read : M.read? r offset (m + n) = some bytes) :
    M.read? r offset m = some (bytes.take m) ∧ M.read? r (offset + m) n = some (bytes.drop m) := by
  unfold read? at read ⊢
  rcases Nat.eq_zero_or_pos (m + n) with nothing | some
  · rw [if_pos nothing] at read
    cases read
    rw [if_pos (by omega), if_pos (by omega), List.take_nil, List.drop_nil]
    exact ⟨rfl, rfl⟩
  · rw [if_neg (Nat.ne_of_gt some), Option.map_eq_some_iff] at read
    obtain ⟨⟨home, held, address⟩, there, rfl⟩ := read
    have front : M.locate? r offset m = .some (home, held, address) :=
      locate?_inner (i := 0) there (by omega)
    have back := locate?_inner there (Nat.le_refl (m + n))
    have inside : address + (m + n) ≤ held.length := by
      obtain ⟨_, -, -, -, -, -, inside⟩ := locate?_eq_some_iff.mp there
      exact inside
    have whole : (cut held address m).length = m := length_cut (by omega)
    simp only [front, back, Option.map_some, cut_add]
    constructor
    · split
      · rename_i none
        subst none
        rfl
      · rw [List.take_left' whole]
    · split
      · rename_i none
        subst none
        rw [List.drop_left' whole, cut_zero]
      · rw [List.drop_left' whole]

/-- Of what is read at once each byte can be read by itself. -/
theorem read?_byte {i : Nat} (read : M.read? r offset n = some bytes) (inside : i < n) :
    M.read? r (offset + i) 1 = some (cut bytes i 1) := by
  obtain ⟨m, rfl⟩ : ∃ m, n = i + (1 + m) := ⟨n - i - 1, by omega⟩
  exact (read?_append (read?_append read).2).1

/-- What was written is read back. -/
theorem read?_written (written : M.write? r offset xs = some M₁) :
    M₁.read? r offset xs.length = some xs := by
  unfold write? at written
  unfold read?
  split at written
  · rename_i nothing
    rw [nothing]
    rfl
  · rename_i some
    have long : xs.length ≠ 0 := fun none => some (List.length_eq_zero_iff.mp none)
    obtain ⟨⟨home, bytes, address⟩, there, rfl⟩ := Option.map_eq_some_iff.mp written
    obtain ⟨_, -, -, -, -, -, inside⟩ := locate?_eq_some_iff.mp there
    rw [if_neg long, locate?_put there (length_splice inside), Option.map_some]
    exact congrArg Option.some (cut_splice_same inside)

/-- A region in memory as a whole, and what is in it. -/
def Filled (M : FlatMemory) (r : Region) (now : Bytes) : Prop :=
  M.read? r 0 r.length = some now

namespace Filled

theorem cases (filled : M.Filled r now) :
    r.length = 0 ∧ now = [] ∨ r.length ≠ 0 ∧ ∃ home bytes address,
      M.locate? r 0 r.length = some (home, bytes, address) ∧ now = cut bytes address r.length := by
  unfold Filled read? at filled
  split at filled
  · rename_i nothing
    cases filled
    exact .inl ⟨nothing, rfl⟩
  · rename_i some
    obtain ⟨⟨home, bytes, address⟩, there, rfl⟩ := Option.map_eq_some_iff.mp filled
    exact .inr ⟨some, home, bytes, address, there, rfl⟩

theorem length (filled : M.Filled r now) : now.length = r.length := by
  obtain ⟨nothing, rfl⟩ | ⟨-, home, bytes, address, there, rfl⟩ := filled.cases
  · exact nothing.symm
  · obtain ⟨_, -, -, -, -, -, inside⟩ := locate?_eq_some_iff.mp there
    exact length_cut inside

theorem read? (filled : M.Filled r now) (fits : offset + n ≤ r.length) :
    M.read? r offset n = some (cut now offset n) := by
  unfold FlatMemory.read?
  rcases Nat.eq_zero_or_pos n with rfl | some
  · rw [if_pos rfl, cut_zero]
  · rw [if_neg (Nat.ne_of_gt some)]
    obtain ⟨nothing, -⟩ | ⟨-, home, bytes, address, there, rfl⟩ := filled.cases
    · omega
    · have inner := locate?_inner there fits
      rw [Nat.zero_add] at inner
      rw [inner, Option.map_some, cut_cut fits]

/-- A write into the region is one into its array. -/
private theorem write?_eq (there : M.locate? r 0 r.length = some (home, bytes, address))
    (some : xs ≠ []) (fits : offset + xs.length ≤ r.length) :
    M.write? r offset xs = .some (M.put home (splice bytes (address + offset) xs)) := by
  have inner := locate?_inner there fits
  rw [Nat.zero_add] at inner
  unfold FlatMemory.write?
  rw [if_neg some, inner, Option.map_some]

/-- What is written replaces its range, and all of the region stays in memory. -/
theorem write? (filled : M.Filled r now) (fits : offset + xs.length ≤ r.length)
    (written : M.write? r offset xs = some M₁) : M₁.Filled r (splice now offset xs) := by
  rcases Decidable.em (xs = []) with rfl | full
  · rw [FlatMemory.write?, if_pos rfl] at written
    cases written
    rw [splice_nil]
    exact filled
  · obtain ⟨nothing, -⟩ | ⟨some, home, bytes, address, there, rfl⟩ := filled.cases
    · exact absurd (List.eq_nil_of_length_eq_zero (by omega)) full
    · rw [write?_eq there full fits] at written
      cases written
      obtain ⟨_, -, -, -, -, -, inside⟩ := locate?_eq_some_iff.mp there
      have same : (splice bytes (address + offset) xs).length = bytes.length :=
        length_splice (by omega)
      unfold Filled FlatMemory.read?
      rw [if_neg some, locate?_put there same, Option.map_some]
      exact congrArg Option.some (cut_splice_inside fits inside)

/-- Writing what is there already changes nothing. -/
theorem write?_same (filled : M.Filled r now) (fits : offset + n ≤ r.length) :
    M.write? r offset (cut now offset n) = some M := by
  have long : (cut now offset n).length = n := length_cut (filled.length ▸ fits)
  rcases Decidable.em (cut now offset n = []) with nothing | full
  · rw [FlatMemory.write?, if_pos nothing]
  · obtain ⟨empty, rfl⟩ | ⟨-, home, bytes, address, there, rfl⟩ := filled.cases
    · simp [cut] at full
    · obtain ⟨_, -, -, held, -, -, inside⟩ := locate?_eq_some_iff.mp there
      rw [write?_eq there full (by omega), cut_cut fits, splice_cut (by omega), put_same held]

/-- Two writes one behind the other are one. -/
theorem write?_append (filled : M.Filled r now) (fits : offset + xs.length + ys.length ≤ r.length)
    (first : M.write? r offset xs = some M₁)
    (second : M₁.write? r (offset + xs.length) ys = some M₂) :
    M.write? r offset (xs ++ ys) = some M₂ := by
  rcases Decidable.em (xs = []) with rfl | front
  · rw [FlatMemory.write?, if_pos rfl] at first
    cases first
    exact second
  · rcases Decidable.em (ys = []) with rfl | back
    · rw [FlatMemory.write?, if_pos rfl] at second
      cases second
      rw [List.append_nil]
      exact first
    · obtain ⟨empty, rfl⟩ | ⟨some, home, bytes, address, there, rfl⟩ := filled.cases
      · exact absurd (List.eq_nil_of_length_eq_zero (by omega)) front
      · obtain ⟨_, -, -, -, -, -, inside⟩ := locate?_eq_some_iff.mp there
        have same : (splice bytes (address + offset) xs).length = bytes.length :=
          length_splice (by omega)
        rw [write?_eq there front (by omega)] at first
        cases first
        rw [write?_eq (locate?_put there same) back (by omega), ← Nat.add_assoc,
          splice_splice_append (by omega), put_put] at second
        rw [write?_eq there (List.append_ne_nil_of_left_ne_nil front ys)
          (by rw [List.length_append]; omega)]
        exact second

end Filled

/-- Two ranges of regions that have no byte in common: they lie in different arrays, or apart
from each other in one. -/
def Clear (M : FlatMemory) (r : Region) (offset n : Nat) (r' : Region) (offset' n' : Nat) : Prop :=
  ∀ ground ground' : Ground, M.grounds r.root = some ground → M.grounds r'.root = some ground' →
    ground.home = ground'.home → ∀ i j, i < n → j < n' →
      ground.base + r.base + offset + i ≠ ground'.base + r'.base + offset' + j

section Apart

variable {r' : Region} {offset' n' : Nat}

/-- Ranges of some length that are clear of each other lie one behind the other. -/
theorem Clear.ordered (clear : M.Clear r offset n r' offset' n') {ground ground' : Ground}
    (there : M.grounds r.root = some ground) (there' : M.grounds r'.root = some ground')
    (same : ground.home = ground'.home) (some : 0 < n) (some' : 0 < n') :
    ground.base + r.base + offset + n ≤ ground'.base + r'.base + offset' ∨
      ground'.base + r'.base + offset' + n' ≤ ground.base + r.base + offset := by
  have apart := clear ground ground' there there' same
  rcases Nat.le_total (ground.base + r.base + offset) (ground'.base + r'.base + offset') with
    before | after
  · refine .inl (Nat.le_of_not_lt fun meets => ?_)
    exact apart (ground'.base + r'.base + offset' - (ground.base + r.base + offset)) 0 (by omega)
      some' (by omega)
  · refine .inr (Nat.le_of_not_lt fun meets => ?_)
    exact apart 0 (ground.base + r.base + offset - (ground'.base + r'.base + offset')) some
      (by omega) (by omega)

theorem Clear.symm (clear : M.Clear r offset n r' offset' n') :
    M.Clear r' offset' n' r offset n := by
  intro ground ground' there there' same i j within within'
  exact (clear ground' ground there' there same.symm j i within' within).symm

/-- Parts of ranges are clear of each other if the ranges are. -/
theorem Clear.inner (clear : M.Clear r offset n r' offset' n') {i m i' m' : Nat}
    (fits : i + m ≤ n) (fits' : i' + m' ≤ n') :
    M.Clear r (offset + i) m r' (offset' + i') m' := by
  intro ground ground' there there' same j j' within within' meets
  exact clear ground ground' there there' same (i + j) (i' + j') (by omega) (by omega) (by omega)

theorem write?_grounds (written : M.write? r offset xs = some M₁) : M₁.grounds = M.grounds := by
  unfold write? at written
  split at written
  · cases written
    rfl
  · obtain ⟨⟨home, bytes, address⟩, -, rfl⟩ := Option.map_eq_some_iff.mp written
    rfl

theorem Clear.congr (clear : M.Clear r offset n r' offset' n') (same : M₁.grounds = M.grounds) :
    M₁.Clear r offset n r' offset' n' := by
  unfold Clear at clear ⊢
  rw [same]
  exact clear

/-- Ranges of one region are clear of each other if one lies behind the other. -/
theorem clear_of_apart (apart : offset + n ≤ offset' ∨ offset' + n' ≤ offset) :
    M.Clear r offset n r offset' n' := by
  intro ground ground' there there' _ i j _ _
  rw [there, Option.some.injEq] at there'
  subst there'
  omega

/-- A write is not seen by a read of a range that it does not meet. -/
theorem Clear.read? (clear : M.Clear r offset n r' offset' xs.length)
    (written : M.write? r' offset' xs = some M₁) : M₁.read? r offset n = M.read? r offset n := by
  unfold write? at written
  split at written
  · cases written
    rfl
  · rename_i full
    obtain ⟨⟨home, bytes, address⟩, there, rfl⟩ := Option.map_eq_some_iff.mp written
    obtain ⟨ground', grounded', rfl, held, rfl, -, inside⟩ := locate?_eq_some_iff.mp there
    have same : (splice bytes (ground'.base + r'.base + offset') xs).length = bytes.length :=
      length_splice inside
    unfold FlatMemory.read?
    by_cases nothing : n = 0
    · rw [if_pos nothing, if_pos nothing]
    rw [if_neg nothing, if_neg nothing]
    unfold locate?
    cases grounded : M.grounds r.root with
    | none => simp only [put, grounded, Option.bind_eq_bind, Option.bind_none]
    | some ground =>
        by_cases here : ground.home = ground'.home
        · have apart := clear.ordered grounded grounded' here (Nat.pos_of_ne_zero nothing)
            (List.length_pos_iff.mpr full)
          simp only [put, grounded, here, held, if_true, same, Option.bind_eq_bind,
            Option.bind_some]
          split
          · rw [Option.map_some, Option.map_some, cut_splice_disjoint inside (by omega)]
          · rfl
        · simp only [put, grounded, here, if_false, Option.bind_eq_bind, Option.bind_some]

end Apart

end FlatMemory

end BoundedMemory
